import RtProxy.Lib.Cut
import RtProxy.Lib.Glob
import RtProxy.Permissions

/-!
What a pattern of a rule matches (`go_glob` in `permissions.rs`).

The parts before the last are looked for from the left, each at its first place.  This
leaves the longest end of the subject, so the last part is found if any places leave it.
-/

namespace RtProxy

open Text

/-! ## The code -/

/-- The loop of `go_glob` over the parts before the last, `i` the number of the next one. -/
def globLoop (leadingGlob : Bool) : Nat → List (List Char) → List Char → Option (List Char)
  | _, [], subj => some subj
  | i, part :: parts, subj =>
    let idx := (cutSub part subj).map fun x => x.1.length
    if i = 0 ∧ leadingGlob = false ∧ idx ≠ some 0 then none
    else if i ≠ 0 ∧ idx = none then none
    else globLoop leadingGlob (i + 1) parts (subj.drop (idx.getD 0 + part.length))

/-- `go_glob` with each of its cases. -/
def globScan (pattern subj : String) : Bool :=
  if pattern = "" then subj = pattern
  else if pattern = "*" then true
  else
    let parts := pieces '*' pattern.toList
    if parts.length = 1 then subj = pattern
    else
      match globLoop (startsWith pattern "*") 0 parts.dropLast subj.toList with
      | some rest => endsWith pattern "*" || (parts.getLastD []).isSuffixOf rest
      | none => false

theorem cutSub_nil (cs : List Char) : cutSub [] cs = some ([], cs) := by
  cases cs <;> rfl

theorem length_of_cutSub {pat cs a b : List Char} (h : cutSub pat cs = some (a, b)) :
    cs.drop (a.length + pat.length) = b := by
  rw [eq_of_cutSub h, ← List.length_append, List.drop_left]

/-- Found at its first place, a part is a prefix or it is none. -/
theorem cutSub_zero {pat cs : List Char} :
    (cutSub pat cs).map (fun x => x.1.length) = some 0 ↔ pat.isPrefixOf cs = true := by
  cases cs with
  | nil => cases pat <;> simp [cutSub]
  | cons c cs =>
    rw [cutSub]
    split_ifs with hpre
    · exact iff_of_true rfl hpre
    · refine iff_of_false (fun h => ?_) hpre
      cases hcut : cutSub pat cs with
      | none =>
        rw [hcut] at h
        cases h
      | some x =>
        rw [hcut] at h
        cases h

/-- Behind the first part the loop looks for one part after the other. -/
theorem globLoop_eq_middle (leadingGlob : Bool) (i : Nat) (parts : List (List Char))
    (subj : List Char) : globLoop leadingGlob (i + 1) parts subj = globMiddle parts subj := by
  induction parts generalizing i subj with
  | nil => rfl
  | cons part parts ih =>
    rw [globLoop, globMiddle]
    cases hcut : cutSub part subj with
    | none => simp
    | some x =>
      have hdrop := length_of_cutSub hcut
      simp only [Option.map_some, Option.getD_some, hdrop]
      rw [if_neg (by simp), if_neg (by simp), ih]

theorem globLoop_first {leadingGlob : Bool} {first : List Char}
    (h : leadingGlob = true → first = []) (parts : List (List Char)) (subj : List Char) :
    globLoop leadingGlob 0 (first :: parts) subj =
      if first.isPrefixOf subj then globMiddle parts (subj.drop first.length) else none := by
  rw [globLoop]
  cases leadingGlob with
  | true =>
    obtain rfl := h rfl
    rw [cutSub_nil]
    simp [globLoop_eq_middle]
  | false =>
    by_cases hpre : first.isPrefixOf subj = true
    · have hidx := cutSub_zero.mpr hpre
      simp only [hidx]
      rw [if_neg (by simp), if_neg (by simp), if_pos hpre, globLoop_eq_middle, Option.getD_some,
        Nat.zero_add]
    · rw [if_pos ⟨rfl, rfl, mt cutSub_zero.mp hpre⟩, if_neg hpre]

theorem pieces_star_nil {cs : List Char} (h : startsWith (String.ofList cs) "*" = true) :
    ∃ parts, pieces '*' cs = [] :: parts := by
  cases cs with
  | nil => cases h
  | cons c cs =>
    unfold startsWith at h
    rw [String.toList_ofList] at h
    have hc : '*' = c := by simpa [List.isPrefixOf] using h
    exact ⟨pieces '*' cs, by rw [pieces, if_pos hc.symm]⟩

/-- A separator at the end makes the last piece empty. -/
theorem pieces_concat (sep : Char) (cs : List Char) :
    pieces sep (cs ++ [sep]) = pieces sep cs ++ [[]] := by
  induction cs with
  | nil => simp [pieces]
  | cons c cs ih =>
    rw [List.cons_append, pieces, pieces, ih]
    split_ifs
    · rfl
    · cases hp : pieces sep cs with
      | nil => exact absurd hp (pieces_ne_nil sep cs)
      | cons p ps => rfl

theorem getLastD_of_star {cs : List Char} (h : endsWith (String.ofList cs) "*" = true) :
    (pieces '*' cs).getLastD [] = [] := by
  have hcs : (String.ofList cs).toList = cs := String.toList_ofList
  rw [endsWith, hcs, List.isSuffixOf_iff_suffix] at h
  obtain ⟨front, rfl⟩ := h
  have hstar : ("*" : String).toList = ['*'] := rfl
  rw [hstar, pieces_concat]
  simp

/-- The cases are those of the loop over the parts. -/
theorem globScan_eq (pattern subj : String) : globScan pattern subj = goGlob pattern subj := by
  unfold globScan goGlob
  split_ifs with hempty hstar
  · rw [hempty]
    rfl
  · rw [hstar]
    rfl
  · cases hp : pieces '*' pattern.toList with
    | nil => exact absurd hp (pieces_ne_nil _ _)
    | cons first parts =>
      cases parts with
      | nil => rfl
      | cons part parts =>
        have hlast := @getLastD_of_star pattern.toList
        have hlead := @pieces_star_nil pattern.toList
        rw [String.ofList_toList, hp] at hlast hlead
        have hfirst (h : startsWith pattern "*" = true) : first = [] := by
          obtain ⟨_, heq⟩ := hlead h
          cases heq
          rfl
        have hlen : ¬ (first :: part :: parts).length = 1 := by simp
        simp only [List.dropLast_cons_cons]
        rw [if_neg hlen, globLoop_first hfirst]
        by_cases hpre : first.isPrefixOf subj.toList = true
        · rw [if_pos hpre, hpre, Bool.true_and]
          cases globMiddle (part :: parts).dropLast (subj.toList.drop first.length) with
          | none => rfl
          | some rest =>
            cases hend : endsWith pattern "*" with
            | false => rfl
            | true =>
              have hnil : (part :: parts).getLastD [] = [] := hlast hend
              simp only [hnil, Bool.true_or]
              rfl
        · rw [if_neg hpre, Bool.eq_false_iff.mpr hpre, Bool.false_and]

/-! ## What it matches -/

/-- What the parts leave of the subject is the longest end that any places of them leave. -/
theorem reaches_iff_globMiddle {parts : List (List Char)} {subj rest : List Char} :
    Glob.Reaches parts subj rest ↔ ∃ left, globMiddle parts subj = some left ∧ rest <:+ left := by
  induction parts generalizing subj with
  | nil =>
    constructor
    · exact fun h => ⟨subj, rfl, h⟩
    · rintro ⟨left, hleft, h⟩
      cases hleft
      exact h
  | cons part parts ih =>
    rw [globMiddle]
    constructor
    · rintro ⟨gap, mid, hsubj, hmid⟩
      obtain ⟨a, b, hcut, hle⟩ := cutSub_first hsubj
      rw [hcut]
      exact ih.mp (hmid.mono hle)
    · cases hcut : cutSub part subj with
      | none =>
        rintro ⟨left, hleft, -⟩
        cases hleft
      | some x =>
        intro h
        exact ⟨x.1, x.2, eq_of_cutSub hcut, ih.mpr h⟩

/-- The subject is the parts of the pattern between its stars, in order, with strings
between them. -/
def Globbed (pattern subj : String) : Prop :=
  ∃ first parts, pieces '*' pattern.toList = first :: parts ∧ Glob.Matches first parts subj.toList

theorem goGlob_iff (pattern subj : String) : goGlob pattern subj = true ↔ Globbed pattern subj := by
  unfold goGlob Globbed
  cases hp : pieces '*' pattern.toList with
  | nil => exact absurd hp (pieces_ne_nil _ _)
  | cons first parts =>
    have hpattern := intercalate_pieces '*' pattern.toList
    rw [hp] at hpattern
    cases parts with
    | nil =>
      have hfirst : first = pattern.toList := by simpa [List.intercalate] using hpattern
      simp only [decide_eq_true_eq]
      constructor
      · rintro rfl
        exact ⟨first, [], rfl, Glob.matches_nil.mpr hfirst.symm⟩
      · rintro ⟨_, _, heq, h⟩
        cases heq
        exact String.toList_inj.mp ((Glob.matches_nil.mp h).trans hfirst)
    | cons part parts =>
      have hparts : part :: parts = (part :: parts).dropLast ++ [(part :: parts).getLastD []] :=
        (List.dropLast_concat_getLast (List.cons_ne_nil part parts)).symm
      have hiff := @Glob.matches_iff Char first ((part :: parts).getLastD [])
        (part :: parts).dropLast subj.toList
      rw [← hparts] at hiff
      have hsome : (∃ f ps, first :: part :: parts = f :: ps ∧ Glob.Matches f ps subj.toList) ↔
          Glob.Matches first (part :: parts) subj.toList := by
        constructor
        · rintro ⟨f, ps, heq, h⟩
          cases heq
          exact h
        · exact fun h => ⟨_, _, rfl, h⟩
      rw [hsome, hiff, Bool.and_eq_true, List.isPrefixOf_iff_prefix]
      constructor
      · rintro ⟨⟨left, hleft⟩, hrest⟩
        refine ⟨left, hleft.symm, reaches_iff_globMiddle.mpr ?_⟩
        rw [← hleft, List.drop_left] at hrest
        split at hrest
        · rename_i rest hmiddle
          exact ⟨rest, hmiddle, List.isSuffixOf_iff_suffix.mp hrest⟩
        · cases hrest
      · rintro ⟨left, hleft, hreach⟩
        obtain ⟨rest, hmiddle, hrest⟩ := reaches_iff_globMiddle.mp hreach
        refine ⟨⟨left, hleft.symm⟩, ?_⟩
        rw [hleft, List.drop_left]
        simp only [hmiddle]
        exact List.isSuffixOf_iff_suffix.mpr hrest

/-- `go_glob` matches exactly the subjects that are the parts of the pattern with any strings
for its stars. -/
theorem go_glob_matches (pattern subj : String) :
    globScan pattern subj = true ↔ ∃ first parts, pieces '*' pattern.toList = first :: parts ∧
      Glob.Matches first parts subj.toList := by
  rw [globScan_eq]
  exact goGlob_iff pattern subj

end RtProxy
