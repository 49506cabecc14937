/-
Lines and words of bytes that are decoded.

An ASCII byte is decoded as itself whatever stands before it, and nothing else is decoded as
an ASCII character.  So the lines of the text are those of the bytes.
-/
import RtProxy.Lib.Trim

namespace Text

/-! ## ASCII -/

/-- What is under way is going to be no ASCII character. -/
def Partial.Wide (p : Partial) : Prop :=
  0 < p.need ∧ 0x80 ≤ p.lo.toNat ∧
    0x80 ≤ (p.acc * 64 + (p.lo.toNat - 0x80)) * 64 ^ (p.need - 1)

instance (p : Partial) : Decidable p.Wide := inferInstanceAs (Decidable (_ ∧ _))

theorem wide_of_lead {b : UInt8} {p : Partial} (h : lead b = .more p) : p.Wide := by
  have hall : ∀ n < 256, (match lead (UInt8.ofNat n) with
      | .more p => decide p.Wide
      | _ => true) = true := by decide +kernel
  have hb := hall b.toNat b.toNat_lt
  rw [UInt8.ofNat_toNat, h] at hb
  exact of_decide_eq_true hb

section

variable {p : Partial} {b : UInt8} {c : Char}

theorem Partial.Wide.le (h : p.Wide) (hb : p.lo ≤ b) :
    0x80 ≤ (p.acc * 64 + (b.toNat - 0x80)) * 64 ^ (p.need - 1) := by
  have hle : p.lo.toNat ≤ b.toNat := hb
  exact Nat.le_trans h.2.2 (Nat.mul_le_mul_right _ (by omega))

theorem Partial.Wide.next (h : p.Wide) (hneed : p.need ≠ 1) (hb : p.lo ≤ b) :
    Partial.Wide ⟨p.need - 1, 0x80, 0xBF, p.acc * 64 + (b.toNat - 0x80)⟩ := by
  have hpos := h.1
  have hle := h.le hb
  have hpow : 64 ^ (p.need - 1) = 64 * 64 ^ (p.need - 1 - 1) := by
    rw [← Nat.pow_succ', Nat.succ_eq_add_one, Nat.sub_add_cancel (by omega)]
  have hlo : (0x80 : UInt8).toNat = 0x80 := rfl
  refine ⟨by simp only; omega, Nat.le_of_eq hlo.symm, ?_⟩
  simp only [hlo, Nat.sub_self, Nat.add_zero]
  rwa [Nat.mul_assoc, ← hpow]

theorem lead_ascii (h : b < 0x80) : lead b = .char (Char.ofNat b.toNat) := if_pos h

theorem eq_of_lead (h : lead b = .char c) : b < 0x80 ∧ c = Char.ofNat b.toNat := by
  unfold lead at h
  split_ifs at h with hb
  exact ⟨hb, (Lead.char.inj h).symm⟩

theorem ne_ofNat {n : Nat} (hn : 0x80 ≤ n) (hpos : 0 < c.toNat) (hc : c.toNat < 0x80) :
    c ≠ Char.ofNat n := by
  rintro rfl
  by_cases hvalid : n.isValidChar
  · have hn' : (Char.ofNat n).toNat = n := by
      rw [Char.ofNat, dif_pos hvalid]
      rfl
    omega
  · have hzero : (Char.ofNat n).toNat = 0 := by
      rw [Char.ofNat, dif_neg hvalid]
      rfl
    omega

end

/-- An ASCII byte is decoded as itself. -/
theorem lossyChars_append_ascii {b : UInt8} (h : b < 0x80) (more bs : Bytes) {p : Option Partial}
    (hp : ∀ q ∈ p, q.Wide) :
    lossyChars p (bs ++ b :: more) =
      lossyChars p bs ++ Char.ofNat b.toNat :: lossyChars none more := by
  induction bs generalizing p with
  | nil =>
    cases p with
    | none => simp [lossyChars, lead_ascii h]
    | some p =>
      have hlo : ¬ (p.lo ≤ b ∧ b ≤ p.hi) := fun hin => by
        have hle : p.lo.toNat ≤ b.toNat := hin.1
        have hlt : b.toNat < 0x80 := h
        have := (hp p rfl).2.1
        omega
      simp [lossyChars, lead_ascii h, hlo]
  | cons d bs ih =>
    have hnone : ∀ q ∈ (none : Option Partial), q.Wide := fun q hq => by cases hq
    have hsome {q : Partial} (hq : q.Wide) : ∀ q' ∈ some q, q'.Wide := fun q' hq' => by
      cases hq'
      exact hq
    cases p with
    | none =>
      rw [List.cons_append, lossyChars, lossyChars]
      cases hlead : lead d with
      | char c => simp [ih hnone]
      | bad => simp [ih hnone]
      | more q => simp [ih (hsome (wide_of_lead hlead))]
    | some p =>
      rw [List.cons_append, lossyChars, lossyChars]
      by_cases hin : p.lo ≤ d ∧ d ≤ p.hi
      · by_cases hneed : p.need = 1
        · simp [hin, hneed, ih hnone]
        · simp [hin, hneed, ih (hsome ((hp p rfl).next hneed hin.1))]
      · rw [if_neg hin, if_neg hin]
        cases hlead : lead d with
        | char c => simp [ih hnone]
        | bad => simp [ih hnone]
        | more q => simp [ih (hsome (wide_of_lead hlead))]

/-- Only an ASCII byte is decoded as an ASCII character. -/
theorem mem_of_mem_lossyChars {c : Char} (hpos : 0 < c.toNat) (hc : c.toNat < 0x80) {bs : Bytes}
    {p : Option Partial} (hp : ∀ q ∈ p, q.Wide) (h : c ∈ lossyChars p bs) :
    UInt8.ofNat c.toNat ∈ bs := by
  have hrep : c ≠ replacement := ne_ofNat (by decide) hpos hc
  have hnone : ∀ q ∈ (none : Option Partial), q.Wide := fun q hq => by cases hq
  have hsome {q : Partial} (hq : q.Wide) : ∀ q' ∈ some q, q'.Wide := fun q' hq' => by
    cases hq'
    exact hq
  have hchar {d : UInt8} (hlead : lead d = .char c) : UInt8.ofNat c.toNat = d := by
    obtain ⟨hd, rfl⟩ := eq_of_lead hlead
    rw [toNat_ofNat (n := d.toNat) hd, UInt8.ofNat_toNat]
  induction bs generalizing p with
  | nil =>
    cases p with
    | none => cases h
    | some p => exact absurd (List.mem_singleton.mp h) hrep
  | cons d bs ih =>
    cases p with
    | none =>
      rw [lossyChars] at h
      cases hlead : lead d with
      | char c' =>
        rw [hlead] at h
        rcases List.mem_cons.mp h with rfl | h
        · exact List.mem_cons.mpr (.inl (hchar hlead))
        · exact List.mem_cons_of_mem _ (ih hnone h)
      | bad =>
        rw [hlead] at h
        exact List.mem_cons_of_mem _ (ih hnone ((List.mem_cons.mp h).resolve_left hrep))
      | more q =>
        rw [hlead] at h
        exact List.mem_cons_of_mem _ (ih (hsome (wide_of_lead hlead)) h)
    | some p =>
      rw [lossyChars] at h
      by_cases hin : p.lo ≤ d ∧ d ≤ p.hi
      · rw [if_pos hin] at h
        by_cases hneed : p.need = 1
        · rw [if_pos hneed] at h
          have hle := (hp p rfl).le hin.1
          rw [hneed, Nat.sub_self, Nat.pow_zero, Nat.mul_one] at hle
          exact List.mem_cons_of_mem _
            (ih hnone ((List.mem_cons.mp h).resolve_left (ne_ofNat hle hpos hc)))
        · rw [if_neg hneed] at h
          exact List.mem_cons_of_mem _ (ih (hsome ((hp p rfl).next hneed hin.1)) h)
      · rw [if_neg hin] at h
        cases hlead : lead d with
        | char c' =>
          rw [hlead] at h
          rcases List.mem_cons.mp ((List.mem_cons.mp h).resolve_left hrep) with rfl | h
          · exact List.mem_cons.mpr (.inl (hchar hlead))
          · exact List.mem_cons_of_mem _ (ih hnone h)
        | bad =>
          rw [hlead] at h
          have h' := (List.mem_cons.mp h).resolve_left hrep
          exact List.mem_cons_of_mem _ (ih hnone ((List.mem_cons.mp h').resolve_left hrep))
        | more q =>
          rw [hlead] at h
          exact List.mem_cons_of_mem _
            (ih (hsome (wide_of_lead hlead)) ((List.mem_cons.mp h).resolve_left hrep))

/-! ## Substrings -/

/-- `str::contains` for a string. -/
def hasSub (s pat : String) : Bool := (cutSub pat.toList s.toList).isSome

theorem hasSub_iff {s pat : String} : hasSub s pat = true ↔ pat.toList <:+: s.toList := by
  unfold hasSub
  rw [Option.isSome_iff_exists]
  constructor
  · intro ⟨⟨a, b⟩, h⟩
    exact ⟨a, b, (eq_of_cutSub h).symm⟩
  · intro ⟨a, b, h⟩
    obtain ⟨x, y, hcut, _⟩ := cutSub_first h.symm
    exact ⟨(x, y), hcut⟩

/-! ## Words -/

theorem not_white_of_dropEndWhile {l : List Char} {c : Char}
    (h : c ∈ (dropEndWhile isWhite l).getLast?) : isWhite c = false := by
  unfold dropEndWhile at h
  rw [List.getLast?_reverse] at h
  have hhead := List.head?_dropWhile_not isWhite l.reverse
  rw [h] at hhead
  simpa using hhead

/-- White space at the end adds no word. -/
theorem words_append_white {l w : List Char} (hl : ∀ c ∈ l.getLast?, isWhite c = false)
    (hw : ∀ c ∈ w, isWhite c = true) :
    splitWhitespace (String.ofList (l ++ w)) = splitWhitespace (String.ofList l) := by
  cases w with
  | nil => rw [List.append_nil]
  | cons a w =>
    have hsplit := List.splitBy_append_cons (r := fun a b => isWhite a == isWhite b) w
      (l := l) (a := a) fun c hc => by
        rw [hl c hc, hw a List.mem_cons_self]
        rfl
    have hall : (a :: w).all isWhite = true := List.all_eq_true.mpr hw
    unfold splitWhitespace
    rw [String.toList_ofList, String.toList_ofList, hsplit,
      splitBy_uniform true (List.cons_ne_nil _ _) hw, List.filter_append]
    simp only [List.filter_cons, hall]
    simp

theorem splitWhitespace_append_white {w : List Char} (hw : ∀ c ∈ w, isWhite c = true)
    (l : List Char) :
    splitWhitespace (String.ofList (l ++ w)) = splitWhitespace (String.ofList l) := by
  obtain ⟨b, hb, hl⟩ := exists_dropEndWhile isWhite l
  have hlast : ∀ c ∈ (dropEndWhile isWhite l).getLast?, isWhite c = false :=
    fun c hc => not_white_of_dropEndWhile hc
  have hboth : ∀ c ∈ b ++ w, isWhite c = true := List.forall_mem_append.mpr ⟨hb, hw⟩
  conv_lhs => rw [hl, List.append_assoc, words_append_white hlast hboth]
  conv_rhs => rw [hl, words_append_white hlast hb]

/-- A word stands in the text. -/
theorem infix_of_mem_splitWhitespace {s w : String} (h : w ∈ splitWhitespace s) :
    w.toList <:+: s.toList := by
  obtain ⟨l, hl, rfl⟩ := List.mem_map.mp h
  rw [String.toList_ofList]
  have hflat := List.flatten_splitBy (fun a b => isWhite a == isWhite b) s.toList
  rw [← hflat]
  exact List.infix_of_mem_flatten (List.mem_of_mem_filter hl)

/-! ## The first line -/

/-- The first of the `str::lines`, or nothing. -/
def firstLine (s : String) : String :=
  match cutFirst '\n' s.toList with
  | none => s
  | some (line, _) =>
    String.ofList (if line.getLast? = some '\r' then line.dropLast else line)

/-- The words of the first line are those of the bytes up to the first line feed. -/
theorem words_firstLine {line : Bytes} (h : 0x0A ∉ line) (rest : Bytes) :
    splitWhitespace (firstLine (fromUtf8Lossy (line ++ 0x0A :: rest))) =
      splitWhitespace (fromUtf8Lossy (line ++ [0x0A])) := by
  have hnone : ∀ q ∈ (none : Option Partial), q.Wide := fun q hq => by cases hq
  have hlf : (0x0A : UInt8) < 0x80 := by decide
  have hnot : '\n' ∉ lossyChars none line := fun hmem =>
    h (mem_of_mem_lossyChars (by decide) (by decide) hnone hmem)
  have hwhite : ∀ c ∈ ['\n'], isWhite c = true := by decide
  have hcr : ∀ c ∈ ['\r'], isWhite c = true := by decide
  unfold firstLine fromUtf8Lossy
  rw [String.toList_ofList, lossyChars_append_ascii hlf rest line hnone,
    lossyChars_append_ascii hlf [] line hnone]
  change splitWhitespace (match cutFirst '\n' (lossyChars none line ++ '\n' :: _) with
    | none => _
    | some (line, _) => String.ofList (if line.getLast? = some '\r' then line.dropLast else line)) =
      splitWhitespace (String.ofList (lossyChars none line ++ ['\n']))
  rw [cutFirst_append hnot, splitWhitespace_append_white hwhite]
  simp only
  split_ifs with hlast
  · rw [← splitWhitespace_append_white hcr, List.dropLast_append_getLast? _ hlast]
  · rfl

end Text
