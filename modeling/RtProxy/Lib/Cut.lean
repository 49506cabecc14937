/-
What cutting a string undoes.

A cut at the first separator takes apart what was joined from a front without
separators, a cut at the last one what was joined from a back without any.  Numbers
that are printed are read back.
-/
import RtProxy.Lib.Text
import Mathlib.Data.List.Induction

namespace Text

/-! ## Cutting -/

section

variable {sep : Char} {a b cs : List Char}

theorem cutFirst_append (h : sep ∉ a) (b : List Char) :
    cutFirst sep (a ++ sep :: b) = some (a, b) := by
  induction a with
  | nil => rw [List.nil_append, cutFirst, if_pos rfl]
  | cons c a ih =>
    rw [List.mem_cons, not_or] at h
    rw [List.cons_append, cutFirst, if_neg (Ne.symm h.1), ih h.2]
    rfl

theorem eq_of_cutFirst (h : cutFirst sep cs = some (a, b)) : cs = a ++ sep :: b ∧ sep ∉ a := by
  induction cs generalizing a with
  | nil => cases h
  | cons c cs ih =>
    rw [cutFirst] at h
    split_ifs at h with hc
    · cases h
      exact ⟨by rw [hc, List.nil_append], List.not_mem_nil⟩
    · obtain ⟨⟨a', b'⟩, hcut, heq⟩ := Option.map_eq_some_iff.mp h
      cases heq
      obtain ⟨rfl, hnot⟩ := ih hcut
      exact ⟨rfl, List.not_mem_cons_of_ne_of_not_mem (Ne.symm hc) hnot⟩

theorem cutLast_eq_none : cutLast sep cs = none ↔ sep ∉ cs := by
  induction cs with
  | nil => exact ⟨fun _ => List.not_mem_nil, fun _ => rfl⟩
  | cons c cs ih =>
    rw [cutLast, List.mem_cons, not_or]
    cases hcut : cutLast sep cs with
    | some x =>
      have hmem : ¬ sep ∉ cs := fun h => by
        rw [ih.mpr h] at hcut
        cases hcut
      simp [hmem]
    | none =>
      have hmem : sep ∉ cs := ih.mp hcut
      by_cases hc : c = sep <;> simp [hc, hmem, Ne.symm]

theorem cutLast_append (a : List Char) (h : sep ∉ b) :
    cutLast sep (a ++ sep :: b) = some (a, b) := by
  induction a with
  | nil => rw [List.nil_append, cutLast, cutLast_eq_none.mpr h, if_pos rfl]
  | cons c a ih => rw [List.cons_append, cutLast, ih]

theorem eq_of_cutLast (h : cutLast sep cs = some (a, b)) : cs = a ++ sep :: b ∧ sep ∉ b := by
  induction cs generalizing a with
  | nil => cases h
  | cons c cs ih =>
    rw [cutLast] at h
    cases hcut : cutLast sep cs with
    | some x =>
      rw [hcut] at h
      cases h
      obtain ⟨rfl, hnot⟩ := ih (a := x.1) hcut
      exact ⟨rfl, hnot⟩
    | none =>
      rw [hcut] at h
      simp only at h
      split_ifs at h with hc
      cases h
      exact ⟨by rw [hc, List.nil_append], cutLast_eq_none.mp hcut⟩

theorem cutLast_eq_some : cutLast sep cs = some (a, b) ↔ cs = a ++ sep :: b ∧ sep ∉ b := by
  constructor
  · exact eq_of_cutLast
  · rintro ⟨rfl, h⟩
    exact cutLast_append a h

theorem eq_of_cutSub {pat cs a b : List Char} (h : cutSub pat cs = some (a, b)) :
    cs = a ++ pat ++ b := by
  induction cs generalizing a with
  | nil =>
    unfold cutSub at h
    split_ifs at h with hpat
    subst hpat
    cases h
    rfl
  | cons c cs ih =>
    unfold cutSub at h
    split_ifs at h with hpre
    · cases h
      obtain ⟨rest, hrest⟩ := List.isPrefixOf_iff_prefix.mp hpre
      rw [← hrest, List.drop_left, List.nil_append]
    · obtain ⟨x, hx, hxa⟩ := Option.map_eq_some_iff.mp h
      cases hxa
      rw [ih hx]
      rfl

/-- More text behind does not move the first occurrence. -/
theorem cutSub_append {pat cs a b : List Char} (h : cutSub pat cs = some (a, b))
    (more : List Char) : cutSub pat (cs ++ more) = some (a, b ++ more) := by
  induction cs generalizing a with
  | nil =>
    unfold cutSub at h
    split_ifs at h with hpat
    subst hpat
    cases h
    cases more <;> rfl
  | cons c cs ih =>
    unfold cutSub at h
    split_ifs at h with hpre
    · cases h
      have hle := (List.isPrefixOf_iff_prefix.mp hpre).length_le
      have hpre' : pat.isPrefixOf (c :: (cs ++ more)) = true :=
        List.isPrefixOf_iff_prefix.mpr
          ((List.isPrefixOf_iff_prefix.mp hpre).trans (List.prefix_append (c :: cs) more))
      rw [List.cons_append, cutSub, if_pos hpre', ← List.cons_append,
        List.drop_append_of_le_length hle]
    · obtain ⟨x, hx, hxa⟩ := Option.map_eq_some_iff.mp h
      cases hxa
      have hpre' : ¬ pat.isPrefixOf (c :: (cs ++ more)) = true := by
        intro hp
        have hlen := congrArg List.length (eq_of_cutSub hx)
        simp only [List.length_append] at hlen
        apply hpre
        rw [List.isPrefixOf_iff_prefix] at hp ⊢
        exact List.prefix_of_prefix_length_le hp (List.prefix_append (c :: cs) more)
          (by rw [List.length_cons]; omega)
      rw [List.cons_append, cutSub, if_neg hpre', ih hx]
      rfl

/-- The first place leaves the most behind it. -/
theorem cutSub_first {pat cs a b : List Char} (h : cs = a ++ pat ++ b) :
    ∃ x y, cutSub pat cs = some (x, y) ∧ b <:+ y := by
  induction cs generalizing a with
  | nil =>
    obtain ⟨hfront, rfl⟩ := List.append_eq_nil_iff.mp h.symm
    obtain ⟨-, rfl⟩ := List.append_eq_nil_iff.mp hfront
    exact ⟨[], [], rfl, List.suffix_rfl⟩
  | cons c cs ih =>
    rw [cutSub]
    split_ifs with hpre
    · refine ⟨[], _, rfl, ?_⟩
      have hsuffix : b <:+ c :: cs := ⟨a ++ pat, h.symm⟩
      have hlen := congrArg List.length h
      refine List.suffix_of_suffix_length_le hsuffix (List.drop_suffix _ _) ?_
      rw [List.length_append, List.length_append] at hlen
      rw [List.length_drop]
      omega
    · cases a with
      | nil =>
        rw [List.nil_append] at h
        exact absurd (List.isPrefixOf_iff_prefix.mpr ⟨b, h.symm⟩) hpre
      | cons d a =>
        cases h
        obtain ⟨x, y, hcut, hle⟩ := ih rfl
        exact ⟨c :: x, y, by rw [hcut]; rfl, hle⟩

/-- A pattern is not found before its first character. -/
theorem cutSub_of_not_mem {c : Char} {pat a : List Char} (h : c ∉ a) (b : List Char) :
    cutSub (c :: pat) (a ++ (c :: pat) ++ b) = some (a, b) := by
  induction a with
  | nil =>
    have hpre : (c :: pat).isPrefixOf (c :: (pat ++ b)) = true :=
      List.isPrefixOf_iff_prefix.mpr ⟨b, rfl⟩
    rw [List.nil_append, List.cons_append, cutSub, if_pos hpre, ← List.cons_append, List.drop_left]
  | cons d a ih =>
    obtain ⟨hd, ha⟩ := not_or.mp (mt List.mem_cons.mpr h)
    have hpre : ¬ (c :: pat).isPrefixOf (d :: (a ++ (c :: pat) ++ b)) = true := by
      intro hp
      exact hd (List.cons_prefix_cons.mp (List.isPrefixOf_iff_prefix.mp hp)).1
    rw [List.cons_append, List.cons_append, cutSub, if_neg hpre, ih ha]
    rfl

theorem pieces_ne_nil (sep : Char) (cs : List Char) : pieces sep cs ≠ [] := by
  cases cs with
  | nil => exact List.cons_ne_nil _ _
  | cons c cs =>
    rw [pieces]
    split_ifs
    · exact List.cons_ne_nil _ _
    · cases pieces sep cs <;> exact List.cons_ne_nil _ _

/-- The pieces, with separators between them, are the whole. -/
theorem intercalate_pieces (sep : Char) (cs : List Char) :
    List.intercalate [sep] (pieces sep cs) = cs := by
  induction cs with
  | nil => rfl
  | cons c cs ih =>
    rw [pieces]
    cases hp : pieces sep cs with
    | nil => exact absurd hp (pieces_ne_nil sep cs)
    | cons p ps =>
      rw [hp] at ih
      split_ifs with hc
      · rw [hc, ← ih]
        rfl
      · rw [← ih]
        cases ps <;> rfl

end

/-- A text that ends a piece splits there. -/
theorem pieces_append (h : sep ∉ a) (b : List Char) :
    pieces sep (a ++ sep :: b) = a :: pieces sep b := by
  induction a with
  | nil => rw [List.nil_append, pieces, if_pos rfl]
  | cons c a ih =>
    obtain ⟨hc, ha⟩ := not_or.mp (List.mem_cons.not.mp h)
    rw [List.cons_append, pieces, if_neg (Ne.symm hc), ih ha]

/-- A text without separators is one piece. -/
theorem pieces_eq_self (h : sep ∉ cs) : pieces sep cs = [cs] := by
  induction cs with
  | nil => rfl
  | cons c cs ih =>
    obtain ⟨hc, hcs⟩ := not_or.mp (List.mem_cons.not.mp h)
    rw [pieces, if_neg (Ne.symm hc), ih hcs]

theorem not_mem_of_mem_pieces {piece : List Char} (h : piece ∈ pieces sep cs) : sep ∉ piece := by
  induction cs generalizing piece with
  | nil =>
    rw [pieces, List.mem_singleton] at h
    rw [h]
    exact List.not_mem_nil
  | cons c cs ih =>
    rw [pieces] at h
    by_cases hc : c = sep
    · rw [if_pos hc, List.mem_cons] at h
      rcases h with rfl | h
      · exact List.not_mem_nil
      · exact ih h
    · rw [if_neg hc] at h
      cases hps : pieces sep cs with
      | nil => exact absurd hps (pieces_ne_nil sep cs)
      | cons first more =>
        rw [hps] at h ih
        rcases List.mem_cons.mp h with rfl | h
        · rw [List.mem_cons, not_or]
          exact ⟨Ne.symm hc, ih List.mem_cons_self⟩
        · exact ih (List.mem_cons_of_mem _ h)

/-! ## Bytes -/

theorem utf8_append (s t : String) : utf8 (s ++ t) = utf8 s ++ utf8 t := by
  rw [utf8, String.toList_append, List.flatMap_append, utf8, utf8]

theorem utf8_eq_nil {s : String} : utf8 s = [] ↔ s = "" := by
  constructor
  · intro h
    rw [← fromUtf8Lossy_utf8 s, h]
    rfl
  · rintro rfl
    rfl

theorem lossyChars_utf8 (s : String) (bs : Bytes) :
    lossyChars none (utf8 s ++ bs) = s.toList ++ lossyChars none bs := by
  unfold utf8
  induction s.toList with
  | nil => rfl
  | cons c cs ih =>
    rw [List.flatMap_cons, List.append_assoc, lossyChars_utf8EncodeChar, ih, List.cons_append]

/-- Text that begins with the bytes of a text begins with that text. -/
theorem exists_of_utf8_append {s t : String} {bs : Bytes} (h : utf8 s ++ bs = utf8 t) :
    ∃ r, t.toList = s.toList ++ r ∧ bs = utf8 (String.ofList r) := by
  have ht : t.toList = s.toList ++ lossyChars none bs := by
    have hboth := lossyChars_utf8 s bs
    have hone := lossyChars_utf8 t []
    rw [h] at hboth
    rw [List.append_nil] at hone
    rw [← hboth, hone]
    exact (List.append_nil _).symm
  refine ⟨_, ht, ?_⟩
  have htext : t = s ++ String.ofList (lossyChars none bs) := by
    rw [← String.toList_inj, String.toList_append, String.toList_ofList, ht]
  rw [htext, utf8_append] at h
  exact List.append_cancel_left h

theorem utf8_inj {s t : String} (h : utf8 s = utf8 t) : s = t := by
  rw [← fromUtf8Lossy_utf8 s, h, fromUtf8Lossy_utf8]

/-- The bytes of a character: an ASCII character is its own byte, and the bytes of any
other are not ASCII. -/
theorem mem_utf8EncodeChar {b : UInt8} (hb : b < 0x80) (c : Char) :
    b ∈ String.utf8EncodeChar c ↔ c.toNat = b.toNat := by
  have hb' : b.toNat < 0x80 := hb
  have hv : c.val.toNat < 0x110000 := by
    have := c.valid
    omega
  show _ ↔ c.val.toNat = b.toNat
  have hofNat (n : Nat) (h : n < 256) : b = UInt8.ofNat n ↔ b.toNat = n := by
    rw [← UInt8.toNat_inj, UInt8.toNat_ofNat_of_lt' h]
  unfold String.utf8EncodeChar
  generalize c.val.toNat = v at hv
  simp only
  split_ifs with h1 h2 h3 <;>
    simp only [List.mem_cons, List.not_mem_nil, or_false] <;>
    repeat rw [hofNat _ (by omega)]
  all_goals omega

theorem mem_utf8 {b : UInt8} (hb : b < 0x80) (s : String) :
    b ∈ utf8 s ↔ Char.ofNat b.toNat ∈ s.toList := by
  have hvalid : (Char.ofNat b.toNat).toNat = b.toNat := by
    have hb' : b.toNat < 0x80 := hb
    have hlt : b.toNat < 0xD800 := by omega
    rw [Char.ofNat, dif_pos (.inl hlt)]
    rfl
  rw [utf8, List.mem_flatMap]
  constructor
  · rintro ⟨c, hc, hmem⟩
    rw [← (mem_utf8EncodeChar hb c).mp hmem]
    rw [Char.ofNat_toNat]
    exact hc
  · intro h
    exact ⟨_, h, (mem_utf8EncodeChar hb _).mpr hvalid⟩

theorem length_lossyChars_le (bs : Bytes) :
    (lossyChars none bs).length ≤ bs.length
      ∧ ∀ p, (lossyChars (some p) bs).length ≤ bs.length + 1 := by
  induction bs with
  | nil => exact ⟨Nat.le_refl 0, fun p => Nat.le_refl 1⟩
  | cons b bs ih =>
    obtain ⟨hnone, hsome⟩ := ih
    constructor
    · rw [lossyChars, List.length_cons]
      split
      · simp only [List.length_cons]
        omega
      · exact hsome _
      · simp only [List.length_cons]
        omega
    · intro p
      have hp := hsome ⟨p.need - 1, 0x80, 0xBF, p.acc * 64 + (b.toNat - 0x80)⟩
      rw [lossyChars, List.length_cons]
      split_ifs
      · simp only [List.length_cons]
        omega
      · omega
      · split
        · simp only [List.length_cons]
          omega
        · rename_i q _
          have hq := hsome q
          simp only [List.length_cons]
          omega
        · simp only [List.length_cons]
          omega

theorem length_utf8_le (cs : List Char) :
    (cs.flatMap String.utf8EncodeChar).length ≤ 4 * cs.length := by
  induction cs with
  | nil => exact Nat.le_refl 0
  | cons c cs ih =>
    have hc := String.length_utf8EncodeChar c
    have hle := c.utf8Size_le_four
    rw [List.flatMap_cons, List.length_append, List.length_cons]
    omega

/-- A text that is cut well before its end is decoded to fewer characters. -/
theorem length_lossyChars_take {cs : List Char} {n : Nat}
    (h : n + 16 ≤ (cs.flatMap String.utf8EncodeChar).length) :
    (lossyChars none ((cs.flatMap String.utf8EncodeChar).take n)).length < cs.length := by
  induction cs generalizing n with
  | nil => exact absurd h (by simp)
  | cons c cs ih =>
    have hlen := length_utf8_le (c :: cs)
    rw [List.flatMap_cons, List.length_append, List.length_cons] at hlen
    rw [List.flatMap_cons, List.length_append] at h
    rw [List.flatMap_cons]
    by_cases hn : (String.utf8EncodeChar c).length ≤ n
    · obtain ⟨k, rfl⟩ := Nat.exists_eq_add_of_le hn
      rw [List.take_length_add_append, lossyChars_utf8EncodeChar, List.length_cons,
        List.length_cons]
      exact Nat.succ_lt_succ (ih (by omega))
    · -- only a part of one character is left
      have hc := String.length_utf8EncodeChar c
      have hle := c.utf8Size_le_four
      have hchars := (length_lossyChars_le
        ((String.utf8EncodeChar c ++ cs.flatMap String.utf8EncodeChar).take n)).1
      rw [List.length_take] at hchars
      rw [List.length_cons]
      omega

theorem length_fromUtf8Lossy_take {s : String} {n : Nat} (h : n + 16 ≤ (utf8 s).length) :
    (fromUtf8Lossy ((utf8 s).take n)).toList.length < s.toList.length := by
  rw [fromUtf8Lossy, String.toList_ofList]
  exact length_lossyChars_take h

/-! ## Decimal numbers -/

theorem digit?_digitChar : ∀ n < 10, digit? n.digitChar = some n := by decide

theorem eq_of_digit? {c : Char} {n : Nat} (h : digit? c = some n) :
    n < 10 ∧ c = n.digitChar := by
  unfold digit? at h
  split_ifs at h with hc
  cases h
  have h0 : '0'.toNat = 48 := rfl
  have h9 : '9'.toNat = 57 := rfl
  have hlo : '0'.toNat ≤ c.toNat := hc.1
  have hhi : c.toNat ≤ '9'.toNat := hc.2
  have hlt : c.toNat - '0'.toNat < 10 := by omega
  refine ⟨hlt, ?_⟩
  have hsum : ∀ k < 10, Char.ofNat (k + 48) = k.digitChar := by decide
  rw [← hsum _ hlt, h0, Nat.sub_add_cancel (by omega), Char.ofNat_toNat]

/-- What one more digit makes of a number. -/
abbrev pushDigit (n : Nat) (c : Char) : Option Nat := (digit? c).map (10 * n + ·)

theorem foldlM_toDigits (n : Nat) : (Nat.toDigits 10 n).foldlM pushDigit 0 = some n := by
  induction n using Nat.strongRecOn with
  | _ n ih =>
    rw [Nat.toDigits_eq_if (by decide)]
    split_ifs with hn
    · rw [List.foldlM_cons, pushDigit, digit?_digitChar n hn]
      show some (10 * 0 + n) = some n
      rw [Nat.mul_zero, Nat.zero_add]
    · have hlt : n % 10 < 10 := Nat.mod_lt _ (by decide)
      rw [List.foldlM_append, ih (n / 10) (by omega)]
      show List.foldlM pushDigit (n / 10) [(n % 10).digitChar] = some n
      rw [List.foldlM_cons, pushDigit, digit?_digitChar _ hlt]
      show some (10 * (n / 10) + n % 10) = some n
      rw [Nat.div_add_mod]

theorem decimal?_toDigits (n : Nat) : decimal? (Nat.toDigits 10 n) = some n := by
  rw [decimal?, if_neg Nat.toDigits_ne_nil]
  exact foldlM_toDigits n

/-- Digits without a leading zero are what the number is printed as. -/
theorem eq_toDigits_of_foldlM {cs : List Char} {n : Nat} (hne : cs ≠ [])
    (hz : ∀ c rest, cs ≠ '0' :: c :: rest) (h : cs.foldlM pushDigit 0 = some n) :
    cs = Nat.toDigits 10 n := by
  induction cs using List.reverseRecOn generalizing n with
  | nil => exact absurd rfl hne
  | append_singleton cs c ih =>
    rw [List.foldlM_append] at h
    obtain ⟨m, hm, hc⟩ := Option.bind_eq_some_iff.mp h
    obtain ⟨d, hd, rfl⟩ := Option.map_eq_some_iff.mp (show pushDigit m c = some n by simpa using hc)
    obtain ⟨hlt, rfl⟩ := eq_of_digit? hd
    cases cs with
    | nil =>
      cases hm
      rw [Nat.mul_zero, Nat.zero_add, Nat.toDigits_of_lt_base hlt]
      rfl
    | cons a cs =>
      have hz' : ∀ b rest, a :: cs ≠ '0' :: b :: rest := by
        rintro b rest heq
        rw [heq] at hz
        exact hz b (rest ++ [d.digitChar]) rfl
      have hcs := ih (List.cons_ne_nil _ _) hz' hm
      have hpos : 0 < m := by
        apply Nat.pos_of_ne_zero
        rintro rfl
        rw [Nat.toDigits_zero] at hcs
        rw [hcs] at hz
        exact hz d.digitChar [] rfl
      rw [hcs, ← Nat.toDigits_append_toDigits (by decide) hpos hlt, Nat.toDigits_of_lt_base hlt]

theorem eq_toDigits_of_decimal? {cs : List Char} {n : Nat} (h : decimal? cs = some n)
    (hz : ∀ c rest, cs ≠ '0' :: c :: rest) : cs = Nat.toDigits 10 n := by
  unfold decimal? at h
  split_ifs at h with hne
  exact eq_toDigits_of_foldlM hne hz h

theorem isSome_digit?_of_decimal? {cs : List Char} {n : Nat} (h : decimal? cs = some n) :
    ∀ c ∈ cs, (digit? c).isSome := by
  unfold decimal? at h
  split_ifs at h with hne
  clear hne
  induction cs using List.reverseRecOn generalizing n with
  | nil => exact fun c hc => absurd hc List.not_mem_nil
  | append_singleton cs a ih =>
    rw [List.foldlM_append] at h
    obtain ⟨m, hm, hc⟩ := Option.bind_eq_some_iff.mp h
    obtain ⟨d, hd, -⟩ := Option.map_eq_some_iff.mp (show pushDigit m a = some n by simpa using hc)
    intro c hmem
    rcases List.mem_append.mp hmem with hin | hin
    · exact ih hm c hin
    · rw [List.mem_singleton.mp hin, hd]
      rfl

theorem parseUnsigned_decimal? {bound n : Nat} {cs : List Char} (hcs : decimal? cs = some n) :
    parseUnsigned bound (String.ofList cs) = if n < bound then some n else none := by
  have hplus : ∀ rest, cs ≠ '+' :: rest := by
    rintro rest rfl
    exact absurd (isSome_digit?_of_decimal? hcs '+' List.mem_cons_self) (by decide)
  unfold parseUnsigned
  rw [String.toList_ofList]
  simp only
  split
  · rename_i m heq
    rw [hcs] at heq
    cases heq
    rfl
  · rename_i heq
    rw [hcs] at heq
    cases heq

theorem parseUnsigned_of_decimal? {bound n : Nat} {cs : List Char} (hcs : decimal? cs = some n)
    (h : n < bound) : parseUnsigned bound (String.ofList cs) = some n := by
  rw [parseUnsigned_decimal? hcs, if_pos h]

/-- A number in the range of the type, printed and read. -/
theorem parseUnsigned_toDigits {bound n : Nat} (h : n < bound) :
    parseUnsigned bound (String.ofList (Nat.toDigits 10 n)) = some n :=
  parseUnsigned_of_decimal? (decimal?_toDigits n) h

theorem lt_of_parseUnsigned {bound n : Nat} {s : String} (h : parseUnsigned bound s = some n) :
    n < bound := by
  unfold parseUnsigned at h
  simp only at h
  split at h
  · split at h
    · cases h
      assumption
    · cases h
  · cases h

/-- What is read is an integer of the type. -/
theorem range_of_parseI64 {r : Int} {s : String} (h : parseI64 s = some r) :
    -2 ^ 63 ≤ r ∧ r < 2 ^ 63 := by
  unfold parseI64 at h
  split at h
  · split at h
    · split_ifs at h with hle
      cases h
      omega
    · cases h
  · split at h
    · rename_i n hn
      cases h
      have hlt := lt_of_parseUnsigned hn
      omega
    · cases h

/-- The text of a number has digits only, after a sign. -/
theorem chars_of_parseUnsigned {bound n : Nat} {s : String} (h : parseUnsigned bound s = some n)
    {c : Char} (hc : c ∈ s.toList) : c = '+' ∨ (digit? c).isSome := by
  unfold parseUnsigned at h
  split at h
  · rename_i cs hcs
    simp only at h
    split at h
    · rename_i m hm
      rw [hcs, List.mem_cons] at hc
      exact hc.imp_right (isSome_digit?_of_decimal? hm c)
    · cases h
  · simp only at h
    split at h
    · rename_i m hm
      exact .inr (isSome_digit?_of_decimal? hm c hc)
    · cases h

/-! ## Lines -/

theorem cutLine_append_of_mem {buf : Bytes} (h : 0x0A ∈ buf) (more : Bytes) :
    cutLine (buf ++ more) = ((cutLine buf).1, (cutLine buf).2 ++ more) := by
  induction buf with
  | nil => cases h
  | cons b buf ih =>
    rw [List.cons_append, cutLine, cutLine]
    by_cases hb : b = 0x0A
    · rw [if_pos hb, if_pos hb]
    · rw [if_neg hb, if_neg hb, ih ((List.mem_cons.mp h).resolve_left (Ne.symm hb))]

theorem cutLine_append_of_not_mem {buf : Bytes} (h : 0x0A ∉ buf) (more : Bytes) :
    cutLine (buf ++ more) = (buf ++ (cutLine more).1, (cutLine more).2) := by
  induction buf with
  | nil => rfl
  | cons b buf ih =>
    rw [List.mem_cons, not_or] at h
    rw [List.cons_append, cutLine, if_neg (Ne.symm h.1), ih h.2]
    rfl

theorem cutLine_eq_append (bs : Bytes) : (cutLine bs).1 ++ (cutLine bs).2 = bs := by
  induction bs with
  | nil => rfl
  | cons b bs ih =>
    rw [cutLine]
    by_cases hb : b = 0x0A
    · rw [if_pos hb]
      rfl
    · rw [if_neg hb]
      exact congrArg (b :: ·) ih

end Text
