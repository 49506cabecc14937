/-
White space in a text, and ASCII around one.

Trimming drops white space only, so more of it around a text changes nothing.  A word
between white space is a word of the text.  Bytes with ASCII before or after them are a
text if and only if they are one without it.
-/
import Mathlib.Data.List.SplitBy
import Mathlib.Data.List.TakeWhile
import RtProxy.Lib.Cut

namespace Text

/-- `str::trim_end`. -/
def trimEnd (s : String) : String :=
  String.ofList ((s.toList.reverse.dropWhile isWhite).reverse)

section

variable {p : Char → Bool} {a b x : List Char} {c : Char}

/-- What `trim_end` does to a list of characters. -/
def dropEndWhile (p : Char → Bool) (cs : List Char) : List Char :=
  (cs.reverse.dropWhile p).reverse

theorem dropEndWhile_append (h : ∀ c ∈ b, p c = true) (x : List Char) :
    dropEndWhile p (x ++ b) = dropEndWhile p x := by
  unfold dropEndWhile
  rw [List.reverse_append,
    List.dropWhile_append_of_pos fun c hc => h c (List.mem_reverse.mp hc)]

theorem dropEndWhile_keep (h : p c = false) (a x : List Char) :
    dropEndWhile p (a ++ c :: x) = a ++ c :: dropEndWhile p x := by
  unfold dropEndWhile
  rw [List.reverse_append, List.reverse_cons, List.append_assoc, List.dropWhile_append]
  by_cases hx : (x.reverse.dropWhile p).isEmpty = true
  · rw [if_pos hx, List.isEmpty_iff.mp hx, List.singleton_append,
      List.dropWhile_cons_of_neg (by rw [h]; exact Bool.false_ne_true)]
    simp
  · rw [if_neg hx]
    simp

theorem exists_dropEndWhile (p : Char → Bool) (x : List Char) :
    ∃ b, (∀ c ∈ b, p c = true) ∧ x = dropEndWhile p x ++ b := by
  refine ⟨(x.reverse.takeWhile p).reverse, fun c hc => ?_, ?_⟩
  · exact (List.mem_takeWhile_imp (List.mem_reverse.mp hc))
  · unfold dropEndWhile
    rw [← List.reverse_append, List.takeWhile_append_dropWhile, List.reverse_reverse]

/-- What `trim_matches` does to a list of characters. -/
def trimWhile (p : Char → Bool) (cs : List Char) : List Char :=
  dropEndWhile p (cs.dropWhile p)

theorem trimWhile_append (ha : ∀ c ∈ a, p c = true) (hb : ∀ c ∈ b, p c = true) (x : List Char) :
    trimWhile p (a ++ x ++ b) = trimWhile p x := by
  unfold trimWhile
  rw [List.append_assoc, List.dropWhile_append_of_pos ha, List.dropWhile_append]
  by_cases hx : (x.dropWhile p).isEmpty = true
  · rw [if_pos hx, List.isEmpty_iff.mp hx]
    have hnil : b.dropWhile p = [] := by
      rw [List.dropWhile_eq_nil_iff]
      exact hb
    rw [hnil]
  · rw [if_neg hx, dropEndWhile_append hb]

theorem trimWhile_dropEndWhile (p : Char → Bool) (x : List Char) :
    trimWhile p (dropEndWhile p x) = trimWhile p x := by
  obtain ⟨b, hb, hx⟩ := exists_dropEndWhile p x
  have happ := trimWhile_append (a := []) (List.forall_mem_nil _) hb (dropEndWhile p x)
  rw [List.nil_append, ← hx] at happ
  exact happ.symm

/-- Trimming more takes off what trimming less would. -/
theorem trimWhile_trimWhile {q : Char → Bool} (h : ∀ c, q c = true → p c = true) (x : List Char) :
    trimWhile p (trimWhile q x) = trimWhile p x := by
  obtain ⟨b, hb, hx⟩ := exists_dropEndWhile q (x.dropWhile q)
  have hparts : x = x.takeWhile q ++ trimWhile q x ++ b := by
    conv_lhs => rw [← List.takeWhile_append_dropWhile (p := q) (l := x), hx]
    rw [List.append_assoc]
    rfl
  have hfront : ∀ c ∈ x.takeWhile q, p c = true := fun c hc => h c (List.mem_takeWhile_imp hc)
  conv_rhs => rw [hparts, trimWhile_append hfront fun c hc => h c (hb c hc)]

theorem trimWhile_eq_self (h : ∀ c ∈ x, p c = false) : trimWhile p x = x := by
  have hdrop (l : List Char) (hl : ∀ c ∈ l, p c = false) : l.dropWhile p = l := by
    cases l with
    | nil => rfl
    | cons c l =>
      exact List.dropWhile_cons_of_neg (by rw [hl c List.mem_cons_self]; exact Bool.false_ne_true)
  unfold trimWhile dropEndWhile
  rw [hdrop x h, hdrop _ fun c hc => h c (List.mem_reverse.mp hc), List.reverse_reverse]

end

theorem trim_eq (s : String) : trim s = String.ofList (trimWhile isWhite s.toList) := rfl

theorem trimEnd_eq (s : String) : trimEnd s = String.ofList (dropEndWhile isWhite s.toList) := rfl

/-! ## ASCII at the end -/

theorem utf8_singleton {c : Char} (h : c.toNat < 0x80) :
    utf8 (String.ofList [c]) = [UInt8.ofNat c.toNat] := by
  have hv : c.val.toNat < 0x80 := h
  unfold utf8
  rw [String.toList_ofList, List.flatMap_cons, List.flatMap_nil, List.append_nil]
  unfold String.utf8EncodeChar
  simp only
  rw [if_pos (by omega)]
  rfl

theorem exists_of_append_char {t : String} {bs : Bytes} {c : Char} (hc : c.toNat < 0x80)
    (h : utf8 t = bs ++ utf8 (String.ofList [c])) :
    ∃ l, t.toList = l ++ [c] ∧ utf8 (String.ofList l) = bs := by
  rw [utf8_singleton hc] at h
  rcases List.eq_nil_or_concat t.toList with hnil | ⟨l, d, hl⟩
  · have ht : t = "" := by rw [← String.toList_inj, hnil]; rfl
    rw [ht] at h
    exact absurd h.symm (List.append_ne_nil_of_right_ne_nil _ (List.cons_ne_nil _ _))
  · rw [List.concat_eq_append] at hl
    have ht : t = String.ofList l ++ String.ofList [d] := by
      rw [← String.toList_inj, String.toList_append, String.toList_ofList, String.toList_ofList, hl]
    rw [ht, utf8_append] at h
    have hne : utf8 (String.ofList [d]) ≠ [] := by
      rw [Ne, utf8_eq_nil, ← String.toList_inj, String.toList_ofList]
      exact List.cons_ne_nil _ _
    -- the last byte belongs to the last character
    have hlast := congrArg List.getLast? h
    rw [List.getLast?_append_of_ne_nil _ hne, List.getLast?_concat] at hlast
    have hmem := List.mem_of_getLast? hlast
    have hn : (UInt8.ofNat c.toNat).toNat = c.toNat :=
      UInt8.toNat_ofNat_of_lt' (Nat.lt_trans hc (by decide))
    have hlt : UInt8.ofNat c.toNat < 0x80 := by
      rw [UInt8.lt_iff_toNat_lt, hn]
      exact hc
    rw [mem_utf8 hlt, hn, String.toList_ofList, List.mem_singleton, Char.ofNat_toNat] at hmem
    subst hmem
    rw [utf8_singleton hc] at h
    exact ⟨l, hl, List.append_cancel_right h⟩

/-- Text that ends in the bytes of an ASCII text ends in that text. -/
theorem exists_of_append_ascii {t : String} {bs : Bytes} {w : List Char}
    (hw : ∀ c ∈ w, c.toNat < 0x80) (h : utf8 t = bs ++ utf8 (String.ofList w)) :
    ∃ l, t.toList = l ++ w ∧ utf8 (String.ofList l) = bs := by
  induction w using List.reverseRecOn generalizing t with
  | nil => exact ⟨t.toList, (List.append_nil _).symm, by
      rw [String.ofList_toList, h]
      exact List.append_nil bs⟩
  | append_singleton w c ih =>
    have hsplit : utf8 (String.ofList (w ++ [c])) =
        utf8 (String.ofList w) ++ utf8 (String.ofList [c]) := by
      rw [String.ofList_append, utf8_append]
    rw [hsplit, ← List.append_assoc] at h
    obtain ⟨l, hl, hbs⟩ := exists_of_append_char (hw c (by simp)) h
    obtain ⟨l', hl', hbs'⟩ := ih (fun d hd => hw d (List.mem_append_left _ hd)) hbs
    rw [String.toList_ofList] at hl'
    exact ⟨l', by rw [hl, hl', List.append_assoc], hbs'⟩

/-! ## Texts -/

/-- The bytes are those of a text. -/
def IsText (bs : Bytes) : Prop := ∃ s, utf8 s = bs

theorem fromUtf8_eq_some {bs : Bytes} {s : String} : fromUtf8 bs = some s ↔ utf8 s = bs := by
  constructor
  · exact utf8_of_fromUtf8
  · rintro rfl
    exact fromUtf8_utf8 s

theorem fromUtf8_eq_none {bs : Bytes} : fromUtf8 bs = none ↔ ¬ IsText bs := by
  rw [Option.eq_none_iff_forall_ne_some]
  constructor
  · rintro h ⟨s, hs⟩
    exact h s (fromUtf8_eq_some.mpr hs)
  · exact fun h s hs => h ⟨s, fromUtf8_eq_some.mp hs⟩

/-- ASCII bytes as text. -/
def ascii (bs : Bytes) : String := String.ofList (bs.map fun b => Char.ofNat b.toNat)

theorem toNat_ofNat {n : Nat} (h : n < 0x80) : (Char.ofNat n).toNat = n := by
  have hlt : n < 0xD800 := by omega
  rw [Char.ofNat, dif_pos (.inl hlt)]
  rfl

theorem utf8_ascii {bs : Bytes} (h : ∀ b ∈ bs, b < 0x80) : utf8 (ascii bs) = bs := by
  induction bs with
  | nil => rfl
  | cons b bs ih =>
    obtain ⟨hb, hbs⟩ := List.forall_mem_cons.mp h
    have hb' : b.toNat < 0x80 := hb
    have hcons : ascii (b :: bs) = String.ofList [Char.ofNat b.toNat] ++ ascii bs := by
      rw [ascii, ascii, ← String.ofList_append]
      rfl
    rw [hcons, utf8_append, utf8_singleton (by rw [toNat_ofNat hb']; exact hb'), toNat_ofNat hb',
      UInt8.ofNat_toNat, ih hbs]
    rfl

/-- Bytes between a text and ASCII. -/
theorem eq_of_text_append {t p : String} {bs w : Bytes} (hw : ∀ b ∈ w, b < 0x80)
    (h : utf8 t = utf8 p ++ bs ++ w) :
    ∃ l, t = p ++ String.ofList l ++ ascii w ∧ utf8 (String.ofList l) = bs := by
  have hchars : ∀ c ∈ w.map fun b => Char.ofNat b.toNat, c.toNat < 0x80 := by
    intro c hc
    obtain ⟨b, hb, rfl⟩ := List.mem_map.mp hc
    have hb' : b.toNat < 0x80 := hw b hb
    rw [toNat_ofNat hb']
    exact hb'
  have hback : utf8 t = utf8 p ++ bs ++ utf8 (ascii w) := by rw [h, utf8_ascii hw]
  obtain ⟨l, hl, hfront⟩ := exists_of_append_ascii hchars hback
  obtain ⟨l', hl', hbs⟩ := exists_of_utf8_append hfront.symm
  rw [String.toList_ofList] at hl'
  refine ⟨l', ?_, hbs.symm⟩
  rw [← String.toList_inj, String.toList_append, String.toList_append, String.toList_ofList, hl, hl',
    ascii, String.toList_ofList]

theorem isText_append {p : String} {bs w : Bytes} (hw : ∀ b ∈ w, b < 0x80) :
    IsText (utf8 p ++ bs ++ w) ↔ IsText bs := by
  constructor
  · rintro ⟨t, ht⟩
    obtain ⟨l, -, hl⟩ := eq_of_text_append hw ht
    exact ⟨_, hl⟩
  · rintro ⟨s, rfl⟩
    exact ⟨p ++ s ++ ascii w, by rw [utf8_append, utf8_append, utf8_ascii hw]⟩

/-! ## Words -/

/-- Characters that are all white or all not stay together. -/
theorem splitBy_uniform {l : List Char} (white : Bool) (hne : l ≠ [])
    (h : ∀ c ∈ l, isWhite c = white) : (l.splitBy fun a b => isWhite a == isWhite b) = [l] := by
  apply List.splitBy_of_isChain hne
  refine List.Pairwise.isChain (List.pairwise_iff_forall_sublist.mpr fun {a b} hab => ?_)
  have ha := h a (hab.subset (List.mem_cons_self ..))
  have hb := h b (hab.subset (List.mem_cons_of_mem _ (List.mem_singleton_self b)))
  rw [ha, hb]
  exact beq_self_eq_true white

/-- The first two of the words between spaces. -/
theorem splitWhitespace_words {a b : List Char} (ha : a ≠ []) (hb : b ≠ [])
    (hwa : ∀ c ∈ a, isWhite c = false) (hwb : ∀ c ∈ b, isWhite c = false) (x : List Char) :
    ∃ more, splitWhitespace (String.ofList (a ++ ' ' :: (b ++ ' ' :: x))) =
      String.ofList a :: String.ofList b :: more := by
  have hspace : isWhite ' ' = true := by decide
  have hfirst : ∀ c ∈ a.getLast?, (isWhite c == isWhite ' ') = false := by
    intro c hc
    rw [hwa c (List.mem_of_getLast? hc), hspace]
    rfl
  have hsecond : ∀ c ∈ b.getLast?, (isWhite c == isWhite ' ') = false := by
    intro c hc
    rw [hwb c (List.mem_of_getLast? hc), hspace]
    rfl
  obtain ⟨d, b', rfl⟩ := List.exists_cons_of_ne_nil hb
  have hgap : ∀ c ∈ ([' '] : List Char).getLast?, (isWhite c == isWhite d) = false := by
    intro c hc
    have hc' : c = ' ' := (Option.some.inj hc).symm
    rw [hc', hspace, hwb d List.mem_cons_self]
    rfl
  have hsplit : ((a ++ ' ' :: (d :: b' ++ ' ' :: x)).splitBy fun a b => isWhite a == isWhite b) =
      a :: [' '] :: (d :: b') :: ((' ' :: x).splitBy fun a b => isWhite a == isWhite b) := by
    rw [List.splitBy_append_cons _ hfirst, splitBy_uniform false ha hwa]
    have hcons : ' ' :: (d :: b' ++ ' ' :: x) = [' '] ++ d :: (b' ++ ' ' :: x) := rfl
    rw [hcons, List.splitBy_append_cons _ hgap, ← List.cons_append,
      List.splitBy_append_cons _ hsecond, splitBy_uniform false (List.cons_ne_nil _ _) hwb,
      splitBy_uniform true (List.cons_ne_nil _ _) (by simpa using hspace)]
    rfl
  have hkeep {w : List Char} (hne : w ≠ []) (hw : ∀ c ∈ w, isWhite c = false) :
      (!w.all isWhite) = true := by
    obtain ⟨c, w', rfl⟩ := List.exists_cons_of_ne_nil hne
    rw [List.all_cons, hw c List.mem_cons_self]
    rfl
  have hdrop : (!([' '] : List Char).all isWhite) = false := by
    rw [List.all_cons, hspace]
    rfl
  unfold splitWhitespace
  rw [String.toList_ofList, hsplit, List.filter_cons, hkeep ha hwa, List.filter_cons, hdrop,
    List.filter_cons, hkeep hb hwb]
  exact ⟨_, rfl⟩

/-- The digits of a number are a word. -/
theorem toDigits_word (n : Nat) :
    Nat.toDigits 10 n ≠ [] ∧ ∀ c ∈ Nat.toDigits 10 n, isWhite c = false := by
  refine ⟨Nat.toDigits_ne_nil, fun c hc => ?_⟩
  have hsome := isSome_digit?_of_decimal? (decimal?_toDigits n) c hc
  unfold digit? at hsome
  split_ifs at hsome with hrange
  · have hlo : '0'.toNat ≤ c.toNat := hrange.1
    have hhi : c.toNat ≤ '9'.toNat := hrange.2
    have h0 : '0'.toNat = 0x30 := rfl
    have h9 : '9'.toNat = 0x39 := rfl
    unfold isWhite
    simp
    omega
  · cases hsome

end Text
