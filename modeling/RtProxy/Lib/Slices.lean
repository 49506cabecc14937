/-
Text addressed by its bytes.

A place in a text is the number of bytes in front of it.  Cutting at a place that is past
the end or inside a character is a panic, and so is an index past the end.
-/
import RtProxy.Lib.Checked
import RtProxy.Lib.Cut

namespace Text

/-- How many bytes the characters take. -/
def width (cs : List Char) : Nat := (cs.flatMap String.utf8EncodeChar).length

/-- Cuts behind the first `n` bytes, which have to be whole characters. -/
def cutAt : Nat → List Char → Except Panic (List Char × List Char)
  | 0, cs => .ok ([], cs)
  | _ + 1, [] => .error .outOfRange
  | n + 1, c :: cs =>
    if c.utf8Size ≤ n + 1 then
      match cutAt (n + 1 - c.utf8Size) cs with
      | .ok (a, b) => .ok (c :: a, b)
      | .error p => .error p
    else .error .outOfRange

/-- `&s[i..]`. -/
def sliceFrom (cs : List Char) (i : Nat) : Except Panic (List Char) :=
  (cutAt i cs).map Prod.snd

/-- `&s[..j]`. -/
def sliceTo (cs : List Char) (j : Nat) : Except Panic (List Char) :=
  (cutAt j cs).map Prod.fst

/-- `&s[i..j]`. -/
def slice (cs : List Char) (i j : Nat) : Except Panic (List Char) :=
  if i ≤ j then sliceFrom cs i >>= fun rest => sliceTo rest (j - i) else .error .outOfRange

/-- `str::find` for a character. -/
def find (c : Char) (cs : List Char) : Option Nat := (cutFirst c cs).map fun x => width x.1

/-- `str::rfind` for a character. -/
def rfind (c : Char) (cs : List Char) : Option Nat := (cutLast c cs).map fun x => width x.1

/-- `as_bytes()[i]`. -/
def byteAt (cs : List Char) (i : Nat) : Except Panic UInt8 :=
  Checked.index (cs.flatMap String.utf8EncodeChar) i

section

variable {c : Char} {a b cs : List Char}

@[simp] theorem width_nil : width [] = 0 := rfl

@[simp] theorem width_cons (c : Char) (cs : List Char) : width (c :: cs) = c.utf8Size + width cs := by
  rw [width, List.flatMap_cons, List.length_append, String.length_utf8EncodeChar, width]

@[simp] theorem width_append (a b : List Char) : width (a ++ b) = width a + width b := by
  rw [width, List.flatMap_append, List.length_append, width, width]

/-- Every character takes a byte. -/
theorem width_pos (c : Char) (cs : List Char) : 0 < width (c :: cs) := by
  have hc := c.utf8Size_pos
  rw [width_cons]
  omega

/-- The end of whole characters can be cut at. -/
theorem cutAt_append (a b : List Char) : cutAt (width a) (a ++ b) = .ok (a, b) := by
  induction a with
  | nil => rw [width_nil, List.nil_append, cutAt]
  | cons c a ih =>
    have hc := c.utf8Size_pos
    obtain ⟨n, hn⟩ : ∃ n, width (c :: a) = n + 1 := ⟨width (c :: a) - 1, by rw [width_cons]; omega⟩
    have hrest : n + 1 - c.utf8Size = width a := by
      rw [← hn, width_cons]
      omega
    rw [hn, List.cons_append, cutAt, if_pos (by rw [width_cons] at hn; omega), hrest, ih]

theorem sliceFrom_append (a b : List Char) : sliceFrom (a ++ b) (width a) = .ok b := by
  rw [sliceFrom, cutAt_append]
  rfl

theorem sliceTo_append (a b : List Char) : sliceTo (a ++ b) (width a) = .ok a := by
  rw [sliceTo, cutAt_append]
  rfl

theorem slice_append (a b rest : List Char) :
    slice (a ++ (b ++ rest)) (width a) (width (a ++ b)) = .ok b := by
  have hlen : width (a ++ b) - width a = width b := by
    rw [width_append]
    omega
  rw [slice, if_pos (by rw [width_append]; omega), sliceFrom_append, hlen]
  exact sliceTo_append b rest

/-- The byte behind some characters is the first one of the next. -/
theorem byteAt_append (a : List Char) (c : Char) (b : List Char) :
    ∃ x bs, byteAt (a ++ c :: b) (width a) = .ok x ∧ String.utf8EncodeChar c = x :: bs := by
  cases hc : String.utf8EncodeChar c with
  | nil =>
    have hlen := String.length_utf8EncodeChar c
    have hpos := c.utf8Size_pos
    rw [hc, List.length_nil] at hlen
    omega
  | cons x bs =>
    refine ⟨x, bs, Checked.index_eq ?_, rfl⟩
    rw [List.flatMap_append, List.flatMap_cons, hc, width,
      List.getElem?_append_right (Nat.le_refl _), Nat.sub_self]
    rfl

/-- An ASCII character is known by its first byte. -/
theorem byte_eq_iff {d : Char} {x y : UInt8} {bs : Bytes} (hd : d.toNat < 0x80)
    (hy : UInt8.ofNat d.toNat = y) (h : String.utf8EncodeChar c = x :: bs) : x = y ↔ c = d := by
  have hn : y.toNat = d.toNat := by
    rw [← hy]
    exact UInt8.toNat_ofNat_of_lt' (Nat.lt_trans hd (by decide))
  have hlt : y < 0x80 := by
    rw [UInt8.lt_iff_toNat_lt, hn]
    exact hd
  constructor
  · rintro rfl
    have hmem := (mem_utf8EncodeChar hlt c).mp (by rw [h]; exact List.mem_cons_self)
    rw [hn] at hmem
    exact Char.toNat_inj.mp hmem
  · rintro rfl
    have hone : String.utf8EncodeChar c = [UInt8.ofNat c.toNat] := by
      unfold String.utf8EncodeChar
      simp only
      rw [if_pos (by show c.toNat ≤ 127; omega)]
      rfl
    rw [hone, hy] at h
    exact (List.cons.inj h).1.symm

theorem byteAt_eq_iff {d : Char} {y : UInt8} (hd : d.toNat < 0x80) (hy : UInt8.ofNat d.toNat = y)
    (a : List Char) (c : Char) (b : List Char) :
    ∃ x, byteAt (a ++ c :: b) (width a) = .ok x ∧ (x = y ↔ c = d) := by
  obtain ⟨x, bs, hx, hc⟩ := byteAt_append a c b
  exact ⟨x, hx, byte_eq_iff hd hy hc⟩

theorem find_of_cut (h : cutFirst c cs = some (a, b)) : find c cs = some (width a) := by
  rw [find, h]
  rfl

theorem rfind_of_cut (h : cutLast c cs = some (a, b)) : rfind c cs = some (width a) := by
  rw [rfind, h]
  rfl

end

end Text
