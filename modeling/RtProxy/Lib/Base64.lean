/-
Base64 for URLs, without padding.

Three bytes are four digits of six bits; what is left over at the end is one byte in two
digits or two bytes in three, and the bits of the last digit that stand for nothing have
to be zero.
-/
import RtProxy.Lib.Cut

namespace Base64

/-- The character of a digit. -/
def symbol (n : Nat) : Char :=
  if n < 26 then Char.ofNat (0x41 + n)
  else if n < 52 then Char.ofNat (0x61 + (n - 26))
  else if n < 62 then Char.ofNat (0x30 + (n - 52))
  else if n = 62 then '-'
  else '_'

/-- The digit of a byte. -/
def value? (b : UInt8) : Option Nat :=
  if 0x41 ≤ b ∧ b ≤ 0x5A then some (b.toNat - 0x41)
  else if 0x61 ≤ b ∧ b ≤ 0x7A then some (b.toNat - 0x61 + 26)
  else if 0x30 ≤ b ∧ b ≤ 0x39 then some (b.toNat - 0x30 + 52)
  else if b = 0x2D then some 62
  else if b = 0x5F then some 63
  else none

def digits : Bytes → List Nat
  | a :: b :: c :: rest =>
    a.toNat / 4 :: (a.toNat % 4 * 16 + b.toNat / 16) :: (b.toNat % 16 * 4 + c.toNat / 64) ::
      c.toNat % 64 :: digits rest
  | [a, b] => [a.toNat / 4, a.toNat % 4 * 16 + b.toNat / 16, b.toNat % 16 * 4]
  | [a] => [a.toNat / 4, a.toNat % 4 * 16]
  | [] => []

def ofDigits : List Nat → Option Bytes
  | a :: b :: c :: d :: rest =>
    (ofDigits rest).map fun bs =>
      UInt8.ofNat (a * 4 + b / 16) :: UInt8.ofNat (b % 16 * 16 + c / 4) ::
        UInt8.ofNat (c % 4 * 64 + d) :: bs
  | [a, b, c] =>
    if c % 4 = 0 then some [UInt8.ofNat (a * 4 + b / 16), UInt8.ofNat (b % 16 * 16 + c / 4)]
    else none
  | [a, b] => if b % 16 = 0 then some [UInt8.ofNat (a * 4 + b / 16)] else none
  | [_] => none
  | [] => some []

def encode (bs : Bytes) : String := String.ofList ((digits bs).map symbol)

def decode (bs : Bytes) : Option Bytes := (bs.mapM value?).bind ofDigits

/-! ## What is encoded is decoded -/

theorem ofNat_eq {b : UInt8} {n : Nat} (h : n = b.toNat) : UInt8.ofNat n = b := by
  rw [h, UInt8.ofNat_toNat]

theorem ofDigits_digits (bs : Bytes) : ofDigits (digits bs) = some bs := by
  induction bs using digits.induct with
  | case1 a b c rest ih =>
    have ha := a.toNat_lt
    have hb := b.toNat_lt
    have hc := c.toNat_lt
    rw [digits, ofDigits, ih, Option.map_some, ofNat_eq (b := a) (by omega),
      ofNat_eq (b := b) (by omega), ofNat_eq (b := c) (by omega)]
  | case2 a b =>
    have ha := a.toNat_lt
    have hb := b.toNat_lt
    rw [digits, ofDigits, if_pos (by omega), ofNat_eq (b := a) (by omega),
      ofNat_eq (b := b) (by omega)]
  | case3 a =>
    have ha := a.toNat_lt
    rw [digits, ofDigits, if_pos (by omega), ofNat_eq (b := a) (by omega)]
  | case4 => rfl

theorem lt_of_mem_digits {bs : Bytes} : ∀ n ∈ digits bs, n < 64 := by
  induction bs using digits.induct with
  | case1 a b c rest ih =>
    have ha := a.toNat_lt
    have hb := b.toNat_lt
    have hc := c.toNat_lt
    simp only [digits, List.forall_mem_cons]
    exact ⟨by omega, by omega, by omega, by omega, ih⟩
  | case2 a b =>
    have ha := a.toNat_lt
    have hb := b.toNat_lt
    simp only [digits, List.forall_mem_cons]
    exact ⟨by omega, by omega, by omega, List.forall_mem_nil _⟩
  | case3 a =>
    have ha := a.toNat_lt
    simp only [digits, List.forall_mem_cons]
    exact ⟨by omega, by omega, List.forall_mem_nil _⟩
  | case4 => exact List.forall_mem_nil _

/-- A symbol is one byte, and its digit is read off the byte. -/
theorem value?_symbol : ∀ n < 64,
    (String.utf8EncodeChar (symbol n)).mapM value? = some [n] := by decide

theorem mapM_value? {ns : List Nat} (h : ∀ n ∈ ns, n < 64) :
    (Text.utf8 (String.ofList (ns.map symbol))).mapM value? = some ns := by
  rw [Text.utf8, String.toList_ofList]
  induction ns with
  | nil => rfl
  | cons n ns ih =>
    obtain ⟨hn, hns⟩ := List.forall_mem_cons.mp h
    rw [List.map_cons, List.flatMap_cons, List.mapM_append, value?_symbol n hn, ih hns]
    rfl

theorem decode_encode (bs : Bytes) : decode (Text.utf8 (encode bs)) = some bs := by
  rw [decode, encode, mapM_value? lt_of_mem_digits, Option.bind_some, ofDigits_digits]

theorem length_digits (bs : Bytes) : (digits bs).length = (4 * bs.length + 2) / 3 := by
  induction bs using digits.induct with
  | case1 a b c rest ih =>
    simp only [digits, List.length_cons]
    omega
  | case2 a b => simp [digits]
  | case3 a => simp [digits]
  | case4 => rfl

theorem length_encode (bs : Bytes) : (Text.utf8 (encode bs)).length = (4 * bs.length + 2) / 3 := by
  have hone : ∀ n < 64, (String.utf8EncodeChar (symbol n)).length = 1 := by decide
  rw [← length_digits, encode, Text.utf8, String.toList_ofList]
  have hall : ∀ n ∈ digits bs, n < 64 := lt_of_mem_digits
  generalize digits bs = ns at hall
  induction ns with
  | nil => rfl
  | cons n ns ih =>
    obtain ⟨hn, hns⟩ := List.forall_mem_cons.mp hall
    rw [List.map_cons, List.flatMap_cons, List.length_append, hone n hn, ih hns, List.length_cons,
      Nat.add_comm]

end Base64
