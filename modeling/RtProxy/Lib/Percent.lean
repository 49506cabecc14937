/-
Percent-encoding of text.

A character outside the set that is kept stands as its UTF-8 bytes, each a percent sign and
two hexadecimal digits.  What is encoded is decoded if the percent sign is not kept.
-/
import RtProxy.Lib.Text

namespace Percent

/-- The digit of four bits. -/
def hexDigit (n : Nat) : Char := if n < 10 then Char.ofNat (0x30 + n) else Char.ofNat (0x41 + (n - 10))

def encodeByte (b : UInt8) : List Char := ['%', hexDigit (b.toNat / 16), hexDigit (b.toNat % 16)]

def encodeChar (keep : Char → Bool) (c : Char) : List Char :=
  if keep c then [c] else (String.utf8EncodeChar c).flatMap encodeByte

def encode (keep : Char → Bool) (s : String) : String :=
  String.ofList (s.toList.flatMap (encodeChar keep))

/-- A percent sign without two digits stands for itself. -/
def decodeChars : List Char → Bytes
  | '%' :: a :: b :: cs =>
    match Text.hexDigit? a, Text.hexDigit? b with
    | some x, some y => UInt8.ofNat (16 * x + y) :: decodeChars cs
    | _, _ => 0x25 :: decodeChars (a :: b :: cs)
  | c :: cs => String.utf8EncodeChar c ++ decodeChars cs
  | [] => []

def decode (s : String) : Bytes := decodeChars s.toList

section

variable {keep : Char → Bool} {c : Char}

/-! ## What is encoded is decoded -/

theorem hexDigit?_hexDigit : ∀ n < 16, Text.hexDigit? (hexDigit n) = some n := by decide

theorem decodeChars_encodeByte (b : UInt8) (cs : List Char) :
    decodeChars (encodeByte b ++ cs) = b :: decodeChars cs := by
  have hb : b.toNat < 256 := b.toNat_lt
  have hhigh := hexDigit?_hexDigit (b.toNat / 16) (by omega)
  have hlow := hexDigit?_hexDigit (b.toNat % 16) (by omega)
  have hsum : 16 * (b.toNat / 16) + b.toNat % 16 = b.toNat := Nat.div_add_mod ..
  show decodeChars ('%' :: hexDigit (b.toNat / 16) :: hexDigit (b.toNat % 16) :: cs) = _
  rw [decodeChars, hhigh, hlow]
  simp only [hsum, UInt8.ofNat_toNat]

theorem decodeChars_encodeBytes (bs : Bytes) (cs : List Char) :
    decodeChars (bs.flatMap encodeByte ++ cs) = bs ++ decodeChars cs := by
  induction bs with
  | nil => rfl
  | cons b bs ih =>
    rw [List.flatMap_cons, List.append_assoc, decodeChars_encodeByte, ih, List.cons_append]

theorem decodeChars_cons (h : c ≠ '%') (cs : List Char) :
    decodeChars (c :: cs) = String.utf8EncodeChar c ++ decodeChars cs := by
  rw [decodeChars]
  exact fun _ _ _ hc _ => h hc

theorem decodeChars_encodeChar (hkeep : keep '%' = false) (c : Char) (cs : List Char) :
    decodeChars (encodeChar keep c ++ cs) = String.utf8EncodeChar c ++ decodeChars cs := by
  unfold encodeChar
  split_ifs with hc
  · have hne : c ≠ '%' := by
      rintro rfl
      rw [hkeep] at hc
      cases hc
    exact decodeChars_cons hne cs
  · exact decodeChars_encodeBytes _ cs

theorem decode_encode (hkeep : keep '%' = false) (s : String) :
    decode (encode keep s) = Text.utf8 s := by
  unfold decode encode Text.utf8
  rw [String.toList_ofList]
  induction s.toList with
  | nil => rfl
  | cons c cs ih => rw [List.flatMap_cons, decodeChars_encodeChar hkeep, ih, List.flatMap_cons]

/-! ## What is left as it is -/

theorem length_encodeByte (b : UInt8) : (encodeByte b).length = 3 := rfl

/-- An encoding is longer than the character. -/
theorem length_encodeChar (h : keep c = false) : 1 < (encodeChar keep c).length := by
  have hpos : 0 < (String.utf8EncodeChar c).length := by
    rw [String.length_utf8EncodeChar]
    exact c.utf8Size_pos
  unfold encodeChar
  rw [h, if_neg Bool.false_ne_true]
  obtain ⟨b, bs, hbs⟩ := List.exists_cons_of_length_pos hpos
  rw [hbs, List.flatMap_cons, List.length_append, length_encodeByte]
  omega

theorem length_le_encode (cs : List Char) :
    cs.length ≤ (cs.flatMap (encodeChar keep)).length := by
  induction cs with
  | nil => simp
  | cons c cs ih =>
    have hc : 1 ≤ (encodeChar keep c).length := by
      cases hkeep : keep c with
      | false => exact Nat.le_of_lt (length_encodeChar hkeep)
      | true => simp [encodeChar, hkeep]
    rw [List.flatMap_cons, List.length_append, List.length_cons]
    omega

/-- A text is its own encoding if and only if all its characters are kept. -/
theorem encode_eq_self {s : String} : encode keep s = s ↔ ∀ c ∈ s.toList, keep c = true := by
  rw [← String.toList_inj, encode, String.toList_ofList]
  induction s.toList with
  | nil => simp
  | cons c cs ih =>
    rw [List.flatMap_cons, List.forall_mem_cons]
    cases hkeep : keep c with
    | true =>
      rw [encodeChar, if_pos hkeep, List.singleton_append, List.cons.injEq, ih]
      simp
    | false =>
      refine iff_of_false (fun heq => ?_) (fun h => Bool.false_ne_true h.1)
      have hlen := congrArg List.length heq
      have hone := length_encodeChar hkeep
      have hmore : cs.length ≤ (cs.flatMap (encodeChar keep)).length := length_le_encode cs
      rw [List.length_append, List.length_cons] at hlen
      omega

/-- An encoding is made of what is kept, percent signs and digits. -/
theorem forall_encode {p : Char → Prop} (hpercent : p '%') (hdigit : ∀ n < 16, p (hexDigit n))
    (hkeep : ∀ c, keep c = true → p c) (s : String) : ∀ c ∈ (encode keep s).toList, p c := by
  intro c hc
  rw [encode, String.toList_ofList] at hc
  obtain ⟨d, -, hc⟩ := List.mem_flatMap.mp hc
  unfold encodeChar at hc
  split_ifs at hc with hd
  · rw [List.mem_singleton.mp hc]
    exact hkeep d hd
  · obtain ⟨b, -, hc⟩ := List.mem_flatMap.mp hc
    have hb : b.toNat < 256 := b.toNat_lt
    simp only [encodeByte, List.mem_cons, List.not_mem_nil, or_false] at hc
    rcases hc with rfl | rfl | rfl
    · exact hpercent
    · exact hdigit _ (by omega)
    · exact hdigit _ (by omega)

end

end Percent
