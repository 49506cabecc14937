/-
Strings as Rust's standard library treats them.

The functions work on the characters of a string.  Their byte counterparts in
the source split and search at ASCII characters only, where the two agree.
-/
import RtProxy.Lib.Bytes

namespace Text

-- What is said of the characters of a string is decided by these alone.
attribute [instance (1100)] List.decidableBAll List.decidableBEx

/-- `str::as_bytes`. -/
def utf8 (s : String) : Bytes := s.toList.flatMap String.utf8EncodeChar

/-! ## UTF-8 -/

/-- A character under way: how many bytes are missing, which bytes may come next,
and the bits collected so far. -/
structure Partial where
  need : Nat
  lo : UInt8
  hi : UInt8
  acc : Nat
deriving Repr, DecidableEq

/-- What the first byte of a character says. -/
inductive Lead
  | char (c : Char)
  | more (p : Partial)
  | bad
deriving Repr, DecidableEq

/-- The well-formed leads and the range of the byte after each. -/
def lead (b : UInt8) : Lead :=
  if b < 0x80 then .char (Char.ofNat b.toNat)
  else if b < 0xC2 then .bad
  else if b < 0xE0 then .more ⟨1, 0x80, 0xBF, b.toNat - 0xC0⟩
  else if b < 0xF0 then
    .more ⟨2, if b = 0xE0 then 0xA0 else 0x80, if b = 0xED then 0x9F else 0xBF, b.toNat - 0xE0⟩
  else if b < 0xF5 then
    .more ⟨3, if b = 0xF0 then 0x90 else 0x80, if b = 0xF4 then 0x8F else 0xBF, b.toNat - 0xF0⟩
  else .bad

/-- What stands for bytes that are no character. -/
def replacement : Char := Char.ofNat 0xFFFD

/-- `String::from_utf8_lossy`: a truncated character and a byte that starts none
each become one replacement character. -/
def lossyChars : Option Partial → Bytes → List Char
  | none, [] => []
  | some _, [] => [replacement]
  | none, b :: bs =>
    match lead b with
    | .char c => c :: lossyChars none bs
    | .more p => lossyChars (some p) bs
    | .bad => replacement :: lossyChars none bs
  | some p, b :: bs =>
    if p.lo ≤ b ∧ b ≤ p.hi then
      if p.need = 1 then
        Char.ofNat (p.acc * 64 + (b.toNat - 0x80)) :: lossyChars none bs
      else lossyChars (some ⟨p.need - 1, 0x80, 0xBF, p.acc * 64 + (b.toNat - 0x80)⟩) bs
    else
      match lead b with
      | .char c => replacement :: c :: lossyChars none bs
      | .more q => replacement :: lossyChars (some q) bs
      | .bad => replacement :: replacement :: lossyChars none bs

def fromUtf8Lossy (bs : Bytes) : String := String.ofList (lossyChars none bs)

/-- `str::from_utf8`: bytes that are no text are not the encoding of what stands for
them. -/
def fromUtf8 (bs : Bytes) : Option String :=
  if utf8 (fromUtf8Lossy bs) = bs then some (fromUtf8Lossy bs) else none

/-! ### Encoding and decoding -/

/-- A byte that may come next in a character. -/
theorem continues {lo hi : UInt8} {n : Nat} (h : n < 64) (hlo : lo.toNat ≤ n + 0x80)
    (hhi : n + 0x80 ≤ hi.toNat) : (lo ≤ UInt8.ofNat (n + 0x80) ∧ UInt8.ofNat (n + 0x80) ≤ hi)
      ∧ (UInt8.ofNat (n + 0x80)).toNat - 0x80 = n := by
  have hb : (UInt8.ofNat (n + 0x80)).toNat = n + 0x80 :=
    UInt8.toNat_ofNat_of_lt' (by show _ < 256; omega)
  rw [UInt8.le_iff_toNat_le, UInt8.le_iff_toNat_le, hb]
  omega

theorem lossyChars_more {lo hi : UInt8} {need acc n : Nat} (h : n < 64)
    (hlo : lo.toNat ≤ n + 0x80) (hhi : n + 0x80 ≤ hi.toNat) (bs : Bytes) :
    lossyChars (some ⟨need + 2, lo, hi, acc⟩) (UInt8.ofNat (n + 0x80) :: bs)
      = lossyChars (some ⟨need + 1, 0x80, 0xBF, acc * 64 + n⟩) bs := by
  obtain ⟨hin, hn⟩ := continues h hlo hhi
  rw [lossyChars, if_pos hin, hn]
  rfl

theorem lossyChars_last {lo hi : UInt8} {acc n : Nat} (h : n < 64)
    (hlo : lo.toNat ≤ n + 0x80) (hhi : n + 0x80 ≤ hi.toNat) (bs : Bytes) :
    lossyChars (some ⟨1, lo, hi, acc⟩) (UInt8.ofNat (n + 0x80) :: bs)
      = Char.ofNat (acc * 64 + n) :: lossyChars none bs := by
  obtain ⟨hin, hn⟩ := continues h hlo hhi
  rw [lossyChars, if_pos hin, hn]
  rfl

theorem lossyChars_lead {b : UInt8} {p : Partial} (h : lead b = .more p) (bs : Bytes) :
    lossyChars none (b :: bs) = lossyChars (some p) bs := by
  rw [lossyChars, h]

theorem lead_one : ∀ n < 0x80, lead (UInt8.ofNat n) = .char (Char.ofNat n) := by decide

theorem lead_two : ∀ n < 0x20, 2 ≤ n →
    lead (UInt8.ofNat (n + 0xC0)) = .more ⟨1, 0x80, 0xBF, n⟩ := by
  decide

theorem lead_three : ∀ n < 0x10, lead (UInt8.ofNat (n + 0xE0)) =
    .more ⟨2, if n = 0 then 0xA0 else 0x80, if n = 13 then 0x9F else 0xBF, n⟩ := by
  decide

theorem lead_four : ∀ n < 5, lead (UInt8.ofNat (n + 0xF0)) =
    .more ⟨3, if n = 0 then 0x90 else 0x80, if n = 4 then 0x8F else 0xBF, n⟩ := by
  decide

/-- Decoding the bytes of a character gives it back. -/
theorem lossyChars_utf8EncodeChar (c : Char) (bs : Bytes) :
    lossyChars none (String.utf8EncodeChar c ++ bs) = c :: lossyChars none bs := by
  have hv : c.val.toNat < 0xD800 ∨ 0xDFFF < c.val.toNat ∧ c.val.toNat < 0x110000 := c.valid
  have hc : Char.ofNat c.val.toNat = c := Char.ofNat_toNat c
  unfold String.utf8EncodeChar
  generalize c.val.toNat = v at hv hc
  have hlo : (0x80 : UInt8).toNat = 0x80 := rfl
  have hhi : (0xBF : UInt8).toNat = 0xBF := rfl
  simp only
  split_ifs with h1 h2 h3
  all_goals simp only [List.cons_append, List.nil_append]
  · rw [lossyChars, lead_one v (by omega), hc]
  · rw [lossyChars_lead (lead_two (v / 64 % 0x20) (by omega) (by omega)),
      lossyChars_last (by omega) (by omega) (by omega)]
    have hsum : v / 64 % 0x20 * 64 + v % 0x40 = v := by omega
    rw [hsum, hc]
  · rw [lossyChars_lead (lead_three (v / 4096 % 0x10) (by omega)),
      lossyChars_more (by omega) ?_ ?_, lossyChars_last (by omega) (by omega) (by omega)]
    · have hsum : (v / 4096 % 0x10 * 64 + v / 64 % 0x40) * 64 + v % 0x40 = v := by omega
      rw [hsum, hc]
    · have hA0 : (0xA0 : UInt8).toNat = 0xA0 := rfl
      split_ifs <;> omega
    · have h9F : (0x9F : UInt8).toNat = 0x9F := rfl
      split_ifs <;> omega
  · rw [lossyChars_lead (lead_four (v / 262144 % 0x08) (by omega)),
      lossyChars_more (by omega) ?_ ?_, lossyChars_more (by omega) (by omega) (by omega),
      lossyChars_last (by omega) (by omega) (by omega)]
    · have hsum : ((v / 262144 % 0x08 * 64 + v / 4096 % 0x40) * 64 + v / 64 % 0x40) * 64
          + v % 0x40 = v := by omega
      rw [hsum, hc]
    · have h90 : (0x90 : UInt8).toNat = 0x90 := rfl
      split_ifs <;> omega
    · have h8F : (0x8F : UInt8).toNat = 0x8F := rfl
      split_ifs <;> omega

theorem fromUtf8Lossy_utf8 (s : String) : fromUtf8Lossy (utf8 s) = s := by
  have h (cs : List Char) : lossyChars none (cs.flatMap String.utf8EncodeChar) = cs := by
    induction cs with
    | nil => rfl
    | cons c cs ih => rw [List.flatMap_cons, lossyChars_utf8EncodeChar, ih]
  rw [fromUtf8Lossy, utf8, h, String.ofList_toList]

/-- Text is read back as itself. -/
theorem fromUtf8_utf8 (s : String) : fromUtf8 (utf8 s) = some s := by
  rw [fromUtf8, fromUtf8Lossy_utf8, if_pos rfl]

theorem utf8_of_fromUtf8 {bs : Bytes} {s : String} (h : fromUtf8 bs = some s) : utf8 s = bs := by
  unfold fromUtf8 at h
  split_ifs at h with hbs
  cases h
  exact hbs

/-! ### A repeated character -/

theorem length_utf8_replicate {c : Char} {k : Nat} (h : (String.utf8EncodeChar c).length = k)
    (n : Nat) : (utf8 (String.ofList (List.replicate n c))).length = n * k := by
  rw [utf8, String.toList_ofList]
  induction n with
  | zero => rw [List.replicate_zero, List.flatMap_nil, List.length_nil, Nat.zero_mul]
  | succ n ih =>
    rw [List.replicate_succ, List.flatMap_cons, List.length_append, h, ih, Nat.succ_mul,
      Nat.add_comm]

theorem not_mem_replicate {c d : Char} (h : d ≠ c) (n : Nat) :
    d ∉ (String.ofList (List.replicate n c)).toList := by
  rw [String.toList_ofList]
  exact fun hmem => h (List.eq_of_mem_replicate hmem)

/-- Bytes that begin no character are replaced one by one. -/
theorem fromUtf8Lossy_replicate {b : UInt8} (h : lead b = .bad) (n : Nat) :
    fromUtf8Lossy (List.replicate n b) = String.ofList (List.replicate n replacement) := by
  rw [fromUtf8Lossy]
  congr 1
  induction n with
  | zero => rfl
  | succ n ih => rw [List.replicate_succ, List.replicate_succ, lossyChars, h, ih]

/-! ## Searching and splitting -/

/-- The pieces between the separators; there is always at least one. -/
def pieces (sep : Char) : List Char → List (List Char)
  | [] => [[]]
  | c :: cs =>
    if c = sep then [] :: pieces sep cs
    else
      match pieces sep cs with
      | [] => [[c]]
      | p :: ps => (c :: p) :: ps

/-- `str::split`. -/
def split (s : String) (sep : Char) : List String := (pieces sep s.toList).map String.ofList

/-- What stands before and after the first separator. -/
def cutFirst (sep : Char) : List Char → Option (List Char × List Char)
  | [] => none
  | c :: cs =>
    if c = sep then some ([], cs)
    else (cutFirst sep cs).map fun x => (c :: x.1, x.2)

/-- What stands before and after the last separator. -/
def cutLast (sep : Char) : List Char → Option (List Char × List Char)
  | [] => none
  | c :: cs =>
    match cutLast sep cs with
    | some x => some (c :: x.1, x.2)
    | none => if c = sep then some ([], cs) else none

/-- What stands before and after the first occurrence of a pattern. -/
def cutSub (pat : List Char) : List Char → Option (List Char × List Char)
  | [] => if pat = [] then some ([], []) else none
  | c :: cs =>
    if pat.isPrefixOf (c :: cs) then some ([], (c :: cs).drop pat.length)
    else (cutSub pat cs).map fun x => (c :: x.1, x.2)

/-- `str::split_once`. -/
def splitOnce (s : String) (sep : Char) : Option (String × String) :=
  (cutFirst sep s.toList).map fun x => (String.ofList x.1, String.ofList x.2)

/-- `str::contains` for a character. -/
def contains (s : String) (c : Char) : Bool := c ∈ s.toList

/-- `char::is_whitespace`. -/
def isWhite (c : Char) : Bool :=
  (0x09 ≤ c.toNat && c.toNat ≤ 0x0D) || (0x2000 ≤ c.toNat && c.toNat ≤ 0x200A) ||
    c.toNat ∈ [0x20, 0x85, 0xA0, 0x1680, 0x2028, 0x2029, 0x202F, 0x205F, 0x3000]

theorem toNat_of_isAlphanum {c : Char} (h : c.isAlphanum = true) :
    0x30 ≤ c.toNat ∧ c.toNat ≤ 0x7A := by
  have hranges : (decide (65 ≤ c.val ∧ c.val ≤ 90) || (decide (97 ≤ c.val) && decide (c.val ≤ 122))
      || (decide (48 ≤ c.val) && decide (c.val ≤ 57))) = true := h
  simp only [Bool.or_eq_true, Bool.and_eq_true, decide_eq_true_eq, UInt32.le_iff_toNat_le] at hranges
  simp at hranges
  omega

/-- `str::trim_matches`. -/
def trimMatches (p : Char → Bool) (s : String) : String :=
  String.ofList (((s.toList.dropWhile p).reverse.dropWhile p).reverse)

/-- `str::trim`. -/
def trim (s : String) : String := trimMatches isWhite s

/-- `str::starts_with` for a string. -/
def startsWith (s p : String) : Bool := p.toList.isPrefixOf s.toList

/-- `str::ends_with` for a string. -/
def endsWith (s p : String) : Bool := p.toList.isSuffixOf s.toList

/-- `str::strip_prefix` for a string. -/
def dropStart (s p : String) : Option String :=
  if startsWith s p then some (String.ofList (s.toList.drop p.length)) else none

/-- `str::strip_suffix` for a string. -/
def dropEnd (s p : String) : Option String :=
  if endsWith s p then some (String.ofList (s.toList.take (s.length - p.length))) else none

/-- `str::to_ascii_lowercase`. -/
def toAsciiLowercase (s : String) : String := String.ofList (s.toList.map Char.toLower)

/-- `char::to_lowercase`, as far as a comparison with ASCII text can tell: two
characters outside ASCII become an ASCII letter, one of them with a mark. -/
def lowerChar (c : Char) : List Char :=
  if c.toNat = 0x212A then ['k']
  else if c.toNat = 0x130 then ['i', Char.ofNat 0x307]
  else [c.toLower]

/-- `str::to_lowercase`, for comparisons with ASCII text. -/
def toLowercase (s : String) : String := String.ofList (s.toList.flatMap lowerChar)

/-- `str::split_whitespace`. -/
def splitWhitespace (s : String) : List String :=
  ((s.toList.splitBy fun a b => isWhite a == isWhite b).filter fun w => !w.all isWhite).map
    String.ofList

/-! ## Lines -/

/-- The bytes up to and with the next line feed, and the rest. -/
def cutLine : Bytes → Bytes × Bytes
  | [] => ([], [])
  | b :: bs => if b = 0x0A then ([b], bs) else (b :: (cutLine bs).1, (cutLine bs).2)

/-- `BufRead::lines` until the end or the first line that is no text: each line
without its line feed and a carriage return before that. -/
def lines? (cur : Bytes) : Bytes → Option (List String)
  | [] =>
    if cur = [] then some []
    else
      match fromUtf8 cur with
      | some line => some [line]
      | none => none
  | b :: bs =>
    if b = 0x0A then
      match fromUtf8 (if cur.getLast? = some 0x0D then cur.dropLast else cur), lines? [] bs with
      | some line, some rest => some (line :: rest)
      | _, _ => none
    else lines? (cur ++ [b]) bs

/-! ## Numbers -/

def digit? (c : Char) : Option Nat :=
  if '0' ≤ c ∧ c ≤ '9' then some (c.toNat - '0'.toNat) else none

def hexDigit? (c : Char) : Option Nat :=
  if '0' ≤ c ∧ c ≤ '9' then some (c.toNat - '0'.toNat)
  else if 'a' ≤ c ∧ c ≤ 'f' then some (c.toNat - 'a'.toNat + 10)
  else if 'A' ≤ c ∧ c ≤ 'F' then some (c.toNat - 'A'.toNat + 10)
  else none

/-- The value of a non-empty string of decimal digits. -/
def decimal? (cs : List Char) : Option Nat :=
  if cs = [] then none else cs.foldlM (fun n c => (digit? c).map (10 * n + ·)) 0

/-- `str::parse::<u16>` and the like: digits with an optional plus sign, below
the bound of the type. -/
def parseUnsigned (bound : Nat) (s : String) : Option Nat :=
  let digits := match s.toList with
    | '+' :: cs => cs
    | cs => cs
  match decimal? digits with
  | some n => if n < bound then some n else none
  | none => none

/-- `str::parse::<i64>`. -/
def parseI64 (s : String) : Option Int :=
  match s.toList with
  | '-' :: cs =>
    match decimal? cs with
    | some n => if n ≤ 2 ^ 63 then some (-n) else none
    | none => none
  | _ =>
    match parseUnsigned (2 ^ 63) s with
    | some n => some n
    | none => none

end Text
