/-
The body of an HTTP/1.1 message.

Where a body ends follows from the fields of the head: a chunked transfer coding, a
content length, or else a default, which is no body for a request and the end of the
connection for a response.  Names of fields and of codings are compared without case.
-/
import RtProxy.Lib.HttpHead
import RtProxy.Lib.Text

namespace Http1

def lowerByte (b : UInt8) : UInt8 := if 0x41 ≤ b ∧ b ≤ 0x5A then b + 0x20 else b

def CONTENT_LENGTH : Bytes := Text.utf8 "content-length"
def TRANSFER_ENCODING : Bytes := Text.utf8 "transfer-encoding"
def CHUNKED : Bytes := Text.utf8 "chunked"

/-- The values of the fields of a name in lower case. -/
def fieldValues (name : Bytes) (fields : List (Bytes × Bytes)) : List Bytes :=
  (fields.filter fun field => field.1.map lowerByte = name).map Prod.snd

/-! ## Numbers -/

def decimalDigit? (b : UInt8) : Option Nat :=
  if 0x30 ≤ b ∧ b ≤ 0x39 then some (b.toNat - 0x30) else none

def hexDigit? (b : UInt8) : Option Nat :=
  if 0x30 ≤ b ∧ b ≤ 0x39 then some (b.toNat - 0x30)
  else if 0x41 ≤ b ∧ b ≤ 0x46 then some (b.toNat - 0x41 + 10)
  else if 0x61 ≤ b ∧ b ≤ 0x66 then some (b.toNat - 0x61 + 10)
  else none

/-- The value of a non-empty string of digits. -/
def number? (base : Nat) (digit? : UInt8 → Option Nat) (bs : Bytes) : Option Nat :=
  if bs = [] then none else bs.foldlM (fun n b => (digit? b).map (base * n + ·)) 0

def decimal? (bs : Bytes) : Option Nat := number? 10 decimalDigit? bs

/-- A string with a byte that is no digit is no number. -/
theorem foldlM_digits {base acc n : Nat} {digit? : UInt8 → Option Nat} {bs : Bytes}
    (h : bs.foldlM (fun n b => (digit? b).map (base * n + ·)) acc = some n) :
    ∀ b ∈ bs, (digit? b).isSome = true := by
  induction bs generalizing acc with
  | nil => exact List.forall_mem_nil _
  | cons b bs ih =>
    rw [List.foldlM_cons] at h
    obtain ⟨m, hm, h⟩ := Option.bind_eq_some_iff.mp h
    obtain ⟨d, hd, -⟩ := Option.map_eq_some_iff.mp hm
    rw [List.forall_mem_cons]
    exact ⟨by rw [hd]; rfl, ih h⟩

theorem digits_of_decimal? {bs : Bytes} {n : Nat} (h : decimal? bs = some n) :
    bs ≠ [] ∧ ∀ b ∈ bs, 0x30 ≤ b ∧ b ≤ 0x39 := by
  unfold decimal? number? at h
  split_ifs at h with hne
  refine ⟨hne, fun b hb => ?_⟩
  have hd := foldlM_digits h b hb
  unfold decimalDigit? at hd
  split_ifs at hd with hr
  · exact hr
  · cases hd

/-! ## Lengths -/

inductive BodyLength
  | exactly (n : Nat)
  | chunked
  | untilClose
deriving Repr, DecidableEq

/-- The length that all the content length fields agree on; `none` if they are no
numbers or do not agree. -/
def contentLength (fields : List (Bytes × Bytes)) : Option (Option Nat) :=
  match (fieldValues CONTENT_LENGTH fields).map decimal? with
  | [] => some none
  | n :: ns => if n.isSome = true ∧ ∀ m ∈ ns, m = n then some n else none

/-- A transfer coding other than chunked alone is not read. -/
def bodyLength (default : BodyLength) (fields : List (Bytes × Bytes)) : Option BodyLength :=
  match fieldValues TRANSFER_ENCODING fields with
  | [] => (contentLength fields).map fun n => (n.map .exactly).getD default
  | [coding] => if coding.map lowerByte = CHUNKED then some .chunked else none
  | _ => none

/-! ## Chunks -/

/-- A line without its end, and what follows it. -/
def cutLine (bs : Bytes) : Option (Bytes × Bytes) := do
  let (line, rest) ← cutAt CR bs
  if rest.head? = some LF then some (line, rest.tail) else none

/-- The size in front of a chunk, without extensions. -/
def chunkSize? (line : Bytes) : Option Nat :=
  number? 16 hexDigit? (trimBlanks (line.takeWhile fun b => b ≠ 0x3B))

/-- The data of the chunks and what follows the trailer; there are at most `fuel`
chunks. -/
def readChunks : Nat → Bytes → Option (Bytes × Bytes)
  | 0, _ => none
  | fuel + 1, bs => do
    let (line, rest) ← cutLine bs
    let size ← chunkSize? line
    if size = 0 then (headLines [] rest).map fun x => ([], x.2)
    else if rest.length < size + 2 ∨ (rest.drop size).take 2 ≠ lineEnd then none
    else (readChunks fuel (rest.drop (size + 2))).map fun x => (rest.take size ++ x.1, x.2)

/-- The body at the front of a byte string, decoded, and what follows it. -/
def takeBody : BodyLength → Bytes → Option (Bytes × Bytes)
  | .exactly n, bs => if bs.length < n then none else some (bs.take n, bs.drop n)
  | .chunked, bs => readChunks bs.length bs
  | .untilClose, bs => some (bs, [])

/-- A body of known length that takes up all the bytes. -/
theorem takeBody_exactly {n : Nat} {bs : Bytes} :
    takeBody (.exactly n) bs = some (bs, []) ↔ n = bs.length := by
  rw [takeBody]
  constructor
  · intro h
    split_ifs at h with hlt
    have hlen := congrArg (fun x => x.1.length) (Option.some.inj h)
    have htake : (bs.take n).length = bs.length := hlen
    have hdrop : bs.drop n = [] := congrArg Prod.snd (Option.some.inj h)
    rw [List.drop_eq_nil_iff] at hdrop
    omega
  · rintro rfl
    rw [if_neg (Nat.lt_irrefl _), List.take_length, List.drop_length]

/-! ## What framing costs -/

theorem eq_of_cutAt {sep : UInt8} {bs a b : Bytes} (h : cutAt sep bs = some (a, b)) :
    bs = a ++ sep :: b := by
  induction bs generalizing a with
  | nil => cases h
  | cons c bs ih =>
    rw [cutAt] at h
    split_ifs at h with hc
    · cases h
      rw [hc]
      rfl
    · obtain ⟨x, hx, hxa⟩ := Option.map_eq_some_iff.mp h
      cases hxa
      rw [ih hx]
      rfl

theorem length_of_cutLine {bs line rest : Bytes} (h : cutLine bs = some (line, rest)) :
    rest.length < bs.length := by
  obtain ⟨⟨a, b⟩, hab, h⟩ := Option.bind_eq_some_iff.mp h
  simp only at h
  split_ifs at h
  cases h
  rw [eq_of_cutAt hab, List.length_append, List.length_cons, List.length_tail]
  omega

theorem length_of_headLines {line bs rest : Bytes} {lines : List Bytes}
    (h : headLines line bs = some (lines, rest)) : rest.length < bs.length := by
  induction bs generalizing line lines with
  | nil => cases h
  | cons b bs ih =>
    rw [headLines] at h
    rw [List.length_cons]
    split_ifs at h
    · cases h
      omega
    · obtain ⟨x, hx, hxr⟩ := Option.map_eq_some_iff.mp h
      cases hxr
      have := ih hx
      omega
    · have := ih h
      omega

/-- A chunked body is longer than what it carries. -/
theorem length_of_readChunks {fuel : Nat} {bs body rest : Bytes}
    (h : readChunks fuel bs = some (body, rest)) : body.length + rest.length < bs.length := by
  induction fuel generalizing bs body rest with
  | zero => cases h
  | succ fuel ih =>
    obtain ⟨⟨line, tail⟩, hline, h⟩ := Option.bind_eq_some_iff.mp h
    obtain ⟨size, -, h⟩ := Option.bind_eq_some_iff.mp h
    have hlt := length_of_cutLine hline
    split_ifs at h with hsize hbad
    · obtain ⟨x, hx, hxr⟩ := Option.map_eq_some_iff.mp h
      cases hxr
      have := length_of_headLines hx
      rw [List.length_nil]
      omega
    · obtain ⟨x, hx, hxr⟩ := Option.map_eq_some_iff.mp h
      cases hxr
      have hrec := ih hx
      have hlong : size + 2 ≤ tail.length := by
        by_contra hshort
        exact hbad (.inl (by omega))
      rw [List.length_drop] at hrec
      rw [List.length_append, List.length_take]
      omega

end Http1
