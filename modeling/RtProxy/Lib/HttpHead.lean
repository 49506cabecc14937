/-
The head of an HTTP/1.1 request.

The request line and the fields are lines that end at a carriage return and a line feed,
and an empty line ends the head.  A request target is any run of bytes that are neither
spaces nor controls, which every form of a target is.  A head that is written is read
back, whatever follows it.
-/
import RtProxy.Lib.Bytes

namespace Http1

def CR : UInt8 := 0x0D
def LF : UInt8 := 0x0A
def SP : UInt8 := 0x20
def HTAB : UInt8 := 0x09
def COLON : UInt8 := 0x3A

/-- `HTTP/1.1`. -/
def VERSION : Bytes := [0x48, 0x54, 0x54, 0x50, 0x2F, 0x31, 0x2E, 0x31]

/-! ## Bytes of a head -/

def tokenByte (b : UInt8) : Bool :=
  (0x30 ≤ b && b ≤ 0x39) || (0x41 ≤ b && b ≤ 0x5A) || (0x61 ≤ b && b ≤ 0x7A) ||
    b ∈ [0x21, 0x23, 0x24, 0x25, 0x26, 0x27, 0x2A, 0x2B, 0x2D, 0x2E, 0x5E, 0x5F, 0x60, 0x7C, 0x7E]

def targetByte (b : UInt8) : Bool := SP < b && b ≠ 0x7F

def blankByte (b : UInt8) : Bool := b = SP || b = HTAB

def valueByte (b : UInt8) : Bool := targetByte b || blankByte b

def Token (bs : Bytes) : Prop := bs ≠ [] ∧ ∀ b ∈ bs, tokenByte b

def Target (bs : Bytes) : Prop := bs ≠ [] ∧ ∀ b ∈ bs, targetByte b

def Value (bs : Bytes) : Prop := ∀ b ∈ bs, valueByte b

instance (bs : Bytes) : Decidable (Token bs) :=
  decidable_of_iff (bs ≠ [] ∧ bs.all tokenByte) (and_congr_right fun _ => List.all_eq_true)

instance (bs : Bytes) : Decidable (Target bs) :=
  decidable_of_iff (bs ≠ [] ∧ bs.all targetByte) (and_congr_right fun _ => List.all_eq_true)

instance (bs : Bytes) : Decidable (Value bs) :=
  decidable_of_iff (bs.all valueByte) List.all_eq_true

theorem targetByte_of_tokenByte {b : UInt8} : tokenByte b → targetByte b := by
  have hall : ∀ n < 256, tokenByte (UInt8.ofNat n) → targetByte (UInt8.ofNat n) := by
    decide +kernel
  have hb := hall b.toNat b.toNat_lt
  rwa [UInt8.ofNat_toNat] at hb

theorem not_separator {b : UInt8} (h : tokenByte b) : b ≠ COLON := by
  rintro rfl
  exact absurd h (by decide)

/-! ## Lines -/

/-- What is before the first separator, and what is after it. -/
def cutAt (sep : UInt8) : Bytes → Option (Bytes × Bytes)
  | [] => none
  | b :: bs =>
    if b = sep then some ([], bs) else (cutAt sep bs).map fun (front, back) => (b :: front, back)

/-- The lines up to the empty one, and what is after it. -/
def headLines (line : Bytes) : Bytes → Option (List Bytes × Bytes)
  | [] => none
  | b :: bs =>
    if b = LF ∧ line.getLast? = some CR then
      if line.dropLast = [] then some ([], bs)
      else (headLines [] bs).map fun (lines, rest) => (line.dropLast :: lines, rest)
    else headLines (line ++ [b]) bs

theorem cutAt_append {sep : UInt8} {a : Bytes} (h : sep ∉ a) (b : Bytes) :
    cutAt sep (a ++ sep :: b) = some (a, b) := by
  induction a with
  | nil => rw [List.nil_append, cutAt, if_pos rfl]
  | cons c a ih =>
    rw [List.mem_cons, not_or] at h
    rw [List.cons_append, cutAt, if_neg (Ne.symm h.1), ih h.2]
    rfl

/-- A line without a carriage return is read whole. -/
theorem headLines_append {line : Bytes} (h : CR ∉ line) (read : Bytes) (hread : CR ∉ read)
    (rest : Bytes) :
    headLines read (line ++ CR :: LF :: rest) =
      if read ++ line = [] then some ([], rest)
      else (headLines [] rest).map fun (lines, rest) => ((read ++ line) :: lines, rest) := by
  have hlast (bs : Bytes) (hbs : CR ∉ bs) : bs.getLast? ≠ some CR := fun h =>
    hbs (List.mem_of_getLast? h)
  induction line generalizing read with
  | nil =>
    have hcr : ¬ (CR = LF ∧ read.getLast? = some CR) := fun h => hlast read hread h.2
    rw [List.nil_append, headLines, if_neg hcr, headLines, List.getLast?_concat, if_pos ⟨rfl, rfl⟩,
      List.dropLast_concat, List.append_nil]
  | cons b line ih =>
    rw [List.mem_cons, not_or] at h
    have hb : ¬ (b = LF ∧ read.getLast? = some CR) := fun hb => hlast read hread hb.2
    have hread' : CR ∉ read ++ [b] := by
      rw [List.mem_append, List.mem_singleton, not_or]
      exact ⟨hread, h.1⟩
    rw [List.cons_append, headLines, if_neg hb, ih h.2 _ hread', List.append_assoc,
      List.singleton_append]

/-! ## Heads -/

structure Head where
  method : Bytes
  target : Bytes
  fields : List (Bytes × Bytes)
deriving Repr, DecidableEq

/-- A value without the blanks around it. -/
def trimBlanks (bs : Bytes) : Bytes :=
  ((bs.dropWhile blankByte).reverse.dropWhile blankByte).reverse

def parseRequestLine (line : Bytes) : Option (Bytes × Bytes) := do
  let (method, rest) ← cutAt SP line
  let (target, version) ← cutAt SP rest
  if Token method ∧ Target target ∧ version = VERSION then some (method, target) else none

def parseField (line : Bytes) : Option (Bytes × Bytes) := do
  let (name, value) ← cutAt COLON line
  if Token name ∧ Value value then some (name, trimBlanks value) else none

/-- A head, and what follows it. -/
def parseHead (bs : Bytes) : Option (Head × Bytes) := do
  let (lines, rest) ← headLines [] bs
  let line ← lines.head?
  let (method, target) ← parseRequestLine line
  let fields ← lines.tail.mapM parseField
  return (⟨method, target, fields⟩, rest)

/-- What a head that is read is made of. -/
structure Head.Wf (head : Head) : Prop where
  method : Token head.method
  target : Target head.target
  fields : ∀ field ∈ head.fields, Token field.1 ∧ Value field.2

def requestLine (method target : Bytes) : Bytes := method ++ SP :: (target ++ SP :: VERSION)

def fieldLine (field : Bytes × Bytes) : Bytes := field.1 ++ COLON :: SP :: field.2

def lineEnd : Bytes := [CR, LF]

/-- The bytes of a head. -/
def Head.bytes (head : Head) : Bytes :=
  requestLine head.method head.target ++ lineEnd ++
    head.fields.flatMap (fun field => fieldLine field ++ lineEnd) ++ lineEnd

/-! ## What is written is read -/

theorem sp_not_mem_of_targetByte {bs : Bytes} (h : ∀ b ∈ bs, targetByte b) : SP ∉ bs := fun hmem =>
  absurd (h _ hmem) (by decide)

theorem parseRequestLine_requestLine {method target : Bytes} (hm : Token method)
    (ht : Target target) : parseRequestLine (requestLine method target) = some (method, target) := by
  have hm' : SP ∉ method := sp_not_mem_of_targetByte fun b hb => targetByte_of_tokenByte (hm.2 b hb)
  have ht' : SP ∉ target := sp_not_mem_of_targetByte ht.2
  rw [parseRequestLine, requestLine, cutAt_append hm']
  simp only [Option.bind_eq_bind, Option.bind_some]
  rw [cutAt_append ht', Option.bind_some, if_pos ⟨hm, ht, rfl⟩]

theorem target_of_parseRequestLine {line method target : Bytes}
    (h : parseRequestLine line = some (method, target)) : Token method ∧ Target target := by
  obtain ⟨⟨m, rest⟩, -, h⟩ := Option.bind_eq_some_iff.mp h
  obtain ⟨⟨t, version⟩, -, h⟩ := Option.bind_eq_some_iff.mp h
  simp only at h
  split_ifs at h with hok
  cases h
  exact ⟨hok.1, hok.2.1⟩

theorem parseField_fieldLine {field : Bytes × Bytes} (hn : Token field.1) (hv : Value field.2) :
    parseField (fieldLine field) = some (field.1, trimBlanks field.2) := by
  have hcolon : COLON ∉ field.1 := fun hmem => not_separator (hn.2 _ hmem) rfl
  have hblank : Value (SP :: field.2) := by
    intro b hb
    rcases List.mem_cons.mp hb with rfl | hb
    · rfl
    · exact hv b hb
  have htrim : trimBlanks (SP :: field.2) = trimBlanks field.2 := by
    rw [trimBlanks, List.dropWhile_cons_of_pos (by rfl), trimBlanks]
  rw [parseField, fieldLine, cutAt_append hcolon]
  simp only [Option.bind_eq_bind, Option.bind_some]
  rw [if_pos ⟨hn, hblank⟩, htrim]

theorem cr_not_mem_of_valueByte {bs : Bytes} (h : Value bs) : CR ∉ bs := fun hmem =>
  absurd (h _ hmem) (by decide)

theorem value_of_target {bs : Bytes} (h : ∀ b ∈ bs, targetByte b) : Value bs := by
  intro b hb
  rw [valueByte, h b hb]
  rfl

theorem value_of_token {bs : Bytes} (h : Token bs) : Value bs :=
  value_of_target fun b hb => targetByte_of_tokenByte (h.2 b hb)

theorem value_append {a b : Bytes} : Value (a ++ b) ↔ Value a ∧ Value b := List.forall_mem_append

theorem value_cons {a : UInt8} {b : Bytes} : Value (a :: b) ↔ valueByte a ∧ Value b :=
  List.forall_mem_cons

theorem value_requestLine {method target : Bytes} (hm : Token method) (ht : Target target) :
    Value (requestLine method target) := by
  rw [requestLine, value_append, value_cons, value_append, value_cons]
  exact ⟨value_of_token hm, rfl, value_of_target ht.2, rfl, by decide⟩

theorem value_fieldLine {field : Bytes × Bytes} (hn : Token field.1) (hv : Value field.2) :
    Value (fieldLine field) := by
  rw [fieldLine, value_append, value_cons, value_cons]
  exact ⟨value_of_token hn, by decide, rfl, hv⟩

/-- The lines of a head, with whatever follows it. -/
theorem headLines_lines {lines : List Bytes} (hlines : ∀ line ∈ lines, line ≠ [] ∧ Value line)
    (rest : Bytes) :
    headLines [] (lines.flatMap (· ++ lineEnd) ++ lineEnd ++ rest) = some (lines, rest) := by
  induction lines with
  | nil =>
    have hnil : CR ∉ ([] : Bytes) := List.not_mem_nil
    exact headLines_append hnil [] hnil rest
  | cons line lines ih =>
    obtain ⟨⟨hne, hvalue⟩, hlines⟩ := List.forall_mem_cons.mp hlines
    have happ : (line :: lines).flatMap (· ++ lineEnd) ++ lineEnd ++ rest =
        line ++ CR :: LF :: (lines.flatMap (· ++ lineEnd) ++ lineEnd ++ rest) := by
      simp [lineEnd]
    rw [happ, headLines_append (cr_not_mem_of_valueByte hvalue) [] List.not_mem_nil,
      List.nil_append, if_neg hne, ih hlines]
    rfl

theorem mapM_parseField {fields : List (Bytes × Bytes)}
    (h : ∀ field ∈ fields, Token field.1 ∧ Value field.2) :
    (fields.map fieldLine).mapM parseField =
      some (fields.map fun field => (field.1, trimBlanks field.2)) := by
  induction fields with
  | nil => rfl
  | cons field fields ih =>
    obtain ⟨⟨hn, hv⟩, hfields⟩ := List.forall_mem_cons.mp h
    rw [List.map_cons, List.mapM_cons, parseField_fieldLine hn hv, ih hfields]
    rfl

theorem parseHead_bytes {head : Head} (h : head.Wf) (rest : Bytes) :
    parseHead (head.bytes ++ rest) =
      some ({ head with fields := head.fields.map fun field => (field.1, trimBlanks field.2) },
        rest) := by
  have hlines : ∀ line ∈ requestLine head.method head.target :: head.fields.map fieldLine,
      line ≠ [] ∧ Value line := by
    intro line hline
    rcases List.mem_cons.mp hline with rfl | hline
    · exact ⟨List.append_ne_nil_of_right_ne_nil _ (List.cons_ne_nil _ _),
        value_requestLine h.method h.target⟩
    · obtain ⟨field, hfield, rfl⟩ := List.mem_map.mp hline
      obtain ⟨hn, hv⟩ := h.fields field hfield
      exact ⟨List.append_ne_nil_of_right_ne_nil _ (List.cons_ne_nil _ _), value_fieldLine hn hv⟩
  have hbytes : head.bytes ++ rest =
      (requestLine head.method head.target :: head.fields.map fieldLine).flatMap (· ++ lineEnd) ++
        lineEnd ++ rest := by
    rw [Head.bytes, List.flatMap_cons, List.flatMap_map]
  rw [parseHead, hbytes, headLines_lines hlines]
  simp only [Option.bind_eq_bind, Option.bind_some, List.head?_cons, List.tail_cons]
  rw [parseRequestLine_requestLine h.method h.target]
  simp only [Option.bind_some]
  rw [mapM_parseField h.fields]
  rfl

/-- The target of a head that is read has neither spaces nor controls. -/
theorem target_of_parseHead {bs rest : Bytes} {head : Head} (h : parseHead bs = some (head, rest)) :
    Target head.target := by
  obtain ⟨⟨lines, tail⟩, -, h⟩ := Option.bind_eq_some_iff.mp h
  obtain ⟨line, -, h⟩ := Option.bind_eq_some_iff.mp h
  obtain ⟨⟨method, target⟩, hline, h⟩ := Option.bind_eq_some_iff.mp h
  obtain ⟨fields, -, h⟩ := Option.bind_eq_some_iff.mp h
  cases h
  exact (target_of_parseRequestLine hline).2

end Http1
