/-
An HTTP/1.1 response.

A response is a head, which interim responses may precede, and what follows the head.
Where the body ends depends on the request, the status and the fields.
-/
import RtProxy.Lib.HttpBody
import RtProxy.Lib.Trim

namespace Http1

/-- The value of a field is all that stands between the colon and the end of the line. -/
structure StatusHead where
  status : Nat
  reason : Bytes
  fields : List (Bytes × Bytes)
deriving Repr, DecidableEq

namespace StatusHead

structure Wf (head : StatusHead) : Prop where
  status : 100 ≤ head.status ∧ head.status < 1000
  reason : Value head.reason
  fields : ∀ field ∈ head.fields, Token field.1 ∧ Value field.2

def statusLine (head : StatusHead) : Bytes :=
  VERSION ++ SP :: (Text.utf8 (toString head.status) ++ SP :: head.reason)

def rawLine (field : Bytes × Bytes) : Bytes := field.1 ++ COLON :: field.2

def bytes (head : StatusHead) : Bytes :=
  head.statusLine ++ lineEnd ++ head.fields.flatMap (fun field => rawLine field ++ lineEnd) ++
    lineEnd

/-- The fields without the blanks around their values. -/
def values (head : StatusHead) : List (Bytes × Bytes) :=
  head.fields.map fun field => (field.1, trimBlanks field.2)

/-- How long the body is.  A response to a HEAD has none. -/
def length (toHead : Bool) (head : StatusHead) : Option BodyLength :=
  if toHead = true ∨ head.status = 204 ∨ head.status = 304 then some (.exactly 0)
  else bodyLength .untilClose head.values

end StatusHead

structure Reply where
  interim : List StatusHead
  head : StatusHead
  tail : Bytes
deriving Repr, DecidableEq

namespace Reply

structure Wf (reply : Reply) : Prop where
  interim : ∀ head ∈ reply.interim, head.Wf ∧ head.status < 200
  head : reply.head.Wf
  final : 200 ≤ reply.head.status

def bytes (reply : Reply) : Bytes :=
  reply.interim.flatMap StatusHead.bytes ++ reply.head.bytes ++ reply.tail

/-- The body takes up all that follows the head. -/
structure Framed (reply : Reply) (toHead : Bool) (length : BodyLength) (body : Bytes) : Prop where
  framing : reply.head.length toHead = some length
  taken : takeBody length reply.tail = some (body, [])

/-- Only chunks are longer than the body they carry. -/
theorem Framed.tail_eq {reply : Reply} {toHead : Bool} {length : BodyLength} {body : Bytes}
    (h : reply.Framed toHead length body) : reply.tail = body ↔ length ≠ .chunked := by
  have hbody := h.taken
  cases length with
  | exactly n =>
    rw [takeBody] at hbody
    split_ifs at hbody with hlt
    have hdrop : reply.tail.drop n = [] := congrArg Prod.snd (Option.some.inj hbody)
    have htake : reply.tail.take n = body := congrArg Prod.fst (Option.some.inj hbody)
    rw [List.drop_eq_nil_iff] at hdrop
    rw [List.take_of_length_le hdrop] at htake
    exact iff_of_true htake (fun h => by cases h)
  | chunked =>
    have hlen := length_of_readChunks hbody
    refine iff_of_false (fun heq => ?_) (fun hne => hne rfl)
    rw [heq, List.length_nil] at hlen
    omega
  | untilClose =>
    exact iff_of_true (congrArg Prod.fst (Option.some.inj hbody)) (fun h => by cases h)

theorem Framed.length_le {reply : Reply} {toHead : Bool} {length : BodyLength} {body : Bytes}
    (h : reply.Framed toHead length body) : body.length ≤ reply.tail.length := by
  by_cases hchunked : length = .chunked
  · have hbody := h.taken
    subst hchunked
    have hlen := length_of_readChunks hbody
    omega
  · rw [h.tail_eq.mpr hchunked]

end Reply

/-! ## What a reader sees of a head

A reader that takes any line feed for the end of a line sees more lines than one that
wants a carriage return before it. -/

/-- The lines up to an empty one, without their line feeds. -/
def shownLines (line : Bytes) : Bytes → List Bytes
  | [] => [line]
  | b :: bs =>
    if b = LF then if line = [] ∨ line = [CR] then [] else line :: shownLines [] bs
    else shownLines (line ++ [b]) bs

/-- The word after the first space. -/
def shownStatus (line : Bytes) : Bytes :=
  ((line.dropWhile (· ≠ SP)).drop 1).takeWhile fun b => b ≠ SP ∧ b ≠ CR

/-- Whether the line begins with `front` in any case. -/
def shownNamed (front line : Bytes) : Bool :=
  (front.map lowerByte).isPrefixOf (line.map lowerByte)

theorem shownLines_append {front : Bytes} (h : LF ∉ front) (read rest : Bytes) :
    shownLines read (front ++ rest) = shownLines (read ++ front) rest := by
  induction front generalizing read with
  | nil => rw [List.nil_append, List.append_nil]
  | cons b front ih =>
    rw [List.mem_cons, not_or] at h
    rw [List.cons_append, shownLines, if_neg (Ne.symm h.1), ih h.2, List.append_assoc,
      List.singleton_append]

theorem shownLines_line {line : Bytes} (h : LF ∉ line) (read rest : Bytes) :
    shownLines read (line ++ LF :: rest) =
      if read ++ line = [] ∨ read ++ line = [CR] then []
      else (read ++ line) :: shownLines [] rest := by
  rw [shownLines_append h, shownLines, if_pos rfl]

/-- A line that has begun with two bytes is shown. -/
theorem shownLines_begun (a b : UInt8) (read rest : Bytes) :
    ∃ more lines, shownLines (a :: b :: read) rest = (a :: b :: read ++ more) :: lines := by
  induction rest generalizing read with
  | nil => exact ⟨[], [], by rw [List.append_nil, shownLines]⟩
  | cons c rest ih =>
    rw [shownLines]
    by_cases hc : c = LF
    · have hne : ¬ (a :: b :: read = [] ∨ a :: b :: read = [CR]) := by
        rintro (h | h) <;> cases h
      rw [if_pos hc, if_neg hne]
      exact ⟨[], _, by rw [List.append_nil]⟩
    · obtain ⟨more, lines, hlines⟩ := ih (read ++ [c])
      rw [if_neg hc]
      exact ⟨c :: more, lines, by simpa using hlines⟩

theorem shownStatus_line {front status rest : Bytes} (hfront : SP ∉ front)
    (hstatus : SP ∉ status ∧ CR ∉ status) :
    shownStatus (front ++ SP :: (status ++ SP :: rest)) = status := by
  have hdrop : (front ++ SP :: (status ++ SP :: rest)).dropWhile (· ≠ SP) =
      SP :: (status ++ SP :: rest) := by
    rw [List.dropWhile_append_of_pos, List.dropWhile_cons_of_neg (by simp)]
    intro b hb
    simpa using ne_of_mem_of_not_mem hb hfront
  unfold shownStatus
  rw [hdrop, List.drop_one, List.tail_cons, List.takeWhile_append_of_pos,
    List.takeWhile_cons_of_neg (by simp), List.append_nil]
  intro b hb
  simpa using ⟨ne_of_mem_of_not_mem hb hstatus.1, ne_of_mem_of_not_mem hb hstatus.2⟩

/-- What is shown of lines and an empty one, whatever follows. -/
theorem shownLines_lines {lines : List Bytes} (h : ∀ line ∈ lines, line ≠ [] ∧ LF ∉ line)
    (rest : Bytes) :
    shownLines [] (lines.flatMap (· ++ lineEnd) ++ lineEnd ++ rest) = lines.map (· ++ [CR]) := by
  have hcr : LF ∉ [CR] := by decide
  induction lines with
  | nil =>
    have hend : ([] : List Bytes).flatMap (· ++ lineEnd) ++ lineEnd ++ rest = [CR] ++ LF :: rest := rfl
    rw [hend, shownLines_line hcr, if_pos (.inr rfl), List.map_nil]
  | cons line lines ih =>
    obtain ⟨⟨hne, hlf⟩, hlines⟩ := List.forall_mem_cons.mp h
    have happ : (line :: lines).flatMap (· ++ lineEnd) ++ lineEnd ++ rest =
        (line ++ [CR]) ++ LF :: (lines.flatMap (· ++ lineEnd) ++ lineEnd ++ rest) := by
      simp [lineEnd]
    have hlf' : LF ∉ line ++ [CR] := by
      rw [List.mem_append, not_or]
      exact ⟨hlf, hcr⟩
    have hshown : ¬ ([] ++ (line ++ [CR]) = [] ∨ [] ++ (line ++ [CR]) = [CR]) := by
      rw [List.nil_append]
      rintro (hnil | hnil)
      · exact hne (List.append_eq_nil_iff.mp hnil).1
      · exact hne (List.append_left_eq_self.mp hnil)
    rw [happ, shownLines_line hlf', if_neg hshown, ih hlines, List.nil_append, List.map_cons]

/-! ## Tokens and values as text -/

theorem ascii_of_token {bs : Bytes} (h : Token bs) : ∀ b ∈ bs, b < 0x80 := by
  have hall : ∀ n < 256, tokenByte (UInt8.ofNat n) → UInt8.ofNat n < 0x80 := by
    decide +kernel
  intro b hb
  have hb' := hall b.toNat b.toNat_lt
  rw [UInt8.ofNat_toNat] at hb'
  exact hb' (h.2 b hb)

/-- The characters of a token are those of its bytes: none is white, a colon, or changed
by more than its case. -/
theorem tokenByte_facts {b : UInt8} (h : tokenByte b) :
    Text.isWhite (Char.ofNat b.toNat) = false ∧ Char.ofNat b.toNat ≠ ':' ∧
      (Char.ofNat b.toNat).toLower = Char.ofNat (lowerByte b).toNat ∧ lowerByte b < 0x80 := by
  have hall : ∀ n < 256, tokenByte (UInt8.ofNat n) →
      Text.isWhite (Char.ofNat (UInt8.ofNat n).toNat) = false ∧
        Char.ofNat (UInt8.ofNat n).toNat ≠ ':' ∧
        (Char.ofNat (UInt8.ofNat n).toNat).toLower = Char.ofNat (lowerByte (UInt8.ofNat n)).toNat ∧
        lowerByte (UInt8.ofNat n) < 0x80 := by
    decide +kernel
  have hb := hall b.toNat b.toNat_lt
  rw [UInt8.ofNat_toNat] at hb
  exact hb h

theorem toAsciiLowercase_ascii {name : Bytes} (h : Token name) :
    Text.utf8 (Text.toAsciiLowercase (Text.ascii name)) = name.map lowerByte := by
  have hlower : Text.toAsciiLowercase (Text.ascii name) = Text.ascii (name.map lowerByte) := by
    unfold Text.toAsciiLowercase Text.ascii
    rw [String.toList_ofList, List.map_map, List.map_map]
    refine congrArg String.ofList (List.map_congr_left fun b hb => ?_)
    exact (tokenByte_facts (h.2 b hb)).2.2.1
  rw [hlower, Text.utf8_ascii]
  intro b hb
  obtain ⟨a, ha, rfl⟩ := List.mem_map.mp hb
  exact (tokenByte_facts (h.2 a ha)).2.2.2

def blankChar (c : Char) : Bool := c = ' ' || c = '\t'

theorem blankChar_of_blankByte {b : UInt8} {c : Char} (hmem : b ∈ String.utf8EncodeChar c)
    (hb : blankByte b = true) : blankChar c = true := by
  rw [blankByte, Bool.or_eq_true, decide_eq_true_eq, decide_eq_true_eq] at hb
  rcases hb with rfl | rfl
  · have hc := (Text.mem_utf8EncodeChar (by decide) c).mp hmem
    rw [← Char.ofNat_toNat c, hc]
    decide
  · have hc := (Text.mem_utf8EncodeChar (by decide) c).mp hmem
    rw [← Char.ofNat_toNat c, hc]
    decide

theorem utf8_blankChar {c : Char} (h : blankChar c = true) :
    ∀ b ∈ String.utf8EncodeChar c, blankByte b = true := by
  rw [blankChar, Bool.or_eq_true, decide_eq_true_eq, decide_eq_true_eq] at h
  rcases h with rfl | rfl <;> decide +kernel

theorem utf8_append_ofList (a b : List Char) : Text.utf8 (String.ofList (a ++ b)) =
    Text.utf8 (String.ofList a) ++ Text.utf8 (String.ofList b) := by
  rw [String.ofList_append, Text.utf8_append]

theorem utf8_singleton (c : Char) : Text.utf8 (String.ofList [c]) = String.utf8EncodeChar c := by
  unfold Text.utf8
  rw [String.toList_ofList, List.flatMap_cons, List.flatMap_nil, List.append_nil]

/-- Blanks are dropped from the front of the bytes of a text as from the text. -/
theorem dropWhile_utf8 (cs : List Char) :
    (Text.utf8 (String.ofList cs)).dropWhile blankByte =
      Text.utf8 (String.ofList (cs.dropWhile blankChar)) := by
  induction cs with
  | nil => rfl
  | cons c cs ih =>
    rw [← List.singleton_append, utf8_append_ofList, utf8_singleton, List.singleton_append]
    by_cases hc : blankChar c = true
    · rw [List.dropWhile_append_of_pos (utf8_blankChar hc), ih, List.dropWhile_cons_of_pos hc]
    · rw [List.dropWhile_cons_of_neg hc, ← List.singleton_append, utf8_append_ofList,
        utf8_singleton]
      cases hbytes : String.utf8EncodeChar c with
      | nil => exact absurd hbytes String.utf8EncodeChar_ne_nil
      | cons b bs =>
        have hb : ¬ blankByte b = true := fun h =>
          hc (blankChar_of_blankByte (by rw [hbytes]; exact List.mem_cons_self) h)
        rw [List.cons_append, List.dropWhile_cons_of_neg hb]

/-- And from its end. -/
theorem dropEndWhile_utf8 (cs : List Char) :
    ((Text.utf8 (String.ofList cs)).reverse.dropWhile blankByte).reverse =
      Text.utf8 (String.ofList (Text.dropEndWhile blankChar cs)) := by
  unfold Text.dropEndWhile
  induction cs using List.reverseRecOn with
  | nil => rfl
  | append_singleton cs c ih =>
    rw [utf8_append_ofList, utf8_singleton, List.reverse_append, List.reverse_append,
      List.reverse_singleton, List.singleton_append]
    by_cases hc : blankChar c = true
    · have hall : ∀ b ∈ (String.utf8EncodeChar c).reverse, blankByte b = true := fun b hb =>
        utf8_blankChar hc b (List.mem_reverse.mp hb)
      rw [List.dropWhile_append_of_pos hall, ih, List.dropWhile_cons_of_pos hc]
    · rw [List.dropWhile_cons_of_neg hc, List.reverse_cons, List.reverse_reverse,
        utf8_append_ofList, utf8_singleton]
      cases hbytes : (String.utf8EncodeChar c).reverse with
      | nil => exact absurd (List.reverse_eq_nil_iff.mp hbytes) String.utf8EncodeChar_ne_nil
      | cons b bs =>
        have hmem : b ∈ String.utf8EncodeChar c := by
          rw [← List.mem_reverse, hbytes]
          exact List.mem_cons_self
        have hb : ¬ blankByte b = true := fun h => hc (blankChar_of_blankByte hmem h)
        rw [List.cons_append, List.dropWhile_cons_of_neg hb, ← List.cons_append, ← hbytes,
          ← List.reverse_append, List.reverse_reverse]

theorem trimBlanks_utf8 (cs : List Char) : trimBlanks (Text.utf8 (String.ofList cs)) =
    Text.utf8 (String.ofList (Text.trimWhile blankChar cs)) := by
  unfold trimBlanks Text.trimWhile
  rw [dropWhile_utf8, dropEndWhile_utf8]

end Http1
