/-
Reading an HTTP/1.1 message in chunks.

The chunks do not tell where the head ends, so what follows it in the last of them is the
front of the body.  What a head says is left to a parser.
-/
import RtProxy.Lib.Cut
import RtProxy.Lib.HeadEnd
import RtProxy.Lib.HeadText
import RtProxy.Lib.HttpReply
import RtProxy.Lib.LineReader

namespace Http1

open ByteStream AsyncRead Bytes

variable {σ ε : Type} [AsyncRead σ ε]

/-! ## Reading -/

/-- How the search for the end of a head comes out. -/
inductive HeadRead (ε : Type)
  /-- the head is the first `n` bytes -/
  | found (buf : Bytes) (n : Nat)
  | ended
  | large
  | failed (e : ε)
deriving Repr, DecidableEq

/-- Reads until the end of a head has come. -/
def readHead (chunk limit : Nat) (buf : Bytes) (s : σ) : Option (HeadRead ε) × σ :=
  match read chunk s with
  | (none, s) => (none, s)
  | (some (.error e), s) => (some (.failed e), s)
  | (some (.ok []), s) => (some .ended, s)
  | (some (.ok (b :: bs)), s) =>
    let buf := buf ++ b :: bs
    if limit < buf.length then (some .large, s)
    else
      match position HEAD_END buf with
      | some pos => (some (.found buf (pos + 4)), s)
      | none => readHead chunk limit buf s
termination_by limit + 1 - buf.length
decreasing_by
  rw [List.length_append, List.length_cons] at *
  omega

/-- Reads until there are `len` bytes, or the stream has ended. -/
def readBody (chunk len : Nat) (body : Bytes) (s : σ) : Option (Except ε Bytes) × σ :=
  if body.length < len then
    match read chunk s with
    | (none, s) => (none, s)
    | (some (.error e), s) => (some (.error e), s)
    | (some (.ok []), s) => (some (.ok body), s)
    | (some (.ok (b :: bs)), s) => readBody chunk len (body ++ b :: bs) s
  else (some (.ok body), s)
termination_by len - body.length
decreasing_by
  rw [List.length_append, List.length_cons]
  omega

/-- Reads until the stream has ended. -/
def readToEnd [AsyncRead.Lawful σ ε] (chunk : Nat) (pos : 0 < chunk) (body : Bytes) (s : σ) :
    Option (Except ε Bytes) × σ :=
  match _h : read chunk s with
  | (none, s') => (none, s')
  | (some (.error e), s') => (some (.error e), s')
  | (some (.ok []), s') => (some (.ok body), s')
  | (some (.ok (b :: bs)), s') => readToEnd chunk pos (body ++ b :: bs) s'
termination_by (content s).length
decreasing_by
  have hreading := reading pos s
  rw [_h] at hreading
  cases hreading with
  | bytes h =>
    simp only [h.content, List.length_append, List.length_cons]
    omega

section

variable [AsyncRead.Lawful σ ε] {chunk limit len : Nat} {s : σ} {buf body head payload : Bytes}

/-- A head that is not too large is found, whatever the chunks. -/
theorem readHead_complete (hchunk : 0 < chunk) (hhead : IsHead head)
    (hall : buf ++ content s = head ++ payload) (hbuf : buf.length < head.length)
    (hsize : head.length + chunk ≤ limit + 1) (hunfailing : ∀ e, ¬ fails s e) :
    ∃ extra s', readHead chunk limit buf s = (some (.found (head ++ extra) head.length), s') ∧
      payload = extra ++ content s' ∧ closed s' = closed s ∧ ∀ e, ¬ fails s' e := by
  induction hn : limit + 1 - buf.length using Nat.strong_induction_on generalizing buf s with
  | _ n ih =>
    subst hn
    have hmore : content s ≠ [] := by
      intro hnil
      have := congrArg List.length hall
      simp only [hnil, List.append_nil, List.length_append] at this
      omega
    obtain ⟨b, bs, s', hread, hreads, hle⟩ := exists_read hchunk hmore hunfailing
    have hall' : buf ++ b :: bs ++ content s' = head ++ payload := by
      rw [← hall, hreads.content, List.append_assoc]
    have hpre : buf ++ b :: bs <+: head ++ payload := ⟨_, hall'⟩
    have hfails : ∀ e, ¬ fails s' e := fun e he => hunfailing e (hreads.fails e he)
    have hsmall : ¬ limit < (buf ++ b :: bs).length := by
      rw [List.length_append, List.length_cons]
      omega
    rw [readHead, hread]
    simp only [if_neg hsmall]
    by_cases hlen : (buf ++ b :: bs).length < head.length
    · rw [position_short hhead hpre hlen]
      obtain ⟨extra, t, hrest, hpayload, hclosed, hun⟩ := ih _ (by
        rw [List.length_append, List.length_cons]
        omega) hall' hlen hfails rfl
      exact ⟨extra, t, hrest, hpayload, hclosed.trans hreads.closed, hun⟩
    · have hlong : head.length ≤ (buf ++ b :: bs).length := Nat.not_lt.mp hlen
      have hfour : head.length - 4 + 4 = head.length := by
        obtain ⟨m, hm, -⟩ := hhead
        omega
      obtain ⟨extra, hextra⟩ : head <+: buf ++ b :: bs :=
        List.prefix_of_prefix_length_le (List.prefix_append _ _) hpre hlong
      rw [position_long hhead hpre hlong]
      simp only [hfour]
      refine ⟨extra, s', by rw [hextra], ?_, hreads.closed, hfails⟩
      rw [← hextra, List.append_assoc] at hall'
      exact (List.append_cancel_left hall').symm

/-- A body of which the length is known is read, whatever the chunks. -/
theorem readBody_complete (hchunk : 0 < chunk) (hlen : len ≤ (body ++ content s).length)
    (hunfailing : ∀ e, ¬ fails s e) :
    ∃ all s', readBody chunk len body s = (some (.ok all), s') ∧
      all.take len = (body ++ content s).take len := by
  induction hn : len - body.length using Nat.strong_induction_on generalizing body s with
  | _ n ih =>
    subst hn
    rw [readBody]
    by_cases hshort : body.length < len
    · have hmore : content s ≠ [] := by
        intro hnil
        rw [hnil, List.append_nil] at hlen
        omega
      obtain ⟨b, bs, s', hread, hreads, -⟩ := exists_read hchunk hmore hunfailing
      have hall : body ++ content s = body ++ b :: bs ++ content s' := by
        rw [hreads.content, List.append_assoc]
      rw [if_pos hshort, hread, hall]
      refine ih _ ?_ (hall ▸ hlen) (fun e he => hunfailing e (hreads.fails e he)) rfl
      rw [List.length_append, List.length_cons]
      omega
    · rw [if_neg hshort]
      exact ⟨body, s, rfl, by rw [List.take_append_of_le_length (Nat.le_of_not_lt hshort)]⟩

end

/-! ## What heads say -/

/-- A reader of heads.  Of a response it gives the status and the fields, or says what is
wrong. -/
structure Parser where
  request : Bytes → Option Head
  response : Bytes → Except String (Nat × List (Bytes × Bytes))

/-- The heads that are well formed are read, if they have no more than `max` fields. -/
structure Parser.Reads (parser : Parser) (max : Nat) : Prop where
  request : ∀ head : Head, head.Wf → head.fields.length ≤ max → parser.request head.bytes =
    some { head with fields := head.fields.map fun field => (field.1, trimBlanks field.2) }
  response : ∀ head : StatusHead, head.Wf → head.fields.length ≤ max →
    parser.response head.bytes = .ok (head.status, head.values)

/-- The value of the first field of a name. -/
def fieldText (name : Bytes) (fields : List (Bytes × Bytes)) : Option String :=
  (fields.find? fun field => field.1.map lowerByte = name).bind fun field => Text.fromUtf8 field.2

/-- The content length that the first such field gives. -/
def lengthField (fields : List (Bytes × Bytes)) : Option Nat :=
  (fieldText CONTENT_LENGTH fields).bind fun value => Text.parseUnsigned (2 ^ 64) (Text.trim value)

/-! ## Heads as bytes -/

section

variable {line rest : Bytes} {lines : List Bytes} {m : Nat}

/-- No end of a head stands before a line end behind which something else begins. -/
theorem at_beyond_line (hcr : CR ∉ line)
    (h : At (line ++ (lineEnd ++ rest)) m HEAD_END) :
    (m = line.length ∧ At rest 0 lineEnd) ∨
      ∃ k, m = line.length + 2 + k ∧ At rest k HEAD_END := by
  have hend : HEAD_END = CR :: LF :: lineEnd := rfl
  obtain ⟨hfirst, hsecond⟩ := At.cons_iff.mp (hend ▸ h)
  have hmid : At (line ++ (lineEnd ++ rest)) (line.length + 2) rest := by
    have hall : line ++ (lineEnd ++ rest) = line ++ lineEnd ++ rest := (List.append_assoc ..).symm
    have hlen : line.length + 2 = (line ++ lineEnd).length := by simp [lineEnd]
    rw [hall, hlen]
    exact ⟨[], by rw [List.drop_left, List.append_nil]⟩
  rcases Nat.lt_trichotomy m line.length with hlt | rfl | hgt
  · rw [List.getElem?_append_left hlt] at hfirst
    exact absurd (List.mem_of_getElem? hfirst) hcr
  · obtain ⟨-, hthird⟩ := At.cons_iff.mp hsecond
    refine .inl ⟨rfl, hmid.within (i := 0) hthird ?_⟩
    have := hthird.length_le
    simp only [List.length_append, lineEnd, List.length_cons, List.length_nil] at this ⊢
    omega
  · by_cases hone : m = line.length + 1
    · subst hone
      rw [List.getElem?_append_right (by omega), Nat.add_sub_cancel_left] at hfirst
      cases hfirst
    · obtain ⟨k, rfl⟩ : ∃ k, m = line.length + 2 + k := ⟨m - (line.length + 2), by omega⟩
      refine .inr ⟨k, rfl, hmid.within h ?_⟩
      have := h.length_le
      simp only [List.length_append, HEAD_END, lineEnd, List.length_cons, List.length_nil] at this ⊢
      omega

/-- Lines with no line end in them, and an empty one behind them, are a head. -/
theorem isHead_lines (hlines : ∀ line ∈ lines, line ≠ [] ∧ CR ∉ line) (hne : lines ≠ []) :
    IsHead (lines.flatMap (· ++ lineEnd) ++ lineEnd) := by
  have hfour : HEAD_END.length = 4 := rfl
  have htwo : lineEnd.length = 2 := rfl
  have hbefore : ∀ lines : List Bytes, (∀ line ∈ lines, line ≠ [] ∧ CR ∉ line) → ∀ m,
      At (lines.flatMap (· ++ lineEnd) ++ lineEnd) m HEAD_END →
        m + 4 = (lines.flatMap (· ++ lineEnd) ++ lineEnd).length := by
    intro lines hlines
    induction lines with
    | nil =>
      intro m h
      have := h.length_le
      simp only [List.flatMap_nil, List.nil_append, hfour, htwo] at this
      omega
    | cons line lines ih =>
      obtain ⟨⟨-, hcr⟩, hlines⟩ := List.forall_mem_cons.mp hlines
      intro m h
      rw [List.flatMap_cons, List.append_assoc, List.append_assoc] at h ⊢
      rcases at_beyond_line hcr h with ⟨rfl, hrest⟩ | ⟨k, rfl, hk⟩
      · cases lines with
        | nil => simp [lineEnd]
        | cons next lines =>
          -- the line that follows is not empty and has no carriage return
          obtain ⟨⟨hnext, hcr'⟩, -⟩ := List.forall_mem_cons.mp hlines
          obtain ⟨b, bs, rfl⟩ := List.exists_cons_of_ne_nil hnext
          obtain ⟨hfirst, -⟩ := At.cons_iff.mp hrest
          cases hfirst
          exact absurd List.mem_cons_self hcr'
      · have := ih hlines k hk
        simp only [List.length_append, htwo] at this ⊢
        omega
  obtain ⟨front, last, rfl⟩ : ∃ front last, lines = front ++ [last] :=
    ⟨lines.dropLast, lines.getLast hne, (List.dropLast_append_getLast hne).symm⟩
  have hall : (front ++ [last]).flatMap (· ++ lineEnd) ++ lineEnd =
      (front.flatMap (· ++ lineEnd) ++ last) ++ HEAD_END := by
    simp [HEAD_END, lineEnd]
  refine ⟨(front.flatMap (· ++ lineEnd) ++ last).length, ?_, ?_, fun m hm h => ?_⟩
  · rw [hall, List.length_append, hfour]
  · rw [hall]
    exact ⟨[], by rw [List.drop_left, List.append_nil]⟩
  · have := hbefore _ hlines m h
    rw [hall, List.length_append, hfour] at this
    omega

end

theorem IsHead.length_pos {head : Bytes} (h : IsHead head) : 0 < head.length := by
  obtain ⟨n, hn, -⟩ := h
  omega

theorem Head.isHead {head : Head} (h : head.Wf) : IsHead head.bytes := by
  have hbytes : head.bytes =
      (requestLine head.method head.target :: head.fields.map fieldLine).flatMap (· ++ lineEnd) ++
        lineEnd := by
    rw [Head.bytes, List.flatMap_cons, List.flatMap_map]
  rw [hbytes]
  refine isHead_lines (fun line hline => ?_) (List.cons_ne_nil _ _)
  rcases List.mem_cons.mp hline with rfl | hline
  · exact ⟨List.append_ne_nil_of_right_ne_nil _ (List.cons_ne_nil _ _),
      cr_not_mem_of_valueByte (value_requestLine h.method h.target)⟩
  · obtain ⟨field, hfield, rfl⟩ := List.mem_map.mp hline
    obtain ⟨hname, hvalue⟩ := h.fields field hfield
    exact ⟨List.append_ne_nil_of_right_ne_nil _ (List.cons_ne_nil _ _),
      cr_not_mem_of_valueByte (value_fieldLine hname hvalue)⟩

/-! ## Numbers in heads -/

theorem toList_number (n : Nat) : (toString n).toList = Nat.toDigits 10 n := String.toList_ofList

theorem digit_of_number {n : Nat} {c : Char} (hc : c ∈ (toString n).toList) :
    48 ≤ c.toNat ∧ c.toNat < 58 := by
  rw [toList_number] at hc
  have hrange := Nat.isDigit_of_mem_toDigits (by decide) (by decide) hc
  simp only [Char.isDigit, Bool.and_eq_true, decide_eq_true_eq] at hrange
  exact ⟨hrange.1, Nat.lt_succ_of_le hrange.2⟩

/-- What holds of the ten digits holds of every character of a number. -/
theorem number_all {p : Char → Bool} (hdigit : ∀ m < 58, 48 ≤ m → p (Char.ofNat m) = true) {n : Nat}
    {c : Char} (hc : c ∈ (toString n).toList) : p c = true := by
  have hrange := digit_of_number hc
  rw [← Char.ofNat_toNat c]
  exact hdigit c.toNat hrange.2 hrange.1

theorem digits_number (n : Nat) : ∀ b ∈ Text.utf8 (toString n), 0x30 ≤ b ∧ b ≤ 0x39 := by
  intro b hb
  obtain ⟨c, hc, hb⟩ := List.mem_flatMap.mp hb
  have hall := number_all (p := fun c => (String.utf8EncodeChar c).all fun b => 0x30 ≤ b ∧ b ≤ 0x39)
    (by decide) hc
  exact of_decide_eq_true (List.all_eq_true.mp hall b hb)

theorem value_number (n : Nat) : Value (Text.utf8 (toString n)) := by
  have hall : ∀ m < 256, 0x30 ≤ UInt8.ofNat m → UInt8.ofNat m ≤ 0x39 →
      valueByte (UInt8.ofNat m) = true := by
    decide +kernel
  intro b hb
  have hb' := hall b.toNat b.toNat_lt
  rw [UInt8.ofNat_toNat] at hb'
  exact hb' (digits_number n b hb).1 (digits_number n b hb).2

theorem trim_number (n : Nat) : Text.trim (toString n) = toString n := by
  have hwhite : ∀ c ∈ (toString n).toList, Text.isWhite c = false := fun c hc => by
    simpa using number_all (p := fun c => !Text.isWhite c) (by decide) hc
  exact Text.trim_eq_self (fun c hc => hwhite c (List.mem_of_mem_head? hc))
    fun c hc => hwhite c (List.mem_of_getLast? hc)

theorem trimBlanks_number (n : Nat) : trimBlanks (Text.utf8 (toString n)) = Text.utf8 (toString n) := by
  have hblank : ∀ c ∈ (toString n).toList, blankChar c = false := fun c hc => by
    simpa using number_all (p := fun c => !blankChar c) (by decide) hc
  have h := trimBlanks_utf8 (toString n).toList
  rwa [Text.trimWhile_eq_self hblank, String.ofList_toList] at h

theorem trimBlanks_sp (bs : Bytes) : trimBlanks (SP :: bs) = trimBlanks bs := by
  unfold trimBlanks
  rw [List.dropWhile_cons_of_pos rfl]

/-- A number of so many digits is as many bytes long. -/
theorem length_number {n k : Nat} (h : n < 10 ^ k) (hk : 0 < k) :
    (Text.utf8 (toString n)).length ≤ k := by
  have hone : ∀ c ∈ (toString n).toList, (String.utf8EncodeChar c).length = 1 := fun c hc => by
    simpa using number_all (p := fun c => (String.utf8EncodeChar c).length = 1) (by decide) hc
  unfold Text.utf8
  rw [List.length_flatMap, List.map_congr_left hone, toList_number]
  simpa using (Nat.length_toDigits_le_iff (by decide) hk).mpr h

theorem parseUnsigned_number {bound n : Nat} (h : n < bound) :
    Text.parseUnsigned bound (toString n) = some n := Text.parseUnsigned_toDigits h

/-! ## Responses -/

namespace StatusHead

variable {head : StatusHead}

theorem value_statusLine (h : head.Wf) : Value head.statusLine := by
  rw [statusLine, value_append, value_cons, value_append, value_cons]
  exact ⟨by decide, rfl, value_number _, rfl, h.reason⟩

theorem value_rawLine {field : Bytes × Bytes} (hname : Token field.1) (hvalue : Value field.2) :
    Value (rawLine field) := by
  rw [rawLine, value_append, value_cons]
  exact ⟨value_of_token hname, rfl, hvalue⟩

theorem bytes_eq_lines (head : StatusHead) : head.bytes =
    (head.statusLine :: head.fields.map rawLine).flatMap (· ++ lineEnd) ++ lineEnd := by
  rw [bytes, List.flatMap_cons, List.flatMap_map]

theorem value_lines (h : head.Wf) :
    ∀ line ∈ head.statusLine :: head.fields.map rawLine, line ≠ [] ∧ Value line := by
  intro line hline
  rcases List.mem_cons.mp hline with rfl | hline
  · exact ⟨List.append_ne_nil_of_right_ne_nil _ (List.cons_ne_nil _ _), value_statusLine h⟩
  · obtain ⟨field, hfield, rfl⟩ := List.mem_map.mp hline
    obtain ⟨hname, hvalue⟩ := h.fields field hfield
    exact ⟨List.append_ne_nil_of_right_ne_nil _ (List.cons_ne_nil _ _), value_rawLine hname hvalue⟩

theorem isHead (h : head.Wf) : IsHead head.bytes := by
  rw [bytes_eq_lines]
  refine isHead_lines (fun line hline => ?_) (List.cons_ne_nil _ _)
  obtain ⟨hne, hvalue⟩ := value_lines h line hline
  exact ⟨hne, cr_not_mem_of_valueByte hvalue⟩

end StatusHead

/-! ## A parser -/

/-- The status of a status line. -/
def parseStatusLine (line : Bytes) : Option Nat := do
  let (version, rest) ← cutAt SP line
  let (status, reason) ← cutAt SP rest
  if version = VERSION ∧ Value reason then
    (Text.fromUtf8 status).bind (Text.parseUnsigned 1000)
  else none

def parseStatusHead (bs : Bytes) : Option (Nat × List (Bytes × Bytes)) := do
  let (lines, _) ← headLines [] bs
  let line ← lines.head?
  let status ← parseStatusLine line
  let fields ← lines.tail.mapM parseField
  return (status, fields)

/-- A parser that reads what is well formed and nothing else. -/
def strict : Parser where
  request bs := (parseHead bs).map Prod.fst
  response bs :=
    match parseStatusHead bs with
    | some head => .ok head
    | none => .error "invalid response"

theorem parseStatusLine_statusLine {head : StatusHead} (h : head.Wf) :
    parseStatusLine head.statusLine = some head.status := by
  have hversion : SP ∉ VERSION := by decide
  have hnumber : SP ∉ Text.utf8 (toString head.status) := fun hmem =>
    absurd (digits_number _ _ hmem).1 (by decide)
  unfold parseStatusLine StatusHead.statusLine
  rw [cutAt_append hversion]
  simp only [Option.bind_eq_bind, Option.bind_some]
  rw [cutAt_append hnumber, Option.bind_some, if_pos ⟨trivial, h.reason⟩, Text.fromUtf8_utf8,
    Option.bind_some, parseUnsigned_number h.status.2]

theorem parseField_rawLine {field : Bytes × Bytes} (hname : Token field.1) (hvalue : Value field.2) :
    parseField (StatusHead.rawLine field) = some (field.1, trimBlanks field.2) := by
  have hcolon : COLON ∉ field.1 := fun hmem => not_separator (hname.2 _ hmem) rfl
  rw [parseField, StatusHead.rawLine, cutAt_append hcolon]
  simp only [Option.bind_eq_bind, Option.bind_some]
  rw [if_pos ⟨hname, hvalue⟩]

theorem mapM_parseField_rawLine {fields : List (Bytes × Bytes)}
    (h : ∀ field ∈ fields, Token field.1 ∧ Value field.2) :
    (fields.map StatusHead.rawLine).mapM parseField =
      some (fields.map fun field => (field.1, trimBlanks field.2)) := by
  induction fields with
  | nil => rfl
  | cons field fields ih =>
    obtain ⟨⟨hname, hvalue⟩, hfields⟩ := List.forall_mem_cons.mp h
    rw [List.map_cons, List.mapM_cons, parseField_rawLine hname hvalue, ih hfields]
    rfl

theorem parseStatusHead_bytes {head : StatusHead} (h : head.Wf) :
    parseStatusHead head.bytes = some (head.status, head.values) := by
  have hlines := headLines_lines (StatusHead.value_lines h) []
  rw [List.append_nil, ← StatusHead.bytes_eq_lines] at hlines
  unfold parseStatusHead
  rw [hlines]
  simp only [Option.bind_eq_bind, Option.bind_some, List.head?_cons, List.tail_cons]
  rw [parseStatusLine_statusLine h, Option.bind_some, mapM_parseField_rawLine h.fields]
  rfl

theorem reads_strict (max : Nat) : strict.Reads max where
  request head h _ := by
    have hparse := parseHead_bytes h []
    rw [List.append_nil] at hparse
    show (parseHead head.bytes).map Prod.fst = _
    rw [hparse]
    rfl
  response head h _ := by simp only [strict, parseStatusHead_bytes h]

/-- The length that a writer gives is the one that is read. -/
theorem lengthField_of_find {fields : List (Bytes × Bytes)} {field : Bytes × Bytes} {n : Nat}
    (hn : n < 2 ^ 64)
    (hfind : (fields.find? fun field => field.1.map lowerByte = CONTENT_LENGTH) = some field)
    (hvalue : field.2 = Text.utf8 (toString n)) : lengthField fields = some n := by
  unfold lengthField fieldText
  rw [hfind, Option.bind_some, hvalue, Text.fromUtf8_utf8, Option.bind_some, trim_number,
    parseUnsigned_number hn]

end Http1
