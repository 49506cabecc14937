import RtProxy.Handler.Basic
import RtProxy.Lib.LineReader
import RtProxy.Lib.HttpReply

/-!
The response side of `forward_request` (`http2_transport.rs`).

The head of the origin's response is read line by line and translated.  What follows it
is relayed as it comes, so the client sees the chunks of a body that has some.
-/

namespace RtProxy
namespace Http2

open Http1

/-- What the `http` and the `h2` crate make of the head of a response. -/
structure Crates where
  /-- whether the builder takes the status and the headers -/
  builds : Nat → List (Bytes × Bytes) → Bool
  /-- why `send_response` fails -/
  refuses : Nat → List (Bytes × Bytes) → Option String

inductive Translated
  /-- a head and DATA frames are sent -/
  | sent (status : Nat) (headers : List (Bytes × Bytes)) (data : List Bytes)
  /-- `send_status` -/
  | answered (status : Nat)
  /-- the error of the builder is unwrapped -/
  | panicked
  | failed (e : HandlerError)
deriving Repr, DecidableEq

def BAD_GATEWAY : Nat := 502

/-- Headers that are meaningless over HTTP/2. -/
def CONNECTION_SPECIFIC : List String :=
  ["connection", "transfer-encoding", "keep-alive", "upgrade", "proxy-connection"]

/-- `read_line`. -/
def readText (r : BufReader) : Except HandlerError (String × BufReader) :=
  match Text.fromUtf8 r.readLine.1 with
  | some line => .ok (line, r.readLine.2)
  | none => .error (.io ⟨.invalidData, "stream did not contain valid UTF-8"⟩)

/-- The status in a status line. -/
def statusOf (line : String) : Nat :=
  match (Text.splitWhitespace line)[1]?.bind (Text.parseUnsigned (2 ^ 16)) with
  | some status => if 100 ≤ status ∧ status < 1000 then status else BAD_GATEWAY
  | none => BAD_GATEWAY

/-- What a header adds to the response. -/
def headerOf (header : String) : List (Bytes × Bytes) :=
  match Text.splitOnce header ':' with
  | none => []
  | some (name, value) =>
    let name := Text.toAsciiLowercase (Text.trim name)
    if name ∈ CONNECTION_SPECIFIC then [] else [(Text.utf8 name, Text.utf8 (Text.trim value))]

/-- The headers up to an empty line or the end; there are at most `fuel` lines. -/
def readHeaders : Nat → BufReader → Except HandlerError (List (Bytes × Bytes) × BufReader)
  | 0, r => .ok ([], r)
  | fuel + 1, r => do
    let (line, r) ← readText r
    let header := Text.trimEnd line
    if header = "" then return ([], r)
    let (headers, r) ← readHeaders fuel r
    return (headerOf header ++ headers, r)

/-- The head and the frames that are sent, if the crates accept the head. -/
def respond (crates : Crates) (status : Nat) (headers : List (Bytes × Bytes)) (data : List Bytes) :
    Translated :=
  if crates.builds status headers then
    match crates.refuses status headers with
    | some e => .failed (.proxy s!"h2 response failed: {e}")
    | none => .sent status headers data
  else .panicked

/-- What `forward_request` makes of what the origin sends. -/
def forwardResponse (crates : Crates) (origin : BufReader) : Translated :=
  match readText origin with
  | .error e => .failed e
  | .ok (line, r) =>
    if line = "" then .answered BAD_GATEWAY
    else
      -- every line but the last takes a byte
      match readHeaders (r.content.length + 1) r with
      | .error e => .failed e
      | .ok (headers, r) => respond crates (statusOf line) headers r.rest

/-! ## The specification -/

/-- Whether a field is forwarded. -/
def kept (field : Bytes × Bytes) : Bool :=
  !CONNECTION_SPECIFIC.any fun name => Text.utf8 name = field.1.map lowerByte

/-- The fields that are not the connection's own, as HTTP/2 has them. -/
def endToEnd (head : StatusHead) : List (Bytes × Bytes) :=
  (head.fields.filter kept).map fun field => (field.1.map lowerByte, trimBlanks field.2)

/-- The client is sent the fields and the body of the response. -/
def Relayed (crates : Crates) (origin : BufReader) (reply : Reply) (body : Bytes) : Prop :=
  ∃ status data, forwardResponse crates origin = .sent status (endToEnd reply.head) data ∧
    data.flatten = body

/-- Nothing but blanks is trimmed from the value. -/
def Plain (value : Bytes) : Prop := ∀ s, Text.utf8 s = trimBlanks value → Text.trim s = s

/-- The head is a text, and no white space but blanks is around the values that count. -/
structure Readable (head : StatusHead) : Prop where
  reason : Text.IsText head.reason
  values : ∀ field ∈ head.fields, Text.IsText field.2
  plain : ∀ field ∈ head.fields, kept field = true → Plain field.2

/-- The crates accept the head. -/
def Crates.Takes (crates : Crates) (head : StatusHead) : Prop :=
  crates.builds head.status (endToEnd head) = true ∧
    crates.refuses head.status (endToEnd head) = none

/-! ## Lines -/

/-- What a line that is a text is read as. -/
theorem readText_line {r : BufReader} {line rest : Bytes} (hline : LF ∉ line)
    (hr : r.content = line ++ LF :: rest) {t : String} (ht : Text.utf8 t = line ++ [LF]) :
    ∃ r', readText r = .ok (t, r') ∧ r'.content = rest := by
  obtain ⟨hread, hrest⟩ := BufReader.readLine_of_line hline hr
  have hutf8 : Text.fromUtf8 r.readLine.1 = some t := by
    rw [hread, Text.fromUtf8_eq_some]
    exact ht
  refine ⟨r.readLine.2, ?_, hrest⟩
  unfold readText
  rw [hutf8]

theorem readText_error {r : BufReader} {line rest : Bytes} (hline : LF ∉ line)
    (hr : r.content = line ++ LF :: rest) (ht : ¬ Text.IsText (line ++ [LF])) :
    ∃ e, readText r = .error e := by
  obtain ⟨hread, -⟩ := BufReader.readLine_of_line hline hr
  have hutf8 : Text.fromUtf8 r.readLine.1 = none := by
    rw [hread, Text.fromUtf8_eq_none]
    exact ht
  unfold readText
  rw [hutf8]
  exact ⟨_, rfl⟩

theorem ascii_lineEnd : ∀ b ∈ lineEnd, b < 0x80 := by decide +kernel

theorem lf_not_mem_of_value {bs : Bytes} (h : Value bs) : LF ∉ bs := fun hmem =>
  absurd (h _ hmem) (by decide)

/-- The text of a field's line. -/
theorem text_of_rawLine {field : Bytes × Bytes} (hname : Token field.1) {t : String}
    (ht : Text.utf8 t = StatusHead.rawLine field ++ lineEnd) :
    ∃ l, Text.utf8 (String.ofList l) = field.2 ∧
      t.toList = (Text.ascii field.1).toList ++ ':' :: (l ++ ['\r', '\n']) := by
  have hcolon : Text.utf8 ":" = [COLON] := by decide
  have hfront : Text.utf8 t = Text.utf8 (Text.ascii field.1 ++ ":") ++ field.2 ++ lineEnd := by
    rw [ht, Text.utf8_append, Text.utf8_ascii (ascii_of_token hname), hcolon]
    unfold StatusHead.rawLine
    simp
  obtain ⟨l, hl, hbs⟩ := Text.eq_of_text_append ascii_lineEnd hfront
  have hend : (Text.ascii lineEnd).toList = ['\r', '\n'] := by decide
  refine ⟨l, hbs, ?_⟩
  rw [hl, String.toList_append, String.toList_append, String.toList_append, String.toList_ofList,
    hend]
  simp

theorem isText_rawLine {field : Bytes × Bytes} (hname : Token field.1) :
    Text.IsText (StatusHead.rawLine field ++ lineEnd) ↔ Text.IsText field.2 := by
  have hcolon : Text.utf8 ":" = [COLON] := by decide
  have hfront : StatusHead.rawLine field ++ lineEnd =
      Text.utf8 (Text.ascii field.1 ++ ":") ++ field.2 ++ lineEnd := by
    rw [Text.utf8_append, Text.utf8_ascii (ascii_of_token hname), hcolon]
    unfold StatusHead.rawLine
    simp
  rw [hfront, Text.isText_append ascii_lineEnd]

/-! ## Headers -/

theorem mem_connectionSpecific {name : Bytes} {s : String} (h : Text.utf8 s = name) :
    s ∈ CONNECTION_SPECIFIC ↔ name ∈ CONNECTION_SPECIFIC.map Text.utf8 := by
  rw [List.mem_map]
  constructor
  · exact fun hmem => ⟨s, hmem, h⟩
  · rintro ⟨s', hmem, hs'⟩
    rwa [← Text.utf8_inj (hs'.trans h.symm)]

/-- What a field becomes. -/
def sentField (field : Bytes × Bytes) : Bytes × Bytes :=
  (field.1.map lowerByte, Text.utf8 (Text.trim (Text.fromUtf8Lossy field.2)))

/-- A field's line is no empty line and adds the field. -/
theorem headerOf_line {field : Bytes × Bytes} (hname : Token field.1) {t : String}
    (ht : Text.utf8 t = StatusHead.rawLine field ++ lineEnd) :
    Text.trimEnd t ≠ "" ∧
      headerOf (Text.trimEnd t) = if kept field then [sentField field] else [] := by
  obtain ⟨l, hl, hchars⟩ := text_of_rawLine hname ht
  have hnot : ':' ∉ (Text.ascii field.1).toList := by
    unfold Text.ascii
    rw [String.toList_ofList, List.mem_map]
    rintro ⟨b, hb, hcolon⟩
    exact (tokenByte_facts (hname.2 b hb)).2.1 hcolon
  have htrimName : Text.trim (Text.ascii field.1) = Text.ascii field.1 := by
    have hplain : ∀ c ∈ (Text.ascii field.1).toList, Text.isWhite c = false := by
      unfold Text.ascii
      rw [String.toList_ofList]
      intro c hc
      obtain ⟨b, hb, rfl⟩ := List.mem_map.mp hc
      exact (tokenByte_facts (hname.2 b hb)).1
    rw [Text.trim_eq, Text.trimWhile_eq_self hplain, String.ofList_toList]
  have hwhite : ∀ c ∈ ['\r', '\n'], Text.isWhite c = true :=
    List.all_eq_true.mp (by decide : ['\r', '\n'].all Text.isWhite = true)
  have htrim : (Text.trimEnd t).toList =
      (Text.ascii field.1).toList ++ ':' :: Text.dropEndWhile Text.isWhite l := by
    rw [Text.trimEnd_eq, String.toList_ofList, hchars, Text.dropEndWhile_keep (by decide),
      Text.dropEndWhile_append hwhite]
  have hvalue : Text.trim (String.ofList (Text.dropEndWhile Text.isWhite l)) =
      Text.trim (Text.fromUtf8Lossy field.2) := by
    rw [← hl, Text.fromUtf8Lossy_utf8, Text.trim_eq, Text.trim_eq, String.toList_ofList,
      String.toList_ofList, Text.trimWhile_dropEndWhile]
  constructor
  · intro hempty
    rw [hempty] at htrim
    exact List.append_ne_nil_of_right_ne_nil _ (List.cons_ne_nil _ _) htrim.symm
  · have hlower := toAsciiLowercase_ascii hname
    have hkept : Text.toAsciiLowercase (Text.ascii field.1) ∈ CONNECTION_SPECIFIC ↔
        ¬ kept field = true := by
      rw [mem_connectionSpecific hlower, List.mem_map, kept, Bool.not_eq_true',
        Bool.not_eq_false, List.any_eq_true]
      simp only [decide_eq_true_eq]
    unfold headerOf Text.splitOnce
    rw [htrim, Text.cutFirst_append hnot]
    simp only [Option.map_some, String.ofList_toList]
    rw [htrimName, hvalue, hlower]
    by_cases hk : kept field = true
    · rw [if_neg (by rw [hkept]; exact not_not_intro hk), if_pos hk]
      rfl
    · rw [if_pos (hkept.mpr hk), if_neg hk]

section

variable {r r' : BufReader} {t : String} {fuel : Nat}

theorem readHeaders_error {e : HandlerError} (h : readText r = .error e) :
    readHeaders (fuel + 1) r = .error e := by
  rw [readHeaders, h]
  rfl

theorem readHeaders_empty (h : readText r = .ok (t, r')) (ht : Text.trimEnd t = "") :
    readHeaders (fuel + 1) r = .ok ([], r') := by
  rw [readHeaders, h]
  simp only [bind, Except.bind]
  rw [if_pos ht]
  rfl

theorem readHeaders_line (h : readText r = .ok (t, r')) (ht : Text.trimEnd t ≠ "") :
    readHeaders (fuel + 1) r =
      (readHeaders fuel r').map fun x => (headerOf (Text.trimEnd t) ++ x.1, x.2) := by
  rw [readHeaders, h]
  simp only [bind, Except.bind]
  rw [if_neg ht]
  cases readHeaders fuel r' <;> rfl

end

/-- The fields of a head. -/
def fieldLines (fields : List (Bytes × Bytes)) : Bytes :=
  fields.flatMap fun field => StatusHead.rawLine field ++ lineEnd

theorem length_le_fieldLines (fields : List (Bytes × Bytes)) :
    fields.length ≤ (fieldLines fields).length := by
  unfold fieldLines
  induction fields with
  | nil => exact Nat.zero_le _
  | cons field fields ih =>
    rw [List.flatMap_cons, List.length_append, List.length_append, List.length_cons]
    have hend : lineEnd.length = 2 := rfl
    omega

/-- The headers are read if and only if all the lines are texts. -/
theorem readHeaders_fields {fields : List (Bytes × Bytes)}
    (h : ∀ field ∈ fields, Token field.1 ∧ Value field.2) (fuel : Nat) (hfuel : fields.length < fuel)
    {r : BufReader} {tail : Bytes} (hr : r.content = fieldLines fields ++ lineEnd ++ tail) :
    ((∀ field ∈ fields, Text.IsText field.2) → ∃ r',
      readHeaders fuel r = .ok ((fields.filter kept).map sentField, r') ∧ r'.content = tail) ∧
    ((∃ field ∈ fields, ¬ Text.IsText field.2) → ∃ e, readHeaders fuel r = .error e) := by
  induction fields generalizing fuel r with
  | nil =>
    obtain ⟨fuel, rfl⟩ := Nat.exists_eq_add_of_lt hfuel
    have hline : LF ∉ [CR] := by decide
    have hcrlf : Text.utf8 "\r\n" = [CR] ++ [LF] := by decide
    have hempty : Text.trimEnd "\r\n" = "" := by decide
    obtain ⟨r', hread, hrest⟩ := readText_line hline hr hcrlf
    refine ⟨fun _ => ⟨r', readHeaders_empty hread hempty, hrest⟩, ?_⟩
    rintro ⟨field, hfield, -⟩
    cases hfield
  | cons field fields ih =>
    obtain ⟨⟨hname, hvalue⟩, hfields⟩ := List.forall_mem_cons.mp h
    obtain ⟨fuel, rfl⟩ := Nat.exists_eq_add_of_lt hfuel
    have hline : LF ∉ StatusHead.rawLine field ++ [CR] := by
      unfold StatusHead.rawLine
      rw [List.append_assoc, List.mem_append, List.cons_append, List.mem_cons, List.mem_append,
        not_or, not_or, not_or]
      refine ⟨?_, by decide, lf_not_mem_of_value hvalue, by decide⟩
      exact lf_not_mem_of_value (value_of_token hname)
    have hr' : r.content = (StatusHead.rawLine field ++ [CR]) ++
        LF :: (fieldLines fields ++ lineEnd ++ tail) := by
      rw [hr, fieldLines, List.flatMap_cons, ← fieldLines]
      simp [lineEnd]
    have hbytes : StatusHead.rawLine field ++ lineEnd = StatusHead.rawLine field ++ [CR] ++ [LF] := by
      simp [lineEnd]
    rw [List.length_cons] at hfuel
    by_cases htext : Text.IsText field.2
    · obtain ⟨t, ht⟩ := (isText_rawLine hname).mpr htext
      obtain ⟨hne, hheader⟩ := headerOf_line hname ht
      rw [hbytes] at ht
      obtain ⟨mid, hread, hrest⟩ := readText_line hline hr' ht
      obtain ⟨hok, herr⟩ := ih hfields (fields.length + 1 + fuel) (by omega) hrest
      constructor
      · intro htexts
        obtain ⟨r', hrec, htail⟩ := hok (List.forall_mem_cons.mp htexts).2
        refine ⟨r', ?_, htail⟩
        rw [List.length_cons, readHeaders_line hread hne, hrec, hheader, List.filter_cons]
        show Except.ok (_ ++ _, r') = _
        split_ifs <;> rfl
      · rintro ⟨bad, hbad, hnot⟩
        have hbad' : bad ∈ fields := (List.mem_cons.mp hbad).resolve_left fun heq => by
          rw [heq] at hnot
          exact hnot htext
        obtain ⟨e, he⟩ := herr ⟨bad, hbad', hnot⟩
        rw [List.length_cons, readHeaders_line hread hne, he]
        exact ⟨e, rfl⟩
    · have hnot : ¬ Text.IsText (StatusHead.rawLine field ++ [CR] ++ [LF]) := by
        rw [← hbytes, isText_rawLine hname]
        exact htext
      obtain ⟨e, he⟩ := readText_error hline hr' hnot
      refine ⟨fun htexts => absurd (htexts field List.mem_cons_self) htext, fun _ => ⟨e, ?_⟩⟩
      exact readHeaders_error he

/-! ## The status line -/

/-- What stands before the reason. -/
def statusPrefix (head : StatusHead) : String := "HTTP/1.1 " ++ toString head.status ++ " "

theorem statusLine_eq (head : StatusHead) :
    head.statusLine = Text.utf8 (statusPrefix head) ++ head.reason := by
  have hversion : Text.utf8 "HTTP/1.1 " = VERSION ++ [SP] := by decide
  have hspace : Text.utf8 " " = [SP] := by decide
  unfold StatusHead.statusLine statusPrefix
  rw [Text.utf8_append, Text.utf8_append, hversion, hspace]
  simp

theorem statusOf_statusLine {head : StatusHead} (h : head.Wf) {t : String}
    (ht : Text.utf8 t = head.statusLine ++ lineEnd) : statusOf t = head.status := by
  rw [statusLine_eq] at ht
  obtain ⟨l, hl, -⟩ := Text.eq_of_text_append ascii_lineEnd ht
  obtain ⟨hne, hwhite⟩ := Text.toDigits_word head.status
  have hversion : ∀ c ∈ "HTTP/1.1".toList, Text.isWhite c = false := by
    have hall : ("HTTP/1.1".toList.all fun c => !Text.isWhite c) = true := by decide
    intro c hc
    simpa using List.all_eq_true.mp hall c hc
  have hchars : t = String.ofList ("HTTP/1.1".toList ++ ' ' :: (Nat.toDigits 10 head.status ++
      ' ' :: (l ++ (Text.ascii lineEnd).toList))) := by
    have hdigits : (toString head.status).toList = Nat.toDigits 10 head.status :=
      String.toList_ofList
    rw [← String.toList_inj, hl, String.toList_ofList, ← hdigits]
    unfold statusPrefix
    simp
  obtain ⟨more, hwords⟩ := Text.splitWhitespace_words (by decide) hne hversion hwhite
    (l ++ (Text.ascii lineEnd).toList)
  have hlt : head.status < 2 ^ 16 := Nat.lt_trans h.status.2 (by decide)
  have hsecond (a b : String) : (a :: b :: more)[1]? = some b := rfl
  unfold statusOf
  rw [hchars, hwords, hsecond, Option.bind_some, Text.parseUnsigned_toDigits hlt]
  simp only
  rw [if_pos h.status]

/-! ## A head, and what follows it -/

/-- All that is read of a head is a text. -/
def AllText (head : StatusHead) : Prop :=
  Text.IsText head.reason ∧ ∀ field ∈ head.fields, Text.IsText field.2

/-- The headers that are sent. -/
def sentHeaders (head : StatusHead) : List (Bytes × Bytes) :=
  (head.fields.filter kept).map sentField

theorem forwardResponse_head {head : StatusHead} (h : head.Wf) (crates : Crates) {r : BufReader}
    {tail : Bytes} (hr : r.content = head.bytes ++ tail) :
    (AllText head → ∃ r' : BufReader, r'.content = tail ∧
      forwardResponse crates r = respond crates head.status (sentHeaders head) r'.rest) ∧
    (¬ AllText head → ∃ e, forwardResponse crates r = .failed e) := by
  have hline : LF ∉ head.statusLine ++ [CR] := by
    have hfront : LF ∉ Text.utf8 (statusPrefix head) := by
      have hdigits : (toString head.status).toList = Nat.toDigits 10 head.status :=
        String.toList_ofList
      have hnot : '\n' ∉ Nat.toDigits 10 head.status := fun hmem =>
        absurd ((Text.toDigits_word head.status).2 _ hmem) (by decide)
      rw [Text.mem_utf8 (by decide)]
      unfold statusPrefix
      rw [String.toList_append, String.toList_append, hdigits, List.mem_append, List.mem_append,
        not_or, not_or]
      exact ⟨⟨by decide, hnot⟩, by decide⟩
    rw [statusLine_eq, List.mem_append, List.mem_append, not_or, not_or]
    exact ⟨⟨hfront, lf_not_mem_of_value h.reason⟩, by decide⟩
  have hr' : r.content = head.statusLine ++ [CR] ++
      LF :: (fieldLines head.fields ++ lineEnd ++ tail) := by
    rw [hr, StatusHead.bytes, fieldLines]
    simp [lineEnd]
  have hbytes : head.statusLine ++ lineEnd = head.statusLine ++ [CR] ++ [LF] := by
    simp [lineEnd]
  have htext : Text.IsText (head.statusLine ++ lineEnd) ↔ Text.IsText head.reason := by
    rw [statusLine_eq, Text.isText_append ascii_lineEnd]
  by_cases hreason : Text.IsText head.reason
  · obtain ⟨t, ht⟩ := htext.mpr hreason
    have hstatus := statusOf_statusLine h ht
    have hne : t ≠ "" := by
      rintro rfl
      exact List.append_ne_nil_of_right_ne_nil _ (List.cons_ne_nil _ _) ht.symm
    rw [hbytes] at ht
    obtain ⟨mid, hread, hrest⟩ := readText_line hline hr' ht
    have hfuel : head.fields.length < mid.content.length + 1 := by
      have hlen := length_le_fieldLines head.fields
      rw [hrest, List.length_append, List.length_append]
      omega
    obtain ⟨hok, herr⟩ := readHeaders_fields h.fields _ hfuel hrest
    unfold forwardResponse
    rw [hread]
    dsimp only
    rw [if_neg hne]
    constructor
    · rintro ⟨-, hfields⟩
      obtain ⟨r', hheaders, htail⟩ := hok hfields
      refine ⟨r', htail, ?_⟩
      rw [hheaders, hstatus]
      rfl
    · intro hnot
      obtain ⟨e, he⟩ := herr (by
        by_contra hall
        push Not at hall
        exact hnot ⟨hreason, hall⟩)
      rw [he]
      exact ⟨e, rfl⟩
  · have hnot : ¬ Text.IsText (head.statusLine ++ [CR] ++ [LF]) := by
      rw [← hbytes, htext]
      exact hreason
    obtain ⟨e, he⟩ := readText_error hline hr' hnot
    refine ⟨fun hall => absurd hall.1 hreason, fun _ => ⟨e, ?_⟩⟩
    unfold forwardResponse
    rw [he]

/-! ## The values -/

theorem white_of_blankChar {c : Char} (h : blankChar c = true) : Text.isWhite c = true := by
  rw [blankChar, Bool.or_eq_true, decide_eq_true_eq, decide_eq_true_eq] at h
  rcases h with rfl | rfl <;> decide

/-- A value is sent as it is if and only if nothing but blanks is trimmed from it. -/
theorem sentField_eq_iff {field : Bytes × Bytes} (h : Text.IsText field.2) :
    sentField field = (field.1.map lowerByte, trimBlanks field.2) ↔ Plain field.2 := by
  obtain ⟨s, hs⟩ := h
  rw [← String.ofList_toList (s := s)] at hs
  have htrim : Text.trimWhile Text.isWhite (Text.trimWhile blankChar s.toList) =
      Text.trimWhile Text.isWhite s.toList :=
    Text.trimWhile_trimWhile (fun c => white_of_blankChar) _
  have hplain : Plain field.2 ↔ Text.trimWhile Text.isWhite s.toList =
      Text.trimWhile blankChar s.toList := by
    unfold Plain
    rw [← hs, trimBlanks_utf8]
    constructor
    · intro hall
      have heq := hall _ rfl
      rw [Text.trim_eq, String.toList_ofList, htrim, ← String.toList_inj, String.toList_ofList,
        String.toList_ofList] at heq
      exact heq
    · intro heq u hu
      rw [Text.utf8_inj hu, Text.trim_eq, String.toList_ofList, htrim, heq]
  unfold sentField
  rw [hplain, ← hs, Text.fromUtf8Lossy_utf8, trimBlanks_utf8, Text.trim_eq, String.toList_ofList,
    Prod.mk.injEq]
  constructor
  · intro heq
    have hlists := congrArg String.toList (Text.utf8_inj heq.2)
    rwa [String.toList_ofList, String.toList_ofList] at hlists
  · intro heq
    exact ⟨rfl, by rw [heq]⟩

theorem sentHeaders_eq_iff {head : StatusHead} (h : ∀ field ∈ head.fields, Text.IsText field.2) :
    sentHeaders head = endToEnd head ↔
      ∀ field ∈ head.fields, kept field = true → Plain field.2 := by
  unfold sentHeaders endToEnd
  rw [List.map_inj_left]
  refine forall_congr' fun field => ?_
  rw [List.mem_filter, and_imp]
  refine forall_congr' fun hfield => forall_congr' fun _ => ?_
  exact sentField_eq_iff (h field hfield)

theorem respond_eq_sent {crates : Crates} {status status' : Nat}
    {headers headers' : List (Bytes × Bytes)} {data data' : List Bytes} :
    respond crates status headers data = .sent status' headers' data' ↔
      (crates.builds status headers = true ∧ crates.refuses status headers = none) ∧
        status = status' ∧ headers = headers' ∧ data = data' := by
  unfold respond
  by_cases hb : crates.builds status headers = true
  · rw [if_pos hb]
    cases hr : crates.refuses status headers with
    | some e => simp
    | none => simp [hb]
  · rw [if_neg hb]
    simp [hb]

/-! ## Responses -/

/-- A head that is relayed, with all the bytes behind it. -/
theorem relayed_head {head : StatusHead} (h : head.Wf) (crates : Crates) {r : BufReader}
    {tail body : Bytes} (hr : r.content = head.bytes ++ tail) (headers : List (Bytes × Bytes)) :
    (∃ status data, forwardResponse crates r = .sent status headers data ∧ data.flatten = body) ↔
      AllText head ∧ (crates.builds head.status (sentHeaders head) = true ∧
        crates.refuses head.status (sentHeaders head) = none) ∧ sentHeaders head = headers ∧
        tail = body := by
  obtain ⟨hsent, hfailed⟩ := forwardResponse_head h crates hr
  by_cases htext : AllText head
  · obtain ⟨r', hrest, hrun⟩ := hsent htext
    have hdata : r'.rest.flatten = tail := (BufReader.flatten_rest r').trans hrest
    rw [hrun]
    constructor
    · rintro ⟨status, data, hresp, rfl⟩
      obtain ⟨htakes, -, hheaders, rfl⟩ := respond_eq_sent.mp hresp
      exact ⟨htext, htakes, hheaders, hdata.symm⟩
    · rintro ⟨-, htakes, hheaders, rfl⟩
      exact ⟨head.status, _, respond_eq_sent.mpr ⟨htakes, rfl, hheaders, rfl⟩, hdata⟩
  · obtain ⟨e, he⟩ := hfailed htext
    refine iff_of_false ?_ fun hall => htext hall.1
    rintro ⟨status, data, hresp, -⟩
    rw [he] at hresp
    cases hresp

/-- The client is sent the fields and the body of a response if and only if the body is
not chunked, no interim response comes before, the head is readable and the crates accept
it. -/
theorem forward_response_body (crates : Crates) {reply : Reply} (hreply : reply.Wf) {toHead : Bool}
    {length : BodyLength} {body : Bytes} (hframed : reply.Framed toHead length body)
    {reads : List Piece} (hreads : BufReader.bytes reads = reply.bytes) :
    Relayed crates (.new reads) reply body ↔
      length ≠ .chunked ∧ reply.interim = [] ∧ Readable reply.head ∧ crates.Takes reply.head := by
  have hcontent : (BufReader.new reads).content = reply.bytes :=
    (BufReader.content_new reads).trans hreads
  unfold Relayed
  cases hinterim : reply.interim with
  | nil =>
    have hr : (BufReader.new reads).content = reply.head.bytes ++ reply.tail := by
      rw [hcontent, Reply.bytes, hinterim]
      rfl
    rw [relayed_head hreply.head crates hr, hframed.tail_eq]
    constructor
    · rintro ⟨⟨hreason, hvalues⟩, htakes, hheaders, hlength⟩
      rw [hheaders] at htakes
      exact ⟨hlength, rfl, ⟨hreason, hvalues, (sentHeaders_eq_iff hvalues).mp hheaders⟩, htakes⟩
    · rintro ⟨hlength, -, hreadable, htakes⟩
      have hheaders := (sentHeaders_eq_iff hreadable.values).mpr hreadable.plain
      refine ⟨⟨hreadable.reason, hreadable.values⟩, ?_, hheaders, hlength⟩
      rw [hheaders]
      exact htakes
  | cons first more =>
    have hr : (BufReader.new reads).content =
        first.bytes ++ (more.flatMap StatusHead.bytes ++ reply.head.bytes ++ reply.tail) := by
      rw [hcontent, Reply.bytes, hinterim, List.flatMap_cons, List.append_assoc, List.append_assoc,
        List.append_assoc]
    have hfirst := hreply.interim first (by rw [hinterim]; exact List.mem_cons_self)
    rw [relayed_head hfirst.1 crates hr]
    refine iff_of_false ?_ fun hall => List.cons_ne_nil _ _ hall.2.1
    rintro ⟨-, -, -, htail⟩
    -- the final head would be part of the body
    have hlen := congrArg List.length htail
    have hle := hframed.length_le
    have hhead : 0 < reply.head.bytes.length := by
      unfold StatusHead.bytes
      rw [List.length_append]
      have hend : lineEnd.length = 2 := rfl
      omega
    rw [List.length_append, List.length_append] at hlen
    omega

/-! Two responses of the bytes `hi`. -/

/-- Crates that accept everything. -/
def accepting : Crates := { builds := fun _ _ => true, refuses := fun _ _ => none }

def plainReply : Reply :=
  { interim := []
    head := ⟨200, Text.utf8 "OK", [(Text.utf8 "Content-Length", Text.utf8 " 2")]⟩
    tail := Text.utf8 "hi" }

def chunkedReply : Reply :=
  { interim := []
    head := ⟨200, Text.utf8 "OK", [(Text.utf8 "Transfer-Encoding", Text.utf8 " chunked")]⟩
    tail := Text.utf8 "2\r\nhi\r\n0\r\n\r\n" }

/-- A response that comes in one piece. -/
def onePiece (reply : Reply) : List Piece := if h : reply.bytes = [] then [] else [⟨reply.bytes, h⟩]

theorem bytes_onePiece (reply : Reply) : BufReader.bytes (onePiece reply) = reply.bytes := by
  unfold onePiece
  split_ifs with h
  · exact h.symm
  · exact List.append_nil _

theorem wf_of_oneField {status : Nat} {reason tail : Bytes} {field : Bytes × Bytes}
    (hstatus : 200 ≤ status ∧ status < 1000) (hreason : Value reason)
    (hfield : Token field.1 ∧ Value field.2) : Reply.Wf ⟨[], ⟨status, reason, [field]⟩, tail⟩ where
  interim := List.forall_mem_nil _
  head :=
    { status := ⟨Nat.le_trans (by decide) hstatus.1, hstatus.2⟩
      reason := hreason
      fields := List.forall_mem_singleton.mpr hfield }
  final := hstatus.1

/-- The body that has a length is relayed. -/
theorem forward_response_body_plain :
    Relayed accepting (.new (onePiece plainReply)) plainReply (Text.utf8 "hi") := by
  have hwf : plainReply.Wf := wf_of_oneField (by decide) (by decide) (by decide)
  have hframed : plainReply.Framed false (.exactly 2) (Text.utf8 "hi") :=
    ⟨by decide, by decide⟩
  have hvalue : trimBlanks (Text.utf8 " 2") = Text.utf8 "2" := by decide
  have hreadable : Readable plainReply.head := by
    refine ⟨⟨"OK", rfl⟩, List.forall_mem_singleton.mpr ⟨" 2", rfl⟩,
      List.forall_mem_singleton.mpr fun _ s hs => ?_⟩
    rw [Text.utf8_inj (hs.trans hvalue)]
    decide
  exact (forward_response_body accepting hwf hframed (bytes_onePiece plainReply)).mpr
    ⟨nofun, rfl, hreadable, rfl, rfl⟩

/-- The client of a chunked one is sent the chunks, and not told that they are chunks. -/
theorem forward_response_body_chunked :
    chunkedReply.Wf ∧ chunkedReply.Framed false .chunked (Text.utf8 "hi") ∧
      forwardResponse accepting (.new (onePiece chunkedReply)) =
        .sent 200 [] [Text.utf8 "2\r\nhi\r\n0\r\n\r\n"] ∧
      ¬ Relayed accepting (.new (onePiece chunkedReply)) chunkedReply (Text.utf8 "hi") := by
  have hrun : forwardResponse accepting (.new (onePiece chunkedReply)) =
      .sent 200 [] [Text.utf8 "2\r\nhi\r\n0\r\n\r\n"] := by
    decide
  refine ⟨wf_of_oneField (by decide) (by decide) (by decide),
    ⟨by decide, by decide⟩, hrun, ?_⟩
  rintro ⟨status, data, hsent, hdata⟩
  rw [hrun] at hsent
  cases hsent
  exact absurd hdata (by decide)

end Http2
end RtProxy
