import RtProxy.Chain.ConnectClients

/-!
What the clients of CONNECT and of the upgrade make of the same response.

A head ends with an empty line, so every client comes to an end in it.  The one that reads
line by line stops at the first line of white space and keeps what it has read ahead.
-/

namespace RtProxy

open ByteStream AsyncRead Http1

/-- What a server sends: a head, and the bytes behind it. -/
structure Answers (src : Inbound IoError) (head payload : Bytes) : Prop where
  content : src.content = head ++ payload
  isHead : IsHead head
  size : head.length ≤ MEDIUM_BUFFER_SIZE + 1
  unfailing : ∀ e, .error e ∉ src.arrivals

def statusLine (head : Bytes) : String := Text.fromUtf8Lossy (Text.cutLine head).1

/-- The second word of the status line. -/
def statusToken (head : Bytes) : Option String := (Text.splitWhitespace (statusLine head))[1]?

/-- A client accepts exactly this code, and then hands on exactly the bytes behind the head. -/
def Faithful {ε σ : Type} [AsyncRead σ IoError] (code : String) (head payload : Bytes)
    (r : Option (Except ε Unit) × σ × Outbound IoError) : Prop :=
  (r.1 = some (.ok ()) ↔ statusToken head = some code) ∧
    (r.1 = some (.ok ()) → content r.2.1 = payload)

/-- How many bytes there are up to the end of the first line of white space, if all lines up
to it are texts.  `line` is what has been seen of a line. -/
def blankEnd (line : Bytes) : Bytes → Option Nat
  | [] => none
  | b :: bs =>
    if b = LF then
      match Text.fromUtf8 (line ++ [LF]) with
      | none => none
      | some text => if Text.trim text = "" then some 1 else (blankEnd [] bs).map (· + 1)
    else (blankEnd (line ++ [b]) bs).map (· + 1)

/-- How many bytes a client that reads lines takes for the head. -/
def headerEnd (head : Bytes) : Option Nat :=
  if (Text.fromUtf8 (Text.cutLine head).1).isSome then
    (blankEnd [] (Text.cutLine head).2).map ((Text.cutLine head).1.length + ·)
  else none

/-- The response on which `HttpConnector` does the same as `http_connect`: an accepted head is
a text, and the reads that bring the lines up to the empty one bring exactly the head; a refused
one has no `200` in its first line, or some of its lines is no text. -/
def ConnectorAgrees (src : Inbound IoError) (head : Bytes) : Prop :=
  if statusToken head = some "200" then
    ∃ n, headerEnd head = some n ∧ (pull DEFAULT_BUF_SIZE n src).1.length = head.length
  else Text.hasSub (statusLine head) "200" = false ∨ headerEnd head = none

/-- The response on which `ohttp_connect` goes by the token. -/
def OhttpAgrees (head : Bytes) : Prop :=
  (head.length ≤ 8192 ∧ Text.hasSub (Text.fromUtf8Lossy head) " 101 " = true) ↔
    statusToken head = some "101"

/-! ## Calls on a connection -/

section

variable {ε ε' α β σ τ : Type} {err : ε → ε'} {put : τ → σ} {t : τ}
  {f : α → σ → Option (Except ε' β) × σ}

@[simp] theorem andThen_onPart_ok (a : α) :
    andThen (onPart err put (some (.ok a), t)) f = f a (put t) := rfl

@[simp] theorem andThen_onPart_error (e : ε) :
    andThen (onPart err put (some (.error e), t)) f = (some (.error (err e)), put t) := rfl

end

/-! ## The head -/

section

variable {head payload line rest first : Bytes} {lines : List Bytes}

theorem cutLine_first (h : LF ∉ first) (rest : Bytes) :
    Text.cutLine (first ++ LF :: rest) = (first ++ [LF], rest) := by
  rw [Text.cutLine_append_of_not_mem h, Text.cutLine, if_pos (show LF = 0x0A from rfl)]

/-- Every line takes a byte. -/
theorem length_le_lines (lines : List Bytes) :
    lines.length ≤ (lines.flatMap (· ++ [LF])).length := by
  induction lines with
  | nil => simp
  | cons line lines ih =>
    simp only [List.flatMap_cons, List.length_append, List.length_cons]
    omega

theorem blankEnd_line (h : LF ∉ line) (seen rest : Bytes) :
    blankEnd seen (line ++ LF :: rest) =
      match Text.fromUtf8 (seen ++ line ++ [LF]) with
      | none => none
      | some text =>
        if Text.trim text = "" then some (line.length + 1)
        else (blankEnd [] rest).map (line.length + 1 + ·) := by
  induction line generalizing seen with
  | nil =>
    rw [List.nil_append, blankEnd, if_pos rfl, List.append_nil]
    cases Text.fromUtf8 (seen ++ [LF]) with
    | none => rfl
    | some text => simp [Nat.add_comm]
  | cons b line ih =>
    rw [List.mem_cons, not_or] at h
    rw [List.cons_append, blankEnd, if_neg (Ne.symm h.1), ih h.2]
    simp only [List.append_assoc, List.cons_append, List.nil_append]
    cases Text.fromUtf8 (seen ++ b :: (line ++ [LF])) with
    | none => rfl
    | some text =>
      simp only
      split_ifs
      · rfl
      · rw [Option.map_map]
        congr 1
        funext k
        simp only [Function.comp, List.length_cons]
        omega

theorem blankEnd_le {seen bs : Bytes} {n : Nat} (h : blankEnd seen bs = some n) :
    n ≤ bs.length := by
  induction bs generalizing seen n with
  | nil => cases h
  | cons b bs ih =>
    rw [blankEnd] at h
    have hmap {seen : Bytes} (h : (blankEnd seen bs).map (· + 1) = some n) :
        n ≤ (b :: bs).length := by
      obtain ⟨k, hk, rfl⟩ := Option.map_eq_some_iff.mp h
      exact Nat.succ_le_succ (ih hk)
    by_cases hb : b = LF
    · rw [if_pos hb] at h
      cases htext : Text.fromUtf8 (seen ++ [LF]) with
      | none =>
        rw [htext] at h
        cases h
      | some text =>
        rw [htext] at h
        simp only at h
        split_ifs at h
        · cases h
          simp
        · exact hmap h
    · rw [if_neg hb] at h
      exact hmap h

theorem headerEnd_le {n : Nat} (h : headerEnd head = some n) : n ≤ head.length := by
  unfold headerEnd at h
  split_ifs at h
  obtain ⟨k, hk, rfl⟩ := Option.map_eq_some_iff.mp h
  have hle := blankEnd_le hk
  have hlen := congrArg List.length (Text.cutLine_eq_append head)
  rw [List.length_append] at hlen
  omega

theorem readText_after {src : Inbound IoError} (hunfailing : ∀ e, ¬ fails src e)
    (hline : LF ∉ line) {pre : Bytes} (hcontent : content src = pre ++ (line ++ LF :: rest)) :
    HttpConnector.readText (.after pre.length src) =
      match Text.fromUtf8 (line ++ [LF]) with
      | some text => (some (.ok text), .after (pre.length + (line.length + 1)) src)
      | none => (some (.error ⟨.invalidData, "stream did not contain valid UTF-8"⟩),
          .after (pre.length + (line.length + 1)) src) := by
  rw [HttpConnector.readText, LineReader.readLine_after hline hcontent hunfailing]
  rfl

/-- The lines that are skipped are those up to the first line of white space. -/
theorem skipHeaders_spec {src : Inbound IoError} (hunfailing : ∀ e, ¬ fails src e)
    (hlines : ∀ line ∈ lines, LF ∉ line) {pre : Bytes}
    (hcontent : content src = pre ++ (lines.flatMap (· ++ [LF]) ++ lineEnd ++ payload))
    {fuel : Nat} (hfuel : lines.length < fuel) :
    match blankEnd [] (lines.flatMap (· ++ [LF]) ++ lineEnd) with
    | some n => HttpConnector.skipHeaders fuel (.after pre.length src) =
        (some (.ok ()), .after (pre.length + n) src)
    | none => ∃ e reader,
        HttpConnector.skipHeaders fuel (.after pre.length src) = (some (.error e), reader) := by
  induction lines generalizing pre fuel with
  | nil =>
    obtain ⟨fuel, rfl⟩ := Nat.exists_eq_succ_of_ne_zero (Nat.ne_of_gt hfuel)
    have hempty : LF ∉ [CR] := by decide
    have hcontent' : content src = pre ++ ([CR] ++ LF :: payload) := hcontent
    have hread := readText_after hunfailing hempty hcontent'
    have htext : Text.fromUtf8 ([CR] ++ [LF]) = some "\r\n" := by decide
    have hblank : Text.trim "\r\n" = "" := by decide
    have hend : blankEnd [] (([] : List Bytes).flatMap (· ++ [LF]) ++ lineEnd) = some 2 := by decide
    rw [htext] at hread
    rw [hend, HttpConnector.skipHeaders, hread]
    simp only [andThen]
    rw [if_pos hblank]
    rfl
  | cons line lines ih =>
    obtain ⟨fuel, rfl⟩ := Nat.exists_eq_succ_of_ne_zero (Nat.ne_zero_of_lt hfuel)
    obtain ⟨hline, hlines⟩ := List.forall_mem_cons.mp hlines
    have hsplit : (line :: lines).flatMap (· ++ [LF]) ++ lineEnd =
        line ++ LF :: (lines.flatMap (· ++ [LF]) ++ lineEnd) := by simp
    have hcontent' : content src =
        pre ++ (line ++ LF :: (lines.flatMap (· ++ [LF]) ++ lineEnd ++ payload)) := by
      simpa using hcontent
    have hread := readText_after hunfailing hline hcontent'
    rw [hsplit, blankEnd_line hline, List.nil_append, HttpConnector.skipHeaders, hread]
    cases htext : Text.fromUtf8 (line ++ [LF]) with
    | none => exact ⟨_, _, rfl⟩
    | some text =>
      simp only [andThen]
      by_cases hblank : Text.trim text = ""
      · rw [if_pos hblank, if_pos hblank]
      · rw [if_neg hblank, if_neg hblank]
        have hbehind : content src = (pre ++ (line ++ [LF])) ++
            (lines.flatMap (· ++ [LF]) ++ lineEnd ++ payload) := by
          simpa using hcontent'
        have hmore := ih hlines hbehind (Nat.succ_lt_succ_iff.mp hfuel)
        have hpre : (pre ++ (line ++ [LF])).length = pre.length + (line.length + 1) := by simp
        rw [hpre] at hmore
        revert hmore
        cases blankEnd [] (lines.flatMap (· ++ [LF]) ++ lineEnd) with
        | none => exact id
        | some n =>
          simp only [Option.map_some, ← Nat.add_assoc]
          exact id

end

/-! ## `HttpConnector` -/

section

variable {src : Inbound IoError} {head payload : Bytes}

/-- The response is accepted if its first line has the number somewhere and the lines up to the
empty one are texts. -/
theorem readResponse_spec (h : Answers src head payload) :
    (∃ n, headerEnd head = some n ∧ Text.hasSub (statusLine head) "200" = true ∧
        HttpConnector.readResponse (.new src) = (some (.ok ()), .after n src)) ∨
      (Text.hasSub (statusLine head) "200" = false ∨ headerEnd head = none) ∧
        ∃ e reader, HttpConnector.readResponse (.new src) = (some (.error e), reader) := by
  obtain ⟨first, lines, hfirst, hlines, rfl⟩ := h.isHead.exists_lines
  have hcontent : content src =
      [] ++ (first ++ LF :: (lines.flatMap (· ++ [LF]) ++ lineEnd ++ payload)) := by
    show src.content = _
    rw [h.content]
    simp
  have hcontent' : content src =
      (first ++ [LF]) ++ (lines.flatMap (· ++ [LF]) ++ lineEnd ++ payload) := by
    rw [hcontent]
    simp
  have hread := readText_after h.unfailing hfirst hcontent
  unfold HttpConnector.readResponse headerEnd statusLine
  rw [LineReader.new_eq_after, cutLine_first hfirst]
  rw [show ([] : Bytes).length = 0 from rfl] at hread
  rw [hread]
  simp only
  cases htext : Text.fromUtf8 (first ++ [LF]) with
  | none => exact .inr ⟨.inr rfl, _, _, rfl⟩
  | some text =>
    have hlossy : Text.fromUtf8Lossy (first ++ [LF]) = text := by
      rw [← Text.utf8_of_fromUtf8 htext, Text.fromUtf8Lossy_utf8]
    rw [hlossy]
    simp only [andThen_onPart_ok, Option.isSome_some, if_true, id]
    by_cases hsub : Text.hasSub text "200" = false
    · rw [if_pos hsub]
      exact .inr ⟨.inl hsub, _, _, rfl⟩
    · rw [if_neg hsub]
      have hk : 0 + (first.length + 1) = (first ++ [LF]).length := by simp
      have hrest : (LineReader.after (first ++ [LF]).length src).content =
          lines.flatMap (· ++ [LF]) ++ lineEnd ++ payload := by
        rw [LineReader.content_after (by simp [hcontent']) h.unfailing, hcontent', List.drop_left]
      have hfuel : lines.length <
          (LineReader.after (first ++ [LF]).length src).content.length + 1 := by
        have hlen := length_le_lines lines
        rw [hrest]
        simp only [List.length_append]
        omega
      have hskip := skipHeaders_spec h.unfailing hlines hcontent' hfuel
      rw [hk]
      revert hskip
      cases hend : blankEnd [] (lines.flatMap (· ++ [LF]) ++ lineEnd) with
      | none =>
        intro ⟨e, reader, hskip⟩
        rw [hskip]
        exact .inr ⟨.inr rfl, _, _, rfl⟩
      | some n =>
        intro hskip
        rw [hskip]
        exact .inl ⟨_, rfl, Bool.of_not_eq_false hsub, rfl⟩

/-- The bytes behind the head are left exactly if the reads that were made bring the head. -/
theorem content_pull_eq (h : Answers src head payload) {n : Nat} (hn : n ≤ head.length) :
    content (pull DEFAULT_BUF_SIZE n src).2 = payload ↔
      (pull DEFAULT_BUF_SIZE n src).1.length = head.length := by
  have hall : content src = head ++ payload := h.content
  have hcap : 0 < DEFAULT_BUF_SIZE := by decide
  have hle : n ≤ (content src).length := by
    rw [hall, List.length_append]
    omega
  obtain ⟨hreads, -⟩ := pull_spec hcap hle h.unfailing
  have hsplit := hall.symm.trans hreads.content
  constructor
  · intro hrest
    rw [hrest] at hsplit
    rw [← List.append_cancel_right hsplit]
  · intro hlen
    exact (List.append_inj hsplit hlen.symm).2.symm

end

/-! ## `read_head` -/

section

variable {σ : Type} [AsyncRead σ IoError] [AsyncRead.Lawful σ IoError] {head payload acc : Bytes}

theorem isSuffixOf_headEnd (h : IsHead head) (hacc : acc <+: head ++ payload)
    (hlen : acc.length ≤ head.length) :
    HEAD_END.isSuffixOf acc = true ↔ acc.length = head.length := by
  obtain ⟨n, hn, hat, hbefore⟩ := h
  have hfour : HEAD_END.length = 4 := rfl
  have hfront : head <+: head ++ payload := List.prefix_append _ _
  rw [List.isSuffixOf_iff_suffix]
  constructor
  · intro ⟨x, hx⟩
    have hxlen := congrArg List.length hx
    rw [List.length_append] at hxlen
    have hatx : Bytes.At acc x.length HEAD_END := by
      rw [← hx]
      exact ⟨[], by rw [List.append_nil, List.drop_left]⟩
    by_contra hne
    refine hbefore x.length (by omega) (at_front hfront (at_of_front hacc (by decide) hatx) ?_)
    omega
  · intro heq
    have hsame : acc = head := (List.prefix_of_prefix_length_le hacc hfront hlen).eq_of_length heq
    rw [hsame]
    have hdrop : HEAD_END = head.drop n :=
      hat.eq_of_length (by rw [List.length_drop]; omega)
    rw [hdrop]
    exact List.drop_suffix n head

/-- A head is read byte by byte, unless it is too long. -/
theorem readHeadLoop_spec (h : IsHead head) (hsize : acc.length ≤ 8192) {s : σ}
    (hall : acc ++ content s = head ++ payload) (hacc : acc.length ≤ head.length)
    (hunfailing : ∀ e, ¬ fails s e) :
    (head.length ≤ 8192 → ∃ s', readHeadLoop acc s =
        (some (.ok (Text.fromUtf8Lossy head)), s') ∧ content s' = payload) ∧
      (8192 < head.length → ∃ e s', readHeadLoop acc s = (some (.error e), s')) := by
  induction hn : 8193 - acc.length using Nat.strong_induction_on generalizing acc s with
  | _ n ih =>
    subst hn
    have hpre : acc <+: head ++ payload := ⟨_, hall⟩
    have hsuffix := isSuffixOf_headEnd h hpre hacc
    rw [readHeadLoop]
    by_cases hwhole : acc.length = head.length
    · rw [if_pos (hsuffix.mpr hwhole)]
      obtain ⟨rfl, hrest⟩ := List.append_inj hall hwhole
      exact ⟨fun _ => ⟨s, rfl, hrest⟩, fun hlong => absurd hlong (by omega)⟩
    · rw [if_neg (mt hsuffix.mp hwhole)]
      have hmore : content s ≠ [] := by
        intro hnil
        have hlen := congrArg List.length hall
        simp [hnil] at hlen
        omega
      obtain ⟨b, bs, s', hread, hreads, hle⟩ := exists_read Nat.one_pos hmore hunfailing
      have hnil : bs = [] := List.length_eq_zero_iff.mp (Nat.lt_one_iff.mp hle)
      have hall' : acc ++ [b] ++ content s' = head ++ payload := by
        rw [← hall, hreads.content, hnil, List.append_assoc]
      rw [hread]
      simp only [List.length_append, List.length_singleton]
      by_cases hlong : 8192 < acc.length + 1
      · rw [if_pos hlong]
        exact ⟨fun hshort => absurd hshort (by omega), fun _ => ⟨_, _, rfl⟩⟩
      · rw [if_neg hlong]
        have hlen : (acc ++ [b]).length = acc.length + 1 := by simp
        exact ih _ (by omega) (by omega) hall' (by omega)
          (fun e he => hunfailing e (hreads.fails e he)) rfl

end

/-! ## The clients -/

/-- The request is written. -/
structure Takes (dst : Outbound IoError) (request : Bytes) : Prop where
  written : (writeAll request dst).1 = some (.ok ())
  flushed : (flushAll (writeAll request dst).2).1 = some (.ok ())

section

variable {base64 : Bytes → String} {key : Bytes} {dst : Outbound IoError} {target : String}
  {user : Option (String × Option String)} {head payload : Bytes}

theorem Takes.exists_written {request : Bytes} (h : Takes dst request) :
    ∃ dst', writeAll request dst = (some (.ok ()), dst') ∧
      ∃ dst'', flushAll dst' = (some (.ok ()), dst'') := by
  obtain ⟨hwritten, hflushed⟩ := h
  revert hwritten hflushed
  rcases writeAll request dst with ⟨out, dst'⟩
  intro hwritten hflushed
  exact ⟨dst', Prod.ext hwritten rfl, _, Prod.ext hflushed rfl⟩

/-- `http_connect` goes by the second word, and loses nothing. -/
theorem faithful_httpConnect {src : Inbound IoError} (h : Answers src head payload)
    (htakes : Takes dst (httpConnectRequest base64 target user)) :
    Faithful "200" head payload (httpConnect base64 (.new src) dst target user) := by
  obtain ⟨dst', hwrite, -⟩ := htakes.exists_written
  have hcontent : (ProxyConn.new src).content = head ++ payload := h.content
  obtain ⟨stream, hread, hrest⟩ :=
    readResponseHead_complete h.isHead hcontent h.size h.unfailing
  obtain ⟨first, lines, hfirst, -, hhead⟩ := h.isHead.exists_lines
  have hwords : Text.splitWhitespace (Text.firstLine (Text.fromUtf8Lossy head)) =
      Text.splitWhitespace (statusLine head) := by
    rw [statusLine, hhead, cutLine_first hfirst]
    exact Text.words_firstLine hfirst _
  unfold httpConnect
  rw [hwrite, andThen_onPart_ok]
  simp only
  rw [hread, andThen_onPart_ok]
  simp only [hwords]
  show Faithful _ _ _ (if (statusToken head).getD "" = "200" then _ else _)
  have hcode : (statusToken head).getD "" = "200" ↔ statusToken head = some "200" := by
    cases statusToken head <;> simp
  by_cases htoken : statusToken head = some "200"
  · rw [if_pos (hcode.mpr htoken)]
    exact ⟨iff_of_true rfl htoken, fun _ => hrest⟩
  · rw [if_neg (mt hcode.mp htoken)]
    exact ⟨iff_of_false (by simp) htoken, fun hok => by cases hok⟩

theorem hasSub_of_statusToken {code : String} (h : statusToken head = some code) :
    Text.hasSub (statusLine head) code = true :=
  Text.hasSub_iff.mpr (Text.infix_of_mem_splitWhitespace (List.mem_of_getElem? h))

/-- `HttpConnector` does so exactly on the responses on which it agrees. -/
theorem faithful_connect_iff {src : Inbound IoError} (h : Answers src head payload)
    (htakes : Takes dst (httpConnectRequest base64 target user)) :
    Faithful "200" head payload (HttpConnector.connect base64 ⟨user⟩ src dst target) ↔
      ConnectorAgrees src head := by
  obtain ⟨dst', hwrite, -⟩ := htakes.exists_written
  unfold HttpConnector.connect
  rw [hwrite, andThen_onPart_ok]
  simp only
  unfold ConnectorAgrees
  rcases readResponse_spec h with ⟨n, hend, hsub, hread⟩ | ⟨hrefused, e, reader, hread⟩
  · rw [hread]
    have hrest := content_pull_eq h (headerEnd_le hend)
    by_cases htoken : statusToken head = some "200"
    · rw [if_pos htoken]
      constructor
      · intro hfaithful
        exact ⟨n, hend, hrest.mp (hfaithful.2 rfl)⟩
      · intro ⟨m, hm, hlen⟩
        cases hend.symm.trans hm
        exact ⟨iff_of_true rfl htoken, fun _ => hrest.mpr hlen⟩
    · rw [if_neg htoken]
      refine iff_of_false (fun hfaithful => htoken (hfaithful.1.mp rfl)) ?_
      simp [hsub, hend]
  · rw [hread]
    have hno : (onPart id (fun reader : LineReader (Inbound IoError) => (reader.inner, dst'))
        ((some (.error e) : Option (Except HandlerError Unit)), reader)).1 ≠ some (.ok ()) := by
      simp [onPart, Except.mapError]
    by_cases htoken : statusToken head = some "200"
    · rw [if_pos htoken]
      refine iff_of_false (fun hfaithful => hno (hfaithful.1.mpr htoken)) ?_
      intro ⟨n, hn, _⟩
      rcases hrefused with hsub | hnone
      · rw [hasSub_of_statusToken htoken] at hsub
        cases hsub
      · rw [hnone] at hn
        cases hn
    · rw [if_neg htoken]
      exact iff_of_true ⟨iff_of_false hno htoken, fun hok => absurd hok hno⟩ hrefused

/-- `ohttp_connect` loses nothing, and goes by the token exactly where it agrees. -/
theorem faithful_ohttpConnect_iff {σ : Type} [AsyncRead σ IoError] [AsyncRead.Lawful σ IoError]
    {s : σ} (hcontent : content s = head ++ payload) (hhead : IsHead head)
    (hunfailing : ∀ e, ¬ fails s e) (htakes : Takes dst (ohttpRequest base64 key target)) :
    Faithful "101" head payload (ohttpConnect base64 key s dst target) ↔ OhttpAgrees head := by
  obtain ⟨dst', hwrite, dst'', hflush⟩ := htakes.exists_written
  have hstart : ([] : Bytes) ++ content s = head ++ payload := hcontent
  obtain ⟨hshort, hlong⟩ :=
    readHeadLoop_spec hhead (Nat.zero_le _) hstart (Nat.zero_le _) hunfailing
  unfold ohttpConnect OhttpAgrees
  rw [hwrite, andThen_onPart_ok]
  simp only
  rw [hflush, andThen_onPart_ok]
  simp only
  by_cases hsize : head.length ≤ 8192
  · obtain ⟨s', hread, hrest⟩ := hshort hsize
    rw [hread, andThen_onPart_ok]
    by_cases hsub : Text.hasSub (Text.fromUtf8Lossy head) " 101 " = true
    · rw [if_pos hsub]
      constructor
      · intro hfaithful
        exact iff_of_true ⟨hsize, hsub⟩ (hfaithful.1.mp rfl)
      · intro hagrees
        exact ⟨iff_of_true rfl (hagrees.mp ⟨hsize, hsub⟩), fun _ => hrest⟩
    · rw [if_neg hsub]
      constructor
      · intro hfaithful
        exact iff_of_false (fun hboth => hsub hboth.2) fun htoken => by cases hfaithful.1.mpr htoken
      · intro hagrees
        exact ⟨iff_of_false (by simp) fun htoken => hsub (hagrees.mpr htoken).2,
          fun hok => by cases hok⟩
  · obtain ⟨e, s', hread⟩ := hlong (Nat.not_le.mp hsize)
    rw [hread, andThen_onPart_error]
    constructor
    · intro hfaithful
      exact iff_of_false (fun hboth => hsize hboth.1) fun htoken => by cases hfaithful.1.mpr htoken
    · intro hagrees
      exact ⟨iff_of_false (by simp) fun htoken => hsize (hagrees.mpr htoken).1,
        fun hok => by cases hok⟩

end

/-- The three clients go by their codes and lose nothing, exactly if an accepted response to
`HttpConnector` is not read beyond its head, and the numbers they look for are nowhere else. -/
theorem connect_clients_agree_iff (base64 : Bytes → String) (key : Bytes)
    {src : Inbound IoError} {head payload : Bytes} (h : Answers src head payload)
    {dst : Outbound IoError} {target host : String} {user : Option (String × Option String)}
    (hconnect : Takes dst (httpConnectRequest base64 target user))
    (hupgrade : Takes dst (ohttpRequest base64 key host)) :
    (Faithful "200" head payload (httpConnect base64 (.new src) dst target user) ∧
        Faithful "200" head payload (HttpConnector.connect base64 ⟨user⟩ src dst target) ∧
        Faithful "101" head payload (ohttpConnect base64 key src dst host)) ↔
      ConnectorAgrees src head ∧ OhttpAgrees head := by
  rw [and_iff_right (faithful_httpConnect h hconnect), faithful_connect_iff h hconnect,
    faithful_ohttpConnect_iff h.content h.isHead h.unfailing hupgrade]

/-! ### Single responses -/

/-- A transport that takes a request at once. -/
def eager : Outbound IoError := ⟨[.accept 1000, .accept 0], []⟩

theorem takes_eager {request : Bytes} (hne : request ≠ []) (hle : request.length ≤ 1000) :
    Takes eager request := by
  have hpos : 0 < request.length := List.length_pos_iff.mpr hne
  obtain ⟨m, hm⟩ : ∃ m, request.length = m + 1 := ⟨request.length - 1, by omega⟩
  have hadvance : (Cursor.ofBytes request).advance (m + 1) = .empty :=
    dif_neg (by show ¬ 0 + (m + 1) < request.length; omega)
  have hend (dst : Outbound IoError) : flush .empty dst = (.done, .empty, dst) := by
    have hnone : ¬ Cursor.empty.pos < Cursor.empty.data.length := Nat.lt_irrefl 0
    rw [flush, if_neg hnone]
  have htaken : eager.write request = (.ready (.ok (m + 1)), ⟨[.accept 0], request⟩) := by
    have hmin : min 1000 request.length = request.length := Nat.min_eq_right hle
    simp only [eager, Outbound.write, hmin, List.take_length, List.nil_append]
    rw [hm]
  have hflush : flush (.ofBytes request) eager = (.done, .empty, ⟨[.accept 0], request⟩) := by
    have hsome : (Cursor.ofBytes request).pos < (Cursor.ofBytes request).data.length := hpos
    rw [flush, if_pos hsome, Cursor.rest_ofBytes, htaken]
    simp only
    rw [hadvance, hend]
  have hwrite : writeAll request eager = (some (.ok ()), ⟨[.accept 0], request⟩) := by
    have hdrain : drainOut writeZeroErr (.ofBytes request) eager =
        (.ready (.ok ()), .empty, ⟨[.accept 0], request⟩) := by
      rw [drainOut, hflush]
    rw [writeAll, await, hdrain]
  refine ⟨by rw [hwrite], ?_⟩
  rw [hwrite, flushAll, await]
  rfl

def exampleTarget : String := "example.com:443"

theorem takes_connect : Takes eager (httpConnectRequest (fun _ => "") exampleTarget none) :=
  takes_eager (by decide +kernel) (by decide +kernel)

theorem takes_upgrade : Takes eager (ohttpRequest (fun _ => "") [] exampleTarget) :=
  takes_eager (by decide +kernel) (by decide +kernel)

/-- Bytes that arrive at once are read at once. -/
theorem read_bytes {b : UInt8} {bs : Bytes} (hle : bs.length < DEFAULT_BUF_SIZE)
    (more : List (ByteStream.Arrival IoError)) :
    AsyncRead.read DEFAULT_BUF_SIZE (⟨.bytes b bs :: more, true⟩ : Inbound IoError) =
      (some (.ok (b :: bs)), ⟨more, true⟩) := by
  have htake : (b :: bs).take DEFAULT_BUF_SIZE = b :: bs := List.take_of_length_le hle
  have hdrop : (b :: bs).drop DEFAULT_BUF_SIZE = [] := List.drop_of_length_le hle
  have hpoll : AsyncRead.pollRead DEFAULT_BUF_SIZE (⟨.bytes b bs :: more, true⟩ : Inbound IoError) =
      (.ready (.ok (b :: bs)), ⟨more, true⟩) := by
    show Inbound.read _ _ = _
    simp only [Inbound.read, htake, hdrop]
    rfl
  rw [AsyncRead.read, await, hpoll]

/-- A first piece that has the first `n` bytes is all that is read for them. -/
theorem pull_bytes {b : UInt8} {bs : Bytes} (hle : bs.length < DEFAULT_BUF_SIZE) {n : Nat}
    (hn : n ≤ bs.length) (more : List (ByteStream.Arrival IoError)) :
    pull DEFAULT_BUF_SIZE (n + 1) (⟨.bytes b bs :: more, true⟩ : Inbound IoError) =
      (b :: bs, ⟨more, true⟩) := by
  rw [pull_succ (read_bytes hle more), Nat.sub_eq_zero_of_le hn, pull, List.append_nil]

/-- A server that sends its pieces without a failure. -/
theorem answers_of_position {pieces : List (ByteStream.Arrival IoError)} {head payload : Bytes}
    (hcontent : Inbound.content ⟨pieces, true⟩ = head ++ payload) {n : Nat}
    (hpos : position HEAD_END head = some n) (hlen : head.length = n + 4)
    (hsize : head.length ≤ MEDIUM_BUFFER_SIZE + 1) (hunfailing : ∀ e, .error e ∉ pieces) :
    Answers ⟨pieces, true⟩ head payload := by
  have hhead := (isHead_take hpos).1
  rw [List.take_of_length_le (Nat.le_of_eq hlen)] at hhead
  exact ⟨hcontent, hhead, hsize, hunfailing⟩

/-- `HTTP/1.1 200 OK` and an empty line. -/
def okHead : Bytes := Text.utf8 "HTTP/1.1 200 OK\r\n\r\n"

def okRest : Bytes := okHead.tail

/-- The server waits before it sends a byte behind its head. -/
theorem connect_clients_agree_pieces :
    Faithful "200" okHead [0x2A] (httpConnect (fun _ => "")
        (.new ⟨[.bytes 0x48 okRest, .bytes 0x2A []], true⟩) eager exampleTarget none) ∧
      Faithful "200" okHead [0x2A] (HttpConnector.connect (fun _ => "") ⟨none⟩
        ⟨[.bytes 0x48 okRest, .bytes 0x2A []], true⟩ eager exampleTarget) ∧
      Faithful "101" okHead [0x2A] (ohttpConnect (fun _ => "") []
        (⟨[.bytes 0x48 okRest, .bytes 0x2A []], true⟩ : Inbound IoError) eager exampleTarget) := by
  have hanswers : Answers ⟨[.bytes 0x48 okRest, .bytes 0x2A []], true⟩ okHead [0x2A] :=
    answers_of_position (n := 15) (by decide) (by decide) (by decide) (by decide) (by simp)
  refine (connect_clients_agree_iff _ _ hanswers takes_connect takes_upgrade).mpr ⟨?_, ?_⟩
  · have htoken : statusToken okHead = some "200" := by decide
    have hend : headerEnd okHead = some 19 := by decide
    unfold ConnectorAgrees
    rw [if_pos htoken]
    refine ⟨19, hend, ?_⟩
    rw [pull_bytes (by decide) (by decide)]
    decide
  · unfold OhttpAgrees
    decide

/-- A refusal that has the number in its first line. -/
def mentionedHead : Bytes := Text.utf8 "HTTP/1.1 503 after 200s\r\n\r\n"

/-- A refusal that has the number in a field. -/
def fieldHead : Bytes := Text.utf8 "HTTP/1.1 404 Not Found\r\nAge: 101 \r\n\r\n"

/-- `HttpConnector` takes a 503 for a 200 and loses a byte that comes with the head, and
`ohttp_connect` takes a 404 for a 101. -/
theorem connect_clients_differ :
    ¬ Faithful "200" mentionedHead [] (HttpConnector.connect (fun _ => "") ⟨none⟩
        ⟨ByteStream.Arrival.ofBytes mentionedHead, true⟩ eager exampleTarget) ∧
      ¬ Faithful "200" okHead [0x2A] (HttpConnector.connect (fun _ => "") ⟨none⟩
        ⟨[.bytes 0x48 (okRest ++ [0x2A])], true⟩ eager exampleTarget) ∧
      ¬ Faithful "101" fieldHead [] (ohttpConnect (fun _ => "") []
        (⟨ByteStream.Arrival.ofBytes fieldHead, true⟩ : Inbound IoError) eager exampleTarget) := by
  refine ⟨?_, ?_, ?_⟩
  · have hanswers : Answers ⟨ByteStream.Arrival.ofBytes mentionedHead, true⟩ mentionedHead [] :=
      answers_of_position (n := 23) (by decide) (by decide) (by decide) (by decide)
        (Inbound.delivers_ofBytes mentionedHead).unfailing
    rw [faithful_connect_iff hanswers takes_connect]
    have htoken : statusToken mentionedHead ≠ some "200" := by decide
    unfold ConnectorAgrees
    rw [if_neg htoken]
    decide
  · have hanswers : Answers ⟨[.bytes 0x48 (okRest ++ [0x2A])], true⟩ okHead [0x2A] :=
      answers_of_position (n := 15) (by decide) (by decide) (by decide) (by decide) (by simp)
    rw [faithful_connect_iff hanswers takes_connect]
    have htoken : statusToken okHead = some "200" := by decide
    have hend : headerEnd okHead = some 19 := by decide
    unfold ConnectorAgrees
    rw [if_pos htoken]
    intro ⟨n, hn, hlen⟩
    cases hend.symm.trans hn
    rw [pull_bytes (by decide) (by decide)] at hlen
    exact absurd hlen (by decide)
  · have hanswers : Answers ⟨ByteStream.Arrival.ofBytes fieldHead, true⟩ fieldHead [] :=
      answers_of_position (n := 33) (by decide) (by decide) (by decide) (by decide)
        (Inbound.delivers_ofBytes fieldHead).unfailing
    rw [faithful_ohttpConnect_iff hanswers.content hanswers.isHead hanswers.unfailing takes_upgrade]
    unfold OhttpAgrees
    decide

end RtProxy
