import RtProxy.Resolver.Transports

/-!
What a client gets of an answer, by the way it has asked.

A frame tells its length in two bytes, so a stream brings no message that is longer, and it
is only for a stream that the side that answers looks at a reply before it is sent.  In
an HTTP exchange a reply comes as it is.  The client of a UDP exchange has at least the room
that the server takes it to have.
-/

namespace RtProxy.Resolver

open ByteStream Http1 Bytes

variable {query reply bs request : Bytes} {answer : Except String Bytes}
  {src there back : Inbound IoError}

/-- An exchange over a connection that is closed at its end: the server reads the request,
and the client reads what the server has written. -/
structure Round {ε : Type} (request : Bytes) (serve : Inbound IoError → Option (Except ε Bytes))
    (there back : Inbound IoError) : Prop where
  content : there.content = request
  unfailing : ∀ e, .error e ∉ there.arrivals
  back : ∀ out, serve there = some out → back.Delivers (out.toOption.getD [])

/-! ## Frames -/

theorem readFramed_framed (hlen : bs.length ≤ 65535) (hcontent : src.content = framed bs)
    (hun : ∀ e, .error e ∉ src.arrivals) : readFramed src = some (.ok bs) := by
  have htwo : (be 2 bs.length).length = 2 := length_be ..
  have htake : src.content.take 2 = be 2 bs.length := by
    rw [hcontent, framed, List.take_left' htwo]
  have hnum : beNat (be 2 bs.length) = bs.length := beNat_be (by omega)
  obtain ⟨mid, hread, hgives⟩ := (readExact_spec 2 hun).1 (by
    rw [hcontent, framed, List.length_append, htwo]
    omega)
  have hmid : mid.content = bs := by
    have h := hgives.content
    rw [htake, hcontent] at h
    exact (List.append_cancel_left h).symm
  obtain ⟨last, hbody, -⟩ := (readExact_spec bs.length (hgives.unfailing hun)).1 (by rw [hmid])
  rw [readFramed, hread]
  simp only [htake, hnum, hbody, hmid, List.take_length]

theorem readFramed_nil (h : src.Delivers []) : readFramed src = some (.error earlyEofErr) := by
  have hshort := (readExact_spec 2 h.unfailing).2 (by
    rw [h.content, List.length_nil]
    omega)
  rw [if_pos h.closed] at hshort
  unfold readFramed
  revert hshort
  cases readExact 2 src with
  | mk out mid =>
    intro hshort
    change out = some (.error earlyEofErr) at hshort
    rw [hshort]

/-- What comes back over a stream. -/
theorem exchangeStream_round
    (h : Round ((streamRequest query).toOption.getD []) (serveStream answer) there back) :
    ∃ res, exchangeStream query back = some res ∧ ∀ reply, res = .ok reply ↔
      query.length ≤ 65535 ∧ exchangeLogged answer query = .ok reply ∧ reply.length ≤ 65535 := by
  by_cases hlong : 65535 < query.length
  · have hrequest : streamRequest query = .error (wireErr "query too long for TCP framing") :=
      if_pos hlong
    refine ⟨.error _, by rw [exchangeStream, hrequest], fun reply => ?_⟩
    exact iff_of_false (fun h => by cases h) fun h => absurd h.1 (Nat.not_le.mpr hlong)
  · have hrequest : streamRequest query = .ok (framed query) := if_neg hlong
    have hquery : query.length ≤ 65535 := Nat.not_lt.mp hlong
    have hread : readFramed there = some (.ok query) :=
      readFramed_framed hquery (by rw [h.content, hrequest]; rfl) h.unfailing
    have hclient : exchangeStream query back = readFramed back := by
      rw [exchangeStream, hrequest]
    have hback := h.back
    rw [serveStream, hread] at hback
    rw [hclient]
    cases hlogged : exchangeLogged answer query with
    | error e =>
      simp only [hlogged, Option.some.injEq, forall_eq'] at hback
      exact ⟨_, readFramed_nil hback, fun reply =>
        iff_of_false (fun h => by cases h) fun h => by cases h.2.1⟩
    | ok sent =>
      simp only [hlogged] at hback
      split_ifs at hback with hbig
      · have hnil := hback _ rfl
        refine ⟨_, readFramed_nil hnil, fun reply => iff_of_false (fun h => by cases h) ?_⟩
        rintro ⟨-, hok, hle⟩
        cases hok
        omega
      · have hsent := hback _ rfl
        refine ⟨_, readFramed_framed (Nat.not_lt.mp hbig) hsent.content hsent.unfailing,
          fun reply => ?_⟩
        constructor
        · intro hok
          cases hok
          exact ⟨hquery, rfl, Nat.not_lt.mp hbig⟩
        · rintro ⟨-, hok, -⟩
          cases hok
          rfl

/-! ## Replies -/

theorem exchange_eq_ok : exchange answer query = .ok reply ↔
    ∃ mq bytes, Message.decode query = .ok mq ∧ mq.questions ≠ [] ∧ answer = .ok bytes ∧
      reply = setMsgId bytes mq.id := by
  unfold exchange
  rw [Except.bind_eq_ok_iff]
  constructor
  · rintro ⟨mq, hquery, h⟩
    split_ifs at h with hnone
    obtain ⟨bytes, hanswer, hok⟩ := Except.bind_eq_ok_iff.mp h
    cases hok
    exact ⟨mq, bytes, hquery, hnone, hanswer, rfl⟩
  · rintro ⟨mq, bytes, hquery, hsome, rfl, rfl⟩
    exact ⟨mq, hquery, if_neg hsome⟩

/-- The side that answers looks at a reply before it sends it on a stream. -/
theorem exchangeLogged_iff : exchangeLogged answer query = .ok reply ↔
    exchange answer query = .ok reply ∧ ∃ mr, Message.decode reply = .ok mr := by
  rw [exchangeLogged_eq_ok, exchange_eq_ok]
  constructor
  · rintro ⟨mq, bytes, mr, hquery, hsome, hanswer, hreply, rfl⟩
    exact ⟨⟨mq, bytes, hquery, hsome, hanswer, rfl⟩, mr, hreply⟩
  · rintro ⟨⟨mq, bytes, hquery, hsome, hanswer, rfl⟩, mr, hreply⟩
    exact ⟨mq, bytes, mr, hquery, hsome, hanswer, hreply, rfl⟩

/-! ## Heads -/

def dohHead (url : Url) (host : String) (len : Nat) : Head where
  method := Text.utf8 "POST"
  target := Text.utf8 (dohTarget url)
  fields := [
    (Text.utf8 "Host", Text.utf8 (dohHostHeader url host)),
    (Text.utf8 "Content-Type", Text.utf8 DNS_MESSAGE),
    (Text.utf8 "Accept", Text.utf8 DNS_MESSAGE),
    (Text.utf8 "Content-Length", Text.utf8 (toString len)),
    (Text.utf8 "Connection", Text.utf8 "close")]

theorem dohRequest_eq (url : Url) (host : String) (query : Bytes) :
    dohRequest url host query = (dohHead url host query.length).bytes ++ query := by
  have hmethod : Text.utf8 "POST " = Text.utf8 "POST" ++ [SP] := rfl
  have hhost : Text.utf8 " HTTP/1.1\r\nHost: " =
      SP :: VERSION ++ lineEnd ++ (Text.utf8 "Host" ++ [COLON, SP]) := rfl
  have htype : Text.utf8 "\r\nContent-Type: application/dns-message\r\n" = lineEnd ++
      (Text.utf8 "Content-Type" ++ COLON :: SP :: Text.utf8 DNS_MESSAGE ++ lineEnd) := rfl
  have haccept : Text.utf8 "Accept: application/dns-message\r\nContent-Length: " =
      Text.utf8 "Accept" ++ COLON :: SP :: Text.utf8 DNS_MESSAGE ++ lineEnd ++
        (Text.utf8 "Content-Length" ++ [COLON, SP]) := rfl
  have hend : Text.utf8 "\r\nConnection: close\r\n\r\n" = lineEnd ++
      (Text.utf8 "Connection" ++ COLON :: SP :: Text.utf8 "close" ++ lineEnd) ++ lineEnd := rfl
  unfold dohRequest dohRequestText dohHead Head.bytes requestLine
  simp only [Text.utf8_append, hmethod, hhost, htype, haccept, hend]
  simp [fieldLine]

theorem wf_dohHead {url : Url} {host : String} (htarget : Target (Text.utf8 (dohTarget url)))
    (hhost : Value (Text.utf8 (dohHostHeader url host))) (len : Nat) :
    (dohHead url host len).Wf := by
  refine ⟨(by decide : Token (Text.utf8 "POST")), htarget, fun field hfield => ?_⟩
  simp only [dohHead, List.mem_cons, List.not_mem_nil, or_false] at hfield
  rcases hfield with rfl | rfl | rfl | rfl | rfl
  · exact ⟨(by decide : Token (Text.utf8 "Host")), hhost⟩
  · exact ⟨by decide, by decide⟩
  · exact ⟨by decide, by decide⟩
  · exact ⟨(by decide : Token (Text.utf8 "Content-Length")), value_number len⟩
  · exact ⟨by decide, by decide⟩

/-- The fields of a response, which begin alike. -/
def replyHead (code : Nat) (fields : List (Bytes × Bytes)) (len : Nat) : StatusHead where
  status := code
  reason := Text.utf8 (httpStatusText code)
  fields := fields ++ [(Text.utf8 "Content-Length", SP :: Text.utf8 (toString len)),
    (Text.utf8 "Connection", Text.utf8 " close")]

def dnsFields : List (Bytes × Bytes) :=
  [(Text.utf8 "Server", Text.utf8 " SDNS"), (Text.utf8 "Content-Type", SP :: Text.utf8 DNS_MESSAGE)]

def errorFields : List (Bytes × Bytes) :=
  [(Text.utf8 "Content-Type", Text.utf8 " text/plain; charset=utf-8")]

theorem httpDnsResponse_eq (body : Bytes) :
    httpDnsResponse body = (replyHead 200 dnsFields body.length).bytes ++ body := by
  have hfirst : Text.utf8
        "HTTP/1.1 200 OK\r\nServer: SDNS\r\nContent-Type: application/dns-message\r\n" =
      VERSION ++ SP :: (Text.utf8 (toString 200) ++ SP :: Text.utf8 (httpStatusText 200)) ++
        lineEnd ++ dnsFields.flatMap fun field => StatusHead.rawLine field ++ lineEnd := rfl
  have hlength : Text.utf8 "Content-Length: " = Text.utf8 "Content-Length" ++ [COLON, SP] := rfl
  have hend : Text.utf8 "\r\nConnection: close\r\n\r\n" = lineEnd ++
      (Text.utf8 "Connection" ++ COLON :: Text.utf8 " close" ++ lineEnd) ++ lineEnd := rfl
  unfold httpDnsResponse replyHead StatusHead.bytes StatusHead.statusLine
  simp only [Text.utf8_append, hfirst, hlength, hend, List.flatMap_append]
  simp [StatusHead.rawLine]

/-- The text behind the head of an error. -/
def errorBody (code : Nat) : Bytes := Text.utf8 (httpStatusText code ++ "\n")

theorem httpErrorResponse_eq (code : Nat) : httpErrorResponse code =
    (replyHead code errorFields ((httpStatusText code).utf8ByteSize + 1)).bytes ++
      errorBody code := by
  have hversion : Text.utf8 "HTTP/1.1 " = VERSION ++ [SP] := rfl
  have hspace : Text.utf8 " " = [SP] := rfl
  have htype : Text.utf8 "\r\nContent-Type: text/plain; charset=utf-8\r\nContent-Length: " =
      lineEnd ++ errorFields.flatMap (fun field => StatusHead.rawLine field ++ lineEnd) ++
        (Text.utf8 "Content-Length" ++ [COLON, SP]) := rfl
  have hend : Text.utf8 "\r\nConnection: close\r\n\r\n" = lineEnd ++
      (Text.utf8 "Connection" ++ COLON :: Text.utf8 " close" ++ lineEnd) ++ lineEnd := rfl
  unfold httpErrorResponse replyHead errorBody StatusHead.bytes StatusHead.statusLine
  simp only [Text.utf8_append, hversion, hspace, htype, hend, List.flatMap_append]
  simp [StatusHead.rawLine]

/-- What the fields in front of the length are, in all the responses. -/
theorem replyFields {fields : List (Bytes × Bytes)} (h : fields ∈ [dnsFields, errorFields]) :
    (∀ field ∈ fields, Token field.1 ∧ Value field.2) ∧ fields.length ≤ 2 ∧
      (fields.flatMap fun field => StatusHead.rawLine field ++ lineEnd).length ≤ 100 ∧
      ∀ field ∈ fields, field.1.map lowerByte ≠ CONTENT_LENGTH := by
  simp only [List.mem_cons, List.not_mem_nil, or_false] at h
  rcases h with rfl | rfl
  · exact ⟨by decide, by decide, by decide, by decide⟩
  · exact ⟨by decide, by decide, by decide, by decide⟩

theorem statusText_facts (code : Nat) : Value (Text.utf8 (httpStatusText code)) ∧
    (Text.utf8 (httpStatusText code)).length ≤ 22 := by
  unfold httpStatusText
  split
  all_goals exact ⟨by decide, by decide⟩

theorem wf_replyHead {code : Nat} (hcode : 100 ≤ code ∧ code < 1000)
    {fields : List (Bytes × Bytes)} (h : fields ∈ [dnsFields, errorFields]) (len : Nat) :
    (replyHead code fields len).Wf := by
  refine ⟨hcode, (statusText_facts code).1, fun field hfield => ?_⟩
  rcases List.mem_append.mp hfield with hfield | hfield
  · exact (replyFields h).1 field hfield
  · simp only [List.mem_cons, List.not_mem_nil, or_false] at hfield
    rcases hfield with rfl | rfl
    · refine ⟨(by decide : Token (Text.utf8 "Content-Length")), ?_⟩
      exact value_cons.mpr ⟨rfl, value_number len⟩
    · exact ⟨by decide, by decide⟩

/-- The head of a response is found before it is too large. -/
theorem length_replyHead {code len : Nat} (hcode : code < 1000) (hlen : len < 2 ^ 64)
    {fields : List (Bytes × Bytes)} (h : fields ∈ [dnsFields, errorFields]) :
    (replyHead code fields len).bytes.length + CHUNK ≤ HEAD_LIMIT + 1 := by
  have hstatus : (Text.utf8 (toString code)).length ≤ 3 := length_number hcode (by decide)
  have hnumber : (Text.utf8 (toString len)).length ≤ 20 :=
    length_number (Nat.lt_trans hlen (by decide)) (by decide)
  have htext := (statusText_facts code).2
  have hfields := (replyFields h).2.2.1
  have hname : (Text.utf8 "Content-Length").length = 14 := rfl
  have hconn : (Text.utf8 "Connection").length = 10 := rfl
  have hclose : (Text.utf8 " close").length = 6 := rfl
  have hversion : VERSION.length = 8 := rfl
  have hline : lineEnd.length = 2 := rfl
  simp only [replyHead, StatusHead.bytes, StatusHead.statusLine, List.flatMap_append,
    List.flatMap_cons, List.flatMap_nil, StatusHead.rawLine, List.length_append, List.length_cons,
    List.length_nil, hname, hconn, hclose, hversion, hline] at hfields ⊢
  show _ + 2048 ≤ 65536 + 1
  omega

/-- The length is found behind fields of other names. -/
theorem lengthField_append {fields : List (Bytes × Bytes)} {len : Nat} (hlen : len < 2 ^ 64)
    (hfields : ∀ field ∈ fields, field.1.map lowerByte ≠ CONTENT_LENGTH) {value : Bytes}
    (hvalue : value = Text.utf8 (toString len)) (rest : List (Bytes × Bytes)) :
    lengthField (fields ++ (Text.utf8 "Content-Length", value) :: rest) = some len := by
  have hnone : (fields.find? fun field => field.1.map lowerByte = CONTENT_LENGTH) = none := by
    rw [List.find?_eq_none]
    intro field hfield
    simpa using hfields field hfield
  have hname : (Text.utf8 "Content-Length").map lowerByte = CONTENT_LENGTH := by decide
  have hfound : ((fields ++ (Text.utf8 "Content-Length", value) :: rest).find? fun field =>
      field.1.map lowerByte = CONTENT_LENGTH) = some (Text.utf8 "Content-Length", value) := by
    rw [List.find?_append, hnone, Option.none_or, List.find?_cons_of_pos (by simp [hname])]
  exact lengthField_of_find hlen hfound hvalue

theorem lengthField_replyHead {code len : Nat} (hlen : len < 2 ^ 64)
    {fields : List (Bytes × Bytes)} (h : fields ∈ [dnsFields, errorFields]) :
    lengthField (replyHead code fields len).values = some len := by
  have htrim : trimBlanks (SP :: Text.utf8 (toString len)) = Text.utf8 (toString len) :=
    (trimBlanks_sp _).trans (trimBlanks_number len)
  rw [StatusHead.values, replyHead, List.map_append, List.map_cons]
  refine lengthField_append hlen (fun field hfield => ?_) htrim _
  obtain ⟨field, hmem, rfl⟩ := List.mem_map.mp hfield
  exact (replyFields h).2.2.2 field hmem

theorem lengthField_dohHead {len : Nat} (hlen : len < 2 ^ 64) (url : Url) (host : String) :
    lengthField ((dohHead url host len).fields.map fun field => (field.1, trimBlanks field.2)) =
      some len := by
  have hfront : ∀ field ∈ ((dohHead url host len).fields.take 3).map fun field =>
      (field.1, trimBlanks field.2), field.1.map lowerByte ≠ CONTENT_LENGTH := by
    intro field hfield
    obtain ⟨field, hmem, rfl⟩ := List.mem_map.mp hfield
    simp only [dohHead, List.take_succ_cons, List.take_zero, List.mem_cons, List.not_mem_nil,
      or_false] at hmem
    rcases hmem with rfl | rfl | rfl
    · exact (by decide : (Text.utf8 "Host").map lowerByte ≠ CONTENT_LENGTH)
    · exact (by decide : (Text.utf8 "Content-Type").map lowerByte ≠ CONTENT_LENGTH)
    · exact (by decide : (Text.utf8 "Accept").map lowerByte ≠ CONTENT_LENGTH)
  exact lengthField_append hlen hfront (trimBlanks_number len) _

/-! ## HTTP -/

/-- The client reads a response that is a 200, and tells of another one. -/
theorem readHttpBody_replyHead {parser : Parser} (hparser : parser.Reads 32) {code : Nat}
    (hcode : 100 ≤ code ∧ code < 1000) {fields : List (Bytes × Bytes)}
    (hfields : fields ∈ [dnsFields, errorFields]) {len : Nat} (hlen : len < 2 ^ 64)
    (h : back.Delivers ((replyHead code fields len).bytes ++ bs)) :
    (code ≠ 200 → readHttpBody parser back =
        some (.error (ioOther ("returned status code " ++ toString code)))) ∧
      (code = 200 → bs.length = len → readHttpBody parser back = some (.ok bs)) := by
  have hwf := wf_replyHead hcode hfields len
  have hcount : (replyHead code fields len).fields.length ≤ 32 := by
    have := (replyFields hfields).2.1
    simp only [replyHead, List.length_append, List.length_cons, List.length_nil]
    omega
  have hparse := hparser.response _ hwf hcount
  have hstatus : (replyHead code fields len).status = code := rfl
  have hall : [] ++ AsyncRead.content back = (replyHead code fields len).bytes ++ bs := h.content
  obtain ⟨extra, src, hread, hrest, -, hun⟩ := readHead_complete chunk_pos (StatusHead.isHead hwf)
    hall (StatusHead.isHead hwf).length_pos (length_replyHead hcode.2 hlen hfields) h.unfailing
  have htake : ((replyHead code fields len).bytes ++ extra).take
      (replyHead code fields len).bytes.length = (replyHead code fields len).bytes :=
    List.take_left' rfl
  have hdrop : ((replyHead code fields len).bytes ++ extra).drop
      (replyHead code fields len).bytes.length = extra := List.drop_left' rfl
  rw [readHttpBody, hread]
  simp only [htake, hdrop, hparse, hstatus]
  constructor
  · intro hne
    rw [if_pos hne]
  · intro hok hbody
    rw [if_neg (not_not_intro hok)]
    simp only [lengthField_replyHead hlen hfields]
    obtain ⟨all, last, hall, hfront⟩ := readBody_complete chunk_pos
      (by rw [← hrest, hbody]) hun
    rw [hall]
    show some (Except.ok (all.take len)) = _
    rw [hfront, ← hrest, ← hbody, List.take_length]

/-- The head of a request as it is read. -/
def dohRead (url : Url) (host : String) (len : Nat) : Head :=
  { dohHead url host len with
    fields := (dohHead url host len).fields.map fun field => (field.1, trimBlanks field.2) }

theorem contentType_dohRead (url : Url) (host : String) (len : Nat) :
    fieldText (Text.utf8 "content-type") (dohRead url host len).fields = some DNS_MESSAGE := by
  have hhost : (Text.utf8 "Host").map lowerByte ≠ Text.utf8 "content-type" := by decide
  have htype : (Text.utf8 "Content-Type").map lowerByte = Text.utf8 "content-type" := by decide
  have htrim : trimBlanks (Text.utf8 DNS_MESSAGE) = Text.utf8 DNS_MESSAGE := by decide +kernel
  unfold fieldText dohRead dohHead
  rw [List.map_cons, List.find?_cons_of_neg (by simpa using hhost), List.map_cons,
    List.find?_cons_of_pos (by simpa using htype), Option.bind_some, htrim, Text.fromUtf8_utf8]

/-- What the server answers to the request of a client. -/
inductive DohAnswered (answer : Except String Bytes) (query : Bytes) : Bytes → Prop
  | reply {reply : Bytes} (h : exchange answer query = .ok reply) :
      DohAnswered answer query (httpDnsResponse reply)
  | refused (code : Nat) (hcode : code = 400 ∨ code = 500)
      (h : ∀ reply, exchange answer query ≠ .ok reply) :
      DohAnswered answer query (httpErrorResponse code)

theorem answered_dohReply (answer : Except String Bytes) (base64Url : Bytes → Option Bytes)
    (url : Url) (host : String) (query : Bytes) : DohAnswered answer query
      (dohReply base64Url answer (dohRead url host query.length) query) := by
  have hmethod : Text.fromUtf8Lossy (dohRead url host query.length).method = "POST" :=
    Text.fromUtf8Lossy_utf8 "POST"
  have hget : "POST" ≠ "GET" := by decide
  have htype : isDnsMessage (some DNS_MESSAGE) = true := by decide +kernel
  have hbuffer (target : String) :
      dohBuffer base64Url "POST" target (some DNS_MESSAGE) query = .query query := by
    rw [dohBuffer, if_neg hget, if_pos rfl, if_pos htype]
  rw [dohReply, hmethod, contentType_dohRead, parseDohRequest, hbuffer]
  cases hdecode : Message.decode query with
  | error e =>
    simp only [hdecode]
    refine .refused 400 (.inl rfl) fun reply h => ?_
    rw [exchange, hdecode] at h
    cases h
  | ok mq =>
    simp only [hdecode]
    cases hexchange : exchange answer query with
    | error e =>
      exact .refused 500 (.inr rfl) fun reply h => by
        rw [hexchange] at h
        cases h
    | ok reply => exact .reply hexchange

/-- The server answers the request of a client. -/
theorem serveDohConn_dohRequest {parser : Parser} (hparser : parser.Reads 32)
    (base64Url : Bytes → Option Bytes) {url : Url} {host : String}
    (htarget : Target (Text.utf8 (dohTarget url)))
    (hhost : Value (Text.utf8 (dohHostHeader url host))) (hquery : query.length < 2 ^ 64)
    (hsize : (dohHead url host query.length).bytes.length + CHUNK ≤ HEAD_LIMIT + 1)
    (hcontent : there.content = dohRequest url host query)
    (hun : ∀ e, .error e ∉ there.arrivals) :
    ∃ out, serveDohConn parser base64Url answer there = some (.ok out) ∧
      DohAnswered answer query out := by
  have hwf := wf_dohHead htarget hhost query.length
  have hparse : parser.request (dohHead url host query.length).bytes =
      some (dohRead url host query.length) := hparser.request _ hwf (by simp [dohHead])
  have hall : [] ++ AsyncRead.content there = (dohHead url host query.length).bytes ++ query := by
    rw [← dohRequest_eq]
    exact hcontent
  obtain ⟨extra, src, hread, hrest, -, hun⟩ := readHead_complete chunk_pos (Head.isHead hwf) hall
    (Head.isHead hwf).length_pos hsize hun
  have htake : ((dohHead url host query.length).bytes ++ extra).take
      (dohHead url host query.length).bytes.length = (dohHead url host query.length).bytes :=
    List.take_left' rfl
  have hdrop : ((dohHead url host query.length).bytes ++ extra).drop
      (dohHead url host query.length).bytes.length = extra := List.drop_left' rfl
  have hlength : lengthField (dohRead url host query.length).fields = some query.length :=
    lengthField_dohHead hquery url host
  obtain ⟨body, last, hbody, hfront⟩ := readBody_complete chunk_pos (by rw [← hrest]) hun
  rw [← hrest, List.take_length] at hfront
  rw [serveDohConn, hread]
  simp only [htake, hdrop, hparse, hlength, Option.getD_some, hbody]
  refine ⟨dohReply base64Url answer (dohRead url host query.length) (body.take query.length),
    rfl, ?_⟩
  rw [hfront]
  exact answered_dohReply answer base64Url url host query

/-- What comes back in an HTTP exchange. -/
theorem readHttpBody_round {parser : Parser} (hparser : parser.Reads 32)
    {base64Url : Bytes → Option Bytes} {url : Url} {host : String}
    (htarget : Target (Text.utf8 (dohTarget url)))
    (hhost : Value (Text.utf8 (dohHostHeader url host))) (hquery : query.length < 2 ^ 64)
    (hanswer : ∀ bs, answer = .ok bs → bs.length < 2 ^ 64)
    (hsize : (dohHead url host query.length).bytes.length + CHUNK ≤ HEAD_LIMIT + 1)
    (h : Round (dohRequest url host query) (serveDohConn parser base64Url answer) there back) :
    ∃ res, readHttpBody parser back = some res ∧
      ∀ reply, res = .ok reply ↔ exchange answer query = .ok reply := by
  obtain ⟨out, hserve, hout⟩ := serveDohConn_dohRequest hparser base64Url htarget hhost hquery hsize
    h.content h.unfailing
  have hback : back.Delivers out := h.back _ hserve
  cases hout with
  | @reply sent hsent =>
    obtain ⟨mq, bs, -, -, hbs, rfl⟩ := exchange_eq_ok.mp hsent
    have hlen : (setMsgId bs mq.id).length < 2 ^ 64 := by
      rw [length_setMsgId]
      exact hanswer bs hbs
    rw [httpDnsResponse_eq] at hback
    refine ⟨.ok _, (readHttpBody_replyHead hparser (by decide) (by simp) hlen hback).2 rfl rfl,
      fun reply => ?_⟩
    rw [hsent, Except.ok.injEq, Except.ok.injEq]
  | refused code hcode hnone =>
    rw [httpErrorResponse_eq] at hback
    have hlen : (httpStatusText code).utf8ByteSize + 1 < 2 ^ 64 := by
      rcases hcode with rfl | rfl <;> decide
    have hrange : 100 ≤ code ∧ code < 1000 := by omega
    have hne : code ≠ 200 := by omega
    refine ⟨_, (readHttpBody_replyHead hparser hrange (by simp) hlen hback).1 hne, fun reply => ?_⟩
    exact iff_of_false (fun h => by cases h) (hnone reply)

/-! ## UDP -/

/-- The client has room for what the server takes it to have room for. -/
theorem udpLimit_le_udpRoom (query : Bytes) : udpLimit query ≤ udpRoom query := by
  unfold udpLimit udpRoom
  cases (Message.decode query).toOption.bind Message.edns0UdpSize with
  | none => exact Nat.le_max_right ..
  | some size =>
    show max 512 (min size.toNat 65535) ≤ max size.toNat 512
    omega

theorem exchangeUdp_serveUdp {udpSize : Nat} (hquery : query.length ≤ udpBufferSize udpSize)
    (h : exchangeLogged answer query = .ok reply) (hle : reply.length ≤ udpLimit query) :
    exchangeUdp query (serveUdp udpSize answer query) = .ok reply := by
  have hroom := udpLimit_le_udpRoom query
  have hserve : serveUdp udpSize answer query = some reply := by
    rw [serveUdp, List.take_of_length_le hquery]
    simp only [h, if_neg (Nat.not_lt.mpr hle)]
  rw [hserve, exchangeUdp, List.take_of_length_le (Nat.le_trans hle hroom)]

/-! ## All the ways -/

/-- A client over TCP and one over HTTP are answered alike, whatever pieces the bytes come in,
if the reply is a message and the frames have room.  One over UDP gets the same if the
reply fits. -/
theorem ways_agree {parser : Parser} (hparser : parser.Reads 32) {base64Url : Bytes → Option Bytes}
    {url : Url} {host : String} (htarget : Target (Text.utf8 (dohTarget url)))
    (hhost : Value (Text.utf8 (dohHostHeader url host))) (hquery : query.length < 2 ^ 64)
    (hanswer : ∀ bs, answer = .ok bs → bs.length < 2 ^ 64)
    (hsize : (dohHead url host query.length).bytes.length + CHUNK ≤ HEAD_LIMIT + 1)
    {streamThere streamBack httpThere httpBack : Inbound IoError}
    (hstream : Round ((streamRequest query).toOption.getD []) (serveStream answer) streamThere
      streamBack)
    (hhttp : Round (dohRequest url host query) (serveDohConn parser base64Url answer) httpThere
      httpBack) :
    ∃ stream http, exchangeStream query streamBack = some stream ∧
      readHttpBody parser httpBack = some http ∧ ∀ reply,
        (http = .ok reply ↔ exchange answer query = .ok reply) ∧
        (stream = .ok reply ↔ http = .ok reply ∧ (∃ mr, Message.decode reply = .ok mr) ∧
          query.length ≤ 65535 ∧ reply.length ≤ 65535) ∧
        ∀ udpSize, query.length ≤ udpBufferSize udpSize → reply.length ≤ udpLimit query →
          stream = .ok reply → exchangeUdp query (serveUdp udpSize answer query) = .ok reply := by
  obtain ⟨stream, hback, hframes⟩ := exchangeStream_round hstream
  obtain ⟨http, hbody, hreplies⟩ :=
    readHttpBody_round hparser htarget hhost hquery hanswer hsize hhttp
  refine ⟨stream, http, hback, hbody, fun reply => ⟨hreplies reply, ?_, ?_⟩⟩
  · rw [hframes reply, hreplies reply, exchangeLogged_iff]
    constructor
    · rintro ⟨hle, ⟨hreply, hmessage⟩, hfits⟩
      exact ⟨hreply, hmessage, hle, hfits⟩
    · rintro ⟨hreply, hmessage, hle, hfits⟩
      exact ⟨hle, ⟨hreply, hmessage⟩, hfits⟩
  · intro udpSize hle hfits hok
    exact exchangeUdp_serveUdp hle ((hframes reply).mp hok).2.1 hfits

/-- Both sides over connections that bring all there is at once. -/
theorem round_ofBytes {ε : Type} (request : Bytes)
    (serve : Inbound IoError → Option (Except ε Bytes)) :
    Round request serve ⟨Arrival.ofBytes request, true⟩
      ⟨Arrival.ofBytes ((serve ⟨Arrival.ofBytes request, true⟩).elim []
        (·.toOption.getD [])), true⟩ := by
  have hthere := Inbound.delivers_ofBytes (ε := IoError) request
  refine ⟨hthere.content, hthere.unfailing, fun out hout => ?_⟩
  rw [hout]
  exact Inbound.delivers_ofBytes _

/-- A name server of this host, over HTTP. -/
def sampleUrl : Url where
  scheme := "http"
  username := ""
  password := none
  host := some "127.0.0.1"
  port := some 8053
  path := "/dns-query"
  query := none
  queryPairs := []

theorem ways_agree_address : ∃ streamThere streamBack httpThere httpBack,
    Round ((streamRequest (addressPacket [[0x61]])).toOption.getD [])
        (serveStream (.ok sampleReply)) streamThere streamBack ∧
      Round (dohRequest sampleUrl "127.0.0.1" (addressPacket [[0x61]]))
        (serveDohConn strict some (.ok sampleReply)) httpThere httpBack ∧
      exchangeStream (addressPacket [[0x61]]) streamBack = some (.ok (setMsgId sampleReply 7)) ∧
      readHttpBody strict httpBack = some (.ok (setMsgId sampleReply 7)) ∧
      exchangeUdp (addressPacket [[0x61]]) (serveUdp 0 (.ok sampleReply) (addressPacket [[0x61]])) =
        .ok (setMsgId sampleReply 7) := by
  have hw : Dns.ReadsMessage (addressPacket [[0x61]]) (addressQuery [[0x61]]) :=
    reads_addressPacket (by decide)
  have hquery := Message.decode_eq_ok.mpr ⟨_, hw, rfl⟩
  have hexchange : exchange (.ok sampleReply) (addressPacket [[0x61]]) =
      .ok (setMsgId sampleReply 7) :=
    exchange_eq_ok.mpr ⟨_, _, hquery, List.cons_ne_nil _ _, rfl, rfl⟩
  have hmessage : Message.decode (setMsgId sampleReply 7) = .ok sampleMessage := by
    rw [← List.append_nil sampleReply]
    exact decode_sampleReply_append []
  have hanswer : ∀ bs, (Except.ok sampleReply : Except String Bytes) = .ok bs →
      bs.length < 2 ^ 64 := by
    intro bs hbs
    cases hbs
    decide
  obtain ⟨stream, http, hback, hbody, h⟩ := ways_agree (reads_strict 32)
    (by decide +kernel) (by decide +kernel) (by decide) hanswer (by decide +kernel)
    (round_ofBytes _ (serveStream (.ok sampleReply)))
    (round_ofBytes (dohRequest sampleUrl "127.0.0.1" (addressPacket [[0x61]]))
      (serveDohConn strict some (.ok sampleReply)))
  obtain ⟨hhttp, hstream, hudp⟩ := h (setMsgId sampleReply 7)
  have hok := hhttp.mpr hexchange
  have hframed := hstream.mpr ⟨hok, ⟨_, hmessage⟩, by decide, by decide⟩
  exact ⟨_, _, _, _, round_ofBytes _ _, round_ofBytes _ _, by rw [hback, hframed],
    by rw [hbody, hok], hudp 0 (by decide) (by decide) hframed⟩

end RtProxy.Resolver
