import RtProxy.Lib.HttpBody

/-!
The request side of `forward_request` (`http2_transport.rs`).

A request that came over HTTP/2 is written to the origin as HTTP/1.1.  The fields keep
their order, the connection's own are dropped, and the DATA frames follow the head as
they are: nothing says where they end but a `content-length` the client sent.
-/

namespace RtProxy
namespace Http2

open Http1

/-- A request as the `http` crate hands it over: tokens, targets and values are checked
there, and names are in lower case. -/
structure Request where
  method : Bytes
  method_token : Token method
  pathAndQuery : Option Bytes
  path_target : ∀ path ∈ pathAndQuery, Target path
  authority : Option Bytes
  authority_target : ∀ a ∈ authority, Target a
  headers : List (Bytes × Bytes)
  headers_valid : ∀ field ∈ headers, Token field.1 ∧ Value field.2
  headers_lower : ∀ field ∈ headers, field.1.map lowerByte = field.1
  /-- The DATA frames, in order. -/
  data : List Bytes

/-- `HeaderValue::to_str` succeeds. -/
def toStrByte (b : UInt8) : Bool := (0x20 ≤ b && b < 0x7F) || b = HTAB

/-- Fields of the connection, which are not forwarded. -/
def HOP_BY_HOP : List Bytes :=
  [Text.utf8 "host", Text.utf8 "connection", Text.utf8 "proxy-connection",
    Text.utf8 "proxy-authorization", Text.utf8 "keep-alive", Text.utf8 "transfer-encoding",
    Text.utf8 "upgrade", Text.utf8 "te"]

namespace Request

/-- `serve_request` answers a request that names no host with 400. -/
def Accepted (r : Request) : Prop := r.authority.isSome = true

def path (r : Request) : Bytes := r.pathAndQuery.getD (Text.utf8 "/")

/-- The fields that are forwarded. -/
def forwarded (r : Request) : List (Bytes × Bytes) :=
  r.headers.filter fun field => field.1 ∉ HOP_BY_HOP ∧ field.2.all toStrByte

/-- The head `forward_request` writes. -/
def head (r : Request) (host : Bytes) : Bytes :=
  r.method ++ Text.utf8 " " ++ r.path ++ Text.utf8 " HTTP/1.1\r\n" ++
    Text.utf8 "Host: " ++ r.authority.getD host ++ Text.utf8 "\r\n" ++
    r.forwarded.flatMap (fun field => field.1 ++ Text.utf8 ": " ++ field.2 ++ Text.utf8 "\r\n") ++
    Text.utf8 "Connection: close\r\n\r\n"

def body (r : Request) : Bytes := r.data.flatten

/-- All that is written to the origin. -/
def written (r : Request) (host : Bytes) : Bytes := r.head host ++ r.body

/-- What the h2 crate enforces: a `content-length` is the length of the DATA frames. -/
def LengthChecked (r : Request) : Prop :=
  ∀ field ∈ r.headers, field.1 = CONTENT_LENGTH → decimal? field.2 = some r.body.length

/-- The request says how long its body is. -/
def HasContentLength (r : Request) : Prop := ∃ field ∈ r.headers, field.1 = CONTENT_LENGTH

end Request

/-- The bytes are one request with this body, and nothing after it. -/
def OneRequest (bs body : Bytes) : Prop :=
  ∃ head rest length, parseHead bs = some (head, rest) ∧
    bodyLength (.exactly 0) head.fields = some length ∧ takeBody length rest = some (body, [])

/-! ## The head -/

/-- The fields of the head that is written. -/
def writtenFields (r : Request) (authority : Bytes) : List (Bytes × Bytes) :=
  (Text.utf8 "Host", authority) :: r.forwarded ++ [(Text.utf8 "Connection", Text.utf8 "close")]

theorem path_target (r : Request) : Target r.path := by
  unfold Request.path
  cases hp : r.pathAndQuery with
  | none => decide
  | some p => exact r.path_target p hp

theorem wf_written (r : Request) {authority : Bytes} (h : r.authority = some authority) :
    Head.Wf ⟨r.method, r.path, writtenFields r authority⟩ where
  method := r.method_token
  target := path_target r
  fields := by
    intro field hfield
    rcases List.mem_append.mp hfield with hfield | hfield
    · rcases List.mem_cons.mp hfield with rfl | hfield
      · have hname : Token (Text.utf8 "Host") := by decide
        exact ⟨hname, value_of_target (r.authority_target authority h).2⟩
      · exact r.headers_valid field (List.mem_filter.mp hfield).1
    · rw [List.mem_singleton.mp hfield]
      decide

theorem head_eq (r : Request) {authority : Bytes} (h : r.authority = some authority)
    (host : Bytes) : r.head host = Head.bytes ⟨r.method, r.path, writtenFields r authority⟩ := by
  have hsp : Text.utf8 " " = [SP] := by decide
  have hversion : Text.utf8 " HTTP/1.1\r\n" = SP :: VERSION ++ lineEnd := by decide
  have hhost : Text.utf8 "Host: " = Text.utf8 "Host" ++ [COLON, SP] := by decide
  have hsep : Text.utf8 ": " = [COLON, SP] := by decide
  have hend : Text.utf8 "\r\n" = lineEnd := by decide
  have hclose : Text.utf8 "Connection: close\r\n\r\n" =
      fieldLine (Text.utf8 "Connection", Text.utf8 "close") ++ lineEnd ++ lineEnd := by
    decide
  unfold Request.head Head.bytes writtenFields requestLine
  rw [h, hsp, hversion, hhost, hsep, hend, hclose]
  simp [fieldLine]

/-! ## What the origin makes of it -/

/-- The fields as the origin reads them. -/
def readFields (r : Request) (authority : Bytes) : List (Bytes × Bytes) :=
  (writtenFields r authority).map fun field => (field.1, trimBlanks field.2)

theorem parseHead_written (r : Request) {authority : Bytes} (h : r.authority = some authority)
    (host : Bytes) : parseHead (r.written host) =
      some (⟨r.method, r.path, readFields r authority⟩, r.body) := by
  unfold Request.written
  rw [head_eq r h]
  exact parseHead_bytes (wf_written r h) r.body

/-- The values of a field whose name is neither `Host` nor `Connection`. -/
theorem fieldValues_readFields (r : Request) (authority name : Bytes)
    (hhost : (Text.utf8 "Host").map lowerByte ≠ name)
    (hconn : (Text.utf8 "Connection").map lowerByte ≠ name) :
    fieldValues name (readFields r authority) =
      ((r.forwarded.filter fun field => field.1 = name).map Prod.snd).map trimBlanks := by
  have hlower : ∀ field ∈ r.forwarded, field.1.map lowerByte = field.1 := fun field hfield =>
    r.headers_lower field (List.mem_filter.mp hfield).1
  have hmiddle : (r.forwarded.filter fun field => field.1.map lowerByte = name) =
      r.forwarded.filter fun field => field.1 = name := by
    apply List.filter_congr
    intro field hfield
    rw [hlower field hfield]
  unfold fieldValues readFields writtenFields
  rw [List.filter_map, List.map_map, List.map_map, List.cons_append,
    List.filter_cons_of_neg (by simpa using hhost), List.filter_append,
    List.filter_cons_of_neg (by simpa using hconn), List.filter_nil, List.append_nil, ← hmiddle]
  rfl

theorem trimBlanks_of_forall {bs : Bytes} (h : ∀ b ∈ bs, blankByte b = false) :
    trimBlanks bs = bs := by
  have hdrop : ∀ l : Bytes, (∀ b ∈ l, blankByte b = false) → l.dropWhile blankByte = l := by
    intro l hl
    cases l with
    | nil => rfl
    | cons b l => rw [List.dropWhile_cons_of_neg (by rw [hl b (List.mem_cons_self ..)]; decide)]
  unfold trimBlanks
  rw [hdrop bs h, hdrop bs.reverse fun b hb => h b (List.mem_reverse.mp hb), List.reverse_reverse]

theorem digit_facts {b : UInt8} (h : 0x30 ≤ b ∧ b ≤ 0x39) :
    blankByte b = false ∧ toStrByte b = true := by
  have hall : ∀ n < 256, 0x30 ≤ UInt8.ofNat n ∧ UInt8.ofNat n ≤ 0x39 →
      blankByte (UInt8.ofNat n) = false ∧ toStrByte (UInt8.ofNat n) = true := by
    decide +kernel
  have hb := hall b.toNat b.toNat_lt
  rw [UInt8.ofNat_toNat] at hb
  exact hb h

/-- The lengths the origin finds. -/
theorem contentLength_readFields (r : Request) (authority : Bytes) (hcl : r.LengthChecked) :
    (r.HasContentLength → contentLength (readFields r authority) = some (some r.body.length)) ∧
      (¬ r.HasContentLength → contentLength (readFields r authority) = some none) := by
  have hname : CONTENT_LENGTH ∉ HOP_BY_HOP := by decide
  have hvalues := fieldValues_readFields r authority CONTENT_LENGTH (by decide) (by decide)
  have hall : ∀ n ∈ (fieldValues CONTENT_LENGTH (readFields r authority)).map decimal?,
      n = some r.body.length := by
    intro n hn
    rw [hvalues] at hn
    simp only [List.mem_map, List.mem_filter, decide_eq_true_eq] at hn
    obtain ⟨-, ⟨v, ⟨field, ⟨hfield, hfn⟩, rfl⟩, rfl⟩, rfl⟩ := hn
    have hv := hcl field (List.mem_filter.mp hfield).1 hfn
    have hdigits := (digits_of_decimal? hv).2
    rw [trimBlanks_of_forall fun b hb => (digit_facts (hdigits b hb)).1, hv]
  constructor
  · rintro ⟨field, hfield, hfn⟩
    have hdigits := (digits_of_decimal? (hcl field hfield hfn)).2
    have hfwd : field ∈ r.forwarded := by
      unfold Request.forwarded
      rw [List.mem_filter, decide_eq_true_eq, hfn, List.all_eq_true]
      exact ⟨hfield, hname, fun b hb => (digit_facts (hdigits b hb)).2⟩
    have hmem : decimal? (trimBlanks field.2) ∈
        (fieldValues CONTENT_LENGTH (readFields r authority)).map decimal? := by
      apply List.mem_map_of_mem
      rw [hvalues]
      apply List.mem_map_of_mem
      apply List.mem_map_of_mem (f := Prod.snd)
      rw [List.mem_filter, decide_eq_true_eq]
      exact ⟨hfwd, hfn⟩
    unfold contentLength
    cases hl : (fieldValues CONTENT_LENGTH (readFields r authority)).map decimal? with
    | nil =>
      rw [hl] at hmem
      cases hmem
    | cons n ns =>
      rw [hl] at hall
      have hn := hall n (List.mem_cons_self ..)
      have hns : ∀ m ∈ ns, m = n := fun m hm => (hall m (List.mem_cons_of_mem _ hm)).trans hn.symm
      show (if n.isSome = true ∧ ∀ m ∈ ns, m = n then some n else none) = _
      rw [if_pos ⟨by rw [hn]; rfl, hns⟩, hn]
  · intro hno
    have hnil : (r.forwarded.filter fun field => field.1 = CONTENT_LENGTH) = [] := by
      rw [List.filter_eq_nil_iff]
      intro field hfield hfn
      exact hno ⟨field, (List.mem_filter.mp hfield).1, by simpa using hfn⟩
    unfold contentLength
    rw [hvalues, hnil]
    rfl

/-- No transfer coding reaches the origin. -/
theorem bodyLength_readFields (r : Request) (authority : Bytes) (default : BodyLength) :
    bodyLength default (readFields r authority) =
      (contentLength (readFields r authority)).map fun n => (n.map .exactly).getD default := by
  have hnil : (r.forwarded.filter fun field => field.1 = TRANSFER_ENCODING) = [] := by
    rw [List.filter_eq_nil_iff]
    intro field hfield hfn
    have hkeep := (List.mem_filter.mp hfield).2
    rw [decide_eq_true_eq] at hkeep hfn
    rw [hfn] at hkeep
    exact hkeep.1 (by decide)
  unfold bodyLength
  rw [fieldValues_readFields r authority TRANSFER_ENCODING (by decide) (by decide), hnil]
  rfl

theorem oneRequest_iff (r : Request) {authority : Bytes} (hauth : r.authority = some authority)
    (host : Bytes) {n : Nat}
    (hn : bodyLength (.exactly 0) (readFields r authority) = some (.exactly n)) :
    OneRequest (r.written host) r.body ↔ n = r.body.length := by
  constructor
  · rintro ⟨head, rest, length, hhead, hlength, hbody⟩
    rw [parseHead_written r hauth] at hhead
    cases hhead
    rw [hn] at hlength
    cases hlength
    exact takeBody_exactly.mp hbody
  · intro hbody
    exact ⟨_, _, _, parseHead_written r hauth host, hn, takeBody_exactly.mpr hbody⟩

/-- The origin reads exactly one request with the body of the DATA frames if and only if
there are no bytes in them or the client sent a `content-length`. -/
theorem forward_request_framing (r : Request) (hr : r.Accepted) (hcl : r.LengthChecked)
    (host : Bytes) :
    OneRequest (r.written host) r.body ↔ r.body = [] ∨ r.HasContentLength := by
  obtain ⟨authority, hauth⟩ := Option.isSome_iff_exists.mp hr
  obtain ⟨hwith, hwithout⟩ := contentLength_readFields r authority hcl
  have hlength := bodyLength_readFields r authority (.exactly 0)
  by_cases hhas : r.HasContentLength
  · rw [hwith hhas] at hlength
    rw [oneRequest_iff r hauth host hlength]
    exact iff_of_true rfl (.inr hhas)
  · rw [hwithout hhas] at hlength
    rw [oneRequest_iff r hauth host hlength, eq_comm, List.length_eq_zero_iff]
    exact (or_iff_left hhas).symm

/-- A POST of these bytes, with these fields. -/
def post (headers : List (Bytes × Bytes))
    (hvalid : ∀ field ∈ headers, Token field.1 ∧ Value field.2)
    (hlower : ∀ field ∈ headers, field.1.map lowerByte = field.1) (data : List Bytes) : Request :=
  { method := Text.utf8 "POST"
    method_token := by decide
    pathAndQuery := some (Text.utf8 "/")
    path_target := by
      intro path hpath
      cases hpath
      decide
    authority := some (Text.utf8 "a")
    authority_target := by
      intro a ha
      cases ha
      decide
    headers := headers
    headers_valid := hvalid
    headers_lower := hlower
    data := data }

/-- With a `content-length` the body is found. -/
theorem forward_request_framing_post :
    ∃ r : Request, r.body = Text.utf8 "hi" ∧ OneRequest (r.written []) r.body := by
  have hforall : ∀ {P : Bytes × Bytes → Prop}, P (CONTENT_LENGTH, Text.utf8 "2") →
      ∀ field ∈ [(CONTENT_LENGTH, Text.utf8 "2")], P field := by
    intro P hP field hfield
    rw [List.mem_singleton.mp hfield]
    exact hP
  let r := post [(CONTENT_LENGTH, Text.utf8 "2")]
    (hforall (by decide)) (hforall (by decide)) [Text.utf8 "h", Text.utf8 "i"]
  have hbody : [Text.utf8 "h", Text.utf8 "i"].flatten = Text.utf8 "hi" := by decide
  have hlen : decimal? (Text.utf8 "2") = some (Text.utf8 "hi").length := by decide
  have hcl : r.LengthChecked := hforall fun _ => hlen.trans (by rw [← hbody]; rfl)
  exact ⟨r, hbody, (forward_request_framing r rfl hcl []).mpr
    (.inr ⟨_, List.mem_singleton_self _, rfl⟩)⟩

/-- Without one, the bytes of the DATA frame are read as a request of their own. -/
theorem forward_request_smuggles :
    ∃ r : Request, r.Accepted ∧ r.LengthChecked ∧ ¬ OneRequest (r.written []) r.body ∧
      ∃ head second, parseHead (r.written []) = some (head, r.body) ∧
        bodyLength (.exactly 0) head.fields = some (.exactly 0) ∧
        parseHead r.body = some (second, []) := by
  let r := post [] (List.forall_mem_nil _) (List.forall_mem_nil _)
    [Text.utf8 "GET /admin HTTP/1.1\r\nHost: a\r\n\r\n"]
  have hlength : bodyLength (.exactly 0) (readFields r (Text.utf8 "a")) = some (.exactly 0) := by
    decide
  refine ⟨r, rfl, List.forall_mem_nil _, ?_, _,
    ⟨Text.utf8 "GET", Text.utf8 "/admin", [(Text.utf8 "Host", Text.utf8 "a")]⟩,
    parseHead_written r rfl [], hlength, by decide⟩
  rw [oneRequest_iff r rfl [] hlength]
  decide

end Http2
end RtProxy
