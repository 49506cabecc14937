import RtProxy.Resolver.Questions

/-!
The DNS server over UDP (`dns_proxy.rs`).

A reply that is too long for its client is replaced by one that has only the questions, and
tells it to come back over TCP.  The questions are written from their texts, without
pointers, and so they may themselves be too long, or not be written at all.
-/

namespace RtProxy.Resolver

open Bytes

def MIN_UDP_SIZE : Nat := 512
def MAX_UDP_SIZE : Nat := 65535

def udpBufferSize (configured : Nat) : Nat := max MIN_UDP_SIZE (min configured MAX_UDP_SIZE)

/-- `exchange`, for what the cache or the name servers answer. -/
def exchange (answer : Except String Bytes) (query : Bytes) : Except String Bytes := do
  let mq ← Message.decode query
  if mq.questions = [] then .error "empty question"
  else
    let bytes ← answer
    .ok (setMsgId bytes mq.id)

def exchangeLogged (answer : Except String Bytes) (query : Bytes) : Except String Bytes :=
  match Message.decode query with
  | .error e => .error s!"request unpack: {e}"
  | .ok _ =>
    match exchange answer query with
    | .error e => .error s!"exchange: {e}"
    | .ok reply =>
      match Message.decode reply with
      | .error e => .error s!"reply unpack: {e}"
      | .ok _ => .ok reply

/-- QR and TC, and the RD of the request. -/
def truncatedFlags (flags : UInt16) : UInt16 := 0x8000 ||| 0x0200 ||| (flags &&& 0x0100)

/-- The questions of a message and nothing else. -/
def Message.truncated (mq : Message) : Message :=
  { id := mq.id, flags := truncatedFlags mq.flags, questions := mq.questions, answers := []
    authorities := [], additionals := [] }

def truncatedResponse (query : Bytes) : Option Bytes := do
  let mq ← (Message.decode query).toOption
  mq.truncated.encode.toOption

/-- How long a reply the client takes. -/
def udpLimit (query : Bytes) : Nat :=
  match (Message.decode query).toOption.bind Message.edns0UdpSize with
  | some size => udpBufferSize size.toNat
  | none => MIN_UDP_SIZE

/-- What `serve_udp` sends back for a datagram; its buffer takes the front of it. -/
def serveUdp (udpSize : Nat) (answer : Except String Bytes) (datagram : Bytes) : Option Bytes :=
  let query := datagram.take (udpBufferSize udpSize)
  match exchangeLogged answer query with
  | .error _ => none
  | .ok reply =>
    some (if udpLimit query < reply.length then (truncatedResponse query).getD reply else reply)

/-! ## The truncated reply -/

/-- The bytes of the questions as they are written. -/
def echoLength (qs : List Question) : Nat :=
  (qs.map fun q => (Dns.encodeLabels (labelsOf q.name)).length + 4).sum

/-- The questions of a query can be written, and in so much room. -/
def Echoes (mq : Message) (limit : Nat) : Prop :=
  (∀ q ∈ mq.questions, NameFits q.name) ∧ 12 + echoLength mq.questions ≤ limit

theorem length_encodeQuestion {q : Question} {bs : Bytes} (h : q.encode = .ok bs) :
    bs.length = (Dns.encodeLabels (labelsOf q.name)).length + 4 := by
  obtain ⟨name, hname, hok⟩ := Except.bind_eq_ok_iff.mp h
  cases hok
  rw [(encodeName_eq_ok.mp hname).2]
  simp only [List.length_append, length_be]

theorem length_encodeQuestions {qs : List Question} {bs : Bytes}
    (h : encodeAll Question.encode qs = .ok bs) : bs.length = echoLength qs := by
  induction qs generalizing bs with
  | nil =>
    cases h
    rfl
  | cons q qs ih =>
    obtain ⟨first, more, hfirst, hmore, rfl⟩ := encodeAll_cons.mp h
    rw [List.length_append, length_encodeQuestion hfirst, ih hmore]
    rfl

/-- What is written for a truncated reply. -/
theorem Message.encode_truncated {mq : Message} {bs : Bytes} (h : mq.truncated.encode = .ok bs) :
    bs.length = 12 + echoLength mq.questions ∧
      At bs 0 (be 2 mq.id.toNat ++ be 2 (truncatedFlags mq.flags).toNat) := by
  obtain ⟨questions, hquestions, hrest⟩ := Except.bind_eq_ok_iff.mp h
  cases hrest
  have hheader : mq.truncated.header.length = 12 := by simp [Message.header]
  constructor
  · simp only [List.length_append, hheader, length_encodeQuestions hquestions, List.length_nil]
    rfl
  · exact ⟨_, by simp only [Message.header, List.append_assoc]; rfl⟩

theorem Message.encode_truncated_ok_iff {mq : Message} :
    (∃ bs, mq.truncated.encode = .ok bs) ↔ ∀ q ∈ mq.questions, NameFits q.name := by
  rw [Message.encode_ok_iff]
  exact and_iff_left fun rr hrr => absurd hrr List.not_mem_nil

theorem truncatedFlags_tc (flags : UInt16) : truncatedFlags flags &&& 0x0200 ≠ 0 := by
  intro h
  have hbit := congrArg (fun x => x.toBitVec.getLsbD 9) h
  simp [truncatedFlags] at hbit

theorem length_setMsgId (buf : Bytes) (id : UInt16) : (setMsgId buf id).length = buf.length := by
  unfold setMsgId
  split_ifs with h
  · rw [List.length_append, length_be, List.length_drop]
    omega
  · rfl

/-! ## Replies that fit -/

/-- The size a query advertises, if it advertises one. -/
def Message.advertised (mq : Message) : Nat := mq.edns0UdpSize.elim 0 UInt16.toNat

/-- How long a reply to the query may be. -/
def Message.room (mq : Message) : Nat := max 512 mq.advertised

theorem udpLimit_eq {query : Bytes} {mq : Message} (h : Message.decode query = .ok mq) :
    udpLimit query = mq.room := by
  unfold udpLimit Message.room Message.advertised
  rw [h]
  show (match mq.edns0UdpSize with
    | some size => udpBufferSize size.toNat
    | none => MIN_UDP_SIZE) = _
  cases mq.edns0UdpSize with
  | none => rfl
  | some size =>
    have hlt := size.toNat_lt
    show max 512 (min size.toNat 65535) = max 512 size.toNat
    omega

/-- What is sent is not longer than the query allows, and in the place of a longer reply it
has the id of the query and the bit TC. -/
def FitsClient (mq : Message) (bytes out : Bytes) : Prop :=
  out.length ≤ mq.room ∧
    (mq.room < bytes.length →
      ∃ flags : UInt16, At out 0 (be 2 mq.id.toNat ++ be 2 flags.toNat) ∧ flags &&& 0x0200 ≠ 0)

/-- Only a query with questions is answered, and only by a message. -/
theorem exchangeLogged_eq_ok {answer : Except String Bytes} {query reply : Bytes} :
    exchangeLogged answer query = .ok reply ↔
      ∃ mq bytes mr, Message.decode query = .ok mq ∧ mq.questions ≠ [] ∧ answer = .ok bytes ∧
        Message.decode (setMsgId bytes mq.id) = .ok mr ∧ reply = setMsgId bytes mq.id := by
  have hexchange {reply : Bytes} : exchange answer query = .ok reply ↔
      ∃ mq bytes, Message.decode query = .ok mq ∧ mq.questions ≠ [] ∧ answer = .ok bytes ∧
        reply = setMsgId bytes mq.id := by
    unfold exchange
    rw [Except.bind_eq_ok_iff]
    constructor
    · rintro ⟨mq, hquery, h⟩
      split_ifs at h with hnone
      obtain ⟨bytes, hanswer, hok⟩ := Except.bind_eq_ok_iff.mp h
      cases hok
      exact ⟨mq, bytes, hquery, hnone, hanswer, rfl⟩
    · rintro ⟨mq, bytes, hquery, hsome, rfl, rfl⟩
      exact ⟨mq, hquery, if_neg hsome⟩
  unfold exchangeLogged
  constructor
  · intro h
    cases hquery : Message.decode query with
    | error e =>
      rw [hquery] at h
      cases h
    | ok mq =>
      rw [hquery] at h
      cases hlogged : exchange answer query with
      | error e =>
        rw [hlogged] at h
        cases h
      | ok bytes =>
        rw [hlogged] at h
        simp only at h
        cases hreply : Message.decode bytes with
        | error e =>
          rw [hreply] at h
          cases h
        | ok mr =>
          rw [hreply] at h
          cases h
          obtain ⟨mq', bytes', hquery', hsome, hanswer, rfl⟩ := hexchange.mp hlogged
          rw [hquery] at hquery'
          cases hquery'
          exact ⟨mq, bytes', mr, rfl, hsome, hanswer, hreply, rfl⟩
  · rintro ⟨mq, bytes, mr, hquery, hsome, hanswer, hreply, rfl⟩
    rw [hexchange.mpr ⟨mq, bytes, hquery, hsome, hanswer, rfl⟩, hquery]
    simp only [hreply]

/-- Nothing is sent, or a reply to a query with questions. -/
theorem serveUdp_eq_some {udpSize : Nat} {answer : Except String Bytes} {datagram out : Bytes} :
    serveUdp udpSize answer datagram = some out ↔
      ∃ mq bytes mr, Message.decode (datagram.take (udpBufferSize udpSize)) = .ok mq ∧
        mq.questions ≠ [] ∧ answer = .ok bytes ∧ Message.decode (setMsgId bytes mq.id) = .ok mr ∧
        out = if mq.room < bytes.length then
          mq.truncated.encode.toOption.getD (setMsgId bytes mq.id) else setMsgId bytes mq.id := by
  have hsent {mq : Message} (bytes : Bytes)
      (hquery : Message.decode (datagram.take (udpBufferSize udpSize)) = .ok mq) :
      (if udpLimit (datagram.take (udpBufferSize udpSize)) < (setMsgId bytes mq.id).length then
          (truncatedResponse (datagram.take (udpBufferSize udpSize))).getD (setMsgId bytes mq.id)
        else setMsgId bytes mq.id) =
      if mq.room < bytes.length then
        mq.truncated.encode.toOption.getD (setMsgId bytes mq.id) else setMsgId bytes mq.id := by
    unfold truncatedResponse
    rw [udpLimit_eq hquery, length_setMsgId, hquery]
    rfl
  unfold serveUdp
  constructor
  · intro h
    cases hlogged : exchangeLogged answer (datagram.take (udpBufferSize udpSize)) with
    | error e =>
      simp only [hlogged] at h
      cases h
    | ok reply =>
      obtain ⟨mq, bytes, mr, hquery, hsome, hanswer, hreply, rfl⟩ := exchangeLogged_eq_ok.mp hlogged
      simp only [hlogged, hsent bytes hquery] at h
      cases h
      exact ⟨mq, bytes, mr, hquery, hsome, hanswer, hreply, rfl⟩
  · rintro ⟨mq, bytes, mr, hquery, hsome, hanswer, hreply, rfl⟩
    simp only [exchangeLogged_eq_ok.mpr ⟨mq, bytes, mr, hquery, hsome, hanswer, hreply, rfl⟩,
      hsent bytes hquery]

/-- A long reply fits if the truncated one does. -/
theorem fitsClient_iff {mq : Message} {bytes : Bytes} :
    FitsClient mq bytes (if mq.room < bytes.length then
        mq.truncated.encode.toOption.getD (setMsgId bytes mq.id) else setMsgId bytes mq.id) ↔
      bytes.length ≤ mq.room ∨ Echoes mq mq.room := by
  by_cases hlong : mq.room < bytes.length
  · rw [if_pos hlong, or_iff_right (by omega)]
    cases hencode : mq.truncated.encode with
    | error e =>
      refine iff_of_false (fun h => ?_) (fun h => ?_)
      · have hle : (setMsgId bytes mq.id).length ≤ mq.room := h.1
        rw [length_setMsgId] at hle
        omega
      · obtain ⟨bs, hbs⟩ := Message.encode_truncated_ok_iff.mpr h.1
        rw [hencode] at hbs
        cases hbs
    | ok bs =>
      obtain ⟨hlen, hat⟩ := Message.encode_truncated hencode
      show bs.length ≤ mq.room ∧ _ ↔ _ ∧ _
      rw [hlen]
      constructor
      · exact fun h => ⟨Message.encode_truncated_ok_iff.mp ⟨bs, hencode⟩, h.1⟩
      · exact fun h => ⟨h.2, fun _ => ⟨_, hat, truncatedFlags_tc _⟩⟩
  · rw [if_neg hlong]
    refine iff_of_true ⟨?_, fun h => absurd h hlong⟩ (.inl (Nat.not_lt.mp hlong))
    rw [length_setMsgId]
    exact Nat.not_lt.mp hlong

/-- What is sent fits the client exactly if no reply is too long, or the questions of the
query can be written as they are and have room. -/
theorem serve_udp_fits_iff (udpSize : Nat) (answer : Except String Bytes) (datagram : Bytes) :
    (∀ out, serveUdp udpSize answer datagram = some out →
        ∃ mq bytes, Message.decode (datagram.take (udpBufferSize udpSize)) = .ok mq ∧
          answer = .ok bytes ∧ FitsClient mq bytes out) ↔
      ∀ mq bytes mr, Message.decode (datagram.take (udpBufferSize udpSize)) = .ok mq →
        mq.questions ≠ [] → answer = .ok bytes → Message.decode (setMsgId bytes mq.id) = .ok mr →
          bytes.length ≤ mq.room ∨ Echoes mq mq.room := by
  simp only [serveUdp_eq_some]
  constructor
  · intro h mq bytes mr hquery hsome hanswer hreply
    obtain ⟨mq', bytes', hquery', hanswer', hfits⟩ :=
      h _ ⟨mq, bytes, mr, hquery, hsome, hanswer, hreply, rfl⟩
    rw [hquery] at hquery'
    rw [hanswer] at hanswer'
    cases hquery'
    cases hanswer'
    exact fitsClient_iff.mp hfits
  · rintro h out ⟨mq, bytes, mr, hquery, hsome, hanswer, hreply, rfl⟩
    exact ⟨mq, bytes, hquery, hanswer,
      fitsClient_iff.mpr (h mq bytes mr hquery hsome hanswer hreply)⟩

/-- A name of one label whose text is longer than a label may be. -/
def longLabel : Dns.Label := List.replicate 22 0xFF

def longReply : Bytes := sampleReply ++ List.replicate 501 0

/-- What is behind a message is ignored. -/
theorem decode_sampleReply_append (more : Bytes) :
    Message.decode (setMsgId (sampleReply ++ more) 7) = .ok sampleMessage := by
  have hset : setMsgId (sampleReply ++ more) 7 = sampleReply ++ more :=
    if_pos (by simp [sampleReply])
  have hzero : 0 < 65536 := by decide
  rw [hset]
  exact Message.decode_eq_ok.mpr ⟨⟨7, 0x8180, [], [], [], []⟩,
    ⟨hzero, hzero, hzero, hzero, ⟨_, rfl⟩, 12, 12, 12, 12, .nil _, .nil _, .nil _, .nil _⟩, rfl⟩

/-- The questions of this query cannot be written, and the long reply is sent as it is. -/
theorem serve_udp_oversized :
    ∃ out mq, serveUdp 0 (.ok longReply) (addressPacket [longLabel]) = some out ∧
      Message.decode (addressPacket [longLabel]) = .ok mq ∧ ¬ FitsClient mq longReply out := by
  have hw : Dns.ReadsMessage (addressPacket [longLabel]) (addressQuery [longLabel]) :=
    reads_addressPacket (by decide)
  have hquery := Message.decode_eq_ok.mpr ⟨_, hw, rfl⟩
  refine ⟨_, _, serveUdp_eq_some.mpr ⟨_, longReply, sampleMessage, hquery, List.cons_ne_nil _ _,
    rfl, decode_sampleReply_append _, rfl⟩, hquery, fun hfits => ?_⟩
  rcases fitsClient_iff.mp hfits with hshort | hechoes
  · have hlen : longReply.length = 513 := by
      rw [longReply, List.length_append, List.length_replicate]
      rfl
    rw [hlen] at hshort
    exact absurd hshort (by decide)
  · have hfits : ∀ l ∈ labelsOf (printName [longLabel]), l.length < 64 :=
      hechoes.1 _ List.mem_cons_self
    exact absurd hfits (by decide)

end RtProxy.Resolver
