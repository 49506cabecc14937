import RtProxy.Chain.ConnectAgreement
import RtProxy.Obfs.ClientHello
import RtProxy.Obfs.Records
import RtProxy.Io

/-!
The handshake of `otls` (`obfs_transport.rs`).

The client sends its hello and reads nothing.  The server reads the hello and leaves its
reply in the queue of the stream, so that it goes out in front of the first write.
-/

namespace RtProxy

open ByteStream

/-- A write that ends has handed over all its bytes. -/
theorem sent_writeAll {bs : Bytes} {dst dst' : Outbound IoError} (hw : dst.Willing)
    (h : writeAll bs dst = (some (.ok ()), dst')) : dst'.sent = dst.sent ++ bs ∧ dst'.Willing := by
  let inv (s : Cursor × Outbound IoError) : Prop :=
    s.2.sent ++ s.1.rest = dst.sent ++ bs ∧ s.2.Willing
  have hstep (s : Cursor × Outbound IoError) (hs : inv s) : inv (drainOut writeZeroErr s.1 s.2).2 :=
    ⟨(drainOut_spec writeZeroErr s.1 s.2).trans hs.1, willing_drainOut hs.2⟩
  have hwait : ∀ s s', inv s → drainOut writeZeroErr s.1 s.2 = (.pending, s') → inv s' := by
    intro s s' hs hpoll
    have hnext := hstep s hs
    rwa [hpoll] at hnext
  obtain ⟨s, s', hs, hcases⟩ := @await_cases _ _
    (fun s : Cursor × Outbound IoError => drainOut writeZeroErr s.1 s.2) (fun s => Grants.waits s.2)
    inv hwait (.ofBytes bs, dst) ⟨rfl, hw⟩
  unfold writeAll at h
  rcases hcases with ⟨out, hpoll, hawait⟩ | ⟨-, hawait⟩
  · rw [hawait] at h
    obtain ⟨hout, rfl⟩ := Prod.mk.inj h
    cases hout
    have hnext := hstep s hs
    have hrest : (drainOut writeZeroErr s.1 s.2).2.1.rest = [] :=
      drainOut_done (congrArg Prod.fst hpoll)
    rw [hpoll] at hnext hrest
    obtain ⟨hsent, hwill⟩ := hnext
    rw [hrest, List.append_nil] at hsent
    exact ⟨hsent, hwill⟩
  · rw [hawait] at h
    cases h

theorem sent_flushAll {dst dst' : Outbound IoError} {out : Except IoError Unit} (hw : dst.Willing)
    (h : flushAll dst = (some out, dst')) : dst'.sent = dst.sent ∧ dst'.Willing := by
  let inv (s : Outbound IoError) : Prop := s.sent = dst.sent ∧ s.Willing
  have hstep (s : Outbound IoError) (hs : inv s) : inv s.finish.2 :=
    ⟨(Outbound.sent_finish s).trans hs.1, Sni.willing_finish hs.2⟩
  have hwait : ∀ s s', inv s → Outbound.finish s = (.pending, s') → inv s' := by
    intro s s' hs hpoll
    have hnext := hstep s hs
    rwa [hpoll] at hnext
  obtain ⟨s, s', hs, hcases⟩ :=
    @await_cases _ _ Outbound.finish Grants.waits inv hwait dst ⟨rfl, hw⟩
  unfold flushAll at h
  rcases hcases with ⟨out', hpoll, hawait⟩ | ⟨-, hawait⟩
  · rw [hawait] at h
    obtain ⟨-, rfl⟩ := Prod.mk.inj h
    have hnext := hstep s hs
    rwa [hpoll] at hnext
  · rw [hawait] at h
    cases h

namespace Obfs

open Bytes

def EXT_RENEGOTIATION_INFO : UInt16 := 0xff01

section

variable (time : UInt32) (rng : Rng) (sessionId : Bytes)

def serverExtensions : Bytes :=
  putExt EXT_RENEGOTIATION_INFO [0x00] ++ putExt EXT_EXTENDED_MASTER_SECRET [] ++
    putExt EXT_EC_POINT_FORMATS [0x01, 0x00]

def serverHello : Bytes :=
  [0x03, 0x03] ++ be 4 time.toNat ++ (rng.fillBytes 28).1 ++ [UInt8.ofNat sessionId.length] ++
    sessionId ++ be 2 0xcca8 ++ [0x00] ++ be 2 serverExtensions.length ++ serverExtensions

/-- The body of the first record; its length has three bytes. -/
def serverHandshake : Bytes :=
  0x02 :: (be 3 (serverHello time rng sessionId).length ++ serverHello time rng sessionId)

/-- `build_server_reply`, at a time and with the bytes that are drawn. -/
def buildServerReply : Bytes :=
  record REC_HANDSHAKE [0x03, 0x01] (serverHandshake time rng sessionId) ++
    record REC_CHANGE_CIPHER_SPEC [0x03, 0x03] [0x01]

end

/-- `otls_connect`, at a time and with the bytes that are drawn. -/
def otlsConnect (time : UInt32) (rng : Rng) (stream : Transport) (host : String) :
    Option (Except ObfsError ObfsTlsStream) × Outbound IoError :=
  andThen (onPart .io id (writeAll (buildClientHello time rng host []) stream.outbound))
    fun _ outbound =>
  andThen (onPart .io id (flushAll outbound)) fun _ outbound =>
  (some (.ok (.new ⟨stream.inbound, outbound⟩ [] [] true)), outbound)

/-- What the server makes of a hello that it has read. -/
def answer (time : UInt32) (rng : Rng) (stream : Transport) (hello : Bytes) :
    Except Panic ObfsTlsStream := do
  let sessionId ← sessionIdOf hello
  let ready := (← sessionTicketOf hello).getD []
  return .new stream ready (buildServerReply time rng sessionId) false

/-- `otls_accept`, at a time and with the bytes that are drawn. -/
def otlsAccept (time : UInt32) (rng : Rng) (stream : Transport) :
    Option (Except ObfsError (Except Panic ObfsTlsStream)) × Inbound IoError :=
  andThen (onPart .io id (readExact 5 stream.inbound)) fun header inbound =>
  if header.getD 0 0 ≠ REC_HANDSHAKE then
    (some (.error (.text "obfs-tls: not a handshake record")), inbound)
  else if ObfsTlsStream.bodyLen header > MAX_TLS_DATA_LEN + 2048 then
    (some (.error (.text "obfs-tls: oversized ClientHello")), inbound)
  else
    andThen (onPart .io id (readExact (ObfsTlsStream.bodyLen header) inbound))
      fun hello inbound =>
    (some (.ok (answer time rng { stream with inbound := inbound } hello)), inbound)

open ObfsTlsStream

/-! ## The server -/

section

variable {time : UInt32} {rng : Rng} {src : Inbound IoError} {dst : Outbound IoError}

/-- A header is that of the bytes it is taken off. -/
theorem header_eq {bs : Bytes} (h : REC_HEADER_LEN ≤ bs.length) :
    (bs.take 5).getD 0 0 = bs.getD 0 0 ∧ bodyLen (bs.take 5) = bodyLen bs := by
  simp only [REC_HEADER_LEN] at h
  have hlen : ¬ (bs.take 5).length < REC_HEADER_LEN := by
    rw [List.length_take, REC_HEADER_LEN]
    omega
  have hbody := bodyLen_append hlen (bs.drop 5)
  rw [List.take_append_drop] at hbody
  refine ⟨?_, hbody.symm⟩
  cases bs with
  | nil => simp at h
  | cons b bs => rfl

/-- The rest of the transport behind the bytes that were read. -/
theorem content_of_gives_take {n : Nat} {src' : Inbound IoError}
    (h : src.Gives (src.content.take n) src') : src'.content = src.content.drop n := by
  have hcontent := h.content
  rw [← List.take_append_drop n src.content, List.take_append_drop] at hcontent
  exact (List.append_cancel_left ((List.take_append_drop n src.content).trans hcontent)).symm

/-- What the server does with a header that stands for a record. -/
theorem otlsAccept_header {len : Nat} (hlen : REC_HEADER_LEN ≤ src.content.length)
    (hfirst : src.content.getD 0 0 = REC_HANDSHAKE) (hbody : bodyLen src.content = len)
    (hle : len ≤ MAX_TLS_DATA_LEN + 2048) (hu : ∀ e, .error e ∉ src.arrivals) :
    ∃ src₁, src.Gives (src.content.take 5) src₁ ∧ otlsAccept time rng ⟨src, dst⟩ =
      andThen (onPart .io id (readExact len src₁)) fun hello src' =>
        (some (.ok (answer time rng ⟨src', dst⟩ hello)), src') := by
  obtain ⟨src₁, hread, hg⟩ := (readExact_spec 5 hu).1 hlen
  obtain ⟨hfirst', hbody'⟩ := header_eq hlen
  refine ⟨src₁, hg, ?_⟩
  unfold otlsAccept
  simp only [hread, andThen_onPart_ok]
  rw [hfirst', hfirst, hbody', hbody, if_neg (by simp), if_neg (by omega)]
  rfl

/-- The server reads a whole handshake record, and no byte behind it. -/
theorem otlsAccept_record {r : Record} {rest : Bytes} (hkind : r.kind = REC_HANDSHAKE)
    (hu : ∀ e, .error e ∉ src.arrivals) (hp : src.content = r.encode ++ rest) :
    ∃ src', otlsAccept time rng ⟨src, dst⟩ =
        (some (.ok (answer time rng ⟨src', dst⟩ r.payload)), src') ∧ src.Gives r.encode src' := by
  obtain ⟨hfirst, hbody, hdrop⟩ := r.encode_parts rest
  rw [← hp] at hfirst hbody hdrop
  have hlen : src.content.length = REC_HEADER_LEN + r.payload.length + rest.length := by
    rw [hp, List.length_append, Record.length_encode]
  obtain ⟨src₁, hg, hstep⟩ := @otlsAccept_header time rng _ dst _ (by omega) (hfirst.trans hkind)
    hbody r.le hu
  have hrest : src₁.content = r.payload ++ rest := (content_of_gives_take hg).trans hdrop
  obtain ⟨src', hread, hg'⟩ := (readExact_spec r.payload.length (hg.unfailing hu)).1 (by
    rw [hrest, List.length_append]
    omega)
  rw [hrest, List.take_left] at hread hg'
  refine ⟨src', by rw [hstep, hread]; rfl, ?_⟩
  have hall := hg.trans hg'
  have hlen' : (src.content.take 5 ++ r.payload).length = r.encode.length := by
    rw [List.length_append, List.length_take, Record.length_encode, REC_HEADER_LEN]
    simp only [REC_HEADER_LEN] at hlen
    omega
  rwa [List.append_inj_left (hall.content.symm.trans hp) hlen'] at hall

/-- A server that is given a part of a handshake record waits for the rest, or fails. -/
theorem otlsAccept_part {r : Record} (hkind : r.kind = REC_HANDSHAKE)
    (hu : ∀ e, .error e ∉ src.arrivals) (hp : src.content <+: r.encode)
    (hne : src.content ≠ r.encode) : (otlsAccept time rng ⟨src, dst⟩).1 =
      if src.closed then some (.error (.io earlyEofErr)) else none := by
  have hlt := length_lt_of_isPrefix hp hne
  rw [Record.length_encode] at hlt
  obtain ⟨rest, hrest⟩ := hp
  obtain ⟨hfirst, hbody, -⟩ := r.encode_parts []
  rw [List.append_nil, ← hrest] at hfirst hbody
  by_cases hshort : src.content.length < REC_HEADER_LEN
  · have hread := (readExact_spec 5 hu).2 hshort
    unfold otlsAccept
    revert hread
    rcases readExact 5 src with ⟨out, src₁⟩
    rintro rfl
    split <;> rfl
  · rw [bodyLen_append hshort] at hbody
    have hfirst' : src.content.getD 0 0 = r.kind := by
      rw [← hfirst]
      cases hc : src.content with
      | nil => simp [hc, REC_HEADER_LEN] at hshort
      | cons b bs => rfl
    obtain ⟨src₁, hg, hstep⟩ := @otlsAccept_header time rng _ dst _ (by omega) (hfirst'.trans hkind)
      hbody r.le hu
    have hcontent := content_of_gives_take hg
    have hread := (readExact_spec r.payload.length (hg.unfailing hu)).2 (by
      rw [hcontent, List.length_drop]
      simp only [REC_HEADER_LEN] at hlt hshort
      omega)
    rw [hstep, ← hg.closed]
    revert hread
    rcases readExact r.payload.length src₁ with ⟨out, src₂⟩
    rintro rfl
    split <;> rfl

end

/-! ## What the two ends begin with -/

section

variable (time : UInt32) (rng : Rng) (host : String) (payload : Bytes)

/-- The first record of a client. -/
def helloRecord (h : (buildClientHello time rng host payload).length ≤
    REC_HEADER_LEN + (MAX_TLS_DATA_LEN + 2048)) : Record where
  kind := REC_HANDSHAKE
  version := [0x03, 0x01]
  payload := handshake time rng host payload
  version_length := rfl
  le := by
    rw [length_buildClientHello] at h
    omega

theorem answer_hello (h : (buildClientHello time rng host payload).length ≤
    REC_HEADER_LEN + (MAX_TLS_DATA_LEN + 2048)) (time' : UInt32) (rng' : Rng) (stream : Transport) :
    answer time' rng' stream (handshake time rng host payload) =
      .ok (.new stream payload (buildServerReply time' rng' (drawn rng).2) false) := by
  obtain ⟨hticket, hid⟩ := readers_find time rng host payload h
  rw [answer, hid, hticket]
  rfl

variable {sessionId : Bytes}

theorem length_serverHandshake : (serverHandshake time rng sessionId).length =
    59 + sessionId.length := by
  have hrandom : (rng.fillBytes 28).1.length = 28 := Rng.length_fillBytes _ _
  have hexts : serverExtensions.length = 15 := by decide
  simp [serverHandshake, serverHello, hrandom, hexts]
  omega

theorem serverHandshake_le (h : sessionId.length ≤ 255) :
    (serverHandshake time rng sessionId).length ≤ MAX_TLS_DATA_LEN + 2048 := by
  rw [length_serverHandshake, MAX_TLS_DATA_LEN]
  omega

theorem changeCipherSpec_le : ([0x01] : Bytes).length ≤ MAX_TLS_DATA_LEN + 2048 := by decide

theorem length_tls10 : ([0x03, 0x01] : Bytes).length = 2 := rfl

theorem length_tls12 : ([0x03, 0x03] : Bytes).length = 2 := rfl

/-- The two records of the reply. -/
def replyRecords (h : sessionId.length ≤ 255) : List Record :=
  [{ kind := REC_HANDSHAKE
     version := [0x03, 0x01]
     payload := serverHandshake time rng sessionId
     version_length := length_tls10
     le := serverHandshake_le time rng h },
   { kind := REC_CHANGE_CIPHER_SPEC
     version := [0x03, 0x03]
     payload := [0x01]
     version_length := length_tls12
     le := changeCipherSpec_le }]

theorem encode_replyRecords (h : sessionId.length ≤ 255) :
    (replyRecords time rng h).flatMap Record.encode = buildServerReply time rng sessionId := by
  simp [replyRecords, Record.encode, buildServerReply]

theorem contents_false (rs : List Record) :
    contents false rs = (rs.map Record.payload).flatten := by
  induction rs with
  | nil => rfl
  | cons r rs ih => simp [contents, ih]

/-- The reply is passed over, and nothing behind it. -/
theorem contents_reply (h : sessionId.length ≤ 255) (rs : List Record) :
    contents true (replyRecords time rng h ++ rs) = (rs.map Record.payload).flatten := by
  simp [replyRecords, contents, contents_false, REC_HANDSHAKE, REC_CHANGE_CIPHER_SPEC]

end

theorem between_cons {r : Record} {rs : List Record} {p : Bytes} :
    Between (r :: rs) (r.encode ++ p) ↔ Between rs p := by
  constructor
  · rintro ⟨front, hpre, hp⟩
    cases front with
    | nil => exact absurd (List.append_eq_nil_iff.mp hp).1 r.encode_ne_nil
    | cons r' front =>
      obtain ⟨rfl, hpre'⟩ := List.cons_prefix_cons.mp hpre
      exact ⟨front, hpre', List.append_cancel_left hp⟩
  · rintro ⟨front, hpre, rfl⟩
    exact ⟨r :: front, List.cons_prefix_cons.mpr ⟨rfl, hpre⟩, rfl⟩

/-! ## From one end to the other -/

/-- The records `rs` that an end puts behind `front` for what its writes accept. -/
structure Sends (front : List Record) (first : UInt8) (w : List Bytes × ObfsTlsStream)
    (rs : List Record) : Prop where
  payloads : rs.map Record.payload = w.1
  kinds : rs.map Record.kind = kinds first rs.length
  bytes : w.2.produced = (front ++ rs).flatMap Record.encode
  flushed : w.2.pollFlush.1 = .ready (.ok ()) → w.2.pollFlush.2.inner.outbound.sent = w.2.produced

/-- What an end reads of `accepted` if `p` arrives, the first bytes of the records `wire`: a
prefix of it, which is all once all has arrived.  The stream ends cleanly between two records,
and is truncated elsewhere. -/
def Arrives (wire : List Record) (accepted p : Bytes) (c : ObfsTlsStream) : Prop :=
  ∃ all last, all <+: accepted ∧ (p = wire.flatMap Record.encode → all = accepted) ∧
    (last = none ↔ Between wire p) ∧ (last = none ∨ last = some truncatedErr) ∧
    ∀ caps : List Nat, (∀ k ∈ caps, 0 < k) →
      FrameReader.Settled c.inner.inbound all last caps (drive pollRead caps c).1
        (drive pollRead caps c).2.1

theorem sends_run {front : List Record} {head : Bytes} {first : UInt8} {c : ObfsTlsStream}
    (hfront : front.flatMap Record.encode = head) (h : Recorded head first [] c)
    (ops : List WriteOp) : ∃ rs, Sends front first (writer.run ops c) rs := by
  obtain ⟨rs, hlog, hrec⟩ := recorded_run h ops
  refine ⟨rs, hlog, hrec.kinds, ?_, sent_of_flushed⟩
  rw [hrec.bytes, List.flatMap_append, hfront]

section

variable {time time' : UInt32} {rng rng' : Rng} {host : String} {src src' : Inbound IoError}
  {grants grants' : List (Grant IoError)} {client : ObfsTlsStream} {outbound : Outbound IoError}

/-- The client that `otls_connect` returns. -/
theorem otlsConnect_ok {dst : Outbound IoError} (hw : dst.Willing)
    (h : otlsConnect time rng ⟨src, dst⟩ host = (some (.ok client), outbound)) :
    ∃ dst', client = .new ⟨src, dst'⟩ [] [] true ∧ dst'.Willing ∧
      dst'.sent = dst.sent ++ buildClientHello time rng host [] := by
  unfold otlsConnect at h
  simp only at h
  have hwritten := @sent_writeAll (buildClientHello time rng host []) dst
  revert h hwritten
  rcases writeAll (buildClientHello time rng host []) dst with ⟨_ | _ | _, dst₁⟩
  · exact fun h => by cases h
  · exact fun h => by cases h
  intro h hwritten
  obtain ⟨hsent, hw₁⟩ := hwritten hw rfl
  have hflushed := @sent_flushAll dst₁
  rw [andThen_onPart_ok] at h
  simp only [id] at h
  revert h hflushed
  rcases flushAll dst₁ with ⟨_ | _ | _, dst₂⟩
  · exact fun h => by cases h
  · exact fun h => by cases h
  intro h hflushed
  obtain ⟨hsent₂, hw₂⟩ := hflushed hw₁ rfl
  cases h
  exact ⟨dst₂, rfl, hw₂, hsent₂.trans hsent⟩

/-- The server reads what the client accepted, behind the hello. -/
theorem arrives_server {r : Record} {rs : List Record} {reply : Bytes} {dst : Outbound IoError}
    {mid : Inbound IoError} (hu : ∀ e, .error e ∉ src.arrivals) (hg : src.Gives r.encode mid)
    (hp : src.content <+: (r :: rs).flatMap Record.encode) :
    Arrives (r :: rs) (rs.map Record.payload).flatten src.content
      (.new ⟨mid, dst⟩ [] reply false) := by
  rw [hg.content, List.flatMap_cons] at hp
  have hmid : mid.content <+: rs.flatMap Record.encode := (List.prefix_append_right_inj _).mp hp
  obtain ⟨front, last, hfront, hwhole, hlast, hcut, hsettled⟩ :=
    @settled_records (.new ⟨mid, dst⟩ [] reply false) rs rfl (hg.unfailing hu) hmid
  refine ⟨contents false front, last, ?_, fun hall => ?_, ?_, hcut, hsettled⟩
  · rw [← contents_false]
    exact contents_prefix false hfront
  · rw [hg.content, List.flatMap_cons] at hall
    rw [← contents_false, hwhole (List.append_cancel_left hall)]
  · rw [hlast, hg.content, between_cons]
    rfl

/-- The client reads what the server accepted, behind the reply. -/
theorem arrives_client {sessionId : Bytes} (hid : sessionId.length ≤ 255) {rs : List Record}
    {dst : Outbound IoError} (hu : ∀ e, .error e ∉ src.arrivals)
    (hp : src.content <+: (replyRecords time rng hid ++ rs).flatMap Record.encode) :
    Arrives (replyRecords time rng hid ++ rs) (rs.map Record.payload).flatten src.content
      (.new ⟨src, dst⟩ [] [] true) := by
  obtain ⟨front, last, hfront, hwhole, hlast, hcut, hsettled⟩ :=
    @settled_records (.new ⟨src, dst⟩ [] [] true) _ rfl hu hp
  refine ⟨contents true front, last, ?_, fun hall => ?_, hlast, hcut, hsettled⟩
  · rw [← contents_reply time rng hid]
    exact contents_prefix true hfront
  · rw [hwhole hall, contents_reply]

theorem length_sessionId (rng : Rng) : (drawn rng).2.length ≤ 255 := by
  rw [(length_drawn rng).2]
  decide

/-- What either end of an `otls` connection hands out is what the other end accepted, from the
hello on, however the transports cut it. -/
theorem otls_round_trip
    (hsize : (buildClientHello time rng host []).length ≤
      REC_HEADER_LEN + (MAX_TLS_DATA_LEN + 2048))
    (hw : (Transport.new src grants).outbound.Willing)
    (hw' : (Transport.new src' grants').outbound.Willing)
    (hu : ∀ e, .error e ∉ src.arrivals) (hu' : ∀ e, .error e ∉ src'.arrivals)
    (hconnect : otlsConnect time rng (.new src grants) host = (some (.ok client), outbound))
    (ops ops' : List WriteOp) (hto : src'.content <+: (writer.run ops client).2.produced) :
    ∃ rs, Sends [helloRecord time rng host [] hsize] REC_APP_DATA (writer.run ops client) rs ∧
      (¬ buildClientHello time rng host [] <+: src'.content →
        (otlsAccept time' rng' (.new src' grants')).1 =
          if src'.closed then some (.error (.io earlyEofErr)) else none) ∧
      (buildClientHello time rng host [] <+: src'.content → ∃ server inbound,
        otlsAccept time' rng' (.new src' grants') = (some (.ok (.ok server)), inbound) ∧
          Arrives (helloRecord time rng host [] hsize :: rs) (writer.run ops client).1.flatten
            src'.content server ∧
          ∃ rs', Sends (replyRecords time' rng' (length_sessionId rng)) REC_HANDSHAKE
              (writer.run ops' server) rs' ∧
            (src.content <+: (writer.run ops' server).2.produced →
              Arrives (replyRecords time' rng' (length_sessionId rng) ++ rs')
                (writer.run ops' server).1.flatten src.content client)) := by
  obtain ⟨dst, rfl, hdst, hsent⟩ := otlsConnect_ok hw hconnect
  have hbegun : Recorded (buildClientHello time rng host []) REC_APP_DATA []
      (.new ⟨src, dst⟩ [] [] true) := by
    refine ⟨?_, rfl, rfl, hdst⟩
    show dst.sent ++ [] = _ ++ []
    rw [hsent]
    rfl
  obtain ⟨rs, hsends⟩ := @sends_run [helloRecord time rng host [] hsize] _ _ _
    (by rw [List.flatMap_singleton]; rfl) hbegun ops
  rw [hsends.bytes] at hto
  have hwire : src'.content <+: buildClientHello time rng host [] ++ rs.flatMap Record.encode := hto
  refine ⟨rs, hsends, fun hcut => ?_, fun hwhole => ?_⟩
  · rcases prefix_append_cases hwire with ⟨hpart, hne⟩ | ⟨rest, hrest, -⟩
    · exact @otlsAccept_part _ _ _ _ (helloRecord time rng host [] hsize) rfl hu' hpart hne
    · exact absurd ⟨rest, hrest.symm⟩ hcut
  · obtain ⟨rest, hrest⟩ := hwhole
    obtain ⟨mid, haccept, hg⟩ := @otlsAccept_record time' rng' src' ⟨grants', []⟩
      (helloRecord time rng host [] hsize) rest rfl hu' hrest.symm
    have hanswer := answer_hello time rng host [] hsize time' rng' ⟨mid, ⟨grants', []⟩⟩
    refine ⟨_, mid, haccept.trans (by rw [← hanswer]; rfl), ?_, ?_⟩
    · rw [← hsends.payloads]
      exact arrives_server hu' hg hwire
    · have hserver : Recorded (buildServerReply time' rng' (drawn rng).2) REC_HANDSHAKE []
          (.new ⟨mid, ⟨grants', []⟩⟩ [] (buildServerReply time' rng' (drawn rng).2) false) :=
        ⟨(List.append_nil _).symm, rfl, rfl, hw'⟩
      obtain ⟨rs', hsends'⟩ := sends_run
        (encode_replyRecords time' rng' (length_sessionId rng)) hserver ops'
      refine ⟨rs', hsends', fun hfrom => ?_⟩
      rw [hsends'.bytes] at hfrom
      rw [← hsends'.payloads]
      exact arrives_client (length_sessionId rng) hu hfrom

end

/-- A write that the transport takes at once. -/
theorem writeAll_whole {bs : Bytes} {k : Nat} (hne : bs ≠ []) (hle : bs.length ≤ k)
    (gs : List (Grant IoError)) :
    writeAll bs ⟨.accept k :: gs, []⟩ = (some (.ok ()), ⟨gs, bs⟩) := by
  have hpos : 0 < bs.length := List.length_pos_iff.mpr hne
  obtain ⟨m, hm⟩ : ∃ m, bs.length = m + 1 := ⟨bs.length - 1, by omega⟩
  have hadvance : (Cursor.ofBytes bs).advance (m + 1) = .empty :=
    dif_neg (show ¬ 0 + (m + 1) < bs.length by omega)
  have htaken : Outbound.write ⟨.accept k :: gs, []⟩ bs = (.ready (.ok (m + 1)), ⟨gs, bs⟩) := by
    simp only [Outbound.write, Nat.min_eq_right hle, List.take_length, List.nil_append]
    rw [hm]
  have hflush : flush (.ofBytes bs) ⟨.accept k :: gs, []⟩ = (.done, .empty, ⟨gs, bs⟩) := by
    have hsome : (Cursor.ofBytes bs).pos < (Cursor.ofBytes bs).data.length := hpos
    have hnone : ¬ Cursor.empty.pos < Cursor.empty.data.length := Nat.lt_irrefl 0
    rw [flush, if_pos hsome, Cursor.rest_ofBytes, htaken]
    simp only
    rw [hadvance, flush, if_neg hnone]
  rw [writeAll, await, drainOut, hflush]

/-- A client that has sent its hello over a transport that then waits. -/
def greeting : ObfsTlsStream :=
  .new ⟨⟨[], true⟩, ⟨[], buildClientHello 0 ⟨fun _ => 7⟩ "a" []⟩⟩ [] [] true

theorem hello_size : (buildClientHello 0 ⟨fun _ => 7⟩ "a" []).length ≤ 1000 := by
  decide +kernel

theorem greeting_connects :
    otlsConnect 0 ⟨fun _ => 7⟩ (.new ⟨[], true⟩ [.accept 1000, .accept 1]) "a" =
      (some (.ok greeting), ⟨[], buildClientHello 0 ⟨fun _ => 7⟩ "a" []⟩) := by
  have hne : buildClientHello 0 ⟨fun _ => 7⟩ "a" [] ≠ [] := List.cons_ne_nil _ _
  have hflush : flushAll ⟨[.accept 1], buildClientHello 0 ⟨fun _ => 7⟩ "a" []⟩ =
      (some (.ok ()), ⟨[], buildClientHello 0 ⟨fun _ => 7⟩ "a" []⟩) := by
    rw [flushAll, await]
    rfl
  simp only [otlsConnect, Transport.new, writeAll_whole hne hello_size, andThen_onPart_ok, id,
    hflush]
  rfl

theorem greeting_writes : (writer.run [.write [0x68, 0x69]] greeting).1 = [[0x68, 0x69]] ∧
    (writer.run [.write [0x68, 0x69]] greeting).2.produced =
      buildClientHello 0 ⟨fun _ => 7⟩ "a" [] ++ record 0x17 [0x03, 0x03] [0x68, 0x69] := by
  have hwrite : (greeting.pollWrite [0x68, 0x69]).1 = .ready (.ok 2) ∧
      (greeting.pollWrite [0x68, 0x69]).2.produced =
        buildClientHello 0 ⟨fun _ => 7⟩ "a" [] ++ record 0x17 [0x03, 0x03] [0x68, 0x69] := by
    have hlen : (record 0x17 [0x03, 0x03] [0x68, 0x69]).length = 7 := rfl
    simp [greeting, pollWrite, new, flushOut, queue, drainOut, flush, Cursor.ofBytes, Cursor.empty,
      Cursor.rest, Outbound.write, produced, MAX_TLS_DATA_LEN, REC_APP_DATA, hlen]
  obtain ⟨hout, hbytes⟩ := hwrite
  have hfirst : writer.write [0x68, 0x69] greeting =
      (.ready (.ok 2), (greeting.pollWrite [0x68, 0x69]).2) := Prod.ext hout rfl
  rw [ByteWriter.run_write_whole hfirst (by simp)]
  exact ⟨rfl, hbytes⟩

/-- Two bytes behind the hello. -/
theorem otls_round_trip_hi : ∃ rs server inbound,
    otlsAccept 0 ⟨fun _ => 8⟩ (.new ⟨Arrival.ofBytes (buildClientHello 0 ⟨fun _ => 7⟩ "a" [] ++
        record 0x17 [0x03, 0x03] [0x68, 0x69]), true⟩ []) = (some (.ok (.ok server)), inbound) ∧
      Arrives (helloRecord 0 ⟨fun _ => 7⟩ "a" [] (Nat.le_trans hello_size (by decide)) :: rs)
        [0x68, 0x69]
        (buildClientHello 0 ⟨fun _ => 7⟩ "a" [] ++ record 0x17 [0x03, 0x03] [0x68, 0x69]) server := by
  obtain ⟨hone, hbytes⟩ := greeting_writes
  have hpiece := @Inbound.delivers_ofBytes IoError
    (buildClientHello 0 ⟨fun _ => 7⟩ "a" [] ++ record 0x17 [0x03, 0x03] [0x68, 0x69])
  obtain ⟨rs, -, -, haccept⟩ := @otls_round_trip 0 0 ⟨fun _ => 7⟩ ⟨fun _ => 8⟩ "a" ⟨[], true⟩
    ⟨Arrival.ofBytes (buildClientHello 0 ⟨fun _ => 7⟩ "a" [] ++
      record 0x17 [0x03, 0x03] [0x68, 0x69]), true⟩ [.accept 1000, .accept 1] [] greeting _
    (Nat.le_trans hello_size (by decide)) (by simp [Outbound.Willing, Transport.new])
    (by simp [Outbound.Willing, Transport.new]) (by simp) hpiece.unfailing greeting_connects
    [.write [0x68, 0x69]] [] ((hpiece.content.trans hbytes.symm) ▸ List.prefix_rfl)
  rw [hpiece.content, hone] at haccept
  obtain ⟨server, inbound, hserver, harrives, -⟩ := haccept (List.prefix_append _ _)
  exact ⟨rs, server, inbound, hserver, harrives⟩

end Obfs
end RtProxy
