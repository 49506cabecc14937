import RtProxy.Lib.Checked
import RtProxy.Lib.Offsets
import RtProxy.Lib.Text
import RtProxy.Obfs.Stream

/-!
The ClientHello of `otls` (`obfs_transport.rs`).

The session ticket carries the first payload, and the server answers with the session id
it was sent.  Both are read by stepping over the fields in front of them, whose lengths
come from the peer.
-/

namespace RtProxy
namespace Obfs

open Bytes

def EXT_SERVER_NAME : UInt16 := 0x0000
def EXT_SUPPORTED_GROUPS : UInt16 := 0x000a
def EXT_EC_POINT_FORMATS : UInt16 := 0x000b
def EXT_SIGNATURE_ALGORITHMS : UInt16 := 0x000d
def EXT_ENCRYPT_THEN_MAC : UInt16 := 0x0016
def EXT_EXTENDED_MASTER_SECRET : UInt16 := 0x0017
def EXT_SESSION_TICKET : UInt16 := 0x0023

/-! ## The builder -/

/-- What `put_ext` appends; the length is cut to two bytes. -/
def putExt (extType : UInt16) (data : Bytes) : Bytes :=
  be 2 extType.toNat ++ be 2 data.length ++ data

def sniExtBody (host : String) : Bytes :=
  be 2 ((Text.utf8 host).length + 3) ++ [0x00] ++ be 2 (Text.utf8 host).length ++ Text.utf8 host

def suites : List UInt16 :=
  [0xc02f, 0xc030, 0xc02b, 0xc02c, 0xcca8, 0xcca9, 0x009e, 0x009f, 0x002f, 0x0035]

def extensions (host : String) (payload : Bytes) : Bytes :=
  putExt EXT_SESSION_TICKET payload ++
    (putExt EXT_SERVER_NAME (sniExtBody host) ++
      putExt EXT_EC_POINT_FORMATS [0x03, 0x01, 0x00, 0x02] ++
      putExt EXT_SUPPORTED_GROUPS [0x00, 0x08, 0x00, 0x1d, 0x00, 0x17, 0x00, 0x19, 0x00, 0x18] ++
      putExt EXT_SIGNATURE_ALGORITHMS [0x00, 0x08, 0x04, 0x01, 0x04, 0x03, 0x05, 0x01, 0x08, 0x04] ++
      putExt EXT_ENCRYPT_THEN_MAC [] ++ putExt EXT_EXTENDED_MASTER_SECRET [])

/-- The random bytes of a hello: those after the time, and the session id. -/
def drawn (rng : Rng) : Bytes × Bytes :=
  ((rng.fillBytes 28).1, ((rng.fillBytes 28).2.fillBytes 32).1)

section

variable (time : UInt32) (rng : Rng) (host : String) (payload : Bytes)

/-- The hello from its session id on. -/
def helloFields (sessionId : Bytes) : Bytes :=
  32 :: (sessionId ++ be 2 (suites.length * 2) ++ suites.flatMap (fun s => be 2 s.toNat) ++
    [0x01, 0x00] ++ be 2 (extensions host payload).length ++ extensions host payload)

def hello : Bytes :=
  [0x03, 0x03] ++ be 4 time.toNat ++ (drawn rng).1 ++ helloFields host payload (drawn rng).2

/-- The body of the record; its length has three bytes. -/
def handshake : Bytes :=
  0x01 :: (be 3 (hello time rng host payload).length ++ hello time rng host payload)

/-- `build_client_hello`, at a time and with the bytes that are drawn. -/
def buildClientHello : Bytes := record REC_HANDSHAKE [0x03, 0x01] (handshake time rng host payload)

end

/-! ## The readers -/

/-- Where the session id is in a hello: after the header, the version and the random. -/
def SESSION_ID_OFFSET : Nat := 4 + 2 + 32

def sessionIdOf (hello : Bytes) : Except Panic Bytes :=
  match hello[SESSION_ID_OFFSET]? with
  | some len =>
    if hello.length ≥ SESSION_ID_OFFSET + 1 + len.toNat then
      Checked.slice hello (SESSION_ID_OFFSET + 1) (SESSION_ID_OFFSET + 1 + len.toNat)
    else .ok []
  | none => .ok []

/-- Where the extensions begin, and how many bytes they are said to have. -/
def extensionsAt (hello : Bytes) : Option (Nat × Nat) := do
  let i := SESSION_ID_OFFSET
  let sessionLen ← hello[i]?
  let i := i + (1 + sessionLen.toNat)
  let suitesHigh ← hello[i]?
  let suitesLow ← hello[i + 1]?
  let i := i + (2 + beNat [suitesHigh, suitesLow])
  let compLen ← hello[i]?
  let i := i + (1 + compLen.toNat)
  let extsHigh ← hello[i]?
  let extsLow ← hello[i + 1]?
  return (i + 2, beNat [extsHigh, extsLow])

/-- The loop of `session_ticket_of`. -/
def findTicket (hello : Bytes) (stop i : Nat) : Except Panic (Option Bytes) :=
  if h : i + 4 ≤ stop then do
    let extType := beNat [← Checked.index hello i, ← Checked.index hello (i + 1)]
    let extLen := beNat [← Checked.index hello (i + 2), ← Checked.index hello (i + 3)]
    if i + 4 + extLen > stop then return none
    else if UInt16.ofNat extType = EXT_SESSION_TICKET then
      return some (← Checked.slice hello (i + 4) (i + 4 + extLen))
    else findTicket hello stop (i + 4 + extLen)
  else return none
termination_by stop - i

def sessionTicketOf (hello : Bytes) : Except Panic (Option Bytes) :=
  match extensionsAt hello with
  | none => return none
  | some (i, extsLen) => findTicket hello (min (i + extsLen) hello.length) i

/-! ## No access out of range -/

section

variable {hello payload bs : Bytes} {stop i : Nat}

theorem slice_at (h : At hello i bs) (hlen : i + bs.length ≤ hello.length) :
    Checked.slice hello i (i + bs.length) = .ok bs := by
  have htake : (hello.drop i).take bs.length = bs := (List.prefix_iff_eq_take.mp h).symm
  rw [Checked.slice_ok hlen, htake]

/-- The extensions are only looked at in front of the end. -/
theorem findTicket_total (hstop : stop ≤ hello.length) (i : Nat) :
    ∃ r, findTicket hello stop i = .ok r := by
  induction hn : stop - i using Nat.strong_induction_on generalizing i with
  | _ n ih =>
    rw [findTicket]
    by_cases h : i + 4 ≤ stop
    · rw [dif_pos h, Checked.index_ok (by omega), Checked.index_ok (by omega),
        Checked.index_ok (by omega), Checked.index_ok (by omega)]
      simp only [Checked.ok_bind]
      split_ifs with hlong
      · exact ⟨_, rfl⟩
      · rw [Checked.slice_ok (by omega)]
        exact ⟨_, rfl⟩
      · exact ih _ (by omega) _ rfl
    · exact ⟨none, dif_neg h⟩

theorem sessionTicketOf_total (hello : Bytes) : ∃ r, sessionTicketOf hello = .ok r := by
  unfold sessionTicketOf
  cases extensionsAt hello with
  | none => exact ⟨none, rfl⟩
  | some span => exact findTicket_total (Nat.min_le_right _ _) span.1

theorem sessionIdOf_total (hello : Bytes) : ∃ r, sessionIdOf hello = .ok r := by
  unfold sessionIdOf
  cases hello[SESSION_ID_OFFSET]? with
  | none => exact ⟨[], rfl⟩
  | some len =>
    by_cases hlen : hello.length ≥ SESSION_ID_OFFSET + 1 + len.toNat
    · simp only [if_pos hlen]
      exact ⟨_, Checked.slice_ok hlen⟩
    · simp only [if_neg hlen]
      exact ⟨[], rfl⟩

/-! ## What was put in -/

/-- A ticket in front is found at once. -/
theorem findTicket_first (h : At hello i (putExt EXT_SESSION_TICKET payload))
    (hstop : stop ≤ hello.length) (hfit : i + 4 + payload.length ≤ stop)
    (hlen : payload.length < 2 ^ 16) : findTicket hello stop i = .ok (some payload) := by
  unfold putExt at h
  rw [List.append_assoc] at h
  obtain ⟨htype, h⟩ := At.append_iff.mp h
  rw [length_be] at h
  obtain ⟨hfield, hpayload⟩ := At.append_iff.mp h
  rw [length_be, Nat.add_assoc] at hpayload
  obtain ⟨t, t', ht, ht', htype⟩ := htype.field EXT_SESSION_TICKET.toNat_lt
  obtain ⟨l, l', hl, hl', hfield⟩ := hfield.field hlen
  rw [findTicket, dif_pos (by omega), Checked.index_eq ht, Checked.index_eq ht',
    Checked.index_eq hl, Checked.index_eq hl']
  simp only [Checked.ok_bind]
  rw [hfield, htype, if_neg (by omega), UInt16.ofNat_toNat, if_pos rfl,
    slice_at hpayload (by omega)]
  rfl

end

section

variable (time : UInt32) (rng : Rng) (host : String) (payload : Bytes)

theorem length_buildClientHello : (buildClientHello time rng host payload).length =
    REC_HEADER_LEN + (handshake time rng host payload).length := by
  simp [buildClientHello, record, REC_HEADER_LEN]
  omega

theorem drop_buildClientHello : (buildClientHello time rng host payload).drop REC_HEADER_LEN =
    handshake time rng host payload := by
  have hfront : ([0x03, 0x01] ++ be 2 (handshake time rng host payload).length).length = 4 := by
    simp
  exact List.drop_left' hfront

theorem length_drawn : (drawn rng).1.length = 28 ∧ (drawn rng).2.length = 32 :=
  ⟨Rng.length_fillBytes _ _, Rng.length_fillBytes _ _⟩

theorem at_helloFields : At (handshake time rng host payload) SESSION_ID_OFFSET
    (helloFields host payload (drawn rng).2) := by
  have hlen : (0x01 :: (be 3 (hello time rng host payload).length ++
      ([0x03, 0x03] ++ be 4 time.toNat ++ (drawn rng).1))).length = SESSION_ID_OFFSET := by
    simp [(length_drawn rng).1, SESSION_ID_OFFSET]
  have hmid := At.mid (0x01 :: (be 3 (hello time rng host payload).length ++
    ([0x03, 0x03] ++ be 4 time.toNat ++ (drawn rng).1))) (helloFields host payload (drawn rng).2) []
  have heq : handshake time rng host payload =
      0x01 :: (be 3 (hello time rng host payload).length ++
        ([0x03, 0x03] ++ be 4 time.toNat ++ (drawn rng).1)) ++
          helloFields host payload (drawn rng).2 ++ [] := by
    rw [List.append_nil, List.cons_append, List.append_assoc, handshake, hello]
  rw [hlen] at hmid
  rwa [heq]

/-- The fields that the readers step over. -/
theorem at_fields :
    At (handshake time rng host payload) 38 [32] ∧
      At (handshake time rng host payload) 39 (drawn rng).2 ∧
      At (handshake time rng host payload) 71 (be 2 20) ∧
      At (handshake time rng host payload) 93 [0x01] ∧
      At (handshake time rng host payload) 95 (be 2 (extensions host payload).length) ∧
      At (handshake time rng host payload) 97 (extensions host payload) := by
  have hid := (length_drawn rng).2
  have hsuites : (suites.flatMap fun s => be 2 s.toNat).length = 20 := by decide
  have h := at_helloFields time rng host payload
  unfold helloFields at h
  rw [← List.singleton_append] at h
  obtain ⟨hlen, h⟩ := At.append_iff.mp h
  obtain ⟨h, hexts⟩ := At.append_iff.mp h
  obtain ⟨h, hfield⟩ := At.append_iff.mp h
  obtain ⟨h, hcomp⟩ := At.append_iff.mp h
  obtain ⟨h, -⟩ := At.append_iff.mp h
  obtain ⟨hsession, hcount⟩ := At.append_iff.mp h
  simp only [List.length_append, hid, hsuites, length_be, List.length_cons, List.length_nil,
    SESSION_ID_OFFSET] at hlen hsession hcount hcomp hfield hexts
  exact ⟨hlen, hsession, hcount, At.left (b := [0x00]) hcomp, hfield, hexts⟩

theorem extensionsAt_handshake (h : (extensions host payload).length < 2 ^ 16) :
    extensionsAt (handshake time rng host payload) =
      some (97, (extensions host payload).length) := by
  obtain ⟨hlen, -, hcount, hcomp, hfield, -⟩ := at_fields time rng host payload
  obtain ⟨s, s', hs, hs', hcount⟩ := hcount.field (by decide)
  obtain ⟨e, e', he, he', hfield⟩ := hfield.field h
  have hlen := At.singleton_iff.mp hlen
  have hcomp := At.singleton_iff.mp hcomp
  unfold extensionsAt SESSION_ID_OFFSET
  have h32 : (32 : UInt8).toNat = 32 := rfl
  have h1 : (1 : UInt8).toNat = 1 := rfl
  simp only [hlen, h32, hs, hs', hcount, hcomp, h1, he, he', hfield, Option.bind_eq_bind,
    Option.bind_some]
  rfl

/-- Both readers find what the builder put into a hello that the server takes. -/
theorem readers_find (h : (buildClientHello time rng host payload).length ≤
    REC_HEADER_LEN + (MAX_TLS_DATA_LEN + 2048)) :
    sessionTicketOf (handshake time rng host payload) = .ok (some payload) ∧
      sessionIdOf (handshake time rng host payload) = .ok (drawn rng).2 := by
  obtain ⟨hlen, hsession, -, -, -, hexts⟩ := at_fields time rng host payload
  have hid := (length_drawn rng).2
  have hidle := hsession.length_le
  have hextsle := hexts.length_le
  have hbound : (handshake time rng host payload).length ≤ MAX_TLS_DATA_LEN + 2048 := by
    rw [length_buildClientHello] at h
    omega
  have hpayload : 4 + payload.length ≤ (extensions host payload).length := by
    simp only [extensions, putExt, List.length_append, length_be]
    omega
  simp only [MAX_TLS_DATA_LEN] at hbound
  constructor
  · have hat := At.left hexts
    have hstop : min (97 + (extensions host payload).length) (handshake time rng host payload).length =
        97 + (extensions host payload).length := by
      omega
    unfold sessionTicketOf
    rw [extensionsAt_handshake time rng host payload (by omega)]
    simp only [hstop]
    exact findTicket_first hat (by omega) (by omega) (by omega)
  · have hlen' : (handshake time rng host payload)[SESSION_ID_OFFSET]? = some 32 :=
      At.singleton_iff.mp hlen
    have hslice := slice_at hsession (by omega)
    rw [hid] at hslice
    unfold sessionIdOf
    rw [hlen']
    exact (if_pos (by show 38 + 1 + 32 ≤ _; omega)).trans hslice

/-- What the builder puts into a hello is found by the readers, if the server takes the record
at all; and the readers access no byte out of range, whatever they are given. -/
theorem client_hello_readers_agree :
    ((buildClientHello time rng host payload).length ≤
        REC_HEADER_LEN + (MAX_TLS_DATA_LEN + 2048) →
      sessionTicketOf ((buildClientHello time rng host payload).drop REC_HEADER_LEN) =
          .ok (some payload) ∧
        sessionIdOf ((buildClientHello time rng host payload).drop REC_HEADER_LEN) =
          .ok (drawn rng).2 ∧
        (drawn rng).2.length = 32) ∧
      ∀ bs, (∃ ticket, sessionTicketOf bs = .ok ticket) ∧ ∃ id, sessionIdOf bs = .ok id := by
  refine ⟨fun h => ?_, fun bs => ⟨sessionTicketOf_total bs, sessionIdOf_total bs⟩⟩
  obtain ⟨hticket, hid⟩ := readers_find time rng host payload h
  rw [drop_buildClientHello]
  exact ⟨hticket, hid, (length_drawn rng).2⟩

end

/-- A hello for `a` with one byte of payload. -/
theorem client_hello_readers_agree_one :
    sessionTicketOf ((buildClientHello 0 ⟨fun _ => 7⟩ "a" [0xAA]).drop REC_HEADER_LEN) =
      .ok (some [0xAA]) :=
  ((client_hello_readers_agree 0 ⟨fun _ => 7⟩ "a" [0xAA]).1 (by decide +kernel)).1

end Obfs
end RtProxy
