import RtProxy.Io
import RtProxy.Lib.MessageReader
import RtProxy.Lib.Picked

/-!
A byte stream over the DATA frames of an HTTP/2 stream (`H2Stream` in `h2_transport.rs`).

A write sends what the peer's window has room for, and a read gives the window back: the peer
may send again what has been handed out, and only the frame in hand is held back from it.
-/

namespace RtProxy
namespace H2

open ByteStream

structure H2Error where
  text : String
deriving Repr, DecidableEq

def ioError (e : H2Error) : IoError := ⟨.other, e.text⟩

/-- The match of `poll_read`. -/
instance : Carriage Bytes H2Error IoError where
  part chunk := .bytes chunk
  failure e := some (ioError e)
  latch := false

/-! ## The two halves -/

structure RecvStream where
  body : Messages Bytes H2Error
  /-- How much of the window has been given back. -/
  released : Nat
deriving Repr, DecidableEq

abbrev Capacity := Poll (Option (Except H2Error Nat))

/-- The sending half: what it is going to answer, and the data it has taken.  A poll without
an answer is pending. -/
structure SendStream where
  capacities : List Capacity
  /-- The failures of `send_data`, which takes nothing then. -/
  refusals : List (Option H2Error)
  /-- The failure of a stream whose end has been sent. -/
  inactive : H2Error
  requested : Nat
  sent : List Bytes
  ended : Bool
deriving Repr, DecidableEq

namespace SendStream

def reserveCapacity (n : Nat) (s : SendStream) : SendStream := { s with requested := n }

def pollCapacity (s : SendStream) : Capacity × SendStream :=
  match s.capacities with
  | [] => (.pending, s)
  | a :: rest => (a, { s with capacities := rest })

def sendData (data : Bytes) (endOfStream : Bool) (s : SendStream) :
    Except H2Error Unit × SendStream :=
  if s.ended then (.error s.inactive, s)
  else
    match s.refusals with
    | some e :: rest => (.error e, { s with refusals := rest })
    | refusals =>
      (.ok (), { s with refusals := refusals.tail, sent := s.sent ++ [data], ended := endOfStream })

end SendStream

/-! ## The stream -/

structure H2Stream where
  recv : RecvStream
  send : SendStream
  /-- The remainder of the frame that is being handed out. -/
  chunk : Bytes
deriving Repr, DecidableEq

namespace H2Stream

def new (recv : RecvStream) (send : SendStream) : H2Stream :=
  { recv := recv, send := send, chunk := [] }

def reader (c : H2Stream) : MessageReader Bytes H2Error :=
  { inner := c.recv.body, rest := c.chunk, eof := false }

def pollRead (cap : Nat) (c : H2Stream) : Poll (Except IoError Bytes) × H2Stream :=
  match c.reader.poll cap with
  | (.ready (.ok bs), r) =>
    -- the peer may send as many bytes again
    (.ready (.ok bs), { c with recv := ⟨r.inner, c.recv.released + bs.length⟩, chunk := r.rest })
  | (out, r) => (out, { c with recv := { c.recv with body := r.inner }, chunk := r.rest })

def pollWrite (buf : Bytes) (c : H2Stream) : Poll (Except IoError Nat) × H2Stream :=
  if buf = [] then (.ready (.ok 0), c)
  else
    match (c.send.reserveCapacity buf.length).pollCapacity with
    | (.ready (some (.ok n)), send) =>
      -- a short write is fine
      let n := min n buf.length
      if n = 0 then (.pending, { c with send := send })
      else
        match send.sendData (buf.take n) false with
        | (.error e, send) => (.ready (.error (ioError e)), { c with send := send })
        | (.ok (), send) => (.ready (.ok n), { c with send := send })
    | (.ready (some (.error e)), send) => (.ready (.error (ioError e)), { c with send := send })
    | (.ready none, send) =>
      (.ready (.error ⟨.brokenPipe, "h2 stream closed"⟩), { c with send := send })
    | (.pending, send) => (.pending, { c with send := send })

/-- There is nothing held back here. -/
def pollFlush (c : H2Stream) : Poll (Except IoError Unit) × H2Stream := (.ready (.ok ()), c)

/-- A frame without data ends the stream. -/
def pollShutdown (c : H2Stream) : Poll (Except IoError Unit) × H2Stream :=
  match c.send.sendData [] true with
  | (.error e, send) => (.ready (.error (ioError e)), { c with send := send })
  | (.ok (), send) => (.ready (.ok ()), { c with send := send })

def writer : ByteWriter H2Stream IoError :=
  { write := pollWrite, flush := pollFlush, shutdown := pollShutdown }

end H2Stream

/-! ## What goes out -/

/-- The data fit in the room that was granted for them. -/
def Fits (a : Capacity) (data : Bytes) : Prop :=
  ∃ n, a = .ready (some (.ok n)) ∧ data ≠ [] ∧ data.length ≤ n

/-- What a stream that was going to grant `capacities` has sent for the parts it accepted. -/
structure Framed (capacities : List Capacity) (log : List Bytes) (s : SendStream) : Prop where
  sent : s.sent = log ++ if s.ended then [[]] else []
  granted : ∃ used, capacities = used ++ s.capacities ∧ Picked.Made Fits used log

namespace Framed

variable {capacities : List Capacity} {log : List Bytes} {s : SendStream}

theorem new (hsent : s.sent = []) (hopen : s.ended = false) : Framed s.capacities [] s :=
  ⟨by rw [hsent, hopen]; rfl, [], rfl, .nil⟩

/-- An answer that nothing is sent for. -/
theorem answered (h : Framed capacities log s) {a : Capacity} {rest : List Capacity}
    (hnext : s.capacities = a :: rest) : Framed capacities log { s with capacities := rest } := by
  obtain ⟨hsent, used, hused, hmade⟩ := h
  refine ⟨hsent, used ++ [a], ?_, hmade.skip [a]⟩
  rw [hused, hnext, List.append_assoc]
  rfl

/-- Data that fit are sent as long as the stream has not been ended. -/
theorem sendData (h : Framed capacities log s) {a : Capacity} {rest : List Capacity}
    (hnext : s.capacities = a :: rest) {data : Bytes} (hfits : Fits a data) :
    (∃ s', SendStream.sendData data false { s with capacities := rest } = (.ok (), s') ∧
        Framed capacities (log ++ [data]) s') ∨
      ∃ e s', SendStream.sendData data false { s with capacities := rest } = (.error e, s') ∧
        Framed capacities log s' := by
  have hskip := h.answered hnext
  obtain ⟨hsent, used, hused, hmade⟩ := h
  have hgranted : ∃ used, capacities = used ++ rest ∧ Picked.Made Fits used (log ++ [data]) := by
    refine ⟨used ++ [a], ?_, hmade.take hfits⟩
    rw [hused, hnext, List.append_assoc]
    rfl
  unfold SendStream.sendData
  cases hended : s.ended with
  | true => exact .inr ⟨_, _, rfl, hended ▸ hskip⟩
  | false =>
    rw [hended] at hsent
    have hsent' : s.sent ++ [data] = (log ++ [data]) ++ [] := by
      simpa using hsent
    simp only [Bool.false_eq_true, if_false]
    split
    · exact .inr ⟨_, _, rfl, by simpa [hended] using hskip.sent, hskip.granted⟩
    · exact .inl ⟨_, rfl, hsent', hgranted⟩

/-- The end of the stream. -/
theorem ended (h : Framed capacities log s) :
    Framed capacities log (SendStream.sendData [] true s).2 := by
  obtain ⟨hsent, hgranted⟩ := h
  unfold SendStream.sendData
  cases hended : s.ended with
  | true => exact ⟨hsent, hgranted⟩
  | false =>
    rw [hended] at hsent
    have hsent' : s.sent ++ [[]] = log ++ [[]] := by
      simpa using hsent
    simp only [Bool.false_eq_true, if_false]
    split
    · exact ⟨by simpa [hended] using hsent, hgranted⟩
    · exact ⟨hsent', hgranted⟩

end Framed

namespace H2Stream

variable {capacities : List Capacity} {log : List Bytes} {c : H2Stream}

theorem accepts_pollWrite (h : Framed capacities log c.send) (buf : Bytes) :
    ByteWriter.Accepts (fun log c => Framed capacities log c.send) log buf (c.pollWrite buf) := by
  unfold pollWrite
  by_cases hnil : buf = []
  · rw [if_pos hnil]
    exact h
  rw [if_neg hnil]
  have hreserved : Framed capacities log (c.send.reserveCapacity buf.length) :=
    ⟨h.sent, h.granted⟩
  unfold SendStream.pollCapacity
  cases hnext : (c.send.reserveCapacity buf.length).capacities with
  | nil => exact hreserved
  | cons a rest =>
    have hskip := hreserved.answered hnext
    match a with
    | .pending | .ready none | .ready (some (.error e)) => exact hskip
    | .ready (some (.ok n)) =>
      dsimp only
      by_cases hzero : min n buf.length = 0
      · rw [if_pos hzero]
        exact hskip
      rw [if_neg hzero]
      have hfits : Fits (.ready (some (.ok n))) (buf.take (min n buf.length)) := by
        have hlen : (buf.take (min n buf.length)).length = min n buf.length := by
          rw [List.length_take]
          exact Nat.min_eq_left (Nat.min_le_right _ _)
        refine ⟨n, rfl, List.length_pos_iff.mp ?_, ?_⟩
        · rw [hlen]
          exact Nat.pos_of_ne_zero hzero
        · rw [hlen]
          exact Nat.min_le_left _ _
      rcases hreserved.sendData hnext hfits with ⟨s', hsend, hs'⟩ | ⟨e, s', hsend, hs'⟩
      · rw [hsend]
        exact .part rfl (Nat.pos_of_ne_zero hzero) hs'
      · rw [hsend]
        exact hs'

theorem send_pollShutdown (c : H2Stream) :
    c.pollShutdown.2.send = (SendStream.sendData [] true c.send).2 := by
  unfold pollShutdown
  rcases SendStream.sendData [] true c.send with ⟨_ | ⟨⟨⟩⟩, s⟩ <;> rfl

/-- What a run of calls accepts is sent, each part in room that was granted for it. -/
theorem framed_run (h : Framed capacities [] c.send) (ops : List WriteOp) :
    Framed capacities (writer.run ops c).1 (writer.run ops c).2.send := by
  let inv (log : List Bytes) (c : H2Stream) : Prop := Framed capacities log c.send
  have hwrite : ∀ log c buf, inv log c → ByteWriter.Accepts inv log buf (writer.write buf c) :=
    fun log c buf h => accepts_pollWrite h buf
  have hshutdown : ∀ log c, inv log c → inv log (writer.shutdown c).2 := by
    intro log c h
    show Framed capacities log c.pollShutdown.2.send
    rw [send_pollShutdown]
    exact h.ended
  exact ByteWriter.run_keeps hwrite (fun _ _ h => h) hshutdown ops h

end H2Stream

/-! ## What comes in -/

open MessageReader H2Stream

/-- The end of a body is not remembered: the frames are over. -/
theorem eof_pull (ended : Bool) (arrivals : List (Incoming Bytes H2Error)) :
    (pull ended arrivals).2.eof = false := by
  induction arrivals with
  | nil => cases ended <;> rfl
  | cons a later ih =>
    match a with
    | .pending | .error e => rfl
    | .message [] => exact ih
    | .message (b :: bs) => rfl

theorem eof_poll (cap : Nat) (c : H2Stream) : (c.reader.poll cap).2.eof = false := by
  unfold MessageReader.poll
  have hpull := eof_pull c.reader.inner.ended c.reader.inner.arrivals
  split
  · rfl
  · rw [if_neg (by simp [reader])]
    revert hpull
    rcases pull c.reader.inner.ended c.reader.inner.arrivals with ⟨out, r⟩
    match out with
    | .pending | .ready (.error e) | .ready (.ok []) | .ready (.ok (b :: bs)) => exact id

theorem pollRead_eq (cap : Nat) (c : H2Stream) :
    (c.pollRead cap).1 = (c.reader.poll cap).1 ∧
      (c.pollRead cap).2.reader = (c.reader.poll cap).2 := by
  have heof := eof_poll cap c
  unfold pollRead
  revert heof
  rcases c.reader.poll cap with ⟨out, ⟨inner, rest, eof⟩⟩
  rintro rfl
  match out with
  | .pending | .ready (.error e) | .ready (.ok bs) => exact ⟨rfl, rfl⟩

instance : AsyncRead H2Stream IoError := .comap reader pollRead

instance : AsyncRead.Steady H2Stream IoError := AsyncRead.steady_comap pollRead_eq

/-- The bytes of a poll. -/
def bytesOf : Poll (Except IoError Bytes) → Bytes
  | .ready (.ok bs) => bs
  | _ => []

theorem released_pollRead (cap : Nat) (c : H2Stream) : (c.pollRead cap).2.recv.released =
    c.recv.released + (bytesOf (c.pollRead cap).1).length := by
  unfold pollRead
  rcases c.reader.poll cap with ⟨out, r⟩
  match out with
  | .pending | .ready (.error e) | .ready (.ok bs) => rfl

/-- What is given back of the window is what is handed out. -/
theorem released_drive (caps : List Nat) (c : H2Stream) :
    (drive pollRead caps c).2.2.recv.released =
      c.recv.released + (drive pollRead caps c).1.flatten.length := by
  induction caps generalizing c with
  | nil => rfl
  | cons cap caps ih =>
    have hstep := released_pollRead cap c
    rw [drive]
    revert hstep
    rcases c.pollRead cap with ⟨out, c'⟩
    intro hstep
    cases out with
    | pending => exact (ih c').trans (congrArg (· + _) hstep)
    | ready r =>
      cases r with
      | error e => exact hstep
      | ok bs =>
        cases bs with
        | nil => exact hstep
        | cons b bs =>
          have hrest := ih c'
          have hfirst : c'.recv.released = c.recv.released + (b :: bs).length := hstep
          dsimp only
          rw [hrest, hfirst, List.flatten_cons, List.length_append, Nat.add_assoc]

/-! ## From one end to the other -/

/-- What a reader with buffers of any sizes gets of `accepted` if a body brings a prefix of the
data `sent`: a prefix of it, and from a body without errors all, once all has arrived.  Of what
has arrived, all but the frame in hand has been given back of the peer's window. -/
structure Arrives (accepted : Bytes) (sent : List Bytes) (c : H2Stream) : Prop where
  isPrefix : ∀ caps : List Nat, (∀ k ∈ caps, 0 < k) →
    (drive pollRead caps c).1.flatten <+: accepted
  whole : payload c.recv.body.arrivals = sent.flatten → AsyncRead.content c = accepted
  ends : c.recv.body.ended = true → AsyncRead.closed c = true
  handed : (∀ e, .error e ∉ c.recv.body.arrivals) → ∀ caps : List Nat, (∀ k ∈ caps, 0 < k) →
    AsyncRead.Handed c caps (drive pollRead caps c).1 (drive pollRead caps c).2.1
  window : ∀ caps : List Nat, (∀ k ∈ caps, 0 < k) →
    (payload c.recv.body.arrivals).length + c.recv.released =
      (payload (drive pollRead caps c).2.2.recv.body.arrivals).length +
        (drive pollRead caps c).2.2.chunk.length + (drive pollRead caps c).2.2.recv.released

theorem content_eq (c : H2Stream) :
    AsyncRead.content c = c.chunk ++ payload c.recv.body.arrivals := rfl

/-- What one end hands out is what the other accepted, whatever frames the bytes are cut into. -/
theorem h2_round_trip {c : H2Stream} (hnew : c.send.sent = []) (hopen : c.send.ended = false)
    (ops : List WriteOp) {recv : RecvStream} {send : SendStream}
    (hto : payload recv.body.arrivals <+: (writer.run ops c).2.send.sent.flatten) :
    Framed c.send.capacities (writer.run ops c).1 (writer.run ops c).2.send ∧
      Arrives (writer.run ops c).1.flatten (writer.run ops c).2.send.sent (.new recv send) := by
  have hframed := framed_run (.new hnew hopen) ops
  have hflat : (writer.run ops c).2.send.sent.flatten = (writer.run ops c).1.flatten := by
    rw [hframed.sent]
    cases (writer.run ops c).2.send.ended <;> simp
  refine ⟨hframed, fun caps hcaps => ?_, fun hall => hall.trans hflat, fun hended => ?_,
    fun hun caps hcaps => ?_, fun caps hcaps => ?_⟩
  · have hreads := (AsyncRead.reads_drive hcaps (H2Stream.new recv send)).content
    have hread : (drive pollRead caps (.new recv send)).1.flatten <+:
        payload recv.body.arrivals := ⟨_, hreads.symm⟩
    exact hread.trans (hflat ▸ hto)
  · show (false || ends recv.body.ended recv.body.arrivals) = true
    change recv.body.ended = true at hended
    rw [Bool.false_or, hended]
    exact ends_of_ended _
  · refine AsyncRead.handed (fun e he => ?_) hcaps
    obtain ⟨e', hmem, -⟩ := he
    exact hun e' hmem
  · have hreads := (AsyncRead.reads_drive hcaps (H2Stream.new recv send)).content
    have hreleased := released_drive caps (.new recv send)
    revert hreads hreleased
    show _ = (drive pollRead caps (.new recv send)).1.flatten ++ _ → _
    rcases drive pollRead caps (.new recv send) with ⟨log, out, c'⟩
    intro hreads hreleased
    have hlen := congrArg List.length hreads
    rw [content_eq, content_eq, List.length_append, List.length_append, List.length_append] at hlen
    change 0 + (payload recv.body.arrivals).length = _ at hlen
    dsimp only at hlen
    simp only [H2Stream.new] at hreleased ⊢
    omega

/-- A client that is granted two bytes and then more than it needs. -/
def greeter : H2Stream :=
  .new ⟨⟨[], false⟩, 0⟩ ⟨[.ready (some (.ok 2)), .pending, .ready (some (.ok 9))], [],
    ⟨"user error: inactive stream"⟩, 0, [], false⟩

/-- A greeting that is sent in two frames, and arrives in two others. -/
theorem h2_round_trip_greeting :
    Arrives [0x68, 0x69, 0x21] [[0x68, 0x69], [0x21], []]
      (.new ⟨⟨[.message [0x68], .pending, .message [0x69, 0x21], .message []], true⟩, 0⟩
        greeter.send) :=
  (h2_round_trip (c := greeter) rfl rfl
    [.write [0x68, 0x69, 0x21], .write [0x21], .flush, .write [0x21], .shutdown] (by decide)).2

end H2
end RtProxy
