import RtProxy.Io
import RtProxy.Lib.MessageReader
import RtProxy.Lib.Text

/-!
A byte stream over WebSocket messages (`WsStream` in `ws.rs`).

What a write accepts goes out as one binary message, and a reader joins the messages again.
Between them there may be pings, pongs and messages without bytes, and the connection may be
dropped without a Close frame: none of it is seen in the bytes.
-/

namespace RtProxy
namespace Ws

open ByteStream

/-- The most payload bytes put into a single outbound frame. -/
def MAX_WRITE_FRAME : Nat := 64 * 1024

inductive Message
  | text (text : String)
  | binary (data : Bytes)
  | ping (data : Bytes)
  | pong (data : Bytes)
  | frame (data : Bytes)
  | close
deriving Repr, DecidableEq

/-- The errors of the library; those that are not told apart have their text. -/
inductive WsError
  | io (e : IoError)
  | connectionClosed
  | alreadyClosed
  | resetWithoutClosingHandshake
  | other (text : String)
deriving Repr, DecidableEq

def wsToIo : WsError → IoError
  | .io e => e
  | .connectionClosed | .alreadyClosed => ⟨.brokenPipe, "websocket connection closed"⟩
  | .resetWithoutClosingHandshake =>
    ⟨.other, "WebSocket protocol error: Connection reset without closing handshake"⟩
  | .other text => ⟨.other, text⟩

/-- The two matches of `poll_read`. -/
instance : Carriage Message WsError IoError where
  part
    | .binary data => .bytes data
    | .text text => .bytes (Text.utf8 text)
    | .ping _ | .pong _ | .frame _ => .bytes []
    | .close => .close
  failure
    -- the same event as a FIN on a socket
    | .resetWithoutClosingHandshake => none
    | e => some (wsToIo e)
  latch := true

/-! ## The sink -/

abbrev Answer := Poll (Except WsError Unit)

/-- The sending half of a socket: what it is going to answer, and the messages it has taken.
A poll without an answer is pending. -/
structure WsSink where
  ready : List Answer
  /-- A failure of `start_send`, whether or not the message is taken. -/
  start : List (Option (Bool × WsError))
  flush : List Answer
  shut : List Answer
  sent : List Message
  /-- A Close frame is queued. -/
  closing : Bool
deriving Repr, DecidableEq

namespace WsSink

def nextAnswer : List Answer → Answer × List Answer
  | [] => (.pending, [])
  | a :: rest => (a, rest)

def pollReady (k : WsSink) : Answer × WsSink :=
  let (a, rest) := nextAnswer k.ready
  (a, { k with ready := rest })

def pollFlush (k : WsSink) : Answer × WsSink :=
  let (a, rest) := nextAnswer k.flush
  (a, { k with flush := rest })

def startSend (k : WsSink) (m : Message) : Except WsError Unit × WsSink :=
  if k.closing then
    (.error (.other "WebSocket protocol error: Sending after closing is not allowed"), k)
  else
    match k.start with
    | [] => (.ok (), { k with sent := k.sent ++ [m] })
    | none :: rest => (.ok (), { k with start := rest, sent := k.sent ++ [m] })
    | some (taken, e) :: rest =>
      (.error e, { k with start := rest, sent := if taken then k.sent ++ [m] else k.sent })

/-- The Close frame is queued once. -/
def pollClose (k : WsSink) : Answer × WsSink :=
  let (a, rest) := nextAnswer k.shut
  (a, { k with shut := rest, closing := true,
               sent := if k.closing then k.sent else k.sent ++ [.close] })

def new (ready : List Answer) (start : List (Option (Bool × WsError))) (flush shut : List Answer) :
    WsSink :=
  { ready := ready, start := start, flush := flush, shut := shut, sent := [], closing := false }

/-- A sink that fails for no message it has been given while it was open. -/
structure Sound (k : WsSink) : Prop where
  start : ∀ x ∈ k.start, x = none
  flush : ∀ e, .ready (.error e) ∉ k.flush

end WsSink

/-! ## The stream -/

structure WsStream where
  reader : MessageReader Message WsError
  sink : WsSink
  /-- Of the configuration of the socket. -/
  writeBufferSize : Nat
deriving Repr, DecidableEq

namespace WsStream

def new (inner : Messages Message WsError) (sink : WsSink) (writeBufferSize : Nat) : WsStream :=
  { reader := .new inner, sink := sink, writeBufferSize := writeBufferSize }

def pollRead (cap : Nat) (c : WsStream) : Poll (Except IoError Bytes) × WsStream :=
  let (out, reader) := c.reader.poll cap
  (out, { c with reader := reader })

def pollWrite (buf : Bytes) (c : WsStream) : Poll (Except IoError Nat) × WsStream :=
  if buf = [] then (.ready (.ok 0), c)
  else
    -- an earlier frame that has not reached the socket is drained first
    match c.sink.pollReady with
    | (.pending, sink) => (.pending, { c with sink := sink })
    | (.ready (.error e), sink) => (.ready (.error (wsToIo e)), { c with sink := sink })
    | (.ready (.ok ()), sink) =>
      let n := min buf.length MAX_WRITE_FRAME
      match sink.startSend (.binary (buf.take n)) with
      | (.error e, sink) => (.ready (.error (wsToIo e)), { c with sink := sink })
      | (.ok (), sink) =>
        if c.writeBufferSize = 0 then
          match sink.pollFlush with
          | (.ready (.error e), sink) => (.ready (.error (wsToIo e)), { c with sink := sink })
          -- the sink owns the bytes, and the next poll drives them out
          | (_, sink) => (.ready (.ok n), { c with sink := sink })
        else (.ready (.ok n), { c with sink := sink })

def pollFlush (c : WsStream) : Poll (Except IoError Unit) × WsStream :=
  match c.sink.pollFlush with
  | (.pending, sink) => (.pending, { c with sink := sink })
  | (.ready (.ok ()), sink) => (.ready (.ok ()), { c with sink := sink })
  | (.ready (.error e), sink) => (.ready (.error (wsToIo e)), { c with sink := sink })

def pollShutdown (c : WsStream) : Poll (Except IoError Unit) × WsStream :=
  match c.sink.pollClose with
  | (.pending, sink) => (.pending, { c with sink := sink })
  | (.ready (.ok ()), sink) => (.ready (.ok ()), { c with sink := sink })
  | (.ready (.error .connectionClosed), sink) | (.ready (.error .alreadyClosed), sink) =>
    (.ready (.ok ()), { c with sink := sink })
  | (.ready (.error e), sink) => (.ready (.error (wsToIo e)), { c with sink := sink })

def writer : ByteWriter WsStream IoError :=
  { write := pollWrite, flush := pollFlush, shutdown := pollShutdown }

end WsStream

/-! ## What goes out -/

/-- The messages of the parts that were accepted. -/
structure Framed (log : List Bytes) (k : WsSink) : Prop where
  sent : k.sent = log.map .binary ++ if k.closing then [.close] else []
  framed : ∀ bs ∈ log, bs ≠ [] ∧ bs.length ≤ MAX_WRITE_FRAME
  sound : k.Sound

namespace Framed

variable {log : List Bytes} {k : WsSink}

theorem new {ready flush shut : List Answer} {start : List (Option (Bool × WsError))}
    (h : (WsSink.new ready start flush shut).Sound) :
    Framed [] (.new ready start flush shut) :=
  ⟨rfl, List.forall_mem_nil _, h⟩

theorem pollReady (h : Framed log k) : Framed log k.pollReady.2 := by
  obtain ⟨hsent, hframed, hstart, hflush⟩ := h
  unfold WsSink.pollReady
  cases k.ready with
  | nil | cons => exact ⟨hsent, hframed, hstart, hflush⟩

theorem pollFlush (h : Framed log k) :
    Framed log k.pollFlush.2 ∧ ∀ e, k.pollFlush.1 ≠ .ready (.error e) := by
  obtain ⟨hsent, hframed, hstart, hflush⟩ := h
  unfold WsSink.pollFlush
  cases hcase : k.flush with
  | nil =>
    have hnone : ∀ e, .ready (.error e) ∉ (WsSink.nextAnswer []).2 := fun e he => by cases he
    exact ⟨⟨hsent, hframed, hstart, hnone⟩, fun _ he => by cases he⟩
  | cons a rest =>
    rw [hcase] at hflush
    refine ⟨⟨hsent, hframed, hstart, fun e he => ?_⟩, fun e he => ?_⟩
    · exact hflush e (List.mem_cons_of_mem _ he)
    · exact hflush e (he ▸ List.mem_cons_self)

theorem pollClose (h : Framed log k) : Framed log k.pollClose.2 := by
  obtain ⟨hsent, hframed, hstart, hflush⟩ := h
  refine ⟨?_, hframed, hstart, hflush⟩
  show (if k.closing then k.sent else k.sent ++ [.close]) = log.map .binary ++ [.close]
  cases hclosing : k.closing with
  | true => simpa [hclosing] using hsent
  | false => simpa [hclosing] using hsent

/-- A message is sent as long as no Close frame is queued. -/
theorem startSend (h : Framed log k) {bs : Bytes} (hne : bs ≠ [])
    (hle : bs.length ≤ MAX_WRITE_FRAME) :
    (∃ k', k.startSend (.binary bs) = (.ok (), k') ∧ Framed (log ++ [bs]) k') ∨
      ∃ e, k.startSend (.binary bs) = (.error e, k) := by
  obtain ⟨hsent, hframed, hstart, hflush⟩ := h
  unfold WsSink.startSend
  cases hclosing : k.closing with
  | true => exact .inr ⟨_, rfl⟩
  | false =>
    have hnext : k.sent ++ [.binary bs] = (log ++ [bs]).map .binary ++ [] := by
      simpa [hclosing] using hsent
    have hall : ∀ x ∈ log ++ [bs], x ≠ [] ∧ x.length ≤ MAX_WRITE_FRAME := by
      intro x hx
      rcases List.mem_append.mp hx with hx | hx
      · exact hframed x hx
      · exact List.mem_singleton.mp hx ▸ ⟨hne, hle⟩
    left
    cases hcase : k.start with
    | nil =>
      refine ⟨_, rfl, ⟨?_, hall, ⟨?_, hflush⟩⟩⟩
      · simpa [hclosing] using hnext
      · exact List.forall_mem_nil _
    | cons x rest =>
      obtain rfl : x = none := hstart x (hcase ▸ List.mem_cons_self)
      refine ⟨_, rfl, ⟨?_, hall, ⟨?_, hflush⟩⟩⟩
      · simpa [hclosing] using hnext
      · exact fun x hx => hstart x (hcase ▸ List.mem_cons_of_mem _ hx)

end Framed

namespace WsStream

variable {log : List Bytes} {c : WsStream}

theorem accepts_pollWrite (h : Framed log c.sink) (buf : Bytes) :
    ByteWriter.Accepts (fun log c => Framed log c.sink) log buf (c.pollWrite buf) := by
  unfold pollWrite
  by_cases hnil : buf = []
  · rw [if_pos hnil]
    exact h
  rw [if_neg hnil]
  have hready := h.pollReady
  revert hready
  rcases c.sink.pollReady with ⟨a, k⟩
  match a with
  | .pending | .ready (.error e) => exact fun hready => hready
  | .ready (.ok ()) =>
    intro hready
    have hpos : 0 < min buf.length MAX_WRITE_FRAME :=
      Nat.lt_min.mpr ⟨List.length_pos_iff.mpr hnil, by decide⟩
    have hlen : (buf.take (min buf.length MAX_WRITE_FRAME)).length =
        min buf.length MAX_WRITE_FRAME := by
      rw [List.length_take]
      exact Nat.min_eq_left (Nat.min_le_left _ _)
    have hne : buf.take (min buf.length MAX_WRITE_FRAME) ≠ [] :=
      List.length_pos_iff.mp (hlen.symm ▸ hpos)
    rcases hready.startSend hne (hlen.symm ▸ Nat.min_le_right _ _) with
      ⟨k', hsend, hk'⟩ | ⟨e, hsend⟩
    · simp only [hsend]
      split
      · obtain ⟨hflushed, hok⟩ := hk'.pollFlush
        revert hflushed hok
        rcases k'.pollFlush with ⟨b, k''⟩
        match b with
        | .ready (.error e) => exact fun _ hok => absurd rfl (hok e)
        | .pending | .ready (.ok ()) => exact fun hflushed _ => .part rfl hpos hflushed
      · exact .part rfl hpos hk'
    · simp only [hsend]
      exact hready

theorem sink_pollFlush (c : WsStream) : c.pollFlush.2.sink = c.sink.pollFlush.2 := by
  unfold pollFlush
  rcases c.sink.pollFlush with ⟨(_ | ⟨⟨⟩⟩) | _, k⟩ <;> rfl

theorem sink_pollShutdown (c : WsStream) : c.pollShutdown.2.sink = c.sink.pollClose.2 := by
  unfold pollShutdown
  split <;> rename_i heq <;> rw [heq]

/-- What a run of calls accepts goes out as one message for each part. -/
theorem framed_run (h : Framed [] c.sink) (ops : List WriteOp) :
    Framed (writer.run ops c).1 (writer.run ops c).2.sink := by
  let inv (log : List Bytes) (c : WsStream) : Prop := Framed log c.sink
  have hwrite : ∀ log c buf, inv log c → ByteWriter.Accepts inv log buf (writer.write buf c) :=
    fun log c buf h => accepts_pollWrite h buf
  have hflush : ∀ log c, inv log c → inv log (writer.flush c).2 := by
    intro log c h
    show Framed log c.pollFlush.2.sink
    rw [sink_pollFlush]
    exact h.pollFlush.1
  have hshutdown : ∀ log c, inv log c → inv log (writer.shutdown c).2 := by
    intro log c h
    show Framed log c.pollShutdown.2.sink
    rw [sink_pollShutdown]
    exact h.pollClose
  exact ByteWriter.run_keeps hwrite hflush hshutdown ops h

end WsStream

/-! ## From one end to the other -/

open MessageReader WsStream

instance : AsyncRead WsStream IoError := .comap reader pollRead

instance : AsyncRead.Steady WsStream IoError := AsyncRead.steady_comap fun _ _ => ⟨rfl, rfl⟩

/-- What a reader with buffers of any sizes gets of `accepted` if `arrivals` are what arrives of
the messages `sent`: a prefix of it, which is all once all has arrived.  The Close frame ends the
stream, and so does a connection that is dropped. -/
structure Arrives (accepted : Bytes) (sent : List Message) (inner : Messages Message WsError)
    (c : WsStream) : Prop where
  isPrefix : AsyncRead.content c <+: accepted
  whole : told inner.arrivals = sent → AsyncRead.content c = accepted
  ends : inner.ended = true ∨ .error .resetWithoutClosingHandshake ∈ inner.arrivals ∨
    .close ∈ told inner.arrivals → AsyncRead.closed c = true
  handed : ∀ caps : List Nat, (∀ k ∈ caps, 0 < k) →
    AsyncRead.Handed c caps (drive pollRead caps c).1 (drive pollRead caps c).2.1

theorem joined_sent {log : List Bytes} {k : WsSink} (h : Framed log k) :
    joined WsError k.sent = log.flatten := by
  have hclose : joined WsError (if k.closing then [Message.close] else []) = [] := by
    cases k.closing <;> rfl
  rw [h.sent, joined_append (fun _ => rfl) log, hclose, List.append_nil]
  exact List.flatMap_id'

/-- What one end hands out is what the other accepted, whatever comes between the messages. -/
theorem ws_round_trip {c : WsStream} (hnew : Framed [] c.sink) (ops : List WriteOp)
    {inner : Messages Message WsError} {sink : WsSink} {size : Nat}
    (hun : ∀ e, .error e ∈ inner.arrivals → e = .resetWithoutClosingHandshake)
    (hto : told inner.arrivals <+: (writer.run ops c).2.sink.sent) :
    Framed (writer.run ops c).1 (writer.run ops c).2.sink ∧
      Arrives (writer.run ops c).1.flatten (writer.run ops c).2.sink.sent inner
        (.new inner sink size) := by
  have hframed := framed_run hnew ops
  have hjoined := joined_sent hframed
  have hcontent : AsyncRead.content (WsStream.new inner sink size) =
      joined WsError (told inner.arrivals) := payload_eq_joined _
  refine ⟨hframed, ?_, fun hall => ?_, fun hend => ?_, fun caps hcaps => ?_⟩
  · rw [hcontent, ← hjoined]
    exact joined_prefix hto
  · rw [hcontent, hall, hjoined]
  · show (false || ends inner.ended inner.arrivals) = true
    rw [Bool.false_or]
    rcases hend with hended | hreset | hclose
    · rw [hended]
      exact ends_of_ended _
    · exact ends_of_failure rfl hreset
    · exact ends_of_told rfl hclose
  · refine AsyncRead.handed (fun e he => ?_) hcaps
    obtain ⟨e', hmem, hfail⟩ := he
    cases hun e' hmem
    cases hfail

/-- A client whose socket takes each message at once. -/
def greeter : WsStream :=
  .new ⟨[], false⟩ (.new [.ready (.ok ()), .ready (.ok ())] [] [.pending] [.ready (.ok ())]) 0

theorem greeter_new : Framed [] greeter.sink :=
  .new ⟨List.forall_mem_nil _, fun e he => by simp [WsSink.new] at he⟩

/-- A greeting in two messages, with a ping between them, that is closed. -/
theorem ws_round_trip_greeting :
    Arrives [0x68, 0x69, 0x21] [.binary [0x68, 0x69], .binary [0x21], .close]
      ⟨[.message (.binary [0x68, 0x69]), .message (.ping []), .pending,
        .message (.binary [0x21]), .message .close], false⟩
      (.new ⟨[.message (.binary [0x68, 0x69]), .message (.ping []), .pending,
        .message (.binary [0x21]), .message .close], false⟩ (.new [] [] [] []) 0) :=
  (ws_round_trip greeter_new [.write [0x68, 0x69], .flush, .write [0x21], .shutdown] (by simp)
    (by decide)).2

end Ws
end RtProxy
