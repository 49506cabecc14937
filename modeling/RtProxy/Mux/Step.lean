import RtProxy.Mux.Session

/-!
The steps of a session.

The constructors of `Step` are grouped by thread and named after the source's
function and the access they model.  A call that returns without touching shared
state (a read into an empty buffer, an empty write, a write after `fin_sent`)
has no step.
-/

namespace RtProxy
namespace Mux

/-- `SessionShared::fail`: one access, and what is left of the call.  The drained
streams are marked dead in any order, as a hash map yields them in any order. -/
inductive FailStep (s : Session) : FailPc → Session → Option FailPc → Prop
  | record (e : IoError) :
      FailStep s (.record e) { s with error := s.error.or (some e) } (some .swap)
  | swapFirst (h : s.closed = false) :
      FailStep s .swap { s with closed := true } (some .closeQueue)
  | swapAgain (h : s.closed = true) : FailStep s .swap s none
  | closeQueue :
      FailStep s .closeQueue
        { s with queue := s.queue.close.1, woken := s.woken ++ s.queue.close.2 } (some .drain)
  | drain :
      FailStep s .drain { s with streams := fun _ => none } (some (.setDead s.registered))
  | setDead {refs : List Nat} {r : Nat} (h : r ∈ refs) :
      FailStep s (.setDead refs) ((s.wakeReader r).setObj r (s.objs r).setDead)
        (some (.setDead (refs.erase r)))
  | setDeadDone : FailStep s (.setDead []) s (some .notifyWaiters)
  | notifyWaiters :
      FailStep s .notifyWaiters { s with bucketNotify := s.bucketNotify.notifyWaiters }
        (some .notifyOne)
  | notifyOne :
      FailStep s .notifyOne { s with bucketNotify := s.bucketNotify.notifyOne } none

def ReaderPc.ofFail : Option FailPc → ReaderPc
  | some pc => .failing pc
  | none => .ended

def WriterPc.ofFail : Option FailPc → WriterPc
  | some pc => .failing pc
  | none => .ended

def KeepPc.ofFail : Option FailPc → KeepPc
  | some pc => .failing pc
  | none => .ended

def ClosePc.ofFail : Option FailPc → ClosePc
  | some pc => .failing pc
  | none => .abort

/-- Which thread moves.  `arrive`, `arriveEof`, `readError` and `writeError` are
moves of the transport, `carry` takes written bytes away, and `app` is the
owner of the session. -/
inductive Label
  | reader
  | writer
  | keep
  | openStream (k : Nat)
  | close (k : Nat)
  | stream (r : Nat)
  | app
  | arrive (bs : Bytes)
  | arriveEof
  | carry (n : Nat)
  | readError
  | writeError
deriving Repr, DecidableEq

open Session

/-- The reader has read a complete frame: the history records it. -/
def Session.consume (s : Session) (hdr : MuxHeader) (data : Bytes) : Session :=
  { s with parsed := s.parsed ++ [(hdr, data)], reader := handleFrame hdr data }

inductive Step (s : Session) : Label → Session → Prop
  /- `reader_task`: the back-pressure loop -/
  | readerTop (h : s.reader = .top) :
      Step s .reader
        { s with reader := if s.bucket ≤ 0 then .checkClosed else .header [] }
  | readerCheckClosed (h : s.reader = .checkClosed) :
      Step s .reader { s with reader := if s.closed then .ended else .park }
  | readerPark (h : s.reader = .park) :
      Step s .reader
        { s with
          bucketNotify := s.bucketNotify.notified.1
          reader := if s.bucketNotify.notified.2 then .recheck else .parked }
  | readerWake {n : Notify} (h : s.reader = .parked) (hn : s.bucketNotify.wake? = some n) :
      Step s .reader { s with bucketNotify := n, reader := .recheck }
  | readerRecheck (h : s.reader = .recheck) :
      Step s .reader { s with reader := if s.closed then .ended else .top }
  /- `reader_task`: the two `read_exact` calls, which take any number of the
  bytes available -/
  | readerHeader {buf : Bytes} (k : Nat) (h : s.reader = .header buf) (hk : 0 < k)
      (hbuf : buf.length + k ≤ HEADER_SIZE) (hin : k ≤ s.inbound.length) :
      Step s .reader
        { s with
          inbound := s.inbound.drop k
          reader :=
            if buf.length + k = HEADER_SIZE then .decoded (buf ++ s.inbound.take k)
            else .header (buf ++ s.inbound.take k) }
  | readerDecodeErr {buf : Bytes} {e : IoError} (h : s.reader = .decoded buf)
      (hcheck : checkHeader s.config.version (MuxHeader.decode buf) = .error e) :
      Step s .reader { s with dataReady := true, reader := .failing (.record e) }
  | readerDecodeBody {buf : Bytes} (h : s.reader = .decoded buf)
      (hcheck : checkHeader s.config.version (MuxHeader.decode buf) = .ok ())
      (hwant : 0 < want (MuxHeader.decode buf)) :
      Step s .reader { s with dataReady := true, reader := .body (MuxHeader.decode buf) [] }
  | readerDecodeEmpty {buf : Bytes} (h : s.reader = .decoded buf)
      (hcheck : checkHeader s.config.version (MuxHeader.decode buf) = .ok ())
      (hwant : want (MuxHeader.decode buf) = 0) :
      Step s .reader
        (({ s with dataReady := true } : Session).consume (MuxHeader.decode buf) [])
  | readerBody {hdr : MuxHeader} {buf : Bytes} (k : Nat) (h : s.reader = .body hdr buf)
      (hk : 0 < k) (hbuf : buf.length + k < want hdr) (hin : k ≤ s.inbound.length) :
      Step s .reader
        { s with
          inbound := s.inbound.drop k
          reader := .body hdr (buf ++ s.inbound.take k) }
  | readerBodyDone {hdr : MuxHeader} {buf : Bytes} (k : Nat) (h : s.reader = .body hdr buf)
      (hk : 0 < k) (hbuf : buf.length + k = want hdr) (hin : k ≤ s.inbound.length) :
      Step s .reader
        (({ s with inbound := s.inbound.drop k } : Session).consume hdr
          (buf ++ s.inbound.take k))
  | readerHeaderEof {buf : Bytes} (h : s.reader = .header buf) (hin : s.inbound = [])
      (heof : s.inEof = true) :
      Step s .reader { s with reader := .failing (.record ⟨.unexpectedEof, "early eof"⟩) }
  | readerBodyEof {hdr : MuxHeader} {buf : Bytes} (h : s.reader = .body hdr buf)
      (hin : s.inbound = []) (heof : s.inEof = true) :
      Step s .reader { s with reader := .failing (.record ⟨.unexpectedEof, "early eof"⟩) }
  | readerHeaderError {buf : Bytes} (e : IoError) (h : s.reader = .header buf) :
      Step s .readError { s with reader := .failing (.record e) }
  | readerBodyError {hdr : MuxHeader} {buf : Bytes} (e : IoError)
      (h : s.reader = .body hdr buf) :
      Step s .readError { s with reader := .failing (.record e) }
  /- `reader_task`: SYN.  The check and the insertion lock the table separately. -/
  | readerSynCheck {sid : UInt32} (h : s.reader = .synCheck sid) :
      Step s .reader
        { s with reader := if (s.streams sid).isSome then .top else .synInsert sid }
  | readerSynInsert {sid : UInt32} (h : s.reader = .synInsert sid) :
      Step s .reader
        ((s.insertStream sid { Handle.vacant with op := .queued }).setReader
          (.accept s.nextRef))
  | readerAcceptClosed {r : Nat} (h : s.reader = .accept r) (hc : s.acceptClosed = true) :
      Step s .reader ((s.setOp r .dropFin).setReader .ended)
  | readerAcceptSend {r : Nat} (h : s.reader = .accept r) (hc : s.acceptClosed = false)
      (hlen : s.acceptQueue.length < DEFAULT_ACCEPT_BACKLOG) :
      Step s .reader { s with acceptQueue := s.acceptQueue ++ [r], reader := .top }
  | readerAcceptFull {r : Nat} (h : s.reader = .accept r) (hc : s.acceptClosed = false)
      (hlen : DEFAULT_ACCEPT_BACKLOG ≤ s.acceptQueue.length) :
      Step s .reader { s with reader := .acceptFull r }
  | readerAcceptGiveUp {r : Nat} (h : s.reader = .acceptFull r) (hc : s.closed = true) :
      Step s .reader ((s.setOp r .dropFin).setReader .ended)
  | readerAcceptWait {r : Nat} (h : s.reader = .acceptFull r) (hc : s.closed = false) :
      Step s .reader { s with reader := .acceptSleep r }
  | readerAcceptRetry {r : Nat} (h : s.reader = .acceptSleep r) :
      Step s .reader { s with reader := .accept r }
  /- `reader_task`: FIN -/
  | readerFinMiss {sid : UInt32} (h : s.reader = .finLookup sid)
      (hs : s.streams sid = none) : Step s .reader { s with reader := .top }
  | readerFinHit {sid : UInt32} {r : Nat} (h : s.reader = .finLookup sid)
      (hs : s.streams sid = some r) : Step s .reader { s with reader := .finSet r }
  | readerFinSet {r : Nat} (h : s.reader = .finSet r) :
      Step s .reader
        (((s.wakeReader r).setObj r (s.objs r).setFin).setReader .top)
  /- `reader_task`: PSH.  The table lock is released before the tokens are spent,
  and the bucket and the stream are two more accesses. -/
  | readerPshMiss {sid : UInt32} {data : Bytes} (h : s.reader = .pshLookup sid data)
      (hs : s.streams sid = none) : Step s .reader { s with reader := .top }
  | readerPshHit {sid : UInt32} {data : Bytes} {r : Nat} (h : s.reader = .pshLookup sid data)
      (hs : s.streams sid = some r) : Step s .reader { s with reader := .pshSpend r data }
  | readerPshSpend {r : Nat} {data : Bytes} (h : s.reader = .pshSpend r data) :
      Step s .reader
        { s with bucket := s.bucket - data.length, reader := .pshPush r data }
  | readerPshPush {r : Nat} {data : Bytes} (h : s.reader = .pshPush r data) :
      Step s .reader
        (((s.wakeReader r).setObj r ((s.objs r).pushBytes data)).setReader .top)
  | readerFail {pc : FailPc} {next : Option FailPc} {t : Session}
      (h : s.reader = .failing pc) (hf : FailStep s pc t next) :
      Step s .reader { t with reader := .ofFail next }
  /- `task.abort()` ends the reader at an await; a stream it still holds is dropped -/
  | readerAbort (ha : s.aborted = true)
      (h : (s.reader = .parked ∨ ∃ buf, s.reader = .header buf) ∨
        ∃ hdr buf, s.reader = .body hdr buf) :
      Step s .reader
        { s with bucketNotify := s.bucketNotify.cancel, reader := .ended }
  | readerAbortAccept {r : Nat} (ha : s.aborted = true) (h : s.reader = .acceptSleep r) :
      Step s .reader ((s.setOp r .dropFin).setReader .ended)
  /- `writer_task` -/
  | writerTake {q : WriteQueue} {batch : List MuxFrame} {ws : List Waker} {out : Bytes}
      (h : s.writer = .take) (hq : s.queue.takeBatch = some (q, batch, ws))
      (henc : encodeBatch batch = .ok out) :
      Step s .writer
        { s with
          queue := q, woken := s.woken ++ ws, taken := s.taken ++ batch
          writer := .writing out batch.length }
  | writerEncodeErr {q : WriteQueue} {batch : List MuxFrame} {ws : List Waker} {e : IoError}
      (h : s.writer = .take) (hq : s.queue.takeBatch = some (q, batch, ws))
      (henc : encodeBatch batch = .error e) :
      Step s .writer
        { s with
          queue := q, woken := s.woken ++ ws, taken := s.taken ++ batch
          writer := .failing (.record e) }
  | writerEmpty (h : s.writer = .take) (hq : s.queue.takeBatch = none) :
      Step s .writer { s with writer := .checkClosed }
  | writerCheckClosed (h : s.writer = .checkClosed) :
      Step s .writer { s with writer := if s.queue.closed then .shutdown else .park }
  | writerPark (h : s.writer = .park) :
      Step s .writer
        { s with
          queue := { s.queue with ready := s.queue.ready.notified.1 }
          writer := if s.queue.ready.notified.2 then .take else .parked }
  | writerWake {n : Notify} (h : s.writer = .parked) (hn : s.queue.ready.wake? = some n) :
      Step s .writer { s with queue := { s.queue with ready := n }, writer := .take }
  | writerWrite {out : Bytes} {count : Nat} (k : Nat) (h : s.writer = .writing out count)
      (hk : k ≤ out.length) :
      Step s .writer
        { s with
          outbound := s.outbound ++ out.take k, wire := s.wire ++ out.take k
          writer := if k = out.length then .flush count else .writing (out.drop k) count }
  | writerFlush {count : Nat} (h : s.writer = .flush count) :
      Step s .writer { s with writer := .mark count }
  | writerMark {count : Nat} (h : s.writer = .mark count) :
      Step s .writer
        { s with
          queue := (s.queue.markWritten count).1
          woken := s.woken ++ (s.queue.markWritten count).2, writer := .take }
  | writerShutdown (h : s.writer = .shutdown) : Step s .writer { s with writer := .ended }
  | writerError (e : IoError)
      (h : (∃ out count, s.writer = .writing out count) ∨ ∃ count, s.writer = .flush count) :
      Step s .writeError { s with writer := .failing (.record e) }
  | writerFail {pc : FailPc} {next : Option FailPc} {t : Session}
      (h : s.writer = .failing pc) (hf : FailStep s pc t next) :
      Step s .writer { t with writer := .ofFail next }
  | writerAbort (ha : s.aborted = true)
      (h : (s.writer = .parked ∨ s.writer = .shutdown) ∨
        (∃ out count, s.writer = .writing out count) ∨ ∃ count, s.writer = .flush count) :
      Step s .writer { s with writer := .ended }
  /- `keepalive_task` -/
  | keepPing {q : WriteQueue} (h : s.keep = .select)
      (hq : s.queue.pushCtrl (MuxFrame.new s.config.version CMD_NOP 0) = some q) :
      Step s .keep { s with queue := q, keep := .notify }
  | keepPingClosed (h : s.keep = .select)
      (hq : s.queue.pushCtrl (MuxFrame.new s.config.version CMD_NOP 0) = none) :
      Step s .keep { s with keep := .ended }
  | keepNotify (h : s.keep = .notify) :
      Step s .keep { s with bucketNotify := s.bucketNotify.notifyOne, keep := .checkClosed }
  | keepDeadline (h : s.keep = .select) :
      Step s .keep
        { s with
          dataReady := false, keep := if s.dataReady then .checkClosed else .loadBucket }
  | keepLoadBucket (h : s.keep = .loadBucket) :
      Step s .keep
        { s with
          keep :=
            if s.bucket > 0 then .failing (.record ⟨.timedOut, "smux: keepalive timeout"⟩)
            else .checkClosed }
  | keepCheckClosed (h : s.keep = .checkClosed) :
      Step s .keep { s with keep := if s.closed then .ended else .select }
  | keepFail {pc : FailPc} {next : Option FailPc} {t : Session}
      (h : s.keep = .failing pc) (hf : FailStep s pc t next) :
      Step s .keep { t with keep := .ofFail next }
  | keepAbort (ha : s.aborted = true) (h : s.keep = .select) :
      Step s .keep { s with keep := .ended }
  /- `open_stream` -/
  | openStart {k : Nat} (h : s.opens k = .start) :
      Step s (.openStream k) (s.setOpen k (if s.closed then .failed else .loadGoAway))
  | openGoAway {k : Nat} (h : s.opens k = .loadGoAway) :
      Step s (.openStream k) (s.setOpen k (if s.goAway then .failed else .alloc))
  | openAlloc {k : Nat} {t : Session} {sid : UInt32} (h : s.opens k = .alloc)
      (ha : s.allocId = (t, some sid)) : Step s (.openStream k) (t.setOpen k (.insert sid))
  | openAllocErr {k : Nat} {t : Session} (h : s.opens k = .alloc)
      (ha : s.allocId = (t, none)) : Step s (.openStream k) (t.setOpen k .failed)
  | openInsert {k : Nat} {sid : UInt32} (h : s.opens k = .insert sid) :
      Step s (.openStream k)
        ((s.insertStream sid Handle.vacant).setOpen k (.pushSyn s.nextRef))
  | openPush {k r seq : Nat} {q : WriteQueue} (h : s.opens k = .pushSyn r)
      (hq : s.queue.forcePushData (MuxFrame.new s.config.version CMD_SYN (s.objs r).id)
        = .ok (q, seq)) :
      Step s (.openStream k)
        ((((s.pushData q r (MuxFrame.new s.config.version CMD_SYN (s.objs r).id)).setHandle r
          { Handle.vacant with op := .idle, lastPush := seq })).setOpen k (.opened r))
  | openPushErr {k r : Nat} {e : IoError} (h : s.opens k = .pushSyn r)
      (hq : s.queue.forcePushData (MuxFrame.new s.config.version CMD_SYN (s.objs r).id)
        = .error e) :
      Step s (.openStream k) (s.setOpen k (.unwind r))
  | openUnwind {k r : Nat} (h : s.opens k = .unwind r) :
      Step s (.openStream k) ((s.removeStream (s.objs r).id).setOpen k .failed)
  /- `MuxSession::close`, and the owner's other calls -/
  | closeStart {k : Nat} (h : s.closes k = .start) :
      Step s (.close k) (s.setClose k (.failing (.record closedErr)))
  | closeFail {k : Nat} {pc : FailPc} {next : Option FailPc} {t : Session}
      (h : s.closes k = .failing pc) (hf : FailStep s pc t next) :
      Step s (.close k) (t.setClose k (.ofFail next))
  | closeAbort {k : Nat} (h : s.closes k = .abort) :
      Step s (.close k) ({ s with aborted := true }.setClose k .done)
  | acceptStream {r : Nat} {rest : List Nat} (h : s.acceptQueue = r :: rest) :
      Step s .app ({ s with acceptQueue := rest }.setOp r .idle)
  | dropReceiver {k : Nat} (h : s.closes k = .done) :
      Step s .app
        { s with
          acceptClosed := true, acceptQueue := []
          handles := fun r =>
            if r ∈ s.acceptQueue then { s.handles r with op := .dropFin } else s.handles r }
  /- `MuxStream::poll_read` -/
  | callRead {r : Nat} (cap : Room) (cx : Waker) (h : (s.handles r).op = .idle) :
      Step s (.stream r) (s.setOp r (.read cap cx))
  | streamRead {r : Nat} {cap : Room} {cx : Waker} (h : (s.handles r).op = .read cap cx) :
      Step s (.stream r)
        ((s.setObj r ((s.objs r).pollRead s.closed cap cx).1).setHandle r
          ((s.handles r).afterRead ((s.objs r).pollRead s.closed cap cx).2))
  /- `SessionShared::return_tokens`, for a read and for a drop -/
  | refundNone {r : Nat} {d : Bool} (h : (s.handles r).op = .refund 0 d) :
      Step s (.stream r) (s.setOp r (.afterRefund d))
  | refundAdd {r n : Nat} {d : Bool} (h : (s.handles r).op = .refund n d) (hn : 0 < n) :
      Step s (.stream r)
        ({ s with bucket := s.bucket + n }.setOp r
          (if s.bucket ≤ 0 ∧ s.bucket + n > 0 then .refundNotify d else .afterRefund d))
  | refundNotify {r : Nat} {d : Bool} (h : (s.handles r).op = .refundNotify d) :
      Step s (.stream r)
        ({ s with bucketNotify := s.bucketNotify.notifyOne }.setOp r (.afterRefund d))
  /- `MuxStream::poll_write` -/
  | callWrite {r : Nat} (buf : Bytes) (cx : Waker) (h : (s.handles r).op = .idle)
      (hbuf : buf ≠ []) (hfin : (s.handles r).finSent = false) :
      Step s (.stream r) (s.setOp r (.writeClosed buf cx))
  | writeClosed {r : Nat} {buf : Bytes} {cx : Waker}
      (h : (s.handles r).op = .writeClosed buf cx) :
      Step s (.stream r) (s.setOp r (if s.closed then .idle else .writeDead buf cx))
  | writeDead {r : Nat} {buf : Bytes} {cx : Waker}
      (h : (s.handles r).op = .writeDead buf cx) :
      Step s (.stream r) (s.setOp r (if (s.objs r).dead then .idle else .writeReserve buf cx))
  | writeReserve {r : Nat} {buf : Bytes} {cx : Waker}
      (h : (s.handles r).op = .writeReserve buf cx) :
      Step s (.stream r)
        ({ s with queue := (s.queue.pollReserve cx).1 }.setOp r
          (match (s.queue.pollReserve cx).2 with
            | .ready (.ok ()) => .writePush buf
            | _ => .idle))
  | writePush {r seq : Nat} {buf : Bytes} {q : WriteQueue}
      (h : (s.handles r).op = .writePush buf)
      (hq : s.queue.forcePushData (MuxFrame.withData s.config.version CMD_PSH (s.objs r).id
        (buf.take s.config.maxFrameSize)) = .ok (q, seq)) :
      Step s (.stream r)
        ((s.pushData q r (MuxFrame.withData s.config.version CMD_PSH (s.objs r).id
          (buf.take s.config.maxFrameSize))).setHandle r
          { s.handles r with
            lastPush := seq, op := .idle
            put := (s.handles r).put ++ buf.take s.config.maxFrameSize })
  | writePushErr {r : Nat} {buf : Bytes} {e : IoError} (h : (s.handles r).op = .writePush buf)
      (hq : s.queue.forcePushData (MuxFrame.withData s.config.version CMD_PSH (s.objs r).id
        (buf.take s.config.maxFrameSize)) = .error e) :
      Step s (.stream r) (s.setOp r .idle)
  /- `MuxStream::poll_flush` and `poll_shutdown` -/
  | callFlush {r : Nat} (cx : Waker) (h : (s.handles r).op = .idle) :
      Step s (.stream r) (s.setOp r (.flush cx))
  | streamFlush {r : Nat} {cx : Waker}
      (h : (s.handles r).op = .flush cx ∨ (s.handles r).op = .shutFlush cx) :
      Step s (.stream r)
        ({ s with queue := (s.queue.pollFlushed cx (s.handles r).lastPush).1 }.setOp r .idle)
  | callShutdown {r : Nat} (cx : Waker) (h : (s.handles r).op = .idle) :
      Step s (.stream r)
        (s.setOp r (if (s.handles r).finSent then .shutFlush cx else .shutClosed cx))
  | shutClosed {r : Nat} {cx : Waker} (h : (s.handles r).op = .shutClosed cx)
      (hc : s.closed = true) :
      Step s (.stream r) (s.setHandle r { s.handles r with finSent := true, op := .idle })
  | shutOpen {r : Nat} {cx : Waker} (h : (s.handles r).op = .shutClosed cx)
      (hc : s.closed = false) : Step s (.stream r) (s.setOp r (.shutFin cx))
  /- `MuxStream::send_fin`, for a shutdown and for a drop -/
  | sendFin {r seq : Nat} {next : Op} {q : WriteQueue}
      (h : (∃ cx, (s.handles r).op = .shutFin cx ∧ next = .shutFlush cx) ∨
        (s.handles r).op = .dropFin ∧ next = .dropRemove)
      (hq : s.queue.forcePushData (MuxFrame.new s.config.version CMD_FIN (s.objs r).id)
        = .ok (q, seq)) :
      Step s (.stream r)
        ((s.pushData q r (MuxFrame.new s.config.version CMD_FIN (s.objs r).id)).setHandle r
          { s.handles r with finSent := true, lastPush := seq, op := next })
  | sendFinErr {r : Nat} {next : Op} {e : IoError}
      (h : (∃ cx, (s.handles r).op = .shutFin cx ∧ next = .shutFlush cx) ∨
        (s.handles r).op = .dropFin ∧ next = .dropRemove)
      (hq : s.queue.forcePushData (MuxFrame.new s.config.version CMD_FIN (s.objs r).id)
        = .error e) :
      Step s (.stream r) (s.setHandle r { s.handles r with finSent := true, op := next })
  /- `Drop for MuxStream` -/
  | callDrop {r : Nat} (h : (s.handles r).op = .idle) :
      Step s (.stream r)
        (s.setOp r (if (s.handles r).finSent then .dropRemove else .dropFin))
  | dropRemove {r r' : Nat} (h : (s.handles r).op = .dropRemove)
      (hs : s.streams (s.objs r).id = some r') :
      Step s (.stream r) ((s.removeStream (s.objs r).id).setOp r .dropRecycle)
  | dropMissing {r : Nat} (h : (s.handles r).op = .dropRemove)
      (hs : s.streams (s.objs r).id = none) : Step s (.stream r) (s.setOp r .gone)
  | dropRecycle {r : Nat} (h : (s.handles r).op = .dropRecycle) :
      Step s (.stream r)
        ((s.setObj r (s.objs r).recycle.1).setOp r (.refund (s.objs r).recycle.2 true))
  /- the transport -/
  | arrive (bs : Bytes) :
      Step s (.arrive bs)
        { s with inbound := s.inbound ++ bs, arrived := s.arrived ++ bs }
  | arriveEof : Step s .arriveEof { s with inEof := true }
  | carry (n : Nat) : Step s (.carry n) { s with outbound := s.outbound.drop n }

end Mux
end RtProxy
