import RtProxy.Mux.Stream
import Mathlib.Logic.Function.Basic

/-!
A smux session as a transition relation (`SessionShared`, `MuxSession`,
`reader_task`, `writer_task`, `keepalive_task` and `MuxStream` in `mux.rs`).

The threads of a session are its reader, writer and keepalive task, one thread
for each `open_stream` and each `close` call, and one for each `MuxStream`
handle, which runs at most one call at a time because its methods take
`&mut self`.  One step of a thread is one lock acquisition or one atomic access
of the shared state, together with the local work up to the next one.

Streams are numbered by the order in which their `StreamShared` is allocated;
the number plays the part of the `Arc`.
-/

namespace RtProxy
namespace Mux

/-! ## Program counters -/

/-- `SessionShared::fail`, one constructor for each shared access. -/
inductive FailPc
  | record (e : IoError)
  | swap
  | closeQueue
  | drain
  | setDead (refs : List Nat)
  | notifyWaiters
  | notifyOne
deriving Repr, DecidableEq

/-- `reader_task`.  `header` and `body` are the two `read_exact` calls with what
they have read so far; `decoded` holds a complete header. -/
inductive ReaderPc
  | top
  | checkClosed
  | park
  | parked
  | recheck
  | header (buf : Bytes)
  | decoded (buf : Bytes)
  | body (hdr : MuxHeader) (buf : Bytes)
  | synCheck (sid : UInt32)
  | synInsert (sid : UInt32)
  | accept (r : Nat)
  | acceptFull (r : Nat)
  | acceptSleep (r : Nat)
  | finLookup (sid : UInt32)
  | finSet (r : Nat)
  | pshLookup (sid : UInt32) (data : Bytes)
  | pshSpend (r : Nat) (data : Bytes)
  | pshPush (r : Nat) (data : Bytes)
  | failing (pc : FailPc)
  | ended
deriving Repr, DecidableEq

/-- `writer_task`.  `writing` holds what `write_all` has still to write. -/
inductive WriterPc
  | take
  | checkClosed
  | park
  | parked
  | writing (out : Bytes) (count : Nat)
  | flush (count : Nat)
  | mark (count : Nat)
  | shutdown
  | failing (pc : FailPc)
  | ended
deriving Repr, DecidableEq

/-- `keepalive_task`. -/
inductive KeepPc
  | select
  | notify
  | loadBucket
  | checkClosed
  | failing (pc : FailPc)
  | ended
deriving Repr, DecidableEq

/-- One call of `open_stream`. -/
inductive OpenPc
  | start
  | loadGoAway
  | alloc
  | insert (sid : UInt32)
  | pushSyn (r : Nat)
  | unwind (r : Nat)
  | opened (r : Nat)
  | failed
deriving Repr, DecidableEq

/-- One call of `MuxSession::close`. -/
inductive ClosePc
  | start
  | failing (pc : FailPc)
  | abort
  | done
deriving Repr, DecidableEq

/-- The space left in a non-empty read buffer. -/
abbrev Room := { n : Nat // 0 < n }

/-- Where a `MuxStream` stands.  `absent`: no handle was made yet; `queued`: it
is on its way to `accept_stream`; the constructors from `dropFin` on, and a
refund with its flag set, belong to `Drop`. -/
inductive Op
  | absent
  | queued
  | idle
  | read (cap : Room) (cx : Waker)
  | refund (n : Nat) (dropping : Bool)
  | refundNotify (dropping : Bool)
  | writeClosed (buf : Bytes) (cx : Waker)
  | writeDead (buf : Bytes) (cx : Waker)
  | writeReserve (buf : Bytes) (cx : Waker)
  | writePush (buf : Bytes)
  | flush (cx : Waker)
  | shutClosed (cx : Waker)
  | shutFin (cx : Waker)
  | shutFlush (cx : Waker)
  | dropFin
  | dropRemove
  | dropRecycle
  | gone
deriving Repr, DecidableEq

/-- The handle is being dropped or has been. -/
def Op.dropping : Op → Bool
  | .refund _ d => d
  | .refundNotify d => d
  | .dropFin | .dropRemove | .dropRecycle | .gone => true
  | _ => false

/-- Where a call that refunds tokens goes when it is done. -/
def Op.afterRefund (dropping : Bool) : Op := if dropping then .gone else .idle

/-- A `MuxStream`.  The last three fields are history: the bytes `poll_read` has
returned, the bytes `poll_write` has accepted, and whether `poll_read` has
reported end of file into a non-empty buffer. -/
structure Handle where
  lastPush : Nat
  finSent : Bool
  op : Op
  got : Bytes
  put : Bytes
  eof : Bool
deriving Repr, DecidableEq

namespace Handle

/-- The slot of a stream that has no `MuxStream` yet. -/
def vacant : Handle :=
  { lastPush := 0, finSent := false, op := .absent, got := [], put := [], eof := false }

/-- The end of the critical section of `poll_read`. -/
def afterRead (h : Handle) : StreamState.ReadOut → Handle
  | .data bs => { h with got := h.got ++ bs, op := .refund bs.length false }
  | .eof => { h with eof := true, op := .idle }
  | .err => { h with op := .idle }
  | .pending => { h with op := .idle }

end Handle

/-! ## Shared state -/

/-- `max_receive_buffer as i64`.  The casts of `spend_tokens` and `return_tokens`
are of byte counts held in memory, which are below `2 ^ 63`, so they are exact
and the model leaves them out; the configured bound may be any `usize`. -/
def asI64 (n : Nat) : Int := if n < 2 ^ 63 then n else n - 2 ^ 64

/-- The state of a session and of its transport.  `inbound` holds bytes that have
arrived and are unread, `outbound` bytes written and not yet carried away.

The last five fields are history: the frames pushed on the data lane with the
stream that pushed them, the frames drained by the writer, the bytes written to
the transport, the bytes that arrived, and the frames the reader has consumed,
each as its header and the payload read for it. -/
structure Session where
  config : MuxConfig
  streams : UInt32 → Option Nat
  objs : Nat → StreamState
  handles : Nat → Handle
  nextRef : Nat
  nextStreamId : UInt32
  goAway : Bool
  closed : Bool
  error : Option IoError
  bucket : Int
  bucketNotify : Notify
  dataReady : Bool
  queue : WriteQueue
  reader : ReaderPc
  writer : WriterPc
  keep : KeepPc
  opens : Nat → OpenPc
  closes : Nat → ClosePc
  acceptQueue : List Nat
  acceptClosed : Bool
  aborted : Bool
  woken : List Waker
  inbound : Bytes
  inEof : Bool
  outbound : Bytes
  sent : List (Nat × MuxFrame)
  taken : List MuxFrame
  wire : Bytes
  arrived : Bytes
  parsed : List (MuxHeader × Bytes)

namespace Session

/-- `MuxSession::new` on a verified configuration; `isClient` picks the parity of
the stream ids. -/
def new (config : MuxConfig) (isClient : Bool) : Session :=
  { config := config
    streams := fun _ => none
    objs := fun _ => StreamState.new 0
    handles := fun _ => Handle.vacant
    nextRef := 0
    nextStreamId := if isClient then 1 else 0
    goAway := false
    closed := false
    error := none
    bucket := asI64 config.maxReceiveBuffer
    bucketNotify := Notify.init
    dataReady := false
    queue := WriteQueue.new config.sendQueueLimit
    reader := .top
    writer := .take
    keep := if config.keepAliveDisabled then .ended else .select
    opens := fun _ => .start
    closes := fun _ => .start
    acceptQueue := []
    acceptClosed := false
    aborted := false
    woken := []
    inbound := []
    inEof := false
    outbound := []
    sent := []
    taken := []
    wire := []
    arrived := []
    parsed := [] }

/-- The stream `r` is the one the table holds under its id. -/
def Registered (s : Session) (r : Nat) : Prop := s.streams (s.objs r).id = some r

instance (s : Session) (r : Nat) : Decidable (s.Registered r) :=
  inferInstanceAs (Decidable (s.streams (s.objs r).id = some r))

def setObj (s : Session) (r : Nat) (st : StreamState) : Session :=
  { s with objs := Function.update s.objs r st }

def setHandle (s : Session) (r : Nat) (h : Handle) : Session :=
  { s with handles := Function.update s.handles r h }

def setOp (s : Session) (r : Nat) (op : Op) : Session :=
  s.setHandle r { s.handles r with op := op }

def setReader (s : Session) (pc : ReaderPc) : Session := { s with reader := pc }

def setOpen (s : Session) (k : Nat) (pc : OpenPc) : Session :=
  { s with opens := Function.update s.opens k pc }

def setClose (s : Session) (k : Nat) (pc : ClosePc) : Session :=
  { s with closes := Function.update s.closes k pc }

/-- Wakes the task parked in a read of stream `r`, if any. -/
def wakeReader (s : Session) (r : Nat) : Session :=
  { s with woken := s.woken ++ (s.objs r).readWaker.toList }

/-- Allocates a stream under `sid` and registers it, as `open_stream` and the
reader's SYN handling do; `h` is the handle it starts with. -/
def insertStream (s : Session) (sid : UInt32) (h : Handle) : Session :=
  { s with
    objs := Function.update s.objs s.nextRef (StreamState.new sid)
    handles := Function.update s.handles s.nextRef h
    streams := Function.update s.streams sid (some s.nextRef)
    nextRef := s.nextRef + 1 }

def removeStream (s : Session) (sid : UInt32) : Session :=
  { s with streams := Function.update s.streams sid none }

/-- The streams in the table. -/
def registered (s : Session) : List Nat := (List.range s.nextRef).filter (s.Registered ·)

/-- `force_push_data` of a frame of stream `r`, together with the history. -/
def pushData (s : Session) (q : WriteQueue) (r : Nat) (f : MuxFrame) : Session :=
  { s with queue := q, sent := s.sent ++ [(r, f)] }

/-! ## Pure parts of the tasks -/

/-- How many bytes the reader reads after a header. -/
def want (hdr : MuxHeader) : Nat :=
  if hdr.cmd = CMD_PSH then hdr.length.toNat
  else if hdr.cmd = CMD_UPD then UPD_SIZE
  else 0

/-- Where the reader goes with a frame it has read completely. -/
def handleFrame (hdr : MuxHeader) (data : Bytes) : ReaderPc :=
  if hdr.cmd = CMD_SYN then .synCheck hdr.sid
  else if hdr.cmd = CMD_FIN then .finLookup hdr.sid
  else if hdr.cmd = CMD_PSH ∧ 0 < data.length then .pshLookup hdr.sid data
  else .top

/-- What `MuxHeader::decode` and the match on the command do with a header: fail
the session, or read the payload. -/
def checkHeader (version : UInt8) (hdr : MuxHeader) : Except IoError Unit :=
  if hdr.version ≠ version then
    .error ⟨.invalidData, s!"smux: invalid protocol version {hdr.version}"⟩
  else if hdr.cmd = CMD_NOP ∨ hdr.cmd = CMD_SYN ∨ hdr.cmd = CMD_FIN ∨ hdr.cmd = CMD_PSH
      ∨ hdr.cmd = CMD_UPD then .ok ()
  else .error ⟨.invalidData, s!"smux: invalid protocol, unknown command {hdr.cmd}"⟩

/-- The writer's encoding of a batch. -/
def encodeBatch (batch : List MuxFrame) : Except IoError Bytes :=
  batch.foldlM (fun out f => f.encodeInto out) []

/-- `SessionShared::next_id` after its check of `go_away`: the counter's critical
section, which stores `go_away` when the counter has wrapped. -/
def allocId (s : Session) : Session × Option UInt32 :=
  if s.nextStreamId + 2 = (s.nextStreamId + 2) % 2 then
    ({ s with nextStreamId := s.nextStreamId + 2, goAway := true }, none)
  else ({ s with nextStreamId := s.nextStreamId + 2 }, some (s.nextStreamId + 2))

theorem allocId_eq_some {s t : Session} {sid : UInt32} (h : s.allocId = (t, some sid)) :
    sid = s.nextStreamId + 2 ∧ sid ≠ sid % 2 ∧ t = { s with nextStreamId := sid } := by
  unfold allocId at h
  split_ifs at h with hwrap
  · cases h
  · obtain ⟨rfl, hsid⟩ := Prod.mk.inj h
    obtain rfl := Option.some.inj hsid
    exact ⟨rfl, hwrap, rfl⟩

theorem allocId_eq_none {s t : Session} (h : s.allocId = (t, none)) :
    t = { s with nextStreamId := s.nextStreamId + 2, goAway := true } := by
  unfold allocId at h
  split_ifs at h
  · exact (Prod.mk.inj h).1.symm
  · cases h

/-! ## Updates of one slot -/

variable (s : Session) (r k : Nat)

@[simp] theorem objs_setObj_self (st : StreamState) : (s.setObj r st).objs r = st :=
  Function.update_self _ _ _

theorem objs_setObj_of_ne {i : Nat} (h : i ≠ r) (st : StreamState) :
    (s.setObj r st).objs i = s.objs i := Function.update_of_ne h _ _

@[simp] theorem handles_setHandle_self (h : Handle) : (s.setHandle r h).handles r = h :=
  Function.update_self _ _ _

theorem handles_setHandle_of_ne {i : Nat} (hi : i ≠ r) (h : Handle) :
    (s.setHandle r h).handles i = s.handles i := Function.update_of_ne hi _ _

@[simp] theorem opens_setOpen_self (pc : OpenPc) : (s.setOpen k pc).opens k = pc :=
  Function.update_self _ _ _

theorem opens_setOpen_of_ne {i : Nat} (h : i ≠ k) (pc : OpenPc) :
    (s.setOpen k pc).opens i = s.opens i := Function.update_of_ne h _ _

@[simp] theorem closes_setClose_self (pc : ClosePc) : (s.setClose k pc).closes k = pc :=
  Function.update_self _ _ _

theorem closes_setClose_of_ne {i : Nat} (h : i ≠ k) (pc : ClosePc) :
    (s.setClose k pc).closes i = s.closes i := Function.update_of_ne h _ _

end Session

end Mux
end RtProxy
