import RtProxy.Lib.Notify
import RtProxy.Mux.Frame

/-!
The outbound frame queue of a session (`WriteQueue` in `mux.rs`).

Every function is one critical section of the queue's mutex.  The wakers a
section takes out of the queue are woken by the function itself, so a call
returns the wakers it woke; the `ready.notify_one()` that follows a push is part
of the same step.
-/

namespace RtProxy
namespace Mux

/-- A task's waker, by the number of the task. -/
abbrev Waker := Nat

inductive Poll (α : Type)
  | ready (a : α)
  | pending
deriving Repr, DecidableEq

def closedErr : IoError := ⟨.brokenPipe, "smux: session closed"⟩

/-- Registers a task once. -/
def register (wakers : List Waker) (cx : Waker) : List Waker :=
  if cx ∈ wakers then wakers else wakers ++ [cx]

/-- `ctrl` holds the NOP keepalives and is written first; `data` holds SYN, PSH
and FIN in push order.  `written` and `pushed` count frames of both lanes. -/
structure WriteQueue where
  ctrl : List MuxFrame
  data : List MuxFrame
  dataBytes : Nat
  pushed : Nat
  written : Nat
  closed : Bool
  spaceWakers : List Waker
  flushWakers : List Waker
  ready : Notify
  limit : Nat
deriving Repr, DecidableEq

namespace WriteQueue

def new (limit : Nat) : WriteQueue :=
  { ctrl := [], data := [], dataBytes := 0, pushed := 0, written := 0, closed := false
    spaceWakers := [], flushWakers := [], ready := Notify.init, limit := limit }

/-- `none` when the queue is closed. -/
def pushCtrl (q : WriteQueue) (frame : MuxFrame) : Option WriteQueue :=
  if q.closed then none
  else
    some { q with
      ctrl := q.ctrl ++ [frame]
      pushed := q.pushed + 1
      ready := q.ready.notifyOne }

/-- Queues a frame regardless of the byte limit and returns its sequence number. -/
def forcePushData (q : WriteQueue) (frame : MuxFrame) : Except IoError (WriteQueue × Nat) :=
  if q.closed then .error closedErr
  else
    .ok ({ q with
      dataBytes := q.dataBytes + frame.data.length
      data := q.data ++ [frame]
      pushed := q.pushed + 1
      ready := q.ready.notifyOne }, q.pushed + 1)

def pollReserve (q : WriteQueue) (cx : Waker) : WriteQueue × Poll (Except IoError Unit) :=
  if q.closed then (q, .ready (.error closedErr))
  else if q.dataBytes < q.limit then (q, .ready (.ok ()))
  else ({ q with spaceWakers := register q.spaceWakers cx }, .pending)

def pollFlushed (q : WriteQueue) (cx : Waker) (seq : Nat) :
    WriteQueue × Poll (Except IoError Unit) :=
  if q.written ≥ seq then (q, .ready (.ok ()))
  else if q.closed then (q, .ready (.error closedErr))
  else ({ q with flushWakers := register q.flushWakers cx }, .pending)

/-- Drains everything queued, control frames first. -/
def takeBatch (q : WriteQueue) : Option (WriteQueue × List MuxFrame × List Waker) :=
  if q.ctrl.isEmpty && q.data.isEmpty then none
  else
    some ({ q with ctrl := [], data := [], dataBytes := 0, spaceWakers := [] },
      q.ctrl ++ q.data, q.spaceWakers)

def markWritten (q : WriteQueue) (count : Nat) : WriteQueue × List Waker :=
  ({ q with written := q.written + count, flushWakers := [] }, q.flushWakers)

def close (q : WriteQueue) : WriteQueue × List Waker :=
  if q.closed then (q, [])
  else
    ({ q with
      closed := true, spaceWakers := [], flushWakers := [], ready := q.ready.notifyOne },
      q.spaceWakers ++ q.flushWakers)

/-! ## What each section does to the lanes

A push appends to one lane, `takeBatch` empties both, and the other sections
leave the lanes alone. -/

theorem pushCtrl_eq_some {q q' : WriteQueue} {f : MuxFrame} (h : q.pushCtrl f = some q') :
    q'.data = q.data ∧ q'.ctrl = q.ctrl ++ [f] ∧ q'.closed = q.closed := by
  unfold pushCtrl at h
  split at h
  · cases h
  · cases h
    exact ⟨rfl, rfl, rfl⟩

theorem forcePushData_eq_ok {q q' : WriteQueue} {f : MuxFrame} {seq : Nat}
    (h : q.forcePushData f = .ok (q', seq)) :
    q'.data = q.data ++ [f] ∧ q'.ctrl = q.ctrl ∧ q'.closed = q.closed := by
  unfold forcePushData at h
  split at h
  · cases h
  · cases h
    exact ⟨rfl, rfl, rfl⟩

theorem takeBatch_eq_some {q q' : WriteQueue} {batch : List MuxFrame} {ws : List Waker}
    (h : q.takeBatch = some (q', batch, ws)) :
    batch = q.ctrl ++ q.data ∧ q'.data = [] ∧ q'.ctrl = [] ∧ q'.closed = q.closed := by
  unfold takeBatch at h
  split at h
  · cases h
  · cases h
    exact ⟨rfl, rfl, rfl, rfl⟩

theorem forcePushData_eq_error {q : WriteQueue} {f : MuxFrame} {e : IoError}
    (h : q.forcePushData f = .error e) : q.closed = true := by
  unfold forcePushData at h
  split at h
  · assumption
  · cases h

@[simp] theorem closed_pollReserve (q : WriteQueue) (cx : Waker) :
    (q.pollReserve cx).1.closed = q.closed := by
  unfold pollReserve
  split_ifs <;> rfl

@[simp] theorem closed_pollFlushed (q : WriteQueue) (cx : Waker) (seq : Nat) :
    (q.pollFlushed cx seq).1.closed = q.closed := by
  unfold pollFlushed
  split_ifs <;> rfl

@[simp] theorem data_pollReserve (q : WriteQueue) (cx : Waker) :
    (q.pollReserve cx).1.data = q.data := by
  unfold pollReserve
  split_ifs <;> rfl

@[simp] theorem ctrl_pollReserve (q : WriteQueue) (cx : Waker) :
    (q.pollReserve cx).1.ctrl = q.ctrl := by
  unfold pollReserve
  split_ifs <;> rfl

@[simp] theorem data_pollFlushed (q : WriteQueue) (cx : Waker) (seq : Nat) :
    (q.pollFlushed cx seq).1.data = q.data := by
  unfold pollFlushed
  split_ifs <;> rfl

@[simp] theorem ctrl_pollFlushed (q : WriteQueue) (cx : Waker) (seq : Nat) :
    (q.pollFlushed cx seq).1.ctrl = q.ctrl := by
  unfold pollFlushed
  split_ifs <;> rfl

@[simp] theorem data_markWritten (q : WriteQueue) (n : Nat) :
    (q.markWritten n).1.data = q.data := rfl

@[simp] theorem ctrl_markWritten (q : WriteQueue) (n : Nat) :
    (q.markWritten n).1.ctrl = q.ctrl := rfl

@[simp] theorem data_close (q : WriteQueue) : q.close.1.data = q.data := by
  unfold close
  split_ifs <;> rfl

@[simp] theorem ctrl_close (q : WriteQueue) : q.close.1.ctrl = q.ctrl := by
  unfold close
  split_ifs <;> rfl

end WriteQueue

end Mux
end RtProxy
