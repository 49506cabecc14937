import RtProxy.Lib.Lanes
import RtProxy.Lib.Transition
import RtProxy.Mux.Wire

/-!
What a flush of a stream waits for (`WriteQueue`, `writer_task` and `MuxStream` in
`mux.rs`).

Any number of streams push frames and any task pushes control frames, and the writer takes
all that is queued, writes it, flushes the transport and counts the frames.  A stream
compares that count with the number of its last frame, although control frames overtake it.
-/

namespace RtProxy
namespace Mux

open Transition

/-- Where `writer_task` stands with its batch. -/
inductive Phase
  | idle
  | writing (out : Bytes) (count : Nat)
  | flush (count : Nat)
  | mark (count : Nat)
  | stopped
deriving Repr, DecidableEq

/-- The frames that are drained and not counted yet. -/
def Phase.count : Phase → Nat
  | .idle | .stopped => 0
  | .writing _ count | .flush count | .mark count => count

/-- A write queue, its writer and the streams that use it, each with the number of its last
frame.

The other fields are history: the frames in the order of their numbers, with the stream
that pushed them, or none for a control frame; the same for those that have left the queue;
the batches of the writer; the bytes written to the transport, and those that it had been
given when it was last flushed. -/
structure Sending where
  queue : WriteQueue
  phase : Phase
  lastPush : Nat → Nat
  pushes : List (Option Nat × MuxFrame)
  left : List (Option Nat × MuxFrame)
  taken : List MuxFrame
  wire : Bytes
  flushed : Bytes

namespace Sending

def new (limit : Nat) : Sending :=
  { queue := WriteQueue.new limit, phase := .idle, lastPush := fun _ => 0, pushes := []
    left := [], taken := [], wire := [], flushed := [] }

/-- The frames of one stream. -/
def ofStream (r : Nat) (l : List (Option Nat × MuxFrame)) : List (Option Nat × MuxFrame) :=
  Lanes.only Prod.fst (some r) l

/-- The frames that are in the queue. -/
def waiting (s : Sending) : List (Option Nat × MuxFrame) := s.pushes.drop s.left.length

/-- The waiting frames, control frames first. -/
def next (s : Sending) : List (Option Nat × MuxFrame) :=
  Lanes.drain Prod.fst Option.isNone s.waiting

/-- `MuxStream::poll_flush`. -/
def pollFlush (s : Sending) (r : Nat) (cx : Waker) : WriteQueue × Poll (Except IoError Unit) :=
  s.queue.pollFlushed cx (s.lastPush r)

/-- Who moves: a task that pushes a control frame, closes the queue or waits for its
notification, a stream, or the writer. -/
inductive Label
  | task
  | stream (r : Nat)
  | writer
deriving Repr, DecidableEq

inductive Step (s : Sending) : Label → Sending → Prop
  | pushCtrl {f : MuxFrame} {q : WriteQueue} (hq : s.queue.pushCtrl f = some q) :
      Step s .task { s with queue := q, pushes := s.pushes ++ [(none, f)] }
  | close : Step s .task { s with queue := s.queue.close.1 }
  | notify (n : Notify) : Step s .task { s with queue := { s.queue with ready := n } }
  /- `poll_write` and `send_fin` of a stream, and the SYN of `open_stream` -/
  | push {r seq : Nat} {f : MuxFrame} {q : WriteQueue}
      (hq : s.queue.forcePushData f = .ok (q, seq)) :
      Step s (.stream r)
        { s with
          queue := q, lastPush := Function.update s.lastPush r seq
          pushes := s.pushes ++ [(some r, f)] }
  | reserve {r : Nat} (cx : Waker) :
      Step s (.stream r) { s with queue := (s.queue.pollReserve cx).1 }
  | pollFlush {r : Nat} (cx : Waker) :
      Step s (.stream r) { s with queue := (s.pollFlush r cx).1 }
  /- `writer_task` -/
  | take {q : WriteQueue} {batch : List MuxFrame} {ws : List Waker} {out : Bytes}
      (h : s.phase = .idle) (hq : s.queue.takeBatch = some (q, batch, ws))
      (henc : Session.encodeBatch batch = .ok out) :
      Step s .writer
        { s with
          queue := q, phase := .writing out batch.length, left := s.left ++ s.next
          taken := s.taken ++ batch }
  | encodeErr {q : WriteQueue} {batch : List MuxFrame} {ws : List Waker} {e : IoError}
      (h : s.phase = .idle) (hq : s.queue.takeBatch = some (q, batch, ws))
      (henc : Session.encodeBatch batch = .error e) :
      Step s .writer
        { s with
          queue := q, phase := .stopped, left := s.left ++ s.next, taken := s.taken ++ batch }
  | write {out : Bytes} {count : Nat} (k : Nat) (h : s.phase = .writing out count)
      (hk : k ≤ out.length) :
      Step s .writer
        { s with
          wire := s.wire ++ out.take k
          phase := if k = out.length then .flush count else .writing (out.drop k) count }
  | flush {count : Nat} (h : s.phase = .flush count) :
      Step s .writer { s with phase := .mark count, flushed := s.wire }
  | mark {count : Nat} (h : s.phase = .mark count) :
      Step s .writer { s with phase := .idle, queue := (s.queue.markWritten count).1 }
  | stop : Step s .writer { s with phase := .stopped }

/-! ## The accounts -/

/-- What is on the transport of the batches that the writer took. -/
def Wrote (s : Sending) : Phase → Prop
  | .idle => Session.encodeBatch s.taken = .ok s.wire ∧ s.flushed = s.wire
  | .writing out _ => Session.encodeBatch s.taken = .ok (s.wire ++ out)
  | .flush _ => Session.encodeBatch s.taken = .ok s.wire
  | .mark _ => Session.encodeBatch s.taken = .ok s.wire ∧ s.flushed = s.wire
  | .stopped => True

/-- The counters and the lanes agree with the history. -/
structure Accounted (s : Sending) : Prop where
  ctrl : s.queue.ctrl = (s.waiting.filter fun x => x.1.isNone).map Prod.snd
  data : s.queue.data = (s.waiting.filter fun x => !x.1.isNone).map Prod.snd
  dataBytes : s.queue.dataBytes = (s.queue.data.map fun f => f.data.length).sum
  pushed : s.queue.pushed = s.pushes.length
  left_le : s.left.length ≤ s.pushes.length
  taken : s.left.map Prod.snd = s.taken
  lastPush : ∀ r, ofStream r (s.pushes.drop (s.lastPush r)) = []

/-- Of the frames that have left the queue, those that are counted are on the transport. -/
structure Counted (s : Sending) : Prop where
  left : Lanes.InStep Prod.fst s.pushes s.left s.left.length
  written : Lanes.InStep Prod.fst s.pushes s.left s.queue.written
  written_le : s.queue.written + s.phase.count ≤ s.left.length
  all : s.phase ≠ .stopped → s.queue.written + s.phase.count = s.left.length
  wrote : s.Wrote s.phase
  flushed : ∃ out, Session.encodeBatch ((s.left.take s.queue.written).map Prod.snd) = .ok out
    ∧ out <+: s.flushed

/-! ## What a step does to the accounts -/

variable {s : Sending}

theorem waiting_push (h : s.left.length ≤ s.pushes.length) (x : Option Nat × MuxFrame) :
    (s.pushes ++ [x]).drop s.left.length = s.waiting ++ [x] := by
  rw [List.drop_append_of_le_length h]
  rfl

theorem ofStream_concat (r : Nat) (l : List (Option Nat × MuxFrame)) (x : Option Nat × MuxFrame) :
    ofStream r (l ++ [x]) = ofStream r l ++ if x.1 = some r then [x] else [] := by
  rw [ofStream, Lanes.only_append]
  congr 1
  unfold Lanes.only
  by_cases hx : x.1 = some r <;> simp [hx]

/-- A step that leaves the lanes and the history of the pushes alone. -/
theorem Accounted.congr {t : Sending} (h : Accounted s) (hctrl : t.queue.ctrl = s.queue.ctrl)
    (hdata : t.queue.data = s.queue.data) (hbytes : t.queue.dataBytes = s.queue.dataBytes)
    (hpushed : t.queue.pushed = s.queue.pushed) (hpushes : t.pushes = s.pushes)
    (hleft : t.left = s.left) (htaken : t.taken = s.taken) (hlast : t.lastPush = s.lastPush) :
    Accounted t := by
  have hwaiting : t.waiting = s.waiting := by rw [waiting, waiting, hpushes, hleft]
  constructor
  · rw [hctrl, hwaiting, h.ctrl]
  · rw [hdata, hwaiting, h.data]
  · rw [hbytes, hdata, h.dataBytes]
  · rw [hpushed, hpushes, h.pushed]
  · rw [hleft, hpushes]
    exact h.left_le
  · rw [hleft, htaken, h.taken]
  · rw [hpushes, hlast]
    exact h.lastPush

/-- A frame that is not of the stream does not move its last one. -/
theorem ofStream_drop_concat {r n : Nat} {l : List (Option Nat × MuxFrame)}
    {x : Option Nat × MuxFrame} (h : ofStream r (l.drop n) = []) (hx : x.1 ≠ some r) :
    ofStream r ((l ++ [x]).drop n) = [] := by
  by_cases hn : n ≤ l.length
  · rw [List.drop_append_of_le_length hn, ofStream_concat, h, if_neg hx]
    rfl
  · rw [List.drop_eq_nil_of_le]
    · rfl
    · rw [List.length_append, List.length_singleton]
      omega

theorem map_next (h : Accounted s) : s.next.map Prod.snd = s.queue.ctrl ++ s.queue.data := by
  rw [next, Lanes.drain, List.map_append, h.ctrl, h.data]

theorem Accounted.pushCtrl {f : MuxFrame} {q : WriteQueue} (h : Accounted s)
    (hq : s.queue.pushCtrl f = some q) :
    Accounted { s with queue := q, pushes := s.pushes ++ [(none, f)] } := by
  unfold WriteQueue.pushCtrl at hq
  split_ifs at hq
  cases hq
  have hwaiting := waiting_push h.left_le (none, f)
  constructor
  · show s.queue.ctrl ++ [f] = _
    rw [waiting, hwaiting, List.filter_append, List.map_append, ← h.ctrl]
    rfl
  · show s.queue.data = _
    rw [waiting, hwaiting, List.filter_append, List.map_append, ← h.data]
    exact (List.append_nil _).symm
  · exact h.dataBytes
  · show s.queue.pushed + 1 = _
    rw [h.pushed, List.length_append, List.length_singleton]
  · show s.left.length ≤ (s.pushes ++ [(none, f)]).length
    rw [List.length_append]
    exact Nat.le_add_right_of_le h.left_le
  · exact h.taken
  · intro r
    exact ofStream_drop_concat (h.lastPush r) nofun

theorem Accounted.push {r seq : Nat} {f : MuxFrame} {q : WriteQueue} (h : Accounted s)
    (hq : s.queue.forcePushData f = .ok (q, seq)) :
    Accounted { s with
      queue := q, lastPush := Function.update s.lastPush r seq
      pushes := s.pushes ++ [(some r, f)] } := by
  unfold WriteQueue.forcePushData at hq
  split_ifs at hq
  cases hq
  have hwaiting := waiting_push h.left_le (some r, f)
  have hlen : (s.pushes ++ [(some r, f)]).length = s.pushes.length + 1 := by
    rw [List.length_append, List.length_singleton]
  constructor
  · show s.queue.ctrl = _
    rw [waiting, hwaiting, List.filter_append, List.map_append, ← h.ctrl]
    exact (List.append_nil _).symm
  · show s.queue.data ++ [f] = _
    rw [waiting, hwaiting, List.filter_append, List.map_append, ← h.data]
    rfl
  · show s.queue.dataBytes + f.data.length = ((s.queue.data ++ [f]).map fun f => f.data.length).sum
    rw [List.map_append, List.sum_append, ← h.dataBytes]
    rfl
  · show s.queue.pushed + 1 = _
    rw [hlen, h.pushed]
  · show s.left.length ≤ (s.pushes ++ [(some r, f)]).length
    rw [hlen]
    exact Nat.le_succ_of_le h.left_le
  · exact h.taken
  · intro r'
    show ofStream r' ((s.pushes ++ [(some r, f)]).drop (Function.update s.lastPush r _ r')) = []
    by_cases hr : r' = r
    · -- The number of the frame is the number of frames pushed so far.
      rw [hr, Function.update_self, h.pushed, ← hlen, List.drop_length]
      rfl
    · rw [Function.update_of_ne hr]
      exact ofStream_drop_concat (h.lastPush r') fun hx => hr (Option.some.inj hx).symm

theorem Accounted.take {t : Sending} {q : WriteQueue} {batch : List MuxFrame} {ws : List Waker}
    (h : Accounted s) (hq : s.queue.takeBatch = some (q, batch, ws)) (hqueue : t.queue = q)
    (hpushes : t.pushes = s.pushes) (hleft : t.left = s.left ++ s.next)
    (htaken : t.taken = s.taken ++ batch) (hlast : t.lastPush = s.lastPush) : Accounted t := by
  have hbatch := (WriteQueue.takeBatch_eq_some hq).1
  unfold WriteQueue.takeBatch at hq
  split_ifs at hq
  cases hq
  have hlen : t.left.length = t.pushes.length := by
    rw [hleft, hpushes]
    exact Lanes.length_leave _ _ h.left_le
  have hwaiting : t.waiting = [] := by rw [waiting, hlen, List.drop_length]
  constructor
  · rw [hqueue, hwaiting]
    rfl
  · rw [hqueue, hwaiting]
    rfl
  · rw [hqueue]
    rfl
  · rw [hqueue, hpushes]
    exact h.pushed
  · exact Nat.le_of_eq hlen
  · rw [hleft, htaken, List.map_append, map_next h, h.taken]
  · rw [hpushes, hlast]
    exact h.lastPush

theorem Step.accounted {t : Sending} {l : Label} (hstep : Step s l t) (h : Accounted s) :
    Accounted t := by
  cases hstep with
  | pushCtrl hq => exact h.pushCtrl hq
  | push hq => exact h.push hq
  | take hphase hq henc => exact h.take hq rfl rfl rfl rfl rfl
  | encodeErr hphase hq henc => exact h.take hq rfl rfl rfl rfl rfl
  | close =>
    have hclose : s.queue.close.1.dataBytes = s.queue.dataBytes
        ∧ s.queue.close.1.pushed = s.queue.pushed := by
      unfold WriteQueue.close
      split_ifs <;> exact ⟨rfl, rfl⟩
    exact h.congr (WriteQueue.ctrl_close _) (WriteQueue.data_close _) hclose.1 hclose.2 rfl rfl rfl rfl
  | reserve cx =>
    have hreserve : (s.queue.pollReserve cx).1.dataBytes = s.queue.dataBytes
        ∧ (s.queue.pollReserve cx).1.pushed = s.queue.pushed := by
      unfold WriteQueue.pollReserve
      split_ifs <;> exact ⟨rfl, rfl⟩
    exact h.congr (WriteQueue.ctrl_pollReserve _ _) (WriteQueue.data_pollReserve _ _) hreserve.1
      hreserve.2 rfl rfl rfl rfl
  | @pollFlush r cx =>
    have hflush : (s.pollFlush r cx).1.dataBytes = s.queue.dataBytes
        ∧ (s.pollFlush r cx).1.pushed = s.queue.pushed := by
      unfold Sending.pollFlush WriteQueue.pollFlushed
      split_ifs <;> exact ⟨rfl, rfl⟩
    exact h.congr (WriteQueue.ctrl_pollFlushed _ _ _) (WriteQueue.data_pollFlushed _ _ _) hflush.1
      hflush.2 rfl rfl rfl rfl
  | notify n => exact h.congr rfl rfl rfl rfl rfl rfl rfl rfl
  | write k hphase hk => exact h.congr rfl rfl rfl rfl rfl rfl rfl rfl
  | flush hphase => exact h.congr rfl rfl rfl rfl rfl rfl rfl rfl
  | mark hphase => exact h.congr rfl rfl rfl rfl rfl rfl rfl rfl
  | stop => exact h.congr rfl rfl rfl rfl rfl rfl rfl rfl

/-! ## What a step does to the count -/

/-- A step that neither drains nor writes nor counts. -/
theorem Counted.congr {t : Sending} (h : Counted s) (hle : s.left.length ≤ s.pushes.length)
    (hwritten : t.queue.written = s.queue.written) (hpushes : ∃ l, t.pushes = s.pushes ++ l)
    (hphase : t.phase = s.phase) (hleft : t.left = s.left) (htaken : t.taken = s.taken)
    (hwire : t.wire = s.wire) (hflushed : t.flushed = s.flushed) : Counted t := by
  obtain ⟨l, hl⟩ := hpushes
  have hw : s.queue.written ≤ s.pushes.length := by
    have := h.written_le
    omega
  constructor
  · rw [hl, hleft]
    exact h.left.push hle l
  · rw [hl, hleft, hwritten]
    exact h.written.push hw l
  · rw [hwritten, hphase, hleft]
    exact h.written_le
  · rw [hwritten, hphase, hleft]
    exact h.all
  · have hwrote := h.wrote
    rw [hphase]
    cases hp : s.phase <;> rw [hp] at hwrote <;> simp only [Wrote, htaken, hwire, hflushed] at hwrote ⊢ <;>
      exact hwrote
  · rw [hleft, hwritten, hflushed]
    exact h.flushed

/-- Draining the queue: the writer holds the batch, or gives it up. -/
theorem Counted.take {t : Sending} {q : WriteQueue} {batch : List MuxFrame} {ws : List Waker}
    (h : Counted s) (ha : Accounted s) (hidle : s.phase = .idle)
    (hq : s.queue.takeBatch = some (q, batch, ws)) (hqueue : t.queue = q)
    (hpushes : t.pushes = s.pushes) (hleft : t.left = s.left ++ s.next)
    (hcount : t.phase.count = batch.length ∨ t.phase = .stopped)
    (hwrote : t.Wrote t.phase) (hflushed : t.flushed = s.flushed) : Counted t := by
  have hbatch : s.next.length = batch.length := by
    rw [(WriteQueue.takeBatch_eq_some hq).1, ← map_next ha, List.length_map]
  have hwritten : t.queue.written = s.queue.written := by
    unfold WriteQueue.takeBatch at hq
    split_ifs at hq
    cases hq
    rw [hqueue]
  have hall : s.queue.written = s.left.length := by
    have := h.all (by rw [hidle]; nofun)
    rw [hidle] at this
    exact this
  have hlen : t.left.length = s.left.length + batch.length := by
    rw [hleft, List.length_append, hbatch]
  have hfull : t.left.length = s.pushes.length := by
    rw [hleft]
    exact Lanes.length_leave _ _ ha.left_le
  constructor
  · rw [hfull, hpushes, hleft]
    exact h.left.drained ha.left_le
  · rw [hwritten, hpushes, hleft]
    exact h.written.leave (Nat.le_of_eq hall) _
  · rw [hwritten, hlen]
    rcases hcount with hcount | hcount
    · omega
    · rw [hcount]
      show s.queue.written + 0 ≤ _
      omega
  · intro hne
    have hcount := hcount.resolve_right hne
    omega
  · exact hwrote
  · rw [hwritten, hleft, hflushed, List.take_append_of_le_length (Nat.le_of_eq hall)]
    exact h.flushed

theorem Counted.write {out : Bytes} {count k : Nat} (h : Counted s)
    (hphase : s.phase = .writing out count) :
    Counted { s with
      wire := s.wire ++ out.take k
      phase := if k = out.length then .flush count else .writing (out.drop k) count } := by
  have hwrote := h.wrote
  have hle := h.written_le
  have hall := h.all (by rw [hphase]; nofun)
  rw [hphase] at hwrote hle hall
  split_ifs with hfull
  · refine ⟨h.left, h.written, hle, fun _ => hall, ?_, h.flushed⟩
    show Session.encodeBatch s.taken = .ok (s.wire ++ out.take k)
    rw [hfull, List.take_length]
    exact hwrote
  · refine ⟨h.left, h.written, hle, fun _ => hall, ?_, h.flushed⟩
    show Session.encodeBatch s.taken = .ok (s.wire ++ out.take k ++ out.drop k)
    rw [List.append_assoc, List.take_append_drop]
    exact hwrote

theorem Counted.flush {count : Nat} (h : Counted s) (ha : Accounted s)
    (hphase : s.phase = .flush count) :
    Counted { s with phase := .mark count, flushed := s.wire } := by
  have hwrote := h.wrote
  have hle := h.written_le
  have hall := h.all (by rw [hphase]; nofun)
  rw [hphase] at hwrote hle hall
  refine ⟨h.left, h.written, hle, fun _ => hall, ⟨hwrote, rfl⟩, ?_⟩
  have htaken : (s.left.take s.queue.written).map Prod.snd <+: s.taken := by
    rw [← ha.taken, List.map_take]
    exact List.take_prefix _ _
  exact encodeBatch_of_prefix htaken hwrote

/-- Counting a batch: all that have left the queue are on the transport. -/
theorem Counted.mark {count : Nat} (h : Counted s) (ha : Accounted s)
    (hphase : s.phase = .mark count) :
    Counted { s with phase := .idle, queue := (s.queue.markWritten count).1 } := by
  have hwrote := h.wrote
  have hall := h.all (by rw [hphase]; nofun)
  rw [hphase] at hwrote hall
  have hwritten : (s.queue.markWritten count).1.written = s.left.length := hall
  refine ⟨h.left, ?_, Nat.le_of_eq hwritten, fun _ => hwritten, hwrote, ?_⟩
  · show Lanes.InStep _ _ _ (s.queue.markWritten count).1.written
    rw [hwritten]
    exact h.left
  · refine ⟨s.wire, ?_, ?_⟩
    · show Session.encodeBatch ((s.left.take (s.queue.markWritten count).1.written).map Prod.snd) = _
      rw [hwritten, List.take_length, ha.taken]
      exact hwrote.1
    · show s.wire <+: s.flushed
      rw [hwrote.2]

theorem Step.counted {t : Sending} {l : Label} (hstep : Step s l t) (ha : Accounted s)
    (h : Counted s) : Counted t := by
  have hsame : ∃ l, s.pushes = s.pushes ++ l := ⟨[], (List.append_nil _).symm⟩
  cases hstep with
  | pushCtrl hq =>
    unfold WriteQueue.pushCtrl at hq
    split_ifs at hq
    cases hq
    exact h.congr ha.left_le rfl ⟨_, rfl⟩ rfl rfl rfl rfl rfl
  | push hq =>
    unfold WriteQueue.forcePushData at hq
    split_ifs at hq
    cases hq
    exact h.congr ha.left_le rfl ⟨_, rfl⟩ rfl rfl rfl rfl rfl
  | close =>
    have hwritten : s.queue.close.1.written = s.queue.written := by
      unfold WriteQueue.close
      split_ifs <;> rfl
    exact h.congr ha.left_le hwritten hsame rfl rfl rfl rfl rfl
  | reserve cx =>
    have hwritten : (s.queue.pollReserve cx).1.written = s.queue.written := by
      unfold WriteQueue.pollReserve
      split_ifs <;> rfl
    exact h.congr ha.left_le hwritten hsame rfl rfl rfl rfl rfl
  | @pollFlush r cx =>
    have hwritten : (s.pollFlush r cx).1.written = s.queue.written := by
      unfold Sending.pollFlush WriteQueue.pollFlushed
      split_ifs <;> rfl
    exact h.congr ha.left_le hwritten hsame rfl rfl rfl rfl rfl
  | notify n => exact h.congr ha.left_le rfl hsame rfl rfl rfl rfl rfl
  | take hidle hq henc =>
    have hwrote := h.wrote
    rw [hidle] at hwrote
    exact h.take ha hidle hq rfl rfl rfl (.inl rfl) (encodeBatch_append hwrote.1 henc) rfl
  | encodeErr hidle hq henc => exact h.take ha hidle hq rfl rfl rfl (.inr rfl) trivial rfl
  | write k hphase _ => exact h.write hphase
  | flush hphase => exact h.flush ha hphase
  | mark hphase => exact h.mark ha hphase
  | stop =>
    have hle : s.queue.written + 0 ≤ s.left.length := by
      have := h.written_le
      omega
    exact ⟨h.left, h.written, hle, fun hne => absurd rfl hne, trivial, h.flushed⟩

/-! ## Runs -/

theorem accounted_new (limit : Nat) : Accounted (new limit) :=
  ⟨rfl, rfl, rfl, rfl, Nat.le_refl 0, rfl, fun _ => rfl⟩

theorem counted_new (limit : Nat) : Counted (new limit) :=
  ⟨fun _ => rfl, fun _ => rfl, Nat.le_refl 0, fun _ => rfl, ⟨rfl, rfl⟩, [], rfl, List.nil_prefix⟩

theorem accounts_of_reaches {limit : Nat} (h : Reaches Step anyStep (new limit) s) :
    Accounted s ∧ Counted s :=
  h.invariant (I := fun s => Accounted s ∧ Counted s) ⟨accounted_new limit, counted_new limit⟩
    fun _ _ _ h _ hstep => ⟨hstep.accounted h.1, hstep.counted h.1 h.2⟩

/-- A stream that finds its count reached has all its frames on the transport. -/
theorem Counted.flushes (h : Counted s) (ha : Accounted s) {r : Nat}
    (hr : s.lastPush r ≤ s.queue.written) :
    ∃ done out, done <+: s.left ∧ ofStream r done = ofStream r s.pushes
      ∧ Session.encodeBatch (done.map Prod.snd) = .ok out ∧ out <+: s.flushed := by
  obtain ⟨out, henc, hout⟩ := h.flushed
  exact ⟨_, out, List.take_prefix _ _, h.written.served (ha.lastPush r) hr, henc, hout⟩

theorem written_of_pollFlush {r : Nat} {cx : Waker} {q : WriteQueue}
    (h : s.pollFlush r cx = (q, .ready (.ok ()))) : s.lastPush r ≤ s.queue.written := by
  unfold pollFlush WriteQueue.pollFlushed at h
  split_ifs at h with hge
  · exact hge
  · cases h
  · cases h

end Sending

open Sending

/-- The counters of the queue are exact, the frames of a stream leave in the order in which
they were pushed, and a flush that succeeds has all frames of its stream written to the
transport and flushed. -/
theorem write_queue_flush {limit : Nat} {s : Sending}
    (h : Reaches Sending.Step anyStep (Sending.new limit) s) :
    s.queue.dataBytes = (s.queue.data.map fun f => f.data.length).sum
      ∧ s.queue.written ≤ s.queue.pushed
      ∧ s.left.map Prod.snd = s.taken
      ∧ (∀ r, ofStream r s.left <+: ofStream r s.pushes)
      ∧ ∀ r cx q, s.pollFlush r cx = (q, .ready (.ok ())) →
        ∃ done out, done <+: s.left ∧ ofStream r done = ofStream r s.pushes
          ∧ Session.encodeBatch (done.map Prod.snd) = .ok out ∧ out <+: s.flushed := by
  obtain ⟨ha, hc⟩ := accounts_of_reaches h
  refine ⟨ha.dataBytes, ?_, ha.taken, fun r => hc.left.isPrefix _, ?_⟩
  · have hle := hc.written_le
    have hleft := ha.left_le
    rw [ha.pushed]
    omega
  · intro r cx q hq
    exact hc.flushes ha (written_of_pollFlush hq)

/-- A keepalive overtakes a PSH of the seventh stream, in one batch. -/
theorem flush_run : ∃ s, Reaches Sending.Step anyStep (Sending.new 65536) s
    ∧ ofStream 7 s.pushes = [(some 7, MuxFrame.withData VERSION_1 CMD_PSH 15 [0xAA])]
    ∧ (s.pollFlush 7 0).2 = .ready (.ok ()) := by
  have hnew : Reaches Sending.Step anyStep (Sending.new 65536) _ := .refl
  have hpushed := hnew.tail trivial
    (.push (r := 7) (f := MuxFrame.withData VERSION_1 CMD_PSH 15 [0xAA]) rfl)
  have hboth := hpushed.tail trivial (.pushCtrl (f := MuxFrame.new VERSION_1 CMD_NOP 0) rfl)
  have htaken := hboth.tail trivial (.take rfl rfl rfl)
  have hwritten := htaken.tail trivial (.write 17 rfl (by decide))
  have hflushed := hwritten.tail trivial (.flush rfl)
  exact ⟨_, hflushed.tail trivial (.mark rfl), rfl, rfl⟩

theorem write_queue_flush_psh : ∃ s, Reaches Sending.Step anyStep (Sending.new 65536) s
    ∧ ofStream 7 s.pushes = [(some 7, MuxFrame.withData VERSION_1 CMD_PSH 15 [0xAA])]
    ∧ ∃ done out, done <+: s.left ∧ ofStream 7 done = ofStream 7 s.pushes
      ∧ Session.encodeBatch (done.map Prod.snd) = .ok out ∧ out <+: s.flushed := by
  obtain ⟨s, hrun, hpushes, hready⟩ := flush_run
  exact ⟨s, hrun, hpushes, (write_queue_flush hrun).2.2.2.2 7 0 _ (Prod.ext rfl hready)⟩

end Mux
end RtProxy
