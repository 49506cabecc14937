import RtProxy.Lib.Transition
import RtProxy.Socks5.Tunnel

/-!
The pump tasks behind `UdpChannel::Tunnel` (`Chain::dial_udp` in `chain.rs`).

A writer task drains the outbound channel into the tunnel and a reader task
fills the inbound channel from it.  Both reach the tunnel through one fair mutex,
and the reader keeps it while it waits for a datagram.  One step is one channel
operation, one acquisition or release of the mutex, or one poll of the
transport.

The source says of this design that it is driven by tasks behind channels
"rather than a lock that a blocked read would hold".  `Stuck` is the state in
which a blocked read does hold the lock; `unstuck_of_reaches` says which steps a
run has to avoid for never reaching it.
-/

namespace RtProxy
namespace UdpChannel

open Socks5 Transition

/-- The capacity of the two channels. -/
def CHANNEL_CAPACITY : Nat := 128

inductive Task
  | writer
  | reader
deriving Repr, DecidableEq

/-- The writer task: waiting for a datagram, about to lock, queued for the mutex,
and in the two halves of `send_to`. -/
inductive WriterPc
  | recv
  | lock (d : Datagram)
  | wait (d : Datagram)
  | queue (d : Datagram)
  | send (out : Bytes)
  | done
deriving Repr, DecidableEq

inductive ReaderPc
  | lock
  | wait
  | recvFrom
  | deliver (d : Datagram)
  | done
deriving Repr, DecidableEq

/-- The two tasks, their channels, the mutex and the transport under the tunnel.
`inbound` holds the bytes that have arrived and `fin` how they end. -/
structure Pump where
  outQueue : List Datagram
  inQueue : List Datagram
  holder : Option Task
  writer : WriterPc
  reader : ReaderPc
  tunnel : TunnelReader
  inbound : Bytes
  fin : InEnd
  writable : Bool
deriving Repr, DecidableEq

namespace Pump

def new : Pump :=
  { outQueue := [], inQueue := [], holder := none, writer := .recv, reader := .lock
    tunnel := .new, inbound := [], fin := .pending, writable := true }

/-- The writer unlocks and goes on at `pc`; a queued reader gets the mutex. -/
def writerUnlock (s : Pump) (pc : WriterPc) : Pump :=
  if s.reader = .wait then { s with writer := pc, holder := some .reader, reader := .recvFrom }
  else { s with writer := pc, holder := none }

/-- The reader unlocks and goes on at `pc`; a queued writer gets the mutex. -/
def readerUnlock (s : Pump) (pc : ReaderPc) : Pump :=
  match s.writer with
  | .wait d => { s with reader := pc, holder := some .writer, writer := .queue d }
  | _ => { s with reader := pc, holder := none }

/-- The writer task ends, and with it the receiver of the outbound channel. -/
def writerEnd (s : Pump) : Pump := { s.writerUnlock .done with outQueue := [] }

/-- The poll of `recv_from` on what has arrived. -/
def poll (s : Pump) : Option Received × TunnelReader × Bytes :=
  s.tunnel.pollRecvFrom s.inbound s.fin

/-- A `recv_from` would return without a further byte. -/
def Ready (s : Pump) : Prop := s.tunnel.Ready s.inbound s.fin

end Pump

/-- Who moves; `net` is the transport and `owner` the user of the channel. -/
inductive Label
  | writer
  | reader
  | net
  | owner
deriving Repr, DecidableEq

inductive Step (s : Pump) : Label → Pump → Prop
  /- the writer task -/
  | writerRecv {d : Datagram} {rest : List Datagram} (h : s.writer = .recv)
      (hq : s.outQueue = d :: rest) :
      Step s .writer { s with writer := .lock d, outQueue := rest }
  | writerLock {d : Datagram} (h : s.writer = .lock d) (hm : s.holder = none) :
      Step s .writer { s with writer := .queue d, holder := some .writer }
  | writerWait {d : Datagram} {t : Task} (h : s.writer = .lock d) (hm : s.holder = some t) :
      Step s .writer { s with writer := .wait d }
  | writerQueue {d : Datagram} (h : s.writer = .queue d)
      (hlen : d.data.length ≤ UDP_TUN_MAX_PAYLOAD) :
      Step s .writer { s with writer := .send (encodeUdpTunnelDatagram d) }
  | writerTooLong {d : Datagram} (h : s.writer = .queue d)
      (hlen : UDP_TUN_MAX_PAYLOAD < d.data.length) : Step s .writer s.writerEnd
  | writerWrite {out : Bytes} (k : Nat) (h : s.writer = .send out) (hw : s.writable = true)
      (hk : 0 < k) (hlt : k < out.length) : Step s .writer { s with writer := .send (out.drop k) }
  | writerFlushed {out : Bytes} (h : s.writer = .send out) (hw : s.writable = true) :
      Step s .writer (s.writerUnlock .recv)
  | writeError {out : Bytes} (h : s.writer = .send out) : Step s .net s.writerEnd
  /- the reader task -/
  | readerLock (h : s.reader = .lock) (hm : s.holder = none) :
      Step s .reader { s with reader := .recvFrom, holder := some .reader }
  | readerWait {t : Task} (h : s.reader = .lock) (hm : s.holder = some t) :
      Step s .reader { s with reader := .wait }
  | readerPending {r : TunnelReader} {rest : Bytes} (h : s.reader = .recvFrom)
      (hp : s.poll = (none, r, rest)) : Step s .reader { s with tunnel := r, inbound := rest }
  | readerDatagram {d : Datagram} {r : TunnelReader} {rest : Bytes} (h : s.reader = .recvFrom)
      (hp : s.poll = (some (.datagram d), r, rest)) :
      Step s .reader ({ s with tunnel := r, inbound := rest }.readerUnlock (.deliver d))
  | readerClosed {r : TunnelReader} {rest : Bytes} (h : s.reader = .recvFrom)
      (hp : s.poll = (some .closed, r, rest)) :
      Step s .reader ({ s with tunnel := r, inbound := rest }.readerUnlock .done)
  | readerFailed {e : IoError} {r : TunnelReader} {rest : Bytes} (h : s.reader = .recvFrom)
      (hp : s.poll = (some (.failed e), r, rest)) :
      Step s .reader ({ s with tunnel := r, inbound := rest }.readerUnlock .done)
  | readerDeliver {d : Datagram} (h : s.reader = .deliver d)
      (hlen : s.inQueue.length < CHANNEL_CAPACITY) :
      Step s .reader { s with reader := .lock, inQueue := s.inQueue ++ [d] }
  /- the transport -/
  | arrive (bs : Bytes) (h : s.fin = .pending) :
      Step s .net { s with inbound := s.inbound ++ bs }
  | finish (fin : InEnd) (h : s.fin = .pending) : Step s .net { s with fin := fin }
  | setWritable (b : Bool) : Step s .net { s with writable := b }
  /- `UdpChannel::send_to`, `recv_from` and `drop` -/
  | sendTo (d : Datagram) (h : s.writer ≠ .done) (hlen : s.outQueue.length < CHANNEL_CAPACITY) :
      Step s .owner { s with outQueue := s.outQueue ++ [d] }
  | recvFrom {d : Datagram} {rest : List Datagram} (h : s.inQueue = d :: rest) :
      Step s .owner { s with inQueue := rest }
  | drop :
      Step s .owner
        { s with writer := .done, reader := .done, holder := none, outQueue := [], inQueue := [] }

/-! ## Being stuck -/

/-- The writer has taken a datagram and has not got the mutex for it. -/
def WriterPc.blocked : WriterPc → Bool
  | .lock _ | .wait _ => true
  | _ => false

/-- The reader holds the mutex and waits for bytes that have not arrived. -/
def Pump.Parked (s : Pump) : Prop := s.reader = .recvFrom ∧ ¬ s.Ready

/-- The reader waits for inbound bytes while it keeps the mutex from a datagram. -/
def Pump.Stuck (s : Pump) : Prop := s.Parked ∧ s.writer.blocked = true

/-- A queued datagram gets on: the writer can move, or the reader can let go of the
mutex with what has arrived. -/
def Pump.Live (s : Pump) : Prop := s.outQueue ≠ [] → s.writable = true →
  (∃ t, Step s .writer t) ∨ (s.reader = .recvFrom ∧ s.Ready)

/-- Taking a datagram while the reader is parked, and letting the reader take the
mutex first when the writer is about to, without a datagram for it. -/
def Avoids (s : Pump) (l : Label) : Prop :=
  (l = .writer → s.writer = .recv → s.outQueue ≠ [] → ¬ s.Parked)
    ∧ (l = .reader → s.reader = .lock → s.holder = none → s.writer.blocked = true → s.Ready)

/-! ## The mutex -/

/-- The mutex is held by the task whose code says so, and a task queues only while
the other holds it. -/
structure Excl (s : Pump) : Prop where
  reader : s.holder = some .reader ↔ s.reader = .recvFrom
  writer : s.holder = some .writer ↔ (∃ d, s.writer = .queue d) ∨ ∃ out, s.writer = .send out
  writerWait : ∀ d, s.writer = .wait d → s.holder = some .reader
  readerWait : s.reader = .wait → s.holder = some .writer
  sending : ∀ out, s.writer = .send out → out ≠ []
  ended : s.writer = .done → s.outQueue = []

theorem excl_new : Excl .new :=
  ⟨by decide, ⟨nofun, by rintro (⟨d, h⟩ | ⟨out, h⟩) <;> cases h⟩, nofun, nofun, nofun, nofun⟩

namespace Excl

variable {s t : Pump}

/-- The writer unlocks, and stops sending. -/
theorem writerUnlock (he : Excl s) (hh : s.holder = some .writer)
    (hr : s.reader = .wait ∧ t.reader = .recvFrom ∧ t.holder = some .reader ∨
      s.reader ≠ .wait ∧ t.reader = s.reader ∧ t.holder = none)
    (hw : t.writer = .recv ∨ t.writer = .done ∧ t.outQueue = []) : Excl t := by
  have hne : s.reader ≠ .recvFrom := by
    intro h
    rw [he.reader.mpr h] at hh
    cases hh
  have hidle : (∀ d, t.writer ≠ .queue d ∧ t.writer ≠ .wait d) ∧ (∀ out, t.writer ≠ .send out)
      ∧ (t.writer = .done → t.outQueue = []) := by
    rcases hw with hw | ⟨hw, hq⟩ <;> rw [hw]
    · exact ⟨fun d => ⟨nofun, nofun⟩, nofun, nofun⟩
    · exact ⟨fun d => ⟨nofun, nofun⟩, nofun, fun _ => hq⟩
  obtain ⟨hlock, hsend, hend⟩ := hidle
  refine ⟨?_, ?_, fun d h => absurd h (hlock d).2, ?_, fun out h => absurd h (hsend out), hend⟩
  · rcases hr with ⟨-, hr, hm⟩ | ⟨-, hr, hm⟩ <;> rw [hr, hm]
    · exact ⟨fun _ => rfl, fun _ => rfl⟩
    · exact ⟨nofun, fun h => absurd h hne⟩
  · constructor
    · intro h
      rcases hr with ⟨-, -, hm⟩ | ⟨-, -, hm⟩ <;> rw [hm] at h <;> cases h
    · rintro (⟨d, h⟩ | ⟨out, h⟩)
      · exact absurd h (hlock d).1
      · exact absurd h (hsend out)
  · intro h
    rcases hr with ⟨-, hr, -⟩ | ⟨hne', hr, -⟩ <;> rw [hr] at h
    · cases h
    · exact absurd h hne'

/-- The reader unlocks. -/
theorem readerUnlock (he : Excl s) (hh : s.reader = .recvFrom) (hq : t.outQueue = s.outQueue)
    (hw : (∃ d, s.writer = .wait d ∧ t.writer = .queue d ∧ t.holder = some .writer) ∨
      (∀ d, s.writer ≠ .wait d) ∧ t.writer = s.writer ∧ t.holder = none)
    (hr : t.reader ≠ .recvFrom ∧ t.reader ≠ .wait) : Excl t := by
  have hheld := he.reader.mpr hh
  have hnot : ¬ ((∃ d, s.writer = .queue d) ∨ ∃ out, s.writer = .send out) := by
    intro h
    rw [he.writer.mpr h] at hheld
    cases hheld
  rcases hw with ⟨d, hs, hw, hm⟩ | ⟨hs, hw, hm⟩
  · refine ⟨?_, ?_, ?_, fun h => absurd h hr.2, ?_, ?_⟩
    · rw [hm]
      exact ⟨nofun, fun h => absurd h hr.1⟩
    · rw [hm, hw]
      exact ⟨fun _ => .inl ⟨d, rfl⟩, fun _ => rfl⟩
    · rw [hw]
      nofun
    · rw [hw]
      nofun
    · rw [hw]
      nofun
  · refine ⟨?_, ?_, ?_, fun h => absurd h hr.2, ?_, ?_⟩
    · rw [hm]
      exact ⟨nofun, fun h => absurd h hr.1⟩
    · rw [hm, hw]
      exact ⟨nofun, fun h => absurd h hnot⟩
    · rw [hw]
      exact fun d h => absurd h (hs d)
    · rw [hw]
      exact he.sending
    · rw [hw, hq]
      exact he.ended

end Excl

theorem Pump.writerUnlock_cases (s : Pump) (pc : WriterPc) :
    s.reader = .wait ∧ (s.writerUnlock pc).reader = .recvFrom
        ∧ (s.writerUnlock pc).holder = some .reader ∨
      s.reader ≠ .wait ∧ (s.writerUnlock pc).reader = s.reader
        ∧ (s.writerUnlock pc).holder = none := by
  unfold writerUnlock
  split_ifs with h
  · exact .inl ⟨h, rfl, rfl⟩
  · exact .inr ⟨h, rfl, rfl⟩

theorem Pump.writer_writerUnlock (s : Pump) (pc : WriterPc) : (s.writerUnlock pc).writer = pc := by
  unfold writerUnlock
  split_ifs <;> rfl

theorem Pump.readerUnlock_cases (s : Pump) (pc : ReaderPc) :
    (s.readerUnlock pc).reader = pc ∧ (s.readerUnlock pc).outQueue = s.outQueue
      ∧ ((∃ d, s.writer = .wait d ∧ (s.readerUnlock pc).writer = .queue d
          ∧ (s.readerUnlock pc).holder = some .writer) ∨
        (∀ d, s.writer ≠ .wait d) ∧ (s.readerUnlock pc).writer = s.writer
          ∧ (s.readerUnlock pc).holder = none) := by
  unfold readerUnlock
  split
  · rename_i d h
    exact ⟨rfl, rfl, .inl ⟨d, h, rfl, rfl⟩⟩
  · rename_i h
    exact ⟨rfl, rfl, .inr ⟨fun d hd => h d hd, rfl, rfl⟩⟩

theorem Step.excl {s t : Pump} {l : Label} (h : Step s l t) (he : Excl s) : Excl t := by
  cases h
  case writerRecv d rest h hq =>
    refine ⟨he.reader, ?_, nofun, he.readerWait, nofun, nofun⟩
    rw [he.writer, h]
    constructor <;> rintro (⟨d, h⟩ | ⟨out, h⟩) <;> cases h
  case writerLock d h hm =>
    refine ⟨?_, ⟨fun _ => .inl ⟨d, rfl⟩, fun _ => rfl⟩, nofun, fun _ => rfl, nofun, nofun⟩
    rw [← he.reader, hm]
    exact ⟨nofun, nofun⟩
  case writerWait d t h hm =>
    have hother : s.holder ≠ some .writer := by
      intro hw
      rcases he.writer.mp hw with ⟨d', h'⟩ | ⟨out, h'⟩ <;> rw [h] at h' <;> cases h'
    refine ⟨he.reader, ?_, fun _ _ => ?_, he.readerWait, nofun, nofun⟩
    · constructor
      · exact fun hw => absurd hw hother
      · rintro (⟨d', h'⟩ | ⟨out, h'⟩) <;> cases h'
    · show s.holder = _
      cases t with
      | reader => exact hm
      | writer => exact absurd hm hother
  case writerQueue d h hlen =>
    refine ⟨he.reader, ?_, nofun, he.readerWait, fun out hout => ?_, nofun⟩
    · exact ⟨fun _ => .inr ⟨_, rfl⟩, fun _ => he.writer.mpr (.inl ⟨d, h⟩)⟩
    · cases hout
      exact encodeUdpTunnelDatagram_ne_nil d
  case writerWrite out k h hw hk hlt =>
    refine ⟨he.reader, ?_, nofun, he.readerWait, fun out' hout => ?_, nofun⟩
    · exact ⟨fun _ => .inr ⟨_, rfl⟩, fun _ => he.writer.mpr (.inr ⟨out, h⟩)⟩
    · cases hout
      rw [Ne, List.drop_eq_nil_iff]
      omega
  case writerTooLong d h hlen =>
    exact he.writerUnlock (he.writer.mpr (.inl ⟨d, h⟩)) (s.writerUnlock_cases .done)
      (.inr ⟨s.writer_writerUnlock .done, rfl⟩)
  case writeError out h =>
    exact he.writerUnlock (he.writer.mpr (.inr ⟨out, h⟩)) (s.writerUnlock_cases .done)
      (.inr ⟨s.writer_writerUnlock .done, rfl⟩)
  case writerFlushed out h hw =>
    exact he.writerUnlock (he.writer.mpr (.inr ⟨out, h⟩)) (s.writerUnlock_cases .recv)
      (.inl (s.writer_writerUnlock .recv))
  case readerLock h hm =>
    refine ⟨⟨fun _ => rfl, fun _ => rfl⟩, ?_, fun _ _ => rfl, nofun, he.sending, he.ended⟩
    rw [← he.writer, hm]
    exact ⟨nofun, nofun⟩
  case readerWait t h hm =>
    have hother : s.holder ≠ some .reader := by
      intro hr
      rw [he.reader.mp hr] at h
      cases h
    refine ⟨⟨fun hr => absurd hr hother, nofun⟩, he.writer, he.writerWait, fun _ => ?_, he.sending,
      he.ended⟩
    show s.holder = _
    cases t with
    | writer => exact hm
    | reader => exact absurd hm hother
  case readerDatagram d r rest h hp | readerClosed r rest h hp | readerFailed r rest h hp =>
    obtain ⟨hr, hq, hw⟩ := Pump.readerUnlock_cases { s with tunnel := r, inbound := rest } _
    refine he.readerUnlock h hq hw ?_
    rw [hr]
    exact ⟨nofun, nofun⟩
  case readerDeliver d h hlen =>
    refine ⟨?_, he.writer, he.writerWait, nofun, he.sending, he.ended⟩
    rw [he.reader, h]
    exact ⟨nofun, nofun⟩
  case readerPending | arrive | finish | setWritable | recvFrom =>
    exact ⟨he.reader, he.writer, he.writerWait, he.readerWait, he.sending, he.ended⟩
  case sendTo d h hlen =>
    exact ⟨he.reader, he.writer, he.writerWait, he.readerWait, he.sending, fun hd => absurd hd h⟩
  case drop =>
    refine ⟨⟨nofun, nofun⟩, ⟨nofun, ?_⟩, nofun, nofun, nofun, fun _ => rfl⟩
    rintro (⟨d, h⟩ | ⟨out, h⟩) <;> cases h

/-! ## Never stuck -/

/-- What arrives and what ends does not make a ready reader wait. -/
theorem Pump.Ready.net {s : Pump} (h : s.Ready) (hfin : s.fin = .pending) :
    (∀ bs, Pump.Ready { s with inbound := s.inbound ++ bs })
      ∧ ∀ fin, fin ≠ .pending → Pump.Ready { s with fin := fin } := by
  refine ⟨fun bs => ?_, fun fin hne => s.tunnel.ready_of_ended s.inbound hne⟩
  unfold Pump.Ready at h ⊢
  rw [hfin] at h
  show s.tunnel.Ready (s.inbound ++ bs) s.fin
  rw [hfin]
  exact h.append bs

/-- A step that leaves the writer blocked found it blocked, or took a datagram. -/
theorem Step.writer_blocked {s t : Pump} {l : Label} (h : Step s l t)
    (hb : t.writer.blocked = true) :
    s.writer.blocked = true ∨ (l = .writer ∧ s.writer = .recv ∧ s.outQueue ≠ []
      ∧ t.reader = s.reader ∧ t.tunnel = s.tunnel ∧ t.inbound = s.inbound ∧ t.fin = s.fin) := by
  cases h
  case writerRecv d rest h hq =>
    refine .inr ⟨rfl, h, ?_, rfl, rfl, rfl, rfl⟩
    rw [hq]
    exact nofun
  case writerLock | writerQueue | writerWrite | drop => cases hb
  case writerWait d t h hm =>
    rw [h]
    exact .inl rfl
  case writerTooLong | writeError =>
    change (s.writerUnlock .done).writer.blocked = true at hb
    rw [s.writer_writerUnlock] at hb
    cases hb
  case writerFlushed =>
    rw [s.writer_writerUnlock] at hb
    cases hb
  case readerDatagram r rest h hp | readerClosed r rest h hp | readerFailed r rest h hp =>
    obtain ⟨-, -, hw⟩ := Pump.readerUnlock_cases { s with tunnel := r, inbound := rest } _
    rcases hw with ⟨d, -, hw, -⟩ | ⟨-, hw, -⟩
    · rw [hw] at hb
      cases hb
    · rw [hw] at hb
      exact .inl hb
  all_goals exact .inl hb

/-- The one step of the invariant: a step that avoids the two moves does not get the
tasks stuck. -/
theorem Step.unstuck {s t : Pump} {l : Label} (h : Step s l t) (hs : ¬ s.Stuck)
    (ha : Avoids s l) : ¬ t.Stuck := by
  rintro ⟨⟨hr, hready⟩, hb⟩
  rcases h.writer_blocked hb with hblocked | ⟨rfl, hw, hq, hreader, htunnel, hin, hfin⟩
  · -- the writer was blocked already, so the reader was not parked
    have hnot : s.reader = .recvFrom → s.Ready := fun h' => by
      by_contra hn
      exact hs ⟨⟨h', hn⟩, hblocked⟩
    cases h
    case writerRecv h _ =>
      rw [h] at hblocked
      cases hblocked
    case writerLock | writerQueue | writerWrite | drop => cases hb
    case writerWait => exact hready (hnot hr)
    case writerTooLong h _ | writeError h | writerFlushed h _ =>
      rw [h] at hblocked
      cases hblocked
    case readerLock h hm => exact hready (ha.2 rfl h hm hblocked)
    case readerWait => cases hr
    case readerPending r rest h hp =>
      have hsome := hnot h
      unfold Pump.Ready TunnelReader.Ready at hsome
      change s.poll.1 ≠ none at hsome
      rw [hp] at hsome
      exact hsome rfl
    case readerDatagram r rest h hp | readerClosed r rest h hp | readerFailed r rest h hp =>
      obtain ⟨hr', -, -⟩ := Pump.readerUnlock_cases { s with tunnel := r, inbound := rest } _
      rw [hr'] at hr
      cases hr
    case readerDeliver => cases hr
    case arrive bs h => exact hready (((hnot hr).net h).1 bs)
    case finish fin h =>
      by_cases hp : fin = .pending
      · subst hp
        have hsame : s.Ready := hnot hr
        unfold Pump.Ready at hsame hready
        rw [h] at hsame
        exact hready hsame
      · exact hready (((hnot hr).net h).2 fin hp)
    case setWritable | sendTo | recvFrom => exact hready (hnot hr)
  · -- the writer has just taken a datagram
    refine ha.1 rfl hw hq ⟨hreader ▸ hr, ?_⟩
    unfold Pump.Ready at hready ⊢
    rw [htunnel, hin, hfin] at hready
    exact hready

/-- Where the reader is not in the way, a queued datagram gets on. -/
theorem Excl.live {s : Pump} (he : Excl s) (hs : ¬ s.Stuck) : s.Live := by
  intro hq hw
  cases hpc : s.writer with
  | recv =>
    obtain ⟨d, rest, hcons⟩ := List.exists_cons_of_ne_nil hq
    exact .inl ⟨_, .writerRecv hpc hcons⟩
  | lock d =>
    cases hm : s.holder with
    | none => exact .inl ⟨_, .writerLock hpc hm⟩
    | some t => exact .inl ⟨_, .writerWait hpc hm⟩
  | wait d =>
    have hr := he.reader.mp (he.writerWait d hpc)
    refine .inr ⟨hr, ?_⟩
    by_contra hn
    exact hs ⟨⟨hr, hn⟩, by rw [hpc]; rfl⟩
  | queue d =>
    rcases Nat.lt_or_ge UDP_TUN_MAX_PAYLOAD d.data.length with hlen | hlen
    · exact .inl ⟨_, .writerTooLong hpc hlen⟩
    · exact .inl ⟨_, .writerQueue hpc hlen⟩
  | send out => exact .inl ⟨_, .writerFlushed hpc hw⟩
  | done => exact absurd (he.ended hpc) hq

/-- In every run that avoids the two moves, a queued datagram can always get on and
the reader never keeps the mutex from one while it waits for inbound bytes. -/
theorem unstuck_of_reaches {s : Pump} (run : Reaches Step Avoids .new s) : s.Live ∧ ¬ s.Stuck := by
  have hinv := run.invariant (I := fun s => Excl s ∧ ¬ s.Stuck) ⟨excl_new, fun h => nomatch h.2⟩
    fun t l u ht ha hstep => ⟨hstep.excl ht.1, hstep.unstuck ht.2 ha⟩
  exact ⟨hinv.1.live hinv.2, hinv.2⟩

/-- A datagram is sent before the reader gets to the mutex. -/
theorem unstuck_after_send : ∃ s, Reaches Step Avoids .new s ∧ s.reader = .recvFrom
    ∧ s.writer = .recv ∧ s.Live ∧ ¬ s.Stuck := by
  have start : Reaches Step Avoids Pump.new Pump.new := .refl
  have h := start.tail (a := .owner) ⟨nofun, nofun⟩
    (.sendTo ⟨[1], "10.0.0.1", 53⟩ nofun (by decide))
  have h := h.tail (a := .writer) ⟨fun _ _ _ hp => (nomatch hp.1), nofun⟩ (.writerRecv rfl rfl)
  have h := h.tail (a := .writer) ⟨fun _ hw => (nomatch hw), nofun⟩ (.writerLock rfl rfl)
  have h := h.tail (a := .reader) ⟨nofun, fun _ _ hm => (nomatch hm)⟩ (.readerWait rfl rfl)
  have h := h.tail (a := .writer) ⟨fun _ hw => (nomatch hw), nofun⟩
    (.writerQueue rfl (by decide))
  have h := h.tail (a := .writer) ⟨fun _ hw => (nomatch hw), nofun⟩ (.writerFlushed rfl rfl)
  exact ⟨_, h, rfl, rfl, unstuck_of_reaches h⟩

/-- The reader takes the mutex first and the peer says nothing: the first datagram
waits for ever. -/
theorem stuck_run : ∃ s, Reaches Step anyStep .new s ∧ s.inbound = [] ∧ s.fin = .pending
    ∧ s.writable = true ∧ s.Stuck := by
  have start : Reaches Step anyStep Pump.new _ := .refl
  have h := start.tail trivial (.readerLock rfl rfl)
  have h := h.tail trivial (.sendTo ⟨[1], "10.0.0.1", 53⟩ nofun (by decide))
  have h := h.tail trivial (.writerRecv rfl rfl)
  have h := h.tail trivial (.writerWait rfl rfl)
  refine ⟨_, h, rfl, rfl, rfl, ⟨rfl, ?_⟩, rfl⟩
  unfold Pump.Ready TunnelReader.Ready
  rw [TunnelReader.pollRecvFrom_stop rfl]
  exact fun hn => hn rfl

theorem send_not_always_live :
    ¬ ∀ s, Reaches Step anyStep .new s → s.Live ∧ ¬ (s.Stuck ∧ s.inbound = []) := by
  intro hall
  obtain ⟨s, hrun, hin, -, -, hstuck⟩ := stuck_run
  exact (hall s hrun).2 ⟨hstuck, hin⟩

end UdpChannel
end RtProxy
