import RtProxy.Mux.Sending
import RtProxy.Mux.Wf

/-!
Every run of a session is a run of its write queue.

What the threads of a session do to the queue, the transport and the last frames of the
streams are steps of `Sending`, so what holds of every run there holds of a session.
-/

namespace RtProxy
namespace Mux

open Transition

def WriterPc.phase : WriterPc → Phase
  | .writing out count => .writing out count
  | .flush count => .flush count
  | .mark count => .mark count
  | .failing _ | .ended => .stopped
  | _ => .idle

/-- The frames of the data lane in the order of their numbers, with their streams. -/
def Sending.sent (g : Sending) : List (Nat × MuxFrame) :=
  g.pushes.filterMap fun x => x.1.map (·, x.2)

/-- The write queue, the writer and the streams of the session stand as these. -/
structure Shows (g : Sending) (s : Session) : Prop where
  queue : g.queue = s.queue
  phase : g.phase = s.writer.phase
  lastPush : ∀ r, g.lastPush r = (s.handles r).lastPush
  sent : g.sent = s.sent
  taken : g.taken = s.taken
  wire : g.wire = s.wire

/-- What a session does: nothing that shows, or a step. -/
def Follows (g : Sending) (t : Session) : Prop :=
  Shows g t ∨ ∃ l g', Sending.Step g l g' ∧ Shows g' t

variable {g : Sending} {s t : Session}

theorem lastPush_setHandle {r : Nat} {h : Handle} (hh : h.lastPush = (s.handles r).lastPush)
    (i : Nat) : ((s.setHandle r h).handles i).lastPush = (s.handles i).lastPush := by
  by_cases hi : i = r
  · rw [hi, Session.handles_setHandle_self, hh]
  · rw [Session.handles_setHandle_of_ne s r hi]

theorem Handle.lastPush_afterRead (h : Handle) (out : StreamState.ReadOut) :
    (h.afterRead out).lastPush = h.lastPush := by
  cases out <;> rfl

theorem WriterPc.phase_ofFail (next : Option FailPc) : (ofFail next).phase = .stopped := by
  cases next <;> rfl

namespace Shows

theorem congr (hg : Shows g s) (hqueue : t.queue = s.queue)
    (hphase : t.writer.phase = s.writer.phase)
    (hlast : ∀ r, (t.handles r).lastPush = (s.handles r).lastPush) (hsent : t.sent = s.sent)
    (htaken : t.taken = s.taken) (hwire : t.wire = s.wire) : Shows g t :=
  ⟨by rw [hqueue, hg.queue], by rw [hphase, hg.phase], fun r => by rw [hlast, hg.lastPush],
    by rw [hsent, hg.sent], by rw [htaken, hg.taken], by rw [hwire, hg.wire]⟩

/-- A stream that gets its handle has pushed nothing. -/
theorem insertStream (hg : Shows g s) (ho : Owned s) (sid : UInt32) {h : Handle}
    (hh : h.lastPush = 0) : Shows g (s.insertStream sid h) := by
  refine hg.congr rfl rfl (fun i => ?_) rfl rfl rfl
  have hvacant := ho.vacant s.nextRef (Nat.le_refl _)
  by_cases hi : i = s.nextRef
  · show (Function.update s.handles s.nextRef h i).lastPush = _
    rw [hi, Function.update_self, hvacant, hh]
    rfl
  · show (Function.update s.handles s.nextRef h i).lastPush = _
    rw [Function.update_of_ne hi]

/-- A frame of a stream, with the handle that remembers its number. -/
theorem push (hg : Shows g s) {r seq : Nat} {f : MuxFrame} {q : WriteQueue} {h : Handle}
    (hq : s.queue.forcePushData f = .ok (q, seq)) (hh : h.lastPush = seq) :
    Follows g ((s.pushData q r f).setHandle r h) := by
  rw [← hg.queue] at hq
  refine .inr ⟨_, _, .push (r := r) hq, ?_⟩
  refine ⟨rfl, hg.phase, fun i => ?_, ?_, hg.taken, hg.wire⟩
  · show Function.update g.lastPush r seq i = _
    by_cases hi : i = r
    · rw [hi, Function.update_self, Session.handles_setHandle_self, hh]
    · rw [Function.update_of_ne hi, Session.handles_setHandle_of_ne _ r hi]
      exact hg.lastPush i
  · show (g.pushes ++ [(some r, f)]).filterMap _ = s.sent ++ [(r, f)]
    rw [List.filterMap_append, ← hg.sent]
    rfl

/-- Closing the queue, or one of the other parts of `fail`. -/
theorem fail (hg : Shows g s) {u : Session} {pc : FailPc} {next : Option FailPc}
    (hf : FailStep s pc u next) : Follows g u ∧ u.writer = s.writer := by
  cases hf
  case closeQueue =>
    refine ⟨.inr ⟨_, _, .close, ?_⟩, rfl⟩
    exact ⟨by rw [hg.queue], hg.phase, hg.lastPush, hg.sent, hg.taken, hg.wire⟩
  all_goals exact ⟨.inl (hg.congr rfl rfl (fun _ => rfl) rfl rfl rfl), rfl⟩

end Shows

/-- A change that does not show comes after what was followed. -/
theorem Follows.congr {u : Session} (h : Follows g u) (hqueue : t.queue = u.queue)
    (hphase : t.writer.phase = u.writer.phase)
    (hlast : ∀ r, (t.handles r).lastPush = (u.handles r).lastPush) (hsent : t.sent = u.sent)
    (htaken : t.taken = u.taken) (hwire : t.wire = u.wire) : Follows g t := by
  rcases h with h | ⟨l, g', hstep, h⟩
  · exact .inl (h.congr hqueue hphase hlast hsent htaken hwire)
  · exact .inr ⟨l, g', hstep, h.congr hqueue hphase hlast hsent htaken hwire⟩

theorem Step.sending {l : Label} (h : Step s l t) (ho : Owned s) (hg : Shows g s) :
    Follows g t := by
  have hphase {pc : WriterPc} (h : s.writer = pc) : g.phase = pc.phase := by rw [hg.phase, h]
  cases h
  all_goals try exact .inl (hg.congr rfl rfl (fun _ => rfl) rfl rfl rfl)
  all_goals try exact .inl (hg.congr rfl rfl (lastPush_setHandle rfl) rfl rfl rfl)
  -- the closing steps of the threads
  case readerFail hf | keepFail hf | closeFail hf =>
    exact (hg.fail hf).1.congr rfl rfl (fun _ => rfl) rfl rfl rfl
  case writerFail u h hf =>
    obtain ⟨hfollow, hwriter⟩ := hg.fail hf
    refine hfollow.congr rfl ?_ (fun _ => rfl) rfl rfl rfl
    rw [WriterPc.phase_ofFail, hwriter, h]
    rfl
  -- the writer
  case writerTake q batch ws out h hq henc =>
    rw [← hg.queue] at hq
    refine .inr ⟨_, _, .take (hphase h) hq henc, ?_⟩
    exact ⟨rfl, rfl, hg.lastPush, hg.sent, by rw [hg.taken], hg.wire⟩
  case writerEncodeErr q batch ws e h hq henc =>
    rw [← hg.queue] at hq
    refine .inr ⟨_, _, .encodeErr (hphase h) hq henc, ?_⟩
    exact ⟨rfl, rfl, hg.lastPush, hg.sent, by rw [hg.taken], hg.wire⟩
  case writerEmpty h hq =>
    exact .inl (hg.congr rfl (by rw [h]; rfl) (fun _ => rfl) rfl rfl rfl)
  case writerCheckClosed h =>
    refine .inl (hg.congr rfl ?_ (fun _ => rfl) rfl rfl rfl)
    rw [h]
    split_ifs <;> rfl
  case writerPark h =>
    refine .inr ⟨_, _, .notify s.queue.ready.notified.1, ?_⟩
    refine ⟨by rw [hg.queue], ?_, hg.lastPush, hg.sent, hg.taken, hg.wire⟩
    rw [hphase h]
    split_ifs <;> rfl
  case writerWake n h hn =>
    refine .inr ⟨_, _, .notify n, ?_⟩
    exact ⟨by rw [hg.queue], (hphase h).trans rfl, hg.lastPush, hg.sent, hg.taken, hg.wire⟩
  case writerWrite out count k h hk =>
    refine .inr ⟨_, _, .write k (hphase h) hk, ?_⟩
    refine ⟨hg.queue, ?_, hg.lastPush, hg.sent, hg.taken, by rw [hg.wire]⟩
    split_ifs <;> rfl
  case writerFlush count h =>
    exact .inr ⟨_, _, .flush (hphase h), hg.queue, rfl, hg.lastPush, hg.sent, hg.taken, hg.wire⟩
  case writerMark count h =>
    refine .inr ⟨_, _, .mark (hphase h), ?_⟩
    exact ⟨by rw [hg.queue], rfl, hg.lastPush, hg.sent, hg.taken, hg.wire⟩
  case writerShutdown | writerError | writerAbort =>
    exact .inr ⟨_, _, .stop, hg.queue, rfl, hg.lastPush, hg.sent, hg.taken, hg.wire⟩
  -- keepalive
  case keepPing q h hq =>
    rw [← hg.queue] at hq
    refine .inr ⟨_, _, .pushCtrl hq, rfl, hg.phase, hg.lastPush, ?_, hg.taken, hg.wire⟩
    rw [Sending.sent, List.filterMap_append]
    exact (List.append_nil _).trans hg.sent
  -- new streams
  case readerSynInsert sid _ | openInsert sid _ =>
    exact .inl ((hg.insertStream ho sid rfl).congr rfl rfl (fun _ => rfl) rfl rfl rfl)
  case openAlloc k u sid h ha =>
    obtain ⟨-, -, rfl⟩ := Session.allocId_eq_some ha
    exact .inl (hg.congr rfl rfl (fun _ => rfl) rfl rfl rfl)
  case openAllocErr k u h ha =>
    obtain rfl := Session.allocId_eq_none ha
    exact .inl (hg.congr rfl rfl (fun _ => rfl) rfl rfl rfl)
  case dropReceiver k h =>
    refine .inl (hg.congr rfl rfl (fun r => ?_) rfl rfl rfl)
    show (if r ∈ s.acceptQueue then { s.handles r with op := .dropFin } else s.handles r).lastPush = _
    split_ifs <;> rfl
  -- the streams
  case openPush k r seq q h hq =>
    exact (hg.push hq rfl).congr rfl rfl (fun _ => rfl) rfl rfl rfl
  case writePush r seq buf q h hq => exact hg.push hq rfl
  case sendFin r seq next q h hq => exact hg.push hq rfl
  case streamRead r cap cx h =>
    have hlast := Handle.lastPush_afterRead (s.handles r) ((s.objs r).pollRead s.closed cap cx).2
    exact .inl (hg.congr rfl rfl (lastPush_setHandle hlast) rfl rfl rfl)
  case writeReserve r buf cx h =>
    have hf : Follows g { s with queue := (s.queue.pollReserve cx).1 } := by
      refine .inr ⟨_, _, .reserve (r := r) cx, ?_⟩
      exact ⟨by rw [hg.queue], hg.phase, hg.lastPush, hg.sent, hg.taken, hg.wire⟩
    exact hf.congr rfl rfl (lastPush_setHandle rfl) rfl rfl rfl
  case streamFlush r cx h =>
    have hf : Follows g { s with queue := (s.queue.pollFlushed cx (s.handles r).lastPush).1 } := by
      refine .inr ⟨_, _, .pollFlush (r := r) cx, ?_⟩
      refine ⟨?_, hg.phase, hg.lastPush, hg.sent, hg.taken, hg.wire⟩
      show (g.queue.pollFlushed cx (g.lastPush r)).1 = _
      rw [hg.queue, hg.lastPush]
    exact hf.congr rfl rfl (lastPush_setHandle rfl) rfl rfl rfl

theorem shows_new (config : MuxConfig) (isClient : Bool) :
    Shows (Sending.new config.sendQueueLimit) (Session.new config isClient) :=
  ⟨rfl, rfl, fun _ => rfl, rfl, rfl, rfl⟩

/-- What is proved of every run of the write queue holds in every run of a session. -/
theorem sending_of_reaches {config : MuxConfig} {isClient : Bool}
    (h : Reaches Step anyStep (Session.new config isClient) s) :
    ∃ g, Reaches Sending.Step anyStep (Sending.new config.sendQueueLimit) g ∧ Shows g s := by
  have hinv : Owned s ∧
      ∃ g, Reaches Sending.Step anyStep (Sending.new config.sendQueueLimit) g ∧ Shows g s := by
    refine h.invariant (I := fun s => Owned s ∧ ∃ g, Reaches Sending.Step anyStep
      (Sending.new config.sendQueueLimit) g ∧ Shows g s) ?_ ?_
    · exact ⟨(wf_new config isClient).owned, _, .refl, shows_new config isClient⟩
    · rintro s l t ⟨ho, g, hrun, hg⟩ - hstep
      refine ⟨hstep.owned ho, ?_⟩
      rcases hstep.sending ho hg with ht | ⟨l', g', hstep', ht⟩
      · exact ⟨g, hrun, ht⟩
      · exact ⟨g', hrun.tail trivial hstep', ht⟩
  exact hinv.2

end Mux
end RtProxy
