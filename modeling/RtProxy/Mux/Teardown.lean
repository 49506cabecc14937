import RtProxy.Mux.Table

/-!
How the end of a session reaches its streams.

`fail` records its error, sets `closed`, closes the queue and empties the table in
separate steps, and streams come and go between them.  The error a session reports
is the first one recorded.  A task parked in a read is in the table until the call
that closes the session takes it out to wake it (`Informed`), provided that no
insertion has overwritten its entry.
-/

namespace RtProxy
namespace Mux

open Session

/-! ## The error -/

/-- The error a step records: the first access of a call of `fail`. -/
def Session.recorded (s : Session) (l : Label) : Option IoError :=
  match l.failer.bind s.failing with
  | some (.record e) => some e
  | _ => none

/-- The first error recorded stays. -/
theorem Step.error {s t : Session} {l : Label} (h : Step s l t) :
    t.error = s.error.or (s.recorded l) := by
  cases h.fail_cases with
  | access w pc next u hl hpc hstep ht =>
    have hrec : s.recorded l = match some pc with
        | some (FailPc.record e) => some e
        | _ => none := by
      unfold Session.recorded
      rw [hl, Option.bind_some, hpc]
    rw [hrec, ht, Session.error_setFail]
    cases hstep
    case record e => rfl
    all_goals exact (Option.or_none).symm
  | other hl hclosed herr hcalls =>
    have hrec : s.recorded l = none := by
      unfold Session.recorded
      cases hf : l.failer with
      | none => rfl
      | some w =>
        rw [Option.bind_some, hl w hf]
    rw [hrec, herr, Option.or_none]

/-- A session together with the errors its calls of `fail` have recorded, in
order. -/
def LogStep (x : Session × List IoError) (l : Label) (y : Session × List IoError) : Prop :=
  Step x.1 l y.1 ∧ y.2 = x.2 ++ (x.1.recorded l).toList

theorem head?_append_toList {α : Type} (es : List α) (o : Option α) :
    (es ++ o.toList).head? = es.head?.or o := by
  cases es with
  | nil => cases o <;> rfl
  | cons e es => rfl

open Transition in
/-- The session reports the first error that was recorded. -/
theorem error_of_logged {config : MuxConfig} {isClient : Bool} {ok : Session → Label → Prop}
    {x : Session × List IoError}
    (h : Reaches LogStep (fun x => ok x.1) (Session.new config isClient, []) x) :
    x.1.error = x.2.head? := by
  refine h.invariant (I := fun x => x.1.error = x.2.head?) rfl ?_
  rintro x l y hx - ⟨hstep, hlog⟩
  rw [hstep.error, hlog, hx, head?_append_toList]

open Transition in
theorem reaches_of_logged {ok : Session → Label → Prop} {x y : Session × List IoError}
    (h : Reaches LogStep (fun x => ok x.1) x y) : Reaches Step ok x.1 y.1 :=
  h.map Prod.fst fun _ _ _ hok hstep => ⟨hok, hstep.1⟩

/-! ## The queue -/

/-- A closed queue keeps nobody waiting. -/
def WriteQueue.Silent (q : WriteQueue) : Prop :=
  q.closed = true → q.spaceWakers = [] ∧ q.flushWakers = []

namespace WriteQueue

variable {q q' : WriteQueue}

theorem silent_close (h : q.Silent) : q.close.1.Silent ∧ q.close.1.closed = true := by
  unfold close
  by_cases hc : q.closed = true
  · rw [if_pos hc]
    exact ⟨h, hc⟩
  · rw [if_neg hc]
    exact ⟨fun _ => ⟨rfl, rfl⟩, rfl⟩

theorem silent_pushCtrl {f : MuxFrame} (h : q.Silent) (hq : q.pushCtrl f = some q') :
    q'.Silent ∧ q'.closed = q.closed := by
  unfold pushCtrl at hq
  split at hq
  · cases hq
  · obtain rfl := Option.some.inj hq
    exact ⟨h, rfl⟩

theorem silent_forcePushData {f : MuxFrame} {seq : Nat} (h : q.Silent)
    (hq : q.forcePushData f = .ok (q', seq)) : q'.Silent ∧ q'.closed = q.closed := by
  unfold forcePushData at hq
  split at hq
  · cases hq
  · cases hq
    exact ⟨h, rfl⟩

theorem silent_takeBatch {batch : List MuxFrame} {ws : List Waker} (h : q.Silent)
    (hq : q.takeBatch = some (q', batch, ws)) : q'.Silent ∧ q'.closed = q.closed := by
  unfold takeBatch at hq
  split at hq
  · cases hq
  · cases hq
    exact ⟨fun hc => ⟨rfl, (h hc).2⟩, rfl⟩

theorem silent_pollReserve (h : q.Silent) (cx : Waker) : (q.pollReserve cx).1.Silent := by
  unfold pollReserve
  by_cases hc : q.closed = true
  · rw [if_pos hc]
    exact h
  · rw [if_neg hc]
    split_ifs
    · exact h
    · exact fun hc' => absurd hc' hc

theorem silent_pollFlushed (h : q.Silent) (cx : Waker) (seq : Nat) :
    (q.pollFlushed cx seq).1.Silent := by
  unfold pollFlushed
  split_ifs with hw hc
  · exact h
  · exact h
  · exact fun hc' => absurd hc' hc

end WriteQueue

/-- No step keeps somebody waiting in a closed queue or opens it again. -/
theorem Step.queue_silent {s t : Session} {l : Label} (h : Step s l t) (hq : s.queue.Silent) :
    t.queue.Silent ∧ (s.queue.closed = true → t.queue.closed = true) := by
  have hkeep : ∀ {q : WriteQueue}, q.Silent ∧ q.closed = s.queue.closed →
      q.Silent ∧ (s.queue.closed = true → q.closed = true) := fun h =>
    ⟨h.1, fun hc => h.2.trans hc⟩
  cases h
  all_goals try exact ⟨hq, id⟩
  case readerFail hf | writerFail hf | keepFail hf | closeFail hf =>
    cases hf
    case closeQueue =>
      exact ⟨(WriteQueue.silent_close hq).1, fun _ => (WriteQueue.silent_close hq).2⟩
    all_goals exact ⟨hq, id⟩
  case writerTake hq' _ | writerEncodeErr hq' _ => exact hkeep (WriteQueue.silent_takeBatch hq hq')
  case writerMark => exact ⟨fun hc => ⟨(hq hc).1, rfl⟩, id⟩
  case keepPing hq' => exact hkeep (WriteQueue.silent_pushCtrl hq hq')
  case openAlloc ha =>
    obtain ⟨-, -, rfl⟩ := Session.allocId_eq_some ha
    exact ⟨hq, id⟩
  case openAllocErr ha =>
    obtain rfl := Session.allocId_eq_none ha
    exact ⟨hq, id⟩
  case openPush hq' | writePush hq' | sendFin hq' =>
    exact hkeep (WriteQueue.silent_forcePushData hq hq')
  case writeReserve cx h =>
    exact hkeep ⟨WriteQueue.silent_pollReserve hq cx, WriteQueue.closed_pollReserve _ _⟩
  case streamFlush cx h =>
    exact hkeep ⟨WriteQueue.silent_pollFlushed hq cx _, WriteQueue.closed_pollFlushed _ _ _⟩

/-! ## The parked reads -/

theorem StreamState.readWaker_pollRead (st : StreamState) (closed : Bool) (cap : Nat) (cx : Waker) :
    (st.pollRead closed cap cx).1.readWaker = st.readWaker ∨
      closed = false ∧ (st.pollRead closed cap cx).1.readWaker = some cx := by
  unfold pollRead
  cases closed with
  | true =>
    left
    dsimp only
    split_ifs with h1 h2 h3
    · rfl
    · rfl
    · rfl
    · exact absurd (Bool.or_true _) h3
  | false =>
    dsimp only
    split_ifs
    · exact .inl rfl
    · exact .inl rfl
    · exact .inl rfl
    · exact .inr ⟨rfl, rfl⟩

/-- A change of one stream that stores no waker stores none in any. -/
theorem readWaker_update {objs : Nat → StreamState} {r : Nat} {st : StreamState}
    (h : st.readWaker = none ∨ st.readWaker = (objs r).readWaker) (i : Nat) :
    ((Function.update objs r st) i).readWaker = none ∨
      ((Function.update objs r st) i).readWaker = (objs i).readWaker := by
  by_cases hi : i = r
  · subst hi
    rw [Function.update_self]
    exact h
  · rw [Function.update_of_ne hi]
    exact .inr rfl

/-- A waker is stored by a read of the stream in an open session, and by nothing
else. -/
theorem Step.readWaker {s t : Session} {l : Label} (h : Step s l t) (i : Nat) :
    ((t.objs i).readWaker = none ∨ (t.objs i).readWaker = (s.objs i).readWaker) ∨
      (l = .stream i ∧ t.closed = false ∧ (s.handles i).op.Running) := by
  cases h
  all_goals try exact .inl (.inr rfl)
  case readerFinSet | readerPshPush | readerSynInsert | openInsert =>
    exact .inl (readWaker_update (.inl rfl) i)
  case dropRecycle r h =>
    left
    refine readWaker_update ?_ i
    exact .inr rfl
  case readerFail hf | writerFail hf | keepFail hf | closeFail hf =>
    left
    cases hf
    case setDead => exact readWaker_update (.inl rfl) i
    all_goals exact .inr rfl
  case openAlloc ha =>
    obtain ⟨-, -, rfl⟩ := Session.allocId_eq_some ha
    exact .inl (.inr rfl)
  case openAllocErr ha =>
    obtain rfl := Session.allocId_eq_none ha
    exact .inl (.inr rfl)
  case streamRead r cap cx h =>
    rcases (s.objs r).readWaker_pollRead s.closed cap cx with hsame | ⟨hopen, -⟩
    · exact .inl (readWaker_update (.inr hsame) i)
    · by_cases hi : i = r
      · subst hi
        exact .inr ⟨rfl, hopen, by rw [h]; exact ⟨nofun, nofun⟩⟩
      · left
        right
        show ((Function.update s.objs r _) i).readWaker = _
        rw [Function.update_of_ne hi]

theorem running_update {handles : Nat → Handle} {r : Nat} {h : Handle} (hrun : h.op.Running)
    (hp : h.op.present = true → (handles r).op.present = true) :
    ((Function.update handles r h) r).op.Running ∧
      (((Function.update handles r h) r).op.present = true → (handles r).op.present = true) := by
  rw [Function.update_self]
  exact ⟨hrun, hp⟩

/-- A handle in the application's hands stays there, and once its entry is removed
it stays removed. -/
theorem Step.running {s t : Session} {l : Label} {r : Nat} (h : Step s l t) (ho : Owned s)
    (hrun : (s.handles r).op.Running) :
    (t.handles r).op.Running ∧
      ((t.handles r).op.present = true → (s.handles r).op.present = true) := by
  have hpre : ∀ {op : Op}, (s.handles r).op = op → op.present = true →
      (s.handles r).op.present = true := fun h hp => by rw [h, hp]
  by_cases hl : l = .stream r
  · subst hl
    cases h
    case callRead h | writePush h _ | writePushErr h _ | callFlush h | shutClosed _ h
        | shutOpen _ h | callWrite _ h _ =>
      exact running_update ⟨nofun, nofun⟩ fun _ => hpre h rfl
    case streamFlush h =>
      rcases h with h | h <;> exact running_update ⟨nofun, nofun⟩ fun _ => hpre h rfl
    case writeClosed h | writeDead h | callShutdown h | callDrop h =>
      refine running_update ?_ fun _ => hpre h rfl
      dsimp only
      split_ifs <;> exact ⟨nofun, nofun⟩
    case writeReserve h =>
      refine running_update ?_ fun _ => hpre h rfl
      dsimp only
      split <;> exact ⟨nofun, nofun⟩
    case sendFin h _ | sendFinErr h _ =>
      rcases h with ⟨cx, h, rfl⟩ | ⟨h, rfl⟩ <;>
        exact running_update ⟨nofun, nofun⟩ fun _ => hpre h rfl
    case streamRead cap cx h =>
      refine running_update ?_ fun _ => hpre h rfl
      generalize (StreamState.pollRead _ _ _ _).2 = out
      cases out <;> exact ⟨nofun, nofun⟩
    case refundNone d h | refundNotify d h =>
      cases d
      · exact running_update ⟨nofun, nofun⟩ fun _ => hpre h rfl
      · exact running_update ⟨nofun, nofun⟩ nofun
    case refundAdd n d hn h =>
      cases d
      · refine running_update ?_ fun _ => hpre h rfl
        dsimp only
        split_ifs <;> exact ⟨nofun, nofun⟩
      · refine running_update ?_ ?_
        · dsimp only
          split_ifs <;> exact ⟨nofun, nofun⟩
        · dsimp only
          split_ifs <;> exact nofun
    case dropRemove | dropMissing | dropRecycle => exact running_update ⟨nofun, nofun⟩ nofun
  · rw [h.handles_of_ne ho hrun hl]
    exact ⟨hrun, id⟩

/-! ## Who is told -/

/-- Between the swap and the end of the call that closes the session, every parked
read is still in the table or among the streams the call is about to wake; after it
there is none. -/
structure Informed (s : Session) : Prop where
  silent : s.queue.Silent
  shut : s.closed = true → s.queue.closed = true ∨ ∃ w, s.failing w = some .closeQueue
  running : ∀ r, (s.objs r).readWaker ≠ none → (s.handles r).op.Running
  told : s.closed = true → ∀ r, (s.objs r).readWaker ≠ none → (s.handles r).op.present = true →
    s.Undrained ∨ ∃ w refs, s.failing w = some (.setDead refs) ∧ r ∈ refs

/-- Only a swap closes the session, and it leaves the table as it is. -/
theorem Step.undrained_of_closed {s t : Session} {l : Label} (h : Step s l t)
    (hs : s.closed = false) (ht : t.closed = true) : ∃ w, t.failing w = some .closeQueue := by
  cases h.fail_cases with
  | access w pc next u hl hpc hstep htu =>
    subst htu
    rw [Session.closed_setFail] at ht
    cases hstep
    case swapFirst hc => exact ⟨w, Session.failing_setFail_self _ _ _⟩
    all_goals
      have hu : s.closed = true := ht
      rw [hs] at hu
      cases hu
  | other hl hclosed herr hcalls =>
    rw [hclosed, hs] at ht
    cases ht

theorem Step.shut {s t : Session} {l : Label} (h : Step s l t) (hi : Informed s)
    (ht : t.closed = true) : t.queue.closed = true ∨ ∃ w, t.failing w = some .closeQueue := by
  cases hs : s.closed with
  | false => exact .inr (h.undrained_of_closed hs ht)
  | true =>
    rcases hi.shut hs with hq | ⟨i, hpci⟩
    · exact .inl ((h.queue_silent hi.silent).2 hq)
    · cases h.fail_cases with
      | access w pc next u hl hpc hstep htu =>
        subst htu
        by_cases hw : i = w
        · subst hw
          obtain rfl := Option.some.inj (hpc.symm.trans hpci)
          left
          cases hstep
          have hclose : s.queue.close.1.closed = true := (WriteQueue.silent_close hi.silent).2
          cases i <;> exact hclose
        · refine .inr ⟨i, ?_⟩
          rw [Session.failing_setFail_of_ne _ hw, hstep.failing]
          exact hpci
      | other hl hclosed herr hcalls =>
        rcases hcalls i with he | ⟨he, -⟩
        · exact .inr ⟨i, he.trans hpci⟩
        · rw [he] at hpci
          cases hpci

@[simp] theorem Session.objs_setFail (s : Session) (w : Failer) (next : Option FailPc) :
    (s.setFail next w).objs = s.objs := by
  cases w <;> rfl

/-- What becomes of a parked read while the session is being closed. -/
theorem Step.told {s t : Session} {l : Label} (h : Step s l t) {r : Nat}
    (hl : s.Undrained → s.Registered r) (hlt : r < s.nextRef)
    (hwait : (t.objs r).readWaker ≠ none)
    (hs : (∃ w, s.failing w = some .closeQueue ∨ s.failing w = some .drain) ∨
      ∃ w refs, s.failing w = some (.setDead refs) ∧ r ∈ refs) :
    t.Undrained ∨ ∃ w refs, t.failing w = some (.setDead refs) ∧ r ∈ refs := by
  -- a call that does not move is where it was
  have hstay : ∀ w, t.failing w = s.failing w → (s.failing w = some .closeQueue ∨
      s.failing w = some .drain ∨ ∃ refs, s.failing w = some (.setDead refs) ∧ r ∈ refs) →
      t.Undrained ∨ ∃ w refs, t.failing w = some (.setDead refs) ∧ r ∈ refs := by
    intro w he hcase
    rcases hcase with hc | hc | ⟨refs, hc, hmem⟩
    · exact .inl (.inr ⟨w, .inl (he.trans hc)⟩)
    · exact .inl (.inr ⟨w, .inr (he.trans hc)⟩)
    · exact .inr ⟨w, refs, he.trans hc, hmem⟩
  obtain ⟨i, hi⟩ : ∃ w, s.failing w = some .closeQueue ∨ s.failing w = some .drain ∨
      ∃ refs, s.failing w = some (.setDead refs) ∧ r ∈ refs := by
    rcases hs with ⟨w, hc | hc⟩ | ⟨w, refs, hc⟩
    · exact ⟨w, .inl hc⟩
    · exact ⟨w, .inr (.inl hc)⟩
    · exact ⟨w, .inr (.inr ⟨refs, hc⟩)⟩
  cases h.fail_cases with
  | access w pc next u hlab hpc hstep htu =>
    subst htu
    by_cases hiw : i = w
    · subst hiw
      rw [Session.objs_setFail] at hwait
      have hself := Session.failing_setFail_self u i next
      rcases hi with hc | hc | ⟨refs, hc, hmem⟩
      · obtain rfl := Option.some.inj (hpc.symm.trans hc)
        cases hstep
        exact .inl (.inr ⟨i, .inr hself⟩)
      · obtain rfl := Option.some.inj (hpc.symm.trans hc)
        cases hstep
        refine .inr ⟨i, s.registered, hself, ?_⟩
        have hreg := hl (.inr ⟨i, .inr hc⟩)
        rw [Session.registered, List.mem_filter]
        exact ⟨List.mem_range.mpr hlt, decide_eq_true hreg⟩
      · obtain rfl := Option.some.inj (hpc.symm.trans hc)
        cases hstep
        case setDead r₀ hr₀ =>
          have hne : r ≠ r₀ := by
            rintro rfl
            apply hwait
            show ((Function.update s.objs r (s.objs r).setDead) r).readWaker = none
            rw [Function.update_self]
            rfl
          exact .inr ⟨i, refs.erase r₀, hself, (List.mem_erase_of_ne hne).mpr hmem⟩
        case setDeadDone => cases hmem
    · exact hstay i (by rw [Session.failing_setFail_of_ne _ hiw, hstep.failing]) hi
  | other hlab hclosed herr hcalls =>
    rcases hcalls i with he | ⟨he, -⟩
    · exact hstay i he hi
    · rw [he] at hi
      rcases hi with hc | hc | ⟨refs, hc, -⟩ <;> cases hc

theorem Step.informed {s t : Session} {l : Label} (h : Step s l t) (hw : Wf s)
    (hl : s.Undrained → Listed s) (hi : Informed s) : Informed t := by
  -- a read that is parked after the step was parked before it, or parks in an open session
  have hold : ∀ r, (t.objs r).readWaker ≠ none → (s.objs r).readWaker ≠ none ∨
      t.closed = false ∧ (s.handles r).op.Running := by
    intro r hwait
    rcases h.readWaker r with (he | he) | ⟨-, hopen, hrun⟩
    · exact absurd he hwait
    · exact .inl (by rw [← he]; exact hwait)
    · exact .inr ⟨hopen, hrun⟩
  refine ⟨(h.queue_silent hi.silent).1, h.shut hi, fun r hwait => ?_, fun ht r hwait hp => ?_⟩
  · rcases hold r hwait with hs | ⟨-, hrun⟩
    · exact (h.running hw.owned (hi.running r hs)).1
    · exact (h.running hw.owned hrun).1
  · rcases hold r hwait with hs | ⟨hopen, -⟩
    · have hrun := hi.running r hs
      have hpresent := (h.running hw.owned hrun).2 hp
      cases hclosed : s.closed with
      | false =>
        obtain ⟨w, hpc⟩ := h.undrained_of_closed hclosed ht
        exact .inl (.inr ⟨w, .inl hpc⟩)
      | true =>
        refine h.told (fun hu => (hl hu).live r (.inl hpresent)) (hw.owned.lt_nextRef hrun) hwait ?_
        rcases hi.told hclosed r hs hpresent with (hopen | hu) | hrefs
        · rw [hclosed] at hopen
          cases hopen
        · exact .inl hu
        · exact .inr hrefs
    · rw [hopen] at ht
      cases ht

theorem informed_new (config : MuxConfig) (isClient : Bool) :
    Informed (Session.new config isClient) :=
  ⟨nofun, nofun, fun _ hr => absurd rfl hr, nofun⟩

open Transition in
theorem informed_of_reaches {config : MuxConfig} {isClient : Bool} {s : Session}
    (h : Reaches Step FreshOk (Session.new config isClient) s) : Wf s ∧ Informed s := by
  obtain ⟨hw, -, -, hi⟩ : Wf s ∧ Sole s ∧ (s.Undrained → Listed s) ∧ Informed s := by
    refine h.invariant (I := fun s => Wf s ∧ Sole s ∧ (s.Undrained → Listed s) ∧ Informed s)
      ⟨wf_new config isClient, sole_new config isClient, fun _ => listed_new config isClient,
        informed_new config isClient⟩ ?_
    rintro s l t ⟨hw, hsole, hl, hi⟩ hok hstep
    refine ⟨hstep.wf hw, hstep.sole hsole, fun ht => ?_, hstep.informed hw hl hi⟩
    exact hstep.listed hok hw hsole ht (hl (hstep.undrained hsole ht).1)
  exact ⟨hw, hi⟩

/-! ## After the failure -/

/-- A call of `fail` has been made, and all calls made so far have returned. -/
def Session.Settled (s : Session) : Prop := s.closed = true ∧ ∀ w, s.failing w = none

/-- Nobody is parked in the session and nobody will be. -/
structure Released (s : Session) : Prop where
  closed : s.closed = true
  queue : s.queue.closed = true
  silent : s.queue.Silent
  running : ∀ r, (s.objs r).readWaker ≠ none → (s.handles r).op.Running
  parked : ∀ r, (s.handles r).op.present = true → (s.objs r).readWaker = none

theorem Informed.released {s : Session} (hi : Informed s) (hs : s.Settled) : Released s := by
  obtain ⟨hclosed, hnone⟩ := hs
  have hqueue : s.queue.closed = true := by
    rcases hi.shut hclosed with hq | ⟨w, hw⟩
    · exact hq
    · rw [hnone w] at hw
      cases hw
  refine ⟨hclosed, hqueue, hi.silent, hi.running, fun r hp => ?_⟩
  by_contra hwait
  rcases hi.told hclosed r hwait hp with (hopen | ⟨w, hw⟩) | ⟨w, refs, hw, -⟩
  · rw [hclosed] at hopen
    cases hopen
  · rw [hnone w] at hw
    rcases hw with hw | hw <;> cases hw
  · rw [hnone w] at hw
    cases hw

theorem Step.released {s t : Session} {l : Label} (h : Step s l t) (ho : Owned s)
    (hr : Released s) : Released t := by
  have hclosed : t.closed = true := by
    by_contra hopen
    have hs := h.closed_mono (by simpa using hopen)
    rw [hr.closed] at hs
    cases hs
  have hold : ∀ r, (t.objs r).readWaker ≠ none → (s.objs r).readWaker ≠ none := by
    intro r hwait
    rcases h.readWaker r with (he | he) | ⟨-, hopen, -⟩
    · exact absurd he hwait
    · rw [← he]
      exact hwait
    · rw [hclosed] at hopen
      cases hopen
  obtain ⟨hsilent, hqueue⟩ := h.queue_silent hr.silent
  refine ⟨hclosed, hqueue hr.queue, hsilent, fun r hwait => ?_, fun r hp => ?_⟩
  · exact (h.running ho (hr.running r (hold r hwait))).1
  · by_contra hwait
    have hs := hold r hwait
    exact hs (hr.parked r ((h.running ho (hr.running r hs)).2 hp))

open Transition in
theorem released_of_reaches {s t : Session} (ho : Owned s) (hr : Released s)
    (hrun : Reaches Step anyStep s t) : Released t := by
  obtain ⟨-, ht⟩ : Owned t ∧ Released t := by
    refine hrun.invariant (I := fun t => Owned t ∧ Released t) ⟨ho, hr⟩ ?_
    rintro t l u ⟨hot, hrt⟩ - hstep
    exact ⟨hstep.owned hot, hstep.released hot hrt⟩
  exact ht

/-! ## What the calls return -/

namespace Session

/-- `SessionShared::error`. -/
def cause (s : Session) : IoError := s.error.getD closedErr

def overflowErr : IoError := ⟨.other, "smux: stream id overflow, no more streams"⟩

/-- What a `poll_read` under way on stream `r` returns at its next access; the bytes
are those it puts into the buffer. -/
def readReturn (s : Session) (r : Nat) : Option (Poll (Except IoError Bytes)) :=
  match (s.handles r).op with
  | .read cap cx =>
    match ((s.objs r).pollRead s.closed cap cx).2 with
    | .data bs => some (.ready (.ok bs))
    | .eof => some (.ready (.ok []))
    | .err => some (.ready (.error s.cause))
    | .pending => some .pending
  | _ => none

/-- What a `poll_write` under way on stream `r` returns at its next access, if that
ends it. -/
def writeReturn (s : Session) (r : Nat) : Option (Poll (Except IoError Nat)) :=
  match (s.handles r).op with
  | .writeClosed _ _ => if s.closed then some (.ready (.error s.cause)) else none
  | .writeDead _ _ => if (s.objs r).dead then some (.ready (.error s.cause)) else none
  | .writeReserve _ cx =>
    match (s.queue.pollReserve cx).2 with
    | .pending => some .pending
    | .ready (.error e) => some (.ready (.error e))
    | .ready (.ok ()) => none
  | .writePush buf =>
    match s.queue.forcePushData (MuxFrame.withData s.config.version CMD_PSH (s.objs r).id
      (buf.take s.config.maxFrameSize)) with
    | .ok _ => some (.ready (.ok (min buf.length s.config.maxFrameSize)))
    | .error e => some (.ready (.error e))
  | _ => none

/-- What call `k` of `open_stream` returns at its next access, if that ends it; a
stream is given by its number. -/
def openReturn (s : Session) (k : Nat) : Option (Except IoError Nat) :=
  match s.opens k with
  | .start => if s.closed then some (.error s.cause) else none
  | .loadGoAway => if s.goAway then some (.error overflowErr) else none
  | .alloc => match s.allocId.2 with
    | some _ => none
    | none => some (.error overflowErr)
  | .pushSyn r =>
    match s.queue.forcePushData (MuxFrame.new s.config.version CMD_SYN (s.objs r).id) with
    | .ok _ => some (.ok r)
    | .error _ => none
  | .unwind _ => some (.error closedErr)
  | _ => none

end Session

/-- A call of `open_stream` ends at the step at which it returns. -/
theorem Step.openReturn {s t : Session} {k : Nat} (h : Step s (.openStream k) t) :
    (∀ r, s.openReturn k = some (.ok r) ↔ t.opens k = .opened r) ∧
      ((∃ e, s.openReturn k = some (.error e)) ↔ t.opens k = .failed) := by
  unfold Session.openReturn
  cases h
  case openStart h =>
    rw [h, opens_setOpen_self]
    cases s.closed <;> simp
  case openGoAway h =>
    rw [h, opens_setOpen_self]
    cases s.goAway <;> simp
  case openAlloc ha h | openAllocErr ha h =>
    rw [h, opens_setOpen_self]
    simp [ha]
  case openInsert h =>
    rw [h, opens_setOpen_self]
    simp
  case openPush r seq q hq h | openPushErr r e hq h =>
    rw [h, opens_setOpen_self]
    simp [hq]
  case openUnwind h =>
    rw [h, opens_setOpen_self]
    simp

/-- The handle is inside a `poll_write`. -/
def Op.writing : Op → Bool
  | .writeClosed _ _ | .writeDead _ _ | .writeReserve _ _ | .writePush _ => true
  | _ => false

/-- A `poll_write` ends at the step at which it returns. -/
theorem Step.writeReturn {s t : Session} {r : Nat} (h : Step s (.stream r) t)
    (hw : (s.handles r).op.writing = true) :
    (s.writeReturn r).isSome ↔ (t.handles r).op = .idle := by
  unfold Session.writeReturn
  cases h
  case writeClosed h =>
    rw [h, setOp, handles_setHandle_self]
    cases s.closed <;> simp
  case writeDead h =>
    rw [h, setOp, handles_setHandle_self]
    cases (s.objs r).dead <;> simp
  case writeReserve buf cx h =>
    rw [h, setOp, handles_setHandle_self]
    dsimp only
    rcases (s.queue.pollReserve cx).2 with (e | u) | _ <;> simp
  case writePush h hq | writePushErr h hq =>
    rw [h]
    simp [hq, setOp]
  case callRead h | callFlush h | callShutdown h | callDrop h | streamRead h | refundNone h
      | refundAdd _ h | refundNotify h | dropRemove h _ | dropMissing h _ | dropRecycle h
      | shutClosed _ h | shutOpen _ h | callWrite _ h _ =>
    rw [h] at hw
    cases hw
  case streamFlush h =>
    rcases h with h | h <;> rw [h] at hw <;> cases hw
  case sendFin h _ | sendFinErr h _ =>
    rcases h with ⟨cx, h, -⟩ | ⟨h, -⟩ <;> rw [h] at hw <;> cases hw

/-! ## Woken -/

/-- The tasks parked in the queue, for room or for a flush. -/
def WriteQueue.waiters (q : WriteQueue) : List Waker := q.spaceWakers ++ q.flushWakers

/-- The step is the access of a `poll_read` on stream `r`. -/
def Session.Reads (s : Session) (r : Nat) (l : Label) : Prop :=
  l = .stream r ∧ ∃ cap cx, (s.handles r).op = .read cap cx

/-- The wake-ups `ws` of a step reach every task it takes from a parking place. -/
structure Wakes (s : Session) (l : Label) (t : Session) (ws : List Waker) : Prop where
  woken : t.woken = s.woken ++ ws
  queue : ∀ cx ∈ s.queue.waiters, cx ∈ t.queue.waiters ∨ cx ∈ ws
  reads : ∀ r cx, (s.objs r).readWaker = some cx → r < s.nextRef → ¬ s.Reads r l →
    (t.objs r).readWaker = some cx ∨ cx ∈ ws

namespace Wakes

variable {s t : Session} {l : Label} {ws : List Waker}

/-- A step that leaves the parked reads alone. -/
theorem of_queue (hw : t.woken = s.woken ++ ws) (ho : t.objs = s.objs)
    (hq : ∀ cx ∈ s.queue.waiters, cx ∈ t.queue.waiters ∨ cx ∈ ws) : Wakes s l t ws :=
  ⟨hw, hq, fun r cx h _ _ => .inl (by rw [ho]; exact h)⟩

/-- A step that wakes nobody and keeps every task in the queue. -/
theorem quiet (hw : t.woken = s.woken) (ho : t.objs = s.objs)
    (hq : s.queue.waiters ⊆ t.queue.waiters) : Wakes s l t [] :=
  of_queue (by rw [hw, List.append_nil]) ho fun _ h => .inl (hq h)

/-- A step that changes one stream and leaves the queue alone. -/
theorem of_obj {i : Nat} {st : StreamState} (hw : t.woken = s.woken ++ ws)
    (ho : t.objs = Function.update s.objs i st) (hq : t.queue = s.queue)
    (hi : ∀ cx, (s.objs i).readWaker = some cx → i < s.nextRef → ¬ s.Reads i l →
      st.readWaker = some cx ∨ cx ∈ ws) : Wakes s l t ws := by
  refine ⟨hw, fun cx h => .inl (by rw [hq]; exact h), fun r cx h hlt hread => ?_⟩
  rw [ho]
  by_cases hr : r = i
  · subst hr
    rw [Function.update_self]
    exact hi cx h hlt hread
  · rw [Function.update_of_ne hr]
    exact .inl h

end Wakes

namespace WriteQueue

variable {q q' : WriteQueue}

theorem waiters_pushCtrl {f : MuxFrame} (h : q.pushCtrl f = some q') : q.waiters ⊆ q'.waiters := by
  unfold pushCtrl at h
  split at h
  · cases h
  · obtain rfl := Option.some.inj h
    exact List.Subset.refl q.waiters

theorem waiters_forcePushData {f : MuxFrame} {seq : Nat}
    (h : q.forcePushData f = .ok (q', seq)) : q.waiters ⊆ q'.waiters := by
  unfold forcePushData at h
  split at h
  · cases h
  · cases h
    exact List.Subset.refl q.waiters

theorem waiters_takeBatch {batch : List MuxFrame} {ws : List Waker}
    (h : q.takeBatch = some (q', batch, ws)) : q.waiters = ws ++ q'.waiters := by
  unfold takeBatch at h
  split at h
  · cases h
  · cases h
    rfl

theorem subset_register (ws : List Waker) (cx : Waker) : ws ⊆ register ws cx := by
  unfold register
  split_ifs
  · exact List.Subset.refl ws
  · exact List.subset_append_left ws [cx]

theorem waiters_pollReserve (q : WriteQueue) (cx : Waker) :
    q.waiters ⊆ (q.pollReserve cx).1.waiters := by
  unfold pollReserve
  split_ifs
  · exact List.Subset.refl _
  · exact List.Subset.refl _
  · exact List.append_subset.mpr ⟨List.subset_append_of_subset_left _ (subset_register _ cx),
      List.subset_append_right _ _⟩

theorem waiters_pollFlushed (q : WriteQueue) (cx : Waker) (seq : Nat) :
    q.waiters ⊆ (q.pollFlushed cx seq).1.waiters := by
  unfold pollFlushed
  split_ifs
  · exact List.Subset.refl _
  · exact List.Subset.refl _
  · exact List.append_subset.mpr ⟨List.subset_append_left _ _,
      List.subset_append_of_subset_right _ (subset_register _ cx)⟩

theorem waiters_close (q : WriteQueue) {cx : Waker} (h : cx ∈ q.waiters) :
    cx ∈ q.close.1.waiters ∨ cx ∈ q.close.2 := by
  unfold close
  split_ifs
  · exact .inl h
  · exact .inr h

theorem waiters_markWritten (q : WriteQueue) (n : Nat) {cx : Waker} (h : cx ∈ q.waiters) :
    cx ∈ (q.markWritten n).1.waiters ∨ cx ∈ (q.markWritten n).2 := by
  rcases List.mem_append.mp h with h | h
  · exact .inl (List.mem_append_left _ h)
  · exact .inr h

end WriteQueue

theorem FailStep.wakes {s t u : Session} {l : Label} {pc : FailPc} {next : Option FailPc}
    (h : FailStep s pc u next) (hw : t.woken = u.woken) (ho : t.objs = u.objs)
    (hq : t.queue = u.queue) : ∃ ws, Wakes s l t ws := by
  cases h
  case closeQueue =>
    refine ⟨_, .of_queue hw ho fun cx hcx => ?_⟩
    rw [hq]
    exact s.queue.waiters_close hcx
  case setDead r _ =>
    refine ⟨_, .of_obj hw ho hq fun cx hcx _ _ => .inr ?_⟩
    rw [hcx]
    exact List.mem_singleton_self cx
  all_goals exact ⟨[], .quiet hw ho (by rw [hq]; exact List.Subset.refl _)⟩

/-- What a step wakes. -/
theorem Step.wakes {s t : Session} {l : Label} (h : Step s l t) : ∃ ws, Wakes s l t ws := by
  cases h
  all_goals try exact ⟨[], .quiet rfl rfl (List.Subset.refl _)⟩
  case readerFail hf | writerFail hf | keepFail hf | closeFail hf => exact hf.wakes rfl rfl rfl
  case readerFinSet r h | readerPshPush r data h =>
    refine ⟨_, .of_obj rfl rfl rfl fun cx hcx _ _ => .inr ?_⟩
    rw [hcx]
    exact List.mem_singleton_self cx
  case dropRecycle r h =>
    exact ⟨[], .of_obj (List.append_nil _).symm rfl rfl fun cx hcx _ _ => .inl hcx⟩
  case streamRead r cap cx h =>
    exact ⟨[], .of_obj (List.append_nil _).symm rfl rfl fun _ _ _ hread =>
      absurd ⟨rfl, cap, cx, h⟩ hread⟩
  case readerSynInsert | openInsert =>
    exact ⟨[], .of_obj (List.append_nil _).symm rfl rfl fun _ _ hlt _ =>
      absurd hlt (Nat.lt_irrefl _)⟩
  case writerTake hq _ | writerEncodeErr hq _ =>
    refine ⟨_, .of_queue rfl rfl fun cx hcx => ?_⟩
    rw [WriteQueue.waiters_takeBatch hq] at hcx
    exact (List.mem_append.mp hcx).symm
  case writerMark count h =>
    exact ⟨_, .of_queue rfl rfl fun _ hcx => s.queue.waiters_markWritten count hcx⟩
  case keepPing hq =>
    exact ⟨[], .quiet rfl rfl (WriteQueue.waiters_pushCtrl hq)⟩
  case openPush hq | writePush hq | sendFin hq =>
    exact ⟨[], .quiet rfl rfl (WriteQueue.waiters_forcePushData hq)⟩
  case openAlloc ha =>
    obtain ⟨-, -, rfl⟩ := Session.allocId_eq_some ha
    exact ⟨[], .quiet rfl rfl (List.Subset.refl _)⟩
  case openAllocErr ha =>
    obtain rfl := Session.allocId_eq_none ha
    exact ⟨[], .quiet rfl rfl (List.Subset.refl _)⟩
  case writeReserve cx h => exact ⟨[], .quiet rfl rfl (s.queue.waiters_pollReserve cx)⟩
  case streamFlush cx h => exact ⟨[], .quiet rfl rfl (s.queue.waiters_pollFlushed cx _)⟩

/-- Streams are numbered upwards. -/
theorem Step.nextRef_mono {s t : Session} {l : Label} (h : Step s l t) :
    s.nextRef ≤ t.nextRef := by
  cases h
  all_goals try exact Nat.le_refl _
  case readerSynInsert | openInsert => exact Nat.le_succ _
  case readerFail hf | writerFail hf | keepFail hf | closeFail hf =>
    cases hf <;> exact Nat.le_refl _
  case openAlloc ha =>
    obtain ⟨-, -, rfl⟩ := Session.allocId_eq_some ha
    exact Nat.le_refl _
  case openAllocErr ha =>
    obtain rfl := Session.allocId_eq_none ha
    exact Nat.le_refl _

open Transition in
/-- A task parked in the queue is still parked there or has been woken since. -/
theorem queue_told {s u : Session} (hrun : Reaches Step anyStep s u) {cx : Waker}
    (hcx : cx ∈ s.queue.waiters) :
    ∃ ws, u.woken = s.woken ++ ws ∧ (cx ∈ u.queue.waiters ∨ cx ∈ ws) := by
  refine hrun.invariant
    (I := fun u => ∃ ws, u.woken = s.woken ++ ws ∧ (cx ∈ u.queue.waiters ∨ cx ∈ ws))
    ⟨[], (List.append_nil _).symm, .inl hcx⟩ ?_
  rintro u l v ⟨ws, hwoken, hu⟩ - hstep
  obtain ⟨ws', hwakes⟩ := hstep.wakes
  refine ⟨ws ++ ws', by rw [hwakes.woken, hwoken, List.append_assoc], ?_⟩
  rcases hu with hu | hu
  · exact (hwakes.queue cx hu).imp id fun h => List.mem_append_right _ h
  · exact .inr (List.mem_append_left _ hu)

open Transition in
/-- A task parked in a read is still parked there or has been woken since, as long
as no other read of the stream takes its place. -/
theorem read_told {ok : Session → Label → Prop} {s u : Session} {r : Nat} {cx : Waker}
    (hrun : Reaches Step (fun s l => ok s l ∧ ¬ s.Reads r l) s u)
    (hcx : (s.objs r).readWaker = some cx) (hlt : r < s.nextRef) :
    ∃ ws, u.woken = s.woken ++ ws ∧ ((u.objs r).readWaker = some cx ∨ cx ∈ ws) := by
  obtain ⟨-, ht⟩ : r < u.nextRef ∧
      ∃ ws, u.woken = s.woken ++ ws ∧ ((u.objs r).readWaker = some cx ∨ cx ∈ ws) := by
    refine hrun.invariant (I := fun u => r < u.nextRef ∧
      ∃ ws, u.woken = s.woken ++ ws ∧ ((u.objs r).readWaker = some cx ∨ cx ∈ ws))
      ⟨hlt, [], (List.append_nil _).symm, .inl hcx⟩ ?_
    rintro u l v ⟨hltu, ws, hwoken, hu⟩ ⟨-, hread⟩ hstep
    obtain ⟨ws', hwakes⟩ := hstep.wakes
    refine ⟨Nat.lt_of_lt_of_le hltu hstep.nextRef_mono, ws ++ ws',
      by rw [hwakes.woken, hwoken, List.append_assoc], ?_⟩
    rcases hu with hu | hu
    · exact (hwakes.reads r cx hu hltu hread).imp id fun h => List.mem_append_right _ h
    · exact .inr (List.mem_append_left _ hu)
  exact ht

/-! ## The failure of a session -/

/-- What the calls on a failed session do: reads past the buffered bytes, writes and
opens fail, and nobody is parked. -/
structure FailureSeen (s : Session) : Prop where
  reads : ∀ r cap cx, (s.handles r).op = .read cap cx → (s.objs r).content = [] →
    (s.objs r).fin = false → s.readReturn r = some (.ready (.error s.cause))
  writes : ∀ r buf cx, (s.handles r).op = .writeClosed buf cx →
    s.writeReturn r = some (.ready (.error s.cause))
  writing : ∀ r out, s.writeReturn r = some out → ∃ e, out = .ready (.error e)
  opens : ∀ k, s.opens k = .start → s.openReturn k = some (.error s.cause)
  opening : ∀ k out, s.openReturn k = some out → ∃ e, out = .error e
  parked : ∀ r, (s.handles r).op.present = true → (s.objs r).readWaker = none
  waiters : s.queue.waiters = []

theorem StreamState.pollRead_err {st : StreamState} {cap : Nat} (cx : Waker)
    (hempty : st.content = []) (hfin : st.fin = false) : (st.pollRead true cap cx).2 = .err := by
  have hlen := length_copyChunks st.chunks st.head cap st.head_le
  have hnone : ¬ (copyChunks st.chunks st.head cap).1.length > 0 := by
    have hcontent := congrArg List.length hempty
    rw [content, List.length_drop, List.length_nil] at hcontent
    omega
  unfold pollRead
  simp only [hnone, hfin, Bool.or_true, if_true, if_false, Bool.false_eq_true]

namespace WriteQueue

variable {q : WriteQueue}

theorem forcePushData_closed (h : q.closed = true) (f : MuxFrame) :
    q.forcePushData f = .error closedErr := by
  rw [forcePushData, if_pos h]

theorem pollReserve_closed (h : q.closed = true) (cx : Waker) :
    q.pollReserve cx = (q, .ready (.error closedErr)) := by
  rw [pollReserve, if_pos h]

end WriteQueue

theorem Released.seen {s : Session} (h : Released s) : FailureSeen s := by
  have hpush := fun f => WriteQueue.forcePushData_closed h.queue f
  constructor
  case reads =>
    intro r cap cx hop hempty hfin
    unfold Session.readReturn
    rw [hop, h.closed]
    dsimp only
    rw [StreamState.pollRead_err cx hempty hfin]
  case writes =>
    intro r buf cx hop
    unfold Session.writeReturn
    rw [hop]
    exact if_pos h.closed
  case writing =>
    intro r out hout
    unfold Session.writeReturn at hout
    cases hop : (s.handles r).op with
    | writeClosed buf cx =>
      rw [hop] at hout
      exact ⟨s.cause, (Option.some.inj ((if_pos h.closed).symm.trans hout)).symm⟩
    | writeDead buf cx =>
      rw [hop] at hout
      dsimp only at hout
      split_ifs at hout
      exact ⟨s.cause, (Option.some.inj hout).symm⟩
    | writeReserve buf cx =>
      rw [hop] at hout
      dsimp only at hout
      rw [WriteQueue.pollReserve_closed h.queue] at hout
      exact ⟨closedErr, (Option.some.inj hout).symm⟩
    | writePush buf =>
      rw [hop] at hout
      dsimp only at hout
      rw [hpush] at hout
      exact ⟨closedErr, (Option.some.inj hout).symm⟩
    | _ =>
      rw [hop] at hout
      cases hout
  case opens =>
    intro k hk
    unfold Session.openReturn
    rw [hk]
    exact if_pos h.closed
  case opening =>
    intro k out hout
    unfold Session.openReturn at hout
    cases hop : s.opens k with
    | start =>
      rw [hop] at hout
      exact ⟨s.cause, (Option.some.inj ((if_pos h.closed).symm.trans hout)).symm⟩
    | loadGoAway =>
      rw [hop] at hout
      dsimp only at hout
      split_ifs at hout
      exact ⟨overflowErr, (Option.some.inj hout).symm⟩
    | alloc =>
      rw [hop] at hout
      dsimp only at hout
      split at hout
      · cases hout
      · exact ⟨overflowErr, (Option.some.inj hout).symm⟩
    | pushSyn r =>
      rw [hop] at hout
      dsimp only at hout
      rw [hpush] at hout
      cases hout
    | unwind r =>
      rw [hop] at hout
      exact ⟨closedErr, (Option.some.inj hout).symm⟩
    | _ =>
      rw [hop] at hout
      cases hout
  case parked => exact h.parked
  case waiters =>
    obtain ⟨hspace, hflush⟩ := h.silent h.queue
    rw [WriteQueue.waiters, hspace, hflush]
    rfl

/-- At least one call of `fail` has recorded its error, and all made so far have
returned. -/
def Ended (x : Session × List IoError) : Prop := x.2 ≠ [] ∧ ∀ w, x.1.failing w = none

/-- A call that has recorded its error goes on to close the session. -/
theorem LogStep.swapping {x y : Session × List IoError} {l : Label} (h : LogStep x l y)
    (hx : x.2 ≠ [] → x.1.closed = true ∨ ∃ w, x.1.failing w = some .swap) (hy : y.2 ≠ []) :
    y.1.closed = true ∨ ∃ w, y.1.failing w = some .swap := by
  obtain ⟨hstep, hlog⟩ := h
  cases hstep.fail_cases with
  | access w pc next u hl hpc hf ht =>
    rw [ht, Session.closed_setFail]
    cases hf
    case record e => exact .inr ⟨w, Session.failing_setFail_self _ _ _⟩
    case swapFirst => exact .inl rfl
    case swapAgain hc => exact .inl hc
    all_goals
      have hnil : x.1.recorded l = none := by
        unfold Session.recorded
        rw [hl, Option.bind_some, hpc]
      rw [hlog, hnil, Option.toList_none, List.append_nil] at hy
      refine (hx hy).imp id fun ⟨i, hi⟩ => ⟨i, ?_⟩
      have hne : i ≠ w := by
        rintro rfl
        exact absurd (hpc.symm.trans hi) nofun
      rw [Session.failing_setFail_of_ne _ hne]
      cases i <;> exact hi
  | other hl hclosed herr hcalls =>
    have hnil : x.1.recorded l = none := by
      unfold Session.recorded
      cases hf : l.failer with
      | none => rfl
      | some w => rw [Option.bind_some, hl w hf]
    rw [hlog, hnil, Option.toList_none, List.append_nil] at hy
    rw [hclosed]
    refine (hx hy).imp id fun ⟨i, hi⟩ => ⟨i, ?_⟩
    rcases hcalls i with he | ⟨he, -⟩
    · exact he.trans hi
    · rw [he] at hi
      cases hi

open Transition in
theorem Ended.settled {config : MuxConfig} {isClient : Bool} {ok : Session → Label → Prop}
    {x : Session × List IoError} (hx : Ended x)
    (h : Reaches LogStep (fun x => ok x.1) (Session.new config isClient, []) x) :
    x.1.Settled := by
  have hswap : x.2 ≠ [] → x.1.closed = true ∨ ∃ w, x.1.failing w = some .swap := by
    refine h.invariant
      (I := fun x => x.2 ≠ [] → x.1.closed = true ∨ ∃ w, x.1.failing w = some .swap)
      (fun hne => absurd rfl hne) ?_
    rintro x l y hx - hstep
    exact hstep.swapping hx
  rcases hswap hx.1 with hc | ⟨w, hw⟩
  · exact ⟨hc, hx.2⟩
  · rw [hx.2 w] at hw
    cases hw

open Transition in
/-- Every run can be logged. -/
theorem logged_of_reaches {ok : Session → Label → Prop} {s t : Session} (es : List IoError)
    (h : Reaches Step ok s t) : ∃ es', Reaches LogStep (fun x => ok x.1) (s, es) (t, es') := by
  induction h with
  | refl => exact ⟨es, .refl⟩
  | tail _ hok hstep ih =>
    obtain ⟨es', hrun⟩ := ih
    exact ⟨_, hrun.tail hok ⟨hstep, rfl⟩⟩

open Transition in
/-- In every run that inserts streams only under free ids, the session reports the
first error recorded; once all calls of `fail` have returned, every later call on it
fails, and every task that was parked in the queue, or in a read of a stream that is
still there, has been woken since it parked. -/
theorem failure_reaches_streams {config : MuxConfig} {isClient : Bool} {s : Session}
    {es : List IoError}
    (hrun : Reaches LogStep (fun x => FreshOk x.1) (Session.new config isClient, []) (s, es)) :
    s.error = es.head?
      ∧ (Ended (s, es) → ∀ t, Reaches Step anyStep s t → FailureSeen t)
      ∧ (∀ cx ∈ s.queue.waiters, ∀ y, Reaches LogStep (fun x => FreshOk x.1) (s, es) y → Ended y →
          cx ∈ y.1.woken.drop s.woken.length)
      ∧ ∀ r cx, (s.objs r).readWaker = some cx →
          ∀ y, Reaches LogStep (fun x l => FreshOk x.1 l ∧ ¬ x.1.Reads r l) (s, es) y → Ended y →
            (y.1.handles r).op.present = true → cx ∈ y.1.woken.drop s.woken.length := by
  have hdrop : ∀ ws : List Waker, (s.woken ++ ws).drop s.woken.length = ws :=
    fun ws => List.drop_left
  -- whoever is parked when all calls have returned
  have hreleased : ∀ y, Reaches LogStep (fun x => FreshOk x.1) (Session.new config isClient, []) y →
      Ended y → Wf y.1 ∧ Released y.1 := by
    intro y hy hend
    obtain ⟨hw, hi⟩ := informed_of_reaches (reaches_of_logged hy)
    exact ⟨hw, hi.released (hend.settled hy)⟩
  refine ⟨error_of_logged hrun, fun hend t ht => ?_, fun cx hcx y hy hend => ?_,
    fun r cx hcx y hy hend hp => ?_⟩
  · obtain ⟨hw, hr⟩ := hreleased _ hrun hend
    exact (released_of_reaches hw.owned hr ht).seen
  · obtain ⟨-, hr⟩ := hreleased y (hrun.trans hy) hend
    have hrun' : Reaches Step anyStep s y.1 := (reaches_of_logged hy).mono fun _ _ _ => trivial
    obtain ⟨ws, hwoken, hcase⟩ := queue_told hrun' hcx
    rw [hwoken, hdrop]
    rcases hcase with hq | hq
    · rw [hr.seen.waiters] at hq
      cases hq
    · exact hq
  · obtain ⟨hw, hi⟩ := informed_of_reaches (reaches_of_logged hrun)
    have hlt : r < s.nextRef := hw.owned.lt_nextRef (hi.running r (by rw [hcx]; nofun))
    obtain ⟨-, hr⟩ := hreleased y (hrun.trans (hy.mono fun _ _ h => h.1)) hend
    have hrun' : Reaches Step (fun s l => FreshOk s l ∧ ¬ s.Reads r l) s y.1 :=
      reaches_of_logged (x := (s, es)) hy
    obtain ⟨ws, hwoken, hcase⟩ := read_told hrun' hcx hlt
    rw [hwoken, hdrop]
    rcases hcase with hq | hq
    · rw [hr.parked r hp] at hq
      cases hq
    · exact hq

/-! ## A close -/

open Transition in
theorem logged_tail {ok : Session × List IoError → Label → Prop} {x : Session × List IoError}
    {s t : Session} {es : List IoError} {l : Label} (h : Reaches LogStep ok x (s, es))
    (hok : ok (s, es) l) (hstep : Step s l t) :
    Reaches LogStep ok x (t, es ++ (s.recorded l).toList) := h.tail hok ⟨hstep, rfl⟩

open Transition in
/-- A client opens stream 3, parks a read on it and closes the session. -/
theorem parked_close_run : ∃ es s t,
    Reaches LogStep (fun x => FreshOk x.1) (Session.new MuxConfig.default true, []) (s, es)
      ∧ (s.objs 0).readWaker = some 7 ∧ s.woken = []
      ∧ Reaches LogStep (fun x l => FreshOk x.1 l ∧ ¬ x.1.Reads 0 l) (s, es) (t, [closedErr])
      ∧ (∀ w, t.failing w = none) ∧ (t.handles 0).op.present = true := by
  have start : Reaches LogStep (fun x => FreshOk x.1) (Session.new MuxConfig.default true, [])
      (Session.new MuxConfig.default true, []) := .refl
  have h := logged_tail start (.openStream rfl) (Step.openStart (k := 0) rfl)
  have h := logged_tail h (.openStream rfl) (Step.openGoAway (k := 0) rfl)
  have h := logged_tail h (.openStream rfl) (Step.openAlloc (k := 0) rfl rfl)
  have h := logged_tail h (.openStream rfl) (Step.openInsert (k := 0) rfl)
  have h := logged_tail h (.openStream rfl) (Step.openPush (k := 0) rfl rfl)
  have h := logged_tail (l := .stream 0) h ⟨nofun, nofun⟩ (Step.callRead ⟨1, Nat.one_pos⟩ 7 rfl)
  have h := logged_tail (l := .stream 0) h ⟨nofun, nofun⟩ (Step.streamRead rfl)
  have hfree : ∀ x : Session × List IoError,
      FreshOk x.1 (.close 0) ∧ ¬ x.1.Reads 0 (.close 0) :=
    fun x => ⟨⟨nofun, nofun⟩, nofun⟩
  have here : ∀ {x}, Reaches LogStep (fun x => FreshOk x.1)
      (Session.new MuxConfig.default true, []) x →
      Reaches LogStep (fun x l => FreshOk x.1 l ∧ ¬ x.1.Reads 0 l) x x := fun _ => .refl
  have g := logged_tail (here h) (hfree _) (Step.closeStart (k := 0) rfl)
  have g := logged_tail g (hfree _) (Step.closeFail rfl (.record _))
  have g := logged_tail g (hfree _) (Step.closeFail rfl (.swapFirst rfl))
  have g := logged_tail g (hfree _) (Step.closeFail rfl .closeQueue)
  have g := logged_tail g (hfree _) (Step.closeFail rfl .drain)
  have g := logged_tail g (hfree _) (Step.closeFail rfl (.setDead (r := 0) (by decide)))
  have g := logged_tail g (hfree _) (Step.closeFail rfl .setDeadDone)
  have g := logged_tail g (hfree _) (Step.closeFail rfl .notifyWaiters)
  have g := logged_tail g (hfree _) (Step.closeFail rfl .notifyOne)
  refine ⟨_, _, _, h, rfl, rfl, g, fun w => ?_, rfl⟩
  cases w with
  | close k => cases k <;> rfl
  | _ => rfl

open Transition in
/-- A client that closes its session with a read parked: everything fails after it,
and the reading task has been woken. -/
theorem failure_reaches_parked_read : ∃ t,
    Reaches LogStep (fun x => FreshOk x.1) (Session.new MuxConfig.default true, []) (t, [closedErr])
      ∧ t.error = some closedErr ∧ FailureSeen t ∧ 7 ∈ t.woken := by
  obtain ⟨es, s, t, hs, hread, hwoken, hclose, hreturned, hp⟩ := parked_close_run
  have ht := hs.trans (hclose.mono fun _ _ h => h.1)
  have hend : Ended (t, [closedErr]) := ⟨nofun, hreturned⟩
  obtain ⟨herr, hseen, -, -⟩ := failure_reaches_streams ht
  have hwake := (failure_reaches_streams hs).2.2.2 0 7 hread _ hclose hend hp
  rw [hwoken] at hwake
  exact ⟨t, ht, herr, hseen hend t .refl, hwake⟩

open Transition in
/-- The peer of a client opens stream 3, on which the application parks a read; the
client opens a stream, which gets the same id and takes the entry, and closes the
session. -/
theorem lost_read_run : ∃ s es,
    Reaches LogStep anyStep (Session.new MuxConfig.default true, []) (s, es)
      ∧ Ended (s, es) ∧ (s.handles 0).op.present = true ∧ (s.objs 0).readWaker = some 7
      ∧ s.woken = [] := by
  have start : Reaches LogStep anyStep (Session.new MuxConfig.default true, [])
      (Session.new MuxConfig.default true, []) := .refl
  have h := logged_tail start trivial (Step.arrive synThree)
  have h := logged_tail h trivial (Step.readerTop rfl)
  have h := logged_tail h trivial (Step.readerHeader 8 rfl (by decide) (by decide) (by decide))
  have h := logged_tail h trivial (Step.readerDecodeEmpty rfl rfl (by decide))
  have h := logged_tail h trivial (Step.readerSynCheck rfl)
  have h := logged_tail h trivial (Step.readerSynInsert rfl)
  have h := logged_tail h trivial (Step.readerAcceptSend (r := 0) rfl rfl (by decide))
  have h := logged_tail h trivial (Step.acceptStream (r := 0) rfl)
  have h := logged_tail h trivial (Step.callRead (r := 0) ⟨1, Nat.one_pos⟩ 7 rfl)
  have h := logged_tail h trivial (Step.streamRead (r := 0) rfl)
  -- the entry of stream 0 is overwritten
  have h := logged_tail h trivial (Step.openStart (k := 0) rfl)
  have h := logged_tail h trivial (Step.openGoAway (k := 0) rfl)
  have h := logged_tail h trivial (Step.openAlloc (k := 0) rfl rfl)
  have h := logged_tail h trivial (Step.openInsert (k := 0) rfl)
  have h := logged_tail h trivial (Step.closeStart (k := 0) rfl)
  have h := logged_tail h trivial (Step.closeFail (k := 0) rfl (.record _))
  have h := logged_tail h trivial (Step.closeFail (k := 0) rfl (.swapFirst rfl))
  have h := logged_tail h trivial (Step.closeFail (k := 0) rfl .closeQueue)
  have h := logged_tail h trivial (Step.closeFail (k := 0) rfl .drain)
  have h := logged_tail h trivial (Step.closeFail (k := 0) rfl (.setDead (r := 1) (by decide)))
  have h := logged_tail h trivial (Step.closeFail (k := 0) rfl .setDeadDone)
  have h := logged_tail h trivial (Step.closeFail (k := 0) rfl .notifyWaiters)
  have h := logged_tail h trivial (Step.closeFail (k := 0) rfl .notifyOne)
  refine ⟨_, _, h, ⟨nofun, fun w => ?_⟩, rfl, rfl, rfl⟩
  cases w with
  | close k => cases k <;> rfl
  | _ => rfl

open Transition in
/-- Not every parked read is woken by the failure of its session. -/
theorem failure_misses_read :
    ¬ ∀ (config : MuxConfig) (isClient : Bool) (s : Session) (es : List IoError),
      config.verify = .ok () →
      Reaches LogStep anyStep (Session.new config isClient, []) (s, es) → Ended (s, es) →
      ∀ r cx, (s.handles r).op.present = true → (s.objs r).readWaker = some cx → cx ∈ s.woken := by
  intro hall
  obtain ⟨s, es, hrun, hend, hp, hread, hwoken⟩ := lost_read_run
  have hwake := hall MuxConfig.default true s es rfl hrun hend 0 7 hp hread
  rw [hwoken] at hwake
  cases hwake

end Mux
end RtProxy
