import RtProxy.Mux.Fail

/-!
The reader's wait for receive credit.

The reader parks when it has seen the bucket empty; `return_tokens` wakes it when
the bucket turns positive, the keepalive task at every ping and `fail` at the end
of the session.  `Step.watched` says once what a step can do to the wait, and
`Wakeful` that while there is a reason to wake the reader, a wake-up is on its way
or somebody is about to send one.
-/

namespace RtProxy
namespace Mux

open Session

/-! ## The wait -/

/-- How far the reader is in its wait: it has seen the bucket empty, it has seen
the session open as well, it is parked. -/
inductive Watch
  | away
  | looked
  | about
  | asleep
deriving Repr, DecidableEq

def ReaderPc.watch : ReaderPc → Watch
  | .checkClosed => .looked
  | .park => .about
  | .parked => .asleep
  | _ => .away

/-- What a step can do to the reader's wait. -/
inductive Watched (s t : Session) : Prop
  | still (hw : t.reader.watch = s.reader.watch) (hn : t.bucketNotify = s.bucketNotify)
  | notified (hw : t.reader.watch = s.reader.watch)
      (hn : t.bucketNotify = s.bucketNotify.notifyOne)
  | broadcast (hw : t.reader.watch = s.reader.watch)
      (hn : t.bucketNotify = s.bucketNotify.notifyWaiters)
  | looks (hs : s.reader.watch = .away) (ht : t.reader.watch = .looked)
      (hn : t.bucketNotify = s.bucketNotify) (hb : t.bucket ≤ 0)
  | commits (hs : s.reader.watch = .looked) (ht : t.reader.watch = .about)
      (hn : t.bucketNotify = s.bucketNotify) (hc : s.closed = false)
  | sleeps (hs : s.reader.watch = .about) (ht : t.reader.watch = .asleep)
      (hp : s.bucketNotify.permit = false) (hn : t.bucketNotify.waiting = some false)
  | leaves (ht : t.reader.watch = .away)
      (hn : t.bucketNotify.waiting = none ∨
        s.reader.watch ≠ .asleep ∧ t.bucketNotify.waiting = s.bucketNotify.waiting)

theorem ReaderPc.watch_handleFrame (hdr : MuxHeader) (data : Bytes) :
    (handleFrame hdr data).watch = .away := by
  unfold handleFrame
  split_ifs <;> rfl

theorem ReaderPc.watch_ofFail (next : Option FailPc) : (ofFail next).watch = .away := by
  cases next <;> rfl

theorem FailStep.watched {s t u : Session} {pc : FailPc} {next : Option FailPc}
    (h : FailStep s pc u next) (hw : t.reader.watch = s.reader.watch)
    (hn : t.bucketNotify = u.bucketNotify) : Watched s t := by
  cases h
  case notifyWaiters => exact .broadcast hw hn
  case notifyOne => exact .notified hw hn
  all_goals exact .still hw hn

theorem Step.watched {s t : Session} {l : Label} (h : Step s l t) : Watched s t := by
  cases h
  all_goals try exact .still rfl rfl
  case readerTop h =>
    by_cases hb : s.bucket ≤ 0
    · exact .looks (by rw [h]; rfl) (by rw [if_pos hb]; rfl) rfl hb
    · exact .still (by rw [if_neg hb, h]; rfl) rfl
  case readerCheckClosed h =>
    cases hc : s.closed with
    | true => exact .leaves rfl (.inr ⟨by rw [h]; nofun, rfl⟩)
    | false => exact .commits (by rw [h]; rfl) rfl rfl hc
  case readerPark h =>
    cases hp : s.bucketNotify.permit with
    | true =>
      refine .leaves ?_ (.inr ⟨by rw [h]; nofun, ?_⟩)
      · simp only [Notify.notified, hp, if_true]
        rfl
      · simp only [Notify.notified, hp, if_true]
    | false =>
      refine .sleeps (by rw [h]; rfl) ?_ hp ?_
      · simp [Notify.notified, hp, ReaderPc.watch]
      · simp [Notify.notified, hp]
  case readerWake n h hn =>
    refine .leaves rfl (.inl ?_)
    unfold Notify.wake? at hn
    split at hn
    · obtain rfl := Option.some.inj hn
      rfl
    · cases hn
  case readerRecheck h =>
    refine .still ?_ rfl
    rw [h]
    dsimp only
    split_ifs <;> rfl
  case readerHeader h _ _ _ =>
    refine .still ?_ rfl
    rw [h]
    dsimp only
    split_ifs <;> rfl
  case readerSynCheck h =>
    refine .still ?_ rfl
    rw [h]
    dsimp only
    split_ifs <;> rfl
  case readerDecodeErr h _ | readerDecodeBody h _ _ | readerBody h _ _ _ | readerHeaderEof h _ _
      | readerBodyEof h _ _ | readerHeaderError h | readerBodyError h | readerFinMiss h _
      | readerFinHit h _ | readerFinSet h | readerPshMiss h _ | readerPshHit h _
      | readerPshSpend h | readerPshPush h | readerAcceptFull h _ _ | readerAcceptWait h _
      | readerAcceptRetry h | readerAcceptSend h _ _ | readerSynInsert h | readerAcceptClosed h _
      | readerAcceptGiveUp h _ | readerAbortAccept _ h =>
    exact .still (by rw [h]; rfl) rfl
  case readerDecodeEmpty h _ _ | readerBodyDone h _ _ _ =>
    refine .still ?_ rfl
    rw [h]
    exact ReaderPc.watch_handleFrame _ _
  case readerAbort _ h =>
    refine .leaves rfl (.inl ?_)
    show s.bucketNotify.cancel.waiting = none
    unfold Notify.cancel
    split <;> rfl
  case readerFail h hf =>
    refine hf.watched ?_ rfl
    rw [h]
    exact ReaderPc.watch_ofFail _
  case writerFail h hf | keepFail h hf | closeFail h hf =>
    exact hf.watched (congrArg ReaderPc.watch hf.frame.2.2.2.1) rfl
  case keepNotify | refundNotify => exact .notified rfl rfl
  case openAlloc ha =>
    obtain ⟨-, -, rfl⟩ := Session.allocId_eq_some ha
    exact .still rfl rfl
  case openAllocErr ha =>
    obtain rfl := Session.allocId_eq_none ha
    exact .still rfl rfl

/-! ## Wake-ups -/

/-- A wake-up is on its way to the reader. -/
def Session.Woken (s : Session) : Prop := s.bucketNotify.Wakes (s.reader.watch = .asleep)

/-- The cell has a waiter exactly while the reader is parked. -/
def Session.CellOk (s : Session) : Prop :=
  s.bucketNotify.waiting.isSome = decide (s.reader.watch = .asleep)

namespace Watched

variable {s t : Session}

theorem cellOk (h : Watched s t) (hc : s.CellOk) : t.CellOk := by
  unfold Session.CellOk at hc ⊢
  cases h with
  | still hw hn => rw [hw, hn, hc]
  | notified hw hn => rw [hw, hn, Notify.isSome_notifyOne, hc]
  | broadcast hw hn => rw [hw, hn, Notify.isSome_notifyWaiters, hc]
  | looks hs ht hn hb =>
    rw [hn, hc, hs, ht]
    rfl
  | commits hs ht hn hopen =>
    rw [hn, hc, hs, ht]
    rfl
  | sleeps hs ht hp hn =>
    rw [hn, ht]
    rfl
  | leaves ht hn =>
    rw [ht]
    rcases hn with hn | ⟨hs, hn⟩
    · rw [hn]
      rfl
    · rw [hn, hc, decide_eq_false hs]
      rfl

/-- Until the reader leaves its wait, no step takes a wake-up back. -/
theorem woken (h : Watched s t) (hs : s.reader.watch ≠ .away) (ht : t.reader.watch ≠ .away)
    (hwake : s.Woken) : t.Woken := by
  unfold Session.Woken at hwake ⊢
  cases h with
  | still hw hn =>
    rw [hw, hn]
    exact hwake
  | notified hw hn =>
    rw [hw, hn]
    exact hwake.notifyOne
  | broadcast hw hn =>
    rw [hw, hn]
    exact hwake.notifyWaiters
  | looks hs' => exact absurd hs' hs
  | commits hs' ht' hn hopen =>
    rw [hs'] at hwake
    rw [ht', hn]
    exact hwake
  | sleeps hs' ht' hp hn =>
    rw [hs'] at hwake
    have hpermit : s.bucketNotify.permit = true := hwake
    rw [hp] at hpermit
    cases hpermit
  | leaves ht' => exact absurd ht' ht

/-- The reader starts a wait only on an empty bucket. -/
theorem looked (h : Watched s t) (hs : s.reader.watch = .away) (ht : t.reader.watch ≠ .away) :
    t.bucket ≤ 0 := by
  cases h with
  | still hw | notified hw | broadcast hw => exact absurd (hw.trans hs) ht
  | looks hs' ht' hn hb => exact hb
  | commits hs' => exact absurd (hs.symm.trans hs') nofun
  | sleeps hs' => exact absurd (hs.symm.trans hs') nofun
  | leaves ht' => exact absurd ht' ht

/-- The reader goes on to park only while the session is open. -/
theorem committed (h : Watched s t) (hs : s.closed = true)
    (ht : t.reader.watch = .about ∨ t.reader.watch = .asleep) :
    s.reader.watch = .about ∨ s.reader.watch = .asleep := by
  cases h with
  | still hw | notified hw | broadcast hw =>
    rw [hw] at ht
    exact ht
  | looks hs' ht' =>
    rw [ht'] at ht
    rcases ht with ht | ht <;> cases ht
  | commits hs' ht' hn hopen =>
    rw [hs] at hopen
    cases hopen
  | sleeps hs' => exact .inl hs'
  | leaves ht' =>
    rw [ht'] at ht
    rcases ht with ht | ht <;> cases ht

end Watched

/-- `return_tokens` sees every crossing: the call whose `fetch_add` turns the bucket
positive goes on to notify. -/
theorem Step.crossing {s t : Session} {l : Label} (h : Step s l t) (hs : s.bucket ≤ 0) :
    t.bucket ≤ 0 ∨ ∃ r d, (t.handles r).op = .refundNotify d := by
  cases h
  all_goals try exact .inl hs
  case readerPshSpend r data h =>
    left
    show s.bucket - data.length ≤ 0
    omega
  case readerFail hf | writerFail hf | keepFail hf | closeFail hf =>
    cases hf <;> exact .inl hs
  case openAlloc ha =>
    obtain ⟨-, -, rfl⟩ := Session.allocId_eq_some ha
    exact .inl hs
  case openAllocErr ha =>
    obtain rfl := Session.allocId_eq_none ha
    exact .inl hs
  case refundAdd r n d h hn =>
    by_cases hpos : s.bucket + n > 0
    · refine .inr ⟨r, d, ?_⟩
      rw [setOp, handles_setHandle_self, if_pos ⟨hs, hpos⟩]
    · left
      show s.bucket + n ≤ 0
      omega

/-- A call about to notify stays so until it does. -/
theorem Step.refunding {s t : Session} {l : Label} {r : Nat} {d : Bool} (h : Step s l t)
    (ho : Owned s) (hr : (s.handles r).op = .refundNotify d) :
    (t.handles r).op = .refundNotify d ∨
      t.bucketNotify = s.bucketNotify.notifyOne ∧ t.reader = s.reader := by
  by_cases hl : l = .stream r
  · subst hl
    cases h
    case refundNotify => exact .inr ⟨rfl, rfl⟩
    case streamFlush h => rcases h with h | h <;> exact absurd (hr.symm.trans h) nofun
    case sendFin h _ | sendFinErr h _ =>
      rcases h with ⟨cx, h, -⟩ | ⟨h, -⟩ <;> exact absurd (hr.symm.trans h) nofun
    case callRead h | streamRead h | refundNone h | refundAdd _ h | callWrite _ h _ | writeClosed h
        | writeDead h | writeReserve h | writePush h _ | writePushErr h _ | callFlush h
        | callShutdown h | shutClosed _ h | shutOpen _ h | callDrop h | dropRemove h _
        | dropMissing h _ | dropRecycle h =>
      exact absurd (hr.symm.trans h) nofun
  · left
    rw [h.handles_of_ne ho (by rw [hr]; exact ⟨nofun, nofun⟩) hl, hr]

/-- While there is a reason to wake the reader, a wake-up is on its way or somebody
is about to send one: a `return_tokens` that has made the bucket positive, or the
`fail` that has closed the session. -/
structure Wakeful (s : Session) : Prop where
  cell : s.CellOk
  credit : s.reader.watch ≠ .away →
    s.bucket ≤ 0 ∨ s.Woken ∨ ∃ r d, (s.handles r).op = .refundNotify d
  death : s.closed = true →
    s.Failing ∨ (s.reader.watch = .about ∨ s.reader.watch = .asleep → s.Woken)

theorem Step.wakeful {s t : Session} {l : Label} (h : Step s l t) (ho : Owned s) (hk : Wakeful s) :
    Wakeful t := by
  have hwatch := h.watched
  have hcell := hwatch.cellOk hk.cell
  have hnotified : t.bucketNotify = s.bucketNotify.notifyOne → t.Woken := by
    intro hn
    unfold Session.Woken
    unfold Session.CellOk at hcell
    rw [hn, Notify.isSome_notifyOne] at hcell
    rw [hn]
    exact Notify.wakes_notifyOne hcell
  refine ⟨hcell, fun ht => ?_, fun ht => ?_⟩
  · by_cases hs : s.reader.watch = .away
    · exact .inl (hwatch.looked hs ht)
    · rcases hk.credit hs with hb | hwake | ⟨r, d, hr⟩
      · rcases h.crossing hb with hb' | hr'
        · exact .inl hb'
        · exact .inr (.inr hr')
      · exact .inr (.inl (hwatch.woken hs ht hwake))
      · rcases h.refunding ho hr with hr' | ⟨hn, -⟩
        · exact .inr (.inr ⟨r, d, hr'⟩)
        · exact .inr (.inl (hnotified hn))
  · cases hs : s.closed with
    | false => exact .inl (h.closed_next hs ht)
    | true =>
      rcases hk.death hs with hf | hawake
      · rcases h.failing_next hf with hf' | hn
        · exact .inl hf'
        · exact .inr fun _ => hnotified hn
      · refine .inr fun hw => ?_
        have hbefore := hwatch.committed hs hw
        refine hwatch.woken ?_ ?_ (hawake hbefore)
        · rcases hbefore with e | e <;> rw [e] <;> exact nofun
        · rcases hw with e | e <;> rw [e] <;> exact nofun

theorem wakeful_new (config : MuxConfig) (isClient : Bool) :
    Wakeful (Session.new config isClient) :=
  ⟨rfl, fun h => absurd rfl h, nofun⟩

theorem Wakeful.wake?_eq_none {s : Session} (hw : s.Woken) (hr : s.reader = .parked) :
    s.bucketNotify.wake? ≠ none := by
  have hwait : s.bucketNotify.waiting = some true := by
    unfold Session.Woken at hw
    rw [hr] at hw
    exact hw
  unfold Notify.wake?
  rw [hwait]
  exact nofun

open Transition in
theorem wakeful_of_reaches {config : MuxConfig} {isClient : Bool} {s : Session}
    (hrun : Reaches Step anyStep (Session.new config isClient) s) : Wf s ∧ Wakeful s := by
  refine hrun.invariant (I := fun s => Wf s ∧ Wakeful s)
    ⟨wf_new config isClient, wakeful_new config isClient⟩ ?_
  rintro s l t ⟨hw, hk⟩ - hstep
  exact ⟨hstep.wf hw, hstep.wakeful hw.owned hk⟩

open Transition in
/-- In no reachable state is the reader parked without a wake-up while the bucket is
positive and no `return_tokens` call is between its `fetch_add` and its
`notify_one`, nor after the call of `fail` that closed the session has returned. -/
theorem reader_not_stranded {config : MuxConfig} {isClient : Bool} {s : Session}
    (hrun : Reaches Step anyStep (Session.new config isClient) s) :
    ¬ (s.reader = .parked ∧ s.bucketNotify.wake? = none ∧ 0 < s.bucket ∧
        ∀ r d, (s.handles r).op ≠ .refundNotify d)
      ∧ ¬ (s.reader = .parked ∧ s.bucketNotify.wake? = none ∧ s.closed = true ∧
        ∀ w pc, s.failing w = some pc → pc.past = false) := by
  obtain ⟨-, hk⟩ := wakeful_of_reaches hrun
  constructor
  · rintro ⟨hr, hnone, hpos, hcalls⟩
    rcases hk.credit (by rw [hr]; nofun) with hb | hwake | ⟨r, d, hop⟩
    · omega
    · exact Wakeful.wake?_eq_none hwake hr hnone
    · exact hcalls r d hop
  · rintro ⟨hr, hnone, hclosed, hcalls⟩
    rcases hk.death hclosed with ⟨w, pc, hpc, hpast⟩ | hawake
    · rw [hcalls w pc hpc] at hpast
      cases hpast
    · exact Wakeful.wake?_eq_none (hawake (.inr (by rw [hr]; rfl))) hr hnone

/-! ## A wait -/

/-- A configuration whose receive buffer is one byte. -/
def oneByteConfig : MuxConfig := { MuxConfig.default with maxReceiveBuffer := 1, maxStreamBuffer := 1 }

open Transition in
/-- A client opens stream 3 and is sent one byte on it, which fills its receive
buffer, so the reader parks. -/
theorem parked_run : ∃ s, Reaches Step anyStep (Session.new oneByteConfig true) s
    ∧ s.reader = .parked ∧ s.bucket = 0 := by
  have start : Reaches Step anyStep (Session.new oneByteConfig true) _ := .refl
  have h := start.tail trivial (Step.openStart (k := 0) rfl)
  have h := h.tail trivial (Step.openGoAway (k := 0) rfl)
  have h := h.tail trivial (Step.openAlloc (k := 0) rfl rfl)
  have h := h.tail trivial (Step.openInsert (k := 0) rfl)
  have h := h.tail trivial (Step.openPush (k := 0) rfl rfl)
  have h := h.tail trivial (Step.arrive [1, 2, 1, 0, 3, 0, 0, 0, 0xAA])
  have h := h.tail trivial (Step.readerTop rfl)
  have h := h.tail trivial (Step.readerHeader 8 rfl (by decide) (by decide) (by decide))
  have h := h.tail trivial (Step.readerDecodeBody rfl rfl (by decide))
  have h := h.tail trivial (Step.readerBodyDone 1 rfl (by decide) (by decide) (by decide))
  have h := h.tail trivial (Step.readerPshHit rfl rfl)
  have h := h.tail trivial (Step.readerPshSpend rfl)
  have h := h.tail trivial (Step.readerPshPush rfl)
  have h := h.tail trivial (Step.readerTop rfl)
  have h := h.tail trivial (Step.readerCheckClosed rfl)
  have h := h.tail trivial (Step.readerPark rfl)
  exact ⟨_, h, rfl, rfl⟩

open Transition in
/-- The reader of a full session is parked, and not stranded. -/
theorem reader_not_stranded_full : ∃ s, Reaches Step anyStep (Session.new oneByteConfig true) s
    ∧ s.reader = .parked ∧
    ¬ (s.reader = .parked ∧ s.bucketNotify.wake? = none ∧ 0 < s.bucket ∧
        ∀ r d, (s.handles r).op ≠ .refundNotify d) := by
  obtain ⟨s, hrun, hparked, -⟩ := parked_run
  exact ⟨s, hrun, hparked, (reader_not_stranded hrun).1⟩

end Mux
end RtProxy
