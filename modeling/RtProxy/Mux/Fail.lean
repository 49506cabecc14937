import RtProxy.Mux.Wf

/-!
The end of a session.

Four kinds of thread call `SessionShared::fail`.  `Step.fail_cases` says once what
a step can do to a call of it: the step is one access of one call, or it leaves
the calls alone but for starting one.
-/

namespace RtProxy
namespace Mux

open Session

/-! ## The calls of `fail` -/

/-- A thread that may call `fail`. -/
inductive Failer
  | reader
  | writer
  | keep
  | close (k : Nat)
deriving Repr, DecidableEq

def ReaderPc.failPc : ReaderPc → Option FailPc
  | .failing pc => some pc
  | _ => none

def WriterPc.failPc : WriterPc → Option FailPc
  | .failing pc => some pc
  | _ => none

def KeepPc.failPc : KeepPc → Option FailPc
  | .failing pc => some pc
  | _ => none

def ClosePc.failPc : ClosePc → Option FailPc
  | .failing pc => some pc
  | _ => none

namespace Session

/-- Where a thread stands in its call of `fail`, if it is in one. -/
def failing (s : Session) : Failer → Option FailPc
  | .reader => s.reader.failPc
  | .writer => s.writer.failPc
  | .keep => s.keep.failPc
  | .close k => (s.closes k).failPc

/-- The thread's program counter after one access of its call. -/
def setFail (s : Session) (next : Option FailPc) : Failer → Session
  | .reader => { s with reader := .ofFail next }
  | .writer => { s with writer := .ofFail next }
  | .keep => { s with keep := .ofFail next }
  | .close k => s.setClose k (.ofFail next)

/-- A call of `fail` that has closed the session is under way. -/
def Failing (s : Session) : Prop := ∃ w pc, s.failing w = some pc ∧ pc.past = true

end Session

theorem ReaderPc.failPc_ofFail (next : Option FailPc) : (ofFail next).failPc = next := by
  cases next <;> rfl

theorem WriterPc.failPc_ofFail (next : Option FailPc) : (ofFail next).failPc = next := by
  cases next <;> rfl

theorem KeepPc.failPc_ofFail (next : Option FailPc) : (ofFail next).failPc = next := by
  cases next <;> rfl

theorem ClosePc.failPc_ofFail (next : Option FailPc) : (ofFail next).failPc = next := by
  cases next <;> rfl

theorem Session.failing_setFail_self (s : Session) (w : Failer) (next : Option FailPc) :
    (s.setFail next w).failing w = next := by
  cases w with
  | reader => exact ReaderPc.failPc_ofFail next
  | writer => exact WriterPc.failPc_ofFail next
  | keep => exact KeepPc.failPc_ofFail next
  | close k =>
    show ((s.setClose k (.ofFail next)).closes k).failPc = next
    rw [closes_setClose_self]
    exact ClosePc.failPc_ofFail next

theorem Session.failing_setClose {s : Session} {k k' : Nat} (h : k' ≠ k) (pc : ClosePc) :
    (s.setClose k pc).failing (.close k') = s.failing (.close k') := by
  show ((s.setClose k pc).closes k').failPc = _
  rw [closes_setClose_of_ne _ _ h]
  rfl

theorem Session.failing_setFail_of_ne (s : Session) {w w' : Failer} (h : w' ≠ w)
    (next : Option FailPc) : (s.setFail next w).failing w' = s.failing w' := by
  cases w with
  | reader => cases w' <;> first | rfl | exact absurd rfl h
  | writer => cases w' <;> first | rfl | exact absurd rfl h
  | keep => cases w' <;> first | rfl | exact absurd rfl h
  | close k =>
    cases w' with
    | close k' => exact Session.failing_setClose (fun e => h (by rw [e])) _
    | _ => rfl

/-- An access of one call leaves the other threads where they are. -/
theorem FailStep.failing {s t : Session} {pc : FailPc} {next : Option FailPc}
    (h : FailStep s pc t next) (w : Failer) : t.failing w = s.failing w := by
  cases h <;> cases w <;> rfl

/-- The thread whose program counter the label moves. -/
def Label.failer : Label → Option Failer
  | .reader => some .reader
  | .writer => some .writer
  | .keep => some .keep
  | .close k => some (.close k)
  | _ => none

/-- What a step can do to the calls of `fail`. -/
inductive FailMove (s : Session) (l : Label) (t : Session) : Prop
  | access (w : Failer) (pc : FailPc) (next : Option FailPc) (u : Session)
      (hl : l.failer = some w) (hpc : s.failing w = some pc) (hf : FailStep s pc u next)
      (ht : t = u.setFail next w)
  | other (hl : ∀ w, l.failer = some w → s.failing w = none) (hclosed : t.closed = s.closed)
      (herr : t.error = s.error)
      (hcalls : ∀ w, t.failing w = s.failing w ∨
        s.failing w = none ∧ (t.failing w = none ∨ ∃ e, t.failing w = some (.record e)))

namespace FailMove

variable {s t : Session} {l : Label}

/-- A label that moves no thread, or moves one that is in no call. -/
theorem idle {w : Failer} (hl : l.failer = none ∨ l.failer = some w) (hold : s.failing w = none)
    (w' : Failer) (h : l.failer = some w') : s.failing w' = none := by
  rcases hl with hl | hl
  · rw [hl] at h
    cases h
  · rw [hl] at h
    obtain rfl := Option.some.inj h
    exact hold

/-- A step that moves none of the threads. -/
theorem same (hl : l.failer = none) (hclosed : t.closed = s.closed) (herr : t.error = s.error) (hr : t.reader = s.reader)
    (hw : t.writer = s.writer) (hk : t.keep = s.keep) (hc : t.closes = s.closes) :
    FailMove s l t := by
  refine .other (fun w h => by rw [hl] at h; cases h) hclosed herr fun w => .inl ?_
  cases w with
  | reader => exact congrArg ReaderPc.failPc hr
  | writer => exact congrArg WriterPc.failPc hw
  | keep => exact congrArg KeepPc.failPc hk
  | close k => exact congrArg (fun cs => (cs k).failPc) hc

/-- A step of the reader outside `fail`. -/
theorem reader (hl : l.failer = none ∨ l.failer = some .reader) (hclosed : t.closed = s.closed) (herr : t.error = s.error)
    (hw : t.writer = s.writer) (hk : t.keep = s.keep) (hc : t.closes = s.closes)
    (hold : s.reader.failPc = none)
    (hnew : t.reader.failPc = none ∨ ∃ e, t.reader.failPc = some (.record e)) : FailMove s l t := by
  refine .other (idle hl hold) hclosed herr fun w => ?_
  cases w with
  | reader => exact .inr ⟨hold, hnew⟩
  | writer => exact .inl (congrArg WriterPc.failPc hw)
  | keep => exact .inl (congrArg KeepPc.failPc hk)
  | close k => exact .inl (congrArg (fun cs => (cs k).failPc) hc)

theorem writer (hl : l.failer = none ∨ l.failer = some .writer) (hclosed : t.closed = s.closed) (herr : t.error = s.error)
    (hr : t.reader = s.reader) (hk : t.keep = s.keep) (hc : t.closes = s.closes)
    (hold : s.writer.failPc = none)
    (hnew : t.writer.failPc = none ∨ ∃ e, t.writer.failPc = some (.record e)) : FailMove s l t := by
  refine .other (idle hl hold) hclosed herr fun w => ?_
  cases w with
  | reader => exact .inl (congrArg ReaderPc.failPc hr)
  | writer => exact .inr ⟨hold, hnew⟩
  | keep => exact .inl (congrArg KeepPc.failPc hk)
  | close k => exact .inl (congrArg (fun cs => (cs k).failPc) hc)

theorem keep (hl : l.failer = none ∨ l.failer = some .keep) (hclosed : t.closed = s.closed) (herr : t.error = s.error)
    (hr : t.reader = s.reader) (hw : t.writer = s.writer) (hc : t.closes = s.closes)
    (hold : s.keep.failPc = none)
    (hnew : t.keep.failPc = none ∨ ∃ e, t.keep.failPc = some (.record e)) : FailMove s l t := by
  refine .other (idle hl hold) hclosed herr fun w => ?_
  cases w with
  | reader => exact .inl (congrArg ReaderPc.failPc hr)
  | writer => exact .inl (congrArg WriterPc.failPc hw)
  | keep => exact .inr ⟨hold, hnew⟩
  | close k => exact .inl (congrArg (fun cs => (cs k).failPc) hc)

/-- A step of a `close` call outside `fail`. -/
theorem close {k : Nat} {pc : ClosePc} (hl : l.failer = some (.close k)) (hclosed : t.closed = s.closed) (herr : t.error = s.error)
    (hr : t.reader = s.reader) (hw : t.writer = s.writer) (hk : t.keep = s.keep)
    (hc : t.closes = Function.update s.closes k pc) (hold : (s.closes k).failPc = none)
    (hnew : pc.failPc = none ∨ ∃ e, pc.failPc = some (.record e)) : FailMove s l t := by
  refine .other (idle (.inr hl) hold) hclosed herr fun w => ?_
  cases w with
  | reader => exact .inl (congrArg ReaderPc.failPc hr)
  | writer => exact .inl (congrArg WriterPc.failPc hw)
  | keep => exact .inl (congrArg KeepPc.failPc hk)
  | close i =>
    show (t.closes i).failPc = (s.closes i).failPc ∨ (s.closes i).failPc = none ∧
      ((t.closes i).failPc = none ∨ ∃ e, (t.closes i).failPc = some (.record e))
    rw [hc]
    by_cases hi : i = k
    · subst hi
      rw [Function.update_self]
      exact .inr ⟨hold, hnew⟩
    · rw [Function.update_of_ne hi]
      exact .inl rfl

end FailMove

theorem ReaderPc.failPc_handleFrame (hdr : MuxHeader) (data : Bytes) :
    (handleFrame hdr data).failPc = none := by
  unfold handleFrame
  split_ifs <;> rfl

theorem Step.fail_cases {s t : Session} {l : Label} (h : Step s l t) : FailMove s l t := by
  cases h
  all_goals try exact .same rfl rfl rfl rfl rfl rfl rfl
  case readerTop h | readerCheckClosed h | readerPark h | readerRecheck h | readerSynCheck h
      | readerHeader h _ _ _ =>
    refine .reader (.inr rfl) rfl rfl rfl rfl rfl (by rw [h]; rfl) (.inl ?_)
    dsimp only
    split_ifs <;> rfl
  case readerWake h _ | readerDecodeBody h _ _ | readerBody h _ _ _ | readerFinMiss h _
      | readerFinHit h _ | readerFinSet h | readerPshMiss h _ | readerPshHit h _
      | readerPshSpend h | readerPshPush h | readerAcceptFull h _ _ | readerAcceptWait h _
      | readerAcceptRetry h | readerAcceptSend h _ _ | readerSynInsert h | readerAcceptClosed h _
      | readerAcceptGiveUp h _ | readerAbortAccept _ h =>
    exact .reader (.inr rfl) rfl rfl rfl rfl rfl (by rw [h]; rfl) (.inl rfl)
  case readerHeaderError h | readerBodyError h =>
    exact .reader (.inl rfl) rfl rfl rfl rfl rfl (by rw [h]; rfl) (.inr ⟨_, rfl⟩)
  case readerDecodeErr h _ | readerHeaderEof h _ _ | readerBodyEof h _ _ =>
    exact .reader (.inr rfl) rfl rfl rfl rfl rfl (by rw [h]; rfl) (.inr ⟨_, rfl⟩)
  case readerDecodeEmpty h _ _ | readerBodyDone h _ _ _ =>
    exact .reader (.inr rfl) rfl rfl rfl rfl rfl (by rw [h]; rfl) (.inl (ReaderPc.failPc_handleFrame _ _))
  case readerAbort _ h =>
    refine .reader (.inr rfl) rfl rfl rfl rfl rfl ?_ (.inl rfl)
    rcases h with (h | ⟨buf, h⟩) | ⟨hdr, buf, h⟩ <;> rw [h] <;> rfl
  case readerFail h hf => exact .access .reader _ _ _ rfl (congrArg ReaderPc.failPc h) hf rfl
  case writerTake h _ _ | writerEmpty h _ | writerWake h _ | writerFlush h | writerMark h
      | writerShutdown h =>
    exact .writer (.inr rfl) rfl rfl rfl rfl rfl (by rw [h]; rfl) (.inl rfl)
  case writerEncodeErr h _ _ =>
    exact .writer (.inr rfl) rfl rfl rfl rfl rfl (by rw [h]; rfl) (.inr ⟨_, rfl⟩)
  case writerCheckClosed h | writerPark h | writerWrite h _ =>
    refine .writer (.inr rfl) rfl rfl rfl rfl rfl (by rw [h]; rfl) (.inl ?_)
    dsimp only
    split_ifs <;> rfl
  case writerError e h =>
    refine .writer (.inl rfl) rfl rfl rfl rfl rfl ?_ (.inr ⟨_, rfl⟩)
    rcases h with ⟨out, count, h⟩ | ⟨count, h⟩ <;> rw [h] <;> rfl
  case writerFail h hf => exact .access .writer _ _ _ rfl (congrArg WriterPc.failPc h) hf rfl
  case writerAbort _ h =>
    refine .writer (.inr rfl) rfl rfl rfl rfl rfl ?_ (.inl rfl)
    rcases h with (h | h) | ⟨out, count, h⟩ | ⟨count, h⟩ <;> rw [h] <;> rfl
  case keepPing h _ | keepPingClosed h _ | keepNotify h | keepAbort _ h =>
    exact .keep (.inr rfl) rfl rfl rfl rfl rfl (by rw [h]; rfl) (.inl rfl)
  case keepDeadline h | keepCheckClosed h =>
    refine .keep (.inr rfl) rfl rfl rfl rfl rfl (by rw [h]; rfl) (.inl ?_)
    dsimp only
    split_ifs <;> rfl
  case keepLoadBucket h =>
    refine .keep (.inr rfl) rfl rfl rfl rfl rfl (by rw [h]; rfl) ?_
    dsimp only
    split_ifs
    · exact .inr ⟨_, rfl⟩
    · exact .inl rfl
  case keepFail h hf => exact .access .keep _ _ _ rfl (congrArg KeepPc.failPc h) hf rfl
  case openAlloc ha =>
    obtain ⟨-, -, rfl⟩ := Session.allocId_eq_some ha
    exact .same rfl rfl rfl rfl rfl rfl rfl
  case openAllocErr ha =>
    obtain rfl := Session.allocId_eq_none ha
    exact .same rfl rfl rfl rfl rfl rfl rfl
  case closeStart h => exact .close rfl rfl rfl rfl rfl rfl rfl (by rw [h]; rfl) (.inr ⟨_, rfl⟩)
  case closeFail k pc next u h hf =>
    exact .access (.close k) _ _ _ rfl (congrArg ClosePc.failPc h) hf rfl
  case closeAbort h => exact .close rfl rfl rfl rfl rfl rfl rfl (by rw [h]; rfl) (.inl rfl)

/-! ## What the calls come to -/

@[simp] theorem Session.closed_setFail (s : Session) (w : Failer) (next : Option FailPc) :
    (s.setFail next w).closed = s.closed := by
  cases w <;> rfl

@[simp] theorem Session.error_setFail (s : Session) (w : Failer) (next : Option FailPc) :
    (s.setFail next w).error = s.error := by
  cases w <;> rfl

@[simp] theorem Session.bucketNotify_setFail (s : Session) (w : Failer) (next : Option FailPc) :
    (s.setFail next w).bucketNotify = s.bucketNotify := by
  cases w <;> rfl

/-- A call past its swap is past it until it returns, and its last access is
`notify_one`. -/
theorem FailStep.past_next {s t : Session} {pc : FailPc} {next : Option FailPc}
    (h : FailStep s pc t next) (hpc : pc.past = true) :
    (∃ pc', next = some pc' ∧ pc'.past = true) ∨
      next = none ∧ t = { s with bucketNotify := s.bucketNotify.notifyOne } := by
  cases h
  case record | swapFirst | swapAgain => cases hpc
  case notifyOne => exact .inr ⟨rfl, rfl⟩
  all_goals exact .inl ⟨_, rfl, rfl⟩

/-- A call that closes the session goes on until it has notified the reader. -/
theorem Step.failing_next {s t : Session} {l : Label} (h : Step s l t) (hf : s.Failing) :
    t.Failing ∨ t.bucketNotify = s.bucketNotify.notifyOne := by
  obtain ⟨w', pc', hpc', hpast⟩ := hf
  cases h.fail_cases with
  | access w pc next u hl hpc hstep ht =>
    subst ht
    by_cases hw : w' = w
    · subst hw
      obtain rfl := Option.some.inj (hpc.symm.trans hpc')
      rcases hstep.past_next hpast with ⟨pc'', rfl, hpast'⟩ | ⟨rfl, rfl⟩
      · exact .inl ⟨w', pc'', Session.failing_setFail_self _ _ _, hpast'⟩
      · exact .inr (Session.bucketNotify_setFail _ _ _)
    · refine .inl ⟨w', pc', ?_, hpast⟩
      rw [Session.failing_setFail_of_ne _ hw, hstep.failing]
      exact hpc'
  | other hl hclosed herr hcalls =>
    rcases hcalls w' with hw | ⟨hw, -⟩
    · exact .inl ⟨w', pc', hw.trans hpc', hpast⟩
    · rw [hw] at hpc'
      cases hpc'

/-- Only a call of `fail` closes the session. -/
theorem Step.closed_next {s t : Session} {l : Label} (h : Step s l t) (hs : s.closed = false)
    (ht : t.closed = true) : t.Failing := by
  cases h.fail_cases with
  | access w pc next u hl hpc hstep htu =>
    subst htu
    rw [Session.closed_setFail] at ht
    cases hstep
    case swapFirst hc => exact ⟨w, .closeQueue, Session.failing_setFail_self _ _ _, rfl⟩
    all_goals
      have hu : s.closed = true := ht
      rw [hs] at hu
      cases hu
  | other hl hclosed herr hcalls =>
    rw [hclosed, hs] at ht
    cases ht

/-! ## One call closes the session -/

/-- Only one call gets past its swap, and only in a closed session. -/
structure Sole (s : Session) : Prop where
  alone : ∀ w w' pc pc', s.failing w = some pc → pc.past = true → s.failing w' = some pc' →
    pc'.past = true → w = w'
  shut : ∀ w pc, s.failing w = some pc → pc.past = true → s.closed = true

/-- The access that takes a call past its swap finds the session open. -/
theorem FailStep.next_past {s t : Session} {pc pc' : FailPc} (h : FailStep s pc t (some pc'))
    (hpast : pc'.past = true) :
    t.closed = true ∧ (pc.past = true ∨ s.closed = false) ∨ pc.past = true ∧ t.closed = s.closed := by
  cases h
  case record => cases hpast
  case swapFirst h => exact .inl ⟨rfl, .inr h⟩
  all_goals exact .inr ⟨rfl, rfl⟩

theorem FailStep.closed_le {s t : Session} {pc : FailPc} {next : Option FailPc}
    (h : FailStep s pc t next) (hs : s.closed = true) : t.closed = true := by
  cases h
  case swapFirst => rfl
  all_goals exact hs

theorem Step.sole {s t : Session} {l : Label} (h : Step s l t) (hs : Sole s) : Sole t := by
  cases h.fail_cases with
  | access w pc next u hl hpc hstep ht =>
    subst ht
    have hself := Session.failing_setFail_self u w next
    have hother : ∀ i, i ≠ w → (u.setFail next w).failing i = s.failing i := fun i hi => by
      rw [Session.failing_setFail_of_ne _ hi, hstep.failing]
    -- nobody else is past the swap once `w` is
    have hnone : ∀ pc', next = some pc' → pc'.past = true → ∀ i pc'', i ≠ w →
        s.failing i = some pc'' → pc''.past = false := by
      rintro pc' rfl hpast i pc'' hi hpc''
      by_contra hpast''
      rw [Bool.not_eq_false] at hpast''
      rcases hstep.next_past hpast with ⟨-, hp | hopen⟩ | ⟨hp, -⟩
      · exact hi (hs.alone i w pc'' pc hpc'' hpast'' hpc hp)
      · rw [hs.shut i pc'' hpc'' hpast''] at hopen
        cases hopen
      · exact hi (hs.alone i w pc'' pc hpc'' hpast'' hpc hp)
    refine ⟨fun i j pi pj hi hpi hj hpj => ?_, fun i pi hi hpi => ?_⟩
    · by_cases hiw : i = w
      · by_cases hjw : j = w
        · rw [hiw, hjw]
        · rw [hiw, hself] at hi
          rw [hother j hjw] at hj
          rw [hnone pi hi hpi j pj hjw hj] at hpj
          cases hpj
      · rw [hother i hiw] at hi
        by_cases hjw : j = w
        · rw [hjw, hself] at hj
          rw [hnone pj hj hpj i pi hiw hi] at hpi
          cases hpi
        · rw [hother j hjw] at hj
          exact hs.alone i j pi pj hi hpi hj hpj
    · rw [Session.closed_setFail]
      by_cases hiw : i = w
      · rw [hiw, hself] at hi
        subst hi
        rcases hstep.next_past hpi with ⟨hu, -⟩ | ⟨hp, -⟩
        · exact hu
        · exact hstep.closed_le (hs.shut w pc hpc hp)
      · rw [hother i hiw] at hi
        exact hstep.closed_le (hs.shut i pi hi hpi)
  | other hl hclosed herr hcalls =>
    have hback : ∀ w pc, t.failing w = some pc → pc.past = true → s.failing w = some pc := by
      intro w pc hw hpast
      rcases hcalls w with he | ⟨-, he | ⟨e, he⟩⟩
      · rw [← he]
        exact hw
      · rw [he] at hw
        cases hw
      · rw [he] at hw
        obtain rfl := Option.some.inj hw
        cases hpast
    refine ⟨fun i j pi pj hi hpi hj hpj => ?_, fun i pi hi hpi => ?_⟩
    · exact hs.alone i j pi pj (hback i pi hi hpi) hpi (hback j pj hj hpj) hpj
    · rw [hclosed]
      exact hs.shut i pi (hback i pi hi hpi) hpi

theorem sole_new (config : MuxConfig) (isClient : Bool) : Sole (Session.new config isClient) := by
  have hnone : ∀ w, (Session.new config isClient).failing w = none := by
    intro w
    cases w with
    | keep =>
      show (if config.keepAliveDisabled then KeepPc.ended else .select).failPc = none
      split_ifs <;> rfl
    | _ => rfl
  refine ⟨fun w _ pc _ h => ?_, fun w pc h => ?_⟩
  · rw [hnone] at h
    cases h
  · rw [hnone] at h
    cases h

/-- The call that closes the session has not emptied the table yet. -/
def Session.Undrained (s : Session) : Prop :=
  s.closed = false ∨ ∃ w, s.failing w = some .closeQueue ∨ s.failing w = some .drain

/-- A table that is not emptied yet was not emptied before the step, and the step
does not empty it. -/
theorem Step.undrained {s t : Session} {l : Label} (h : Step s l t) (hs : Sole s)
    (ht : t.Undrained) : s.Undrained ∧ ∀ w, s.failing w = some .drain → l.failer ≠ some w := by
  cases h.fail_cases with
  | access w pc next u hl hpc hstep htu =>
    subst htu
    have hself := Session.failing_setFail_self u w next
    have hother : ∀ i, i ≠ w → (u.setFail next w).failing i = s.failing i := fun i hi => by
      rw [Session.failing_setFail_of_ne _ hi, hstep.failing]
    rcases ht with hopen | ⟨i, hi⟩
    · rw [Session.closed_setFail] at hopen
      have hsopen := hstep.closed_mono hopen
      refine ⟨.inl hsopen, fun i hi => ?_⟩
      rw [hs.shut i .drain hi rfl] at hsopen
      cases hsopen
    · by_cases hiw : i = w
      · rw [hiw, hself] at hi
        rcases hi with rfl | rfl
        · cases hstep
          case swapFirst hopen =>
            refine ⟨.inl hopen, fun i hi => ?_⟩
            rw [hs.shut i .drain hi rfl] at hopen
            cases hopen
        · cases hstep
          case closeQueue =>
            refine ⟨.inr ⟨w, .inl hpc⟩, fun i hi hli => ?_⟩
            obtain rfl := Option.some.inj (hl.symm.trans hli)
            rw [hpc] at hi
            cases hi
      · rw [hother i hiw] at hi
        refine ⟨.inr ⟨i, hi⟩, fun j hj hlj => ?_⟩
        obtain rfl := Option.some.inj (hl.symm.trans hlj)
        rcases hi with hi | hi
        · exact hiw (hs.alone i w _ _ hi rfl hj rfl)
        · exact hiw (hs.alone i w _ _ hi rfl hj rfl)
  | other hl hclosed herr hcalls =>
    refine ⟨?_, fun w hw hlw => ?_⟩
    · rcases ht with hopen | ⟨i, hi⟩
      · exact .inl (hclosed.symm.trans hopen)
      · refine .inr ⟨i, ?_⟩
        rcases hcalls i with he | ⟨-, he | ⟨e, he⟩⟩
        · rw [← he]
          exact hi
        · rw [he] at hi
          rcases hi with hi | hi <;> cases hi
        · rw [he] at hi
          rcases hi with hi | hi <;> cases hi
    · rw [hl w hlw] at hw
      cases hw

end Mux
end RtProxy
