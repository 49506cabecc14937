import RtProxy.Mux.Wakeup

/-!
How the end of a session reaches `accept_stream`.

`accept_stream` yields `None` when the reader has dropped its sender, so it waits
for the reader.  The reader tests `closed` where it waits for credit and where it
waits for room in the backlog.  It does not test it inside `read_exact`, and a call
of `fail` does not end a read: with nothing to read the reader stays there.
-/

namespace RtProxy
namespace Mux

open Session

/-! ## Where the reader waits -/

/-- The reader is inside one of its `read_exact` calls. -/
def ReaderPc.reading : ReaderPc → Bool
  | .header _ | .body _ _ => true
  | _ => false

namespace Session

/-- The reader is inside `read_exact` and the transport has neither a byte nor an
end of file for it. -/
def Starved (s : Session) : Prop :=
  s.reader.reading = true ∧ s.inbound = [] ∧ s.inEof = false ∧ s.aborted = false

/-- The reader waits for credit and nothing has woken it yet. -/
def Unwoken (s : Session) : Prop :=
  s.reader = .parked ∧ s.bucketNotify.wake? = none ∧ s.aborted = false

end Session

/-- A `read_exact` under way has bytes left to read. -/
def ReaderPc.Short : ReaderPc → Prop
  | .header buf => buf.length < HEADER_SIZE
  | .body hdr buf => buf.length < want hdr
  | _ => True

theorem ReaderPc.short_handleFrame (hdr : MuxHeader) (data : Bytes) :
    (handleFrame hdr data).Short := by
  unfold handleFrame
  split_ifs <;> trivial

theorem ReaderPc.short_ofFail (next : Option FailPc) : (ofFail next).Short := by
  cases next <;> trivial

theorem Step.short {s t : Session} {l : Label} (h : Step s l t) (hs : s.reader.Short) :
    t.reader.Short := by
  cases h
  all_goals try exact hs
  all_goals try trivial
  case readerTop | readerCheckClosed | readerPark | readerRecheck | readerSynCheck =>
    dsimp only
    split_ifs <;> first | trivial | exact Nat.zero_lt_succ _
  case readerHeader buf k h hk hbuf hin =>
    dsimp only
    split_ifs with hfull
    · trivial
    · show (buf ++ s.inbound.take k).length < HEADER_SIZE
      rw [List.length_append, List.length_take, Nat.min_eq_left hin]
      omega
  case readerDecodeEmpty | readerBodyDone => exact ReaderPc.short_handleFrame _ _
  case readerBody hdr buf k h hk hbuf hin =>
    show (buf ++ s.inbound.take k).length < want hdr
    rw [List.length_append, List.length_take, Nat.min_eq_left hin]
    exact hbuf
  case readerFail => exact ReaderPc.short_ofFail _
  case writerFail hf | keepFail hf | closeFail hf =>
    exact hf.frame.2.2.2.1.symm ▸ hs
  case openAlloc ha =>
    obtain ⟨-, -, rfl⟩ := Session.allocId_eq_some ha
    exact hs
  case openAllocErr ha =>
    obtain rfl := Session.allocId_eq_none ha
    exact hs

/-! ## Moves of the reader -/

/-- A call of `fail` never waits. -/
theorem FailStep.exists_next (s : Session) (pc : FailPc) : ∃ t next, FailStep s pc t next := by
  cases pc with
  | record e => exact ⟨_, _, .record e⟩
  | swap =>
    cases hc : s.closed with
    | false => exact ⟨_, _, .swapFirst hc⟩
    | true => exact ⟨_, _, .swapAgain hc⟩
  | closeQueue => exact ⟨_, _, .closeQueue⟩
  | drain => exact ⟨_, _, .drain⟩
  | setDead refs =>
    cases refs with
    | nil => exact ⟨_, _, .setDeadDone⟩
    | cons r refs => exact ⟨_, _, .setDead List.mem_cons_self⟩
  | notifyWaiters => exact ⟨_, _, .notifyWaiters⟩
  | notifyOne => exact ⟨_, _, .notifyOne⟩

section

variable {s : Session}

/-- Inside `read_exact`, the reader can move exactly when it has a byte, an end of
file or an abort to act on. -/
theorem reading_moves (hshort : s.reader.Short) (hr : s.reader.reading = true) :
    (∃ t, Step s .reader t) ↔ ¬ s.Starved := by
  constructor
  · rintro ⟨t, hstep⟩ ⟨-, hin, heof, habort⟩
    cases hstep
    case readerHeader k h hk hbuf hlen | readerBody k h hk hbuf hlen
        | readerBodyDone k h hk hbuf hlen =>
      rw [hin, List.length_nil] at hlen
      omega
    case readerHeaderEof h _ he | readerBodyEof h _ he =>
      rw [heof] at he
      cases he
    case readerAbort ha _ =>
      rw [habort] at ha
      cases ha
    all_goals simp_all [ReaderPc.reading]
  · intro hstarved
    have hcases : 0 < s.inbound.length ∨
        s.inbound = [] ∧ (s.inEof = true ∨ s.aborted = true) := by
      cases hin : s.inbound with
      | cons b bs => exact .inl (Nat.zero_lt_succ _)
      | nil =>
        refine .inr ⟨rfl, ?_⟩
        cases he : s.inEof with
        | true => exact .inl rfl
        | false =>
          cases ha : s.aborted with
          | true => exact .inr rfl
          | false => exact absurd ⟨hr, hin, he, ha⟩ hstarved
    cases hpc : s.reader with
    | header buf =>
      have hlen : buf.length < HEADER_SIZE := by
        rw [hpc] at hshort
        exact hshort
      rcases hcases with hpos | ⟨hin, heof | habort⟩
      · exact ⟨_, .readerHeader 1 hpc Nat.one_pos hlen hpos⟩
      · exact ⟨_, .readerHeaderEof hpc hin heof⟩
      · exact ⟨_, .readerAbort habort (.inl (.inr ⟨buf, hpc⟩))⟩
    | body hdr buf =>
      have hlen : buf.length < want hdr := by
        rw [hpc] at hshort
        exact hshort
      rcases hcases with hpos | ⟨hin, heof | habort⟩
      · by_cases hdone : buf.length + 1 = want hdr
        · exact ⟨_, .readerBodyDone 1 hpc Nat.one_pos hdone hpos⟩
        · exact ⟨_, .readerBody 1 hpc Nat.one_pos (by omega) hpos⟩
      · exact ⟨_, .readerBodyEof hpc hin heof⟩
      · exact ⟨_, .readerAbort habort (.inr ⟨hdr, buf, hpc⟩)⟩
    | _ =>
      rw [hpc] at hr
      cases hr

/-- Waiting for credit, it can move exactly when it has been woken or aborted. -/
theorem parked_moves (hr : s.reader = .parked) : (∃ t, Step s .reader t) ↔ ¬ s.Unwoken := by
  constructor
  · rintro ⟨t, hstep⟩ ⟨-, hwake, habort⟩
    cases hstep
    case readerWake _ hn =>
      rw [hwake] at hn
      cases hn
    case readerAbort ha _ =>
      rw [habort] at ha
      cases ha
    all_goals simp_all
  · intro hunwoken
    cases hn : s.bucketNotify.wake? with
    | some n => exact ⟨_, .readerWake hr hn⟩
    | none =>
      cases ha : s.aborted with
      | true => exact ⟨_, .readerAbort ha (.inl (.inl hr))⟩
      | false => exact absurd ⟨hr, hn, ha⟩ hunwoken

/-- Anywhere else it can always move. -/
theorem elsewhere_moves (hr : s.reader.reading = false) (hparked : s.reader ≠ .parked)
    (hended : s.reader ≠ .ended) : ∃ t, Step s .reader t := by
  cases hpc : s.reader with
  | top => exact ⟨_, .readerTop hpc⟩
  | checkClosed => exact ⟨_, .readerCheckClosed hpc⟩
  | park => exact ⟨_, .readerPark hpc⟩
  | recheck => exact ⟨_, .readerRecheck hpc⟩
  | decoded buf =>
    cases hcheck : checkHeader s.config.version (MuxHeader.decode buf) with
    | error e => exact ⟨_, .readerDecodeErr hpc hcheck⟩
    | ok u =>
      by_cases hwant : want (MuxHeader.decode buf) = 0
      · exact ⟨_, .readerDecodeEmpty hpc hcheck hwant⟩
      · exact ⟨_, .readerDecodeBody hpc hcheck (Nat.pos_of_ne_zero hwant)⟩
  | synCheck sid => exact ⟨_, .readerSynCheck hpc⟩
  | synInsert sid => exact ⟨_, .readerSynInsert hpc⟩
  | accept r =>
    cases hc : s.acceptClosed with
    | true => exact ⟨_, .readerAcceptClosed hpc hc⟩
    | false =>
      by_cases hlen : s.acceptQueue.length < DEFAULT_ACCEPT_BACKLOG
      · exact ⟨_, .readerAcceptSend hpc hc hlen⟩
      · exact ⟨_, .readerAcceptFull hpc hc (Nat.le_of_not_lt hlen)⟩
  | acceptFull r =>
    cases hc : s.closed with
    | true => exact ⟨_, .readerAcceptGiveUp hpc hc⟩
    | false => exact ⟨_, .readerAcceptWait hpc hc⟩
  | acceptSleep r => exact ⟨_, .readerAcceptRetry hpc⟩
  | finLookup sid =>
    cases hs : s.streams sid with
    | none => exact ⟨_, .readerFinMiss hpc hs⟩
    | some r => exact ⟨_, .readerFinHit hpc hs⟩
  | finSet r => exact ⟨_, .readerFinSet hpc⟩
  | pshLookup sid data =>
    cases hs : s.streams sid with
    | none => exact ⟨_, .readerPshMiss hpc hs⟩
    | some r => exact ⟨_, .readerPshHit hpc hs⟩
  | pshSpend r data => exact ⟨_, .readerPshSpend hpc⟩
  | pshPush r data => exact ⟨_, .readerPshPush hpc⟩
  | failing pc =>
    obtain ⟨t, next, hf⟩ := FailStep.exists_next s pc
    exact ⟨_, .readerFail hpc hf⟩
  | parked => exact absurd hpc hparked
  | ended => exact absurd hpc hended
  | header buf | body hdr buf =>
    rw [hpc] at hr
    cases hr

end

/-! ## A starved reader -/

/-- The transport has delivered something to the reader, or the owner's `close` has
reached its `abort`. -/
def Label.rouses : Label → Bool
  | .arrive _ | .arriveEof | .readError | .close _ => true
  | _ => false

/-- Nobody else takes the reader out of `read_exact`. -/
theorem Step.starved {s t : Session} {l : Label} (h : Step s l t) (hl : l.rouses = false)
    (hshort : s.reader.Short) (hs : s.Starved) : t.Starved ∧ t.reader = s.reader := by
  by_cases hr : l = .reader
  · subst hr
    exact absurd hs ((reading_moves hshort hs.1).mp ⟨t, h⟩)
  · have hkeep : t.reader = s.reader ∧ t.inbound = s.inbound ∧ t.inEof = s.inEof
        ∧ t.aborted = s.aborted := by
      cases h
      all_goals try exact ⟨rfl, rfl, rfl, rfl⟩
      all_goals try exact absurd rfl hr
      all_goals try cases hl
      case writerFail hf | keepFail hf =>
        cases hf <;> exact ⟨rfl, rfl, rfl, rfl⟩
      case openAlloc ha =>
        obtain ⟨-, -, rfl⟩ := Session.allocId_eq_some ha
        exact ⟨rfl, rfl, rfl, rfl⟩
      case openAllocErr ha =>
        obtain rfl := Session.allocId_eq_none ha
        exact ⟨rfl, rfl, rfl, rfl⟩
    obtain ⟨hreader, hin, heof, habort⟩ := hkeep
    obtain ⟨h1, h2, h3, h4⟩ := hs
    exact ⟨⟨by rw [hreader, h1], by rw [hin, h2], by rw [heof, h3], by rw [habort, h4]⟩, hreader⟩

open Transition in
theorem starved_of_reaches {s t : Session} (hshort : s.reader.Short) (hs : s.Starved)
    (hrun : Reaches Step (fun _ l => l.rouses = false) s t) : t.reader = s.reader := by
  obtain ⟨-, -, ht⟩ : t.reader.Short ∧ t.Starved ∧ t.reader = s.reader := by
    refine hrun.invariant (I := fun t => t.reader.Short ∧ t.Starved ∧ t.reader = s.reader)
      ⟨hshort, hs, rfl⟩ ?_
    rintro t l u ⟨hshort', hst, hreader⟩ hl hstep
    obtain ⟨hsu, hkeep⟩ := hstep.starved hl hshort' hst
    exact ⟨hstep.short hshort', hsu, hkeep.trans hreader⟩
  exact ht

/-! ## The reader of a closed session -/

open Transition in
/-- In a closed session whose reader has not ended, the reader can move without the
transport exactly when it is neither inside `read_exact` with nothing to read nor
parked before the wake-up of the `fail` that closed the session; the second lasts
only while that call is under way, and the first until the transport delivers
something or the owner closes the session. -/
theorem closed_reader_moves {config : MuxConfig} {isClient : Bool} {s : Session}
    (hrun : Reaches Step anyStep (Session.new config isClient) s) (hclosed : s.closed = true)
    (hended : s.reader ≠ .ended) :
    ((∃ t, Step s .reader t) ↔ ¬ s.Starved ∧ ¬ s.Unwoken)
      ∧ (s.Unwoken → s.Failing)
      ∧ (s.Starved → ∀ t, Reaches Step (fun _ l => l.rouses = false) s t →
          t.reader = s.reader) := by
  have hshort : s.reader.Short :=
    hrun.invariant (I := fun s => s.reader.Short) trivial fun _ _ _ hs _ hstep => hstep.short hs
  obtain ⟨-, hk⟩ := wakeful_of_reaches hrun
  refine ⟨?_, fun hu => ?_, fun hs t ht => starved_of_reaches hshort hs ht⟩
  · by_cases hparked : s.reader = .parked
    · have hreading : ¬ s.Starved := by
        rintro ⟨hr, -⟩
        rw [hparked] at hr
        cases hr
      rw [parked_moves hparked]
      exact ⟨fun h => ⟨hreading, h⟩, fun h => h.2⟩
    · have hwoken : ¬ s.Unwoken := fun h => hparked h.1
      cases hr : s.reader.reading with
      | true =>
        rw [reading_moves hshort hr]
        exact ⟨fun h => ⟨h, hwoken⟩, fun h => h.1⟩
      | false =>
        refine ⟨fun _ => ⟨fun h => ?_, hwoken⟩, fun _ => elsewhere_moves hr hparked hended⟩
        rw [h.1] at hr
        cases hr
  · rcases hk.death hclosed with hf | hwake
    · exact hf
    · have hwoken := hwake (.inr (by rw [hu.1]; rfl))
      exact absurd hu.2.1 (Wakeful.wake?_eq_none hwoken hu.1)

open Transition in
/-- The peer of a client goes silent: the keepalive task sees no data for a whole
window and fails the session while the reader is waiting for a header. -/
theorem silent_peer_run : ∃ s, Reaches Step anyStep (Session.new MuxConfig.default true) s
    ∧ s.closed = true ∧ s.reader = .header [] ∧ s.Starved ∧ ∀ w, s.failing w = none := by
  have start : Reaches Step anyStep (Session.new MuxConfig.default true) _ := .refl
  have h := start.tail trivial (Step.readerTop rfl)
  have h := h.tail trivial (Step.keepDeadline rfl)
  have h := h.tail trivial (Step.keepLoadBucket rfl)
  have h := h.tail trivial (Step.keepFail rfl (.record _))
  have h := h.tail trivial (Step.keepFail rfl (.swapFirst rfl))
  have h := h.tail trivial (Step.keepFail rfl .closeQueue)
  have h := h.tail trivial (Step.keepFail rfl .drain)
  have h := h.tail trivial (Step.keepFail rfl .setDeadDone)
  have h := h.tail trivial (Step.keepFail rfl .notifyWaiters)
  have h := h.tail trivial (Step.keepFail rfl .notifyOne)
  exact ⟨_, h, rfl, rfl, ⟨rfl, rfl, rfl, rfl⟩, fun w => by cases w <;> rfl⟩

open Transition in
/-- The reader of that session cannot move, and stays where it is. -/
theorem closed_reader_moves_silent : ∃ s, Reaches Step anyStep (Session.new MuxConfig.default true) s
    ∧ s.closed = true ∧ (∀ w, s.failing w = none) ∧ (¬ ∃ t, Step s .reader t)
    ∧ ∀ t, Reaches Step (fun _ l => l.rouses = false) s t → t.reader = .header [] := by
  obtain ⟨s, hrun, hclosed, hreader, hstarved, hcalls⟩ := silent_peer_run
  obtain ⟨hmoves, -, hstays⟩ := closed_reader_moves hrun hclosed (by rw [hreader]; nofun)
  refine ⟨s, hrun, hclosed, hcalls, fun h => (hmoves.mp h).1 hstarved, fun t ht => ?_⟩
  rw [hstays hstarved t ht, hreader]

open Transition in
/-- Not every reader of a closed session can move. -/
theorem closed_reader_stuck :
    ¬ ∀ (config : MuxConfig) (isClient : Bool) (s : Session), config.verify = .ok () →
      Reaches Step anyStep (Session.new config isClient) s → s.closed = true →
      s.reader ≠ .ended → ∃ t, Step s .reader t := by
  intro hall
  obtain ⟨s, hrun, hclosed, hreader, hstarved, -⟩ := silent_peer_run
  have hended : s.reader ≠ .ended := by
    rw [hreader]
    exact nofun
  have hshort : s.reader.Short := by
    rw [hreader]
    exact Nat.zero_lt_succ _
  exact (reading_moves hshort hstarved.1).mp
    (hall MuxConfig.default true s rfl hrun hclosed hended) hstarved

end Mux
end RtProxy
