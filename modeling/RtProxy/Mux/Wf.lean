import RtProxy.Mux.Step
import RtProxy.Lib.Transition
import Mathlib.Data.List.Nodup

/-!
Structural invariants of a session.

Three facts that hold in every reachable state, whatever the peer sends:
which thread owns which `MuxStream` (`Owned`), that the table and the reader only
name allocated streams (`Tabled`), and that the steps that follow
`closed.swap(true)` are only taken once the session is closed (`Closing`).
-/

namespace RtProxy
namespace Mux

/-! ## Ownership of the handles -/

/-- The stream the reader is handing to `accept_stream`. -/
def ReaderPc.handover : ReaderPc → List Nat
  | .accept r | .acceptFull r | .acceptSleep r => [r]
  | _ => []

/-- The stream the reader has looked up and is about to touch. -/
def ReaderPc.target : ReaderPc → Option Nat
  | .finSet r | .pshSpend r _ | .pshPush r _ => some r
  | _ => none

/-- The stream an `open_stream` call has inserted and not returned yet. -/
def OpenPc.opening : OpenPc → Option Nat
  | .pushSyn r | .unwind r => some r
  | _ => none

/-- The handle has been given to the application. -/
def Op.Running (op : Op) : Prop := op ≠ .absent ∧ op ≠ .queued

/-- Every handle has one owner: nobody yet, the accept backlog or the reader on
its way there, an `open_stream` call, or the application. -/
structure Owned (s : Session) : Prop where
  vacant : ∀ r, s.nextRef ≤ r → s.handles r = Handle.vacant
  queued : ∀ r ∈ s.acceptQueue ++ s.reader.handover, (s.handles r).op = .queued
  nodup : (s.acceptQueue ++ s.reader.handover).Nodup
  opening : ∀ k r, (s.opens k).opening = some r → r < s.nextRef ∧ s.handles r = Handle.vacant
  distinct : ∀ k k' r, (s.opens k).opening = some r → (s.opens k').opening = some r → k = k'

namespace Owned

variable {s t : Session} {r : Nat} {h : Handle}

theorem congr (ho : Owned s) (hh : t.handles = s.handles) (hn : t.nextRef = s.nextRef)
    (hq : t.acceptQueue = s.acceptQueue) (hr : t.reader.handover = s.reader.handover)
    (hopen : ∀ k, (t.opens k).opening = (s.opens k).opening) : Owned t := by
  refine ⟨?_, ?_, ?_, ?_, ?_⟩
  · rw [hh, hn]
    exact ho.vacant
  · rw [hh, hq, hr]
    exact ho.queued
  · rw [hq, hr]
    exact ho.nodup
  · intro k r hk
    rw [hopen] at hk
    rw [hn, hh]
    exact ho.opening k r hk
  · intro k k' r hk hk'
    rw [hopen] at hk hk'
    exact ho.distinct k k' r hk hk'

/-- A running handle is allocated, and is not on its way to anybody. -/
theorem lt_nextRef (ho : Owned s) (hrun : (s.handles r).op.Running) : r < s.nextRef := by
  by_contra hge
  have hv := ho.vacant r (Nat.le_of_not_lt hge)
  exact hrun.1 (by rw [hv]; rfl)

theorem not_mem_handover (ho : Owned s) (hrun : (s.handles r).op.Running) :
    r ∉ s.acceptQueue ++ s.reader.handover := fun hmem => hrun.2 (ho.queued r hmem)

theorem opening_ne (ho : Owned s) (hrun : (s.handles r).op.Running) {k : Nat} :
    (s.opens k).opening ≠ some r := by
  intro hk
  have hv := (ho.opening k r hk).2
  exact hrun.1 (by rw [hv]; rfl)

/-- Replacing a running handle changes nobody's ownership. -/
theorem setHandle (ho : Owned s) (hrun : (s.handles r).op.Running) (h : Handle) :
    Owned (s.setHandle r h) := by
  have hlt := ho.lt_nextRef hrun
  have hout := ho.not_mem_handover hrun
  have hne : ∀ i, i ≠ r → (s.setHandle r h).handles i = s.handles i := fun i hi =>
    Function.update_of_ne hi _ _
  refine ⟨?_, ?_, ho.nodup, ?_, ho.distinct⟩
  · intro i hi
    have hir : i ≠ r := Nat.ne_of_gt (Nat.lt_of_lt_of_le hlt hi)
    rw [hne i hir]
    exact ho.vacant i hi
  · intro i hi
    have hir : i ≠ r := fun e => hout (e ▸ hi)
    rw [hne i hir]
    exact ho.queued i hi
  · intro k i hk
    have hir : i ≠ r := fun e => ho.opening_ne hrun (e ▸ hk)
    rw [hne i hir]
    exact ho.opening k i hk

/-- A step of a stream replaces its own handle, which is running, and may touch
anything that ownership does not mention. -/
theorem stream (ho : Owned s) {op : Op} (hop : (s.handles r).op = op)
    (hrun : op.Running) (hh : t.handles = Function.update s.handles r h)
    (hn : t.nextRef = s.nextRef) (hq : t.acceptQueue = s.acceptQueue)
    (hr : t.reader = s.reader) (hopen : t.opens = s.opens) : Owned t := by
  subst hop
  exact (ho.setHandle hrun h).congr hh hn hq (congrArg _ hr) fun k => by rw [hopen]; rfl

/-- The reader's or the backlog's stream leaves for the application. -/
theorem release (ho : Owned s) {pre post : List Nat} {op : Op}
    (hsplit : s.acceptQueue ++ s.reader.handover = pre ++ r :: post)
    (hq : t.acceptQueue ++ t.reader.handover = pre ++ post)
    (hh : t.handles = Function.update s.handles r { s.handles r with op := op })
    (hn : t.nextRef = s.nextRef) (hopen : t.opens = s.opens) : Owned t := by
  have hmem : r ∈ s.acceptQueue ++ s.reader.handover := by simp [hsplit]
  have hop : (s.handles r).op = .queued := ho.queued r hmem
  have hlt : r < s.nextRef := by
    by_contra hge
    rw [ho.vacant r (Nat.le_of_not_lt hge)] at hop
    exact absurd hop (by decide)
  have hnd := ho.nodup
  rw [hsplit, List.nodup_middle, List.nodup_cons] at hnd
  obtain ⟨hnot, hrest⟩ := hnd
  have hne : ∀ i, i ≠ r → t.handles i = s.handles i := fun i hi => by
    rw [hh, Function.update_of_ne hi]
  refine ⟨?_, ?_, ?_, ?_, ?_⟩
  · intro i hi
    rw [hn] at hi
    rw [hne i (by omega)]
    exact ho.vacant i hi
  · intro i hi
    rw [hq] at hi
    rw [hne i (fun e => hnot (e ▸ hi))]
    refine ho.queued i ?_
    rw [hsplit]
    simp only [List.mem_append, List.mem_cons] at hi ⊢
    tauto
  · rw [hq]
    exact hrest
  · intro k i hk
    rw [hopen] at hk
    have hi := ho.opening k i hk
    have hir : i ≠ r := by
      rintro rfl
      rw [hi.2] at hop
      exact absurd hop (by decide)
    rw [hn, hne i hir]
    exact hi
  · rw [hopen]
    exact ho.distinct

/-- Inserting a stream under a vacant handle, or under one the reader holds. -/
theorem insert (ho : Owned s) (hn : t.nextRef = s.nextRef + 1)
    (hh : t.handles = Function.update s.handles s.nextRef h)
    (hq : t.acceptQueue = s.acceptQueue)
    (hcase : (h = Handle.vacant ∧ t.reader.handover = s.reader.handover) ∨
      (h.op = .queued ∧ s.reader.handover = [] ∧ t.reader.handover = [s.nextRef]))
    (hopen : ∀ k r, (t.opens k).opening = some r →
      (s.opens k).opening = some r ∨ r = s.nextRef ∧ h = Handle.vacant)
    (hdist : ∀ k k', (t.opens k).opening = some s.nextRef →
      (t.opens k').opening = some s.nextRef → k = k') : Owned t := by
  have hfresh : ∀ i ∈ s.acceptQueue ++ s.reader.handover, i < s.nextRef := by
    intro i hi
    by_contra hge
    have hop := ho.queued i hi
    rw [ho.vacant i (Nat.le_of_not_lt hge)] at hop
    exact absurd hop (by decide)
  have hne : ∀ i, i ≠ s.nextRef → t.handles i = s.handles i := fun i hi => by
    rw [hh, Function.update_of_ne hi]
  have hself : t.handles s.nextRef = h := by rw [hh, Function.update_self]
  have hold : ∀ k r, (s.opens k).opening = some r → r < s.nextRef := fun k r hk =>
    (ho.opening k r hk).1
  refine ⟨?_, ?_, ?_, ?_, ?_⟩
  · intro i hi
    rw [hn] at hi
    rw [hne i (by omega)]
    exact ho.vacant i (by omega)
  · intro i hi
    rw [hq] at hi
    rcases hcase with ⟨-, hr⟩ | ⟨hop, hs, hr⟩
    · rw [hr] at hi
      rw [hne i (Nat.ne_of_lt (hfresh i hi))]
      exact ho.queued i hi
    · rw [hr, List.mem_append, List.mem_singleton] at hi
      rcases hi with hi | rfl
      · have hmem : i ∈ s.acceptQueue ++ s.reader.handover := List.mem_append_left _ hi
        rw [hne i (Nat.ne_of_lt (hfresh i hmem))]
        exact ho.queued i hmem
      · rw [hself]
        exact hop
  · rw [hq]
    rcases hcase with ⟨-, hr⟩ | ⟨-, hs, hr⟩
    · rw [hr]
      exact ho.nodup
    · have hnd := ho.nodup
      rw [hs, List.append_nil] at hnd
      rw [hr, List.nodup_append]
      refine ⟨hnd, List.nodup_singleton _, ?_⟩
      intro a ha b hb
      rw [List.mem_singleton] at hb
      have := hfresh a (List.mem_append_left _ ha)
      omega
  · intro k i hk
    rcases hopen k i hk with hk' | ⟨rfl, rfl⟩
    · have hi := ho.opening k i hk'
      rw [hn, hne i (Nat.ne_of_lt hi.1)]
      exact ⟨by omega, hi.2⟩
    · exact ⟨by omega, hself⟩
  · intro k k' i hk hk'
    rcases hopen k i hk with h1 | ⟨rfl, -⟩
    · rcases hopen k' i hk' with h2 | ⟨rfl, -⟩
      · exact ho.distinct k k' i h1 h2
      · exact absurd (hold k _ h1) (Nat.lt_irrefl _)
    · exact hdist k k' hk hk'

/-- The receiver of the backlog goes away with what is queued. -/
theorem dropReceiver (ho : Owned s) :
    Owned { s with
      acceptClosed := true, acceptQueue := []
      handles := fun r =>
        if r ∈ s.acceptQueue then { s.handles r with op := .dropFin } else s.handles r } := by
  have hkeep : ∀ i, (s.handles i).op ≠ .queued → i ∉ s.acceptQueue := fun i hi hmem =>
    hi (ho.queued i (List.mem_append_left _ hmem))
  have hvac : Handle.vacant.op ≠ .queued := nofun
  have hdisj : ∀ i ∈ s.reader.handover, i ∉ s.acceptQueue := by
    intro i hi hmem
    exact (List.nodup_append.mp ho.nodup).2.2 i hmem i hi rfl
  refine ⟨?_, ?_, ?_, ?_, ho.distinct⟩
  · intro i hi
    have hv := ho.vacant i hi
    show (if i ∈ s.acceptQueue then _ else _) = _
    rw [if_neg (hkeep i (by rw [hv]; exact hvac)), hv]
  · intro i hi
    have hmem : i ∈ s.reader.handover := hi
    show (if i ∈ s.acceptQueue then _ else _ : Handle).op = _
    rw [if_neg (hdisj i hmem)]
    exact ho.queued i (List.mem_append_right _ hmem)
  · exact (List.nodup_append.mp ho.nodup).2.1
  · intro k i hk
    obtain ⟨hlt, hv⟩ := ho.opening k i hk
    refine ⟨hlt, ?_⟩
    show (if i ∈ s.acceptQueue then _ else _) = _
    rw [if_neg (hkeep i (by rw [hv]; exact hvac)), hv]

/-- An `open_stream` call moves without a stream of its own. -/
theorem setOpen (ho : Owned s) {k : Nat} {pc : OpenPc}
    (h : pc.opening = (s.opens k).opening) : Owned (s.setOpen k pc) := by
  refine ho.congr rfl rfl rfl rfl fun k' => ?_
  by_cases hk : k' = k
  · subst hk
    rw [Session.opens_setOpen_self, h]
  · rw [Session.opens_setOpen_of_ne _ _ hk]

theorem openInsert (ho : Owned s) {k : Nat} {sid : UInt32} (h : s.opens k = .insert sid) :
    Owned ((s.insertStream sid Handle.vacant).setOpen k (.pushSyn s.nextRef)) := by
  have hold : ∀ k' r, (s.opens k').opening = some r → r < s.nextRef := fun k' r hk' =>
    (ho.opening k' r hk').1
  have hother : ∀ k', k' ≠ k → ((s.insertStream sid Handle.vacant).setOpen k
      (.pushSyn s.nextRef)).opens k' = s.opens k' := fun k' hk' =>
    Function.update_of_ne hk' _ _
  have hself : ((s.insertStream sid Handle.vacant).setOpen k
      (.pushSyn s.nextRef)).opens k = .pushSyn s.nextRef := Function.update_self _ _ _
  refine ho.insert rfl rfl rfl (.inl ⟨rfl, rfl⟩) ?_ ?_
  · intro k' r hk'
    by_cases hkk : k' = k
    · subst hkk
      rw [hself] at hk'
      exact .inr ⟨(Option.some.inj hk').symm, rfl⟩
    · rw [hother k' hkk] at hk'
      exact .inl hk'
  · intro k₁ k₂ h₁ h₂
    have hk : ∀ k', (((s.insertStream sid Handle.vacant).setOpen k
        (.pushSyn s.nextRef)).opens k').opening = some s.nextRef → k' = k := by
      intro k' hk'
      by_contra hne
      rw [hother k' hne] at hk'
      exact absurd (hold k' _ hk') (Nat.lt_irrefl _)
    rw [hk k₁ h₁, hk k₂ h₂]

/-- An `open_stream` call lets its stream go, to the application or for good. -/
theorem openDone (ho : Owned s) {k : Nat} (hk : (s.opens k).opening = some r)
    {pc : OpenPc} (hpc : pc.opening = none) (hn : t.nextRef = s.nextRef)
    (hh : t.handles = Function.update s.handles r h) (hq : t.acceptQueue = s.acceptQueue)
    (hr : t.reader = s.reader) (hopens : t.opens = Function.update s.opens k pc) : Owned t := by
  obtain ⟨hlt, hvac⟩ := ho.opening k r hk
  have hne : ∀ i, i ≠ r → t.handles i = s.handles i := fun i hi => by
    rw [hh, Function.update_of_ne hi]
  have hother : ∀ k' i, (t.opens k').opening = some i → k' ≠ k ∧ (s.opens k').opening = some i := by
    intro k' i hk'
    by_cases hkk : k' = k
    · subst hkk
      rw [hopens, Function.update_self, hpc] at hk'
      cases hk'
    · rw [hopens, Function.update_of_ne hkk] at hk'
      exact ⟨hkk, hk'⟩
  refine ⟨?_, ?_, ?_, ?_, ?_⟩
  · intro i hi
    rw [hn] at hi
    rw [hne i (by omega)]
    exact ho.vacant i hi
  · intro i hi
    rw [hq, hr] at hi
    have hop := ho.queued i hi
    have hir : i ≠ r := by
      rintro rfl
      rw [hvac] at hop
      exact absurd hop (by decide)
    rw [hne i hir]
    exact hop
  · rw [hq, hr]
    exact ho.nodup
  · intro k' i hk'
    obtain ⟨hkk, hki⟩ := hother k' i hk'
    have hir : i ≠ r := by
      rintro rfl
      exact hkk (ho.distinct k' k i hki hk)
    rw [hn, hne i hir]
    exact ho.opening k' i hki
  · intro k₁ k₂ i h₁ h₂
    exact ho.distinct k₁ k₂ i (hother k₁ i h₁).2 (hother k₂ i h₂).2

end Owned

/-- The closing steps leave the handles, the backlog and the other threads alone. -/
theorem FailStep.frame {s t : Session} {pc : FailPc} {next : Option FailPc}
    (h : FailStep s pc t next) :
    t.handles = s.handles ∧ t.nextRef = s.nextRef ∧ t.acceptQueue = s.acceptQueue
      ∧ t.reader = s.reader ∧ t.opens = s.opens := by
  cases h <;> exact ⟨rfl, rfl, rfl, rfl, rfl⟩

theorem ReaderPc.handover_handleFrame (hdr : MuxHeader) (data : Bytes) :
    (Session.handleFrame hdr data).handover = [] := by
  unfold Session.handleFrame
  split_ifs <;> rfl

theorem ReaderPc.handover_ofFail (next : Option FailPc) : (ofFail next).handover = [] := by
  cases next <;> rfl

theorem Step.owned {s t : Session} {l : Label} (h : Step s l t) (ho : Owned s) : Owned t := by
  cases h
  all_goals try exact ho.congr rfl rfl rfl rfl fun _ => rfl
  -- moves of the reader that hand no stream over
  case readerTop h | readerCheckClosed h | readerPark h | readerRecheck h | readerSynCheck h =>
    refine ho.congr rfl rfl rfl ?_ fun _ => rfl
    simp only [h]
    split_ifs <;> rfl
  case readerWake h _ | readerDecodeErr h _ | readerDecodeBody h _ _ | readerBody h _ _ _
      | readerHeaderEof h _ _ | readerBodyEof h _ _ | readerHeaderError h
      | readerBodyError h | readerFinMiss h _ | readerFinHit h _ | readerFinSet h
      | readerPshMiss h _ | readerPshHit h _ | readerPshSpend h | readerPshPush h
      | readerAcceptFull h _ _ | readerAcceptWait h _ | readerAcceptRetry h =>
    exact ho.congr rfl rfl rfl (by rw [h]; rfl) fun _ => rfl
  case readerHeader h _ _ _ =>
    refine ho.congr rfl rfl rfl ?_ fun _ => rfl
    simp only [h]
    split_ifs <;> rfl
  case readerDecodeEmpty h _ _ | readerBodyDone h _ _ _ =>
    refine ho.congr rfl rfl rfl ?_ fun _ => rfl
    rw [h]
    exact ReaderPc.handover_handleFrame _ _
  case readerFail h hf =>
    obtain ⟨hh, hn, hq, -, hopen⟩ := hf.frame
    refine ho.congr hh hn hq ?_ fun k => by rw [hopen]
    rw [h]
    exact ReaderPc.handover_ofFail _
  case readerAbort ha h =>
    refine ho.congr rfl rfl rfl ?_ fun _ => rfl
    rcases h with (h | ⟨buf, h⟩) | ⟨hdr, buf, h⟩ <;> rw [h] <;> rfl
  -- a stream passes from the reader to the backlog or to its `Drop`
  case readerSynInsert sid h =>
    exact ho.insert rfl rfl rfl (.inr ⟨rfl, by rw [h]; rfl, rfl⟩) (fun k r hk => .inl hk)
      (fun k k' hk _ => absurd (ho.opening k _ hk).1 (Nat.lt_irrefl _))
  case readerAcceptSend r h hc hlen =>
    have hqueue : s.acceptQueue ++ s.reader.handover = s.acceptQueue ++ [r] := by rw [h]; rfl
    refine ⟨ho.vacant, ?_, ?_, ho.opening, ho.distinct⟩
    · intro i hi
      rw [show (s.acceptQueue ++ [r]) ++ ReaderPc.top.handover = s.acceptQueue ++ [r] by
        simp [ReaderPc.handover], ← hqueue] at hi
      exact ho.queued i hi
    · rw [show (s.acceptQueue ++ [r]) ++ ReaderPc.top.handover = s.acceptQueue ++ [r] by
        simp [ReaderPc.handover], ← hqueue]
      exact ho.nodup
  case readerAcceptClosed r h _ | readerAcceptGiveUp r h _ | readerAbortAccept r _ h =>
    have hheld : s.reader.handover = [r] := by rw [h]; rfl
    have hsplit : s.acceptQueue ++ s.reader.handover = s.acceptQueue ++ r :: [] := by rw [hheld]
    exact ho.release hsplit rfl rfl rfl rfl
  case acceptStream r rest h =>
    have hsplit : s.acceptQueue ++ s.reader.handover = [] ++ r :: (rest ++ s.reader.handover) := by
      rw [h]
      rfl
    exact ho.release hsplit rfl rfl rfl rfl
  case dropReceiver k h => exact ho.dropReceiver
  -- the other threads
  case writerFail h hf | keepFail h hf | closeFail h hf =>
    obtain ⟨hh, hn, hq, hr, hopen⟩ := hf.frame
    exact ho.congr hh hn hq (congrArg _ hr) fun k =>
      congrArg (fun opens => (opens k).opening) hopen
  case openStart k h | openGoAway k h =>
    refine ho.setOpen ?_
    rw [h]
    split_ifs <;> rfl
  case openAlloc k u sid h ha =>
    obtain ⟨-, -, rfl⟩ := Session.allocId_eq_some ha
    refine (ho.congr rfl rfl rfl rfl fun _ => rfl : Owned { s with nextStreamId := sid }).setOpen ?_
    rw [h]
    rfl
  case openAllocErr k u h ha =>
    have hu : Owned u := by
      rw [Session.allocId_eq_none ha]
      exact ho.congr rfl rfl rfl rfl fun _ => rfl
    refine hu.setOpen ?_
    rw [Session.allocId_eq_none ha, h]
    rfl
  case openInsert k sid h => exact ho.openInsert h
  case openPush k r seq q h hq => exact ho.openDone (by rw [h]; rfl) rfl rfl rfl rfl rfl rfl
  case openPushErr k r e h hq =>
    refine ho.setOpen ?_
    rw [h]
    rfl
  case openUnwind k r h =>
    exact ho.openDone (by rw [h]; rfl) rfl rfl (Function.update_eq_self r s.handles).symm rfl rfl rfl
  -- the streams
  case callRead h | callFlush h | callShutdown h | callDrop h | callWrite h _ _
      | streamRead h | refundNone h | refundAdd h _ | refundNotify h | writeClosed h
      | writeDead h | writeReserve h | writePush h _ | writePushErr h _ | shutClosed h _
      | shutOpen h _ | dropRemove h _ | dropMissing h _ | dropRecycle h =>
    exact ho.stream h ⟨nofun, nofun⟩ rfl rfl rfl rfl rfl
  case streamFlush h =>
    rcases h with h | h <;> exact ho.stream h ⟨nofun, nofun⟩ rfl rfl rfl rfl rfl
  case sendFin h _ | sendFinErr h _ =>
    rcases h with ⟨cx, h, -⟩ | ⟨h, -⟩ <;> exact ho.stream h ⟨nofun, nofun⟩ rfl rfl rfl rfl rfl

/-- A handle in the application's hands is moved by its own steps alone. -/
theorem Step.handles_of_ne {s t : Session} {l : Label} {r : Nat} (h : Step s l t) (ho : Owned s)
    (hrun : (s.handles r).op.Running) (hl : l ≠ .stream r) : t.handles r = s.handles r := by
  have hnext : r ≠ s.nextRef := Nat.ne_of_lt (ho.lt_nextRef hrun)
  have hout := ho.not_mem_handover hrun
  cases h
  all_goals try rfl
  case readerSynInsert | openInsert => exact Function.update_of_ne hnext _ _
  case readerAcceptClosed r' h _ | readerAcceptGiveUp r' h _ | readerAbortAccept r' _ h =>
    refine Function.update_of_ne ?_ _ _
    rintro rfl
    exact hout (List.mem_append_right _ (by rw [h]; exact List.mem_singleton_self r))
  case readerFail hf | writerFail hf | keepFail hf | closeFail hf =>
    exact congrArg (fun hs => hs r) hf.frame.1
  case openAlloc ha =>
    obtain ⟨-, -, rfl⟩ := Session.allocId_eq_some ha
    rfl
  case openAllocErr ha =>
    obtain rfl := Session.allocId_eq_none ha
    rfl
  case openPush k r' seq q h hq =>
    refine Function.update_of_ne ?_ _ _
    rintro rfl
    exact ho.opening_ne hrun (k := k) (by rw [h]; rfl)
  case acceptStream r' rest h =>
    refine Function.update_of_ne ?_ _ _
    rintro rfl
    exact hout (List.mem_append_left _ (by rw [h]; exact List.mem_cons_self))
  case dropReceiver =>
    show (if r ∈ s.acceptQueue then _ else s.handles r) = _
    rw [if_neg fun hmem => hout (List.mem_append_left _ hmem)]
  all_goals exact Function.update_of_ne (fun e => hl (by rw [e])) _ _

/-! ## The table -/

/-- The table and the reader only name allocated streams, and the table names
them under their own id. -/
structure Tabled (s : Session) : Prop where
  table : ∀ sid r, s.streams sid = some r → (s.objs r).id = sid ∧ r < s.nextRef
  target : ∀ r, s.reader.target = some r → r < s.nextRef

namespace Tabled

variable {s t : Session} {r : Nat}

/-- A step that inserts nothing keeps the table well formed if it only removes
entries, keeps the ids and lets the reader look up allocated streams. -/
theorem shrink (ht : Tabled s) (hs : ∀ sid r, t.streams sid = some r → s.streams sid = some r)
    (hid : ∀ r, (t.objs r).id = (s.objs r).id) (hn : t.nextRef = s.nextRef)
    (hr : ∀ r, t.reader.target = some r → r < s.nextRef) : Tabled t := by
  refine ⟨fun sid r h => ?_, fun r h => ?_⟩
  · rw [hid, hn]
    exact ht.table sid r (hs sid r h)
  · rw [hn]
    exact hr r h

theorem congr (ht : Tabled s) (hs : t.streams = s.streams) (hobjs : t.objs = s.objs)
    (hn : t.nextRef = s.nextRef) (hr : t.reader.target = s.reader.target) : Tabled t := by
  refine ht.shrink (fun sid r h => ?_) (fun r => by rw [hobjs]) hn fun r h => ?_
  · rw [← hs]
    exact h
  · rw [hr] at h
    exact ht.target r h

theorem id_setObj {st : StreamState} (h : st.id = (s.objs r).id) (i : Nat) :
    ((s.setObj r st).objs i).id = (s.objs i).id := by
  by_cases hi : i = r
  · subst hi
    rw [Session.objs_setObj_self, h]
  · rw [Session.objs_setObj_of_ne _ _ hi]

theorem insertStream (ht : Tabled s) (sid : UInt32) (h : Handle) :
    ∀ sid' r, (s.insertStream sid h).streams sid' = some r →
      ((s.insertStream sid h).objs r).id = sid' ∧ r < s.nextRef + 1 := by
  intro sid' r hr
  simp only [Session.insertStream] at hr ⊢
  by_cases hsid : sid' = sid
  · subst hsid
    rw [Function.update_self] at hr
    obtain rfl := Option.some.inj hr
    rw [Function.update_self]
    exact ⟨rfl, by omega⟩
  · rw [Function.update_of_ne hsid] at hr
    obtain ⟨hid, hlt⟩ := ht.table sid' r hr
    rw [Function.update_of_ne (Nat.ne_of_lt hlt)]
    exact ⟨hid, by omega⟩

theorem removeStream {sid sid' : UInt32} (h : (s.removeStream sid).streams sid' = some r) :
    s.streams sid' = some r := by
  simp only [Session.removeStream] at h
  by_cases hsid : sid' = sid
  · subst hsid
    rw [Function.update_self] at h
    cases h
  · rwa [Function.update_of_ne hsid] at h

end Tabled

theorem ReaderPc.target_handleFrame (hdr : MuxHeader) (data : Bytes) :
    (Session.handleFrame hdr data).target = none := by
  unfold Session.handleFrame
  split_ifs <;> rfl

theorem ReaderPc.target_ofFail (next : Option FailPc) : (ofFail next).target = none := by
  cases next <;> rfl

theorem FailStep.table {s t : Session} {pc : FailPc} {next : Option FailPc}
    (h : FailStep s pc t next) :
    (∀ sid r, t.streams sid = some r → s.streams sid = some r)
      ∧ ∀ r, (t.objs r).id = (s.objs r).id := by
  cases h
  all_goals try exact ⟨fun _ _ h => h, fun _ => rfl⟩
  case drain => exact ⟨fun _ _ h => (nomatch h), fun _ => rfl⟩
  case setDead refs r hr => exact ⟨fun _ _ h => h, Tabled.id_setObj rfl⟩

/-- Ids never change once a stream is allocated. -/
theorem Step.tabled {s t : Session} {l : Label} (h : Step s l t) (ht : Tabled s) : Tabled t := by
  have hnone : ∀ {pc : ReaderPc}, pc.target = none → ∀ r, pc.target = some r → r < s.nextRef :=
    fun h r hr => by rw [h] at hr; cases hr
  cases h
  all_goals try exact ht.congr rfl rfl rfl rfl
  case readerTop h | readerCheckClosed h | readerPark h | readerRecheck h | readerSynCheck h =>
    refine ht.congr rfl rfl rfl ?_
    simp only [h]
    split_ifs <;> rfl
  case readerHeader h _ _ _ =>
    refine ht.congr rfl rfl rfl ?_
    simp only [h]
    split_ifs <;> rfl
  case readerWake h _ | readerDecodeErr h _ | readerDecodeBody h _ _ | readerBody h _ _ _
      | readerHeaderEof h _ _ | readerBodyEof h _ _ | readerHeaderError h
      | readerBodyError h | readerFinMiss h _ | readerPshMiss h _ | readerPshSpend h
      | readerAcceptFull h _ _ | readerAcceptWait h _ | readerAcceptRetry h
      | readerAcceptClosed h _ | readerAcceptGiveUp h _ | readerAbortAccept _ h
      | readerAcceptSend h _ _ =>
    exact ht.congr rfl rfl rfl (by rw [h]; rfl)
  case readerDecodeEmpty h _ _ | readerBodyDone h _ _ _ =>
    refine ht.congr rfl rfl rfl ?_
    rw [h]
    exact ReaderPc.target_handleFrame _ _
  case readerAbort _ h => exact ht.shrink (fun _ _ h => h) (fun _ => rfl) rfl (hnone rfl)
  case readerFinHit sid r h hs =>
    refine ht.shrink (fun _ _ h => h) (fun _ => rfl) rfl fun i hi => ?_
    exact (ht.table sid i (Option.some.inj hi ▸ hs)).2
  case readerPshHit sid data r h hs =>
    refine ht.shrink (fun _ _ h => h) (fun _ => rfl) rfl fun i hi => ?_
    exact (ht.table sid i (Option.some.inj hi ▸ hs)).2
  case readerFinSet r h | readerPshPush r data h =>
    exact ht.shrink (fun _ _ h => h) (Tabled.id_setObj rfl) rfl (hnone rfl)
  case readerSynInsert sid h =>
    exact ⟨ht.insertStream sid { Handle.vacant with op := .queued }, fun r hr => nomatch hr⟩
  case readerFail h hf =>
    exact ht.shrink hf.table.1 hf.table.2 hf.frame.2.1 (hnone (ReaderPc.target_ofFail _))
  case writerFail h hf | keepFail h hf | closeFail h hf =>
    refine ht.shrink hf.table.1 hf.table.2 hf.frame.2.1 fun r hr => ?_
    exact ht.target r (by rw [← hf.frame.2.2.2.1]; exact hr)
  case openAlloc k u sid h ha =>
    obtain ⟨-, -, rfl⟩ := Session.allocId_eq_some ha
    exact ht.congr rfl rfl rfl rfl
  case openAllocErr k u h ha =>
    obtain rfl := Session.allocId_eq_none ha
    exact ht.congr rfl rfl rfl rfl
  case openInsert k sid h =>
    exact ⟨ht.insertStream sid Handle.vacant, fun r hr => Nat.lt_succ_of_lt (ht.target r hr)⟩
  case openUnwind k r h =>
    exact ht.shrink (fun _ _ => Tabled.removeStream) (fun _ => rfl) rfl ht.target
  case dropRemove r r' h hs =>
    exact ht.shrink (fun _ _ => Tabled.removeStream) (fun _ => rfl) rfl ht.target
  case streamRead r cap cx h =>
    exact ht.shrink (fun _ _ h => h)
      (Tabled.id_setObj ((s.objs r).pollRead_spec s.closed cap cx).2.1) rfl ht.target
  case dropRecycle r h =>
    exact ht.shrink (fun _ _ h => h) (Tabled.id_setObj rfl) rfl ht.target

/-! ## Closing -/

/-- The part of `fail` after `closed.swap(true)`. -/
def FailPc.past : FailPc → Bool
  | .record _ | .swap => false
  | _ => true

def ReaderPc.past : ReaderPc → Bool
  | .failing pc => pc.past
  | _ => false

def WriterPc.past : WriterPc → Bool
  | .failing pc => pc.past
  | _ => false

def KeepPc.past : KeepPc → Bool
  | .failing pc => pc.past
  | _ => false

def ClosePc.past : ClosePc → Bool
  | .failing pc => pc.past
  | _ => false

/-- Nobody is past the swap, and nothing has happened that only follows it. -/
structure Calm (s : Session) : Prop where
  queue : s.queue.closed = false
  reader : s.reader.past = false
  writer : s.writer.past = false
  keep : s.keep.past = false
  closes : ∀ k, (s.closes k).past = false
  unwind : ∀ k r, s.opens k ≠ .unwind r

/-- A session that is not closed is calm. -/
def Closing (s : Session) : Prop := s.closed = false → Calm s

/-- While the session stays open, a call of `fail` has only recorded its error. -/
theorem FailStep.calm {s t : Session} {pc : FailPc} {next : Option FailPc}
    (h : FailStep s pc t next) (hpc : pc.past = false) (ht : t.closed = false) :
    next = some .swap ∧ ∃ e, t = { s with error := e } := by
  cases h
  case record e => exact ⟨rfl, _, rfl⟩
  case swapFirst h => cases ht
  case swapAgain h =>
    rw [h] at ht
    cases ht
  all_goals cases hpc

/-- `closed` is never cleared. -/
theorem FailStep.closed_mono {s t : Session} {pc : FailPc} {next : Option FailPc}
    (h : FailStep s pc t next) (ht : t.closed = false) : s.closed = false := by
  cases h
  case swapFirst h => exact h
  all_goals exact ht

theorem Step.closed_mono {s t : Session} {l : Label} (h : Step s l t) (ht : t.closed = false) :
    s.closed = false := by
  cases h
  all_goals try exact ht
  case readerFail hf | writerFail hf | keepFail hf | closeFail hf => exact hf.closed_mono ht
  case openAlloc ha =>
    obtain ⟨-, -, rfl⟩ := Session.allocId_eq_some ha
    exact ht
  case openAllocErr ha =>
    obtain rfl := Session.allocId_eq_none ha
    exact ht

theorem ReaderPc.past_handleFrame (hdr : MuxHeader) (data : Bytes) :
    (Session.handleFrame hdr data).past = false := by
  unfold Session.handleFrame
  split_ifs <;> rfl

theorem Calm.setOpen {s : Session} (hc : Calm s) {k : Nat} {pc : OpenPc}
    (hpc : ∀ r, pc ≠ .unwind r) (k' r : Nat) : (s.setOpen k pc).opens k' ≠ .unwind r := by
  by_cases hk : k' = k
  · subst hk
    rw [Session.opens_setOpen_self]
    exact hpc r
  · rw [Session.opens_setOpen_of_ne _ _ hk]
    exact hc.unwind k' r

theorem Calm.setClose {s : Session} (hc : Calm s) {k : Nat} {pc : ClosePc}
    (hpc : pc.past = false) (k' : Nat) : ((s.setClose k pc).closes k').past = false := by
  by_cases hk : k' = k
  · subst hk
    rw [Session.closes_setClose_self]
    exact hpc
  · rw [Session.closes_setClose_of_ne _ _ hk]
    exact hc.closes k'

theorem Step.closing {s t : Session} {l : Label} (h : Step s l t) (hclosing : Closing s) :
    Closing t := by
  intro ht
  have hs := h.closed_mono ht
  have hc := hclosing hs
  cases h
  all_goals try exact { hc with }
  all_goals try exact { hc with reader := rfl }
  all_goals try exact { hc with writer := rfl }
  all_goals try exact { hc with keep := rfl }
  case readerTop | readerCheckClosed | readerPark | readerRecheck | readerSynCheck
      | readerHeader =>
    refine { hc with reader := ?_ }
    dsimp only
    split_ifs <;> rfl
  case readerDecodeEmpty | readerBodyDone =>
    exact { hc with reader := ReaderPc.past_handleFrame _ _ }
  case readerFail h hf =>
    have hpc := hc.reader
    rw [h] at hpc
    obtain ⟨rfl, e, rfl⟩ := hf.calm hpc ht
    exact { hc with reader := rfl }
  case writerTake hq _ =>
    refine { hc with queue := ?_, writer := rfl }
    rw [(WriteQueue.takeBatch_eq_some hq).2.2.2]
    exact hc.queue
  case writerEncodeErr hq _ =>
    refine { hc with queue := ?_, writer := rfl }
    rw [(WriteQueue.takeBatch_eq_some hq).2.2.2]
    exact hc.queue
  case writerCheckClosed | writerPark | writerWrite =>
    refine { hc with writer := ?_ }
    dsimp only
    split_ifs <;> rfl
  case writerFail h hf =>
    have hpc := hc.writer
    rw [h] at hpc
    obtain ⟨rfl, e, rfl⟩ := hf.calm hpc ht
    exact { hc with writer := rfl }
  case keepPing hq =>
    refine { hc with queue := ?_, keep := rfl }
    rw [(WriteQueue.pushCtrl_eq_some hq).2.2]
    exact hc.queue
  case keepDeadline | keepLoadBucket | keepCheckClosed =>
    refine { hc with keep := ?_ }
    dsimp only
    split_ifs <;> rfl
  case keepFail h hf =>
    have hpc := hc.keep
    rw [h] at hpc
    obtain ⟨rfl, e, rfl⟩ := hf.calm hpc ht
    exact { hc with keep := rfl }
  case openStart | openGoAway =>
    refine { hc with unwind := hc.setOpen fun r => ?_ }
    split_ifs <;> exact nofun
  case openAlloc ha =>
    obtain ⟨-, -, rfl⟩ := Session.allocId_eq_some ha
    exact { hc with unwind := hc.setOpen fun r => nofun }
  case openAllocErr ha =>
    obtain rfl := Session.allocId_eq_none ha
    exact { hc with unwind := hc.setOpen fun r => nofun }
  case openInsert => exact { hc with unwind := hc.setOpen fun r => nofun }
  case openPush hq =>
    refine { hc with queue := ?_, unwind := hc.setOpen fun r => nofun }
    exact (WriteQueue.forcePushData_eq_ok hq).2.2.trans hc.queue
  case openPushErr hq =>
    have hclosed := WriteQueue.forcePushData_eq_error hq
    rw [hc.queue] at hclosed
    cases hclosed
  case openUnwind k r h => exact absurd h (hc.unwind k r)
  case closeStart => exact { hc with closes := hc.setClose rfl }
  case closeFail k pc next u h hf =>
    have hpc := hc.closes k
    rw [h] at hpc
    obtain ⟨rfl, e, rfl⟩ := hf.calm hpc ht
    exact { hc with closes := hc.setClose rfl }
  case closeAbort => exact { hc with closes := hc.setClose rfl }
  case writeReserve =>
    exact { hc with queue := (WriteQueue.closed_pollReserve _ _).trans hc.queue }
  case streamFlush =>
    exact { hc with queue := (WriteQueue.closed_pollFlushed _ _ _).trans hc.queue }
  case writePush hq =>
    exact { hc with queue := (WriteQueue.forcePushData_eq_ok hq).2.2.trans hc.queue }
  case sendFin hq =>
    exact { hc with queue := (WriteQueue.forcePushData_eq_ok hq).2.2.trans hc.queue }

/-! ## Whole runs -/

theorem FailStep.config {s t : Session} {pc : FailPc} {next : Option FailPc}
    (h : FailStep s pc t next) : t.config = s.config := by
  cases h <;> rfl

theorem Step.config {s t : Session} {l : Label} (h : Step s l t) : t.config = s.config := by
  cases h
  all_goals try rfl
  case readerFail hf | writerFail hf | keepFail hf | closeFail hf => exact hf.config
  case openAlloc ha =>
    obtain ⟨-, -, rfl⟩ := Session.allocId_eq_some ha
    rfl
  case openAllocErr ha =>
    obtain rfl := Session.allocId_eq_none ha
    rfl

/-- The three structural invariants together. -/
structure Wf (s : Session) : Prop where
  owned : Owned s
  tabled : Tabled s
  closing : Closing s

theorem wf_new (config : MuxConfig) (isClient : Bool) : Wf (Session.new config isClient) := by
  refine ⟨⟨fun r _ => rfl, ?_, ?_, ?_, ?_⟩, ⟨?_, ?_⟩, fun _ => ?_⟩
  · intro r hr
    cases hr
  · exact List.nodup_nil
  · intro k r h
    cases h
  · intro k k' r h
    cases h
  · intro sid r h
    cases h
  · intro r h
    cases h
  · refine ⟨rfl, rfl, rfl, ?_, fun _ => rfl, nofun⟩
    simp only [Session.new]
    split_ifs <;> rfl

theorem Step.wf {s t : Session} {l : Label} (h : Step s l t) (hw : Wf s) : Wf t :=
  ⟨h.owned hw.owned, h.tabled hw.tabled, h.closing hw.closing⟩

end Mux
end RtProxy
