import RtProxy.Mux.Credit
import RtProxy.Mux.Fail

/-!
Whose entry of the table is whose.

Accepted and opened streams share one table, and an insertion overwrites.  In a
run that only inserts under free ids (`FreshOk`), the table lists every live
stream under its own id and nothing else (`Listed`).  Nothing in the code keeps a
run to that: the reader tests the id under another lock than the one it inserts
under, `open_stream` does not test it, and a peer may send a SYN with an id of
our parity.
-/

namespace RtProxy
namespace Mux

open Session

/-- A stream is inserted only under an id that is free. -/
def FreshOk (s : Session) (l : Label) : Prop :=
  (∀ sid, l = .reader → s.reader = .synInsert sid → s.streams sid = none)
    ∧ ∀ k sid, l = .openStream k → s.opens k = .insert sid → s.streams sid = none

namespace FreshOk

variable {s : Session}

/-- The reader may always move when it is not inserting a stream. -/
theorem reader (h : s.reader.inserts = none) : FreshOk s .reader := by
  refine ⟨fun sid _ hs => ?_, nofun⟩
  rw [hs] at h
  cases h

/-- So may an `open_stream` call, and one that inserts under a free id. -/
theorem openStream {k : Nat}
    (h : (s.opens k).inserts.all fun sid => (s.streams sid).isNone) :
    FreshOk s (.openStream k) := by
  refine ⟨nofun, fun k' sid hl hs => ?_⟩
  cases hl
  rw [hs] at h
  exact Option.isNone_iff_eq_none.mp h

end FreshOk

/-- There is a `MuxStream` and its `remove_stream` has not run. -/
def Op.present : Op → Bool
  | .absent => false
  | op => !op.removed

/-- The stream has a live handle, or an `open_stream` call is about to return one. -/
def Session.Live (s : Session) (r : Nat) : Prop :=
  (s.handles r).op.present = true ∨ ∃ k, (s.opens k).opening = some r

/-- The table lists the live streams and no other. -/
structure Listed (s : Session) : Prop where
  live : ∀ r, s.Live r → s.Registered r
  only : ∀ r, s.Registered r → s.Live r

namespace Listed

variable {s t : Session} {r : Nat}

/-- A step that changes neither the table nor who is live. -/
theorem same (hl : Listed s) (hs : t.streams = s.streams)
    (hid : ∀ r, (t.objs r).id = (s.objs r).id) (hlive : ∀ r, t.Live r ↔ s.Live r) : Listed t := by
  have hreg : ∀ r, t.Registered r ↔ s.Registered r := fun r => by
    unfold Session.Registered
    rw [hs, hid]
  exact ⟨fun r h => (hreg r).mpr (hl.live r ((hlive r).mp h)),
    fun r h => (hlive r).mpr (hl.only r ((hreg r).mp h))⟩

/-- A step that changes no handle between live and not. -/
theorem congr (hl : Listed s) (hs : t.streams = s.streams)
    (hid : ∀ r, (t.objs r).id = (s.objs r).id)
    (hop : ∀ r, (t.handles r).op.present = (s.handles r).op.present)
    (hopen : ∀ k, (t.opens k).opening = (s.opens k).opening) : Listed t := by
  refine hl.same hs hid fun r => ?_
  unfold Session.Live
  simp only [hop, hopen]

/-- A step that changes one handle and not whether it is live. -/
theorem handle (hl : Listed s) {h : Handle} (hop : h.op.present = (s.handles r).op.present)
    (hs : t.streams = s.streams) (hid : ∀ r, (t.objs r).id = (s.objs r).id)
    (hh : t.handles = Function.update s.handles r h) (hopens : t.opens = s.opens) : Listed t := by
  refine hl.congr hs hid (fun i => ?_) (fun k => by rw [hopens])
  rw [hh]
  by_cases hi : i = r
  · rw [hi, Function.update_self, hop]
  · rw [Function.update_of_ne hi]

/-- A new stream takes a free place of the table. -/
theorem insert (hl : Listed s) {sid : UInt32} (hfree : s.streams sid = none)
    (hs : t.streams = Function.update s.streams sid (some s.nextRef))
    (hobj : t.objs = Function.update s.objs s.nextRef (StreamState.new sid))
    (hnew : t.Live s.nextRef) (hold : ∀ i, i ≠ s.nextRef → (t.Live i ↔ s.Live i)) : Listed t := by
  have hself : t.streams sid = some s.nextRef := by
    rw [hs]
    exact Function.update_self _ _ _
  have hother : ∀ sid', sid' ≠ sid → t.streams sid' = s.streams sid' := fun sid' hi => by
    rw [hs]
    exact Function.update_of_ne hi _ _
  have hregnew : t.Registered s.nextRef := by
    unfold Session.Registered
    rw [hobj]
    show t.streams ((Function.update s.objs s.nextRef (StreamState.new sid)) s.nextRef).id = _
    rw [Function.update_self]
    exact hself
  have hreg : ∀ i, i ≠ s.nextRef → (t.Registered i ↔ s.Registered i) := by
    intro i hi
    have hobj' : t.objs i = s.objs i := by
      rw [hobj]
      exact Function.update_of_ne hi _ _
    unfold Session.Registered
    rw [hobj']
    by_cases hid : (s.objs i).id = sid
    · rw [hid, hself, hfree]
      simp [Ne.symm hi]
    · rw [hother _ hid]
  refine ⟨fun i hi => ?_, fun i hi => ?_⟩
  · by_cases hin : i = s.nextRef
    · rw [hin]
      exact hregnew
    · exact (hreg i hin).mpr (hl.live i ((hold i hin).mp hi))
  · by_cases hin : i = s.nextRef
    · rw [hin]
      exact hnew
    · exact (hold i hin).mpr (hl.only i ((hreg i hin).mp hi))

/-- `remove_stream` under the id of a live stream, which takes that stream's own
entry. -/
theorem remove (hl : Listed s) (hlive : s.Live r)
    (hs : t.streams = (s.removeStream (s.objs r).id).streams) (hobj : t.objs = s.objs)
    (hself : ¬ t.Live r) (hold : ∀ i, i ≠ r → (t.Live i ↔ s.Live i)) : Listed t := by
  have hreg : s.Registered r := hl.live r hlive
  have hgone : ¬ t.Registered r := by
    unfold Session.Registered
    rw [hobj, hs]
    show ¬ (Function.update s.streams (s.objs r).id none) (s.objs r).id = some r
    rw [Function.update_self]
    exact nofun
  have hothers : ∀ i, i ≠ r → (t.Registered i ↔ s.Registered i) := by
    intro i hi
    unfold Session.Registered
    rw [hobj, hs]
    show (Function.update s.streams (s.objs r).id none) (s.objs i).id = some i ↔ _
    by_cases hid : (s.objs i).id = (s.objs r).id
    · rw [hid, Function.update_self, show s.streams (s.objs r).id = some r from hreg]
      simp [Ne.symm hi]
    · rw [Function.update_of_ne hid]
  refine ⟨fun i hi => ?_, fun i hi => ?_⟩
  · by_cases hir : i = r
    · exact absurd (hir ▸ hi) hself
    · exact (hothers i hir).mpr (hl.live i ((hold i hir).mp hi))
  · by_cases hir : i = r
    · exact absurd (hir ▸ hi) hgone
    · exact (hold i hir).mpr (hl.only i ((hothers i hir).mp hi))

end Listed

/-- A step that touches the handle of one stream changes nobody else's life. -/
theorem Session.live_of_ne {s t : Session} {r : Nat}
    (hh : ∀ i, i ≠ r → t.handles i = s.handles i)
    (hopen : ∀ k i, i ≠ r → ((t.opens k).opening = some i ↔ (s.opens k).opening = some i)) (i : Nat)
    (hi : i ≠ r) : t.Live i ↔ s.Live i := by
  unfold Session.Live
  rw [hh i hi]
  simp only [hopen _ i hi]

theorem Handle.present_afterRead (h : Handle) (out : StreamState.ReadOut) :
    (h.afterRead out).op.present = true := by
  cases out <;> rfl

theorem FailStep.listed {s t u : Session} {pc : FailPc} {next : Option FailPc}
    (h : FailStep s pc u next) (hpc : pc ≠ .drain) (hl : Listed s) (hs : t.streams = u.streams)
    (hobj : t.objs = u.objs) (hh : t.handles = u.handles) (hopens : t.opens = u.opens) :
    Listed t := by
  have hstreams : u.streams = s.streams := by
    cases h
    case drain => exact absurd rfl hpc
    all_goals rfl
  refine hl.congr (hs.trans hstreams) (fun r => ?_) (fun r => ?_) fun k => ?_
  · rw [hobj]
    exact h.table.2 r
  · rw [hh, h.frame.1]
  · rw [hopens, h.frame.2.2.2.2]

theorem Step.listed {s t : Session} {l : Label} (h : Step s l t) (hok : FreshOk s l) (hw : Wf s)
    (hsole : Sole s) (ht : t.Undrained) (hl : Listed s) : Listed t := by
  have hdrain := (h.undrained hsole ht).2
  have hrun : ∀ {r : Nat} {op : Op}, (s.handles r).op = op → op.present = true → s.Live r :=
    fun h hop => .inl (by rw [h]; exact hop)
  cases h
  all_goals try exact hl.congr rfl (fun _ => rfl) (fun _ => rfl) fun _ => rfl
  case readerFinSet | readerPshPush =>
    exact hl.congr rfl (Tabled.id_setObj rfl) (fun _ => rfl) fun _ => rfl
  case readerFail pc next u h hf =>
    refine hf.listed (fun e => ?_) hl rfl rfl rfl rfl
    exact hdrain .reader (by rw [failing, h, e]; rfl) rfl
  case writerFail pc next u h hf =>
    refine hf.listed (fun e => ?_) hl rfl rfl rfl rfl
    exact hdrain .writer (by rw [failing, h, e]; rfl) rfl
  case keepFail pc next u h hf =>
    refine hf.listed (fun e => ?_) hl rfl rfl rfl rfl
    exact hdrain .keep (by rw [failing, h, e]; rfl) rfl
  case closeFail k pc next u h hf =>
    refine hf.listed (fun e => ?_) hl rfl rfl rfl rfl
    exact hdrain (.close k) (by rw [failing, h, e]; rfl) rfl
  -- insertions
  case readerSynInsert sid h =>
    refine hl.insert (hok.1 sid rfl h) rfl rfl (.inl ?_) fun i hi => ?_
    · show ((Function.update s.handles s.nextRef _) s.nextRef).op.present = true
      rw [Function.update_self]
      rfl
    · refine Session.live_of_ne (fun i hi => ?_) (fun k i _ => ?_) i hi
      · exact Function.update_of_ne hi _ _
      · exact Iff.rfl
  case openInsert k sid h =>
    refine hl.insert (hok.2 k sid rfl h) rfl rfl (.inr ⟨k, ?_⟩) fun i hi => ?_
    · rw [opens_setOpen_self]
      rfl
    · refine Session.live_of_ne (fun i hi => Function.update_of_ne hi _ _) (fun k' i hi => ?_) i hi
      by_cases hk : k' = k
      · rw [hk, opens_setOpen_self, h]
        show some s.nextRef = some i ↔ none = some i
        simp [Ne.symm hi]
      · rw [opens_setOpen_of_ne _ _ hk]
        rfl
  -- removals
  case dropRemove r r' h hs =>
    have hgone : ((s.removeStream (s.objs r).id).setOp r .dropRecycle).handles r
        = { s.handles r with op := .dropRecycle } := Function.update_self _ _ _
    refine hl.remove (hrun h rfl) rfl rfl ?_ ?_
    · rintro (hp | ⟨k, hk⟩)
      · rw [hgone] at hp
        cases hp
      · exact hw.owned.opening_ne (by rw [h]; exact ⟨nofun, nofun⟩) hk
    · exact Session.live_of_ne (fun i hi => Function.update_of_ne hi _ _) fun _ _ _ => Iff.rfl
  case dropMissing r h hs =>
    have hreg := hl.live r (hrun h rfl)
    rw [Session.Registered, hs] at hreg
    cases hreg
  case openUnwind k r h =>
    have hk : (s.opens k).opening = some r := by rw [h]; rfl
    have hother : ∀ k', k' ≠ k → ((s.removeStream (s.objs r).id).setOpen k .failed).opens k'
        = s.opens k' := fun k' hne => Function.update_of_ne hne _ _
    refine hl.remove (.inr ⟨k, hk⟩) rfl rfl ?_ ?_
    · rintro (hp | ⟨k', hk'⟩)
      · have hv : s.handles r = Handle.vacant := (hw.owned.opening k r hk).2
        change (s.handles r).op.present = true at hp
        rw [hv] at hp
        cases hp
      · by_cases hne : k' = k
        · rw [hne, opens_setOpen_self] at hk'
          cases hk'
        · rw [hother k' hne] at hk'
          exact hne (hw.owned.distinct k' k r hk' hk)
    · refine Session.live_of_ne (fun i hi => rfl) fun k' i hi => ?_
      by_cases hne : k' = k
      · rw [hne, opens_setOpen_self, hk]
        show none = some i ↔ some r = some i
        simp [Ne.symm hi]
      · rw [hother k' hne]
  -- a handle changes hands
  case readerAcceptClosed r h _ | readerAcceptGiveUp r h _ | readerAbortAccept r _ h =>
    have hq := hw.owned.queued r (by rw [h]; exact List.mem_append_right _ (List.mem_singleton_self r))
    exact hl.handle (by rw [hq]; rfl) rfl (fun _ => rfl) rfl rfl
  case acceptStream r rest h =>
    have hq := hw.owned.queued r (by rw [h]; exact List.mem_append_left _ List.mem_cons_self)
    exact hl.handle (by rw [hq]; rfl) rfl (fun _ => rfl) rfl rfl
  case dropReceiver k h =>
    refine hl.congr rfl (fun _ => rfl) (fun i => ?_) fun _ => rfl
    by_cases hi : i ∈ s.acceptQueue
    · have hq := hw.owned.queued i (List.mem_append_left _ hi)
      simp only [hi, if_true]
      rw [hq]
      rfl
    · simp only [hi, if_false]
  -- the calls of `open_stream`
  case openStart k h | openGoAway k h =>
    refine hl.congr rfl (fun _ => rfl) (fun _ => rfl) fun k' => ?_
    by_cases hk : k' = k
    · rw [hk, opens_setOpen_self, h]
      split_ifs <;> rfl
    · rw [opens_setOpen_of_ne _ _ hk]
  case openAlloc k u sid h ha =>
    obtain ⟨-, -, rfl⟩ := Session.allocId_eq_some ha
    refine hl.congr rfl (fun _ => rfl) (fun _ => rfl) fun k' => ?_
    by_cases hk : k' = k
    · rw [hk, opens_setOpen_self, h]
      rfl
    · rw [opens_setOpen_of_ne _ _ hk]
  case openAllocErr k u h ha =>
    obtain rfl := Session.allocId_eq_none ha
    refine hl.congr rfl (fun _ => rfl) (fun _ => rfl) fun k' => ?_
    by_cases hk : k' = k
    · rw [hk, opens_setOpen_self, h]
      rfl
    · rw [opens_setOpen_of_ne _ _ hk]
  case openPush k r seq q h hq =>
    have hk : (s.opens k).opening = some r := by rw [h]; rfl
    refine hl.same rfl (fun _ => rfl) fun i => ?_
    by_cases hi : i = r
    · subst hi
      refine ⟨fun _ => .inr ⟨k, hk⟩, fun _ => .inl ?_⟩
      show ((Function.update s.handles i _) i).op.present = true
      rw [Function.update_self]
      rfl
    · refine Session.live_of_ne (fun i hi => Function.update_of_ne hi _ _) (fun k' i hi => ?_) i hi
      by_cases hne : k' = k
      · rw [hne, opens_setOpen_self, hk]
        show none = some i ↔ some r = some i
        simp [Ne.symm hi]
      · rw [opens_setOpen_of_ne _ _ hne]
        rfl
  case openPushErr k r e h hq =>
    refine hl.congr rfl (fun _ => rfl) (fun _ => rfl) fun k' => ?_
    by_cases hk : k' = k
    · rw [hk, opens_setOpen_self, h]
      rfl
    · rw [opens_setOpen_of_ne _ _ hk]
  -- calls on a stream
  case callRead h | callFlush h | callWrite h _ _ | writePush h _ | writePushErr h _
      | shutClosed h _ | shutOpen h _ =>
    exact hl.handle (by rw [h]; rfl) rfl (fun _ => rfl) rfl rfl
  case callShutdown h | callDrop h | writeClosed h | writeDead h =>
    refine hl.handle ?_ rfl (fun _ => rfl) rfl rfl
    rw [h]
    split_ifs <;> rfl
  case writeReserve h =>
    refine hl.handle ?_ rfl (fun _ => rfl) rfl rfl
    rw [h]
    split <;> rfl
  case streamFlush h =>
    rcases h with h | h <;> exact hl.handle (by rw [h]; rfl) rfl (fun _ => rfl) rfl rfl
  case sendFin h _ | sendFinErr h _ =>
    rcases h with ⟨cx, h, rfl⟩ | ⟨h, rfl⟩ <;>
      exact hl.handle (by rw [h]; rfl) rfl (fun _ => rfl) rfl rfl
  case refundNone r d h | refundNotify r d h =>
    refine hl.handle ?_ rfl (fun _ => rfl) rfl rfl
    rw [h]
    cases d <;> rfl
  case refundAdd r n d h hn =>
    refine hl.handle ?_ rfl (fun _ => rfl) rfl rfl
    rw [h]
    split_ifs
    · rfl
    · cases d <;> rfl
  case streamRead r cap cx h =>
    refine hl.handle ?_ rfl
      (Tabled.id_setObj ((s.objs r).pollRead_spec s.closed cap cx).2.1) rfl rfl
    rw [h, Handle.present_afterRead]
    rfl
  case dropRecycle r h =>
    exact hl.handle (by rw [h]; rfl) rfl (Tabled.id_setObj rfl) rfl rfl

/-! ## Whole runs -/

theorem listed_new (config : MuxConfig) (isClient : Bool) :
    Listed (Session.new config isClient) := by
  refine ⟨fun r hr => ?_, nofun⟩
  rcases hr with hr | ⟨k, hk⟩
  · cases hr
  · cases hk

open Transition in
theorem listed_of_reaches {config : MuxConfig} {isClient : Bool} {s : Session}
    (h : Reaches Step FreshOk (Session.new config isClient) s) :
    Wf s ∧ Sole s ∧ (s.Undrained → Listed s) := by
  refine h.invariant (I := fun s => Wf s ∧ Sole s ∧ (s.Undrained → Listed s))
    ⟨wf_new config isClient, sole_new config isClient, fun _ => listed_new config isClient⟩ ?_
  rintro s l t ⟨hw, hsole, hl⟩ hok hstep
  refine ⟨hstep.wf hw, hstep.sole hsole, fun ht => ?_⟩
  exact hstep.listed hok hw hsole ht (hl (hstep.undrained hsole ht).1)

/-- The reader's next move when it has found the id of a SYN free. -/
theorem Step.of_synInsert {s t : Session} {sid : UInt32} (h : Step s .reader t)
    (hr : s.reader = .synInsert sid) :
    t = (s.insertStream sid { Handle.vacant with op := .queued }).setReader (.accept s.nextRef) := by
  cases h
  case readerSynInsert sid' h =>
    obtain rfl := ReaderPc.synInsert.inj (hr.symm.trans h)
    rfl
  case readerAbort _ h =>
    rcases h with (h | ⟨buf, h⟩) | ⟨hdr, buf, h⟩ <;> exact absurd (hr.symm.trans h) nofun
  all_goals simp_all

/-- The next move of an `open_stream` call that has its id. -/
theorem Step.of_openInsert {s t : Session} {k : Nat} {sid : UInt32} (h : Step s (.openStream k) t)
    (hk : s.opens k = .insert sid) :
    t = (s.insertStream sid Handle.vacant).setOpen k (.pushSyn s.nextRef) := by
  cases h
  case openInsert sid' h =>
    obtain rfl := OpenPc.insert.inj (hk.symm.trans h)
    rfl
  all_goals simp_all

/-- An insertion over an entry leaves a live stream out of the table. -/
theorem Listed.displaced {s t : Session} {l : Label} (hl : Listed s) (hw : Wf s) (h : Step s l t)
    (hbad : ¬ FreshOk s l) : ∃ r, t.Live r ∧ ¬ t.Registered r := by
  have hinsert : ∀ {sid : UInt32} {r : Nat} {hd : Handle}, s.streams sid = some r →
      t.streams = (s.insertStream sid hd).streams → t.objs = (s.insertStream sid hd).objs →
      t.handles = (s.insertStream sid hd).handles →
      (∀ k, (s.opens k).opening = some r → (t.opens k).opening = some r) →
      t.Live r ∧ ¬ t.Registered r := by
    intro sid r hd hs hstreams hobj hh hopens
    obtain ⟨hid, hlt⟩ := hw.tabled.table sid r hs
    have hne : r ≠ s.nextRef := Nat.ne_of_lt hlt
    have hlive : s.Live r := hl.only r (by rw [Session.Registered, hid]; exact hs)
    have hobj' : t.objs r = s.objs r := by
      rw [hobj]
      exact Function.update_of_ne hne _ _
    have hh' : t.handles r = s.handles r := by
      rw [hh]
      exact Function.update_of_ne hne _ _
    have hself : t.streams sid = some s.nextRef := by
      rw [hstreams]
      exact Function.update_self _ _ _
    constructor
    · rcases hlive with hp | ⟨k, hk⟩
      · left
        rw [hh']
        exact hp
      · exact .inr ⟨k, hopens k hk⟩
    · rw [Session.Registered, hobj', hid, hself]
      exact fun e => hne (Option.some.inj e).symm
  by_contra hnone
  refine hbad ⟨fun sid hlabel hr => ?_, fun k sid hlabel hk => ?_⟩
  · subst hlabel
    cases hs : s.streams sid with
    | none => rfl
    | some r =>
      obtain rfl := h.of_synInsert hr
      exact absurd ⟨r, hinsert hs rfl rfl rfl fun _ => id⟩ hnone
  · subst hlabel
    cases hs : s.streams sid with
    | none => rfl
    | some r =>
      obtain rfl := h.of_openInsert hk
      refine absurd ⟨r, hinsert hs rfl rfl rfl fun k' hk' => ?_⟩ hnone
      by_cases hne : k' = k
      · rw [hne, hk] at hk'
        cases hk'
      · rw [opens_setOpen_of_ne _ _ hne]
        exact hk'

/-! ## Ownership -/

/-- The table in the hands of its owners: each live stream is the one registered
under its id, no two share an id, and a `Drop` removes its own entry alone. -/
structure TableOwned (s : Session) : Prop where
  registered : ∀ r, s.Live r → s.Registered r
  distinct : ∀ r r', s.Live r → s.Live r' → (s.objs r).id = (s.objs r').id → r = r'
  drops : ∀ r t, (s.handles r).op = .dropRemove → Step s (.stream r) t →
    ∀ sid r', r' ≠ r → s.streams sid = some r' → t.streams sid = some r'

/-- A handle's own step touches the table by `remove_stream` alone, whoever is
registered under the id. -/
theorem Step.streams_of_stream {s t : Session} {r : Nat} (h : Step s (.stream r) t) :
    t.streams = Function.update s.streams (s.objs r).id none ∨ t.streams = s.streams := by
  cases h
  case dropRemove => exact .inl rfl
  all_goals exact .inr rfl

theorem Listed.owned {s : Session} (hl : Listed s) : TableOwned s := by
  have hdistinct : ∀ r r', s.Live r → s.Live r' → (s.objs r).id = (s.objs r').id → r = r' := by
    intro r r' hr hr' hid
    have h1 : s.streams (s.objs r).id = some r := hl.live r hr
    have h2 : s.streams (s.objs r').id = some r' := hl.live r' hr'
    rw [hid, h2] at h1
    exact (Option.some.inj h1).symm
  refine ⟨hl.live, hdistinct, fun r t hop hstep sid r' hne hs => ?_⟩
  have hreg : s.streams (s.objs r).id = some r := hl.live r (.inl (by rw [hop]; rfl))
  rcases hstep.streams_of_stream with ht | ht
  · have hsid : sid ≠ (s.objs r).id := by
      rintro rfl
      rw [hreg] at hs
      exact hne (Option.some.inj hs).symm
    rw [ht, Function.update_of_ne hsid, hs]
  · rw [ht, hs]

open Transition in
/-- In every state of a run that inserts only under free ids the table is in the
hands of its owners, and the first insertion over an entry takes it out of them. -/
theorem table_owned {config : MuxConfig} {isClient : Bool} {s : Session}
    (hrun : Reaches Step FreshOk (Session.new config isClient) s) (hopen : s.closed = false) :
    TableOwned s ∧ ∀ l t, Step s l t → ¬ FreshOk s l → ¬ TableOwned t := by
  obtain ⟨hw, -, hl⟩ := listed_of_reaches hrun
  have hlisted := hl (.inl hopen)
  refine ⟨hlisted.owned, fun l t hstep hbad howned => ?_⟩
  obtain ⟨r, hlive, hnot⟩ := hlisted.displaced hw hstep hbad
  exact hnot (howned.registered r hlive)

open Transition in
/-- A client with one stream and one byte on it owns its table. -/
theorem table_owned_one_push :
    ∃ s, Reaches Step FreshOk (Session.new MuxConfig.default true) s ∧ s.bufferedTotal = 1
      ∧ TableOwned s := by
  obtain ⟨s, hrun, hopen, -, hbuf⟩ := one_push_run
  have hfresh : Reaches Step FreshOk (Session.new MuxConfig.default true) s :=
    hrun.mono fun _ _ h => h.2
  exact ⟨s, hfresh, hbuf, (table_owned hfresh hopen).1⟩

/-- A SYN frame for stream 3. -/
def synThree : Bytes := [1, 0, 0, 0, 3, 0, 0, 0]

open Transition in
/-- The peer of a client opens stream 3, an id of the client's parity; the client
accepts it and then opens a stream, which gets the same id. -/
theorem collision_run : ∃ s, Reaches Step anyStep (Session.new MuxConfig.default true) s
    ∧ s.closed = false ∧ s.Live 0 ∧ ¬ s.Registered 0 := by
  have start : Reaches Step anyStep (Session.new MuxConfig.default true) _ := .refl
  have h := start.tail trivial (Step.arrive synThree)
  have h := h.tail trivial (Step.readerTop rfl)
  have h := h.tail trivial (Step.readerHeader 8 rfl (by decide) (by decide) (by decide))
  have h := h.tail trivial (Step.readerDecodeEmpty rfl rfl (by decide))
  have h := h.tail trivial (Step.readerSynCheck rfl)
  have h := h.tail trivial (Step.readerSynInsert rfl)
  have h := h.tail trivial (Step.readerAcceptSend (r := 0) rfl rfl (by decide))
  have h := h.tail trivial (Step.acceptStream (r := 0) rfl)
  have h := h.tail trivial (Step.openStart (k := 0) rfl)
  have h := h.tail trivial (Step.openGoAway (k := 0) rfl)
  have h := h.tail trivial (Step.openAlloc (k := 0) rfl rfl)
  have h := h.tail trivial (Step.openInsert (k := 0) rfl)
  have h := h.tail trivial (Step.openPush (k := 0) rfl rfl)
  exact ⟨_, h, rfl, .inl rfl, fun e => absurd (Option.some.inj e) (by decide)⟩

open Transition in
/-- Not every reachable table is in the hands of its owners. -/
theorem table_not_owned :
    ¬ ∀ (config : MuxConfig) (isClient : Bool) (s : Session), config.verify = .ok () →
      Reaches Step anyStep (Session.new config isClient) s → s.closed = false → TableOwned s := by
  intro hall
  obtain ⟨s, hrun, hopen, hlive, hnot⟩ := collision_run
  exact hnot ((hall MuxConfig.default true s rfl hrun hopen).registered 0 hlive)

end Mux
end RtProxy
