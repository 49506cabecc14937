import RtProxy.Mux.Wf

/-!
Stream ids.

`next_id` tests `go_away` before it takes the counter's lock, and sets it inside
when the counter wraps.  In a run in which no call takes the lock after the flag
was set (`AllocOk`) the ids grow and are never reused (`Issued`).  A call that
passed the test before the wrap takes the lock after it and starts again at the
first id.
-/

namespace RtProxy
namespace Mux

open Session

/-- No `open_stream` call takes the counter's lock once `go_away` is set. -/
def AllocOk (s : Session) (l : Label) : Prop :=
  ∀ k, l = .openStream k → s.opens k = .alloc → s.goAway = false

/-- The id an `open_stream` call has been given. -/
def Session.idOf (s : Session) (k : Nat) : Option UInt32 :=
  match s.opens k with
  | .insert sid => some sid
  | .pushSyn r | .unwind r | .opened r => some (s.objs r).id
  | _ => none

/-- The parity of the ids of one end. -/
def parity (isClient : Bool) : UInt32 := if isClient then 1 else 0

/-! ## The counter -/

/-- An id that `next_id` returns is two above the last one, without a wrap. -/
theorem toNat_of_alloc {n : UInt32} (h : n + 2 ≠ (n + 2) % 2) :
    (n + 2).toNat = n.toNat + 2 := by
  have hn := n.toNat_lt
  have hadd : (n + 2).toNat = (n.toNat + 2) % 2 ^ 32 := UInt32.toNat_add n 2
  by_contra hwrap
  apply h
  apply UInt32.toNat_inj.mp
  rw [UInt32.toNat_mod, hadd]
  show (n.toNat + 2) % 2 ^ 32 = (n.toNat + 2) % 2 ^ 32 % 2
  omega

theorem parity_add_two (n : UInt32) : (n + 2) % 2 = n % 2 := by
  have hadd : (n + 2).toNat = (n.toNat + 2) % 2 ^ 32 := UInt32.toNat_add n 2
  apply UInt32.toNat_inj.mp
  rw [UInt32.toNat_mod, UInt32.toNat_mod, hadd]
  show (n.toNat + 2) % 2 ^ 32 % 2 = n.toNat % 2
  omega

/-! ## What a step does to the calls -/

/-- The ids of allocated streams stay what they are. -/
theorem Step.id_of_lt {s t : Session} {l : Label} {r : Nat} (h : Step s l t)
    (hr : r < s.nextRef) : (t.objs r).id = (s.objs r).id ∧ r < t.nextRef := by
  have hne : r ≠ s.nextRef := Nat.ne_of_lt hr
  cases h
  all_goals try exact ⟨rfl, hr⟩
  case readerFinSet r' h | dropRecycle r' h | readerPshPush r' data h =>
    refine ⟨Tabled.id_setObj ?_ r, hr⟩
    rfl
  case streamRead r' cap cx h =>
    exact ⟨Tabled.id_setObj ((s.objs r').pollRead_spec s.closed cap cx).2.1 r, hr⟩
  case readerSynInsert | openInsert =>
    refine ⟨?_, Nat.lt_succ_of_lt hr⟩
    show ((Function.update s.objs s.nextRef _) r).id = _
    rw [Function.update_of_ne hne]
  case readerFail hf | writerFail hf | keepFail hf | closeFail hf =>
    exact ⟨hf.table.2 r, Nat.lt_of_lt_of_eq hr hf.frame.2.1.symm⟩
  case openAlloc ha =>
    obtain ⟨-, -, rfl⟩ := Session.allocId_eq_some ha
    exact ⟨rfl, hr⟩
  case openAllocErr ha =>
    obtain rfl := Session.allocId_eq_none ha
    exact ⟨rfl, hr⟩

/-- The stream an `open_stream` call has inserted. -/
def OpenPc.ref : OpenPc → Option Nat
  | .pushSyn r | .unwind r | .opened r => some r
  | _ => none

/-- The calls name allocated streams. -/
def Session.Reffed (s : Session) : Prop := ∀ k r, (s.opens k).ref = some r → r < s.nextRef

theorem Session.idOf_congr {s t : Session} {k : Nat} (hopens : t.opens k = s.opens k)
    (hid : ∀ r, (s.opens k).ref = some r → (t.objs r).id = (s.objs r).id) :
    t.idOf k = s.idOf k := by
  unfold Session.idOf
  rw [hopens]
  cases hk : s.opens k <;> rw [hk] at hid
  case pushSyn r | unwind r | opened r => exact congrArg some (hid r rfl)

theorem Session.idOf_opened {s : Session} {k r : Nat} (h : s.opens k = .opened r) :
    s.idOf k = some (s.objs r).id := by
  unfold Session.idOf
  rw [h]

theorem Session.idOf_setOpen_of_ne (s : Session) {k k' : Nat} (h : k' ≠ k) (pc : OpenPc) :
    (s.setOpen k pc).idOf k' = s.idOf k' :=
  Session.idOf_congr (opens_setOpen_of_ne s k h pc) fun _ _ => rfl

/-- What a step can do to the counter and to the ids given out. -/
inductive IdMove (s t : Session) (l : Label) : Prop
  | same (hnext : t.nextStreamId = s.nextStreamId) (hgo : t.goAway = s.goAway)
      (hid : ∀ k, t.idOf k = s.idOf k ∨ t.idOf k = none)
  | alloc (k : Nat) (hl : l = .openStream k) (hk : s.opens k = .alloc)
      (hwrap : s.nextStreamId + 2 ≠ (s.nextStreamId + 2) % 2)
      (hnext : t.nextStreamId = s.nextStreamId + 2) (hgo : t.goAway = s.goAway)
      (hself : t.idOf k = some (s.nextStreamId + 2)) (hid : ∀ i, i ≠ k → t.idOf i = s.idOf i)
  | wrap (k : Nat) (hl : l = .openStream k) (hk : s.opens k = .alloc)
      (hnext : t.nextStreamId = s.nextStreamId + 2) (hgo : t.goAway = true)
      (hid : ∀ i, t.idOf i = s.idOf i ∨ t.idOf i = none)

namespace IdMove

variable {s t : Session} {l : Label} {k : Nat}

/-- A step of another thread. -/
theorem other (hb : s.Reffed) (hid : ∀ r, r < s.nextRef → (t.objs r).id = (s.objs r).id)
    (hnext : t.nextStreamId = s.nextStreamId) (hgo : t.goAway = s.goAway)
    (hopens : t.opens = s.opens) : IdMove s t l := by
  refine .same hnext hgo fun k => .inl ?_
  exact Session.idOf_congr (congrFun hopens k) fun r hr => hid r (hb k r hr)

/-- A step of call `k` that gives no id out. -/
theorem call {pc : OpenPc} (hnext : t.nextStreamId = s.nextStreamId) (hgo : t.goAway = s.goAway)
    (hobj : t.objs = s.objs) (hopens : t.opens = Function.update s.opens k pc)
    (hpc : t.idOf k = s.idOf k ∨ t.idOf k = none) : IdMove s t l := by
  refine .same hnext hgo fun i => ?_
  by_cases hi : i = k
  · subst hi
    exact hpc
  · refine .inl (Session.idOf_congr ?_ fun r _ => by rw [hobj])
    rw [hopens, Function.update_of_ne hi]

end IdMove

theorem Session.idOf_setOpen_self (s : Session) (k : Nat) {pc : OpenPc} (h : pc.ref = none)
    (hi : ∀ sid, pc ≠ .insert sid) : (s.setOpen k pc).idOf k = none := by
  unfold Session.idOf
  rw [opens_setOpen_self]
  cases pc with
  | insert sid => exact absurd rfl (hi sid)
  | pushSyn r => cases h
  | unwind r => cases h
  | opened r => cases h
  | start => rfl
  | loadGoAway => rfl
  | alloc => rfl
  | failed => rfl

theorem Step.id_cases {s t : Session} {l : Label} (h : Step s l t) (hb : s.Reffed) :
    IdMove s t l := by
  have hids : ∀ r, r < s.nextRef → (t.objs r).id = (s.objs r).id := fun r hr => (h.id_of_lt hr).1
  cases h
  all_goals try exact .other hb hids rfl rfl rfl
  case readerFail hf | writerFail hf | keepFail hf | closeFail hf =>
    cases hf <;> exact .other hb hids rfl rfl rfl
  case openStart k h | openGoAway k h =>
    refine .call rfl rfl rfl rfl (.inr (Session.idOf_setOpen_self s k ?_ ?_))
    · split_ifs <;> rfl
    · split_ifs <;> exact nofun
  case openAlloc k u sid h ha =>
    obtain ⟨rfl, hwrap, rfl⟩ := Session.allocId_eq_some ha
    refine .alloc k rfl h hwrap rfl rfl ?_ fun i hi => Session.idOf_setOpen_of_ne _ hi _
    unfold Session.idOf
    rw [opens_setOpen_self]
  case openAllocErr k u h ha =>
    obtain rfl := Session.allocId_eq_none ha
    refine .wrap k rfl h rfl rfl fun i => ?_
    by_cases hi : i = k
    · subst hi
      exact .inr (Session.idOf_setOpen_self _ _ rfl nofun)
    · exact .inl (Session.idOf_setOpen_of_ne _ hi _)
  case openInsert k sid h =>
    refine .same rfl rfl fun i => .inl ?_
    by_cases hi : i = k
    · subst hi
      unfold Session.idOf
      rw [opens_setOpen_self, h]
      show some ((Function.update s.objs s.nextRef (StreamState.new sid)) s.nextRef).id = some sid
      rw [Function.update_self]
      rfl
    · refine Session.idOf_congr (Function.update_of_ne hi _ _) fun r hr => hids r (hb i r hr)
  case openPush k r seq q h hq =>
    refine .call rfl rfl rfl rfl (.inl ?_)
    unfold Session.idOf
    rw [opens_setOpen_self, h]
    rfl
  case openPushErr k r e h hq =>
    refine .call rfl rfl rfl rfl (.inl ?_)
    unfold Session.idOf
    rw [opens_setOpen_self, h]
    rfl
  case openUnwind k r h =>
    exact .call rfl rfl rfl rfl (.inr (Session.idOf_setOpen_self _ _ rfl nofun))

theorem Step.opens_of_ne {s t : Session} {l : Label} {k : Nat} (h : Step s l t)
    (hl : l ≠ .openStream k) : t.opens k = s.opens k := by
  cases h
  all_goals try rfl
  case readerFail hf | writerFail hf | keepFail hf | closeFail hf =>
    exact congrFun hf.frame.2.2.2.2 k
  case openAlloc ha =>
    obtain ⟨-, -, rfl⟩ := Session.allocId_eq_some ha
    exact Function.update_of_ne (fun e => hl (by rw [e])) _ _
  case openAllocErr ha =>
    obtain rfl := Session.allocId_eq_none ha
    exact Function.update_of_ne (fun e => hl (by rw [e])) _ _
  all_goals exact Function.update_of_ne (fun e => hl (by rw [e])) _ _

theorem Step.reffed {s t : Session} {l : Label} (h : Step s l t) (hb : s.Reffed) : t.Reffed := by
  have hlt : ∀ {r}, r < s.nextRef → r < t.nextRef := fun hr => (h.id_of_lt hr).2
  intro k r hr
  by_cases hl : l = .openStream k
  · subst hl
    cases h
    case openStart h | openGoAway h =>
      rw [opens_setOpen_self] at hr
      split_ifs at hr <;> cases hr
    case openAlloc | openAllocErr | openUnwind =>
      rw [opens_setOpen_self] at hr
      cases hr
    case openInsert sid h =>
      rw [opens_setOpen_self] at hr
      obtain rfl := Option.some.inj hr
      exact Nat.lt_succ_self _
    case openPush _ h | openPushErr _ h =>
      rw [opens_setOpen_self] at hr
      obtain rfl := Option.some.inj hr
      exact hlt (hb k _ (by rw [h]; rfl))
  · rw [h.opens_of_ne hl] at hr
    exact hlt (hb k r hr)

/-! ## The ids given out -/

/-- The counter keeps the parity of its end; the ids given out have it, are at
least two, are distinct and, until the counter wraps, not above it. -/
structure Issued (isClient : Bool) (s : Session) : Prop where
  counter : s.nextStreamId % 2 = parity isClient
  own : ∀ k sid, s.idOf k = some sid → sid % 2 = parity isClient ∧ 2 ≤ sid
  below : s.goAway = false → ∀ k sid, s.idOf k = some sid → sid ≤ s.nextStreamId
  distinct : ∀ k k' sid, s.idOf k = some sid → s.idOf k' = some sid → k = k'

namespace Issued

variable {isClient : Bool} {s t : Session} {l : Label}

theorem shrink (hi : Issued isClient s) (hnext : t.nextStreamId % 2 = s.nextStreamId % 2)
    (hgo : t.goAway = false → s.goAway = false ∧ t.nextStreamId = s.nextStreamId)
    (hid : ∀ k, t.idOf k = s.idOf k ∨ t.idOf k = none) : Issued isClient t := by
  have hsome : ∀ k sid, t.idOf k = some sid → s.idOf k = some sid := by
    intro k sid h
    rcases hid k with he | he
    · rw [← he]
      exact h
    · rw [he] at h
      cases h
  refine ⟨hnext.trans hi.counter, fun k sid h => hi.own k sid (hsome k sid h), fun h k sid hk => ?_,
    fun k k' sid h h' => hi.distinct k k' sid (hsome k sid h) (hsome k' sid h')⟩
  obtain ⟨hs, he⟩ := hgo h
  rw [he]
  exact hi.below hs k sid (hsome k sid hk)

/-- A call gets the next id. -/
theorem alloc (hi : Issued isClient s) (hopen : s.goAway = false) (k : Nat)
    (hwrap : s.nextStreamId + 2 ≠ (s.nextStreamId + 2) % 2)
    (hnext : t.nextStreamId = s.nextStreamId + 2) (hself : t.idOf k = some (s.nextStreamId + 2))
    (hid : ∀ i, i ≠ k → t.idOf i = s.idOf i) : Issued isClient t := by
  have hnat := toNat_of_alloc hwrap
  have hnew : ∀ i, i ≠ k → t.idOf i ≠ some (s.nextStreamId + 2) := by
    intro i hik h
    rw [hid i hik] at h
    have hle : (s.nextStreamId + 2).toNat ≤ s.nextStreamId.toNat := hi.below hopen i _ h
    omega
  refine ⟨?_, fun i sid h => ?_, fun _ i sid h => ?_, fun i j sid h h' => ?_⟩
  · rw [hnext, parity_add_two]
    exact hi.counter
  · by_cases hik : i = k
    · rw [hik, hself] at h
      obtain rfl := Option.some.inj h
      refine ⟨(parity_add_two _).trans hi.counter, ?_⟩
      show (2 : UInt32).toNat ≤ (s.nextStreamId + 2).toNat
      rw [hnat]
      exact Nat.le_add_left _ _
    · rw [hid i hik] at h
      exact hi.own i sid h
  · rw [hnext]
    by_cases hik : i = k
    · rw [hik, hself] at h
      obtain rfl := Option.some.inj h
      exact UInt32.le_refl _
    · rw [hid i hik] at h
      have hle : sid.toNat ≤ s.nextStreamId.toNat := hi.below hopen i sid h
      show sid.toNat ≤ (s.nextStreamId + 2).toNat
      omega
  · by_cases hik : i = k
    · by_cases hjk : j = k
      · rw [hik, hjk]
      · rw [hik, hself] at h
        rw [← h] at h'
        exact absurd h' (hnew j hjk)
    · by_cases hjk : j = k
      · rw [hjk, hself] at h'
        rw [← h'] at h
        exact absurd h (hnew i hik)
      · rw [hid i hik] at h
        rw [hid j hjk] at h'
        exact hi.distinct i j sid h h'

end Issued

theorem Step.issued {isClient : Bool} {s t : Session} {l : Label} (h : Step s l t)
    (hok : AllocOk s l) (hb : s.Reffed) (hi : Issued isClient s) : Issued isClient t := by
  cases h.id_cases hb with
  | same hnext hgo hid =>
    exact hi.shrink (by rw [hnext]) (fun ht => ⟨hgo.symm.trans ht, hnext⟩) hid
  | alloc k hl hk hwrap hnext hgo hself hid =>
    exact hi.alloc (hok k hl hk) k hwrap hnext hself hid
  | wrap k hl hk hnext hgo hid =>
    refine hi.shrink (by rw [hnext, parity_add_two]) (fun ht => ?_) hid
    rw [hgo] at ht
    cases ht

/-- Once `go_away` is set no call is given an id. -/
theorem Step.goAway_next {s t : Session} {l : Label} (h : Step s l t) (hok : AllocOk s l)
    (hb : s.Reffed) (hgo : s.goAway = true) :
    t.goAway = true ∧ ∀ k, t.idOf k = s.idOf k ∨ t.idOf k = none := by
  cases h.id_cases hb with
  | same hnext hgo' hid => exact ⟨hgo'.trans hgo, hid⟩
  | alloc k hl hk =>
    rw [hok k hl hk] at hgo
    cases hgo
  | wrap k hl hk hnext hgo' hid => exact ⟨hgo', hid⟩

/-! ## Whole runs -/

theorem issued_new (config : MuxConfig) (isClient : Bool) :
    Issued isClient (Session.new config isClient) := by
  have hnone : ∀ k, (Session.new config isClient).idOf k = none := fun _ => rfl
  refine ⟨?_, fun k sid h => ?_, fun _ k sid h => ?_, fun k k' sid h => ?_⟩
  · cases isClient <;> rfl
  · rw [hnone] at h
    cases h
  · rw [hnone] at h
    cases h
  · rw [hnone] at h
    cases h

open Transition in
theorem issued_of_reaches {config : MuxConfig} {isClient : Bool} {s : Session}
    (h : Reaches Step AllocOk (Session.new config isClient) s) :
    s.Reffed ∧ Issued isClient s := by
  refine h.invariant (I := fun s => s.Reffed ∧ Issued isClient s)
    ⟨nofun, issued_new config isClient⟩ ?_
  rintro s l t ⟨hb, hi⟩ hok hstep
  exact ⟨hstep.reffed hb, hstep.issued hok hb hi⟩

open Transition in
/-- A call that succeeds after `go_away` was set had its id before. -/
theorem exhausted {s t : Session} (hb : s.Reffed) (hgo : s.goAway = true)
    (hrun : Reaches Step AllocOk s t) {k r : Nat} (hk : t.opens k = .opened r) :
    (s.idOf k).isSome := by
  obtain ⟨-, -, hids⟩ : t.Reffed ∧ t.goAway = true ∧ ∀ k, t.idOf k = s.idOf k ∨ t.idOf k = none := by
    refine hrun.invariant
      (I := fun t => t.Reffed ∧ t.goAway = true ∧ ∀ k, t.idOf k = s.idOf k ∨ t.idOf k = none)
      ⟨hb, hgo, fun _ => .inl rfl⟩ ?_
    rintro t l u ⟨hbt, hgot, hid⟩ hok hstep
    obtain ⟨hgou, hid'⟩ := hstep.goAway_next hok hbt hgot
    refine ⟨hstep.reffed hbt, hgou, fun k => ?_⟩
    rcases hid' k with he | he
    · rw [he]
      exact hid k
    · exact .inr he
  have hopened := Session.idOf_opened hk
  rcases hids k with he | he
  · rw [← he, hopened]
    rfl
  · rw [he] at hopened
    cases hopened

/-- The ids that `open_stream` calls have returned: distinct, of the session's parity
and at least two. -/
structure IdsUnique (isClient : Bool) (s : Session) : Prop where
  distinct : ∀ k k' r r', s.opens k = .opened r → s.opens k' = .opened r' →
    (s.objs r).id = (s.objs r').id → k = k'
  own : ∀ k r, s.opens k = .opened r → (s.objs r).id % 2 = parity isClient ∧ 2 ≤ (s.objs r).id

open Transition in
/-- In a run in which no call takes the counter's lock after `go_away` was set, the
ids returned are unique, and once a call has failed with the overflow error no call
that had no id yet succeeds. -/
theorem stream_ids_unique {config : MuxConfig} {isClient : Bool} {s : Session}
    (hrun : Reaches Step AllocOk (Session.new config isClient) s) :
    IdsUnique isClient s ∧ ∀ t, s.goAway = true → Reaches Step AllocOk s t →
      ∀ k r, t.opens k = .opened r → (s.idOf k).isSome := by
  obtain ⟨hb, hi⟩ := issued_of_reaches hrun
  refine ⟨⟨fun k k' r r' hk hk' hid => ?_, fun k r hk => ?_⟩, fun t hgo hrun' k r hk => ?_⟩
  · have hk1 := Session.idOf_opened hk
    rw [hid] at hk1
    exact hi.distinct k k' _ hk1 (Session.idOf_opened hk')
  · exact hi.own k _ (Session.idOf_opened hk)
  · exact exhausted hb hgo hrun' hk

open Transition in
/-- The first stream of a client is stream 3. -/
theorem stream_ids_unique_first :
    ∃ s, Reaches Step AllocOk (Session.new MuxConfig.default true) s ∧ s.opens 0 = .opened 0
      ∧ (s.objs 0).id = 3 ∧ IdsUnique true s := by
  have start : Reaches Step AllocOk (Session.new MuxConfig.default true) _ := .refl
  have h := start.tail (fun _ _ _ => rfl) (Step.openStart (k := 0) rfl)
  have h := h.tail (fun _ _ _ => rfl) (Step.openGoAway (k := 0) rfl)
  have h := h.tail (fun _ _ _ => rfl) (Step.openAlloc (k := 0) rfl rfl)
  have h := h.tail (fun _ _ _ => rfl) (Step.openInsert (k := 0) rfl)
  have h := h.tail (fun _ _ _ => rfl) (Step.openPush (k := 0) rfl rfl)
  exact ⟨_, h, rfl, rfl, (stream_ids_unique h).1⟩

/-! ## The calls around the wrap

A client makes 2 ^ 31 - 1 calls one after the other, which takes the counter to its
last value.  Two more calls pass the test of `go_away`; the first wraps the counter
and fails, the second is given 3, the id of the first call of all. -/

theorem Step.openStart_of_open {s : Session} {k : Nat} (hk : s.opens k = .start)
    (hopen : s.closed = false) : Step s (.openStream k) (s.setOpen k .loadGoAway) := by
  have h := Step.openStart hk
  rw [hopen] at h
  exact h

theorem Step.openGoAway_of_clear {s : Session} {k : Nat} (hk : s.opens k = .loadGoAway)
    (hgo : s.goAway = false) : Step s (.openStream k) (s.setOpen k .alloc) := by
  have h := Step.openGoAway hk
  rw [hgo] at h
  exact h

theorem WriteQueue.forcePushData_of_open {q : WriteQueue} (h : q.closed = false) (f : MuxFrame) :
    ∃ q', q.forcePushData f = .ok (q', q.pushed + 1) ∧ q'.closed = false := by
  unfold WriteQueue.forcePushData
  rw [h]
  exact ⟨_, rfl, rfl⟩

/-- The session accepts calls of `open_stream`. -/
structure Admits (s : Session) : Prop where
  closed : s.closed = false
  queue : s.queue.closed = false
  goAway : s.goAway = false

open Transition in
/-- The rest of a call that is about to take the counter's lock, when the counter
does not wrap. -/
theorem alloc_run {init s : Session} {k : Nat} (hrun : Reaches Step anyStep init s)
    (hq : s.queue.closed = false) (hk : s.opens k = .alloc)
    (hwrap : s.nextStreamId + 2 ≠ (s.nextStreamId + 2) % 2) :
    ∃ t, Reaches Step anyStep init t ∧ t.closed = s.closed ∧ t.queue.closed = false
      ∧ t.goAway = s.goAway ∧ t.nextStreamId = s.nextStreamId + 2 ∧ t.nextRef = s.nextRef + 1
      ∧ t.opens k = .opened s.nextRef ∧ (t.objs s.nextRef).id = s.nextStreamId + 2
      ∧ (∀ i, i ≠ k → t.opens i = s.opens i)
      ∧ ∀ r, r ≠ s.nextRef → t.objs r = s.objs r := by
  have halloc : s.allocId = ({ s with nextStreamId := s.nextStreamId + 2 },
      some (s.nextStreamId + 2)) := by
    rw [Session.allocId, if_neg hwrap]
  have h := hrun.tail trivial (Step.openAlloc hk halloc)
  have h := h.tail trivial (Step.openInsert (opens_setOpen_self _ _ _))
  obtain ⟨q', hpush, hq'⟩ := WriteQueue.forcePushData_of_open hq
    (MuxFrame.new s.config.version CMD_SYN
      (Function.update s.objs s.nextRef (StreamState.new (s.nextStreamId + 2)) s.nextRef).id)
  have hid : (Function.update s.objs s.nextRef (StreamState.new (s.nextStreamId + 2))
      s.nextRef).id = s.nextStreamId + 2 := by
    rw [Function.update_self]
    rfl
  have h := h.tail trivial (Step.openPush (r := s.nextRef) (opens_setOpen_self _ _ _) hpush)
  refine ⟨_, h, rfl, hq', rfl, rfl, rfl, opens_setOpen_self _ _ _, hid, fun i hi => ?_,
    fun r hr => Function.update_of_ne hr _ _⟩
  rw [opens_setOpen_of_ne _ _ hi]
  show ((Function.update (Function.update s.opens k _) k _) i) = s.opens i
  rw [Function.update_of_ne hi, Function.update_of_ne hi]

/-- `n` calls have returned, the first of them stream 3. -/
structure Counted (n : Nat) (s : Session) : Prop extends Admits s where
  run : Transition.Reaches Step Transition.anyStep (Session.new MuxConfig.default true) s
  counter : s.nextStreamId = UInt32.ofNat (2 * n + 1)
  refs : s.nextRef = n
  fresh : ∀ k, n ≤ k → s.opens k = .start
  first : 0 < n → s.opens 0 = .opened 0 ∧ (s.objs 0).id = 3

theorem wraps_not {n : Nat} (hn : 2 * n + 3 < 2 ^ 32) :
    UInt32.ofNat (2 * n + 1) + 2 ≠ (UInt32.ofNat (2 * n + 1) + 2) % 2 := by
  intro h
  have h1 : (UInt32.ofNat (2 * n + 1) + 2).toNat = 2 * n + 3 := by
    rw [UInt32.toNat_add, UInt32.toNat_ofNat_of_lt' (by show 2 * n + 1 < 2 ^ 32; omega)]
    show (2 * n + 1 + 2) % 2 ^ 32 = 2 * n + 3
    omega
  have h2 := congrArg UInt32.toNat h
  rw [UInt32.toNat_mod, h1] at h2
  have h3 : 2 * n + 3 = (2 * n + 3) % 2 := h2
  omega

theorem exists_counted (n : Nat) (hn : 2 * n + 1 < 2 ^ 32) : ∃ s, Counted n s := by
  induction n with
  | zero => exact ⟨_, ⟨rfl, rfl, rfl⟩, .refl, rfl, rfl, fun _ _ => rfl, nofun⟩
  | succ n ih =>
    obtain ⟨s, hs⟩ := ih (by omega)
    have hstart := hs.fresh n (Nat.le_refl n)
    have h := hs.run.tail trivial (Step.openStart_of_open hstart hs.closed)
    have h := h.tail trivial (Step.openGoAway_of_clear (opens_setOpen_self _ _ _) hs.goAway)
    have hwrap : s.nextStreamId + 2 ≠ (s.nextStreamId + 2) % 2 := by
      rw [hs.counter]
      exact wraps_not (by omega)
    obtain ⟨t, hrun, hclosed, hqueue, hgo, hnext, href, hopened, hid, hothers, hobjs⟩ :=
      alloc_run h hs.queue (opens_setOpen_self _ _ _) hwrap
    refine ⟨t, ⟨hclosed.trans hs.closed, hqueue, hgo.trans hs.goAway⟩, hrun, ?_, ?_, ?_, ?_⟩
    · rw [hnext]
      show s.nextStreamId + 2 = _
      rw [hs.counter]
      exact (UInt32.ofNat_add (2 * n + 1) 2).symm
    · rw [href]
      exact congrArg (· + 1) hs.refs
    · intro k hk
      have hne : k ≠ n := by omega
      rw [hothers k hne, opens_setOpen_of_ne _ _ hne, opens_setOpen_of_ne _ _ hne]
      exact hs.fresh k (by omega)
    · intro _
      have hrefs : s.nextRef = n := hs.refs
      by_cases h0 : n = 0
      · subst h0
        change t.opens 0 = .opened s.nextRef at hopened
        change (t.objs s.nextRef).id = s.nextStreamId + 2 at hid
        rw [hrefs] at hopened hid
        rw [hs.counter] at hid
        exact ⟨hopened, hid⟩
      · obtain ⟨ho, hi⟩ := hs.first (by omega)
        have hne : (0 : Nat) ≠ n := Ne.symm h0
        rw [hothers 0 hne, opens_setOpen_of_ne _ _ hne, opens_setOpen_of_ne _ _ hne,
          hobjs 0 (by show 0 ≠ s.nextRef; omega)]
        exact ⟨ho, hi⟩

theorem Session.opens_setOpen_twice (s : Session) {i k : Nat} (h : i ≠ k) (pc pc' : OpenPc) :
    ((s.setOpen k pc).setOpen k pc').opens i = s.opens i := by
  rw [opens_setOpen_of_ne _ _ h, opens_setOpen_of_ne _ _ h]

theorem Session.nextStreamId_setOpen (s : Session) (k : Nat) (pc : OpenPc) :
    (s.setOpen k pc).nextStreamId = s.nextStreamId := rfl

theorem Session.nextRef_setOpen (s : Session) (k : Nat) (pc : OpenPc) :
    (s.setOpen k pc).nextRef = s.nextRef := rfl

open Transition in
/-- Two calls have passed the test of `go_away`, and the counter is at its last
value. -/
theorem passed_run : ∃ s k, Reaches Step anyStep (Session.new MuxConfig.default true) s
    ∧ s.queue.closed = false ∧ s.nextStreamId = 0xFFFFFFFF ∧ 0 < k ∧ s.nextRef = k
    ∧ s.opens k = .alloc ∧ s.opens (k + 1) = .alloc ∧ s.opens 0 = .opened 0 ∧ (s.objs 0).id = 3 := by
  obtain ⟨s, hs⟩ := exists_counted 2147483647 (by omega)
  have hcounter : s.nextStreamId = 0xFFFFFFFF := hs.counter
  have hpos : 0 < 2147483647 := by omega
  generalize 2147483647 = n at hs hpos
  have hne : n + 1 ≠ n := Nat.succ_ne_self n
  have h0 : (0 : Nat) ≠ n := Nat.ne_of_lt hpos
  have h0' : (0 : Nat) ≠ n + 1 := nofun
  have hstart := hs.fresh n (Nat.le_refl n)
  have hstart' : ((s.setOpen n .loadGoAway).setOpen n .alloc).opens (n + 1) = .start := by
    rw [opens_setOpen_twice _ hne]
    exact hs.fresh _ (Nat.le_succ n)
  have h := hs.run.tail trivial (Step.openStart_of_open hstart hs.closed)
  have h := h.tail trivial (Step.openGoAway_of_clear (opens_setOpen_self _ _ _) hs.goAway)
  have h := h.tail trivial (Step.openStart_of_open hstart' hs.closed)
  have h := h.tail trivial (Step.openGoAway_of_clear (opens_setOpen_self _ _ _) hs.goAway)
  refine ⟨_, n, h, hs.queue, ?_, hpos, ?_, ?_, opens_setOpen_self _ _ _, ?_, (hs.first hpos).2⟩
  · simp only [nextStreamId_setOpen, hcounter]
  · simp only [nextRef_setOpen, hs.refs]
  · rw [opens_setOpen_twice _ hne.symm, opens_setOpen_self]
  · rw [opens_setOpen_twice _ h0', opens_setOpen_twice _ h0]
    exact (hs.first hpos).1

open Transition in
/-- Two calls that both passed the test of `go_away` before the counter wrapped: the
first wraps it and fails, the second starts again. -/
theorem reused_run : ∃ s k, Reaches Step anyStep (Session.new MuxConfig.default true) s
    ∧ s.opens 0 = .opened 0 ∧ k ≠ 0 ∧ (∃ r, s.opens k = .opened r ∧ (s.objs r).id = 3)
    ∧ (s.objs 0).id = 3 := by
  obtain ⟨s, n, hrun, hq, hcounter, hpos, hrefs, hn, hn', hfirst, hid0⟩ := passed_run
  have hwrap : s.allocId = ({ s with nextStreamId := s.nextStreamId + 2, goAway := true }, none) := by
    rw [Session.allocId, if_pos (by rw [hcounter]; rfl)]
  have h := hrun.tail trivial (Step.openAllocErr hn hwrap)
  have hnext : s.nextStreamId + 2 + 2 ≠ (s.nextStreamId + 2 + 2) % 2 := by
    rw [hcounter]
    decide
  obtain ⟨t, hrun', -, -, -, -, -, hopened, hid, hothers, hobjs⟩ := alloc_run (k := n + 1) h hq
    (by rw [opens_setOpen_of_ne _ _ (Nat.succ_ne_self n)]; exact hn') hnext
  have h0 : (0 : Nat) ≠ n := Nat.ne_of_lt hpos
  refine ⟨t, n + 1, hrun', ?_, nofun, ⟨_, hopened, ?_⟩, ?_⟩
  · rw [hothers 0 nofun, opens_setOpen_of_ne _ _ h0]
    exact hfirst
  · rw [hid]
    show s.nextStreamId + 2 + 2 = 3
    rw [hcounter]
    rfl
  · rw [hobjs 0 (by show 0 ≠ s.nextRef; rw [hrefs]; exact h0)]
    exact hid0

open Transition in
/-- Ids are reused in some runs. -/
theorem stream_ids_reused :
    ¬ ∀ (config : MuxConfig) (isClient : Bool) (s : Session), config.verify = .ok () →
      Reaches Step anyStep (Session.new config isClient) s → IdsUnique isClient s := by
  intro hall
  obtain ⟨s, k, hrun, hfirst, hne, ⟨r, hk, hid⟩, hid0⟩ := reused_run
  exact hne ((hall MuxConfig.default true s rfl hrun).distinct k 0 r 0 hk hfirst (hid.trans hid0.symm))

end Mux
end RtProxy
