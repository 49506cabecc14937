import RtProxy.Mux.Wf
import Mathlib.Algebra.BigOperators.Group.Finset.Basic
import Mathlib.Algebra.BigOperators.Intervals
import Mathlib.Tactic.Ring

/-!
Conservation of the receive credit.

Every token of the bucket is in one of four places: the bucket, the unread bytes
of a stream, a refund under way, or the payload the reader has paid for and not
pushed yet.  `Credit` says so.  It is kept by every step but two: a `recycle` of
the stream the reader has looked up and not pushed to yet, after which the push
lands in a buffer nobody will refund, and an insertion over an entry of the
table, after which the table no longer lists the stream it held.
-/

/-- If `g` agrees with `f` everywhere below `n` except at `r`, the two sums
differ by the two terms at `r`. -/
theorem Finset.sum_range_change {f g : Nat → Nat} {n r : Nat} (hr : r < n)
    (h : ∀ i, i < n → i ≠ r → g i = f i) :
    (∑ i ∈ Finset.range n, g i) + f r = (∑ i ∈ Finset.range n, f i) + g r := by
  have hmem : r ∈ Finset.range n := Finset.mem_range.mpr hr
  rw [← Finset.add_sum_erase _ g hmem, ← Finset.add_sum_erase _ f hmem]
  have hrest : ∑ i ∈ (Finset.range n).erase r, g i = ∑ i ∈ (Finset.range n).erase r, f i := by
    refine Finset.sum_congr rfl fun i hi => ?_
    rw [Finset.mem_erase, Finset.mem_range] at hi
    exact h i hi.2 hi.1
  omega

namespace RtProxy
namespace Mux

/-- The handle's `remove_stream` has run. -/
def Op.removed : Op → Bool
  | .refund _ d => d
  | .refundNotify d => d
  | .dropRecycle | .gone => true
  | _ => false

/-- The handle's `recycle` has run. -/
def Op.recycled : Op → Bool
  | .refund _ d => d
  | .refundNotify d => d
  | .gone => true
  | _ => false

/-- The tokens a call has still to return. -/
def Op.owed : Op → Nat
  | .refund n _ => n
  | _ => 0

/-- What the credit depends on. -/
def Op.account (op : Op) : Bool × Bool × Nat := (op.removed, op.recycled, op.owed)

/-- The stream of a PSH frame between the lookup and the push. -/
def ReaderPc.holds : ReaderPc → Option Nat
  | .pshSpend r _ | .pshPush r _ => some r
  | _ => none

/-- The tokens the reader has spent and not pushed. -/
def ReaderPc.spent : ReaderPc → Nat
  | .pshPush _ data => data.length
  | _ => 0

namespace Session

/-- The tokens that stream `r` accounts for. -/
def debt (s : Session) (r : Nat) : Nat :=
  (if (s.handles r).op.recycled then 0 else (s.objs r).buffered) + (s.handles r).op.owed

/-- The bytes buffered in the streams of the table. -/
def bufferedTotal (s : Session) : Nat :=
  ∑ r ∈ Finset.range s.nextRef, if s.Registered r then (s.objs r).buffered else 0

/-- No PSH frame is between its lookup and its push, and no call on a stream is
under way. -/
def Quiet (s : Session) : Prop :=
  s.reader.holds = none ∧
    ∀ r, (s.handles r).op = .absent ∨ (s.handles r).op = .queued ∨ (s.handles r).op = .idle
      ∨ (s.handles r).op = .gone

end Session

structure Credit (s : Session) : Prop where
  live : ∀ r, r < s.nextRef → (s.handles r).op.removed = false → s.Registered r
  unlisted : ∀ r, (s.handles r).op.removed = true → ¬ s.Registered r
  settled : ∀ r, (s.handles r).op.recycled = true → s.reader.holds ≠ some r
  conserved : s.bucket + (∑ r ∈ Finset.range s.nextRef, s.debt r : Nat) + s.reader.spent
    = asI64 s.config.maxReceiveBuffer

namespace Credit

variable {s t : Session} {r : Nat} {op : Op}

/-- A step that moves no token, and no handle into or out of the table. -/
theorem congr (hc : Credit s) (hcfg : t.config = s.config)
    (hs : t.streams = s.streams) (hn : t.nextRef = s.nextRef)
    (hobj : ∀ r, (t.objs r).id = (s.objs r).id ∧ (t.objs r).buffered = (s.objs r).buffered)
    (hop : ∀ r, (t.handles r).op.account = (s.handles r).op.account)
    (hr : ∀ r, t.reader.holds = some r → s.reader.holds = some r ∨
      (s.handles r).op.recycled = false)
    (hsum : t.bucket + t.reader.spent = s.bucket + s.reader.spent) : Credit t := by
  have hrem : ∀ r, (t.handles r).op.removed = (s.handles r).op.removed := fun r =>
    congrArg Prod.fst (hop r)
  have hrec : ∀ r, (t.handles r).op.recycled = (s.handles r).op.recycled := fun r =>
    congrArg (fun p => p.2.1) (hop r)
  have howed : ∀ r, (t.handles r).op.owed = (s.handles r).op.owed := fun r =>
    congrArg (fun p => p.2.2) (hop r)
  have hreg : ∀ r, t.Registered r ↔ s.Registered r := fun r => by
    unfold Session.Registered
    rw [hs, (hobj r).1]
  refine ⟨fun r hlt h => ?_, fun r h => ?_, fun r h hh => ?_, ?_⟩
  · rw [hn] at hlt
    rw [hrem] at h
    exact (hreg r).mpr (hc.live r hlt h)
  · rw [hrem] at h
    rw [hreg]
    exact hc.unlisted r h
  · rw [hrec] at h
    rcases hr r hh with h' | h'
    · exact hc.settled r h h'
    · rw [h] at h'
      cases h'
  · have hdebt : ∀ r, t.debt r = s.debt r := fun r => by
      unfold Session.debt
      rw [hrec, howed, (hobj r).2]
    have hold := hc.conserved
    have htotal : ∑ r ∈ Finset.range s.nextRef, t.debt r = ∑ r ∈ Finset.range s.nextRef, s.debt r :=
      Finset.sum_congr rfl fun r _ => hdebt r
    rw [hn, hcfg, htotal]
    generalize asI64 s.config.maxReceiveBuffer = m at hold ⊢
    omega

/-- A step that touches stream `r` alone and moves tokens between its buffer, its
refund, the bucket and the reader. -/
theorem transfer (hc : Credit s) (hlt : r < s.nextRef) {h : Handle} {st : StreamState}
    (hh : t.handles = Function.update s.handles r h) (hobj : t.objs = Function.update s.objs r st)
    (hcfg : t.config = s.config) (hs : t.streams = s.streams) (hn : t.nextRef = s.nextRef)
    (hid : st.id = (s.objs r).id) (hrem : h.op.removed = (s.handles r).op.removed)
    (hhold : ∀ i, t.reader.holds = some i → s.reader.holds = some i)
    (hset : h.op.recycled = true → t.reader.holds ≠ some r)
    (hsum : t.bucket + ((if h.op.recycled then 0 else st.buffered) + h.op.owed : Nat)
        + t.reader.spent
      = s.bucket + ((if (s.handles r).op.recycled then 0 else (s.objs r).buffered)
        + (s.handles r).op.owed : Nat) + s.reader.spent) : Credit t := by
  have hself : t.handles r = h ∧ t.objs r = st := by
    rw [hh, hobj, Function.update_self, Function.update_self]
    exact ⟨rfl, rfl⟩
  have hother : ∀ i, i ≠ r → t.handles i = s.handles i ∧ t.objs i = s.objs i := by
    intro i hi
    rw [hh, hobj, Function.update_of_ne hi, Function.update_of_ne hi]
    exact ⟨rfl, rfl⟩
  have hreg : ∀ i, t.Registered i ↔ s.Registered i := by
    intro i
    unfold Session.Registered
    by_cases hi : i = r
    · rw [hi, hs, hself.2, hid]
    · rw [hs, (hother i hi).2]
  have hchange := Finset.sum_range_change (f := s.debt) (g := t.debt) hlt fun i _ hi => by
    unfold Session.debt
    rw [(hother i hi).1, (hother i hi).2]
  refine ⟨fun i hi hr => ?_, fun i hr => ?_, fun i hr => ?_, ?_⟩
  · rw [hn] at hi
    rw [hreg]
    by_cases hir : i = r
    · rw [hir, hself.1, hrem] at hr
      exact hc.live i hi (hir ▸ hr)
    · rw [(hother i hir).1] at hr
      exact hc.live i hi hr
  · rw [hreg]
    by_cases hir : i = r
    · rw [hir, hself.1, hrem] at hr
      exact hc.unlisted i (hir ▸ hr)
    · rw [(hother i hir).1] at hr
      exact hc.unlisted i hr
  · by_cases hir : i = r
    · rw [hir, hself.1] at hr
      rw [hir]
      exact hset hr
    · rw [(hother i hir).1] at hr
      exact fun hhi => hc.settled i hr (hhold i hhi)
  · have hold := hc.conserved
    have hdebt : t.debt r = (if h.op.recycled then 0 else st.buffered) + h.op.owed := by
      rw [Session.debt, hself.1, hself.2]
    rw [← hdebt] at hsum
    change _ = s.bucket + (s.debt r : Int) + _ at hsum
    rw [hn, hcfg]
    generalize asI64 s.config.maxReceiveBuffer = m at hold ⊢
    omega

/-- A move of the reader outside a push. -/
theorem reader (hc : Credit s) (hcfg : t.config = s.config) (hb : t.bucket = s.bucket)
    (hs : t.streams = s.streams) (hn : t.nextRef = s.nextRef) (hobj : t.objs = s.objs)
    (hh : t.handles = s.handles) (hold : s.reader.spent = 0)
    (hnew : t.reader.holds = none ∧ t.reader.spent = 0) : Credit t := by
  refine hc.congr hcfg hs hn (fun i => by rw [hobj]; exact ⟨rfl, rfl⟩) (fun i => by rw [hh])
    (fun r hr => ?_) (by rw [hb, hold, hnew.2])
  rw [hnew.1] at hr
  cases hr

/-- A change of one handle that leaves its account alone changes no account. -/
theorem account_setHandle {h : Handle} (hop : h.op.account = (s.handles r).op.account) (i : Nat) :
    ((s.setHandle r h).handles i).op.account = (s.handles i).op.account := by
  by_cases hi : i = r
  · subst hi
    rw [Session.handles_setHandle_self, hop]
  · rw [Session.handles_setHandle_of_ne _ _ hi]

/-- A step of a stream that only changes where its handle stands. -/
theorem stream (hc : Credit s) {h : Handle} (hop : h.op.account = (s.handles r).op.account)
    (hh : t.handles = (s.setHandle r h).handles) (hcfg : t.config = s.config)
    (hb : t.bucket = s.bucket) (hs : t.streams = s.streams) (hn : t.nextRef = s.nextRef)
    (hobj : t.objs = s.objs) (hr : t.reader = s.reader) : Credit t := by
  refine hc.congr hcfg hs hn (fun i => by rw [hobj]; exact ⟨rfl, rfl⟩) (fun i => ?_)
    (fun i hi => .inl (hr ▸ hi)) (by rw [hr, hb])
  rw [hh]
  exact account_setHandle hop i

/-- A new stream owes nothing, and takes a free place of the table. -/
theorem insert (hc : Credit s) {sid : UInt32} {h : Handle}
    (hop : h.op.account = (false, false, 0)) (hfree : s.streams sid = none)
    (hcfg : t.config = s.config) (hb : t.bucket = s.bucket)
    (hs : t.streams = (s.insertStream sid h).streams) (hn : t.nextRef = s.nextRef + 1)
    (hobj : t.objs = (s.insertStream sid h).objs)
    (hh : t.handles = (s.insertStream sid h).handles)
    (hr : ∀ r, t.reader.holds = some r → s.reader.holds = some r)
    (hsp : t.reader.spent = s.reader.spent) : Credit t := by
  have hnewObj : t.objs s.nextRef = StreamState.new sid := by
    rw [hobj]
    exact Function.update_self _ _ _
  have hnewHandle : t.handles s.nextRef = h := by
    rw [hh]
    exact Function.update_self _ _ _
  have holdObj : ∀ i, i ≠ s.nextRef → t.objs i = s.objs i := fun i hi => by
    rw [hobj]
    exact Function.update_of_ne hi _ _
  have holdHandle : ∀ i, i ≠ s.nextRef → t.handles i = s.handles i := fun i hi => by
    rw [hh]
    exact Function.update_of_ne hi _ _
  have hstream : ∀ sid', sid' ≠ sid → t.streams sid' = s.streams sid' := fun sid' hi => by
    rw [hs]
    exact Function.update_of_ne hi _ _
  have hself : t.streams sid = some s.nextRef := by
    rw [hs]
    exact Function.update_self _ _ _
  have hremoved : h.op.removed = false := congrArg Prod.fst hop
  have hrecycled : h.op.recycled = false := congrArg (fun p => p.2.1) hop
  have howed : h.op.owed = 0 := congrArg (fun p => p.2.2) hop
  have hreg : ∀ i, i ≠ s.nextRef → (t.Registered i ↔ s.Registered i) := by
    intro i hi
    unfold Session.Registered
    rw [holdObj i hi]
    by_cases hid : (s.objs i).id = sid
    · rw [hid, hself, hfree]
      simp [Ne.symm hi]
    · rw [hstream _ hid]
  refine ⟨fun i hi hrem => ?_, fun i hrem => ?_, fun i hrec hhold => ?_, ?_⟩
  · by_cases hnew : i = s.nextRef
    · subst hnew
      unfold Session.Registered
      rw [hnewObj]
      exact hself
    · rw [hreg i hnew]
      rw [holdHandle i hnew] at hrem
      exact hc.live i (by omega) hrem
  · by_cases hnew : i = s.nextRef
    · rw [hnew, hnewHandle, hremoved] at hrem
      cases hrem
    · rw [hreg i hnew]
      rw [holdHandle i hnew] at hrem
      exact hc.unlisted i hrem
  · by_cases hnew : i = s.nextRef
    · rw [hnew, hnewHandle, hrecycled] at hrec
      cases hrec
    · rw [holdHandle i hnew] at hrec
      exact hc.settled i hrec (hr i hhold)
  · have hold := hc.conserved
    have hnewDebt : t.debt s.nextRef = 0 := by
      unfold Session.debt
      rw [hnewHandle, hnewObj, hrecycled, howed]
      rfl
    have hdebt : ∑ i ∈ Finset.range s.nextRef, t.debt i = ∑ i ∈ Finset.range s.nextRef, s.debt i := by
      refine Finset.sum_congr rfl fun i hi => ?_
      rw [Finset.mem_range] at hi
      unfold Session.debt
      rw [holdHandle i (by omega), holdObj i (by omega)]
    rw [hn, Finset.sum_range_succ, hnewDebt, hdebt, hb, hcfg, hsp]
    exact hold

/-- `remove_stream` in a `Drop`: the handle is the one the table holds. -/
theorem remove (hc : Credit s) (hw : Wf s) (h : (s.handles r).op = .dropRemove) :
    Credit ((s.removeStream (s.objs r).id).setOp r .dropRecycle) := by
  have hlt : r < s.nextRef := hw.owned.lt_nextRef (by rw [h]; exact ⟨nofun, nofun⟩)
  have hreg : s.Registered r := hc.live r hlt (by rw [h]; rfl)
  have hne : ∀ i, i ≠ r → ((s.removeStream (s.objs r).id).setOp r .dropRecycle).handles i
      = s.handles i := fun i hi => Function.update_of_ne hi _ _
  have hself : (((s.removeStream (s.objs r).id).setOp r .dropRecycle).handles r).op
      = .dropRecycle := by
    rw [Session.setOp, Session.handles_setHandle_self]
  have hgone : ¬ ((s.removeStream (s.objs r).id).setOp r .dropRecycle).Registered r := by
    show ¬ (Function.update s.streams (s.objs r).id none) (s.objs r).id = some r
    rw [Function.update_self]
    exact nofun
  have hothers : ∀ i, i ≠ r → (((s.removeStream (s.objs r).id).setOp r .dropRecycle).Registered i
      ↔ s.Registered i) := by
    intro i hi
    show (Function.update s.streams (s.objs r).id none) (s.objs i).id = some i ↔ _
    by_cases hid : (s.objs i).id = (s.objs r).id
    · rw [hid, Function.update_self]
      unfold Session.Registered
      rw [hid, hreg]
      simp [Ne.symm hi]
    · rw [Function.update_of_ne hid]
      rfl
  refine ⟨fun i hi hrem => ?_, fun i hrem => ?_, fun i hrec => ?_, ?_⟩
  · by_cases hir : i = r
    · rw [hir, hself] at hrem
      cases hrem
    · rw [hothers i hir]
      rw [hne i hir] at hrem
      exact hc.live i hi hrem
  · by_cases hir : i = r
    · rw [hir]
      exact hgone
    · rw [hothers i hir]
      rw [hne i hir] at hrem
      exact hc.unlisted i hrem
  · by_cases hir : i = r
    · rw [hir, hself] at hrec
      cases hrec
    · rw [hne i hir] at hrec
      exact hc.settled i hrec
  · have hdebt : ∀ i, ((s.removeStream (s.objs r).id).setOp r .dropRecycle).debt i = s.debt i := by
      intro i
      unfold Session.debt
      by_cases hir : i = r
      · rw [hir, hself, h]
        rfl
      · rw [hne i hir]
        rfl
    rw [Finset.sum_congr rfl fun i _ => hdebt i]
    exact hc.conserved

end Credit

/-- The id under which the reader is about to insert a stream. -/
def ReaderPc.inserts : ReaderPc → Option UInt32
  | .synInsert sid => some sid
  | _ => none

/-- The id under which an `open_stream` call is about to insert its stream. -/
def OpenPc.inserts : OpenPc → Option UInt32
  | .insert sid => some sid
  | _ => none

/-- The steps that keep the credit: a stream is recycled only when the reader does
not hold it between lookup and push, and a stream is inserted only under an id
that is free. -/
def CreditOk (s : Session) (l : Label) : Prop :=
  (∀ r, l = .stream r → (s.handles r).op = .dropRecycle → s.reader.holds ≠ some r)
    ∧ (∀ sid, l = .reader → s.reader = .synInsert sid → s.streams sid = none)
    ∧ ∀ k sid, l = .openStream k → s.opens k = .insert sid → s.streams sid = none

namespace CreditOk

variable {s : Session}

/-- The reader may always move when it is not inserting a stream. -/
theorem reader (h : s.reader.inserts = none) : CreditOk s .reader := by
  refine ⟨nofun, fun sid _ hs => ?_, nofun⟩
  rw [hs] at h
  cases h

/-- So may an `open_stream` call, and one that inserts under a free id. -/
theorem openStream {k : Nat}
    (h : (s.opens k).inserts.all fun sid => (s.streams sid).isNone) :
    CreditOk s (.openStream k) := by
  refine ⟨nofun, nofun, fun k' sid hl hs => ?_⟩
  cases hl
  rw [hs] at h
  exact Option.isNone_iff_eq_none.mp h

end CreditOk

theorem ReaderPc.holds_handleFrame (hdr : MuxHeader) (data : Bytes) :
    (Session.handleFrame hdr data).holds = none
      ∧ (Session.handleFrame hdr data).spent = 0 := by
  unfold Session.handleFrame
  split_ifs <;> exact ⟨rfl, rfl⟩

/-- A stream of the table has not been removed. -/
theorem Credit.recycled_of_lookup {s : Session} (hc : Credit s) (hw : Wf s) {sid : UInt32}
    {r : Nat} (hs : s.streams sid = some r) : (s.handles r).op.recycled = false := by
  have hreg : s.Registered r := by
    unfold Session.Registered
    rw [(hw.tabled.table sid r hs).1]
    exact hs
  by_contra hrec
  rw [Bool.not_eq_false] at hrec
  refine hc.unlisted r ?_ hreg
  cases hop : (s.handles r).op <;> rw [hop] at hrec <;> first | exact hrec | cases hrec

/-- A read turns the bytes it returns into a refund it owes. -/
theorem Handle.account_afterRead (h : Handle) (out : StreamState.ReadOut) :
    (h.afterRead out).op.removed = false ∧ (h.afterRead out).op.recycled = false
      ∧ (h.afterRead out).op.owed = out.bytes.length := by
  cases out <;> exact ⟨rfl, rfl, rfl⟩

theorem Step.credit {s t : Session} {l : Label} (h : Step s l t) (hok : CreditOk s l) (hw : Wf s)
    (ht : t.closed = false) (hc : Credit s) : Credit t := by
  have hcalm := hw.closing (h.closed_mono ht)
  have hsame : ∀ r, (s.objs r).id = (s.objs r).id ∧ (s.objs r).buffered = (s.objs r).buffered :=
    fun _ => ⟨rfl, rfl⟩
  cases h
  all_goals try exact hc.congr rfl rfl rfl hsame (fun _ => rfl) (fun _ => .inl) rfl
  -- moves of the reader outside a push
  case readerTop h | readerCheckClosed h | readerPark h | readerRecheck h | readerSynCheck h =>
    refine hc.reader rfl rfl rfl rfl rfl rfl (by rw [h]; rfl) ?_
    dsimp only
    split_ifs <;> exact ⟨rfl, rfl⟩
  case readerHeader h _ _ _ =>
    refine hc.reader rfl rfl rfl rfl rfl rfl (by rw [h]; rfl) ?_
    dsimp only
    split_ifs <;> exact ⟨rfl, rfl⟩
  case readerWake h _ | readerDecodeErr h _ | readerDecodeBody h _ _ | readerBody h _ _ _
      | readerHeaderEof h _ _ | readerBodyEof h _ _ | readerHeaderError h
      | readerBodyError h | readerFinMiss h _ | readerFinHit h _ | readerPshMiss h _
      | readerAcceptFull h _ _ | readerAcceptWait h _ | readerAcceptRetry h
      | readerAcceptSend h _ _ =>
    exact hc.reader rfl rfl rfl rfl rfl rfl (by rw [h]; rfl) ⟨rfl, rfl⟩
  case readerDecodeEmpty h _ _ | readerBodyDone h _ _ _ =>
    exact hc.reader rfl rfl rfl rfl rfl rfl (by rw [h]; rfl) (ReaderPc.holds_handleFrame _ _)
  case readerAbort _ h =>
    refine hc.reader rfl rfl rfl rfl rfl rfl ?_ ⟨rfl, rfl⟩
    rcases h with (h | ⟨buf, h⟩) | ⟨hdr, buf, h⟩ <;> rw [h] <;> rfl
  case readerFinSet r h =>
    refine hc.congr rfl rfl rfl (fun i => ?_) (fun _ => rfl) (fun r hr => nomatch hr)
      (by rw [h]; rfl)
    show ((Function.update s.objs r (s.objs r).setFin) i).id = _
      ∧ ((Function.update s.objs r (s.objs r).setFin) i).buffered = _
    by_cases hi : i = r
    · subst hi
      rw [Function.update_self]
      exact ⟨rfl, rfl⟩
    · rw [Function.update_of_ne hi]
      exact ⟨rfl, rfl⟩
  case readerFail h hf =>
    have hpc := hcalm.reader
    rw [h] at hpc
    obtain ⟨rfl, e, rfl⟩ := hf.calm hpc ht
    exact hc.reader rfl rfl rfl rfl rfl rfl (by rw [h]; rfl) ⟨rfl, rfl⟩
  case writerFail h hf =>
    have hpc := hcalm.writer
    rw [h] at hpc
    obtain ⟨rfl, e, rfl⟩ := hf.calm hpc ht
    exact hc.congr rfl rfl rfl hsame (fun _ => rfl) (fun _ => .inl) rfl
  case keepFail h hf =>
    have hpc := hcalm.keep
    rw [h] at hpc
    obtain ⟨rfl, e, rfl⟩ := hf.calm hpc ht
    exact hc.congr rfl rfl rfl hsame (fun _ => rfl) (fun _ => .inl) rfl
  case closeFail k pc next u h hf =>
    have hpc := hcalm.closes k
    rw [h] at hpc
    obtain ⟨rfl, e, rfl⟩ := hf.calm hpc ht
    exact hc.congr rfl rfl rfl hsame (fun _ => rfl) (fun _ => .inl) rfl
  -- the tokens of a PSH frame: bucket to reader, reader to stream
  case readerPshHit sid data r h hs =>
    refine hc.congr rfl rfl rfl hsame (fun _ => rfl) (fun i hi => .inr ?_) (by rw [h]; rfl)
    obtain rfl := Option.some.inj hi
    exact hc.recycled_of_lookup hw hs
  case readerPshSpend r data h =>
    refine hc.congr rfl rfl rfl hsame (fun _ => rfl) (fun i hi => .inl (by rw [h]; exact hi)) ?_
    rw [h]
    show s.bucket - data.length + (data.length : Int) = s.bucket + 0
    omega
  case readerPshPush r data h =>
    have hlt : r < s.nextRef := hw.tabled.target r (by rw [h]; rfl)
    have hhold : s.reader.holds = some r := by rw [h]; rfl
    have hrec : (s.handles r).op.recycled = false := by
      by_contra hrec
      rw [Bool.not_eq_false] at hrec
      exact hc.settled r hrec hhold
    refine hc.transfer hlt (Function.update_eq_self r s.handles).symm rfl rfl rfl rfl rfl rfl
      (fun i hi => nomatch hi) (fun _ => nofun) ?_
    rw [hrec, h]
    show s.bucket + ((s.objs r).buffered + data.length + _ : Nat) + 0
      = s.bucket + ((s.objs r).buffered + _ : Nat) + (data.length : Int)
    push_cast
    ring
  -- insertions
  case readerSynInsert sid h =>
    exact hc.insert rfl (hok.2.1 sid rfl h) rfl rfl rfl rfl rfl rfl (fun r hr => nomatch hr)
      (by rw [h]; rfl)
  case openInsert k sid h =>
    exact hc.insert rfl (hok.2.2 k sid rfl h) rfl rfl rfl rfl rfl rfl (fun _ => id) rfl
  -- a handle changes hands
  case readerAcceptClosed r h _ | readerAcceptGiveUp r h _ | readerAbortAccept r _ h =>
    have hq := hw.owned.queued r (by rw [h]; exact List.mem_append_right _ (List.mem_singleton_self r))
    refine hc.congr rfl rfl rfl hsame (Credit.account_setHandle (by rw [hq]; rfl))
      (fun i hi => nomatch hi) (by rw [h]; rfl)
  case acceptStream r rest h =>
    have hq := hw.owned.queued r (by rw [h]; exact List.mem_append_left _ (List.mem_cons_self))
    exact hc.stream (by rw [hq]; rfl) rfl rfl rfl rfl rfl rfl rfl
  case dropReceiver k h =>
    refine hc.congr rfl rfl rfl hsame (fun i => ?_) (fun _ => .inl) rfl
    by_cases hi : i ∈ s.acceptQueue
    · have hq := hw.owned.queued i (List.mem_append_left _ hi)
      simp only [hi, if_true]
      rw [hq]
      rfl
    · simp only [hi, if_false]
  case openAlloc k u sid h ha =>
    obtain ⟨-, -, rfl⟩ := Session.allocId_eq_some ha
    exact hc.congr rfl rfl rfl hsame (fun _ => rfl) (fun _ => .inl) rfl
  case openAllocErr k u h ha =>
    obtain rfl := Session.allocId_eq_none ha
    exact hc.congr rfl rfl rfl hsame (fun _ => rfl) (fun _ => .inl) rfl
  case openPush k r seq q h hq =>
    have hv := (hw.owned.opening k r (by rw [h]; rfl)).2
    exact hc.stream (by rw [hv]; rfl) rfl rfl rfl rfl rfl rfl rfl
  case openUnwind k r h => exact absurd h (hcalm.unwind k r)
  -- calls on a stream that move no token
  case callRead h | callFlush h | callWrite h _ _ | writePush h _ | writePushErr h _
      | shutClosed h _ | shutOpen h _ =>
    exact hc.stream (by rw [h]; rfl) rfl rfl rfl rfl rfl rfl rfl
  case callShutdown h | callDrop h | writeClosed h | writeDead h =>
    refine hc.stream ?_ rfl rfl rfl rfl rfl rfl rfl
    rw [h]
    split_ifs <;> rfl
  case writeReserve h =>
    refine hc.stream ?_ rfl rfl rfl rfl rfl rfl rfl
    rw [h]
    split <;> rfl
  case streamFlush h =>
    rcases h with h | h <;> exact hc.stream (by rw [h]; rfl) rfl rfl rfl rfl rfl rfl rfl
  case sendFin h _ | sendFinErr h _ =>
    rcases h with ⟨cx, h, rfl⟩ | ⟨h, rfl⟩ <;>
      exact hc.stream (by rw [h]; rfl) rfl rfl rfl rfl rfl rfl rfl
  case refundNone r d h =>
    refine hc.stream ?_ rfl rfl rfl rfl rfl rfl rfl
    rw [h]
    cases d <;> rfl
  case refundNotify r d h =>
    refine hc.stream ?_ rfl rfl rfl rfl rfl rfl rfl
    rw [h]
    cases d <;> rfl
  -- a refund, a read and the end of a `Drop`
  case dropRemove r r' h hs => exact hc.remove hw h
  case dropMissing r h hs =>
    have hlt := hw.owned.lt_nextRef (by rw [h]; exact ⟨nofun, nofun⟩ : (s.handles r).op.Running)
    have hreg := hc.live r hlt (by rw [h]; rfl)
    rw [Session.Registered, hs] at hreg
    cases hreg
  case streamRead r cap cx h =>
    have hlt := hw.owned.lt_nextRef (by rw [h]; exact ⟨nofun, nofun⟩ : (s.handles r).op.Running)
    have hacc := Handle.account_afterRead (s.handles r) ((s.objs r).pollRead s.closed cap cx).2
    have hbuf := (s.objs r).buffered_pollRead s.closed cap cx
    refine hc.transfer hlt rfl rfl rfl rfl rfl ((s.objs r).pollRead_spec s.closed cap cx).2.1 ?_
      (fun _ => id) ?_ ?_
    · rw [h, hacc.1]
      rfl
    · rw [hacc.2.1]
      exact nofun
    · rw [hacc.2.1, hacc.2.2, h, ← hbuf]
      rfl
  case refundAdd r n d h hn =>
    have hlt := hw.owned.lt_nextRef (by rw [h]; exact ⟨nofun, nofun⟩ : (s.handles r).op.Running)
    have hnext : ∀ b : Bool, (if b then Op.refundNotify d else .afterRefund d).removed = d
        ∧ (if b then Op.refundNotify d else .afterRefund d).recycled = d
        ∧ (if b then Op.refundNotify d else .afterRefund d).owed = 0 := by
      intro b
      cases b <;> cases d <;> exact ⟨rfl, rfl, rfl⟩
    have hacc := hnext (decide (s.bucket ≤ 0 ∧ s.bucket + n > 0))
    simp only [decide_eq_true_eq] at hacc
    refine hc.transfer hlt rfl (Function.update_eq_self r s.objs).symm rfl rfl rfl rfl ?_
      (fun _ => id) ?_ ?_
    · rw [hacc.1, h]
      rfl
    · rw [hacc.2.1]
      intro hd
      exact hc.settled r (by rw [h, ← hd]; rfl)
    · rw [hacc.2.1, hacc.2.2, h]
      show s.bucket + n + (((if d then 0 else (s.objs r).buffered) + 0 : Nat) : Int) + s.reader.spent
        = s.bucket + (((if d then 0 else (s.objs r).buffered) + n : Nat) : Int) + s.reader.spent
      push_cast
      ring
  case dropRecycle r h =>
    have hlt := hw.owned.lt_nextRef (by rw [h]; exact ⟨nofun, nofun⟩ : (s.handles r).op.Running)
    refine hc.transfer hlt rfl rfl rfl rfl rfl rfl ?_ (fun _ => id) (fun _ => hok.1 r rfl h) ?_
    · rw [h]
      rfl
    · rw [h]
      show s.bucket + ((0 + (s.objs r).buffered : Nat) : Int) + s.reader.spent
        = s.bucket + (((s.objs r).buffered + 0 : Nat) : Int) + s.reader.spent
      rw [Nat.zero_add, Nat.add_zero]

/-! ## Whole runs -/

theorem credit_new (config : MuxConfig) (isClient : Bool) :
    Credit (Session.new config isClient) := by
  refine ⟨fun r hr => ?_, fun r hr => ?_, fun r hr => ?_, ?_⟩
  · exact absurd hr (Nat.not_lt_zero r)
  · cases hr
  · cases hr
  · have hsum : ∑ r ∈ Finset.range (Session.new config isClient).nextRef,
        (Session.new config isClient).debt r = 0 := Finset.sum_range_zero _
    have hspent : (Session.new config isClient).reader.spent = 0 := rfl
    have hbucket : (Session.new config isClient).bucket
        = asI64 (Session.new config isClient).config.maxReceiveBuffer := rfl
    rw [hsum, hspent, hbucket]
    generalize asI64 _ = m
    omega

open Transition in
theorem credit_of_reaches {config : MuxConfig} {isClient : Bool} {s : Session}
    (h : Reaches Step CreditOk (Session.new config isClient) s) :
    Wf s ∧ s.config = config ∧ (s.closed = false → Credit s) := by
  refine h.invariant (I := fun s => Wf s ∧ s.config = config ∧ (s.closed = false → Credit s))
    ⟨wf_new config isClient, rfl, fun _ => credit_new config isClient⟩ ?_
  rintro s l t ⟨hw, hcfg, hc⟩ hok hstep
  refine ⟨hstep.wf hw, hstep.config.trans hcfg, fun ht => ?_⟩
  exact hstep.credit hok hw ht (hc (hstep.closed_mono ht))

/-- Between calls a stream accounts for its buffered bytes if the table lists it,
and for nothing otherwise. -/
theorem Credit.debt_of_quiet {s : Session} (hc : Credit s) (hq : s.Quiet) {r : Nat}
    (hr : r < s.nextRef) :
    s.debt r = if s.Registered r then (s.objs r).buffered else 0 := by
  unfold Session.debt
  rcases hq.2 r with h | h | h | h
  · rw [if_pos (hc.live r hr (by rw [h]; rfl)), h]
    rfl
  · rw [if_pos (hc.live r hr (by rw [h]; rfl)), h]
    rfl
  · rw [if_pos (hc.live r hr (by rw [h]; rfl)), h]
    rfl
  · rw [if_neg (hc.unlisted r (by rw [h]; rfl)), h]
    rfl

theorem ReaderPc.spent_of_holds {pc : ReaderPc} (h : pc.holds = none) : pc.spent = 0 := by
  cases pc <;> first | rfl | cases h

theorem asI64_of_lt {n : Nat} (h : n < 2 ^ 63) : asI64 n = n := if_pos h

open Transition in
/-- In every state of a run whose steps all meet `CreditOk`, once no operation is
under way, the bucket is the configured buffer less the bytes buffered in the
registered streams; with no stream left it is full again. -/
theorem bucket_eq_max_sub_buffered {config : MuxConfig} {isClient : Bool} {s : Session}
    (hmax : config.maxReceiveBuffer < 2 ^ 63)
    (hrun : Reaches Step CreditOk (Session.new config isClient) s)
    (hopen : s.closed = false) (hquiet : s.Quiet) :
    s.bucket = config.maxReceiveBuffer - s.bufferedTotal ∧
      ((∀ sid, s.streams sid = none) → s.bucket = config.maxReceiveBuffer) := by
  obtain ⟨hw, hcfg, hc⟩ := credit_of_reaches hrun
  have hcredit := hc hopen
  have hsum := hcredit.conserved
  have hdebt : ∑ r ∈ Finset.range s.nextRef, s.debt r = s.bufferedTotal :=
    Finset.sum_congr rfl fun r hr => hcredit.debt_of_quiet hquiet (Finset.mem_range.mp hr)
  rw [hdebt, ReaderPc.spent_of_holds hquiet.1, hcfg, asI64_of_lt hmax] at hsum
  have hbucket : s.bucket = config.maxReceiveBuffer - s.bufferedTotal := by omega
  refine ⟨hbucket, fun hnone => ?_⟩
  have hempty : s.bufferedTotal = 0 := by
    refine Finset.sum_eq_zero fun r _ => if_neg ?_
    rw [Session.Registered, hnone]
    exact nofun
  rw [hbucket, hempty]
  omega

/-- A PSH frame of one byte for stream 3. -/
def pshOneByte : Bytes := [1, 2, 1, 0, 3, 0, 0, 0, 0xAA]

open Transition in
/-- A client opens stream 3 and is sent one byte on it. -/
theorem one_push_run : ∃ s, Reaches Step CreditOk (Session.new MuxConfig.default true) s
    ∧ s.closed = false ∧ s.Quiet ∧ s.bufferedTotal = 1 := by
  have start : Reaches Step CreditOk (Session.new MuxConfig.default true) _ := .refl
  have h := start.tail (.openStream rfl) (Step.openStart (k := 0) rfl)
  have h := h.tail (.openStream rfl) (Step.openGoAway (k := 0) rfl)
  have h := h.tail (.openStream rfl) (Step.openAlloc (k := 0) rfl rfl)
  have h := h.tail (.openStream rfl) (Step.openInsert (k := 0) rfl)
  have h := h.tail (.openStream rfl) (Step.openPush (k := 0) rfl rfl)
  have h := h.tail (a := .arrive _) ⟨nofun, nofun, nofun⟩ (Step.arrive pshOneByte)
  have h := h.tail (.reader rfl) (Step.readerTop rfl)
  have h := h.tail (.reader rfl)
    (Step.readerHeader 8 rfl (by decide) (by decide) (by decide))
  have h := h.tail (.reader rfl) (Step.readerDecodeBody rfl rfl (by decide))
  have h := h.tail (.reader rfl)
    (Step.readerBodyDone 1 rfl (by decide) (by decide) (by decide))
  have h := h.tail (.reader rfl) (Step.readerPshHit rfl rfl)
  have h := h.tail (.reader rfl) (Step.readerPshSpend rfl)
  have h := h.tail (.reader rfl) (Step.readerPshPush rfl)
  refine ⟨_, h, rfl, ⟨rfl, fun r => ?_⟩, rfl⟩
  cases r with
  | zero => exact .inr (.inr (.inl rfl))
  | succ r => exact .inl rfl

open Transition in
/-- A client that opens stream 3 and is sent one byte on it has one token less. -/
theorem bucket_eq_after_one_push : ∃ s, Reaches Step CreditOk (Session.new MuxConfig.default true) s
    ∧ s.bufferedTotal = 1 ∧ s.bucket = 4194304 - 1 := by
  obtain ⟨s, hrun, hopen, hquiet, hbuf⟩ := one_push_run
  have hbucket := (bucket_eq_max_sub_buffered (by decide) hrun hopen hquiet).1
  rw [hbuf] at hbucket
  exact ⟨s, hrun, hbuf, hbucket⟩

/-! ## The run that leaks

A client opens stream 3, the peer pushes one byte on it, and the application
drops the stream after the reader has looked it up.  `recycle` finds an empty
buffer, so nothing is refunded, and the byte is then paid for and pushed to a
stream that no longer exists. -/

open Transition in
theorem leak_run : ∃ s, Reaches Step anyStep (Session.new MuxConfig.default true) s
    ∧ s.closed = false ∧ s.Quiet ∧ s.bufferedTotal = 0 ∧ s.bucket = 4194303 := by
  have start : Reaches Step anyStep (Session.new MuxConfig.default true) _ := .refl
  have h := start.tail trivial (Step.openStart (k := 0) rfl)
  have h := h.tail trivial (Step.openGoAway (k := 0) rfl)
  have h := h.tail trivial (Step.openAlloc (k := 0) rfl rfl)
  have h := h.tail trivial (Step.openInsert (k := 0) rfl)
  have h := h.tail trivial (Step.openPush (k := 0) rfl rfl)
  have h := h.tail trivial (Step.arrive pshOneByte)
  have h := h.tail trivial (Step.readerTop rfl)
  have h := h.tail trivial (Step.readerHeader 8 rfl (by decide) (by decide) (by decide))
  have h := h.tail trivial (Step.readerDecodeBody rfl rfl (by decide))
  have h := h.tail trivial (Step.readerBodyDone 1 rfl (by decide) (by decide) (by decide))
  have h := h.tail trivial (Step.readerPshHit rfl rfl)
  -- the reader holds the stream; its owner drops it
  have h := h.tail trivial (Step.callDrop (r := 0) rfl)
  have h := h.tail trivial (Step.sendFin (r := 0) (.inr ⟨rfl, rfl⟩) rfl)
  have h := h.tail trivial (Step.dropRemove (r := 0) rfl rfl)
  have h := h.tail trivial (Step.dropRecycle (r := 0) rfl)
  have h := h.tail trivial (Step.refundNone (r := 0) rfl)
  have h := h.tail trivial (Step.readerPshSpend rfl)
  have h := h.tail trivial (Step.readerPshPush rfl)
  refine ⟨_, h, rfl, ⟨rfl, fun r => ?_⟩, rfl, rfl⟩
  cases r with
  | zero => exact .inr (.inr (.inr rfl))
  | succ r => exact .inl rfl

open Transition in
/-- The bucket is not conserved over all runs. -/
theorem bucket_not_conserved :
    ¬ ∀ (config : MuxConfig) (isClient : Bool) (s : Session), config.verify = .ok () →
      Reaches Step anyStep (Session.new config isClient) s → s.closed = false → s.Quiet →
      s.bucket = config.maxReceiveBuffer - s.bufferedTotal := by
  intro hall
  obtain ⟨s, hrun, hopen, hquiet, hbuf, hbucket⟩ := leak_run
  have hclaim := hall MuxConfig.default true s rfl hrun hopen hquiet
  rw [hbucket, hbuf] at hclaim
  exact absurd hclaim (by decide)

end Mux
end RtProxy
