import RtProxy.Mux.Credit
import Mathlib.Algebra.Order.BigOperators.Group.Finset

/-!
The receive memory of a session.

Whatever a step does to the table, no byte leaves the books: what the bucket has
lost is in the buffer of some stream, listed or not, in a refund under way, or in
the payload the reader has paid for (`Booked`).  The reader starts a frame only on
a positive bucket and spends at most one payload before it looks again
(`Overdraft`), so the bucket never falls by more than one frame below zero.
-/

namespace RtProxy
namespace Mux

open Session

/-! ## Every byte is on the books -/

/-- The bytes stream `r` holds or has still to refund. -/
def Session.held (s : Session) (r : Nat) : Nat :=
  (s.objs r).buffered + (s.handles r).op.owed

def Booked (s : Session) : Prop :=
  s.bucket + (∑ r ∈ Finset.range s.nextRef, s.held r : Nat) + s.reader.spent
    = asI64 s.config.maxReceiveBuffer

namespace Booked

variable {s t : Session} {r : Nat}

/-- A step that moves no byte between the places of a stream. -/
theorem congr (hb : Booked s) (hcfg : t.config = s.config) (hn : t.nextRef = s.nextRef)
    (hobj : ∀ r, (t.objs r).buffered = (s.objs r).buffered)
    (hop : ∀ r, (t.handles r).op.owed = (s.handles r).op.owed)
    (hsum : t.bucket + t.reader.spent = s.bucket + s.reader.spent) : Booked t := by
  have hheld : ∑ r ∈ Finset.range s.nextRef, t.held r = ∑ r ∈ Finset.range s.nextRef, s.held r := by
    refine Finset.sum_congr rfl fun r _ => ?_
    unfold Session.held
    rw [hobj, hop]
  have hold : s.bucket + _ + _ = _ := hb
  show t.bucket + _ + _ = _
  rw [hn, hcfg, hheld]
  generalize asI64 s.config.maxReceiveBuffer = m at hold ⊢
  omega

/-- A step that changes one handle and not what it owes. -/
theorem handle (hb : Booked s) {h : Handle} (hop : h.op.owed = (s.handles r).op.owed)
    (hcfg : t.config = s.config) (hn : t.nextRef = s.nextRef) (hobj : t.objs = s.objs)
    (hh : t.handles = Function.update s.handles r h)
    (hsum : t.bucket + t.reader.spent = s.bucket + s.reader.spent) : Booked t := by
  refine hb.congr hcfg hn (fun i => by rw [hobj]) (fun i => ?_) hsum
  rw [hh]
  by_cases hi : i = r
  · rw [hi, Function.update_self, hop]
  · rw [Function.update_of_ne hi]

/-- A step that touches stream `r` alone and moves bytes between its buffer, its
refund, the bucket and the reader. -/
theorem transfer (hb : Booked s) (hlt : r < s.nextRef) {h : Handle} {st : StreamState}
    (hh : t.handles = Function.update s.handles r h) (hobj : t.objs = Function.update s.objs r st)
    (hcfg : t.config = s.config) (hn : t.nextRef = s.nextRef)
    (hsum : t.bucket + (st.buffered + h.op.owed : Nat) + t.reader.spent
      = s.bucket + ((s.objs r).buffered + (s.handles r).op.owed : Nat) + s.reader.spent) :
    Booked t := by
  have hself : t.held r = st.buffered + h.op.owed := by
    unfold Session.held
    rw [hh, hobj, Function.update_self, Function.update_self]
  have hchange := Finset.sum_range_change (f := s.held) (g := t.held) hlt fun i _ hi => by
    unfold Session.held
    rw [hh, hobj, Function.update_of_ne hi, Function.update_of_ne hi]
  have hold : s.bucket + _ + _ = _ := hb
  rw [← hself] at hsum
  change _ = s.bucket + (s.held r : Int) + _ at hsum
  show t.bucket + _ + _ = _
  rw [hn, hcfg]
  generalize asI64 s.config.maxReceiveBuffer = m at hold ⊢
  omega

/-- A new stream holds nothing. -/
theorem insert (hb : Booked s) {sid : UInt32} {h : Handle} (hop : h.op.owed = 0)
    (hcfg : t.config = s.config) (hbucket : t.bucket = s.bucket) (hn : t.nextRef = s.nextRef + 1)
    (hobj : t.objs = (s.insertStream sid h).objs)
    (hh : t.handles = (s.insertStream sid h).handles)
    (hsp : t.reader.spent = s.reader.spent) : Booked t := by
  have hnew : t.held s.nextRef = 0 := by
    have hobj' : t.objs s.nextRef = StreamState.new sid := by
      rw [hobj]
      exact Function.update_self _ _ _
    have hh' : t.handles s.nextRef = h := by
      rw [hh]
      exact Function.update_self _ _ _
    rw [Session.held, hobj', hh', hop]
    rfl
  have hheld : ∑ r ∈ Finset.range s.nextRef, t.held r = ∑ r ∈ Finset.range s.nextRef, s.held r := by
    refine Finset.sum_congr rfl fun i hi => ?_
    rw [Finset.mem_range] at hi
    have hi' : i ≠ s.nextRef := by omega
    unfold Session.held
    rw [hobj, hh]
    show ((Function.update s.objs _ _) i).buffered + ((Function.update s.handles _ _) i).op.owed = _
    rw [Function.update_of_ne hi', Function.update_of_ne hi']
  have hold : s.bucket + _ + _ = _ := hb
  show t.bucket + _ + _ = _
  rw [hn, Finset.sum_range_succ, hnew, hheld, hbucket, hcfg, hsp]
  exact hold

end Booked

theorem FailStep.books {s t : Session} {pc : FailPc} {next : Option FailPc}
    (h : FailStep s pc t next) :
    t.bucket = s.bucket ∧ ∀ r, (t.objs r).buffered = (s.objs r).buffered := by
  cases h
  all_goals try exact ⟨rfl, fun _ => rfl⟩
  case setDead refs r hr =>
    refine ⟨rfl, fun i => ?_⟩
    show ((Function.update s.objs r (s.objs r).setDead) i).buffered = _
    by_cases hi : i = r
    · rw [hi, Function.update_self]
      rfl
    · rw [Function.update_of_ne hi]

theorem ReaderPc.spent_ofFail (next : Option FailPc) : (ofFail next).spent = 0 := by
  cases next <;> rfl

theorem Step.booked {s t : Session} {l : Label} (h : Step s l t) (hw : Wf s) (hb : Booked s) :
    Booked t := by
  have hzero : ∀ {u : Session}, u.bucket = s.bucket → s.reader.spent = 0 → u.reader.spent = 0 →
      u.bucket + u.reader.spent = s.bucket + s.reader.spent := fun h1 h2 h3 => by
    rw [h1, h2, h3]
  have hlt : ∀ {r : Nat} {op : Op}, (s.handles r).op = op → op.Running → r < s.nextRef :=
    fun h hop => hw.owned.lt_nextRef (by rw [h]; exact hop)
  cases h
  all_goals try exact hb.congr rfl rfl (fun _ => rfl) (fun _ => rfl) rfl
  -- moves of the reader outside a push
  case readerTop h | readerCheckClosed h | readerPark h | readerRecheck h | readerSynCheck h
      | readerHeader h _ _ _ =>
    refine hb.congr rfl rfl (fun _ => rfl) (fun _ => rfl) (hzero rfl (by rw [h]; rfl) ?_)
    dsimp only
    split_ifs <;> rfl
  case readerWake h _ | readerDecodeErr h _ | readerDecodeBody h _ _ | readerBody h _ _ _
      | readerHeaderEof h _ _ | readerBodyEof h _ _ | readerHeaderError h
      | readerBodyError h | readerFinMiss h _ | readerFinHit h _ | readerPshMiss h _
      | readerPshHit h _ | readerAcceptFull h _ _ | readerAcceptWait h _ | readerAcceptRetry h
      | readerAcceptSend h _ _ =>
    exact hb.congr rfl rfl (fun _ => rfl) (fun _ => rfl) (hzero rfl (by rw [h]; rfl) rfl)
  case readerDecodeEmpty h _ _ | readerBodyDone h _ _ _ =>
    exact hb.congr rfl rfl (fun _ => rfl) (fun _ => rfl)
      (hzero rfl (by rw [h]; rfl) (ReaderPc.holds_handleFrame _ _).2)
  case readerAbort _ h =>
    refine hb.congr rfl rfl (fun _ => rfl) (fun _ => rfl) (hzero rfl ?_ rfl)
    rcases h with (h | ⟨buf, h⟩) | ⟨hdr, buf, h⟩ <;> rw [h] <;> rfl
  case readerFinSet r h =>
    have hr : r < s.nextRef := hw.tabled.target r (by rw [h]; rfl)
    refine hb.transfer hr (Function.update_eq_self r s.handles).symm rfl rfl rfl ?_
    rw [h]
    rfl
  case readerFail h hf =>
    refine hb.congr hf.config hf.frame.2.1 hf.books.2 (fun i => by rw [hf.frame.1]) ?_
    exact hzero hf.books.1 (by rw [h]; rfl) (ReaderPc.spent_ofFail _)
  case writerFail h hf | keepFail h hf | closeFail h hf =>
    refine hb.congr hf.config hf.frame.2.1 hf.books.2 (fun i => ?_) ?_
    · exact congrArg (fun hs => (hs i).op.owed) hf.frame.1
    · have hr : ReaderPc.spent _ = ReaderPc.spent _ := congrArg ReaderPc.spent hf.frame.2.2.2.1
      have hbucket := hf.books.1
      exact congrArg₂ (fun (b : Int) (n : Nat) => b + n) hbucket hr
  -- bucket to reader, reader to stream
  case readerPshSpend r data h =>
    refine hb.congr rfl rfl (fun _ => rfl) (fun _ => rfl) ?_
    rw [h]
    show s.bucket - data.length + (data.length : Int) = s.bucket + 0
    omega
  case readerPshPush r data h =>
    have hr : r < s.nextRef := hw.tabled.target r (by rw [h]; rfl)
    refine hb.transfer hr (Function.update_eq_self r s.handles).symm rfl rfl rfl ?_
    rw [h]
    show s.bucket + ((s.objs r).buffered + data.length + _ : Nat) + 0
      = s.bucket + ((s.objs r).buffered + _ : Nat) + (data.length : Int)
    push_cast
    ring
  -- insertions
  case readerSynInsert sid h => exact hb.insert rfl rfl rfl rfl rfl rfl (by rw [h]; rfl)
  case openInsert k sid h => exact hb.insert rfl rfl rfl rfl rfl rfl rfl
  -- a handle changes hands
  case readerAcceptClosed r h _ | readerAcceptGiveUp r h _ | readerAbortAccept r _ h =>
    have hq := hw.owned.queued r (by rw [h]; exact List.mem_append_right _ (List.mem_singleton_self r))
    exact hb.handle (by rw [hq]; rfl) rfl rfl rfl rfl (by rw [h]; rfl)
  case acceptStream r rest h =>
    have hq := hw.owned.queued r (by rw [h]; exact List.mem_append_left _ List.mem_cons_self)
    exact hb.handle (by rw [hq]; rfl) rfl rfl rfl rfl rfl
  case dropReceiver k h =>
    refine hb.congr rfl rfl (fun _ => rfl) (fun i => ?_) rfl
    by_cases hi : i ∈ s.acceptQueue
    · have hq := hw.owned.queued i (List.mem_append_left _ hi)
      simp only [hi, if_true]
      rw [hq]
      rfl
    · simp only [hi, if_false]
  case openAlloc k u sid h ha =>
    obtain ⟨-, -, rfl⟩ := Session.allocId_eq_some ha
    exact hb.congr rfl rfl (fun _ => rfl) (fun _ => rfl) rfl
  case openAllocErr k u h ha =>
    obtain rfl := Session.allocId_eq_none ha
    exact hb.congr rfl rfl (fun _ => rfl) (fun _ => rfl) rfl
  case openPush k r seq q h hq =>
    have hv := (hw.owned.opening k r (by rw [h]; rfl)).2
    exact hb.handle (by rw [hv]; rfl) rfl rfl rfl rfl rfl
  -- calls on a stream that move no byte
  case callRead h | callFlush h | callWrite h _ _ | writePush h _ | writePushErr h _
      | shutClosed h _ | shutOpen h _ | dropRemove h _ | dropMissing h _ =>
    exact hb.handle (by rw [h]; rfl) rfl rfl rfl rfl rfl
  case callShutdown h | callDrop h | writeClosed h | writeDead h =>
    refine hb.handle ?_ rfl rfl rfl rfl rfl
    rw [h]
    split_ifs <;> rfl
  case writeReserve h =>
    refine hb.handle ?_ rfl rfl rfl rfl rfl
    rw [h]
    split <;> rfl
  case streamFlush h =>
    rcases h with h | h <;> exact hb.handle (by rw [h]; rfl) rfl rfl rfl rfl rfl
  case sendFin h _ | sendFinErr h _ =>
    rcases h with ⟨cx, h, rfl⟩ | ⟨h, rfl⟩ <;> exact hb.handle (by rw [h]; rfl) rfl rfl rfl rfl rfl
  case refundNone r d h | refundNotify r d h =>
    refine hb.handle ?_ rfl rfl rfl rfl rfl
    rw [h]
    cases d <;> rfl
  -- a refund, a read and the end of a `Drop`
  case streamRead r cap cx h =>
    have hacc := Handle.account_afterRead (s.handles r) ((s.objs r).pollRead s.closed cap cx).2
    have hbuf := (s.objs r).buffered_pollRead s.closed cap cx
    refine hb.transfer (hlt h ⟨nofun, nofun⟩) rfl rfl rfl rfl ?_
    rw [hacc.2.2, h, ← hbuf]
    rfl
  case refundAdd r n d h hn =>
    have howed : (if s.bucket ≤ 0 ∧ s.bucket + n > 0 then Op.refundNotify d
        else .afterRefund d).owed = 0 := by
      split_ifs
      · rfl
      · cases d <;> rfl
    refine hb.transfer (hlt h ⟨nofun, nofun⟩) rfl (Function.update_eq_self r s.objs).symm rfl rfl ?_
    rw [howed, h]
    show s.bucket + n + (((s.objs r).buffered + 0 : Nat) : Int) + s.reader.spent
      = s.bucket + (((s.objs r).buffered + n : Nat) : Int) + s.reader.spent
    push_cast
    ring
  case dropRecycle r h =>
    refine hb.transfer (hlt h ⟨nofun, nofun⟩) rfl rfl rfl rfl ?_
    rw [h]
    show s.bucket + ((0 + (s.objs r).buffered : Nat) : Int) + s.reader.spent
      = s.bucket + (((s.objs r).buffered + 0 : Nat) : Int) + s.reader.spent
    rw [Nat.zero_add, Nat.add_zero]

/-! ## The bucket falls by at most one payload -/

/-- The reader has seen a positive bucket and spent nothing since. -/
def ReaderPc.armed : ReaderPc → Bool
  | .header _ | .decoded _ | .body _ _ | .pshLookup _ _ | .pshSpend _ _ => true
  | _ => false

/-- The payload the reader may be about to spend. -/
def ReaderPc.payload : ReaderPc → Option Bytes
  | .pshLookup _ data | .pshSpend _ data => some data
  | _ => none

structure Overdraft (s : Session) : Prop where
  armed : s.reader.armed = true → 0 < s.bucket
  payload : ∀ data, s.reader.payload = some data → data.length ≤ 65535
  floor : -65535 < s.bucket

theorem want_le (hdr : MuxHeader) : want hdr ≤ 65535 := by
  have hlt := hdr.length.toNat_lt
  unfold want UPD_SIZE
  split_ifs <;> omega

namespace Overdraft

variable {s t : Session}

/-- A step of another thread never takes from the bucket. -/
theorem other (ho : Overdraft s) (hr : t.reader = s.reader) (hb : s.bucket ≤ t.bucket) :
    Overdraft t := by
  refine ⟨fun h => ?_, fun data h => ?_, ?_⟩
  · rw [hr] at h
    exact Int.lt_of_lt_of_le (ho.armed h) hb
  · rw [hr] at h
    exact ho.payload data h
  · exact Int.lt_of_lt_of_le ho.floor hb

/-- A move of the reader outside a frame. -/
theorem rest (ho : Overdraft s) (hb : t.bucket = s.bucket)
    (hr : t.reader.armed = false ∧ t.reader.payload = none) : Overdraft t := by
  refine ⟨fun h => ?_, fun data h => ?_, ?_⟩
  · rw [hr.1] at h
    cases h
  · rw [hr.2] at h
    cases h
  · rw [hb]
    exact ho.floor

/-- A move of the reader inside a frame. -/
theorem move (ho : Overdraft s) (hold : s.reader.armed = true) (hb : t.bucket = s.bucket)
    (hr : ∀ data, t.reader.payload = some data → data.length ≤ 65535) : Overdraft t := by
  refine ⟨fun _ => ?_, hr, ?_⟩
  · rw [hb]
    exact ho.armed hold
  · rw [hb]
    exact ho.floor

theorem payload_handleFrame {hdr : MuxHeader} {data : Bytes} (h : data.length ≤ 65535)
    (data' : Bytes) (h' : (handleFrame hdr data).payload = some data') : data'.length ≤ 65535 := by
  unfold handleFrame at h'
  split_ifs at h' <;> cases h'
  exact h

end Overdraft

theorem ReaderPc.rest_ofFail (next : Option FailPc) :
    (ofFail next).armed = false ∧ (ofFail next).payload = none := by
  cases next <;> exact ⟨rfl, rfl⟩

theorem Step.overdraft {s t : Session} {l : Label} (h : Step s l t) (ho : Overdraft s) :
    Overdraft t := by
  cases h
  all_goals try exact ho.other rfl (Int.le_refl _)
  all_goals try exact ho.rest rfl ⟨rfl, rfl⟩
  case readerTop h =>
    by_cases hpos : s.bucket ≤ 0
    · refine ho.rest rfl ?_
      rw [if_pos hpos]
      exact ⟨rfl, rfl⟩
    · refine ⟨fun _ => Int.not_le.mp hpos, fun data hd => ?_, ho.floor⟩
      rw [if_neg hpos] at hd
      cases hd
  case readerCheckClosed | readerPark | readerRecheck | readerSynCheck =>
    refine ho.rest rfl ?_
    dsimp only
    split_ifs <;> exact ⟨rfl, rfl⟩
  case readerHeader h _ _ _ =>
    refine ho.move (by rw [h]; rfl) rfl fun data hd => ?_
    dsimp only at hd
    split_ifs at hd <;> cases hd
  case readerDecodeBody h _ _ | readerBody h _ _ _ =>
    exact ho.move (by rw [h]; rfl) rfl fun data hd => nomatch hd
  case readerDecodeEmpty h _ _ =>
    exact ho.move (by rw [h]; rfl) rfl (Overdraft.payload_handleFrame (Nat.zero_le _))
  case readerBodyDone hdr buf k h hk hbuf hin =>
    refine ho.move (by rw [h]; rfl) rfl (Overdraft.payload_handleFrame ?_)
    rw [List.length_append, List.length_take, Nat.min_eq_left hin, hbuf]
    exact want_le hdr
  case readerPshHit sid data r h hs =>
    refine ho.move (by rw [h]; rfl) rfl fun data' hd => ?_
    obtain rfl := Option.some.inj hd
    exact ho.payload _ (by rw [h]; rfl)
  case readerPshSpend r data h =>
    have hpos := ho.armed (by rw [h]; rfl)
    have hlen := ho.payload data (by rw [h]; rfl)
    refine ⟨nofun, nofun, ?_⟩
    show -65535 < s.bucket - data.length
    omega
  case readerFail hf => exact ho.rest hf.books.1 (ReaderPc.rest_ofFail _)
  case writerFail hf | keepFail hf | closeFail hf =>
    exact ho.other hf.frame.2.2.2.1 (Int.le_of_eq hf.books.1.symm)
  case openAlloc ha =>
    obtain ⟨-, -, rfl⟩ := Session.allocId_eq_some ha
    exact ho.other rfl (Int.le_refl _)
  case openAllocErr ha =>
    obtain rfl := Session.allocId_eq_none ha
    exact ho.other rfl (Int.le_refl _)
  case refundAdd r n d h hn =>
    refine ho.other rfl ?_
    show s.bucket ≤ s.bucket + n
    omega

/-! ## Whole runs -/

theorem booked_new (config : MuxConfig) (isClient : Bool) : Booked (Session.new config isClient) := by
  show asI64 config.maxReceiveBuffer + ((∑ r ∈ Finset.range 0, _ : Nat) : Int) + ((0 : Nat) : Int)
    = asI64 config.maxReceiveBuffer
  rw [Finset.sum_range_zero]
  generalize asI64 _ = m
  omega

open Transition in
/-- In every state of every run the bucket is above -65536, and the streams of the
table hold at most one frame more than the configured buffer less one byte. -/
theorem receive_memory_bounded {config : MuxConfig} {isClient : Bool} {s : Session}
    (hcfg : config.verify = .ok ()) (hmax : config.maxReceiveBuffer ≤ 2 ^ 63 - 1)
    (hrun : Reaches Step anyStep (Session.new config isClient) s) :
    -65536 < s.bucket ∧ s.bufferedTotal ≤ config.maxReceiveBuffer - 1 + 65535 := by
  have hpos := (MuxConfig.valid_of_verify hcfg).maxReceiveBuffer_pos
  have hi64 : asI64 config.maxReceiveBuffer = config.maxReceiveBuffer := asI64_of_lt (by omega)
  have hfloor : -65535 < (Session.new config isClient).bucket := by
    show -65535 < asI64 config.maxReceiveBuffer
    rw [hi64]
    omega
  obtain ⟨-, hconfig, hb, ho⟩ : Wf s ∧ s.config = config ∧ Booked s ∧ Overdraft s := by
    refine hrun.invariant (I := fun s => Wf s ∧ s.config = config ∧ Booked s ∧ Overdraft s)
      ⟨wf_new config isClient, rfl, booked_new config isClient, nofun, nofun, hfloor⟩ ?_
    rintro s l t ⟨hw, hconfig, hb, ho⟩ - hstep
    exact ⟨hstep.wf hw, hstep.config.trans hconfig, hstep.booked hw hb, hstep.overdraft ho⟩
  have hle : s.bufferedTotal ≤ ∑ r ∈ Finset.range s.nextRef, s.held r := by
    apply Finset.sum_le_sum
    intro r _
    unfold Session.held
    split_ifs <;> omega
  have hsum : s.bucket + _ + _ = _ := hb
  have hlow := ho.floor
  rw [hconfig, hi64] at hsum
  constructor <;> omega

open Transition in
/-- The bound holds after one byte has been pushed on one stream. -/
theorem receive_memory_bounded_one_push :
    ∃ s, Reaches Step anyStep (Session.new MuxConfig.default true) s ∧ s.bufferedTotal = 1
      ∧ -65536 < s.bucket ∧ s.bufferedTotal ≤ 4194304 - 1 + 65535 := by
  obtain ⟨s, hrun, -, -, hbuf⟩ := one_push_run
  have hany : Reaches Step anyStep (Session.new MuxConfig.default true) s :=
    hrun.mono fun _ _ _ => trivial
  exact ⟨s, hany, hbuf, receive_memory_bounded rfl (by decide) hany⟩

end Mux
end RtProxy
