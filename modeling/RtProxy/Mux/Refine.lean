import RtProxy.Mux.Wf
import RtProxy.Mux.Protocol

/-!
A session is a peer of the protocol.

`Session.peer` forgets the buffers, the locks and the tasks of a session and
keeps what the protocol speaks of; `Step.peer` says that every step of a session
is then one step of the peer.
-/

namespace RtProxy
namespace Mux

/-- The message a consumed frame stands for; NOP and UPD say nothing. -/
def msgOf (hdr : MuxHeader) (data : Bytes) : Option Msg :=
  if hdr.cmd = CMD_SYN then some (.syn hdr.sid)
  else if hdr.cmd = CMD_FIN then some (.fin hdr.sid)
  else if hdr.cmd = CMD_PSH then some (.psh hdr.sid data)
  else none

/-- The message a frame of the data lane stands for. -/
def MuxFrame.msg (f : MuxFrame) : Msg :=
  if f.cmd = CMD_SYN then .syn f.sid
  else if f.cmd = CMD_FIN then .fin f.sid
  else .psh f.sid f.data

def OpenPc.view : OpenPc → Opening
  | .insert sid => .insert sid
  | .pushSyn r => .pushSyn r
  | _ => .none

/-- The SYN the reader is processing. -/
def ReaderPc.syn : ReaderPc → Option UInt32
  | .synCheck sid | .synInsert sid => some sid
  | _ => none

/-- What the protocol sees of a handle. -/
def Handle.view (h : Handle) : Bool × Bytes × Bool := (h.op ≠ .absent, h.put, h.finSent)

namespace Session

def peer (par : Nat) (s : Session) : Peer :=
  { par := par
    next := s.nextStreamId
    «over» := s.goAway
    opens := fun k => (s.opens k).view
    count := s.nextRef
    ids := fun r => (s.objs r).id
    given := fun r => (s.handles r).view.1
    put := fun r => (s.handles r).view.2.1
    fin := fun r => (s.handles r).view.2.2
    syn := s.reader.syn
    sent := s.sent.map fun x => (x.1, x.2.msg)
    parsed := s.parsed.filterMap fun x => msgOf x.1 x.2 }

variable {s t : Session} {par : Nat}

/-- Two sessions that agree on what the protocol sees are the same peer. -/
theorem peer_congr (hnext : t.nextStreamId = s.nextStreamId) (hover : t.goAway = s.goAway)
    (hopens : ∀ k, (t.opens k).view = (s.opens k).view) (hcount : t.nextRef = s.nextRef)
    (hids : ∀ r, (t.objs r).id = (s.objs r).id)
    (hview : ∀ r, (t.handles r).view = (s.handles r).view) (hsyn : t.reader.syn = s.reader.syn)
    (hsent : t.sent = s.sent) (hparsed : t.parsed = s.parsed) : t.peer par = s.peer par := by
  unfold peer
  simp only [hnext, hover, hopens, hcount, hids, hview, hsyn, hsent, hparsed]

/-- A change of one handle that the protocol does not see. -/
theorem view_setHandle {r : Nat} {h : Handle} (hv : h.view = (s.handles r).view) (i : Nat) :
    ((s.setHandle r h).handles i).view = (s.handles i).view := by
  by_cases hi : i = r
  · subst hi
    rw [handles_setHandle_self, hv]
  · rw [handles_setHandle_of_ne _ _ hi]

end Session

/-- The calls that find the write side of their stream open. -/
def Op.openEnd : Op → Bool
  | .queued | .writeClosed _ _ | .writeDead _ _ | .writeReserve _ _ | .writePush _
  | .shutClosed _ | .shutFin _ | .dropFin => true
  | _ => false

/-- `fin_sent` is checked before a write, a shutdown or a drop sends anything, and
no other call can set it in between. -/
def Unfinished (s : Session) : Prop := ∀ r, (s.handles r).op.openEnd = true →
  (s.handles r).finSent = false

theorem Unfinished.setHandle {s t : Session} (hu : Unfinished s) {r : Nat} {h : Handle}
    (hh : t.handles = Function.update s.handles r h)
    (hfin : h.op.openEnd = true → h.finSent = false) : Unfinished t := by
  intro i hi
  rw [hh] at hi ⊢
  by_cases hir : i = r
  · subst hir
    rw [Function.update_self] at hi ⊢
    exact hfin hi
  · rw [Function.update_of_ne hir] at hi ⊢
    exact hu i hi

theorem Unfinished.congr {s t : Session} (hu : Unfinished s) (hh : t.handles = s.handles) :
    Unfinished t := by
  intro r hr
  rw [hh] at hr ⊢
  exact hu r hr

theorem Step.unfinished {s t : Session} {l : Label} (h : Step s l t) (hw : Wf s)
    (hu : Unfinished s) : Unfinished t := by
  cases h
  all_goals try exact hu
  case readerFail hf | writerFail hf | keepFail hf | closeFail hf => exact hu.congr hf.frame.1
  case openAlloc ha =>
    obtain ⟨-, -, rfl⟩ := Session.allocId_eq_some ha
    exact hu
  case openAllocErr ha =>
    obtain rfl := Session.allocId_eq_none ha
    exact hu
  case readerSynInsert | openInsert | openPush => exact hu.setHandle rfl fun _ => rfl
  case readerAcceptClosed r h _ | readerAcceptGiveUp r h _ | readerAbortAccept r _ h =>
    have hmem : r ∈ s.acceptQueue ++ s.reader.handover := by
      rw [h]
      exact List.mem_append_right _ (List.mem_singleton_self r)
    exact hu.setHandle rfl fun _ => hu r (by rw [hw.owned.queued r hmem]; rfl)
  case dropReceiver k h =>
    intro i hi
    dsimp only at hi ⊢
    by_cases hmem : i ∈ s.acceptQueue
    · rw [if_pos hmem]
      exact hu i (by rw [hw.owned.queued i (List.mem_append_left _ hmem)]; rfl)
    · rw [if_neg hmem] at hi ⊢
      exact hu i hi
  -- calls that end, or that send nothing
  case acceptStream | callRead | writePush | writePushErr | callFlush | streamFlush | shutClosed
      | dropRemove | dropMissing | dropRecycle =>
    exact hu.setHandle rfl fun hx => absurd hx nofun
  case refundNone r d _ | refundNotify r d _ =>
    refine hu.setHandle rfl fun hx => ?_
    cases d <;> cases hx
  case refundAdd r n d _ _ =>
    refine hu.setHandle rfl fun hx => ?_
    dsimp only at hx
    split_ifs at hx <;> cases d <;> cases hx
  case streamRead r cap cx h =>
    refine hu.setHandle rfl fun hx => ?_
    cases hout : ((s.objs r).pollRead s.closed cap cx).2 <;> rw [hout] at hx <;> cases hx
  -- the calls between the check of `fin_sent` and what it guards
  case callWrite hfin => exact hu.setHandle rfl fun _ => hfin
  case callShutdown r cx h | callDrop r h =>
    refine hu.setHandle rfl fun hx => ?_
    dsimp only at hx ⊢
    split_ifs at hx with hfin
    · exact absurd hx nofun
    · simpa using hfin
  case writeClosed r buf cx h | writeDead r buf cx h | writeReserve r buf cx h | shutOpen r cx h _ =>
    exact hu.setHandle rfl fun _ => hu r (by rw [h]; rfl)
  case sendFin h _ | sendFinErr h _ =>
    rcases h with ⟨cx, -, rfl⟩ | ⟨-, rfl⟩ <;> exact hu.setHandle rfl fun hx => absurd hx nofun

/-! ## Simulation -/

theorem PeerStep.cast {p p' p'' : Peer} (h : PeerStep p p'') (he : p' = p'') : PeerStep p p' :=
  he ▸ h

theorem PeerStep.of_eq {p p' : Peer} (he : p' = p) : PeerStep p p' := PeerStep.idle.cast he

/-- A function of a slot of an updated table. -/
theorem comp_update {α β : Type} (f : α → β) (g : Nat → α) (k : Nat) (a : α) :
    (fun i => f (Function.update g k a i)) = Function.update (fun i => f (g i)) k (f a) :=
  Function.comp_update f g k a

/-- An update that changes nothing of what is seen. -/
theorem comp_update_self {α β : Type} (f : α → β) (g : Nat → α) (k : Nat) {a : α}
    (h : f a = f (g k)) : (fun i => f (Function.update g k a i)) = fun i => f (g i) := by
  rw [comp_update, h, Function.update_eq_self]

namespace Session

variable {s t : Session} {par : Nat}

/-- A step of a stream that sends nothing and does not close its write side. -/
theorem peer_stream {r : Nat} {h : Handle} (hh : t.handles = Function.update s.handles r h)
    (hv : h.view = (s.handles r).view) (hnext : t.nextStreamId = s.nextStreamId)
    (hover : t.goAway = s.goAway) (hopens : t.opens = s.opens) (hcount : t.nextRef = s.nextRef)
    (hids : ∀ r, (t.objs r).id = (s.objs r).id) (hr : t.reader = s.reader)
    (hsent : t.sent = s.sent) (hparsed : t.parsed = s.parsed) : t.peer par = s.peer par := by
  refine peer_congr hnext hover (fun k => by rw [hopens]) hcount hids (fun i => ?_) (by rw [hr])
    hsent hparsed
  rw [hh]
  exact view_setHandle hv i

/-- A move of the reader that processes no SYN. -/
theorem peer_reader (hnext : t.nextStreamId = s.nextStreamId) (hover : t.goAway = s.goAway)
    (hopens : t.opens = s.opens) (hcount : t.nextRef = s.nextRef)
    (hids : ∀ r, (t.objs r).id = (s.objs r).id) (hh : t.handles = s.handles)
    (hold : s.reader.syn = none) (hnew : t.reader.syn = none)
    (hsent : t.sent = s.sent) (hparsed : t.parsed = s.parsed) : t.peer par = s.peer par :=
  peer_congr hnext hover (fun k => by rw [hopens]) hcount hids (fun r => by rw [hh])
    (hnew.trans hold.symm) hsent hparsed

theorem peer_setOpen (k : Nat) (pc : OpenPc) :
    (s.setOpen k pc).peer par
      = { s.peer par with opens := Function.update (s.peer par).opens k pc.view } := by
  unfold peer setOpen
  rw [comp_update OpenPc.view]

/-- The same, for a call that has no stream before or after. -/
theorem peer_setOpen_of_eq {k : Nat} {pc : OpenPc} (h : pc.view = (s.opens k).view) :
    (s.setOpen k pc).peer par = s.peer par := by
  unfold peer setOpen
  rw [comp_update_self OpenPc.view _ _ h]

theorem syn_handleFrame (hdr : MuxHeader) (data : Bytes) :
    (handleFrame hdr data).syn = (msgOf hdr data).bind Msg.opens := by
  unfold handleFrame msgOf
  split_ifs <;> rfl

/-- Consuming a frame is consuming its message, if it has one. -/
theorem peer_consume {u : Session} (hu : u.peer par = s.peer par) (hold : s.reader.syn = none)
    (hdr : MuxHeader) (data : Bytes) :
    PeerStep (s.peer par) ((u.consume hdr data).peer par) := by
  have hsyn : (u.peer par).syn = none := by
    rw [hu]
    exact hold
  have hpeer : (u.consume hdr data).peer par
      = { u.peer par with
          parsed := (u.peer par).parsed ++ (msgOf hdr data).toList
          syn := (msgOf hdr data).bind Msg.opens } := by
    unfold consume peer
    dsimp only
    rw [syn_handleFrame, List.filterMap_append]
    congr 2
  rw [hpeer, hu]
  cases msgOf hdr data with
  | none =>
    refine .of_eq ?_
    rw [← hu]
    cases hp : u.peer par
    rw [hp] at hsyn
    cases hsyn
    simp
  | some m => exact .consume m hold

end Session

theorem ReaderPc.syn_ofFail (next : Option FailPc) : (ofFail next).syn = none := by
  cases next <;> rfl

theorem FailStep.peer_frame {s t : Session} {pc : FailPc} {next : Option FailPc}
    (h : FailStep s pc t next) :
    t.nextStreamId = s.nextStreamId ∧ t.goAway = s.goAway ∧ t.sent = s.sent
      ∧ t.parsed = s.parsed := by
  cases h <;> exact ⟨rfl, rfl, rfl, rfl⟩

/-- The protocol does not see where a handle that has been given away stands. -/
theorem Handle.view_op {h h' : Handle} (hop : h.op ≠ .absent) (hop' : h'.op ≠ .absent)
    (hput : h'.put = h.put) (hfin : h'.finSent = h.finSent) : h'.view = h.view := by
  unfold view
  rw [hput, hfin, decide_eq_true hop, decide_eq_true hop']

/-- The handle of a running call has been given away. -/
theorem Session.given_of_op {s : Session} {r par : Nat} {op : Op} (h : (s.handles r).op = op)
    (hop : op ≠ .absent) : (s.peer par).given r = true := by
  show decide ((s.handles r).op ≠ .absent) = true
  rw [h]
  exact decide_eq_true hop

/-- A step of a stream that has been given away may write and may close. -/
theorem Session.peer_written {s t : Session} {r par : Nat} {h : Handle} {put : Nat → Bytes}
    {fin : Nat → Bool} {sent : List (Nat × Msg)}
    (hh : t.handles = Function.update s.handles r h)
    (hop : (s.handles r).op ≠ .absent) (hop' : h.op ≠ .absent)
    (hput : Function.update (s.peer par).put r h.put = put)
    (hfin : Function.update (s.peer par).fin r h.finSent = fin)
    (hsent : t.sent.map (fun x => (x.1, x.2.msg)) = sent)
    (hrest : ({ t with handles := s.handles, sent := s.sent } : Session).peer par = s.peer par) :
    t.peer par = { s.peer par with put := put, fin := fin, sent := sent } := by
  have hgiven : h.view.1 = (s.handles r).view.1 := by
    unfold Handle.view
    rw [decide_eq_true hop, decide_eq_true hop']
  rw [← hput, ← hfin, ← hsent, ← hrest]
  unfold Session.peer
  dsimp only
  rw [hh, comp_update_self (fun x : Handle => x.view.1) _ _ hgiven,
    comp_update (fun x : Handle => x.view.2.1), comp_update (fun x : Handle => x.view.2.2)]
  rfl

theorem Step.peer {s t : Session} {l : Label} (h : Step s l t) (hw : Wf s) (hu : Unfinished s)
    (par : Nat) : PeerStep (s.peer par) (t.peer par) := by
  have hsame : ∀ r, (s.objs r).id = (s.objs r).id := fun _ => rfl
  cases h
  all_goals try exact .idle
  -- moves of the reader that process no SYN
  case readerTop h | readerCheckClosed h | readerPark h | readerRecheck h =>
    refine .of_eq (Session.peer_reader rfl rfl rfl rfl hsame rfl (by rw [h]; rfl) ?_ rfl rfl)
    dsimp only
    split_ifs <;> rfl
  case readerHeader h _ _ _ =>
    refine .of_eq (Session.peer_reader rfl rfl rfl rfl hsame rfl (by rw [h]; rfl) ?_ rfl rfl)
    dsimp only
    split_ifs <;> rfl
  case readerWake h _ | readerDecodeErr h _ | readerDecodeBody h _ _ | readerBody h _ _ _
      | readerHeaderEof h _ _ | readerBodyEof h _ _ | readerHeaderError h
      | readerBodyError h | readerFinMiss h _ | readerFinHit h _ | readerPshMiss h _
      | readerPshHit h _ | readerPshSpend h | readerAcceptFull h _ _ | readerAcceptWait h _
      | readerAcceptRetry h | readerAcceptSend h _ _ =>
    exact .of_eq (Session.peer_reader rfl rfl rfl rfl hsame rfl (by rw [h]; rfl) rfl rfl rfl)
  case readerFinSet h | readerPshPush h =>
    exact .of_eq (Session.peer_reader rfl rfl rfl rfl (Tabled.id_setObj rfl) rfl (by rw [h]; rfl)
      rfl rfl rfl)
  case readerAbort _ h =>
    refine .of_eq (Session.peer_reader rfl rfl rfl rfl hsame rfl ?_ rfl rfl rfl)
    rcases h with (h | ⟨buf, h⟩) | ⟨hdr, buf, h⟩ <;> rw [h] <;> rfl
  case readerFail h hf =>
    obtain ⟨hh, hn, -, -, hopen⟩ := hf.frame
    obtain ⟨hnext, hover, hsent, hparsed⟩ := hf.peer_frame
    exact .of_eq (Session.peer_reader hnext hover hopen hn hf.table.2 hh (by rw [h]; rfl)
      (ReaderPc.syn_ofFail _) hsent hparsed)
  case writerFail h hf | keepFail h hf | closeFail h hf =>
    obtain ⟨hh, hn, -, hr, hopen⟩ := hf.frame
    obtain ⟨hnext, hover, hsent, hparsed⟩ := hf.peer_frame
    exact .of_eq (Session.peer_congr hnext hover
      (fun k => congrArg (fun o => (o k).view) hopen) hn hf.table.2
      (fun r => congrArg (fun f => (f r).view) hh) (congrArg _ hr) hsent hparsed)
  case readerDecodeEmpty h _ _ | readerBodyDone h _ _ _ =>
    exact Session.peer_consume rfl (by rw [h]; rfl) _ _
  -- a SYN, and the streams it makes
  case readerSynCheck sid h =>
    by_cases hs : (s.streams sid).isSome
    · rw [if_pos hs]
      exact .skipSyn
    · rw [if_neg hs]
      refine .of_eq (Session.peer_congr rfl rfl (fun _ => rfl) rfl hsame (fun _ => rfl) ?_ rfl rfl)
      rw [h]
      rfl
  case readerSynInsert sid h =>
    have hvac := hw.owned.vacant s.nextRef (Nat.le_refl _)
    refine (PeerStep.insertSyn (p := s.peer par) (by rw [Session.peer, h]; rfl)).cast ?_
    unfold Session.peer Session.insertStream Session.setReader
    dsimp only
    rw [comp_update StreamState.id, comp_update (fun x : Handle => x.view.1),
      comp_update_self (fun x : Handle => x.view.2.1) _ _ (by rw [hvac]; rfl),
      comp_update_self (fun x : Handle => x.view.2.2) _ _ (by rw [hvac]; rfl)]
    rfl
  case readerAcceptClosed r h _ | readerAcceptGiveUp r h _ | readerAbortAccept r _ h =>
    have hmem : r ∈ s.acceptQueue ++ s.reader.handover := by
      rw [h]
      exact List.mem_append_right _ (List.mem_singleton_self r)
    have hq := hw.owned.queued r hmem
    refine .of_eq (Session.peer_congr rfl rfl (fun _ => rfl) rfl hsame (Session.view_setHandle ?_)
      (by rw [h]; rfl) rfl rfl)
    unfold Handle.view
    rw [hq]
    rfl
  case acceptStream r rest h =>
    have hq := hw.owned.queued r (by rw [h]; exact List.mem_append_left _ List.mem_cons_self)
    refine .of_eq (Session.peer_stream rfl ?_ rfl rfl rfl rfl hsame rfl rfl rfl)
    unfold Handle.view
    rw [hq]
    rfl
  case dropReceiver k h =>
    refine .of_eq (Session.peer_congr rfl rfl (fun _ => rfl) rfl hsame (fun i => ?_) rfl rfl rfl)
    dsimp only
    by_cases hi : i ∈ s.acceptQueue
    · rw [if_pos hi]
      unfold Handle.view
      rw [hw.owned.queued i (List.mem_append_left _ hi)]
      rfl
    · rw [if_neg hi]
  -- `open_stream`
  case openStart k h | openGoAway k h =>
    refine .of_eq (Session.peer_setOpen_of_eq ?_)
    rw [h]
    split_ifs <;> rfl
  case openAlloc k u sid h ha =>
    obtain ⟨rfl, hwrap, rfl⟩ := Session.allocId_eq_some ha
    refine (PeerStep.alloc (p := s.peer par) (k := k) ?_ hwrap).cast ?_
    · show (s.opens k).view = _
      rw [h]
      rfl
    · rw [Session.peer_setOpen]
      rfl
  case openAllocErr k u h ha =>
    obtain rfl := Session.allocId_eq_none ha
    refine (PeerStep.exhaust (p := s.peer par)).cast ?_
    rw [Session.peer_setOpen_of_eq]
    · rfl
    · show _ = (s.opens k).view
      rw [h]
      rfl
  case openInsert k sid h =>
    have hvac := hw.owned.vacant s.nextRef (Nat.le_refl _)
    have hop : (s.peer par).opens k = .insert sid := by
      show (s.opens k).view = _
      rw [h]
      rfl
    refine (PeerStep.insertOpen (p := s.peer par) hop).cast ?_
    rw [Session.peer_setOpen]
    unfold Session.peer Session.insertStream
    dsimp only
    rw [comp_update StreamState.id,
      comp_update_self (fun x : Handle => x.view.1) _ _ (by rw [hvac]),
      comp_update_self (fun x : Handle => x.view.2.1) _ _ (by rw [hvac]),
      comp_update_self (fun x : Handle => x.view.2.2) _ _ (by rw [hvac])]
    rfl
  case openPush k r seq q h hq =>
    have hvac := (hw.owned.opening k r (by rw [h]; rfl)).2
    have hop : (s.peer par).opens k = .pushSyn r := by
      show (s.opens k).view = _
      rw [h]
      rfl
    have hgiven : (s.peer par).given r = false := by
      show (s.handles r).view.1 = false
      rw [hvac]
      rfl
    refine (PeerStep.pushSyn (p := s.peer par) hop hgiven).cast ?_
    rw [Session.peer_setOpen]
    unfold Session.peer Session.setHandle Session.pushData
    dsimp only
    rw [comp_update (fun x : Handle => x.view.1),
      comp_update_self (fun x : Handle => x.view.2.1) _ _ (by rw [hvac]; rfl),
      comp_update_self (fun x : Handle => x.view.2.2) _ _ (by rw [hvac]; rfl), List.map_append]
    rfl
  case openPushErr k r e h hq =>
    have hop : (s.peer par).opens k = .pushSyn r := by
      show (s.opens k).view = _
      rw [h]
      rfl
    refine (PeerStep.unwind (p := s.peer par) hop).cast ?_
    rw [Session.peer_setOpen]
    rfl
  case openUnwind k r h =>
    refine .of_eq ?_
    rw [Session.peer_setOpen_of_eq]
    · rfl
    · show _ = (s.opens k).view
      rw [h]
      rfl
  -- calls on a stream that send nothing
  case callRead h | callFlush h | callWrite h _ _ | writePushErr h _ | shutOpen h _
      | dropRemove h _ | dropMissing h _ =>
    exact .of_eq (Session.peer_stream rfl (Handle.view_op (by rw [h]; exact nofun) nofun rfl rfl)
      rfl rfl rfl rfl hsame rfl rfl rfl)
  case callShutdown h | callDrop h | writeClosed h | writeDead h =>
    refine .of_eq (Session.peer_stream rfl (Handle.view_op (by rw [h]; exact nofun) ?_ rfl rfl)
      rfl rfl rfl rfl hsame rfl rfl rfl)
    dsimp only
    split_ifs <;> exact nofun
  case writeReserve h =>
    refine .of_eq (Session.peer_stream rfl (Handle.view_op (by rw [h]; exact nofun) ?_ rfl rfl)
      rfl rfl rfl rfl hsame rfl rfl rfl)
    dsimp only
    split <;> exact nofun
  case refundNone r d h | refundNotify r d h =>
    refine .of_eq (Session.peer_stream rfl (Handle.view_op (by rw [h]; exact nofun) ?_ rfl rfl)
      rfl rfl rfl rfl hsame rfl rfl rfl)
    cases d <;> exact nofun
  case refundAdd r n d h _ =>
    refine .of_eq (Session.peer_stream rfl (Handle.view_op (by rw [h]; exact nofun) ?_ rfl rfl)
      rfl rfl rfl rfl hsame rfl rfl rfl)
    dsimp only
    split_ifs <;> cases d <;> exact nofun
  case streamFlush h =>
    rcases h with h | h <;>
      exact .of_eq (Session.peer_stream rfl (Handle.view_op (by rw [h]; exact nofun) nofun rfl rfl)
        rfl rfl rfl rfl hsame rfl rfl rfl)
  case dropRecycle h =>
    exact .of_eq (Session.peer_stream rfl (Handle.view_op (by rw [h]; exact nofun) nofun rfl rfl)
      rfl rfl rfl rfl (Tabled.id_setObj rfl) rfl rfl rfl)
  case streamRead r cap cx h =>
    refine .of_eq (Session.peer_stream rfl ?_ rfl rfl rfl rfl
      (Tabled.id_setObj ((s.objs r).pollRead_spec s.closed cap cx).2.1) rfl rfl rfl)
    cases ((s.objs r).pollRead s.closed cap cx).2 <;>
      exact Handle.view_op (by rw [h]; exact nofun) nofun rfl rfl
  -- the pushes
  case writePush r seq buf q h hq =>
    have hop : (s.handles r).op ≠ .absent := by
      rw [h]
      exact nofun
    refine (PeerStep.pushPsh (buf.take s.config.maxFrameSize) (Session.given_of_op rfl hop)
      (hu r (by rw [h]; rfl))).cast ?_
    exact Session.peer_written rfl hop nofun rfl (Function.update_eq_self r (s.peer par).fin)
      List.map_append rfl
  case shutClosed r cx h hc =>
    have hop : (s.handles r).op ≠ .absent := by
      rw [h]
      exact nofun
    refine (PeerStep.setFin (r := r) (Session.given_of_op rfl hop)).cast ?_
    exact Session.peer_written rfl hop nofun (Function.update_eq_self r (s.peer par).put) rfl rfl rfl
  case sendFin r seq next q h hq =>
    have hop : (s.handles r).op ≠ .absent ∧ next ≠ .absent ∧ (s.handles r).op.openEnd = true := by
      rcases h with ⟨cx, h, rfl⟩ | ⟨h, rfl⟩ <;> rw [h] <;> exact ⟨nofun, nofun, rfl⟩
    refine (PeerStep.pushFin (Session.given_of_op rfl hop.1) (hu r hop.2.2)).cast ?_
    exact Session.peer_written rfl hop.1 hop.2.1 (Function.update_eq_self r (s.peer par).put) rfl
      List.map_append rfl
  case sendFinErr r next e h hq =>
    have hop : (s.handles r).op ≠ .absent ∧ next ≠ .absent := by
      rcases h with ⟨cx, h, rfl⟩ | ⟨h, rfl⟩ <;> rw [h] <;> exact ⟨nofun, nofun⟩
    refine (PeerStep.setFin (r := r) (Session.given_of_op rfl hop.1)).cast ?_
    exact Session.peer_written rfl hop.1 hop.2 (Function.update_eq_self r (s.peer par).put) rfl rfl
      rfl

end Mux
end RtProxy
