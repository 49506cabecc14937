import RtProxy.Kcp.Demux

/-!
The decoders of a listener: whose shards they hold.

The entry of an address is made when a datagram comes in, before its checksum is
tested, and removed by a close notification alone.  In a run that ends sessions only by
that notification (`FecOk`), the decoder of an address is the one its session began
with, fed with every datagram of the address since.
-/

namespace RtProxy
namespace Kcp

open Checked Net

/-- A datagram carries a block that can start a session. -/
def Readable (blocks : List Bytes) : Prop := ∃ segments ∈ blocks, peekConv segments ≠ none

/-- FEC is off, or the step ends no session but by its close notification and leaves no
datagram without one. -/
def FecOk (net : KcpListener) (s : Serve) (l : Label) : Prop :=
  net.fresh = none ∨
    (∀ d, l = .datagram d → s.peers d.peer = none → ∀ blocks dec,
      packetUnframeFec net.crypt d.bytes (s.decoder net d.peer) d.now = .ok (blocks, dec) →
      Readable blocks)
    ∧ l ≠ .block .gone ∧ l ≠ .block .failed
    ∧ ∀ handed a rest, l = .block (.started handed) → s.pc = .blocks a rest → s.peers a = none

/-! ## One address -/

/-- What holds of an address while `serve` runs: nobody is there, or a session with its
decoder, or the datagram being dealt with is going to start one. -/
inductive Held (net : KcpListener) (s : Serve) (a : SocketAddr) : Prop
  | nobody (hp : s.peers a = none) (hf : s.fec a = none)
      (hpc : ∀ rest, s.pc ≠ .blocks a rest)
  | live (session : PeerSession) (st : Started) (hp : s.peers a = some session)
      (hst : s.started[session.tx]? = some st) (hborn : st.born ≤ s.log.length)
      (hf : s.fec a = replay net a (s.log.drop st.born)) (hsome : s.fec a ≠ none)
  | starting (rest : List Bytes) (hp : s.peers a = none) (hpc : s.pc = .blocks a rest)
      (hr : Readable rest) (hf : s.fec a = replay net a (s.log.drop (s.log.length - 1)))
      (hsome : s.fec a ≠ none)

theorem Readable.tail {segments : Bytes} {rest : List Bytes} (h : Readable (segments :: rest))
    (hc : peekConv segments = none) : Readable rest := by
  obtain ⟨b, hb, hsome⟩ := h
  rcases List.mem_cons.mp hb with rfl | hb
  · exact absurd hc hsome
  · exact ⟨b, hb, hsome⟩

theorem not_readable_nil : ¬ Readable [] := by
  rintro ⟨b, hb, -⟩
  cases hb

namespace Held

variable {net : KcpListener} {s t : Serve} {a : SocketAddr}

/-- A step that does not concern the address. -/
theorem congr (h : Held net s a) (hp : t.peers a = s.peers a) (hf : t.fec a = s.fec a)
    (hlog : t.log = s.log)
    (hst : ∀ (k : Nat) (st : Started), s.started[k]? = some st → t.started[k]? = some st)
    (hpc : ∀ rest, t.pc = .blocks a rest ↔ s.pc = .blocks a rest) : Held net t a := by
  cases h with
  | nobody hp' hf' hpc' =>
    exact .nobody (hp.trans hp') (hf.trans hf') fun rest h => hpc' rest ((hpc rest).mp h)
  | live session st hp' hst' hborn hf' hsome =>
    exact .live session st (hp.trans hp') (hst _ _ hst') (by rw [hlog]; exact hborn)
      (by rw [hf, hlog, hf']) (by rw [hf]; exact hsome)
  | starting rest hp' hpc' hr hf' hsome =>
    exact .starting rest (hp.trans hp') ((hpc rest).mpr hpc') hr (by rw [hf, hlog, hf'])
      (by rw [hf]; exact hsome)

/-- The session of the address stays, whatever the rest of the loop. -/
theorem stay (h : Held net s a) {session : PeerSession} (hs : s.peers a = some session)
    (hp : t.peers a = s.peers a) (hf : t.fec a = s.fec a) (hlog : t.log = s.log)
    (hst : t.started = s.started) : Held net t a := by
  cases h with
  | nobody hp' | starting _ hp' =>
    rw [hs] at hp'
    cases hp'
  | live session' st hp' hst' hborn hf' hsome =>
    exact .live session' st (hp.trans hp') (by rw [hst]; exact hst') (by rw [hlog]; exact hborn)
      (by rw [hf, hlog, hf']) (by rw [hf]; exact hsome)

/-- A datagram of the address, when FEC is on. -/
theorem receive {fresh : FecDecoder} (hfresh : net.fresh = some fresh) {d : Datagram}
    (h : Held net s d.peer) (hpc : s.pc = .select) {blocks : List Bytes} {dec : Option FecDecoder}
    (hdec : packetUnframeFec net.crypt d.bytes (s.decoder net d.peer) d.now = .ok (blocks, dec))
    (hr : s.peers d.peer = none → Readable blocks) : Held net (s.receive d blocks dec) d.peer := by
  have hdecoder : s.decoder net d.peer = some ((s.fec d.peer).getD fresh) := by
    rw [Serve.decoder, hfresh, Option.map_some]
  have hsome : dec.isSome = true := by
    rw [hdecoder] at hdec
    exact isSome_packetUnframeFec hdec
  have hfeed : feed net (s.decoder net d.peer) d = dec := by
    rw [feed, hdec]
  have hfec : (s.receive d blocks dec).fec d.peer = dec := by
    show (if dec.isSome then Function.update s.fec d.peer dec else s.fec) d.peer = dec
    rw [if_pos hsome, Function.update_self]
  have hne : (s.receive d blocks dec).fec d.peer ≠ none := by
    rw [hfec]
    exact Option.isSome_iff_ne_none.mp hsome
  cases h with
  | nobody hp hf _ =>
    refine .starting blocks hp rfl (hr hp) ?_ hne
    have hlast : (s.log ++ [d]).drop ((s.log ++ [d]).length - 1) = [] ++ [d] := by
      rw [List.length_append, List.length_singleton, Nat.add_sub_cancel, List.drop_left]
      rfl
    have hnil : replay net d.peer [] = s.decoder net d.peer := by
      rw [hdecoder, hf]
      exact hfresh
    rw [hfec]
    show dec = replay net d.peer ((s.log ++ [d]).drop ((s.log ++ [d]).length - 1))
    rw [hlast, replay_append, if_pos rfl, hnil, hfeed]
  | live session st hp hst hborn hf hold =>
    have hborn' : st.born ≤ (s.log ++ [d]).length := by
      rw [List.length_append]
      exact Nat.le_add_right_of_le hborn
    refine .live session st hp hst hborn' ?_ hne
    have hsame : s.fec d.peer = s.decoder net d.peer := by
      obtain ⟨dec₀, hdec₀⟩ := Option.ne_none_iff_exists'.mp hold
      rw [hdecoder, hdec₀]
      rfl
    rw [hfec]
    show dec = replay net d.peer ((s.log ++ [d]).drop st.born)
    rw [List.drop_append_of_le_length hborn, replay_append, if_pos rfl, ← hf, hsame, hfeed]
  | starting rest hp hpc' =>
    rw [hpc] at hpc'
    cases hpc'

/-- A datagram of another address. -/
theorem receive_of_ne (h : Held net s a) {d : Datagram} (hne : a ≠ d.peer) (hpc : s.pc = .select)
    {blocks : List Bytes} {dec : Option FecDecoder} : Held net (s.receive d blocks dec) a := by
  have hfec : (s.receive d blocks dec).fec a = s.fec a := by
    show (if dec.isSome then Function.update s.fec d.peer dec else s.fec) a = s.fec a
    split_ifs
    · exact Function.update_of_ne hne _ _
    · rfl
  cases h with
  | nobody hp hf _ =>
    refine .nobody hp (hfec.trans hf) fun rest h => ?_
    cases h
    exact hne rfl
  | live session st hp hst hborn hf hsome =>
    have hborn' : st.born ≤ (s.log ++ [d]).length := by
      rw [List.length_append]
      exact Nat.le_add_right_of_le hborn
    refine .live session st hp hst hborn' ?_ (by rw [hfec]; exact hsome)
    rw [hfec]
    show s.fec a = replay net a ((s.log ++ [d]).drop st.born)
    rw [List.drop_append_of_le_length hborn, replay_append, if_neg (Ne.symm hne), hf]
  | starting rest hp hpc' =>
    rw [hpc] at hpc'
    cases hpc'

/-- The first readable block starts the session. -/
theorem start (h : Held net s a) {segments : Bytes} {rest : List Bytes} {conv : UInt32}
    {handed : Bool} (hpc : s.pc = .blocks a (segments :: rest)) (hp : s.peers a = none) :
    Held net ((s.start a conv segments handed).goOn a rest) a := by
  cases h with
  | nobody _ _ hpc' => exact absurd hpc (hpc' _)
  | live session st hp' =>
    rw [hp] at hp'
    cases hp'
  | starting rest' hp' hpc' hr hf hsome =>
    refine .live { tx := s.started.length, conv := conv, id := s.nextId + 1 }
      { peer := a, conv := conv, id := s.nextId + 1, serial := s.tried + 1
        born := s.log.length - 1 }
      (Function.update_self _ _ _) ?_ (Nat.sub_le _ _) hf hsome
    show (s.started ++ [_])[s.started.length]? = _
    rw [List.getElem?_append_right (Nat.le_refl _), Nat.sub_self]
    rfl

end Held

/-! ## Every address -/

/-- What `serve` keeps while every step meets `FecOk`. -/
def Fed (net : KcpListener) (s : Serve) : Prop :=
  (net.fresh = none ∧ ∀ a, s.fec a = none) ∨ s.pc = .ended ∨ ∀ a, Held net s a

/-- Without FEC there is no decoder. -/
theorem Step.fec_none {net : KcpListener} {s t : Serve} {l : Label} (h : Step net s l t)
    (hnet : net.fresh = none) (hs : ∀ a, s.fec a = none) (a : SocketAddr) : t.fec a = none := by
  cases h
  all_goals try exact hs a
  case closed peer id h =>
    unfold Serve.close
    split_ifs
    · by_cases ha : a = peer
      · rw [ha]
        exact Function.update_self _ _ _
      · exact (Function.update_of_ne ha _ _).trans (hs a)
    · exact hs a
  case recvFrom d blocks dec h hlen hdec =>
    have hdecoder : s.decoder net d.peer = none := by
      rw [Serve.decoder, hnet, Option.map_none]
    have hnone : dec = none := by
      rw [hdecoder, packetUnframeFec] at hdec
      split at hdec <;> cases hdec <;> rfl
    show (if dec.isSome then Function.update s.fec d.peer dec else s.fec) a = none
    rw [hnone]
    exact hs a

/-- The loop does not come back. -/
theorem Step.ended {net : KcpListener} {s t : Serve} {l : Label} (h : Step net s l t)
    (hs : s.pc = .ended) : t.pc = .ended := by
  cases h
  case take | leave => exact hs
  case closed h | cancelled h | recvError h | recvFrom h _ _ | recvPanic h _ _ | done h
      | unreadable h _ | sent h _ _ _ _ | lost h _ _ _ _ | gone h _ _ _ _ | stale h _ _ _ _
      | failed h _ _ | started h _ _ =>
    exact absurd (hs.symm.trans h) nofun

theorem Step.held {net : KcpListener} {fresh : FecDecoder} {s t : Serve} {l : Label}
    (h : Step net s l t) (hnet : net.fresh = some fresh) (hok : FecOk net s l)
    (hs : ∀ a, Held net s a) : t.pc = .ended ∨ ∀ a, Held net t a := by
  obtain ⟨hread, hgone, hfailed, hreplace⟩ : _ ∧ _ ∧ _ ∧ _ := by
    rcases hok with hoff | hok
    · rw [hnet] at hoff
      cases hoff
    · exact hok
  -- a step in the loop over the blocks of `peer` leaves the other addresses alone
  have hothers : ∀ {peer : SocketAddr} {b : Bytes} {rest : List Bytes} {u : Serve},
      s.pc = .blocks peer (b :: rest) → u.pc = .blocks peer rest → u.fec = s.fec →
      u.log = s.log → u.started = s.started → u.peers = s.peers → Held net u peer →
      ∀ a, Held net u a := by
    intro peer b rest u hpc hpc' hf hlog hst hp hself a
    by_cases ha : a = peer
    · rw [ha]
      exact hself
    · refine (hs a).congr (by rw [hp]) (by rw [hf]) hlog (fun k st => by rw [hst]; exact id)
        fun more => ?_
      rw [hpc, hpc']
      constructor <;> rintro ⟨⟩ <;> exact absurd rfl ha
  cases h
  case cancelled | recvPanic => exact .inl rfl
  case recvError => exact .inr hs
  case take | leave =>
    exact .inr fun a => (hs a).congr rfl rfl rfl (fun _ _ => id) fun _ => Iff.rfl
  case closed peer id h =>
    refine .inr fun a => ?_
    unfold Serve.close
    split_ifs with hid
    · by_cases ha : a = peer
      · rw [ha]
        refine .nobody (Function.update_self _ _ _) (Function.update_self _ _ _) fun rest hpc => ?_
        have hpc' : s.pc = .blocks peer rest := hpc
        rw [h] at hpc'
        cases hpc'
      · exact (hs a).congr (Function.update_of_ne ha _ _) (Function.update_of_ne ha _ _) rfl
          (fun _ _ hst => hst) fun _ => Iff.rfl
    · exact hs a
  case recvFrom d blocks dec h hlen hdec =>
    refine .inr fun a => ?_
    by_cases ha : a = d.peer
    · subst ha
      exact (hs d.peer).receive hnet h hdec fun hp => hread d rfl hp blocks dec hdec
    · exact (hs a).receive_of_ne ha h
  case done peer h =>
    refine .inr fun a => ?_
    cases hs a with
    | nobody hp hf hpc => exact .nobody hp hf nofun
    | live session st hp hst hborn hf hsome => exact .live session st hp hst hborn hf hsome
    | starting rest hp hpc hr hf hsome =>
      rw [h] at hpc
      cases hpc
      exact absurd hr not_readable_nil
  case unreadable peer b rest h hc =>
    refine .inr (hothers h rfl rfl rfl rfl rfl ?_)
    cases hs peer with
    | nobody hp hf hpc => exact absurd h (hpc _)
    | live session st hp hst hborn hf hsome => exact .live session st hp hst hborn hf hsome
    | starting rest' hp hpc hr hf hsome =>
      rw [h] at hpc
      cases hpc
      exact .starting rest hp rfl (hr.tail hc) hf hsome
  case sent peer b rest conv sn session c h hc hp hconv hsend =>
    exact .inr (hothers h rfl rfl rfl rfl rfl ((hs peer).stay hp rfl rfl rfl rfl))
  case lost peer b rest conv sn session h hc hp hconv hsend =>
    exact .inr (hothers h rfl rfl rfl rfl rfl ((hs peer).stay hp rfl rfl rfl rfl))
  case stale peer b rest conv sn session h hc hp hconv hsn =>
    exact .inr (hothers h rfl rfl rfl rfl rfl ((hs peer).stay hp rfl rfl rfl rfl))
  case gone => exact absurd rfl hgone
  case failed => exact absurd rfl hfailed
  case started peer b rest conv sn handed h hc hnew =>
    refine .inr fun a => ?_
    have hp := hreplace handed peer _ rfl h
    by_cases ha : a = peer
    · subst ha
      exact (hs a).start h hp
    · refine (hs a).congr (Function.update_of_ne ha _ _) rfl rfl
        (fun k st hst => getElem?_append_of_eq hst _) fun more => ?_
      rw [h]
      constructor <;> rintro ⟨⟩ <;> exact absurd rfl ha

/-! ## The decoders of the sessions -/

/-- The decoders of a listener that waits for the next datagram: each is that of a live
session, and it is a fresh one fed with the datagrams that have come in from its
address since the one that started the session. -/
structure FecOwned (net : KcpListener) (s : Serve) : Prop where
  keys : ∀ a, s.fec a ≠ none → s.peers a ≠ none
  shards : ∀ a, s.fec a ≠ none → ∃ session st, s.peers a = some session
    ∧ s.started[session.tx]? = some st ∧ s.fec a = replay net a (s.log.drop st.born)

theorem Held.owner {net : KcpListener} {s : Serve} {a : SocketAddr} (h : Held net s a)
    (hpc : s.pc = .select) (hf : s.fec a ≠ none) : ∃ session st, s.peers a = some session
      ∧ s.started[session.tx]? = some st ∧ s.fec a = replay net a (s.log.drop st.born) := by
  cases h with
  | nobody _ hnone => exact absurd hnone hf
  | live session st hp hst _ hreplay => exact ⟨session, st, hp, hst, hreplay⟩
  | starting rest _ hpc' =>
    rw [hpc] at hpc'
    cases hpc'

open Transition in
theorem fed_of_reaches {net : KcpListener} {s : Serve}
    (hrun : Reaches (Step net) (FecOk net) Serve.new s) : Fed net s := by
  cases hnet : net.fresh with
  | none =>
    refine .inl ⟨hnet, ?_⟩
    exact hrun.invariant (I := fun s => ∀ a, s.fec a = none) (fun _ => rfl)
      fun _ _ _ hs _ hstep => hstep.fec_none hnet hs
  | some fresh =>
    right
    refine hrun.invariant (I := fun s => s.pc = .ended ∨ ∀ a, Held net s a)
      (.inr fun a => .nobody rfl rfl (by rintro rest ⟨⟩)) ?_
    rintro s l t (hend | hs) hok hstep
    · exact .inl (hstep.ended hend)
    · exact hstep.held hnet hok hs

open Transition in
/-- In every run whose steps end no session but by its close notification, and leave no
datagram without one, the decoders are those of the live sessions and hold the shards
received since these were started; while a datagram is dealt with, its address may have
a decoder already. -/
theorem fec_per_session {net : KcpListener} {s : Serve}
    (hrun : Reaches (Step net) (FecOk net) Serve.new s) :
    (s.pc = .select → FecOwned net s)
      ∧ (s.pc ≠ .ended → ∀ a, s.fec a ≠ none →
          s.peers a ≠ none ∨ ∃ rest, s.pc = .blocks a rest) := by
  have hfed := fed_of_reaches hrun
  refine ⟨fun hpc => ⟨fun a hf => ?_, fun a hf => ?_⟩, fun hpc a hf => ?_⟩
  · rcases hfed with ⟨-, hnone⟩ | hend | hs
    · exact absurd (hnone a) hf
    · rw [hpc] at hend
      cases hend
    · obtain ⟨session, st, hp, -⟩ := (hs a).owner hpc hf
      rw [hp]
      exact nofun
  · rcases hfed with ⟨-, hnone⟩ | hend | hs
    · exact absurd (hnone a) hf
    · rw [hpc] at hend
      cases hend
    · exact (hs a).owner hpc hf
  · rcases hfed with ⟨-, hnone⟩ | hend | hs
    · exact absurd (hnone a) hf
    · exact absurd hend hpc
    · cases hs a with
      | nobody _ hnone => exact absurd hnone hf
      | live session st hp =>
        left
        rw [hp]
        exact nofun
      | starting rest _ hpc' => exact .inr ⟨rest, hpc'⟩

/-- A listener with one data and one parity shard to a group. -/
def pairListener : KcpListener :=
  { crypt := ⟨.none⟩, rs := newCopyCodec, datashard := 1, parityshard := 1 }

/-- The first data shard of a session. -/
def firstShard : Datagram :=
  { peer := peerAddr
    bytes := PacketFramer.sealWith ⟨.none⟩ (List.replicate NONCE_SIZE 0)
      (shardPacket 0 TYPE_DATA (dataPayload (segmentOf false)))
    now := 0 }

theorem length_firstShard : firstShard.bytes.length ≤ MTU_LIMIT := by
  unfold firstShard
  rw [PacketFramer.sealWith, Crypt.length_encrypt, List.length_append, List.length_append,
    Bytes.length_le]
  decide

theorem unframe_firstShard : ∃ dec, packetUnframeFec pairListener.crypt firstShard.bytes
    (Serve.new.decoder pairListener firstShard.peer) 0 = .ok ([segmentOf false], dec) := by
  have hnew : FecDecoder.new newCopyCodec 1 1 = some copyDecoder := rfl
  obtain ⟨hv, hnil, -, -⟩ := FecDecoder.valid_new newCopyCodec_bounded hnew
  have hnonce : (List.replicate NONCE_SIZE (0 : UInt8)).length = NONCE_SIZE := rfl
  have hlt : (0 : UInt32).toNat < lastCell copyDecoder.shardSize := by decide
  obtain ⟨dec, hdec⟩ := packetUnframeFec_shard ⟨.none⟩ hnonce hv hnil hlt (.inl rfl) (.inr rfl)
    (dataPayload (segmentOf false)) 0
  rw [if_pos rfl, usableSegments_dataPayload (by decide) (by decide)] at hdec
  exact ⟨dec, hdec⟩

open Transition in
/-- A session that is up has a decoder, and it holds the shard that came with it. -/
theorem fec_per_session_first : ∃ s, Reaches (Step pairListener) (FecOk pairListener) Serve.new s
    ∧ s.fec peerAddr ≠ none ∧ FecOwned pairListener s := by
  obtain ⟨dec, hdec⟩ := unframe_firstShard
  have hsome : dec.isSome = true := isSome_packetUnframeFec hdec
  have hreadable : Readable [segmentOf false] :=
    ⟨segmentOf false, List.mem_singleton_self _, nofun⟩
  have start : Reaches (Step pairListener) (FecOk pairListener) Serve.new _ := .refl
  have h := start.tail (a := .datagram firstShard)
    (.inr ⟨fun d hd hp blocks dec' hdec' => by
      cases hd
      cases hdec.symm.trans hdec'
      exact hreadable, nofun, nofun, nofun⟩)
    (Step.recvFrom rfl length_firstShard hdec)
  have h := h.tail (a := .block (.started true))
    (.inr ⟨nofun, nofun, nofun, fun _ _ _ _ _ => rfl⟩)
    (Step.started true rfl (peekConv_segmentOf false) (.inl rfl))
  have h := h.tail (a := .next) (.inr ⟨nofun, nofun, nofun, nofun⟩) (Step.done rfl)
  refine ⟨_, h, ?_, (fec_per_session h).1 rfl⟩
  show (if dec.isSome then Function.update (fun _ => none) peerAddr dec else fun _ => none)
    peerAddr ≠ none
  rw [if_pos hsome, Function.update_self]
  exact Option.isSome_iff_ne_none.mp hsome

open Transition in
/-- An empty datagram leaves a decoder behind. -/
theorem fec_without_session : ¬ ∀ (net : KcpListener) (s : Serve),
    Reaches (Step net) anyStep Serve.new s → s.pc = .select → FecOwned net s := by
  intro hall
  have start : Reaches (Step pairListener) anyStep Serve.new _ := .refl
  have h := start.tail trivial (Step.recvFrom (d := ⟨peerAddr, [], 0⟩) rfl (by decide) rfl)
  have h := h.tail trivial (Step.done rfl)
  exact (hall pairListener _ h rfl).keys peerAddr (by decide) rfl

end Kcp
end RtProxy
