import Mathlib.Data.List.Nodup
import RtProxy.Kcp.Datagram
import RtProxy.Kcp.Listener

/-!
Demultiplexing: which session a block goes to.

`Moved` says once what a step can do to the entry of an address, and `Ledger` ties the
table, the channels and the ids to the history.  Ids are taken from a counter of 64
bits, so they are distinct until it has gone all the way round.
-/

namespace RtProxy
namespace Kcp

open Checked Net

/-! ## The table -/

/-- What a step can do to the entry of an address. -/
inductive Moved (s : Serve) (l : Label) (t : Serve) (a : SocketAddr) : Prop
  | same (h : t.peers a = s.peers a)
  | cancelled (hl : l = .cancelled) (ht : t.peers a = none)
  | closed (session : PeerSession) (hl : l = .closed a session.id)
      (hs : s.peers a = some session) (ht : t.peers a = none)
  | gone (session : PeerSession) (hs : s.peers a = some session)
      (hgone : (t.chans session.tx).closed = true) (ht : t.peers a = none)
  | block (segments : Bytes) (rest : List Bytes) (conv sn : UInt32)
      (hpc : s.pc = .blocks a (segments :: rest)) (hc : peekConv segments = some (conv, sn))
      (hnew : s.Starts a conv sn)
      (ht : t.peers a = none ∨
        t.peers a = some { tx := s.started.length, conv := conv, id := s.nextId + 1 })

namespace Serve

variable (s : Serve) (a : SocketAddr)

theorem peers_close (id : UInt64) (b : SocketAddr) : (s.close a id).peers b =
    if b = a ∧ (s.peers a).map (·.id) = some id then none else s.peers b := by
  unfold close
  by_cases hid : (s.peers a).map (·.id) = some id
  · rw [if_pos hid]
    by_cases hb : b = a
    · rw [if_pos ⟨hb, hid⟩, hb]
      exact Function.update_self _ _ _
    · rw [if_neg fun h => hb h.1]
      exact Function.update_of_ne hb _ _
  · rw [if_neg hid, if_neg fun h => hid h.2]

end Serve

/-- A step at the entry of `peer` alone. -/
theorem moved_of_update {s t : Serve} {l : Label} {peer : SocketAddr} {e : Option PeerSession}
    (ht : t.peers = Function.update s.peers peer e) (hself : t.peers peer = e → Moved s l t peer)
    (a : SocketAddr) : Moved s l t a := by
  by_cases ha : a = peer
  · subst ha
    exact hself (by rw [ht, Function.update_self])
  · refine .same ?_
    rw [ht, Function.update_of_ne ha]

theorem Step.moved {net : KcpListener} {s t : Serve} {l : Label} (h : Step net s l t)
    (a : SocketAddr) : Moved s l t a := by
  cases h
  case cancelled => exact .cancelled rfl rfl
  case closed peer id h =>
    have hpeers := s.peers_close peer id a
    by_cases hcase : a = peer ∧ (s.peers peer).map (·.id) = some id
    · rw [if_pos hcase] at hpeers
      obtain ⟨rfl, hid⟩ := hcase
      cases hs : s.peers a with
      | none =>
        rw [hs] at hid
        cases hid
      | some session =>
        rw [hs] at hid
        obtain rfl := Option.some.inj hid
        exact .closed session rfl hs hpeers
    · rw [if_neg hcase] at hpeers
      exact .same hpeers
  case gone peer segments rest conv sn session e h hc hp hconv hsend =>
    refine moved_of_update rfl (fun ht => .gone session hp ?_ ht) a
    show (Function.update s.chans session.tx Chan.gone session.tx).closed = true
    rw [Function.update_self]
    rfl
  case failed peer segments rest conv sn h hc hnew =>
    exact moved_of_update rfl (fun ht => .block segments rest conv sn h hc hnew (.inl ht)) a
  case started peer segments rest conv sn handed h hc hnew =>
    exact moved_of_update rfl (fun ht => .block segments rest conv sn h hc hnew (.inr ht)) a
  all_goals exact .same rfl

/-! ## What a decoder has been fed -/

/-- A decoder after one more datagram. -/
def feed (net : KcpListener) (dec : Option FecDecoder) (d : Datagram) : Option FecDecoder :=
  match packetUnframeFec net.crypt d.bytes dec d.now with
  | .ok (_, dec) => dec
  | .error _ => none

/-- A fresh decoder after the datagrams of an address in a log. -/
def replay (net : KcpListener) (a : SocketAddr) (log : List Datagram) : Option FecDecoder :=
  (log.filter (·.peer = a)).foldl (feed net) net.fresh

theorem replay_append (net : KcpListener) (a : SocketAddr) (log : List Datagram) (d : Datagram) :
    replay net a (log ++ [d]) =
      if d.peer = a then feed net (replay net a log) d else replay net a log := by
  unfold replay
  rw [List.filter_append, List.foldl_append]
  by_cases hd : d.peer = a
  · rw [if_pos hd, List.filter_cons_of_pos (by simpa using hd)]
    rfl
  · rw [if_neg hd, List.filter_cons_of_neg (by simpa using hd)]
    rfl

/-- A decoder that was given is given back. -/
theorem isSome_packetUnframeFec {crypt : Crypt} {buf : Bytes} {dec : FecDecoder} {now : Nat}
    {blocks : List Bytes} {dec' : Option FecDecoder}
    (h : packetUnframeFec crypt buf (some dec) now = .ok (blocks, dec')) : dec'.isSome = true := by
  unfold packetUnframeFec at h
  dsimp only at h
  split at h
  · cases h
    rfl
  · split at h
    · cases h
      rfl
    · rename_i buf' _ _ _ _
      by_cases hshort : (buf'.drop CRYPT_HEADER_SIZE).length < FEC_HEADER_SIZE
      · rw [if_pos hshort] at h
        cases h
        rfl
      · rw [if_neg hshort] at h
        obtain ⟨⟨out, dec₁⟩, -, hout⟩ := exists_bind_ok h
        cases hout
        rfl

/-- The block comes from the address: a datagram of the address yields it to a decoder that
has been fed with datagrams of the address alone. -/
def CameFrom (net : KcpListener) (log : List Datagram) (a : SocketAddr) (segments : Bytes) : Prop :=
  ∃ before fed d after, log = before ++ fed ++ d :: after ∧ d.peer = a
    ∧ ∃ blocks dec, packetUnframeFec net.crypt d.bytes (replay net a fed) d.now = .ok (blocks, dec)
      ∧ segments ∈ blocks

theorem CameFrom.log_append {net : KcpListener} {log : List Datagram} {a : SocketAddr}
    {segments : Bytes} (h : CameFrom net log a segments) (d : Datagram) :
    CameFrom net (log ++ [d]) a segments := by
  obtain ⟨before, fed, d', after, rfl, hrest⟩ := h
  refine ⟨before, fed, d', after ++ [d], ?_, hrest⟩
  rw [List.append_assoc _ (d' :: after), List.cons_append]

/-- The decoder an address has, or would be given, has been fed with its own datagrams. -/
def OwnDecoder (net : KcpListener) (s : Serve) (a : SocketAddr) : Prop :=
  ∃ before fed, s.log = before ++ fed ∧ s.decoder net a = replay net a fed

namespace OwnDecoder

variable {net : KcpListener} {s t : Serve} {a : SocketAddr}

/-- A fresh decoder has been fed with nothing. -/
theorem of_fresh (h : s.decoder net a = net.fresh) : OwnDecoder net s a :=
  ⟨s.log, [], (List.append_nil _).symm, h⟩

theorem of_fec_none (h : s.fec a = none) : OwnDecoder net s a := by
  refine of_fresh ?_
  rw [Serve.decoder, h]
  exact Option.map_id'

theorem congr (h : OwnDecoder net s a) (hf : t.fec a = s.fec a) (hlog : t.log = s.log) :
    OwnDecoder net t a := by
  obtain ⟨before, fed, hs, hdec⟩ := h
  refine ⟨before, fed, hlog.trans hs, ?_⟩
  rw [← hdec, Serve.decoder, Serve.decoder, hf]

theorem receive (h : OwnDecoder net s a) {d : Datagram} {blocks : List Bytes}
    {dec : Option FecDecoder}
    (hdec : packetUnframeFec net.crypt d.bytes (s.decoder net d.peer) d.now = .ok (blocks, dec)) :
    OwnDecoder net (s.receive d blocks dec) a := by
  cases hnet : net.fresh with
  | none =>
    refine of_fresh ?_
    rw [Serve.decoder, hnet, Option.map_none]
  | some fresh =>
    obtain ⟨before, fed, hlog, hfed⟩ := h
    refine ⟨before, fed ++ [d], ?_, ?_⟩
    · show s.log ++ [d] = _
      rw [hlog, List.append_assoc]
    rw [replay_append, ← hfed]
    by_cases ha : d.peer = a
    · subst ha
      rw [if_pos rfl, feed, hdec]
      have hsome : dec.isSome = true := by
        rw [Serve.decoder, hnet, Option.map_some] at hdec
        exact isSome_packetUnframeFec hdec
      obtain ⟨dec', rfl⟩ := Option.isSome_iff_exists.mp hsome
      have hfec : (s.receive d blocks (some dec')).fec d.peer = some dec' :=
        Function.update_self _ _ _
      rw [Serve.decoder, hfec, hnet]
      rfl
    · rw [if_neg ha]
      have hfec : (s.receive d blocks dec).fec a = s.fec a := by
        show (if dec.isSome then Function.update s.fec d.peer dec else s.fec) a = s.fec a
        split_ifs
        · exact Function.update_of_ne (Ne.symm ha) _ _
        · rfl
      rw [Serve.decoder, Serve.decoder, hfec]

end OwnDecoder

/-! ## The books -/

/-- The record of a session agrees with its entry. -/
def Started.Of (st : Started) (a : SocketAddr) (session : PeerSession) : Prop :=
  st.peer = a ∧ st.conv = session.conv ∧ st.id = session.id

/-- A block that was handed to the driver of a session belongs to it. -/
structure Started.Takes (net : KcpListener) (st : Started) (log : List Datagram) (a : SocketAddr)
    (segments : Bytes) : Prop where
  peer : st.peer = a
  conv : ∃ sn, peekConv segments = some (st.conv, sn)
  source : CameFrom net log a segments

structure Ledger (net : KcpListener) (s : Serve) : Prop where
  entries : ∀ a session, s.peers a = some session →
    ∃ st, s.started[session.tx]? = some st ∧ st.Of a session
  nextId : s.nextId = UInt64.ofNat s.tried
  ids : ∀ st ∈ s.started, st.id = UInt64.ofNat st.serial ∧ 0 < st.serial ∧ st.serial ≤ s.tried
  serials : s.started.Pairwise fun st st' => st.serial < st'.serial
  handed : ∀ k a segments, (k, a, segments) ∈ s.handed →
    ∃ st, s.started[k]? = some st ∧ st.Takes net s.log a segments
  queued : ∀ k segments, segments ∈ (s.chans k).queue → ∃ a, (k, a, segments) ∈ s.handed
  source : ∀ a rest, s.pc = .blocks a rest → ∀ segments ∈ rest, CameFrom net s.log a segments
  decoders : ∀ a, OwnDecoder net s a

theorem Started.Takes.log_append {net : KcpListener} {st : Started} {log : List Datagram}
    {a : SocketAddr} {segments : Bytes} (h : st.Takes net log a segments) (d : Datagram) :
    st.Takes net (log ++ [d]) a segments :=
  ⟨h.peer, h.conv, h.source.log_append d⟩

theorem getElem?_append_of_eq {α : Type} {l : List α} {k : Nat} {x : α} (h : l[k]? = some x)
    (l' : List α) : (l ++ l')[k]? = some x := by
  rw [List.getElem?_append_left (List.getElem?_eq_some_iff.mp h).1, h]

namespace Ledger

variable {net : KcpListener} {s t : Serve}

/-- A step that starts no session and hands out nothing. -/
theorem keep (hl : Ledger net s)
    (hpeers : ∀ a session, t.peers a = some session → s.peers a = some session)
    (hid : t.nextId = s.nextId) (htried : t.tried = s.tried) (hst : t.started = s.started)
    (hhanded : t.handed = s.handed) (hlog : t.log = s.log)
    (hq : ∀ k, (t.chans k).queue ⊆ (s.chans k).queue)
    (hpc : ∀ a rest, t.pc = .blocks a rest → ∃ more, s.pc = .blocks a more ∧ rest ⊆ more)
    (hfec : ∀ a, t.fec a = none ∨ t.fec a = s.fec a) : Ledger net t := by
  refine ⟨fun a session h => ?_, by rw [hid, htried, hl.nextId], ?_, by rw [hst]; exact hl.serials,
    ?_, fun k b hb => ?_, fun a rest h => ?_, fun a => ?_⟩
  · rw [hst]
    exact hl.entries a session (hpeers a session h)
  · rw [hst, htried]
    exact hl.ids
  · rw [hst, hhanded, hlog]
    exact hl.handed
  · rw [hhanded]
    exact hl.queued k b (hq k hb)
  · obtain ⟨more, hmore, hsub⟩ := hpc a rest h
    rw [hlog]
    exact fun b hb => hl.source a more hmore b (hsub hb)
  · rcases hfec a with hnone | hsame
    · exact .of_fec_none hnone
    · exact (hl.decoders a).congr hsame hlog

/-- A block handed to the driver of a session whose record is `st`. -/
theorem hand (hl : Ledger net s) {a : SocketAddr} {segments : Bytes} {rest : List Bytes}
    {st : Started} (hpc : s.pc = .blocks a (segments :: rest)) (hpeer : st.peer = a)
    (hconv : ∃ sn, peekConv segments = some (st.conv, sn)) : st.Takes net s.log a segments :=
  ⟨hpeer, hconv, hl.source a _ hpc segments List.mem_cons_self⟩

end Ledger

theorem Chan.queue_trySend {segments : Bytes} {c c' : Chan} (h : c.trySend segments = .ok c') :
    c'.queue = c.queue ++ [segments] := by
  unfold trySend at h
  split_ifs at h
  cases h
  rfl

namespace Ledger

variable {net : KcpListener} {s : Serve}

theorem receive (hl : Ledger net s) {d : Datagram} {blocks : List Bytes} {dec : Option FecDecoder}
    (hdec : packetUnframeFec net.crypt d.bytes (s.decoder net d.peer) d.now = .ok (blocks, dec)) :
    Ledger net (s.receive d blocks dec) := by
  refine ⟨hl.entries, hl.nextId, hl.ids, hl.serials, fun k a b h => ?_, hl.queued,
    fun a rest h => ?_, fun a => (hl.decoders a).receive hdec⟩
  · obtain ⟨st, hst, htakes⟩ := hl.handed k a b h
    exact ⟨st, hst, htakes.log_append d⟩
  · cases h
    intro b hb
    obtain ⟨before, fed, hlog, hfed⟩ := hl.decoders d.peer
    rw [hfed] at hdec
    exact ⟨before, fed, d, [], congrArg (· ++ [d]) hlog, rfl, blocks, dec, hdec, hb⟩

theorem sent (hl : Ledger net s) {a : SocketAddr} {segments : Bytes} {rest : List Bytes}
    {conv sn : UInt32} {session : PeerSession} {c : Chan}
    (hpc : s.pc = .blocks a (segments :: rest)) (hc : peekConv segments = some (conv, sn))
    (hp : s.peers a = some session) (hconv : session.conv = conv)
    (hsend : (s.chans session.tx).trySend segments = .ok c) :
    Ledger net ({ s.setChan session.tx c with
      handed := s.handed ++ [(session.tx, a, segments)] }.goOn a rest) := by
  obtain ⟨st, hst, hpeer, hstconv, -⟩ := hl.entries a session hp
  have htakes : st.Takes net s.log a segments :=
    hl.hand hpc hpeer ⟨sn, by rw [hc, hstconv, hconv]⟩
  refine ⟨hl.entries, hl.nextId, hl.ids, hl.serials, fun k b bs h => ?_, fun k bs h => ?_,
    fun b more h => ?_, fun b => (hl.decoders b).congr rfl rfl⟩
  · rcases List.mem_append.mp h with h | h
    · exact hl.handed k b bs h
    · cases List.mem_singleton.mp h
      exact ⟨st, hst, htakes⟩
  · by_cases hk : k = session.tx
    · subst hk
      have hqueue : bs ∈ (s.chans session.tx).queue ++ [segments] := by
        rw [← Chan.queue_trySend hsend]
        have hself : Function.update s.chans session.tx c session.tx = c :=
          Function.update_self _ _ _
        rw [← hself]
        exact h
      rcases List.mem_append.mp hqueue with hold | hnew
      · obtain ⟨b, hb⟩ := hl.queued _ bs hold
        exact ⟨b, List.mem_append_left _ hb⟩
      · cases List.mem_singleton.mp hnew
        exact ⟨a, List.mem_append_right _ (List.mem_singleton_self _)⟩
    · have hqueue : bs ∈ (s.chans k).queue := by
        have hother : Function.update s.chans session.tx c k = s.chans k :=
          Function.update_of_ne hk _ _
        rw [← hother]
        exact h
      obtain ⟨b, hb⟩ := hl.queued k bs hqueue
      exact ⟨b, List.mem_append_left _ hb⟩
  · cases h
    exact fun b hb => hl.source a _ hpc b (List.mem_cons_of_mem _ hb)

theorem nextId_succ (hl : Ledger net s) : s.nextId + 1 = UInt64.ofNat (s.tried + 1) := by
  rw [hl.nextId, UInt64.ofNat_add]
  rfl

theorem clear (hl : Ledger net s) {a : SocketAddr} {segments : Bytes} {rest : List Bytes}
    (hpc : s.pc = .blocks a (segments :: rest)) : Ledger net ((s.clear a).goOn a rest) := by
  refine ⟨fun b session h => ?_, hl.nextId_succ, fun st hst => ?_, hl.serials, hl.handed, hl.queued,
    fun b more h => ?_, fun b => (hl.decoders b).congr rfl rfl⟩
  · have hold : Function.update s.peers a none b = some session := h
    by_cases hb : b = a
    · rw [hb, Function.update_self] at hold
      cases hold
    · rw [Function.update_of_ne hb] at hold
      exact hl.entries b session hold
  · obtain ⟨hid, hpos, hle⟩ := hl.ids st hst
    exact ⟨hid, hpos, Nat.le_succ_of_le hle⟩
  · cases h
    exact fun b hb => hl.source a _ hpc b (List.mem_cons_of_mem _ hb)

theorem start (hl : Ledger net s) {a : SocketAddr} {segments : Bytes} {rest : List Bytes}
    {conv sn : UInt32} (handed : Bool) (hpc : s.pc = .blocks a (segments :: rest))
    (hc : peekConv segments = some (conv, sn)) :
    Ledger net ((s.start a conv segments handed).goOn a rest) := by
  set st : Started := { peer := a, conv := conv, id := s.nextId + 1, serial := s.tried + 1
                        born := s.log.length - 1 } with hst
  have hlast : (s.started ++ [st])[s.started.length]? = some st := by
    rw [List.getElem?_append_right (Nat.le_refl _), Nat.sub_self]
    rfl
  have htakes : st.Takes net s.log a segments := hl.hand hpc rfl ⟨sn, hc⟩
  refine ⟨fun b session h => ?_, hl.nextId_succ, fun st' h => ?_, ?_, fun k b bs h => ?_,
    fun k bs h => ?_, fun b more h => ?_, fun b => (hl.decoders b).congr rfl rfl⟩
  · have hold : Function.update s.peers a
        (some { tx := s.started.length, conv := conv, id := s.nextId + 1 }) b = some session := h
    by_cases hb : b = a
    · rw [hb, Function.update_self] at hold
      cases hold
      exact ⟨st, hlast, hb.symm, rfl, rfl⟩
    · rw [Function.update_of_ne hb] at hold
      obtain ⟨st', hst', hof⟩ := hl.entries b session hold
      exact ⟨st', getElem?_append_of_eq hst' _, hof⟩
  · rcases List.mem_append.mp h with h | h
    · obtain ⟨hid, hpos, hle⟩ := hl.ids st' h
      exact ⟨hid, hpos, Nat.le_succ_of_le hle⟩
    · cases List.mem_singleton.mp h
      exact ⟨hl.nextId_succ, Nat.succ_pos _, Nat.le_refl _⟩
  · refine List.pairwise_append.mpr ⟨hl.serials, List.pairwise_singleton _ _, fun st' hst' x hx => ?_⟩
    cases List.mem_singleton.mp hx
    exact Nat.lt_succ_of_le (hl.ids st' hst').2.2
  · have hcases : (k, b, bs) ∈ s.handed ∨ (k, b, bs) = (s.started.length, a, segments) := by
      cases handed with
      | true =>
        rcases List.mem_append.mp h with h | h
        · exact .inl h
        · exact .inr (List.mem_singleton.mp h)
      | false => exact .inl h
    rcases hcases with h | h
    · obtain ⟨st', hst', htakes'⟩ := hl.handed k b bs h
      exact ⟨st', getElem?_append_of_eq hst' _, htakes'⟩
    · cases h
      exact ⟨st, hlast, htakes⟩
  · cases handed with
    | true =>
      have hchan : bs ∈ (Function.update s.chans s.started.length
          { queue := [segments], closed := false } k).queue := h
      by_cases hk : k = s.started.length
      · rw [hk, Function.update_self] at hchan
        cases List.mem_singleton.mp hchan
        exact ⟨a, List.mem_append_right _ (by rw [hk]; exact List.mem_singleton_self _)⟩
      · rw [Function.update_of_ne hk] at hchan
        obtain ⟨b, hb⟩ := hl.queued k bs hchan
        exact ⟨b, List.mem_append_left _ hb⟩
    | false =>
      have hchan : bs ∈ (Function.update s.chans s.started.length Chan.gone k).queue := h
      by_cases hk : k = s.started.length
      · rw [hk, Function.update_self] at hchan
        cases hchan
      · rw [Function.update_of_ne hk] at hchan
        exact hl.queued k bs hchan
  · cases h
    exact fun b hb => hl.source a _ hpc b (List.mem_cons_of_mem _ hb)

end Ledger

/-- A change of one channel to a shorter queue. -/
theorem queue_update_subset {chans : Nat → Chan} {k : Nat} {c : Chan}
    (h : c.queue ⊆ (chans k).queue) (i : Nat) :
    (Function.update chans k c i).queue ⊆ (chans i).queue := by
  by_cases hi : i = k
  · rw [hi, Function.update_self]
    exact h
  · rw [Function.update_of_ne hi]
    exact List.Subset.refl _

theorem Step.ledger {net : KcpListener} {s t : Serve} {l : Label} (h : Step net s l t)
    (hl : Ledger net s) : Ledger net t := by
  have hnone : ∀ {peers : SocketAddr → Option PeerSession} {a b : SocketAddr}
      {session : PeerSession}, Function.update peers a none b = some session →
      peers b = some session := by
    intro peers a b session hb
    by_cases hba : b = a
    · rw [hba, Function.update_self] at hb
      cases hb
    · rwa [Function.update_of_ne hba] at hb
  have hsub : ∀ k, (s.chans k).queue ⊆ (s.chans k).queue := fun k => List.Subset.refl _
  have hfec : ∀ a, s.fec a = none ∨ s.fec a = s.fec a := fun a => .inr rfl
  cases h
  case cancelled => exact hl.keep nofun rfl rfl rfl rfl rfl hsub nofun hfec
  case closed peer id h =>
    unfold Serve.close
    split_ifs
    · refine hl.keep (fun b session hb => hnone hb) rfl rfl rfl rfl rfl hsub
        (fun b rest hb => ⟨rest, hb, List.Subset.refl _⟩) fun b => ?_
      by_cases hb : b = peer
      · rw [hb]
        exact .inl (Function.update_self _ _ _)
      · exact .inr (Function.update_of_ne hb _ _)
    · exact hl
  case recvError => exact hl
  case recvFrom hdec => exact hl.receive hdec
  case recvPanic => exact hl.keep (fun _ _ => id) rfl rfl rfl rfl rfl hsub nofun hfec
  case done => exact hl.keep (fun _ _ => id) rfl rfl rfl rfl rfl hsub nofun hfec
  case unreadable h _ | lost h _ _ _ _ | stale h _ _ _ _ =>
    refine hl.keep (fun _ _ => id) rfl rfl rfl rfl rfl hsub (fun b more hb => ?_) hfec
    cases hb
    exact ⟨_, h, List.subset_cons_self _ _⟩
  case gone h _ _ _ _ =>
    refine hl.keep (fun b session hb => hnone hb) rfl rfl rfl rfl rfl
      (queue_update_subset (List.nil_subset _)) (fun b more hb => ?_) hfec
    cases hb
    exact ⟨_, h, List.subset_cons_self _ _⟩
  case sent h hc hp hconv hsend => exact hl.sent h hc hp hconv hsend
  case failed h _ _ => exact hl.clear h
  case started handed h hc _ => exact hl.start handed h hc
  case take k segments rest h =>
    refine hl.keep (fun _ _ => id) rfl rfl rfl rfl rfl (queue_update_subset ?_)
      (fun b more hb => ⟨more, hb, List.Subset.refl _⟩) hfec
    rw [h]
    exact List.subset_cons_self _ _
  case leave k =>
    exact hl.keep (fun _ _ => id) rfl rfl rfl rfl rfl (queue_update_subset (List.nil_subset _))
      (fun b more hb => ⟨more, hb, List.Subset.refl _⟩) hfec

theorem ledger_new (net : KcpListener) : Ledger net Serve.new :=
  ⟨nofun, rfl, nofun, .nil, nofun, nofun, nofun, fun _ => .of_fec_none rfl⟩

/-! ## Demultiplexing -/

/-- Every block goes to the session of its address and `conv`, and a session gives its
place up only for a reason of its own. -/
structure Demultiplexed (net : KcpListener) (s : Serve) : Prop where
  entries : ∀ a session, s.peers a = some session →
    ∃ st, s.started[session.tx]? = some st ∧ st.Of a session
  single : ∀ a b session session', s.peers a = some session → s.peers b = some session' →
    session.tx = session'.tx → a = b
  ids : s.tried ≤ 2 ^ 64 → (s.started.map (·.id)).Nodup
  handed : ∀ k a segments, (k, a, segments) ∈ s.handed →
    ∃ st, s.started[k]? = some st ∧ st.Takes net s.log a segments
  queued : ∀ k segments, segments ∈ (s.chans k).queue → ∃ a, (k, a, segments) ∈ s.handed
  replaced : ∀ l t a session session', Step net s l t → s.peers a = some session →
    t.peers a = some session' → session' ≠ session →
    ∃ segments rest, s.pc = .blocks a (segments :: rest)
      ∧ peekConv segments = some (session'.conv, 0) ∧ session'.conv ≠ session.conv
  closed : ∀ a id t, Step net s (.closed a id) t → ∀ b, t.peers b =
    if b = a ∧ (s.peers a).map (·.id) = some id then none else s.peers b
  late : s.tried ≤ 2 ^ 64 → ∀ k st t, s.started[k]? = some st →
    Step net s (.closed st.peer st.id) t → ∀ session, s.peers st.peer = some session →
    session.tx ≠ k → t.peers st.peer = some session

theorem ofNat_ne_of_lt {m n : Nat} (hm : 0 < m) (hmn : m < n) (hn : n ≤ 2 ^ 64) :
    UInt64.ofNat m ≠ UInt64.ofNat n := by
  intro h
  have hmod := congrArg UInt64.toNat h
  rw [UInt64.toNat_ofNat', UInt64.toNat_ofNat'] at hmod
  omega

theorem Step.closed_peers {net : KcpListener} {s t : Serve} {a : SocketAddr} {id : UInt64}
    (h : Step net s (.closed a id) t) : t.peers = (s.close a id).peers := by
  cases h
  rfl

namespace Ledger

variable {net : KcpListener} {s : Serve}

theorem ids_nodup (hl : Ledger net s) (hle : s.tried ≤ 2 ^ 64) :
    (s.started.map (·.id)).Nodup := by
  refine List.pairwise_map.mpr (hl.serials.imp_of_mem fun {st st'} hst hst' hlt => ?_)
  obtain ⟨hid, hpos, -⟩ := hl.ids st hst
  obtain ⟨hid', -, hle'⟩ := hl.ids st' hst'
  rw [hid, hid']
  exact ofNat_ne_of_lt hpos hlt (Nat.le_trans hle' hle)

/-- Sessions with the same id are the same. -/
theorem eq_of_id (hl : Ledger net s) (hle : s.tried ≤ 2 ^ 64) {k k' : Nat} {st st' : Started}
    (hst : s.started[k]? = some st) (hst' : s.started[k']? = some st') (hid : st.id = st'.id) :
    k = k' := by
  have hk : (s.started.map (·.id))[k]? = some st.id := by rw [List.getElem?_map, hst]; rfl
  have hk' : (s.started.map (·.id))[k']? = some st'.id := by rw [List.getElem?_map, hst']; rfl
  have hlt := (List.getElem?_eq_some_iff.mp hk).1
  refine (List.getElem?_inj hlt (hl.ids_nodup hle)).mp ?_
  rw [hk, hk', hid]

theorem demultiplexed (hl : Ledger net s) : Demultiplexed net s := by
  refine ⟨hl.entries, fun a b session session' ha hb htx => ?_, hl.ids_nodup, hl.handed, hl.queued,
    fun l t a session session' hstep hs ht hne => ?_, fun a id t hstep b => ?_,
    fun hle k st t hst hstep session hs hk => ?_⟩
  · obtain ⟨st, hst, hpeer, -, -⟩ := hl.entries a session ha
    obtain ⟨st', hst', hpeer', -, -⟩ := hl.entries b session' hb
    rw [htx, hst'] at hst
    obtain rfl := Option.some.inj hst
    exact hpeer.symm.trans hpeer'
  · cases hstep.moved a with
    | same h =>
      rw [h, hs] at ht
      exact absurd (Option.some.inj ht).symm hne
    | cancelled _ hnone | closed _ _ _ hnone | gone _ _ _ hnone =>
      rw [hnone] at ht
      cases ht
    | block segments rest conv sn hpc hc hnew hafter =>
      rcases hafter with hnone | hsome
      · rw [hnone] at ht
        cases ht
      · rw [hsome] at ht
        obtain rfl := Option.some.inj ht
        rcases hnew with hnone | ⟨old, hold, hconv, rfl⟩
        · rw [hnone] at hs
          cases hs
        · rw [hs] at hold
          obtain rfl := Option.some.inj hold
          exact ⟨segments, rest, hpc, hc, Ne.symm hconv⟩
  · rw [hstep.closed_peers]
    exact s.peers_close a id b
  · rw [hstep.closed_peers, s.peers_close, if_neg, hs]
    rintro ⟨-, hid⟩
    rw [hs] at hid
    obtain ⟨st', hst', -, -, hid'⟩ := hl.entries st.peer session hs
    have heq : st'.id = st.id := hid'.trans (Option.some.inj hid)
    exact hk (hl.eq_of_id hle hst' hst heq)

end Ledger

open Transition in
/-- In every state that `serve` reaches, blocks and close notifications go to the
sessions they belong to. -/
theorem serve_demultiplexes {net : KcpListener} {s : Serve}
    (hrun : Reaches (Step net) anyStep Serve.new s) : Demultiplexed net s := by
  have hl : Ledger net s :=
    hrun.invariant (I := Ledger net) (ledger_new net) fun _ _ _ hl _ hstep => hstep.ledger hl
  exact hl.demultiplexed

/-! ## The counter goes round -/

/-- A listener without encryption and FEC. -/
def plainListener : KcpListener :=
  { crypt := ⟨.none⟩, rs := newCopyCodec, datashard := 0, parityshard := 0 }

def peerAddr : SocketAddr := ⟨.v4 ⟨127, 0, 0, 1⟩, 4000⟩

/-- A push segment without data, with the `conv` 0 or 1 and the `sn` 0. -/
def segmentOf (odd : Bool) : Bytes :=
  [if odd then 1 else 0, 0, 0, 0, 81] ++ List.replicate 19 0

def convOf (odd : Bool) : UInt32 := if odd then 1 else 0

theorem peekConv_segmentOf (odd : Bool) : peekConv (segmentOf odd) = some (convOf odd, 0) := by
  cases odd <;> rfl

/-- A datagram that holds the segment. -/
def datagramOf (odd : Bool) : Datagram :=
  { peer := peerAddr
    bytes := PacketFramer.sealWith ⟨.none⟩ (List.replicate NONCE_SIZE 0)
      (List.replicate CRYPT_HEADER_SIZE 0 ++ segmentOf odd)
    now := 0 }

theorem length_datagramOf (odd : Bool) : (datagramOf odd).bytes.length ≤ MTU_LIMIT := by
  unfold datagramOf
  rw [PacketFramer.sealWith, Crypt.length_encrypt, List.length_append, List.length_append,
    Bytes.length_le]
  cases odd <;> decide

theorem unframe_datagramOf (odd : Bool) :
    packetUnframeFec plainListener.crypt (datagramOf odd).bytes none 0
      = .ok ([segmentOf odd], none) := by
  have hstrip : fecStrip ((List.replicate CRYPT_HEADER_SIZE 0 ++ segmentOf odd).drop
      CRYPT_HEADER_SIZE) = some (segmentOf odd) := by
    cases odd <;> rfl
  have hlen : IKCP_OVERHEAD ≤ (segmentOf odd).length := by
    cases odd <;> decide
  have hnonce : (List.replicate NONCE_SIZE (0 : UInt8)).length = NONCE_SIZE := rfl
  obtain ⟨buf, first, last, hunframe, hsegs⟩ := packetUnframe_sealWith ⟨.none⟩ hnonce hstrip hlen
  exact packetUnframeFec_none _ hunframe hsegs 0

/-- `n` sessions have been started, one after the other at the same address. -/
structure Spun (n : Nat) (s : Serve) : Prop where
  run : Transition.Reaches (Step plainListener) Transition.anyStep Serve.new s
  pc : s.pc = .select
  nextId : s.nextId = UInt64.ofNat n
  tried : s.tried = n
  ids : s.started.map (·.id) = (List.range n).map fun i => UInt64.ofNat (i + 1)
  peer : ∃ odd, ∀ session, s.peers peerAddr = some session → session.conv ≠ convOf odd

theorem Spun.next {n : Nat} {s : Serve} (h : Spun n s) : ∃ t, Spun (n + 1) t := by
  obtain ⟨odd, hodd⟩ := h.peer
  have hstarts : s.Starts peerAddr (convOf odd) 0 := by
    cases hp : s.peers peerAddr with
    | none => exact .inl hp
    | some session => exact .inr ⟨session, hp, hodd session hp, rfl⟩
  have hrecv := h.run.tail trivial (Step.recvFrom (d := datagramOf odd) h.pc (length_datagramOf odd)
    (unframe_datagramOf odd))
  have hstart := hrecv.tail trivial (Step.started true rfl (peekConv_segmentOf odd) hstarts)
  refine ⟨_, hstart.tail trivial (Step.done rfl), rfl, ?_, congrArg (· + 1) h.tried, ?_, !odd, ?_⟩
  · show s.nextId + 1 = _
    rw [h.nextId, UInt64.ofNat_add]
    rfl
  · have hids : ∀ st : Started, st.id = s.nextId + 1 →
        (s.started ++ [st]).map (·.id) = (List.range (n + 1)).map fun i => UInt64.ofNat (i + 1) := by
      intro st hst
      rw [List.map_append, h.ids, List.range_succ, List.map_append]
      simp only [List.map_singleton, hst, h.nextId, UInt64.ofNat_add]
      rfl
    exact hids _ rfl
  · intro session hs
    have hself : Function.update s.peers peerAddr _ peerAddr = some session := hs
    rw [Function.update_self] at hself
    cases hself
    show convOf odd ≠ convOf !odd
    cases odd <;> decide

theorem exists_spun (n : Nat) : ∃ s, Spun n s := by
  induction n with
  | zero => exact ⟨_, .refl, rfl, rfl, rfl, rfl, false, nofun⟩
  | succ n ih =>
    obtain ⟨s, hs⟩ := ih
    exact hs.next

open Transition in
/-- A run that starts three sessions at one address. -/
theorem serve_demultiplexes_three : ∃ s, Reaches (Step plainListener) anyStep Serve.new s
    ∧ s.started.length = 3 ∧ Demultiplexed plainListener s := by
  obtain ⟨s, hs⟩ := exists_spun 3
  have hlen := congrArg List.length hs.ids
  rw [List.length_map, List.length_map, List.length_range] at hlen
  exact ⟨s, hs.run, hlen, serve_demultiplexes hs.run⟩

open Transition in
/-- Ids are used again once the counter has gone round. -/
theorem serve_reuses_ids : ¬ ∀ (net : KcpListener) (s : Serve),
    Reaches (Step net) anyStep Serve.new s → (s.started.map (·.id)).Nodup := by
  intro hall
  obtain ⟨s, hs⟩ := exists_spun (2 ^ 64 + 1)
  have hnodup := hall plainListener s hs.run
  rw [hs.ids] at hnodup
  have hsame := List.inj_on_of_nodup_map hnodup (x := 0) (List.mem_range.mpr (by omega))
    (y := 2 ^ 64) (List.mem_range.mpr (by omega)) (by decide)
  omega

end Kcp
end RtProxy
