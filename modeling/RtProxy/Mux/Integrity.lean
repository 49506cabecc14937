import RtProxy.Lib.Transition
import RtProxy.Mux.Wire
import RtProxy.Mux.Routing

/-!
Stream integrity between the two ends of a connection.

A client and a server session are joined by two byte pipes that lose, add and
reorder nothing; a transfer moves any number of the bytes under way, so writes
are split and merged freely.  The pipes may also end or break off, which the
sessions see as end of file or as an error.
-/

namespace RtProxy
namespace Mux

open Transition

/-- The steps of a session that move no byte between it and a pipe. -/
def Label.internal : Label → Bool
  | .arrive _ | .carry _ => false
  | _ => true

structure Pair where
  client : Session
  server : Session

namespace Pair

def new (client server : MuxConfig) : Pair :=
  { client := Session.new client true, server := Session.new server false }

/-- Who moves: one of the sessions, or a pipe by `n` bytes. -/
inductive Label
  | client (l : Mux.Label)
  | server (l : Mux.Label)
  | toServer (n : Nat)
  | toClient (n : Nat)
deriving Repr, DecidableEq

inductive Step (p : Pair) : Label → Pair → Prop
  | client {l : Mux.Label} {t : Session} (h : Mux.Step p.client l t) (hl : l.internal = true) :
      Step p (.client l) { p with client := t }
  | server {l : Mux.Label} {t : Session} (h : Mux.Step p.server l t) (hl : l.internal = true) :
      Step p (.server l) { p with server := t }
  | toServer {n : Nat} {c s : Session} (hc : Mux.Step p.client (.carry n) c)
      (hs : Mux.Step p.server (.arrive (p.client.outbound.take n)) s) :
      Step p (.toServer n) { client := c, server := s }
  | toClient {n : Nat} {c s : Session} (hs : Mux.Step p.server (.carry n) s)
      (hc : Mux.Step p.client (.arrive (p.server.outbound.take n)) c) :
      Step p (.toClient n) { client := c, server := s }

end Pair

/-! ## One session and its pipes -/

theorem FailStep.pipes {s t : Session} {pc : FailPc} {next : Option FailPc}
    (h : FailStep s pc t next) :
    t.arrived = s.arrived ∧ t.outbound = s.outbound ∧ t.wire = s.wire := by
  cases h <;> exact ⟨rfl, rfl, rfl⟩

/-- What a session writes goes to the end of its outgoing pipe. -/
theorem Step.pipes {s t : Session} {l : Label} (h : Step s l t) (hl : l.internal = true) :
    t.arrived = s.arrived ∧ ∃ bs, t.outbound = s.outbound ++ bs ∧ t.wire = s.wire ++ bs := by
  have hsame : ∃ bs, s.outbound = s.outbound ++ bs ∧ s.wire = s.wire ++ bs :=
    ⟨[], (List.append_nil _).symm, (List.append_nil _).symm⟩
  cases h
  all_goals try exact ⟨rfl, hsame⟩
  case readerFail hf | writerFail hf | keepFail hf | closeFail hf =>
    obtain ⟨harr, hout, hwire⟩ := hf.pipes
    refine ⟨harr, ?_⟩
    dsimp only [Session.setClose]
    rw [hout, hwire]
    exact hsame
  case writerWrite out count k _ _ => exact ⟨rfl, out.take k, rfl, rfl⟩
  case openAlloc ha =>
    obtain ⟨-, -, rfl⟩ := Session.allocId_eq_some ha
    exact ⟨rfl, hsame⟩
  case openAllocErr ha =>
    obtain rfl := Session.allocId_eq_none ha
    exact ⟨rfl, hsame⟩
  case arrive => cases hl
  case carry => cases hl

/-- Running out of ids is for good. -/
theorem PeerStep.over_mono {p p' : Peer} (h : PeerStep p p') (hover : p'.over = false) :
    p.over = false := by
  cases h
  case exhaust => cases hover
  all_goals exact hover

theorem PeerStep.parsed_mono {p p' : Peer} (h : PeerStep p p') : p.parsed <+: p'.parsed := by
  cases h
  case consume => exact List.prefix_append _ _
  all_goals exact List.prefix_refl _

/-- What holds of each end whatever the other does. -/
structure Healthy (s : Session) : Prop where
  wf : Wf s
  unfinished : Unfinished s
  outgoing : Outgoing s
  incoming : Incoming s
  frameSize : s.config.maxFrameSize ≤ MAX_FRAME_DATA

theorem healthy_new {config : MuxConfig} (h : config.verify = .ok ()) (isClient : Bool) :
    Healthy (Session.new config isClient) :=
  ⟨wf_new config isClient, nofun, outgoing_new config isClient,
    incoming_new config isClient, (MuxConfig.valid_of_verify h).maxFrameSize_le⟩

theorem Step.healthy {s t : Session} {l : Label} (h : Step s l t) (hs : Healthy s) : Healthy t :=
  ⟨h.wf hs.wf, h.unfinished hs.wf hs.unfinished, h.outgoing hs.frameSize hs.outgoing,
    h.incoming hs.incoming, by rw [h.config]; exact hs.frameSize⟩

/-! ## Both sessions -/

/-- Two sessions of parities `pa` and `pb` with their pipes. -/
structure Linked (pa pb : Nat) (a b : Session) : Prop where
  left : Healthy a
  right : Healthy b
  there : b.arrived ++ a.outbound = a.wire
  back : a.arrived ++ b.outbound = b.wire
  agree : a.goAway = false → b.goAway = false →
    Joined (a.peer pa) (b.peer pb) ∧ Routed a ∧ Routed b

namespace Linked

variable {pa pb : Nat} {a b : Session}

theorem symm (h : Linked pa pb a b) : Linked pb pa b a :=
  ⟨h.right, h.left, h.back, h.there, fun hb ha =>
    have ⟨hj, hra, hrb⟩ := h.agree ha hb
    ⟨hj.symm, hrb, hra⟩⟩

/-- No payload has come for an id under which a stream is being inserted. -/
theorem payload_of_inserts (hj : Joined (a.peer pa) (b.peer pb)) {l : Label} {sid : UInt32}
    (h : Inserts a l sid) : Msg.payload sid a.heard = [] := by
  rcases h with ⟨-, h⟩ | ⟨k, -, h⟩
  · have honid := (hj.leftHears.handling sid (by show a.reader.syn = _; rw [h]; rfl)).1
    change Msg.onId sid a.heard = _ at honid
    rw [Msg.payload, honid]
    rfl
  · have hview : (a.peer pa).opens k = .insert sid := by
      show (a.opens k).view = _
      rw [h]
      rfl
    have honid := hj.unheard_of_inflight hview
    change Msg.onId sid a.heard = _ at honid
    rw [Msg.payload, honid]
    rfl

/-- The payload of an id is complete once its FIN has been consumed. -/
theorem payload_after_fin {a' : Session} (hj : Joined (a.peer pa) (b.peer pb))
    (hj' : Joined (a'.peer pa) (b.peer pb)) (hmono : a.heard <+: a'.heard) {i : UInt32}
    (hfin : Msg.fin i ∈ a.heard) : Msg.payload i a'.heard = Msg.payload i a.heard := by
  obtain ⟨r, hr, hid, -⟩ := hj.right.exists_sender (hj.leftHears.channel.subset hfin)
  change (b.peer pb).ids r = i at hid
  subst hid
  have hbefore := ((hj.payload_isPrefix hr).2 hfin).1
  have hafter := ((hj'.payload_isPrefix hr).2 (hmono.subset hfin)).1
  exact hafter.trans hbefore.symm

/-- A step of one of the sessions. -/
theorem step {a' : Session} {l : Label} (h : Linked pa pb a b) (hs : Step a l a')
    (hl : l.internal = true) : Linked pa pb a' b := by
  obtain ⟨harr, bs, hout, hwire⟩ := hs.pipes hl
  have hhealthy := hs.healthy h.left
  have hback : a'.arrived ++ b.outbound = b.wire := by
    rw [harr]
    exact h.back
  refine ⟨hhealthy, h.right, ?_, hback, fun ha' hb => ?_⟩
  · rw [hout, hwire, ← List.append_assoc, h.there]
  · have hpeer := hs.peer h.left.wf h.left.unfinished pa
    obtain ⟨hj, hra, hrb⟩ := h.agree (hpeer.over_mono ha') hb
    have hchannel : (a'.peer pa).parsed <+: (b.peer pb).sent.map (·.2) :=
      parsed_isPrefix_sent hhealthy.incoming h.right.outgoing ⟨b.outbound, hback⟩
    have hj' := hj.step hpeer ha' hchannel
    refine ⟨hj', hs.routed h.left.wf hra (fun sid => payload_of_inserts hj) (fun i hi => ?_), hrb⟩
    exact payload_after_fin hj hj' hpeer.parsed_mono hi

/-- A transfer of `n` bytes from one session to the other. -/
theorem transfer {a' b' : Session} {n : Nat} (h : Linked pa pb a b) (ha : Step a (.carry n) a')
    (hb : Step b (.arrive (a.outbound.take n)) b') : Linked pa pb a' b' := by
  have ha' := ha.healthy h.left
  have hb' := hb.healthy h.right
  cases ha
  cases hb
  refine ⟨ha', hb', ?_, h.back, fun hga hgb => ?_⟩
  · show b.arrived ++ a.outbound.take n ++ a.outbound.drop n = a.wire
    rw [List.append_assoc, List.take_append_drop]
    exact h.there
  · obtain ⟨hj, hra, hrb⟩ := h.agree hga hgb
    exact ⟨hj,
      hra.congr (fun _ => .rfl) rfl rfl rfl (fun _ _ => id) (fun _ hd => ⟨hd, rfl, rfl⟩),
      hrb.congr (fun _ => .rfl) rfl rfl rfl (fun _ _ => id) (fun _ hd => ⟨hd, rfl, rfl⟩)⟩

end Linked

theorem local_new {config : MuxConfig} (isClient : Bool) :
    ((Session.new config isClient).peer (if isClient then 1 else 0)).Local := by
  refine ⟨by cases isClient <;> rfl, nofun, nofun, ?_,
    fun _ _ => rfl, nofun, ?_, fun r => ?_⟩
  · exact fun r hr => absurd hr (Nat.not_lt_zero r)
  · exact fun r _ hr => absurd hr (Nat.not_lt_zero r)
  · exact Peer.Scripted.fresh rfl rfl (fun hg => nomatch hg.1) fun _ => rfl

theorem hears_new {config config' : MuxConfig} (isClient : Bool) (pa pb : Nat) :
    ((Session.new config isClient).peer pa).Hears ((Session.new config' !isClient).peer pb) :=
  ⟨List.nil_prefix, fun r hr => absurd hr (Nat.not_lt_zero r), nofun⟩

theorem routed_new (config : MuxConfig) (isClient : Bool) :
    Routed (Session.new config isClient) :=
  ⟨fun r hr => absurd hr (Nat.not_lt_zero r), nofun, nofun⟩

theorem linked_new {client server : MuxConfig} (hc : client.verify = .ok ())
    (hs : server.verify = .ok ()) :
    Linked 1 0 (Pair.new client server).client (Pair.new client server).server :=
  ⟨healthy_new hc true, healthy_new hs false, rfl, rfl, fun _ _ =>
    ⟨⟨nofun, local_new true, local_new false, hears_new true 1 0, hears_new false 0 1⟩,
      routed_new client true, routed_new server false⟩⟩

theorem Pair.Step.linked {p p' : Pair} {l : Pair.Label} (h : p.Step l p')
    (hp : Linked 1 0 p.client p.server) : Linked 1 0 p'.client p'.server := by
  cases h with
  | client h hl => exact hp.step h hl
  | server h hl => exact (hp.symm.step h hl).symm
  | toServer hc hs => exact hp.transfer hc hs
  | toClient hs hc => exact (hp.symm.transfer hs hc).symm

/-! ## Integrity -/

/-- For every stream that `reader` has not dropped: what its reads have returned
is a prefix of what `writer` accepted for its stream of the same id, end of file
was reported only if that stream has sent its FIN and every byte was delivered,
and nothing was read or reported if `writer` has no such stream. -/
def Intact (reader writer : Session) : Prop :=
  ∀ r < reader.nextRef, (reader.handles r).op.dropping = false →
    (∀ r' < writer.nextRef, (writer.objs r').id = (reader.objs r).id →
      (reader.handles r).got <+: (writer.handles r').put
        ∧ ((reader.handles r).eof = true → (writer.handles r').finSent = true
          ∧ (reader.handles r).got = (writer.handles r').put))
      ∧ ((∀ r' < writer.nextRef, (writer.objs r').id ≠ (reader.objs r).id) →
        (reader.handles r).got = [] ∧ (reader.handles r).eof = false)

/-- The bytes read from a stream are a prefix of the payload consumed for it, and
all of it, with the FIN, once end of file was reported. -/
theorem RoutedAt.got {s : Session} {r : Nat} (h : RoutedAt s r) :
    (s.handles r).got <+: s.incoming r
      ∧ ((s.handles r).eof = true →
        (s.handles r).got = s.incoming r ∧ Msg.fin (s.objs r).id ∈ s.heard) := by
  have hgot : (s.handles r).got <+: s.received r := List.prefix_append _ _
  refine ⟨(hgot.trans (List.prefix_append _ _)).trans h.sound, fun he => ?_⟩
  obtain ⟨hf, hc⟩ := h.eof he
  obtain ⟨hmem, hall⟩ := h.fin (.inl hf)
  refine ⟨?_, hmem⟩
  rw [← hall, Session.received, hc, List.append_nil]

theorem intact_of_joined {pa pb : Nat} {a b : Session} (hj : Joined (a.peer pa) (b.peer pb))
    (hr : Routed a) : Intact a b := by
  intro r hlt hd
  obtain ⟨hgot, heof⟩ := (hr.streams r hlt hd).got
  refine ⟨fun r' hr' hid => ?_, fun hnone => ?_⟩
  · obtain ⟨hpre, hfin⟩ := hj.payload_isPrefix hr'
    change (b.objs r').id = _ at hid
    change Msg.payload (b.objs r').id a.heard <+: (b.handles r').put at hpre
    rw [hid] at hpre
    refine ⟨hgot.trans hpre, fun he => ?_⟩
    obtain ⟨hall, hmem⟩ := heof he
    rw [← hid] at hmem
    obtain ⟨hput, hsent⟩ := hfin hmem
    refine ⟨hsent, ?_⟩
    rw [hall, Session.incoming, ← hid]
    exact hput
  · have hnil : Msg.onId (a.objs r).id a.heard = [] := hj.payload_eq_nil hnone
    constructor
    · rw [Session.incoming, Msg.payload, hnil] at hgot
      exact List.prefix_nil.mp hgot
    · by_contra he
      have hmem := Msg.mem_onId.mpr ⟨(heof (by simpa using he)).2, rfl⟩
      change _ ∈ Msg.onId (a.objs r).id a.heard at hmem
      rw [hnil] at hmem
      cases hmem

/-- Every stream is intact in both directions, in every state that two sessions
with verified configurations reach before one of them runs out of ids. -/
theorem streams_intact {client server : MuxConfig} (hc : client.verify = .ok ())
    (hs : server.verify = .ok ()) {p : Pair}
    (run : Reaches Pair.Step anyStep (Pair.new client server) p)
    (hclient : p.client.goAway = false) (hserver : p.server.goAway = false) :
    Intact p.client p.server ∧ Intact p.server p.client := by
  have hlinked := run.invariant (I := fun p => Linked 1 0 p.client p.server) (linked_new hc hs)
    fun _ _ _ hp _ hstep => hstep.linked hp
  obtain ⟨hj, hra, hrb⟩ := hlinked.agree hclient hserver
  exact ⟨intact_of_joined hj hra, intact_of_joined hj.symm hrb⟩

/-- A client opens a stream, writes two bytes and shuts it down; the server reads
them and the end of file. -/
theorem delivery_run : ∃ p, Reaches Pair.Step anyStep (Pair.new MuxConfig.default MuxConfig.default) p
    ∧ p.client.goAway = false ∧ p.server.goAway = false
    ∧ (p.server.handles 0).got = [7, 9] ∧ (p.server.handles 0).eof = true := by
  have start : Reaches Pair.Step anyStep (Pair.new MuxConfig.default MuxConfig.default) _ := .refl
  have h := start.tail trivial (.client (.openStart (k := 0) rfl) rfl)
  have h := h.tail trivial (.client (.openGoAway (k := 0) rfl) rfl)
  have h := h.tail trivial (.client (.openAlloc (k := 0) rfl rfl) rfl)
  have h := h.tail trivial (.client (.openInsert (k := 0) rfl) rfl)
  have h := h.tail trivial (.client (.openPush (k := 0) rfl rfl) rfl)
  have h := h.tail trivial (.client (.callWrite (r := 0) [7, 9] 0 rfl nofun rfl) rfl)
  have h := h.tail trivial (.client (.writeClosed (r := 0) rfl) rfl)
  have h := h.tail trivial (.client (.writeDead (r := 0) rfl) rfl)
  have h := h.tail trivial (.client (.writeReserve (r := 0) rfl) rfl)
  have h := h.tail trivial (.client (.writePush (r := 0) rfl rfl) rfl)
  have h := h.tail trivial (.client (.callShutdown (r := 0) 0 rfl) rfl)
  have h := h.tail trivial (.client (.shutOpen (r := 0) rfl rfl) rfl)
  have h := h.tail trivial (.client (.sendFin (r := 0) (.inl ⟨0, rfl, rfl⟩) rfl) rfl)
  have h := h.tail trivial (.client (.writerTake rfl rfl rfl) rfl)
  have h := h.tail trivial (.client (.writerWrite 26 rfl (by decide)) rfl)
  -- the frames arrive in two pieces
  have h := h.tail trivial (.toServer (.carry 11) (.arrive _))
  have h := h.tail trivial (.server (.readerTop rfl) rfl)
  have h := h.tail trivial (.server (.readerHeader 8 rfl (by decide) (by decide) (by decide)) rfl)
  have h := h.tail trivial (.server (.readerDecodeEmpty rfl rfl rfl) rfl)
  have h := h.tail trivial (.server (.readerSynCheck rfl) rfl)
  have h := h.tail trivial (.server (.readerSynInsert rfl) rfl)
  have h := h.tail trivial (.server (.readerAcceptSend rfl rfl (by decide)) rfl)
  have h := h.tail trivial (.toServer (.carry 15) (.arrive _))
  have h := h.tail trivial (.server (.readerTop rfl) rfl)
  have h := h.tail trivial (.server (.readerHeader 8 rfl (by decide) (by decide) (by decide)) rfl)
  have h := h.tail trivial (.server (.readerDecodeBody rfl rfl (by decide)) rfl)
  have h := h.tail trivial (.server (.readerBodyDone 2 rfl (by decide) rfl (by decide)) rfl)
  have h := h.tail trivial (.server (.readerPshHit rfl rfl) rfl)
  have h := h.tail trivial (.server (.readerPshSpend rfl) rfl)
  have h := h.tail trivial (.server (.readerPshPush rfl) rfl)
  have h := h.tail trivial (.server (.readerTop rfl) rfl)
  have h := h.tail trivial (.server (.readerHeader 8 rfl (by decide) (by decide) (by decide)) rfl)
  have h := h.tail trivial (.server (.readerDecodeEmpty rfl rfl rfl) rfl)
  have h := h.tail trivial (.server (.readerFinHit rfl rfl) rfl)
  have h := h.tail trivial (.server (.readerFinSet rfl) rfl)
  have h := h.tail trivial (.server (.acceptStream rfl) rfl)
  have h := h.tail trivial (.server (.callRead (r := 0) ⟨8, by decide⟩ 0 rfl) rfl)
  have h := h.tail trivial (.server (.streamRead (r := 0) rfl) rfl)
  have h := h.tail trivial (.server (.refundAdd (r := 0) rfl (by decide)) rfl)
  have h := h.tail trivial (.server (.callRead (r := 0) ⟨8, by decide⟩ 0 rfl) rfl)
  have h := h.tail trivial (.server (.streamRead (r := 0) rfl) rfl)
  exact ⟨_, h, rfl, rfl, rfl, rfl⟩

theorem streams_intact_after_delivery :
    ∃ p, Reaches Pair.Step anyStep (Pair.new MuxConfig.default MuxConfig.default) p
      ∧ (p.server.handles 0).got = [7, 9] ∧ (p.server.handles 0).eof = true
      ∧ Intact p.client p.server ∧ Intact p.server p.client := by
  obtain ⟨p, hrun, hclient, hserver, hgot, heof⟩ := delivery_run
  exact ⟨p, hrun, hgot, heof, streams_intact rfl rfl hrun hclient hserver⟩

end Mux
end RtProxy
