import RtProxy.Lib.Picked
import RtProxy.Socks5.TunnelFrames
import RtProxy.Udp.Relays

/-!
What the UDP relays send, and to whom they answer.
-/

namespace RtProxy
namespace UdpRelay

open ByteStream Net Picked

/-- The destination passes `Can` and the bypass. -/
structure Allowed (o : HandlerOptions) (dst : String) : Prop where
  can : Can "udp" dst o.whitelist o.blacklist = true
  bypass : o.bypasses dst = false

variable {o : HandlerOptions}

theorem allowed_of_udpDstAllowed {dst : String} (h : udpDstAllowed o dst = true) :
    Allowed o dst := by
  unfold udpDstAllowed at h
  split_ifs at h with hcan hbypass
  exact ⟨eq_true_of_ne_false hcan, eq_false_of_ne_true hbypass⟩

/-- What is admitted has passed both checks twice. -/
theorem approve_eq_some {dst : String} {resolved : Option SocketAddr} {raddr : SocketAddr}
    (h : approve o dst resolved = some raddr) :
    resolved = some raddr ∧ Allowed o dst ∧ Allowed o raddr.text := by
  unfold approve at h
  by_cases hdst : udpDstAllowed o dst = false
  · rw [if_pos hdst] at h
    cases h
  have hallowed := allowed_of_udpDstAllowed (eq_true_of_ne_false hdst)
  rw [if_neg hdst] at h
  cases resolved with
  | none => cases h
  | some addr =>
    by_cases hagain : addr.text ≠ dst ∧ udpDstAllowed o addr.text = false
    · simp only [if_pos hagain] at h
      cases h
    · simp only [if_neg hagain] at h
      cases h
      refine ⟨rfl, hallowed, ?_⟩
      by_cases hsame : raddr.text = dst
      · rw [hsame]
        exact hallowed
      · exact allowed_of_udpDstAllowed (eq_true_of_ne_false fun hno => hagain ⟨hsame, hno⟩)

theorem Packet.received_eq (p : Packet) : p.received = p.bytes :=
  List.take_of_length_le (Nat.le_trans p.le (by decide))

theorem Packet.read_eq (p : Packet) : p.read = p.bytes :=
  List.take_of_length_le (Nat.le_trans p.le (by decide))

/-! ## `transport_udp` -/

def TransportEv.client? : TransportEv → Option FromClient
  | .fromClient d => some d
  | _ => none

/-- The first source address that sends anything to the relay socket. -/
def firstSource (evs : List TransportEv) : Option SocketAddr :=
  (evs.filterMap TransportEv.client?).head?.map (·.laddr)

/-- What is sent on for a client's datagram: with `FRAG` 0, the bytes after its header. -/
def SentFor (o : HandlerOptions) (d : FromClient) (out : Bytes × SocketAddr) : Prop :=
  ∃ host port off, Socks5.parseUdpDatagram d.packet.bytes = some (0, host, port, off)
    ∧ out.1 = d.packet.bytes.drop off ∧ resolveUdpAddr d.answer host port = some out.2
    ∧ Allowed o (Socks5.joinHostPort host port) ∧ Allowed o out.2.text

/-- Only the first source is served and answered. -/
structure TransportOk (o : HandlerOptions) (evs : List TransportEv) (s : TransportUdp) : Prop where
  received : s.received <+: evs.filterMap TransportEv.client?
  sent : Made (SentFor o) (s.received.filter fun d => firstSource evs = some d.laddr) s.sent
  replies : ∀ r ∈ s.replies, firstSource evs = some r.caddr ∧ o.bypasses r.origin.text = false
    ∧ ∃ d, .fromPeer d ∈ evs ∧ r.origin = d.origin
      ∧ r.packet = Socks5.encodeUdpDatagram d.origin d.packet.bytes

namespace TransportUdp

theorem forward_eq_some {d : FromClient} {out : Bytes × SocketAddr}
    (h : forward o d.packet.received d.answer = some out) : SentFor o d out := by
  rw [Packet.received_eq] at h
  unfold forward at h
  cases hparse : Socks5.parseUdpDatagram d.packet.bytes with
  | none =>
    rw [hparse] at h
    cases h
  | some x =>
    obtain ⟨frag, host, port, off⟩ := x
    simp only [hparse] at h
    by_cases hfrag : frag ≠ 0
    · rw [if_pos hfrag] at h
      cases h
    · rw [if_neg hfrag] at h
      obtain ⟨raddr, happrove, rfl⟩ := Option.map_eq_some_iff.mp h
      obtain ⟨hresolved, hdst, haddr⟩ := approve_eq_some happrove
      obtain rfl := not_ne_iff.mp hfrag
      exact ⟨host, port, off, hparse, rfl, hresolved, hdst, haddr⟩

/-- What holds of the loop after the inputs `before`. -/
structure Inv (o : HandlerOptions) (before : List TransportEv) (s : TransportUdp) : Prop where
  received : s.received <+: before.filterMap TransportEv.client?
  all : s.ended = none → s.received = before.filterMap TransportEv.client?
  client : s.clientAddr = s.received.head?.map (·.laddr)
  sent : Made (SentFor o) (s.received.filter fun d => s.clientAddr = some d.laddr) s.sent
  replies : ∀ r ∈ s.replies, s.clientAddr = some r.caddr ∧ o.bypasses r.origin.text = false
    ∧ ∃ d, .fromPeer d ∈ before ∧ r.origin = d.origin
      ∧ r.packet = Socks5.encodeUdpDatagram d.origin d.packet.bytes

/-- The loop after it has taken in a client's datagram. -/
def take (s : TransportUdp) (d : FromClient) : TransportUdp :=
  { s with clientAddr := some (s.clientAddr.getD d.laddr), received := s.received ++ [d] }

namespace Inv

variable {before : List TransportEv} {s : TransportUdp}

theorem init : Inv o [] TransportUdp.init where
  received := List.prefix_rfl
  all _ := rfl
  client := rfl
  sent := .nil
  replies _ hr := absurd hr List.not_mem_nil

/-- An input that is not looked at, or that no client sent. -/
theorem later (h : Inv o before s) (ev : TransportEv) (hev : s.ended ≠ none ∨ ev.client? = none) :
    Inv o (before ++ [ev]) s where
  received := by
    rw [List.filterMap_append]
    exact h.received.trans (List.prefix_append _ _)
  all hrun := by
    have hnone : ev.client? = none := hev.resolve_left fun hne => hne hrun
    rw [List.filterMap_append, h.all hrun, List.filterMap_cons_none hnone, List.filterMap_nil,
      List.append_nil]
  client := h.client
  sent := h.sent
  replies r hr := by
    obtain ⟨hclient, hbypass, d, hd, hrest⟩ := h.replies r hr
    exact ⟨hclient, hbypass, d, List.mem_append_left _ hd, hrest⟩

theorem fail (h : Inv o before s) (result : Except IoError Unit) : Inv o before (s.fail result) := by
  cases result with
  | ok u => exact h
  | error e =>
    refine ⟨h.received, fun hrun => ?_, h.client, h.sent, h.replies⟩
    cases hrun

/-- What has been sent stays made of the datagrams of the client that is served. -/
theorem filter_take (h : Inv o before s) (d : FromClient) :
    ((s.take d).received.filter fun x => (s.take d).clientAddr = some x.laddr)
      = (s.received.filter fun x => s.clientAddr = some x.laddr)
        ++ if s.clientAddr.getD d.laddr = d.laddr then [d] else [] := by
  show ((s.received ++ [d]).filter fun x => some (s.clientAddr.getD d.laddr) = some x.laddr) = _
  rw [List.filter_append, List.filter_singleton]
  congr 1
  · cases hclient : s.clientAddr with
    | some a => rfl
    | none =>
      have hnil : s.received = [] := by
        have hhead := h.client
        rw [hclient] at hhead
        exact List.head?_eq_none_iff.mp (Option.map_eq_none_iff.mp hhead.symm)
      rw [hnil]
      rfl
  · by_cases hown : s.clientAddr.getD d.laddr = d.laddr
    · rw [if_pos hown, hown, decide_eq_true rfl]
      rfl
    · rw [if_neg hown, decide_eq_false fun heq => hown (Option.some.inj heq)]
      rfl

theorem take (h : Inv o before s) (hrun : s.ended = none) (d : FromClient)
    {sent : List (Bytes × SocketAddr)}
    (hsent : Made (SentFor o)
      ((s.take d).received.filter fun x => (s.take d).clientAddr = some x.laddr) sent) :
    Inv o (before ++ [.fromClient d]) { s.take d with sent := sent } where
  received := by
    show s.received ++ [d] <+: _
    rw [List.filterMap_append, h.all hrun]
    exact List.prefix_rfl
  all _ := by
    show s.received ++ [d] = _
    rw [List.filterMap_append, h.all hrun]
    rfl
  client := by
    show some (s.clientAddr.getD d.laddr) = (s.received ++ [d]).head?.map (·.laddr)
    rw [h.client]
    cases s.received <;> rfl
  sent := hsent
  replies r hr := by
    obtain ⟨hclient, hbypass, x, hx, hrest⟩ := h.replies r hr
    refine ⟨?_, hbypass, x, List.mem_append_left _ hx, hrest⟩
    show some (s.clientAddr.getD d.laddr) = some r.caddr
    rw [hclient]
    rfl

theorem onClient (h : Inv o before s) (hrun : s.ended = none) (d : FromClient) :
    Inv o (before ++ [.fromClient d]) (s.onClient o d) := by
  have hfilter := h.filter_take d
  have hkeep : Inv o (before ++ [.fromClient d]) (s.take d) := by
    apply h.take hrun d
    rw [hfilter]
    exact h.sent.skip _
  unfold TransportUdp.onClient
  by_cases hown : s.clientAddr.getD d.laddr ≠ d.laddr
  · rw [if_pos hown]
    exact hkeep
  · rw [if_neg hown]
    cases hout : forward o d.packet.received d.answer with
    | none => exact hkeep
    | some out =>
      refine fail (h.take hrun d ?_) d.result
      rw [hfilter, if_pos (not_ne_iff.mp hown)]
      exact h.sent.take (forward_eq_some hout)

theorem onPeer (h : Inv o before s) (d : Outside) :
    Inv o (before ++ [.fromPeer d]) (s.onPeer o d) := by
  have hlater := h.later (.fromPeer d) (.inr rfl)
  unfold TransportUdp.onPeer
  split
  · exact hlater
  · rename_i caddr hclient
    by_cases hbypass : o.bypasses d.origin.text = true
    · simp only [if_pos hbypass]
      exact hlater
    · simp only [if_neg hbypass]
      apply fail
      refine ⟨hlater.received, hlater.all, hlater.client, hlater.sent, fun r hr => ?_⟩
      rcases List.mem_append.mp hr with hr | hr
      · exact hlater.replies r hr
      · rw [List.mem_singleton.mp hr]
        refine ⟨hclient, eq_false_of_ne_true hbypass, d, ?_, rfl, ?_⟩
        · exact List.mem_append_right _ List.mem_cons_self
        · rw [Packet.received_eq]

theorem round (h : Inv o before s) (ev : TransportEv) :
    Inv o (before ++ [ev]) (s.round o ev) := by
  unfold TransportUdp.round
  cases hended : s.ended with
  | some e =>
    refine h.later ev (.inl ?_)
    rw [hended]
    exact Option.some_ne_none e
  | none =>
    cases ev with
    | fromClient d => exact h.onClient hended d
    | fromPeer d => exact h.onPeer d
    | failed e => exact fail (h.later _ (.inr rfl)) (.error e)

end Inv

theorem run_ok (o : HandlerOptions) (evs : List TransportEv) : TransportOk o evs (run o evs) := by
  have h : Inv o evs (run o evs) :=
    foldl_rounds Inv.init (fun before s ev hs => hs.round ev) evs
  -- the client that is served is the first source as soon as there is one
  have hfirst (a : SocketAddr) (ha : (run o evs).clientAddr = some a) : firstSource evs = some a := by
    obtain ⟨more, hmore⟩ := h.received
    unfold firstSource
    rw [← hmore, List.head?_append, ← ha, h.client]
    cases hr : (run o evs).received with
    | nil =>
      rw [h.client, hr] at ha
      cases ha
    | cons d rest => rfl
  constructor
  case received => exact h.received
  case sent =>
    have hsent := h.sent
    cases hclient : (run o evs).clientAddr with
    | some a =>
      rw [hfirst a hclient]
      rwa [hclient] at hsent
    | none =>
      rw [hclient] at hsent
      obtain ⟨picked, hsub, hmade⟩ := hsent
      have hnil : picked = [] := by
        rw [List.filter_eq_nil_iff.mpr fun x _ => by simp] at hsub
        exact List.sublist_nil.mp hsub
      rw [hnil] at hmade
      exact ⟨[], List.nil_sublist _, hmade⟩
  case replies =>
    intro r hr
    obtain ⟨hclient, hrest⟩ := h.replies r hr
    exact ⟨hfirst _ hclient, hrest⟩

end TransportUdp

/-! ## `tunnel_server_udp` -/

/-- The datagram stands in the stream, behind a header of its own with `FRAG` 0 and its
length. -/
def InFrame (stream : Bytes) (d : Socks5.Datagram) : Prop :=
  ∃ before head after, stream = before ++ (head ++ d.data) ++ after
    ∧ Socks5.parseUdpDatagram head = some (0, d.host, d.port, head.length)
    ∧ Bytes.beNat (head.take 2) = d.data.length

/-- What is sent on for a datagram of the tunnel. -/
def TunnelSentFor (o : HandlerOptions) (d : FromTunnel) (out : Bytes × SocketAddr) : Prop :=
  out.1 = d.datagram.data
    ∧ resolveUdpAddr d.answer d.datagram.host d.datagram.port = some out.2
    ∧ Allowed o (Socks5.joinHostPort d.datagram.host d.datagram.port) ∧ Allowed o out.2.text

structure TunnelOk (o : HandlerOptions) (src : Inbound IoError) (evs : List TunnelEv)
    (s : TunnelUdp) : Prop where
  reads : ∃ outs left, Socks5.framing.Reads () src.content outs () left
    ∧ outs.filterMap id = s.received.map (·.datagram)
  framed : ∀ d ∈ s.received, InFrame src.content d.datagram
  sent : Made (TunnelSentFor o) s.received s.sent
  replies : ∀ r ∈ s.replies, o.bypasses r.origin.text = false
    ∧ ∃ d, .fromPeer d ∈ evs ∧ r.origin = d.origin
      ∧ r.datagram = ⟨d.packet.bytes, d.origin.ip.text, d.origin.port⟩

theorem parseHost_eq_some {atyp len : UInt8} {name : Bytes} {host : String} {n : Nat}
    (h : Socks5.parseHost atyp (len :: name) = some (host, n)) :
    atyp = Socks5.ATYP_IPV4 ∧ n = 4 ∨ atyp = Socks5.ATYP_DOMAIN ∧ n = 1 + len.toNat
      ∨ atyp = Socks5.ATYP_IPV6 ∧ n = 16 := by
  unfold Socks5.parseHost at h
  by_cases h4 : atyp = Socks5.ATYP_IPV4
  · rw [if_pos h4] at h
    split_ifs at h
    cases h
    exact .inl ⟨h4, rfl⟩
  rw [if_neg h4] at h
  by_cases hd : atyp = Socks5.ATYP_DOMAIN
  · rw [if_pos hd] at h
    dsimp only at h
    split_ifs at h
    cases h
    exact .inr (.inl ⟨hd, rfl⟩)
  rw [if_neg hd] at h
  by_cases h6 : atyp = Socks5.ATYP_IPV6
  · rw [if_pos h6] at h
    split_ifs at h
    cases h
    exact .inr (.inr ⟨h6, rfl⟩)
  rw [if_neg h6] at h
  cases h

/-- A header ends where its first five bytes say. -/
theorem parse_headerLength {head : Bytes} {n : { n : Nat // 0 < n }} {frag : UInt8} {host : String}
    {port : UInt16} {off : Nat}
    (hlength : Socks5.headerLength (head.take Socks5.UDP_TUN_HEAD_LEN) = .ok n)
    (hparse : Socks5.parseUdpDatagram head = some (frag, host, port, off)) : off = n.1 := by
  rcases head with _ | ⟨a, _ | ⟨b, _ | ⟨c, _ | ⟨atyp, rest⟩⟩⟩⟩
  · cases hparse
  · cases hparse
  · cases hparse
  · cases hparse
  cases rest with
  | nil => cases hparse
  | cons len name =>
    simp only [Socks5.parseUdpDatagram, reduceCtorEq, if_false] at hparse
    simp only [Socks5.headerLength, Socks5.UDP_TUN_HEAD_LEN, List.take_succ_cons,
      List.getD_cons_succ, List.getD_cons_zero] at hlength
    cases hhost : Socks5.parseHost atyp (len :: name) with
    | none =>
      rw [hhost] at hparse
      cases hparse
    | some x =>
      obtain ⟨text, m⟩ := x
      simp only [hhost] at hparse
      split_ifs at hparse
      cases hparse
      rcases parseHost_eq_some hhost with ⟨rfl, rfl⟩ | ⟨rfl, rfl⟩ | ⟨rfl, rfl⟩
      · rw [if_pos rfl] at hlength
        cases hlength
        rfl
      · rw [if_neg (by decide), if_neg (by decide), if_pos rfl] at hlength
        cases hlength
        show 4 + (1 + len.toNat) + 2 = 7 + len.toNat
        omega
      · rw [if_neg (by decide), if_pos rfl] at hlength
        cases hlength
        rfl

/-- What is at hand when a frame is complete. -/
theorem nextFrame_eq_unit {bs rest : Bytes} {s : Unit} {out : Option Socks5.Datagram}
    (h : Socks5.nextFrame bs = .unit s out rest) :
    ∃ n frag host port off, Socks5.headerLength (bs.take Socks5.UDP_TUN_HEAD_LEN) = .ok n
      ∧ n.1 + Bytes.beNat (bs.take 2) ≤ bs.length
      ∧ Socks5.parseUdpDatagram (bs.take n.1) = some (frag, host, port, off)
      ∧ out = (if frag ≠ 0 ∨ Bytes.beNat (bs.take 2) = 0 then none
          else some ⟨(bs.drop n.1).take (Bytes.beNat (bs.take 2)), host, port⟩)
      ∧ rest = bs.drop (n.1 + Bytes.beNat (bs.take 2)) := by
  unfold Socks5.nextFrame at h
  by_cases hshort : bs.length < Socks5.UDP_TUN_HEAD_LEN
  · rw [if_pos hshort] at h
    cases h
  rw [if_neg hshort] at h
  cases hlength : Socks5.headerLength (bs.take Socks5.UDP_TUN_HEAD_LEN) with
  | error atyp =>
    rw [hlength] at h
    cases h
  | ok n =>
    simp only [hlength] at h
    by_cases hpart : bs.length < n.1 + Bytes.beNat (bs.take 2)
    · rw [if_pos hpart] at h
      cases h
    rw [if_neg hpart] at h
    cases hparse : Socks5.parseUdpDatagram (bs.take n.1) with
    | none =>
      rw [hparse] at h
      cases h
    | some x =>
      obtain ⟨frag, host, port, off⟩ := x
      simp only [hparse] at h
      cases h
      exact ⟨n, frag, host, port, off, rfl, by omega, hparse, rfl, rfl⟩

theorem inFrame_of_next {bs rest : Bytes} {s : Unit} {d : Socks5.Datagram}
    (h : Socks5.nextFrame bs = .unit s (some d) rest) : ∃ head, bs = head ++ d.data ++ rest
      ∧ Socks5.parseUdpDatagram head = some (0, d.host, d.port, head.length)
      ∧ Bytes.beNat (head.take 2) = d.data.length := by
  obtain ⟨⟨hlen, pos⟩, frag, host, port, off, hlength, hwhole, hparse, hout, rfl⟩ :=
    nextFrame_eq_unit h
  dsimp only at hwhole hparse hout ⊢
  by_cases hskip : frag ≠ 0 ∨ Bytes.beNat (bs.take 2) = 0
  · rw [if_pos hskip] at hout
    cases hout
  rw [if_neg hskip] at hout
  cases hout
  have hfive : Socks5.UDP_TUN_HEAD_LEN < hlen := Socks5.headerLength_gt hlength
  have htake (k : Nat) (hk : k ≤ hlen) : (bs.take hlen).take k = bs.take k := by
    rw [List.take_take, Nat.min_eq_left hk]
  have hheader : (bs.take hlen).length = hlen := by
    rw [List.length_take]
    omega
  have hoff : off = hlen := by
    refine parse_headerLength (n := ⟨hlen, pos⟩) ?_ hparse
    rw [htake _ (Nat.le_of_lt hfive)]
    exact hlength
  obtain rfl : frag = 0 := by
    by_contra hfrag
    exact hskip (.inl hfrag)
  refine ⟨bs.take hlen, ?_, ?_, ?_⟩
  · rw [← List.drop_drop, List.append_assoc, List.take_append_drop, List.take_append_drop]
  · rw [hparse, hheader, hoff]
  · simp only [Socks5.UDP_TUN_HEAD_LEN] at hfive
    rw [htake 2 (by omega), List.length_take, List.length_drop]
    omega

/-- What the frames of a stream yield stands in it. -/
theorem inFrame_of_reads {bs left : Bytes} {s t : Unit} {outs : List (Option Socks5.Datagram)}
    (h : Socks5.framing.Reads s bs outs t left) :
    ∀ d, some d ∈ outs → InFrame bs d := by
  induction h with
  | refl =>
    intro d hd
    exact absurd hd List.not_mem_nil
  | @unit s s' t bs rest left out outs hn hr ih =>
    intro d hd
    have hnext : Socks5.nextFrame bs = .unit s' out rest := hn
    rcases List.mem_cons.mp hd with rfl | hd
    · obtain ⟨head, hbs, hparse, hlen⟩ := inFrame_of_next hnext
      exact ⟨[], head, rest, hbs, hparse, hlen⟩
    · obtain ⟨before, head, after, hrest, hparse, hlen⟩ := ih d hd
      obtain ⟨n, -, -, -, -, -, -, -, -, hdrop⟩ := nextFrame_eq_unit hnext
      refine ⟨bs.take (n.1 + Bytes.beNat (bs.take 2)) ++ before, head, after, ?_, hparse, hlen⟩
      calc bs = bs.take (n.1 + Bytes.beNat (bs.take 2)) ++ rest := by
            rw [hdrop, List.take_append_drop]
        _ = _ := by
            rw [hrest]
            simp only [List.append_assoc]

namespace TunnelUdp

/-- What holds of the loop after the inputs `before`. -/
structure Inv (o : HandlerOptions) (src : Inbound IoError) (before : List TunnelEv)
    (s : TunnelUdp) : Prop where
  reads : ∃ outs left, Socks5.framing.Reads () src.content outs () left
    ∧ outs.filterMap id = s.received.map (·.datagram)
  receiving : s.ended = none →
    Socks5.Receiving src.content (s.received.map (·.datagram)) s.reader s.src
  sent : Made (TunnelSentFor o) s.received s.sent
  replies : ∀ r ∈ s.replies, o.bypasses r.origin.text = false
    ∧ ∃ d, .fromPeer d ∈ before ∧ r.origin = d.origin
      ∧ r.datagram = ⟨d.packet.bytes, d.origin.ip.text, d.origin.port⟩

namespace Inv

variable {src : Inbound IoError} {before : List TunnelEv} {s : TunnelUdp}

theorem init (src : Inbound IoError) : Inv o src [] (TunnelUdp.init src) where
  reads := ⟨[], _, .refl, rfl⟩
  receiving _ := Socks5.receiving_new src
  sent := .nil
  replies _ hr := absurd hr List.not_mem_nil

theorem later (h : Inv o src before s) (ev : TunnelEv) : Inv o src (before ++ [ev]) s where
  reads := h.reads
  receiving := h.receiving
  sent := h.sent
  replies r hr := by
    obtain ⟨hbypass, d, hd, hrest⟩ := h.replies r hr
    exact ⟨hbypass, d, List.mem_append_left _ hd, hrest⟩

/-- The loop ends, wherever it has left the tunnel. -/
theorem finish (h : Inv o src before s) (reader : Socks5.TunnelReader) (rest : Inbound IoError)
    (result : Except IoError Unit) :
    Inv o src before { s with reader := reader, src := rest, ended := some result } :=
  ⟨h.reads, fun hrun => absurd hrun (Option.some_ne_none _), h.sent, h.replies⟩

theorem fail (h : Inv o src before s) (result : Except IoError Unit) :
    Inv o src before (s.fail result) := by
  cases result with
  | ok u => exact h
  | error e => exact h.finish s.reader s.src (.error e)

theorem onDatagram (h : Inv o src before s) {reader : Socks5.TunnelReader} {rest : Inbound IoError}
    (d : FromTunnel) (result : Except IoError Unit)
    (hreceiving : Socks5.Receiving src.content (s.received.map (·.datagram) ++ [d.datagram])
      reader rest) :
    Inv o src before ({ s with reader := reader, src := rest }.onDatagram o d result) := by
  have hreceived : Socks5.Receiving src.content ((s.received ++ [d]).map (·.datagram)) reader rest := by
    rw [List.map_append]
    exact hreceiving
  obtain ⟨outs, hreads, hlog⟩ := hreceived.reads
  unfold TunnelUdp.onDatagram
  cases happrove : approve o (Socks5.joinHostPort d.datagram.host d.datagram.port)
      (resolveUdpAddr d.answer d.datagram.host d.datagram.port) with
  | none =>
    exact ⟨⟨outs, _, hreads, hlog⟩, fun _ => hreceived, h.sent.skip _, h.replies⟩
  | some raddr =>
    obtain ⟨hresolved, hdst, haddr⟩ := approve_eq_some happrove
    have hsent : TunnelSentFor o d (d.datagram.data, raddr) := ⟨rfl, hresolved, hdst, haddr⟩
    apply fail
    exact ⟨⟨outs, _, hreads, hlog⟩, fun _ => hreceived, h.sent.take hsent, h.replies⟩

theorem onTunnel (h : Inv o src before s) (hrun : s.ended = none) (answer : Answer)
    (result : Except IoError Unit) : Inv o src before (s.onTunnel o answer result) := by
  have hpoll := Socks5.polling (h.receiving hrun)
  unfold TunnelUdp.onTunnel
  revert hpoll
  rcases s.reader.poll s.src with ⟨polled, reader, rest⟩
  intro hpoll
  cases hpoll with
  | pending hgives hreceiving hwaits => exact ⟨h.reads, fun _ => hreceiving, h.sent, h.replies⟩
  | datagram hgives hreceiving => exact h.onDatagram ⟨_, answer⟩ result hreceiving
  | closed hclosed => exact h.finish reader rest (.ok ())
  | failed hfailed => exact h.finish reader rest _
  | transport herror => exact h.finish reader rest _

theorem onPeer (h : Inv o src before s) (d : Outside) :
    Inv o src (before ++ [.fromPeer d]) (s.onPeer o d) := by
  have hlater := h.later (.fromPeer d)
  unfold TunnelUdp.onPeer
  by_cases hbypass : o.bypasses d.origin.text = true
  · rw [if_pos hbypass]
    exact hlater
  · rw [if_neg hbypass]
    apply fail
    refine ⟨hlater.reads, hlater.receiving, hlater.sent, fun r hr => ?_⟩
    rcases List.mem_append.mp hr with hr | hr
    · exact hlater.replies r hr
    · rw [List.mem_singleton.mp hr]
      refine ⟨eq_false_of_ne_true hbypass, d, ?_, rfl, ?_⟩
      · exact List.mem_append_right _ List.mem_cons_self
      · rw [Packet.received_eq]

theorem round (h : Inv o src before s) (ev : TunnelEv) :
    Inv o src (before ++ [ev]) (s.round o ev) := by
  unfold TunnelUdp.round
  cases hended : s.ended with
  | some e => exact h.later ev
  | none =>
    cases ev with
    | fromTunnel answer result => exact (h.later _).onTunnel hended answer result
    | fromPeer d => exact h.onPeer d
    | failed e => exact (h.later _).finish s.reader s.src (.error e)

end Inv

theorem run_ok (o : HandlerOptions) (src : Inbound IoError) (evs : List TunnelEv) :
    TunnelOk o src evs (run o src evs) := by
  have h : Inv o src evs (run o src evs) :=
    foldl_rounds (Inv.init src) (fun before s ev hs => hs.round ev) evs
  refine ⟨h.reads, fun d hd => ?_, h.sent, h.replies⟩
  obtain ⟨outs, left, hreads, hlog⟩ := h.reads
  have hmem : d.datagram ∈ outs.filterMap id := by
    rw [hlog]
    exact List.mem_map_of_mem hd
  obtain ⟨out, hout, hsome⟩ := List.mem_filterMap.mp hmem
  obtain rfl : out = some d.datagram := hsome
  exact inFrame_of_reads hreads _ hout

end TunnelUdp

/-! ## `ShadowUdpHandler` -/

def ShadowEv.client? : ShadowEv → Option ShadowPacket
  | .fromClient d => some d
  | _ => none

section

variable {K : Type} (aead : Ss.Aead K) (cipher : Ss.SsCipher) (key : Bytes)

/-- What is sent on for a datagram that can be opened. -/
def ShadowSentFor (o : HandlerOptions) (d : ShadowPacket) (out : Bytes × SocketAddr) : Prop :=
  ∃ plain target off, openUdpDatagram aead cipher key d.packet.bytes = .ok plain
    ∧ Ss.parseSsAddress plain = .ok (target, off) ∧ out.1 = plain.drop off
    ∧ resolveTarget d.answer target = some out.2 ∧ Allowed o target ∧ Allowed o out.2.text

structure ShadowOk (o : HandlerOptions) (evs : List ShadowEv) (s : ShadowUdp) : Prop where
  received : s.received <+: evs.filterMap ShadowEv.client?
  sent : Made (ShadowSentFor aead cipher key o) s.received s.sent
  replies : ∀ r ∈ s.replies, o.bypasses r.origin = false
    ∧ ∃ d salt result, .fromTarget d salt result ∈ evs ∧ r.origin = ShadowUdp.originOf d
      ∧ ShadowUdp.sealReply aead cipher key salt d = .ok r.packet

end

namespace ShadowUdp

variable {K : Type} {aead : Ss.Aead K} {cipher : Ss.SsCipher} {key : Bytes}

theorem forward_eq_some {d : ShadowPacket} {out : Bytes × SocketAddr}
    (h : forward aead cipher key o d.packet.read d.answer = some out) :
    ShadowSentFor aead cipher key o d out := by
  rw [Packet.read_eq] at h
  unfold forward at h
  cases hopen : openUdpDatagram aead cipher key d.packet.bytes with
  | error e =>
    rw [hopen] at h
    cases h
  | ok plain =>
    simp only [hopen] at h
    cases hparse : Ss.parseSsAddress plain with
    | error e =>
      rw [hparse] at h
      cases h
    | ok x =>
      obtain ⟨target, off⟩ := x
      simp only [hparse] at h
      obtain ⟨raddr, happrove, rfl⟩ := Option.map_eq_some_iff.mp h
      obtain ⟨hresolved, hdst, haddr⟩ := approve_eq_some happrove
      exact ⟨plain, target, off, hopen, hparse, rfl, hresolved, hdst, haddr⟩

/-- What holds of the loop after the inputs `before`. -/
structure Inv (aead : Ss.Aead K) (cipher : Ss.SsCipher) (key : Bytes) (o : HandlerOptions)
    (before : List ShadowEv) (s : ShadowUdp) : Prop where
  ok : ShadowOk aead cipher key o before s
  all : s.ended = none → s.received = before.filterMap ShadowEv.client?

namespace Inv

variable {before : List ShadowEv} {s : ShadowUdp}

theorem init : Inv aead cipher key o [] ShadowUdp.init where
  ok := ⟨List.prefix_rfl, .nil, fun _ hr => absurd hr List.not_mem_nil⟩
  all _ := rfl

theorem later (h : Inv aead cipher key o before s) (ev : ShadowEv)
    (hev : s.ended ≠ none ∨ ev.client? = none) : Inv aead cipher key o (before ++ [ev]) s where
  ok := by
    refine ⟨?_, h.ok.sent, fun r hr => ?_⟩
    · rw [List.filterMap_append]
      exact h.ok.received.trans (List.prefix_append _ _)
    · obtain ⟨hbypass, d, salt, result, hd, hrest⟩ := h.ok.replies r hr
      exact ⟨hbypass, d, salt, result, List.mem_append_left _ hd, hrest⟩
  all hrun := by
    have hnone : ev.client? = none := hev.resolve_left fun hne => hne hrun
    rw [List.filterMap_append, h.all hrun, List.filterMap_cons_none hnone, List.filterMap_nil,
      List.append_nil]

/-- The count of failed receives changes. -/
theorem count (h : Inv aead cipher key o before s) (n : Nat) :
    Inv aead cipher key o before { s with consecutiveRecvErrors := n } :=
  ⟨⟨h.ok.received, h.ok.sent, h.ok.replies⟩, h.all⟩

theorem finish (h : Inv aead cipher key o before s) (result : Except HandlerError Unit) :
    Inv aead cipher key o before { s with ended := some result } :=
  ⟨⟨h.ok.received, h.ok.sent, h.ok.replies⟩, fun hrun => absurd hrun (Option.some_ne_none _)⟩

theorem onClient (h : Inv aead cipher key o before s) (hrun : s.ended = none) (d : ShadowPacket) :
    Inv aead cipher key o (before ++ [.fromClient d]) (s.onClient aead cipher key o d) := by
  have take {sent : List (Bytes × SocketAddr)}
      (hsent : Made (ShadowSentFor aead cipher key o) (s.received ++ [d]) sent) :
      Inv aead cipher key o (before ++ [.fromClient d])
        { s with received := s.received ++ [d], sent := sent } := by
    have hall : s.received ++ [d]
        = (before ++ [ShadowEv.fromClient d]).filterMap ShadowEv.client? := by
      rw [List.filterMap_append, h.all hrun]
      rfl
    refine ⟨⟨?_, hsent, fun r hr => ?_⟩, fun _ => hall⟩
    · exact ⟨[], (List.append_nil _).trans hall⟩
    · obtain ⟨hbypass, x, salt, result, hx, hrest⟩ := h.ok.replies r hr
      exact ⟨hbypass, x, salt, result, List.mem_append_left _ hx, hrest⟩
  unfold ShadowUdp.onClient
  cases hout : forward aead cipher key o d.packet.read d.answer with
  | none => exact take (h.ok.sent.skip _)
  | some out => exact take (h.ok.sent.take (forward_eq_some hout))

theorem onTarget (h : Inv aead cipher key o before s) (d : Socks5.Datagram) (salt : Bytes)
    (result : Except IoError Unit) : Inv aead cipher key o (before ++ [.fromTarget d salt result])
      (s.onTarget aead cipher key o d salt result) := by
  have hlater := (h.later (.fromTarget d salt result) (.inr rfl)).count 0
  unfold ShadowUdp.onTarget
  by_cases hbypass : o.bypasses (originOf d) = true
  · simp only [if_pos hbypass]
    exact hlater
  · simp only [if_neg hbypass]
    cases hseal : sealReply aead cipher key salt d with
    | error e => exact hlater.finish _
    | ok packet =>
      have hreply : Inv aead cipher key o (before ++ [.fromTarget d salt result])
          { s with consecutiveRecvErrors := 0, replies := s.replies ++ [⟨originOf d, packet⟩] } := by
        refine ⟨⟨hlater.ok.received, hlater.ok.sent, fun r hr => ?_⟩, hlater.all⟩
        rcases List.mem_append.mp hr with hr | hr
        · exact hlater.ok.replies r hr
        · rw [List.mem_singleton.mp hr]
          refine ⟨eq_false_of_ne_true hbypass, d, salt, result, ?_, rfl, hseal⟩
          exact List.mem_append_right _ List.mem_cons_self
      cases result with
      | ok u => exact hreply
      | error e => exact hreply.finish _

theorem onTargetError (h : Inv aead cipher key o before s) (e : IoError) :
    Inv aead cipher key o (before ++ [.targetError e]) (s.onTargetError e) := by
  have hlater := (h.later (.targetError e) (.inr rfl)).count (s.consecutiveRecvErrors + 1)
  unfold ShadowUdp.onTargetError
  dsimp only
  split_ifs
  · exact hlater.finish _
  · exact hlater

theorem round (h : Inv aead cipher key o before s) (ev : ShadowEv) :
    Inv aead cipher key o (before ++ [ev]) (s.round aead cipher key o ev) := by
  unfold ShadowUdp.round
  cases hended : s.ended with
  | some e =>
    refine h.later ev (.inl ?_)
    rw [hended]
    exact Option.some_ne_none e
  | none =>
    cases ev with
    | clientError e => exact (h.later _ (.inr rfl)).finish _
    | clientEof => exact (h.later _ (.inr rfl)).finish _
    | fromClient d => exact h.onClient hended d
    | targetError e => exact h.onTargetError e
    | fromTarget d salt result => exact h.onTarget d salt result

end Inv

theorem run_ok (aead : Ss.Aead K) (cipher : Ss.SsCipher) (key : Bytes) (o : HandlerOptions)
    (evs : List ShadowEv) : ShadowOk aead cipher key o evs (run aead cipher key o evs) :=
  (foldl_rounds Inv.init (fun _ _ ev hs => hs.round ev) evs).ok

end ShadowUdp

/-- What each of the relays sends on, however datagrams come and whatever resolvers say,
is the payload of one datagram of its client, for a destination that passes as it is
written and as it resolves; and nothing goes back from a bypassed origin. -/
theorem relays_contained (o : HandlerOptions) :
    (∀ evs, TransportOk o evs (TransportUdp.run o evs))
      ∧ (∀ src evs, TunnelOk o src evs (TunnelUdp.run o src evs))
      ∧ ∀ (K : Type) (aead : Ss.Aead K) (cipher : Ss.SsCipher) (key : Bytes) (evs : List ShadowEv),
        ShadowOk aead cipher key o evs (ShadowUdp.run aead cipher key o evs) :=
  ⟨TransportUdp.run_ok o, TunnelUdp.run_ok o,
    fun _ aead cipher key evs => ShadowUdp.run_ok aead cipher key o evs⟩

end UdpRelay
end RtProxy
