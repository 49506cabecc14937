import RtProxy.Chain.Traversal
import RtProxy.Handler.Socks5

/-!
The control connection of a UDP tunnel (`Chain::dial_udp` in `chain.rs`).

The tunnel is asked for over the connection that `dial` makes to the address of the
last hop.  `dial` goes through the whole chain, so that connection is one that the
last hop made to itself; `reaches_last_iff` tells when it is not.
-/

namespace RtProxy

open Act

/-- An outbound datagram channel.  The pump of a tunnel is in `UdpChannel.Pump`. -/
inductive UdpChannel
  | direct (sock : Net.SocketAddr)
  | tunnel (control : Conn)
deriving Repr, DecidableEq

section

variable (env : Env)

/-- `Socks5Connector::udp_tunnel`: the method negotiation and the request. -/
def udpTunnel (control : Conn) (bind : String) : Action ChainError UdpChannel := do
  let text (e : String) := s!"socks5 UDP tunnel failed: {e}"
  mapErr (fun f => .proxyError (text f.text)) (env.perform (.shake .socks5Methods control))
  match Socks5.parseAddress bind with
  | .error e => fail (.proxyError (text e.text))
  | .ok _ =>
    mapErr (fun f => .proxyError (text f.text)) (env.perform (.shake (.connector "udp-tun" bind) control))
    pure (.tunnel control)

def Chain.dialUdp (chain : Chain) (bind : Net.SocketAddr) : Action ChainError UdpChannel := do
  if chain.isEmpty then
    mapErr .ofFailure (env.perform (.listen bind.text))
    pure (.direct bind)
  else if chain.lastNode.protocol ∉ ["socks5", "socks"] then
    fail (.proxyError (s!"chain last hop \"{chain.lastNode.protocol}\" cannot carry UDP; only " ++
      "socks5 supports it (via CmdUDPTun)"))
  else
    let control ← chain.dial env chain.lastNode.addr
    udpTunnel env control bind.text

/-! ## Through the rest of the chain -/

/-- The connection to the hop `last` through the hops `front` before it, each asked for
the one after it.  Nothing has been asked of `last` itself. -/
def reachLast (route : Route) (last : Node) : List Node → Action ChainError Conn
  | [] => dialFirst env route last
  | first :: rest => do
    let c ← firstHop env route first (hopTarget last.addr rest)
    let d ← dialRest env last.addr rest c
    layerOver env d last (hopHostname last)

/-- The control connection goes through every hop but the last, and the tunnel is the
first thing that the last hop is asked for on it.  `before` is what the resolver and
the attempts that failed have left. -/
def ReachesLast (chain : Chain) (bind : Net.SocketAddr) (log : List Event) (ch : UdpChannel)
    (s' : Bytes) (new : List Event) : Prop :=
  ∃ control s₀ s₁ before ev ev',
    reachLast env chain.toRoute chain.lastNode chain.nodes.dropLast s₀ (log ++ before)
        = ⟨.ok control, s₁, ev⟩
      ∧ udpTunnel env control bind.text s₁ (log ++ before ++ ev) = ⟨.ok ch, s', ev'⟩
      ∧ new = before ++ ev ++ ev'

variable {env}

/-! ## One hop -/

theorem udpTunnel_eq_ok {control : Conn} {bind : String} {ch : UdpChannel} {s s' : Bytes}
    {log ev : List Event} (h : udpTunnel env control bind s log = ⟨.ok ch, s', ev⟩) :
    ch = .tunnel control
      ∧ ev = [.shake .socks5Methods control, .shake (.connector "udp-tun" bind) control] := by
  obtain ⟨_, s₁, ev₁, ev₂, hmethods, hrest, rfl⟩ := bind_eq_ok h
  obtain ⟨-, rfl⟩ := perform_eq_ok (mapErr_eq_ok hmethods)
  cases hparse : Socks5.parseAddress bind with
  | error e =>
    rw [hparse] at hrest
    cases hrest
  | ok parts =>
    rw [hparse] at hrest
    obtain ⟨_, s₂, ev₃, ev₄, hask, hpure, rfl⟩ := bind_eq_ok hrest
    obtain ⟨-, rfl⟩ := perform_eq_ok (mapErr_eq_ok hask)
    cases hpure
    exact ⟨rfl, rfl⟩

theorem dialSshHop_eq_ok {node : Node} {target : String} {conn : Conn} {s s' : Bytes}
    {log ev : List Event} (h : dialSshHop env node target s log = ⟨.ok conn, s', ev⟩) :
    conn = .channel node.addr target ∧ ∃ pre, ev = pre ++ [.openStream conn] := by
  obtain ⟨transporter, s₁, ev₁, ev', -, h₁, rfl⟩ := bind_eq_ok h
  obtain ⟨pooled, s₂, ev₂, ev'', -, h₂, rfl⟩ := bind_eq_ok h₁
  obtain ⟨_, s₃, ev₃, ev₄, -, h₃, rfl⟩ := bind_eq_ok h₂
  obtain ⟨_, s₄, ev₅, ev₆, hchannel, hpure, rfl⟩ := bind_eq_ok h₃
  obtain ⟨_, s₅, ev₇, ev₈, -, hopen, rfl⟩ := bind_eq_ok (mapErr_eq_ok hchannel)
  obtain ⟨-, rfl⟩ := perform_eq_ok (mapErr_eq_ok hopen)
  cases hpure
  refine ⟨rfl, ev₁ ++ (ev₂ ++ (ev₃ ++ ev₇)), ?_⟩
  simp only [List.append_assoc, List.append_nil]

theorem connectVia_ends {d e : Conn} {node : Node} {t : String} {s s' : Bytes}
    {log ev : List Event} (h : connectVia env d node t s log = ⟨.ok e, s', ev⟩) :
    ∃ pre, ev = pre ++ [.connected node t d e] := by
  obtain ⟨out, s₁, ev₁, ev₂, -, htail, rfl⟩ := bind_eq_ok h
  obtain ⟨_, s₂, ev₃, ev₄, hemit, hpure, rfl⟩ := bind_eq_ok htail
  cases hemit
  cases hpure
  exact ⟨ev₁, rfl⟩

/-- A SOCKS5 hop makes a connection of its own. -/
theorem connectVia_socks5 {d e : Conn} {node : Node} {t : String} {s s' : Bytes}
    {log ev : List Event} (hp : node.protocol = "socks5")
    (h : connectVia env d node t s log = ⟨.ok e, s', ev⟩) : e = .via "socks5" t d := by
  obtain ⟨out, s₁, ev₁, ev₂, hover, htail, -⟩ := bind_eq_ok h
  obtain ⟨_, s₂, ev₃, ev₄, -, hpure, -⟩ := bind_eq_ok htail
  cases hpure
  unfold connectOver at hover
  rw [hp, if_neg (by decide), if_neg (by decide), if_neg (by decide), if_pos rfl] at hover
  obtain ⟨_, s₅, ev₅, ev₆, -, hrest, -⟩ := bind_eq_ok hover
  obtain ⟨_, s₆, ev₇, ev₈, -, hvia, -⟩ := bind_eq_ok hrest
  cases hvia
  rfl

/-- The last of the hops leaves the last event. -/
theorem Hops.ends {target : String} {rest : List Node} {c conn : Conn} {s s' : Bytes}
    {log ev : List Event} (h : Hops env target rest c s log conn s' ev) (hne : rest ≠ []) :
    ∃ pre node t d e, ev = pre ++ [.connected node t d e] := by
  induction h with
  | nil => exact absurd rfl hne
  | @cons node rest c d e conn s s₁ s₂ s' log ev₁ ev₂ ev₃ layer connect later ih =>
    cases rest with
    | nil =>
      cases later
      obtain ⟨pre, rfl⟩ := connectVia_ends connect
      refine ⟨ev₁ ++ pre, node, hopTarget target [], d, e, ?_⟩
      rw [List.append_nil, List.append_assoc]
    | cons next rest =>
      obtain ⟨pre, n, t, d', e', rfl⟩ := ih (List.cons_ne_nil next rest)
      refine ⟨ev₁ ++ ev₂ ++ pre, n, t, d', e', ?_⟩
      rw [List.append_assoc (ev₁ ++ ev₂)]

/-! ## The dial -/

/-- A dial that succeeds ends with the dial of the target it was resolved to. -/
theorem dial_eq_ok {chain : Chain} {address : String} {conn : Conn} {s s' : Bytes}
    {log new : List Event} (h : chain.dial env address s log = ⟨.ok conn, s', new⟩) :
    ∃ target s₀ before ev, chain.toRoute.dialTarget env target s₀ (log ++ before)
        = ⟨.ok conn, s', ev⟩ ∧ new = before ++ ev := by
  obtain ⟨_, s₁, ev₁, ev₂, -, htries, rfl⟩ := bind_eq_ok h
  obtain ⟨s₂, before, ev, honce, rfl⟩ := tries_eq_ok htries
  obtain ⟨resolved, s₀, ev₃, ev₄, -, htarget, rfl⟩ := bind_eq_ok (noted_eq_ok honce)
  refine ⟨dialled address resolved, s₀, ev₁ ++ before ++ ev₃, ev₄, ?_, ?_⟩
  · rw [← List.append_assoc, ← List.append_assoc]
    exact htarget
  · simp only [List.append_assoc]

theorem hopTarget_append (target : String) (front : List Node) (last : Node) :
    hopTarget target (front ++ [last]) = hopTarget last.addr front := by
  cases front <;> rfl

/-- The hops before the last are asked for the next one whatever the target is. -/
theorem dialRest_append_eq_ok {target : String} {last : Node} :
    ∀ {front : List Node} {c conn : Conn} {s s' : Bytes} {log ev : List Event},
      dialRest env target (front ++ [last]) c s log = ⟨.ok conn, s', ev⟩ →
        ∃ d s₁ ev₁ ev₂, dialRest env last.addr front c s log = ⟨.ok d, s₁, ev₁⟩
          ∧ dialRest env target [last] d s₁ (log ++ ev₁) = ⟨.ok conn, s', ev₂⟩
          ∧ ev = ev₁ ++ ev₂ := by
  intro front
  induction front with
  | nil =>
    intro c conn s s' log ev h
    refine ⟨c, s, [], ev, rfl, ?_, rfl⟩
    rw [List.append_nil]
    exact h
  | cons node front ih =>
    intro c conn s s' log ev h
    rw [List.cons_append, dialRest] at h
    split_ifs at h with howns
    · cases h
    · obtain ⟨d, s₁, ev₁, ev', hlayer, htail, rfl⟩ := bind_eq_ok h
      obtain ⟨e, s₂, ev₂, ev'', hconnect, hrest, rfl⟩ := bind_eq_ok htail
      obtain ⟨e', s₃, ev₃, ev₄, hfront, hlast, rfl⟩ := ih hrest
      rw [hopTarget_append] at hconnect
      refine ⟨e', s₃, ev₁ ++ (ev₂ ++ ev₃), ev₄, ?_, ?_, ?_⟩
      · rw [dialRest, if_neg howns, bind_ok hlayer, bind_ok hconnect, hfront]
      · simpa only [List.append_assoc] using hlast
      · simp only [List.append_assoc]

/-! ## The connection does not depend on the run -/

/-- A first part that returns nothing of use. -/
theorem steady_after {α : Type} (x : Action ChainError α) (out : Conn) :
    (do let _ ← x; pure out : Action ChainError Conn).Steady :=
  (returns_after fun _ => returns_pure out).steady

theorem steady_layerOver (c : Conn) (node : Node) (host : String) :
    (layerOver env c node host).Steady := by
  have htls (c : Conn) : (tlsLayer env c node host).Steady := steady_after _ _
  have hunder (secure : Bool) : (tlsUnder env secure c node host).Steady := by
    cases secure
    · exact (returns_pure c).steady
    · exact htls c
  unfold layerOver
  split_ifs
  · exact (returns_pure c).steady
  · exact htls c
  · exact steady_bind (hunder _) fun _ => steady_after _ _
  · exact steady_after _ _
  · exact steady_after _ _
  · exact steady_bind (hunder _) fun _ => steady_after _ _
  · exact (returns_fail _ c).steady

theorem steady_connectOver (c : Conn) (node : Node) (target : String) :
    (connectOver env c node target).Steady := by
  -- a request that is written, before the handshake or in the middle of it
  have hasked {α β : Type} (x : Action ChainError α) (y : Action ChainError β) (out : Conn) :
      (do let _ ← x; let _ ← y; pure out : Action ChainError Conn).Steady :=
    (returns_after fun _ => returns_after fun _ => returns_pure out).steady
  unfold connectOver
  split_ifs
  · exact steady_after _ _
  · exact (returns_pure _).steady
  · exact steady_after _ _
  · exact hasked _ _ _
  · exact hasked _ _ _
  · exact hasked _ _ _
  · exact hasked _ _ _
  · exact (returns_pure c).steady
  · exact (returns_fail _ c).steady

/-- The mark that a hop leaves changes nothing. -/
theorem steady_marked {x : Action ChainError Conn} (hx : x.Steady) (mark : Conn → Event) :
    (do let out ← x; emit (mark out); pure out : Action ChainError Conn).Steady :=
  steady_bind hx fun out => (returns_after fun _ => returns_pure out).steady

theorem steady_layerTransport (c : Conn) (node : Node) : (layerTransport env c node).Steady :=
  steady_marked (steady_layerOver c node (hopHostname node)) fun out => .layered node c out

theorem steady_connectVia (c : Conn) (node : Node) (target : String) :
    (connectVia env c node target).Steady :=
  steady_marked (steady_connectOver c node target) fun out => .connected node target c out

theorem steady_dialFirst (route : Route) (first : Node) : (dialFirst env route first).Steady := by
  have hstream (ready : Except String Unit) : (datagramStream env first ready).Returns
      (.stream first.transport first.addr) := returns_after fun _ => returns_pure _
  unfold dialFirst dialDatagramHop
  split_ifs
  · exact (returns_after fun _ => returns_after fun _ => returns_after fun _ =>
      returns_pure _).steady
  · exact (hstream _).steady
  · exact (returns_after fun _ => hstream _).steady
  · have htcp : (connectTcp env route first.addr).Steady :=
      (returns_after fun _ => returns_after fun _ => returns_pure _).steady
    exact steady_bind htcp fun conn => steady_layerTransport conn first

theorem steady_firstHop (route : Route) (first : Node) (next : String) :
    (firstHop env route first next).Steady := by
  unfold firstHop
  split_ifs
  · exact (returns_after fun _ => returns_after fun _ => returns_after fun _ =>
      returns_after fun _ => returns_pure _).steady
  · exact steady_bind (steady_dialFirst route first) fun conn => steady_connectVia conn first next

theorem steady_dialRest (target : String) :
    ∀ (rest : List Node) (c : Conn), (dialRest env target rest c).Steady
  | [], c => (returns_pure c).steady
  | node :: rest, c => by
    rw [dialRest]
    split_ifs
    · exact (returns_fail _ c).steady
    · exact steady_bind (steady_layerTransport c node) fun d =>
        steady_bind (steady_connectVia d node _) fun e => steady_dialRest target rest e

theorem steady_reachLast (route : Route) (last : Node) (front : List Node) :
    (reachLast env route last front).Steady := by
  cases front with
  | nil => exact steady_dialFirst route last
  | cons first rest =>
    exact steady_bind (steady_firstHop route first _) fun c =>
      steady_bind (steady_dialRest last.addr rest c) fun d => steady_layerOver d last _

/-! ## Who is asked for the tunnel -/

/-- A dial that begins with no SSH hop reaches the last hop, and then asks it for the
target. -/
theorem dialTarget_eq_ok {route : Route} {front : List Node} {last : Node} {target : String}
    {conn : Conn} {s s' : Bytes} {log new : List Event} (hn : route.nodes = front ++ [last])
    (hssh : ∀ first ∈ route.nodes.head?, first.transport ≠ "ssh")
    (h : route.dialTarget env target s log = ⟨.ok conn, s', new⟩) :
    ∃ d s₁ ev₁ s₂ log₂ ev₂, reachLast env route last front s log = ⟨.ok d, s₁, ev₁⟩
      ∧ connectVia env d last target s₂ log₂ = ⟨.ok conn, s', ev₂⟩ := by
  cases front with
  | nil =>
    rw [List.nil_append] at hn
    rw [hn] at hssh
    rw [dialTarget_plain target hn (hssh last rfl)] at h
    obtain ⟨d, s₁, ev₁, ev', hfirst, htail, rfl⟩ := bind_eq_ok h
    obtain ⟨c, s₂, ev₂, ev₃, hconnect, hrest, rfl⟩ := bind_eq_ok htail
    cases hrest
    exact ⟨d, s₁, ev₁, s₁, log ++ ev₁, ev₂, hfirst, hconnect⟩
  | cons first rest =>
    rw [List.cons_append] at hn
    rw [hn] at hssh
    have hplain := hssh first rfl
    rw [dialTarget_plain target hn hplain] at h
    obtain ⟨c₀, s₁, ev₁, ev', hfirst, htail, rfl⟩ := bind_eq_ok h
    obtain ⟨c, s₂, ev₂, ev'', hconnect, hrest, rfl⟩ := bind_eq_ok htail
    obtain ⟨d, s₃, ev₃, ev₄, hfront, hlast, rfl⟩ := dialRest_append_eq_ok hrest
    rw [hopTarget_append] at hconnect
    have hhop : firstHop env route first (hopTarget last.addr rest) s log
        = ⟨.ok c, s₂, ev₁ ++ ev₂⟩ := by
      rw [firstHop, if_neg hplain, bind_ok hfirst, hconnect]
    rw [List.append_assoc log] at hfront
    rw [dialRest] at hlast
    split_ifs at hlast with howns
    · cases hlast
    · obtain ⟨d', s₄, ev₅, ev₆, hlayer, htail', rfl⟩ := bind_eq_ok hlast
      obtain ⟨e, s₅, ev₇, ev₈, hvia, hend, rfl⟩ := bind_eq_ok htail'
      obtain ⟨d'', s₆, ev₉, ev₁₀, hover, hmark, rfl⟩ := bind_eq_ok hlayer
      cases hmark
      cases hend
      have hover' : layerOver env d last (hopHostname last) s₃ (log ++ (ev₁ ++ ev₂) ++ ev₃)
          = ⟨.ok d', s₆, ev₉⟩ := by
        simpa only [List.append_assoc] using hover
      refine ⟨d', s₆, ev₁ ++ ev₂ ++ (ev₃ ++ ev₉), _, _, ev₇, ?_, hvia⟩
      rw [reachLast, bind_ok hhop, bind_ok hfront, hover']

/-- The nodes of a chain whose last hop speaks SOCKS5. -/
theorem nodes_of_lastNode {route : Route} (h : route.lastNode.protocol = "socks5") :
    route.nodes = route.nodes.dropLast ++ [route.lastNode] := by
  have hno : Node.empty.protocol ≠ "socks5" := by decide
  rcases List.eq_nil_or_concat route.groups with hnil | ⟨groups, group, hgroups⟩
  · rw [Route.lastNode, hnil] at h
    exact absurd h hno
  · rw [List.concat_eq_append] at hgroups
    cases group with
    | nil =>
      rw [Route.lastNode, hgroups, List.getLast?_append_of_ne_nil _ (List.cons_ne_nil _ _)] at h
      exact absurd h hno
    | cons node rest =>
      have hlast : route.lastNode = node := by
        rw [Route.lastNode, hgroups, List.getLast?_append_of_ne_nil _ (List.cons_ne_nil _ _)]
        rfl
      have hnodes : route.nodes = groups.filterMap (·.head?) ++ [node] := by
        rw [Route.nodes, hgroups, List.filterMap_append]
        rfl
      rw [hlast, hnodes, List.dropLast_concat]

theorem dialUdp_eq_ok {chain : Chain} {bind : Net.SocketAddr} {ch : UdpChannel} {s s' : Bytes}
    {log new : List Event} (hp : chain.lastNode.protocol = "socks5")
    (h : chain.dialUdp env bind s log = ⟨.ok ch, s', new⟩) :
    ∃ target control s₀ s₁ before ev ev',
      chain.toRoute.dialTarget env target s₀ (log ++ before) = ⟨.ok control, s₁, ev⟩
        ∧ udpTunnel env control bind.text s₁ (log ++ before ++ ev) = ⟨.ok ch, s', ev'⟩
        ∧ new = before ++ ev ++ ev' := by
  have hne : chain.isEmpty = false := by
    cases hg : chain.groups with
    | nil =>
      rw [Route.lastNode, hg] at hp
      exact absurd hp (by decide)
    | cons g gs => rw [Route.isEmpty, hg]; rfl
  rw [Chain.dialUdp, hne, if_neg Bool.false_ne_true, hp, if_neg (by decide)] at h
  obtain ⟨control, s₁, ev₁, ev', hdial, htunnel, rfl⟩ := bind_eq_ok h
  obtain ⟨target, s₀, before, ev, htarget, rfl⟩ := dial_eq_ok hdial
  refine ⟨target, control, s₀, s₁, before, ev, ev', htarget, ?_, rfl⟩
  rw [List.append_assoc]
  exact htunnel

/-- A transport of the last hop is a layer of its own, or none. -/
theorem layerOver_eq_ok {c d : Conn} {node : Node} {host : String} {s s' : Bytes}
    {log ev : List Event} (h : layerOver env c node host s log = ⟨.ok d, s', ev⟩) :
    (node.transport ∈ ["", "tcp"] ∧ d = c ∧ ev = [])
      ∨ ∃ transport inner, d = .layered transport host inner := by
  have hshaken {hs : Handshake} {base out : Conn} {text : String → String} {s s' : Bytes}
      {log ev : List Event} {d : Conn}
      (hrun : (do shake env node hs base text; pure out : Action ChainError Conn) s log
        = ⟨.ok d, s', ev⟩) : d = out :=
    returns_after (fun _ => returns_pure out) _ _ _ _ _ hrun
  unfold layerOver at h
  split_ifs at h with hplain
  · cases h
    exact .inl ⟨hplain, rfl, rfl⟩
  · exact .inr ⟨"tls", c, hshaken h⟩
  · obtain ⟨inner, s₁, ev₁, ev₂, -, hws, -⟩ := bind_eq_ok h
    exact .inr ⟨"ws", inner, hshaken hws⟩
  · exact .inr ⟨"otls", c, hshaken h⟩
  · exact .inr ⟨"ohttp", c, hshaken h⟩
  · obtain ⟨inner, s₁, ev₁, ev₂, -, hh2, -⟩ := bind_eq_ok h
    exact .inr ⟨"h2", inner, hshaken hh2⟩
  · cases h

theorem ne_via (c : Conn) (protocol target : String) : c ≠ .via protocol target c := by
  intro h
  have hsize := congrArg sizeOf h
  simp at hsize

/-- A chain that begins with no SSH hop asks the last hop to connect to itself. -/
theorem not_reachesLast_of_plain {chain : Chain} {bind : Net.SocketAddr} {ch : UdpChannel}
    {s s' : Bytes} {log new : List Event} (hp : chain.lastNode.protocol = "socks5")
    (hssh : ∀ first ∈ chain.nodes.head?, first.transport ≠ "ssh")
    (h : chain.dialUdp env bind s log = ⟨.ok ch, s', new⟩) :
    ¬ ReachesLast env chain bind log ch s' new := by
  rintro ⟨d', s₀', s₁', before', ev', evt', hreach, htunnel', -⟩
  obtain ⟨target, control, s₀, s₁, before, ev, evt, htarget, htunnel, -⟩ := dialUdp_eq_ok hp h
  obtain ⟨d, s₂, ev₁, s₃, log₃, ev₂, hrun, hvia⟩ :=
    dialTarget_eq_ok (nodes_of_lastNode hp) hssh htarget
  have hd : d = d' := (steady_reachLast _ _ _).eq hrun hreach
  have hcontrol : control = .via "socks5" target d := connectVia_socks5 hp hvia
  have hsame := (udpTunnel_eq_ok htunnel).1.symm.trans (udpTunnel_eq_ok htunnel').1
  cases hsame
  exact ne_via d "socks5" target (hd.trans hcontrol)

/-- SSH is no transport that is put over a socket. -/
theorem dialFirst_ne_ssh {route : Route} {node : Node} {conn : Conn} {s s' : Bytes}
    {log ev : List Event} (h : dialFirst env route node s log = ⟨.ok conn, s', ev⟩) :
    node.transport ≠ "ssh" := by
  intro hssh
  rw [dialFirst, hssh, if_neg (by decide), if_neg (by decide)] at h
  obtain ⟨c, s₁, ev₁, ev', -, h₁, -⟩ := bind_eq_ok h
  obtain ⟨d, s₂, ev₂, ev'', hover, -, -⟩ := bind_eq_ok h₁
  rcases layerOver_eq_ok hover with ⟨hplain, -, -⟩ | ⟨transport, inner, rfl⟩
  · rw [hssh] at hplain
    exact absurd hplain (by decide)
  · unfold layerOver at hover
    rw [hssh] at hover
    cases hover

/-- An SSH hop whose channel is the whole way to the last hop: nothing is layered over the
channel, and no hop in between has left its mark. -/
theorem reachLast_channel {route : Route} {first last : Node} {rest : List Node}
    {addr target : String} {s s' : Bytes} {log ev : List Event}
    (h : reachLast env route last (first :: rest) s log
      = ⟨.ok (.channel addr target), s', ev⟩) :
    last.transport ∈ ["", "tcp"]
      ∧ (rest ≠ [] → ∃ pre node t d e, ev = pre ++ [.connected node t d e]) := by
  obtain ⟨c, s₁, ev₁, ev', -, h₁, rfl⟩ := bind_eq_ok h
  obtain ⟨d, s₂, ev₂, ev₃, hrest, hover, rfl⟩ := bind_eq_ok h₁
  rcases layerOver_eq_ok hover with ⟨hplain, -, rfl⟩ | ⟨transport, inner, hd⟩
  · refine ⟨hplain, fun hne => ?_⟩
    obtain ⟨pre, node, t, d', e, rfl⟩ := (hops_of_dialRest hrest).ends hne
    refine ⟨ev₁ ++ pre, node, t, d', e, ?_⟩
    rw [List.append_nil, List.append_assoc]
  · cases hd

/-- The channel of an SSH hop reaches the second node of the chain and no other. -/
theorem rest_of_reachesLast {chain : Chain} {bind : Net.SocketAddr} {ch : UdpChannel}
    {first : Node} {rest : List Node} {s s' : Bytes} {log new : List Event}
    (hp : chain.lastNode.protocol = "socks5") (hn : chain.nodes = first :: rest)
    (hssh : first.transport = "ssh") (h : chain.dialUdp env bind s log = ⟨.ok ch, s', new⟩)
    (hreaches : ReachesLast env chain bind log ch s' new) :
    rest = [chain.lastNode] ∧ chain.lastNode.transport ∈ ["", "tcp"] := by
  obtain ⟨control', s₀', s₁', before', ev', evt', hreach, htunnel', hnew'⟩ := hreaches
  obtain ⟨target, control, s₀, s₁, before, ev, evt, htarget, htunnel, hnew⟩ := dialUdp_eq_ok hp h
  obtain ⟨hch, hevt⟩ := udpTunnel_eq_ok htunnel
  obtain ⟨hch', hevt'⟩ := udpTunnel_eq_ok htunnel'
  cases hch.symm.trans hch'
  rw [dialTarget_ssh target hn hssh] at htarget
  obtain ⟨rfl, pre, rfl⟩ := dialSshHop_eq_ok htarget
  have hnodes := nodes_of_lastNode hp
  rw [hn] at hnodes hreach
  cases rest with
  | nil =>
    have hlast : chain.lastNode = first := (List.cons.inj hnodes).1.symm
    rw [hlast] at hreach
    exact absurd hssh (dialFirst_ne_ssh hreach)
  | cons node rest =>
    rw [List.dropLast_cons_cons] at hnodes hreach
    obtain ⟨hplain, hends⟩ := reachLast_channel hreach
    have hsplit : (before ++ pre) ++ [Event.openStream (.channel first.addr
        (hopTarget target (node :: rest)))] = before' ++ ev' := by
      rw [hnew, hevt, hevt'] at hnew'
      rw [List.append_assoc]
      exact List.append_cancel_right hnew'
    cases rest with
    | nil =>
      rw [List.dropLast_singleton] at hnodes
      exact ⟨(List.cons.inj hnodes).2, hplain⟩
    | cons node' rest =>
      obtain ⟨pre', n, t, d, e, rfl⟩ := hends (List.cons_ne_nil _ _)
      rw [← List.append_assoc] at hsplit
      cases (List.append_inj' hsplit rfl).2

/-- A UDP tunnel is the first thing that the last hop is asked for, and is asked for
through the rest of the chain, exactly if the chain is an SSH hop and a second hop over
TCP.  Any other chain has asked its last hop to connect to itself by then, or, where it
begins with an SSH hop, has asked the second hop in place of the last. -/
theorem reaches_last_iff (chain : Chain) (bind : Net.SocketAddr) (ch : UdpChannel) (s s' : Bytes)
    (log new : List Event) (hp : chain.lastNode.protocol = "socks5")
    (h : chain.dialUdp env bind s log = ⟨.ok ch, s', new⟩) :
    ReachesLast env chain bind log ch s' new
      ↔ ∃ first, chain.nodes = [first, chain.lastNode] ∧ first.transport = "ssh"
        ∧ chain.lastNode.transport ∈ ["", "tcp"] := by
  constructor
  · intro hreaches
    cases hn : chain.nodes with
    | nil =>
      have hnodes := nodes_of_lastNode hp
      rw [hn] at hnodes
      cases hnodes
    | cons first rest =>
      by_cases hssh : first.transport = "ssh"
      · obtain ⟨hrest, hplain⟩ := rest_of_reachesLast hp hn hssh h hreaches
        exact ⟨first, by rw [hrest], hssh, hplain⟩
      · refine absurd hreaches (not_reachesLast_of_plain hp ?_ h)
        rw [hn]
        intro first' hfirst
        cases hfirst
        exact hssh
  · rintro ⟨first, hn, hssh, hplain⟩
    obtain ⟨target, control, s₀, s₁, before, ev, evt, htarget, htunnel, hnew⟩ :=
      dialUdp_eq_ok hp h
    rw [dialTarget_ssh target hn hssh] at htarget
    refine ⟨control, s₀, s₁, before, ev, evt, ?_, htunnel, hnew⟩
    have hhop : firstHop env chain.toRoute first (hopTarget chain.lastNode.addr []) s₀
        (log ++ before) = ⟨.ok control, s₁, ev⟩ := by
      rw [firstHop, if_pos hssh]
      exact htarget
    rw [hn]
    show reachLast env chain.toRoute chain.lastNode [first] s₀ (log ++ before) = _
    have hover (c : Conn) : layerOver env c chain.lastNode (hopHostname chain.lastNode) = pure c := by
      unfold layerOver
      rw [if_pos hplain]
    rw [reachLast, bind_ok hhop, dialRest, bind_silent (pure_run control), hover]
    show Outcome.mk _ s₁ (ev ++ []) = _
    rw [List.append_nil]
    rfl

/-- `-F forward+ssh://u:p@jump:22 -F socks5://p:1080`. -/
theorem reaches_last_over_ssh :
    ReachesLast (Env.calm .blank) (Chain.overSsh "socks5" "p:1080")
      ⟨.v4 .unspecified, 0⟩ [] (.tunnel (.channel "jump:22" "p:1080")) []
      [.dial "p:1080", .connect "jump:22", .shake (.ssh "u") (.tcp "jump:22"),
        .openStream (.channel "jump:22" "p:1080"), .shake .socks5Methods (.channel "jump:22" "p:1080"),
        .shake (.connector "udp-tun" "0.0.0.0:0") (.channel "jump:22" "p:1080")] :=
  (reaches_last_iff _ _ _ [] [] [] _ rfl rfl).mpr ⟨_, rfl, rfl, by decide⟩

/-- `-F socks5://p:1080`: the hop is asked to connect to itself, and asked for the tunnel
over that. -/
theorem socks5_asked_for_itself :
    (Chain.ofNodes [("socks5", "tcp", "p:1080")]).dialUdp (Env.calm .blank)
        ⟨.v4 .unspecified, 0⟩ [] []
      = ⟨.ok (.tunnel (.via "socks5" "p:1080" (.tcp "p:1080"))), [],
        [.dial "p:1080", .connect "p:1080",
          .layered (Chain.ofNodes [("socks5", "tcp", "p:1080")]).lastNode
            (.tcp "p:1080") (.tcp "p:1080"),
          .shake (.connector "socks5" "p:1080") (.tcp "p:1080"),
          .connected (Chain.ofNodes [("socks5", "tcp", "p:1080")]).lastNode "p:1080"
            (.tcp "p:1080") (.via "socks5" "p:1080" (.tcp "p:1080")),
          .shake .socks5Methods (.via "socks5" "p:1080" (.tcp "p:1080")),
          .shake (.connector "udp-tun" "0.0.0.0:0")
            (.via "socks5" "p:1080" (.tcp "p:1080"))]⟩
      ∧ ¬ ∀ env chain bind ch s s' log new, chain.lastNode.protocol = "socks5" →
        chain.dialUdp env bind s log = ⟨.ok ch, s', new⟩ →
          ReachesLast env chain bind log ch s' new := by
  refine ⟨rfl, fun h => ?_⟩
  have hreaches := h (Env.calm .blank) (Chain.ofNodes [("socks5", "tcp", "p:1080")])
    ⟨.v4 .unspecified, 0⟩ _ [] [] [] _ rfl rfl
  refine not_reachesLast_of_plain rfl ?_ rfl hreaches
  intro first hfirst
  cases hfirst
  decide

end

end RtProxy
