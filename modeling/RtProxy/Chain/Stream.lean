import RtProxy.Chain.Dial

/-!
A dial leaves the client's stream alone.

Whatever a dial reads comes from the connections it made, so what the client has still
to send is the same after it.
-/

namespace RtProxy

open Act

variable {env : Env}

theorem perform_keeps (e : Event) : (env.perform e).Keeps := keeps_perform _ _

theorem connect_keeps (addr : String) : (env.connect addr).Keeps := by
  unfold Env.connect
  split
  · exact keeps_fail _
  · exact perform_keeps _

theorem envShake_keeps (node : Node) (h : Handshake) (base : Conn) : (env.shake node h base).Keeps := by
  unfold Env.shake
  split
  · exact keeps_fail _
  · exact perform_keeps _

theorem shake_keeps (node : Node) (h : Handshake) (base : Conn) (text : String → String) :
    (shake env node h base text).Keeps :=
  keeps_mapErr _ (envShake_keeps _ _ _)

/-! ## The hops -/

theorem markedSocket_keeps (route : Route) (addr : String) : (markedSocket env route addr).Keeps := by
  have hopt (opt : SockOpt) : (mapErr ChainError.ofFailure (env.perform (.sockopt opt))).Keeps :=
    keeps_mapErr _ (perform_keeps _)
  unfold markedSocket
  refine keeps_bind (keeps_ofExcept _) fun _ => keeps_bind (keeps_ask _) fun r => ?_
  split
  · exact keeps_fail _
  · exact keeps_fail _
  · exact keeps_bind (keeps_when (hopt _)) fun _ => keeps_when (hopt _)

theorem connectTcp_keeps (route : Route) (addr : String) : (connectTcp env route addr).Keeps := by
  refine keeps_bind (keeps_when (markedSocket_keeps route addr)) fun _ => ?_
  exact keeps_bind (keeps_mapErr _ (connect_keeps _)) fun _ => keeps_pure _

theorem muxSession_keeps (node : Node) : (muxSession env node).Keeps := by
  have hshake (h : Handshake) :
      (mapErr Failure.text (env.shake node h (.tcp node.addr))).Keeps :=
    keeps_mapErr _ (envShake_keeps _ _ _)
  refine keeps_bind (keeps_mapErr _ (connect_keeps _)) fun _ => ?_
  exact keeps_bind (keeps_when (hshake _)) fun _ => keeps_when (hshake _)

theorem dialMuxHop_keeps (node : Node) : (dialMuxHop env node).Keeps := by
  refine keeps_bind (keeps_ofExcept _) fun _ => keeps_bind (keeps_ask _) fun pooled => ?_
  refine keeps_bind (keeps_mapErr _ ?_) fun _ => keeps_pure _
  exact keeps_bind (keeps_when (muxSession_keeps node)) fun _ => keeps_mapErr _ (perform_keeps _)

theorem datagramStream_keeps (node : Node) (ready : Except String Unit) :
    (datagramStream env node ready).Keeps := by
  refine keeps_bind (keeps_mapErr _ (keeps_bind (keeps_ofExcept _) fun _ => ?_)) fun _ => keeps_pure _
  exact keeps_mapErr _ (keeps_bind (perform_keeps _) fun _ => perform_keeps _)

theorem dialDatagramHop_keeps (node : Node) : (dialDatagramHop env node).Keeps :=
  keeps_ite (datagramStream_keeps _ _)
    (keeps_bind (keeps_ofExcept _) fun _ => datagramStream_keeps _ _)

theorem dialSshHop_keeps (node : Node) (target : String) : (dialSshHop env node target).Keeps := by
  refine keeps_bind (keeps_ofExcept _) fun _ => keeps_bind (keeps_ask _) fun pooled => ?_
  refine keeps_bind (keeps_when (keeps_mapErr _ ?_)) fun _ => ?_
  · exact keeps_bind (keeps_mapErr _ (connect_keeps _)) fun _ => keeps_mapErr _ (perform_keeps _)
  · refine keeps_bind (keeps_mapErr _ (keeps_bind (keeps_ofExcept _) fun _ => ?_)) fun _ =>
      keeps_pure _
    exact keeps_mapErr _ (perform_keeps _)

theorem tlsLayer_keeps (stream : Conn) (node : Node) (host : String) :
    (tlsLayer env stream node host).Keeps :=
  keeps_bind (shake_keeps _ _ _ _) fun _ => keeps_pure _

theorem tlsUnder_keeps (secure : Bool) (stream : Conn) (node : Node) (host : String) :
    (tlsUnder env secure stream node host).Keeps :=
  keeps_ite (tlsLayer_keeps stream node host) (keeps_pure _)

theorem layerOver_keeps (stream : Conn) (node : Node) (host : String) :
    (layerOver env stream node host).Keeps := by
  have hshake (h : Handshake) (base c : Conn) (text : String → String) :
      (shake env node h base text >>= fun _ => pure c).Keeps :=
    keeps_bind (shake_keeps _ _ _ _) fun _ => keeps_pure _
  unfold layerOver
  refine keeps_ite (keeps_pure _) (keeps_ite (tlsLayer_keeps stream node host) (keeps_ite ?_ ?_))
  · exact keeps_bind (tlsUnder_keeps _ _ _ _) fun inner => hshake _ _ _ _
  refine keeps_ite (hshake _ _ _ _) (keeps_ite (hshake _ _ _ _) (keeps_ite ?_ (keeps_fail _)))
  exact keeps_bind (tlsUnder_keeps _ _ _ _) fun inner => hshake _ _ _ _

theorem layerTransport_keeps (stream : Conn) (node : Node) :
    (layerTransport env stream node).Keeps := by
  refine keeps_bind (layerOver_keeps _ _ _) fun out => ?_
  exact keeps_bind (keeps_emit _) fun _ => keeps_pure _

theorem connectOver_keeps (stream : Conn) (node : Node) (target : String) :
    (connectOver env stream node target).Keeps := by
  have hshake (h : Handshake) (c : Conn) (text : String → String) :
      (shake env node h stream text >>= fun _ => pure c).Keeps :=
    keeps_bind (shake_keeps _ _ _ _) fun _ => keeps_pure _
  have hasked (request : Except ChainError Bytes) (h : Handshake) (c : Conn) :
      (ofExcept request >>= fun _ => shake env node h stream id >>= fun _ => pure c).Keeps :=
    keeps_bind (keeps_ofExcept _) fun _ => hshake _ _ _
  unfold connectOver
  refine keeps_ite (hshake _ _ _) (keeps_ite (keeps_pure _) (keeps_ite (hshake _ _ _) ?_))
  refine keeps_ite ?_ (keeps_ite (hasked _ _ _) (keeps_ite (hasked _ _ _) ?_))
  · exact keeps_bind (shake_keeps _ _ _ _) fun _ => keeps_bind (keeps_ofExcept _) fun _ => keeps_pure _
  · exact keeps_ite (hasked _ _ _) (keeps_ite (keeps_pure _) (keeps_fail _))

theorem connectVia_keeps (stream : Conn) (node : Node) (target : String) :
    (connectVia env stream node target).Keeps := by
  refine keeps_bind (connectOver_keeps _ _ _) fun out => ?_
  exact keeps_bind (keeps_emit _) fun _ => keeps_pure _

theorem dialFirst_keeps (route : Route) (first : Node) : (dialFirst env route first).Keeps := by
  refine keeps_ite (dialMuxHop_keeps first) (keeps_ite (dialDatagramHop_keeps first) ?_)
  exact keeps_bind (connectTcp_keeps route _) fun conn => layerTransport_keeps conn first

theorem dialRest_keeps (target : String) (rest : List Node) (current : Conn) :
    (dialRest env target rest current).Keeps := by
  induction rest generalizing current with
  | nil => exact keeps_pure _
  | cons node rest ih =>
    refine keeps_ite (keeps_fail _) ?_
    refine keeps_bind (layerTransport_keeps _ _) fun layered => ?_
    exact keeps_bind (connectVia_keeps _ _ _) fun next => ih next

/-! ## A dial -/

theorem dialTarget_keeps (route : Route) (target : String) :
    (route.dialTarget env target).Keeps := by
  refine keeps_ite (connectTcp_keeps route target) ?_
  cases route.nodes with
  | nil => exact keeps_fail _
  | cons first rest =>
    refine keeps_ite (dialSshHop_keeps first _) ?_
    refine keeps_bind (dialFirst_keeps route first) fun conn => ?_
    exact keeps_bind (connectVia_keeps _ _ _) fun current => dialRest_keeps _ _ current

theorem tries_keeps {x : Action ChainError Conn} (h : x.Keeps) (n : Nat) (last : ChainError) :
    (tries x n last).Keeps := by
  induction n generalizing last with
  | zero => exact keeps_fail _
  | succ n ih =>
    refine keeps_bind (keeps_attempt h) fun r => ?_
    cases r with
    | ok conn => exact keeps_pure _
    | error e => exact ih e

theorem resolve_keeps {ε : Type} {lookup : Option Lookup} (h : ∀ l ∈ lookup, ∀ host, (l host).Keeps)
    (hosts : Option Hosts) (addr : String) : (resolve (ε := ε) lookup hosts addr).Keeps := by
  unfold resolve
  cases splitHostPort addr with
  | error e => exact keeps_pure _
  | ok parts =>
    dsimp only
    cases hosts.bind (·.lookup parts.1) with
    | some ip => exact keeps_pure _
    | none =>
      cases lookup with
      | none => exact keeps_pure _
      | some l =>
        refine keeps_bind (keeps_attempt (h l rfl _)) fun r => ?_
        split <;> exact keeps_pure _

theorem routeDialOnce_keeps {lookup : Option Lookup} (h : ∀ l ∈ lookup, ∀ host, (l host).Keeps)
    (route : Route) (hosts : Option Hosts) (address : String) :
    (route.dialOnce env lookup hosts address).Keeps :=
  keeps_bind (resolve_keeps h hosts address) fun _ => dialTarget_keeps route _

theorem dialPlain_keeps (route : Route) (address : String) : (route.dialPlain env address).Keeps := by
  refine tries_keeps (routeDialOnce_keeps ?_ route _ _) _ _
  intro l hl
  cases hl

/-! ## The resolver -/

theorem dialTcpVia_keeps (addr : String) (chain : Option Route) :
    (dialTcpVia env addr chain).Keeps := by
  unfold dialTcpVia
  split
  · exact keeps_mapErr _ (dialPlain_keeps _ _)
  · exact keeps_bind (connect_keeps _) fun _ => keeps_pure _

theorem nsContact_keeps (ns : NameServer) (chain : Option Route) :
    (nsContact env ns chain).Keeps := by
  unfold nsContact
  split
  · exact keeps_bind (keeps_ofExcept _) fun _ => perform_keeps _
  · exact keeps_bind (dialTcpVia_keeps _ _) fun _ => keeps_pure _
  · exact keeps_bind (dialTcpVia_keeps _ _) fun _ => perform_keeps _
  · split
    · exact keeps_fail _
    · exact keeps_bind (dialTcpVia_keeps _ _) fun _ => keeps_pure _

theorem query_keeps (r : Resolver) (ns : NameServer) (host qtype : String) :
    (r.query env ns host qtype).Keeps := by
  refine keeps_bind (keeps_ask _) fun ips => ?_
  cases ips with
  | some ips => exact keeps_pure _
  | none =>
    refine keeps_ite (keeps_bind (nsContact_keeps _ _) fun _ => ?_) (keeps_fail _)
    exact keeps_bind (keeps_ask _) fun r => keeps_ofExcept r

theorem resolveVia_keeps (r : Resolver) (ns : NameServer) (host : String) :
    (r.resolveVia env ns host).Keeps := by
  refine keeps_bind (keeps_attempt (query_keeps r ns host _)) fun ips => ?_
  split
  · exact keeps_pure _
  · exact query_keeps r ns host _

theorem failover_keeps (r : Resolver) (host : String) (servers : List NameServer)
    (last : Option Failure) : (r.failover env host servers last).Keeps := by
  induction servers generalizing last with
  | nil =>
    cases last with
    | none => exact keeps_pure _
    | some e => exact keeps_fail _
  | cons ns rest ih =>
    refine keeps_bind (keeps_attempt (resolveVia_keeps r ns host)) fun ips => ?_
    split
    · exact keeps_pure _
    · exact ih _
    · exact ih _

theorem resolver_keeps (r : Resolver) (host : String) : (r.resolve env host).Keeps := by
  refine keeps_ite (keeps_pure _) ?_
  cases Net.IpAddr.parse host with
  | some ip => exact keeps_pure _
  | none =>
    refine keeps_ite (keeps_bind ?_ fun ips => ?_) (failover_keeps r _ _ _)
    · exact keeps_bind (keeps_emit _) fun _ => keeps_ask _
    cases ips with
    | error f => exact keeps_fail _
    | ok ips => exact keeps_pure _

/-! ## The chain -/

theorem noted_keeps {address : String} {x : Action ChainError Conn} (h : x.Keeps) :
    (noted address x).Keeps := by
  refine keeps_bind (keeps_attempt h) fun r => ?_
  cases r with
  | ok conn => exact keeps_pure _
  | error e => exact keeps_bind (keeps_emit _) fun _ => keeps_fail _

theorem dialWithOptions_keeps (chain : Chain) (address : String) (options : ChainOptions) :
    (chain.dialWithOptions env address options).Keeps := by
  refine keeps_bind (keeps_emit _) fun _ => tries_keeps (noted_keeps (routeDialOnce_keeps ?_ _ _ _)) _ _
  intro l hl host
  obtain ⟨r, -, rfl⟩ := Option.map_eq_some_iff.mp hl
  exact resolver_keeps r host

end RtProxy
