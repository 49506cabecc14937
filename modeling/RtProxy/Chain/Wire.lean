import RtProxy.Chain.Dial

/-!
Where the connections and datagrams of a dial go.

A dial through a chain opens connections to its first hop only; every other hop is
reached inside them.  A lookup contacts the name servers, each at one address.
-/

namespace RtProxy

open Act

/-- An event of a dial that leaves the machine, if at all, for a destination of `D`. -/
def Toward (D : Destination → Prop) (e : Event) : Prop :=
  e.wire = true ∧ ∀ d, e.destination = some d → D d

section

variable {D : Destination → Prop}

theorem toward_of_local {e : Event} (hw : e.wire = true) (hd : e.destination = none) :
    Toward D e := by
  refine ⟨hw, fun d h => ?_⟩
  rw [hd] at h
  cases h

theorem toward_connect {addr : String} (h : D (.addr addr)) : Toward D (.connect addr) := by
  refine ⟨rfl, fun d hd => ?_⟩
  cases hd
  exact h

theorem toward_datagram {addr : String} (h : D (.addr addr)) : Toward D (.datagram addr) := by
  refine ⟨rfl, fun d hd => ?_⟩
  cases hd
  exact h

theorem toward_lookup {name : String} (h : D .system) : Toward D (.lookup name) := by
  refine ⟨rfl, fun d hd => ?_⟩
  cases hd
  exact h

end

section

variable {env : Env} {D : Destination → Prop}

theorem perform_toward {e : Event} (h : Toward D e) : (env.perform e).Emits (Toward D) :=
  emits_perform h

/-! ## Inside of a connection -/

/-- What happens inside of a connection is of this kind. -/
structure Inside (p : Event → Prop) : Prop where
  shake : ∀ h base, p (.shake h base)
  openStream : ∀ c, p (.openStream c)
  layered : ∀ node base out, p (.layered node base out)
  connected : ∀ node target base out, p (.connected node target base out)

theorem toward_inside (D : Destination → Prop) : Inside (Toward D) where
  shake _ _ := toward_of_local rfl rfl
  openStream _ := toward_of_local rfl rfl
  layered _ _ _ := toward_of_local rfl rfl
  connected _ _ _ _ := toward_of_local rfl rfl

section inside

variable {p : Event → Prop}

theorem envShake_emits (hp : Inside p) (node : Node) (h : Handshake) (base : Conn) :
    (env.shake node h base).Emits p := by
  unfold Env.shake
  split
  · exact emits_fail _
  · exact emits_perform (hp.shake h base)

theorem shake_emits (hp : Inside p) (node : Node) (h : Handshake) (base : Conn)
    (text : String → String) : (shake env node h base text).Emits p :=
  emits_mapErr _ (envShake_emits hp node h base)

theorem tlsLayer_emits (hp : Inside p) (stream : Conn) (node : Node) (host : String) :
    (tlsLayer env stream node host).Emits p :=
  emits_bind (shake_emits hp _ _ _ _) fun _ => emits_pure _

theorem tlsUnder_emits (hp : Inside p) (secure : Bool) (stream : Conn) (node : Node)
    (host : String) : (tlsUnder env secure stream node host).Emits p :=
  emits_ite (tlsLayer_emits hp stream node host) (emits_pure _)

theorem layerOver_emits (hp : Inside p) (stream : Conn) (node : Node) (host : String) :
    (layerOver env stream node host).Emits p := by
  have hshake (h : Handshake) (base c : Conn) (text : String → String) :
      (shake env node h base text >>= fun _ => pure c).Emits p :=
    emits_bind (shake_emits hp _ _ _ _) fun _ => emits_pure _
  unfold layerOver
  refine emits_ite (emits_pure _) (emits_ite (tlsLayer_emits hp stream node host) (emits_ite ?_ ?_))
  · exact emits_bind (tlsUnder_emits hp _ _ _ _) fun inner => hshake _ _ _ _
  refine emits_ite (hshake _ _ _ _) (emits_ite (hshake _ _ _ _) (emits_ite ?_ (emits_fail _)))
  exact emits_bind (tlsUnder_emits hp _ _ _ _) fun inner => hshake _ _ _ _

theorem layerTransport_emits (hp : Inside p) (stream : Conn) (node : Node) :
    (layerTransport env stream node).Emits p := by
  refine emits_bind (layerOver_emits hp _ _ _) fun out => ?_
  exact emits_bind (emits_emit (hp.layered _ _ _)) fun _ => emits_pure _

theorem connectOver_emits (hp : Inside p) (stream : Conn) (node : Node) (target : String) :
    (connectOver env stream node target).Emits p := by
  have hshake (h : Handshake) (c : Conn) (text : String → String) :
      (shake env node h stream text >>= fun _ => pure c).Emits p :=
    emits_bind (shake_emits hp _ _ _ _) fun _ => emits_pure _
  have hasked (request : Except ChainError Bytes) (h : Handshake) (c : Conn) :
      (ofExcept request >>= fun _ => shake env node h stream id >>= fun _ => pure c).Emits p :=
    emits_bind (emits_ofExcept _) fun _ => hshake _ _ _
  unfold connectOver
  refine emits_ite (hshake _ _ _) (emits_ite (emits_pure _) (emits_ite (hshake _ _ _) ?_))
  refine emits_ite ?_ (emits_ite (hasked _ _ _) (emits_ite (hasked _ _ _) ?_))
  · refine emits_bind (shake_emits hp _ _ _ _) fun _ => ?_
    exact emits_bind (emits_ofExcept _) fun _ => emits_pure _
  · exact emits_ite (hasked _ _ _) (emits_ite (emits_pure _) (emits_fail _))

theorem connectVia_emits (hp : Inside p) (stream : Conn) (node : Node) (target : String) :
    (connectVia env stream node target).Emits p := by
  refine emits_bind (connectOver_emits hp _ _ _) fun out => ?_
  exact emits_bind (emits_emit (hp.connected _ _ _ _)) fun _ => emits_pure _

theorem dialRest_emits (hp : Inside p) (target : String) (rest : List Node) (current : Conn) :
    (dialRest env target rest current).Emits p := by
  induction rest generalizing current with
  | nil => exact emits_pure _
  | cons node rest ih =>
    refine emits_ite (emits_fail _) ?_
    refine emits_bind (layerTransport_emits hp _ _) fun layered => ?_
    exact emits_bind (connectVia_emits hp _ _ _) fun next => ih next

end inside

/-! ## The hops -/

theorem markedSocket_toward (route : Route) (addr : String) :
    (markedSocket env route addr).Emits (Toward D) := by
  have hopt (opt : SockOpt) :
      (mapErr ChainError.ofFailure (env.perform (.sockopt opt))).Emits (Toward D) :=
    emits_mapErr _ (perform_toward (toward_of_local rfl rfl))
  unfold markedSocket
  refine emits_bind (emits_ofExcept _) fun _ => emits_bind (emits_ask _) fun r => ?_
  split
  · exact emits_fail _
  · exact emits_fail _
  · exact emits_bind (emits_when fun _ => hopt _) fun _ => emits_when fun _ => hopt _

/-- The address, if it can be connected to. -/
def dialable (addr : String) : Option String :=
  if toSocketAddrs addr = .ok () then some addr else none

theorem dialable_eq_some {addr a : String} : dialable addr = some a ↔
    toSocketAddrs addr = .ok () ∧ addr = a := by
  unfold dialable
  split_ifs with h
  · rw [Option.some_inj]
    exact ⟨fun heq => ⟨h, heq⟩, And.right⟩
  · exact ⟨nofun, fun hcond => absurd hcond.1 h⟩

theorem envConnect_emits {p : Event → Prop} {addr : String}
    (h : ∀ a, dialable addr = some a → p (.connect a)) : (env.connect addr).Emits p := by
  unfold Env.connect
  cases ha : toSocketAddrs addr with
  | error e => exact emits_fail _
  | ok _ => exact emits_perform (h addr (dialable_eq_some.mpr ⟨ha, rfl⟩))

theorem envSystemLookup_emits {ε : Type} {p : Event → Prop} {name : String} (h : p (.lookup name)) :
    (env.systemLookup name : Action ε _).Emits p :=
  emits_bind (emits_emit h) fun _ => emits_ask _

theorem connect_toward {addr : String} (h : ∀ a, dialable addr = some a → D (.addr a)) :
    (env.connect addr).Emits (Toward D) :=
  envConnect_emits fun a ha => toward_connect (h a ha)

theorem connectTcp_toward {route : Route} {addr : String}
    (h : ∀ a, dialable addr = some a → D (.addr a)) :
    (connectTcp env route addr).Emits (Toward D) := by
  refine emits_bind (emits_when fun _ => markedSocket_toward route addr) fun _ => ?_
  exact emits_bind (emits_mapErr _ (connect_toward h)) fun _ => emits_pure _

/-- Nothing of the client's own keeps a dial from contacting the first hop. -/
def Node.contactable (libs : Libs) (node : Node) : Bool :=
  if isMuxTransport node.transport then
    (muxConfigFromNode node).isOk && (toSocketAddrs node.addr).isOk
  else if node.transport = "quic" then (quicReady libs node).isOk
  else if node.transport = "kcp" then
    match Kcp.KcpConfig.fromNode libs node with
    | .ok config => (kcpReady libs node config).isOk
    | .error _ => false
  else if node.transport = "ssh" then
    (Ssh.SshForwardTransporter.new libs.keys (.fromNode node)).isOk && (toSocketAddrs node.addr).isOk
  else (toSocketAddrs node.addr).isOk

theorem muxSession_toward {node : Node} (h : toSocketAddrs node.addr = .ok () → D (.addr node.addr)) :
    (muxSession env node).Emits (Toward D) := by
  have hshake (h : Handshake) :
      (mapErr Failure.text (env.shake node h (.tcp node.addr))).Emits (Toward D) :=
    emits_mapErr _ (envShake_emits (toward_inside D) _ _ _)
  have hconnect : (env.connect node.addr).Emits (Toward D) := by
    refine connect_toward fun a ha => ?_
    obtain ⟨hok, rfl⟩ := dialable_eq_some.mp ha
    exact h hok
  refine emits_bind (emits_mapErr _ hconnect) fun _ => ?_
  exact emits_bind (emits_when fun _ => hshake _) fun _ => emits_when fun _ => hshake _

/-- What is asked of a value before the rest. -/
theorem ofExcept_bind_emits {ε ε' α β : Type} {p : Event → Prop} {r : Except ε' α} {g : ε' → ε}
    {f : α → Action ε β} (h : ∀ a, r = .ok a → (f a).Emits p) :
    (ofExcept (r.mapError g) >>= f).Emits p := by
  cases r with
  | error e =>
    intro s log e' he
    have hfail : (Except.error e : Except ε' α).mapError g = .error (g e) := rfl
    rw [ofExcept_bind_error hfail] at he
    cases he
  | ok a => exact emits_bind_of_ok (emits_ofExcept _) (fun s log => ⟨s, [], rfl⟩) (h a rfl)

theorem isOk_of_eq {ε α : Type} {r : Except ε α} {a : α} (h : r = .ok a) : r.isOk = true := by
  rw [h]
  rfl

theorem dialMuxHop_toward {node : Node} (hmux : isMuxTransport node.transport = true)
    (h : node.contactable env.toLibs = true → D (.addr node.addr)) :
    (dialMuxHop env node).Emits (Toward D) := by
  refine ofExcept_bind_emits fun config hconfig => emits_bind (emits_ask _) fun pooled => ?_
  refine emits_bind (emits_mapErr _ ?_) fun _ => emits_pure _
  refine emits_bind (emits_when fun _ => muxSession_toward fun ha => h ?_) fun _ => ?_
  · rw [Node.contactable, if_pos hmux, isOk_of_eq hconfig, isOk_of_eq ha]
    rfl
  · exact emits_mapErr _ (perform_toward (toward_of_local rfl rfl))

theorem datagramStream_toward {node : Node} {ready : Except String Unit}
    (h : ready = .ok () → D (.addr node.addr)) :
    (datagramStream env node ready).Emits (Toward D) := by
  refine emits_bind (emits_mapErr _ ?_) fun _ => emits_pure _
  cases ready with
  | error e =>
    intro s log e' he
    rw [ofExcept_bind_error rfl] at he
    cases he
  | ok _ =>
    refine emits_bind (emits_ofExcept _) fun _ => emits_mapErr _ ?_
    refine emits_bind (perform_toward (toward_datagram (h rfl))) fun _ => ?_
    exact perform_toward (toward_of_local rfl rfl)

theorem dialDatagramHop_toward {node : Node} (hkind : node.transport ∈ ["quic", "kcp"])
    (h : node.contactable env.toLibs = true → D (.addr node.addr)) :
    (dialDatagramHop env node).Emits (Toward D) := by
  unfold dialDatagramHop
  unfold Node.contactable at h
  rcases List.mem_pair.mp hkind with hq | hq
  · rw [if_pos hq]
    refine datagramStream_toward fun hready => h ?_
    rw [hq, if_neg (by decide), if_pos rfl, isOk_of_eq hready]
  · rw [if_neg (by rw [hq]; decide)]
    refine ofExcept_bind_emits fun config hconfig => datagramStream_toward fun hready => h ?_
    rw [hq, if_neg (by decide), if_neg (by decide), if_pos rfl, hconfig]
    exact isOk_of_eq hready

theorem dialSshHop_toward {node : Node} (target : String) (hssh : node.transport = "ssh")
    (h : node.contactable env.toLibs = true → D (.addr node.addr)) :
    (dialSshHop env node target).Emits (Toward D) := by
  refine ofExcept_bind_emits fun transporter hnew => emits_bind (emits_ask _) fun pooled => ?_
  have hconnect : (env.connect node.addr).Emits (Toward D) := by
    refine connect_toward fun a ha => ?_
    obtain ⟨hok, rfl⟩ := dialable_eq_some.mp ha
    refine h ?_
    rw [Node.contactable, hssh, if_neg (by decide), if_neg (by decide), if_neg (by decide), if_pos rfl,
      isOk_of_eq hnew, isOk_of_eq hok]
    rfl
  refine emits_bind (emits_when fun _ => emits_mapErr _ (emits_bind (emits_mapErr _ hconnect)
    fun _ => emits_mapErr _ (perform_toward (toward_of_local rfl rfl)))) fun _ => ?_
  refine emits_bind (emits_mapErr _ (emits_bind (emits_ofExcept _) fun _ => ?_)) fun _ => emits_pure _
  exact emits_mapErr _ (perform_toward (toward_of_local rfl rfl))

theorem dialFirst_toward {route : Route} {first : Node} (hssh : first.transport ≠ "ssh")
    (h : first.contactable env.toLibs = true → D (.addr first.addr)) :
    (dialFirst env route first).Emits (Toward D) := by
  unfold dialFirst
  split_ifs with hmux hsession
  · exact dialMuxHop_toward hmux h
  · exact dialDatagramHop_toward hsession h
  · simp only [List.mem_cons, List.not_mem_nil, or_false, not_or] at hsession
    refine emits_bind (connectTcp_toward fun a ha => ?_) fun conn =>
      layerTransport_emits (toward_inside D) conn first
    obtain ⟨hok, rfl⟩ := dialable_eq_some.mp ha
    refine h ?_
    rw [Node.contactable, if_neg hmux, if_neg hsession.1, if_neg hsession.2, if_neg hssh,
      isOk_of_eq hok]

/-! ## A dial -/

/-- The one address to which a dial of `target` along the route opens connections. -/
def Route.entry (libs : Libs) (route : Route) (target : String) : Option String :=
  if route.isEmpty then dialable target
  else (route.nodes.head?.filter (·.contactable libs)).map (·.addr)

theorem dialTarget_toward {route : Route} {target : String}
    (h : ∀ a, route.entry env.toLibs target = some a → D (.addr a)) :
    (route.dialTarget env target).Emits (Toward D) := by
  unfold Route.dialTarget
  unfold Route.entry at h
  split_ifs at h ⊢
  · exact connectTcp_toward h
  · cases hn : route.nodes with
    | nil => exact emits_fail _
    | cons first rest =>
      have hfirst (hc : first.contactable env.toLibs = true) : D (.addr first.addr) := by
        refine h first.addr ?_
        rw [hn, List.head?_cons, Option.filter_some, if_pos hc]
        rfl
      dsimp only
      split_ifs with hssh
      · exact dialSshHop_toward _ hssh hfirst
      refine emits_bind (dialFirst_toward hssh hfirst) fun conn => ?_
      refine emits_bind (connectVia_emits (toward_inside D) _ _ _) fun current => ?_
      exact dialRest_emits (toward_inside D) _ _ current

theorem tries_leaves {P : List Event → Prop} (hP : Traced P) {x : Action ChainError Conn}
    (h : x.Leaves P) (n : Nat) (last : ChainError) : (tries x n last).Leaves P := by
  induction n generalizing last with
  | zero => exact hP.leaves_fail _
  | succ n ih =>
    refine hP.leaves_bind (leaves_attempt h) fun r => ?_
    cases r with
    | ok conn => exact hP.leaves_pure _
    | error e => exact ih e

theorem tries_emits {p : Event → Prop} {x : Action ChainError Conn} (h : x.Emits p) (n : Nat)
    (last : ChainError) : (tries x n last).Emits p :=
  tries_leaves (traced_forall p) h n last

theorem noted_leaves {P : List Event → Prop} (hP : Traced P) {address : String}
    {x : Action ChainError Conn} (hfailed : P [.failed address]) (h : x.Leaves P) :
    (noted address x).Leaves P := by
  refine hP.leaves_bind (leaves_attempt h) fun r => ?_
  cases r with
  | ok conn => exact hP.leaves_pure _
  | error e => exact hP.leaves_bind (fun _ _ => hfailed) fun _ => hP.leaves_fail _

theorem noted_emits {p : Event → Prop} {address : String} {x : Action ChainError Conn}
    (hfailed : p (.failed address)) (h : x.Emits p) : (noted address x).Emits p :=
  noted_leaves (traced_forall p) (List.forall_mem_singleton.mpr hfailed) h

theorem resolve_leaves {ε : Type} {P : List Event → Prop} (hP : Traced P) {lookup : Option Lookup}
    {hosts : Option Hosts} {addr : String}
    (h : ∀ host port, splitHostPort addr = .ok (host, port) → hosts.bind (·.lookup host) = none →
      ∀ l, lookup = some l → (l host).Leaves P) :
    (resolve (ε := ε) lookup hosts addr).Leaves P := by
  unfold resolve
  cases hs : splitHostPort addr with
  | error e => exact hP.leaves_pure _
  | ok parts =>
    obtain ⟨host, port⟩ := parts
    dsimp only
    cases hh : hosts.bind (·.lookup host) with
    | some ip => exact hP.leaves_pure _
    | none =>
      cases lookup with
      | none => exact hP.leaves_pure _
      | some l =>
        refine hP.leaves_bind (leaves_attempt (h host port hs hh l rfl)) fun r => ?_
        split <;> exact hP.leaves_pure _

theorem resolve_toward {ε : Type} {p : Event → Prop} {lookup : Option Lookup} {hosts : Option Hosts}
    {addr : String}
    (h : ∀ host port, splitHostPort addr = .ok (host, port) → hosts.bind (·.lookup host) = none →
      ∀ l, lookup = some l → (l host).Emits p) :
    (resolve (ε := ε) lookup hosts addr).Emits p :=
  resolve_leaves (traced_forall p) h

theorem dialPlain_toward {route : Route} {address : String}
    (h : ∀ target a, route.entry env.toLibs target = some a → D (.addr a)) :
    (route.dialPlain env address).Emits (Toward D) := by
  refine tries_emits (emits_bind (resolve_toward ?_) fun resolved => ?_) _ _
  · intro host port hs hh l hl
    cases hl
  · exact dialTarget_toward (h _)

/-! ## A lookup -/

/-- The address that `dial_tcp_via` opens a connection to. -/
def contactVia (libs : Libs) (chain : Option Route) (addr : String) : Option String :=
  match chain.filter fun route => !route.isEmpty with
  | some route => (route.nodes.head?.filter (·.contactable libs)).map (·.addr)
  | none => dialable addr

/-- The address that an exchange with a name server opens a connection to, or sends
a datagram to. -/
def NameServer.contact (libs : Libs) (chain : Option Route) (ns : NameServer) : Option String :=
  let chain := if ns.protocolKind.2 then chain else none
  match ns.protocolKind.1 with
  | .udp => dialable ns.dialAddr
  | .tcp | .tls => contactVia libs chain ns.dialAddr
  | .https =>
    match dohAddr libs.urlParse ns.addr with
    | .error _ => none
    | .ok addr => contactVia libs chain addr

theorem entry_of_nonempty {libs : Libs} {route : Route} (h : route.isEmpty = false)
    (target : String) : route.entry libs target =
      (route.nodes.head?.filter (·.contactable libs)).map (·.addr) := by
  rw [Route.entry, h, if_neg Bool.false_ne_true]

theorem dialTcpVia_toward {chain : Option Route} {addr : String}
    (h : ∀ a, contactVia env.toLibs chain addr = some a → D (.addr a)) :
    (dialTcpVia env addr chain).Emits (Toward D) := by
  unfold dialTcpVia
  unfold contactVia at h
  cases hc : chain.filter fun route => !route.isEmpty with
  | none =>
    rw [hc] at h
    exact emits_bind (connect_toward h) fun _ => emits_pure _
  | some route =>
    rw [hc] at h
    have hne : route.isEmpty = false := by
      rw [Option.filter_eq_some_iff] at hc
      simpa using hc.2
    refine emits_mapErr _ (dialPlain_toward fun target a ha => h a ?_)
    rwa [entry_of_nonempty hne] at ha

theorem nsContact_toward {ns : NameServer} {chain : Option Route}
    (h : ∀ a, ns.contact env.toLibs chain = some a → D (.addr a)) :
    (nsContact env ns (if ns.protocolKind.2 then chain else none)).Emits (Toward D) := by
  unfold nsContact
  unfold NameServer.contact at h
  cases hk : ns.protocolKind.1 with
  | udp =>
    rw [hk] at h
    refine ofExcept_bind_emits fun _ ha => perform_toward (toward_datagram (h _ ?_))
    exact dialable_eq_some.mpr ⟨ha, rfl⟩
  | tcp =>
    rw [hk] at h
    exact emits_bind (dialTcpVia_toward h) fun _ => emits_pure _
  | tls =>
    rw [hk] at h
    refine emits_bind (dialTcpVia_toward h) fun conn => ?_
    exact perform_toward (toward_of_local rfl rfl)
  | https =>
    rw [hk] at h
    cases ha : dohAddr env.urlParse ns.addr with
    | error e => exact emits_fail _
    | ok addr =>
      rw [ha] at h
      exact emits_bind (dialTcpVia_toward h) fun _ => emits_pure _

/-- The name that a resolver asks its servers for, if it has to. -/
def Resolver.queried (r : Resolver) (host : String) : Option String :=
  if host = "" ∨ (Net.IpAddr.parse host).isSome ∨ r.servers = []
    ∨ encodable (fqdn (r.searchName host)) = false then none
  else some (r.searchName host)

/-- A resolver without servers asks the system's. -/
def Resolver.asksSystem (r : Resolver) (host : String) : Bool :=
  host ≠ "" ∧ (Net.IpAddr.parse host).isNone ∧ r.servers = []

section lookup

variable {r : Resolver}

theorem query_leaves {P : List Event → Prop} (hP : Traced P) {ns : NameServer}
    {host qtype : String}
    (h : encodable (fqdn host) = true →
      (nsContact env ns (if ns.protocolKind.2 then r.chain else none)).Leaves P) :
    (r.query env ns host qtype).Leaves P := by
  refine hP.leaves_bind (hP.leaves_ask _) fun cached => ?_
  cases cached with
  | some ips => exact hP.leaves_pure _
  | none =>
    refine leaves_ite (fun henc => ?_) fun _ => hP.leaves_fail _
    refine hP.leaves_bind (h henc) fun _ => ?_
    exact hP.leaves_bind (hP.leaves_ask _) fun answer => hP.leaves_ofExcept _

theorem resolveVia_leaves {P : List Event → Prop} (hP : Traced P) {ns : NameServer} {host : String}
    (h : encodable (fqdn host) = true →
      (nsContact env ns (if ns.protocolKind.2 then r.chain else none)).Leaves P) :
    (r.resolveVia env ns host).Leaves P := by
  refine hP.leaves_bind (leaves_attempt (query_leaves hP h)) fun first => ?_
  split
  · exact hP.leaves_pure _
  · exact query_leaves hP h

theorem failover_leaves {P : List Event → Prop} (hP : Traced P) {host : String}
    {servers : List NameServer}
    (h : encodable (fqdn host) = true → ∀ ns ∈ servers,
      (nsContact env ns (if ns.protocolKind.2 then r.chain else none)).Leaves P)
    (last : Option Failure) : (r.failover env host servers last).Leaves P := by
  induction servers generalizing last with
  | nil =>
    cases last with
    | none => exact hP.leaves_pure _
    | some e => exact hP.leaves_fail _
  | cons ns rest ih =>
    have hrest := ih fun henc ns' hns' => h henc ns' (List.mem_cons_of_mem _ hns')
    refine hP.leaves_bind (leaves_attempt (resolveVia_leaves hP fun henc =>
      h henc ns List.mem_cons_self)) fun ips => ?_
    split
    · exact hP.leaves_pure _
    · exact hrest _
    · exact hrest _

theorem resolver_leaves {P : List Event → Prop} (hP : Traced P) {host : String}
    (hsystem : r.asksSystem host = true → ∀ name, P [.lookup name])
    (h : (r.queried host).isSome = true → ∀ ns ∈ r.servers,
      (nsContact env ns (if ns.protocolKind.2 then r.chain else none)).Leaves P) :
    (r.resolve env host).Leaves P := by
  unfold Resolver.resolve
  unfold Resolver.asksSystem at hsystem
  split_ifs with hhost hservers
  · exact hP.leaves_pure _
  · cases hip : Net.IpAddr.parse host with
    | some ip => exact hP.leaves_pure _
    | none =>
      have hlookup := hsystem (by simp [hhost, hip, hservers])
      refine hP.leaves_bind (hP.leaves_bind (fun _ _ => hlookup _) fun _ => hP.leaves_ask _)
        fun answer => ?_
      cases answer with
      | error f => exact hP.leaves_fail _
      | ok ips => exact hP.leaves_pure _
  · cases hip : Net.IpAddr.parse host with
    | some ip => exact hP.leaves_pure _
    | none =>
      refine failover_leaves hP (fun henc => h ?_) none
      unfold Resolver.queried
      rw [if_neg]
      · rfl
      · simp [hhost, hip, hservers, henc]

theorem resolver_toward {host : String} (hsystem : r.asksSystem host = true → D .system)
    (h : (r.queried host).isSome = true →
      ∀ ns ∈ r.servers, ∀ a, ns.contact env.toLibs r.chain = some a → D (.addr a)) :
    (r.resolve env host).Emits (Toward D) :=
  resolver_leaves (traced_forall _)
    (fun hs _ => List.forall_mem_singleton.mpr (toward_lookup (hsystem hs)))
    fun hq ns hns => nsContact_toward (h hq ns hns)

end lookup

/-! ## The chain -/

/-- All that may be asked when the address is resolved is of `D`: the servers, each where it
is reached, or those of the system. -/
def LookupWithin (libs : Libs) (D : Destination → Prop) (options : ChainOptions)
    (address : String) : Prop :=
  ∀ host port, splitHostPort address = .ok (host, port) →
    options.hosts.bind (·.lookup host) = none →
      ∀ r, options.resolver = some r →
        (r.asksSystem host = true → D .system) ∧
          ((r.queried host).isSome = true →
            ∀ ns ∈ r.servers, ∀ a, ns.contact libs r.chain = some a → D (.addr a))

theorem lookupWithin_any {libs : Libs} (options : ChainOptions) (address : String) :
    LookupWithin libs (fun _ => True) options address :=
  fun _ _ _ _ _ _ => ⟨fun _ => trivial, fun _ _ _ _ _ => trivial⟩

theorem dialOnce_toward {chain : Chain} {address : String} {options : ChainOptions}
    (hentry : ∀ target a, chain.entry env.toLibs target = some a → D (.addr a))
    (hlookup : LookupWithin env.toLibs D options address) :
    (chain.dialOnce env address options).Emits (Toward D) := by
  refine emits_bind (resolve_toward fun host port hs hh l hl => ?_) fun resolved => ?_
  · obtain ⟨r, hr, rfl⟩ := Option.map_eq_some_iff.mp hl
    obtain ⟨hsystem, hservers⟩ := hlookup host port hs hh r hr
    exact resolver_toward hsystem hservers
  · exact dialTarget_toward (hentry _)

theorem dialWithOptions_emits {p : Event → Prop} {chain : Chain} {address : String}
    {options : ChainOptions} (hdial : p (.dial address)) (hfailed : p (.failed address))
    (hwire : ∀ e, Toward D e → p e)
    (hentry : ∀ target a, chain.entry env.toLibs target = some a → D (.addr a))
    (hlookup : LookupWithin env.toLibs D options address) :
    (chain.dialWithOptions env address options).Emits p := by
  refine emits_bind (emits_emit hdial) fun _ => tries_emits ?_ _ _
  exact noted_emits hfailed ((dialOnce_toward hentry hlookup).mono hwire)

end

/-! ## In a calm world

Nothing fails there, so every address that may be contacted is. -/

section calm

variable {libs : Libs} {s : Bytes} {log : List Event}

/-- Some event of the run leaves the machine for the destination. -/
def Contacts {ε α : Type} (x : Action ε α) (s : Bytes) (log : List Event) (d : Destination) :
    Prop :=
  ∃ e ∈ (x s log).events, e.destination = some d

theorem Contacts.bind_left {ε α β : Type} {x : Action ε α} {f : α → Action ε β} {d : Destination}
    (h : Contacts x s log d) : Contacts (x >>= f) s log d := by
  obtain ⟨e, he, hd⟩ := h
  exact ⟨e, mem_bind_left he, hd⟩

theorem Contacts.bind_right {ε α β : Type} {x : Action ε α} {f : α → Action ε β} {d : Destination}
    {b : α} {s' : Bytes} {new : List Event} (hx : x s log = ⟨.ok b, s', new⟩)
    (h : Contacts (f b) s' (log ++ new) d) : Contacts (x >>= f) s log d := by
  obtain ⟨e, he, hd⟩ := h
  exact ⟨e, mem_bind_right hx he, hd⟩

theorem Contacts.ofExcept_bind {ε ε' α β : Type} {r : Except ε' α} {g : ε' → ε} {f : α → Action ε β}
    {a : α} {d : Destination} (hr : r = .ok a) (h : Contacts (f a) s log d) :
    Contacts (ofExcept (r.mapError g) >>= f) s log d := by
  unfold Contacts
  rw [Act.ofExcept_bind (a := a) (by rw [hr]; rfl)]
  exact h

theorem Contacts.mapErr {ε ε' α : Type} {x : Action ε α} {g : ε → ε'} {d : Destination}
    (h : Contacts x s log d) : Contacts (mapErr g x) s log d := h

theorem Contacts.attempt {ε ε' α : Type} {x : Action ε α} {d : Destination}
    (h : Contacts x s log d) : Contacts (attempt x : Action ε' _) s log d := h

theorem connect_contacts {addr a : String} (h : dialable addr = some a) :
    Contacts ((Env.calm libs).connect addr) s log (.addr a) := by
  obtain ⟨hok, rfl⟩ := dialable_eq_some.mp h
  rw [Env.connect, hok]
  exact ⟨.connect addr, List.mem_cons_self, rfl⟩

theorem datagram_contacts (addr : String) :
    Contacts ((Env.calm libs).perform (.datagram addr)) s log (.addr addr) :=
  ⟨.datagram addr, List.mem_cons_self, rfl⟩

theorem markedSocket_calm (route : Route) {addr : String} (h : toSocketAddrs addr = .ok ()) :
    ∃ new, markedSocket (Env.calm libs) route addr s log = ⟨.ok (), s, new⟩ := by
  have hask (log : List Event) : (ask fun log => (Env.calm libs).lookup log addr :
      Action ChainError _) s log = ⟨.ok (.ok [.v4 Net.Ipv4Addr.unspecified]), s, []⟩ := rfl
  have hwhen (c : Prop) [Decidable c] (opt : SockOpt) (log : List Event) : ∃ new,
      when c (mapErr ChainError.ofFailure ((Env.calm libs).perform (.sockopt opt))) s log
        = ⟨.ok (), s, new⟩ := by
    unfold when
    split_ifs <;> exact ⟨_, rfl⟩
  unfold markedSocket
  rw [Act.ofExcept_bind (a := ()) (by rw [h]; rfl)]
  refine exists_bind_ok ⟨[], hask log⟩ fun log => ?_
  exact exists_bind_ok (hwhen _ _ log) fun log => hwhen _ _ log

theorem connectTcp_contacts (route : Route) {addr a : String} (h : dialable addr = some a) :
    Contacts (connectTcp (Env.calm libs) route addr) s log (.addr a) := by
  obtain ⟨new, hnew⟩ : ∃ new, when (route.mark ≠ 0 ∨ route.interface ≠ "")
      (markedSocket (Env.calm libs) route addr) s log = ⟨.ok (), s, new⟩ := by
    unfold when
    split_ifs
    · exact markedSocket_calm route (dialable_eq_some.mp h).1
    · exact ⟨_, rfl⟩
  exact .bind_right hnew (.bind_left (.mapErr (connect_contacts h)))

theorem exists_of_isOk {ε α : Type} {r : Except ε α} (h : r.isOk = true) : ∃ a, r = .ok a := by
  cases r with
  | error e => cases h
  | ok a => exact ⟨a, rfl⟩

theorem dialable_of_isOk {addr : String} (h : (toSocketAddrs addr).isOk = true) :
    dialable addr = some addr := by
  obtain ⟨_, h⟩ := exists_of_isOk h
  exact dialable_eq_some.mpr ⟨h, rfl⟩

theorem dialMuxHop_contacts {node : Node} (hmux : isMuxTransport node.transport = true)
    (h : node.contactable libs = true) :
    Contacts (dialMuxHop (Env.calm libs) node) s log (.addr node.addr) := by
  rw [Node.contactable, if_pos hmux, Bool.and_eq_true] at h
  obtain ⟨config, hconfig⟩ := exists_of_isOk h.1
  refine .ofExcept_bind hconfig (.bind_right (b := false) rfl (.bind_left (.mapErr (.bind_left ?_))))
  rw [when, if_pos (Bool.false_and _)]
  exact .bind_left (.mapErr (connect_contacts (dialable_of_isOk h.2)))

theorem datagramStream_contacts {node : Node} {ready : Except String Unit}
    (h : ready.isOk = true) :
    Contacts (datagramStream (Env.calm libs) node ready) s log (.addr node.addr) := by
  obtain ⟨_, rfl⟩ := exists_of_isOk h
  exact .bind_left (.mapErr (.bind_right (b := ()) rfl
    (.mapErr (.bind_left (datagram_contacts node.addr)))))

theorem dialDatagramHop_contacts {node : Node} (hkind : node.transport ∈ ["quic", "kcp"])
    (h : node.contactable libs = true) :
    Contacts (dialDatagramHop (Env.calm libs) node) s log (.addr node.addr) := by
  unfold Node.contactable at h
  unfold dialDatagramHop
  rcases List.mem_pair.mp hkind with hq | hq
  · rw [hq, if_neg (by decide), if_pos rfl] at h
    rw [if_pos hq]
    exact datagramStream_contacts h
  · rw [hq, if_neg (by decide), if_neg (by decide), if_pos rfl] at h
    rw [if_neg (by rw [hq]; decide)]
    cases hconfig : Kcp.KcpConfig.fromNode libs node with
    | error e =>
      rw [hconfig] at h
      cases h
    | ok config =>
      rw [hconfig] at h
      exact .ofExcept_bind hconfig (datagramStream_contacts h)

theorem dialSshHop_contacts {node : Node} (target : String) (hssh : node.transport = "ssh")
    (h : node.contactable libs = true) :
    Contacts (dialSshHop (Env.calm libs) node target) s log (.addr node.addr) := by
  rw [Node.contactable, hssh, if_neg (by decide), if_neg (by decide), if_neg (by decide), if_pos rfl,
    Bool.and_eq_true] at h
  obtain ⟨transporter, hnew⟩ := exists_of_isOk h.1
  refine .ofExcept_bind hnew (.bind_right (b := false) rfl (.bind_left ?_))
  rw [when, if_pos (Bool.false_and _)]
  exact .mapErr (.bind_left (.mapErr (connect_contacts (dialable_of_isOk h.2))))

theorem dialFirst_contacts (route : Route) {first : Node} (hssh : first.transport ≠ "ssh")
    (h : first.contactable libs = true) :
    Contacts (dialFirst (Env.calm libs) route first) s log (.addr first.addr) := by
  unfold dialFirst
  split_ifs with hmux hsession
  · exact dialMuxHop_contacts hmux h
  · exact dialDatagramHop_contacts hsession h
  · simp only [List.mem_cons, List.not_mem_nil, or_false, not_or] at hsession
    rw [Node.contactable, if_neg hmux, if_neg hsession.1, if_neg hsession.2, if_neg hssh] at h
    exact .bind_left (connectTcp_contacts route (dialable_of_isOk h))

theorem mem_entry_head {first : Node} {rest : List Node} {a : String}
    (h : ((first :: rest).head?.filter (·.contactable libs)).map (·.addr) = some a) :
    first.contactable libs = true ∧ a = first.addr := by
  rw [List.head?_cons, Option.filter_some] at h
  split_ifs at h with hc
  · cases h
    exact ⟨hc, rfl⟩
  · cases h

theorem dialTarget_contacts {route : Route} {target a : String}
    (h : route.entry libs target = some a) :
    Contacts (route.dialTarget (Env.calm libs) target) s log (.addr a) := by
  unfold Route.dialTarget
  unfold Route.entry at h
  split_ifs at h ⊢
  · exact connectTcp_contacts route h
  · cases hn : route.nodes with
    | nil =>
      rw [hn] at h
      cases h
    | cons first rest =>
      rw [hn] at h
      obtain ⟨hc, rfl⟩ := mem_entry_head h
      dsimp only
      split_ifs with hssh
      · exact dialSshHop_contacts _ hssh hc
      · exact .bind_left (dialFirst_contacts route hssh hc)

theorem tries_contacts {x : Action ChainError Conn} {d : Destination} (h : Contacts x s log d)
    {n : Nat} (hn : 0 < n) (last : ChainError) : Contacts (tries x n last) s log d := by
  obtain ⟨n, rfl⟩ := Nat.exists_eq_add_of_lt hn
  rw [Nat.zero_add]
  exact .bind_left (.attempt h)

theorem retryCount_pos (chain call : Nat) : 0 < retryCount chain call := by
  unfold retryCount
  split_ifs <;> omega

theorem resolve_plain {ε : Type} (hosts : Option Hosts) (addr : String) (s : Bytes)
    (log : List Event) :
    ∃ resolved, (resolve none hosts addr : Action ε String) s log = ⟨.ok resolved, s, []⟩ := by
  unfold resolve
  cases splitHostPort addr with
  | error e => exact ⟨_, rfl⟩
  | ok parts =>
    obtain ⟨host, port⟩ := parts
    dsimp only
    cases hosts.bind (·.lookup host) <;> exact ⟨_, rfl⟩

theorem dialPlain_contacts {route : Route} {address a : String}
    (h : ∀ target, route.entry libs target = some a) :
    Contacts (route.dialPlain (Env.calm libs) address) s log (.addr a) := by
  obtain ⟨resolved, hr⟩ := resolve_plain (ε := ChainError) route.hosts address s log
  unfold Route.dialPlain
  refine tries_contacts ?_ (retryCount_pos _ _) _
  unfold Route.dialOnce
  exact .bind_right hr (dialTarget_contacts (h _))

theorem dialTcpVia_contacts {chain : Option Route} {addr a : String}
    (h : contactVia libs chain addr = some a) :
    Contacts (dialTcpVia (Env.calm libs) addr chain) s log (.addr a) := by
  unfold dialTcpVia
  unfold contactVia at h
  cases hc : chain.filter fun route => !route.isEmpty with
  | none =>
    rw [hc] at h
    exact .bind_left (connect_contacts h)
  | some route =>
    rw [hc] at h
    have hne : route.isEmpty = false := by
      rw [Option.filter_eq_some_iff] at hc
      simpa using hc.2
    have hentry (target : String) : route.entry libs target = some a := by
      rw [entry_of_nonempty hne]
      exact h
    exact .mapErr (dialPlain_contacts hentry)

theorem nsContact_contacts {ns : NameServer} {chain : Option Route} {a : String}
    (h : ns.contact libs chain = some a) :
    Contacts (nsContact (Env.calm libs) ns (if ns.protocolKind.2 then chain else none)) s log
      (.addr a) := by
  unfold nsContact
  unfold NameServer.contact at h
  cases hk : ns.protocolKind.1 with
  | udp =>
    rw [hk] at h
    obtain ⟨hok, rfl⟩ := dialable_eq_some.mp h
    exact .ofExcept_bind hok (datagram_contacts _)
  | tcp =>
    rw [hk] at h
    exact .bind_left (dialTcpVia_contacts h)
  | tls =>
    rw [hk] at h
    exact .bind_left (dialTcpVia_contacts h)
  | https =>
    rw [hk] at h
    dsimp only at h ⊢
    rw [show (Env.calm libs).urlParse = libs.urlParse from rfl]
    cases ha : dohAddr libs.urlParse ns.addr with
    | error e =>
      rw [ha] at h
      cases h
    | ok addr =>
      rw [ha] at h
      exact .bind_left (dialTcpVia_contacts h)

/-! The servers of a resolver answer without an address, so that each is asked. -/

theorem query_calm {r : Resolver} {ns : NameServer} {host qtype : String} {ips : List Net.IpAddr}
    (h : (r.query (Env.calm libs) ns host qtype s log).result = .ok ips) : ips = [] := by
  unfold Resolver.query at h
  rw [ask_bind, show (Env.calm libs).cached log _ = none from rfl] at h
  dsimp only at h
  split_ifs at h
  · rcases hc : nsContact (Env.calm libs) ns (if ns.protocolKind.2 then r.chain else none) s
      log with ⟨_ | u, s', new⟩
    · rw [nsExchange, bind_error hc] at h
      cases h
    · rw [nsExchange, bind_ok hc] at h
      cases h
      rfl
  · cases h

theorem resolveVia_calm {r : Resolver} {ns : NameServer} {host : String} {ips : List Net.IpAddr}
    (h : (r.resolveVia (Env.calm libs) ns host s log).result = .ok ips) : ips = [] := by
  unfold Resolver.resolveVia at h
  rw [bind_ok (x := attempt _) rfl] at h
  dsimp only at h
  cases hq : (r.query (Env.calm libs) ns host (if r.prefer = "ipv6" then "AAAA" else "A") s log).result
    with
  | error e =>
    rw [hq] at h
    exact query_calm h
  | ok first =>
    obtain rfl := query_calm hq
    rw [hq] at h
    exact query_calm h

theorem query_contacts {r : Resolver} {ns : NameServer} {host qtype a : String}
    (henc : encodable (fqdn host) = true) (h : ns.contact libs r.chain = some a) :
    Contacts (r.query (Env.calm libs) ns host qtype) s log (.addr a) := by
  refine .bind_right (b := none) rfl ?_
  dsimp only
  rw [if_pos henc]
  exact .bind_left (nsContact_contacts h)

theorem failover_contacts {r : Resolver} {host a : String} {servers : List NameServer}
    {ns : NameServer} (henc : encodable (fqdn host) = true) (hns : ns ∈ servers)
    (h : ns.contact libs r.chain = some a) (last : Option Failure) :
    Contacts (r.failover (Env.calm libs) host servers last) s log (.addr a) := by
  induction servers generalizing s log last with
  | nil => cases hns
  | cons ns' rest ih =>
    rcases List.mem_cons.mp hns with rfl | hrest
    · refine .bind_left (.attempt ?_)
      unfold Resolver.resolveVia
      exact .bind_left (.attempt (query_contacts henc h))
    · unfold Resolver.failover
      refine .bind_right (x := attempt _) rfl ?_
      cases hv : (r.resolveVia (Env.calm libs) ns' host s log).result with
      | error e => exact ih hrest _
      | ok ips =>
        obtain rfl := resolveVia_calm hv
        exact ih hrest _

theorem resolver_contacts {r : Resolver} {host a : String} {ns : NameServer}
    (hq : (r.queried host).isSome = true) (hns : ns ∈ r.servers)
    (h : ns.contact libs r.chain = some a) :
    Contacts (r.resolve (Env.calm libs) host) s log (.addr a) := by
  unfold Resolver.queried at hq
  split_ifs at hq with hno
  · cases hq
  rw [not_or, not_or, not_or] at hno
  obtain ⟨hhost, hip, hservers, henc⟩ := hno
  rw [Bool.not_eq_false] at henc
  rw [Option.not_isSome_iff_eq_none] at hip
  unfold Resolver.resolve
  rw [if_neg hhost, hip]
  dsimp only
  rw [if_neg hservers]
  exact failover_contacts henc hns h none

theorem resolver_asksSystem {r : Resolver} {host : String} (h : r.asksSystem host = true) :
    Contacts (r.resolve (Env.calm libs) host) s log .system := by
  unfold Resolver.asksSystem at h
  rw [decide_eq_true_eq, Option.isNone_iff_eq_none] at h
  obtain ⟨hhost, hip, hservers⟩ := h
  unfold Resolver.resolve
  rw [if_neg hhost, hip]
  dsimp only
  rw [if_pos hservers]
  exact .bind_left (.bind_left ⟨.lookup _, List.mem_cons_self, rfl⟩)

/-- What resolving a name contacts, a dial of it contacts. -/
theorem dialOnce_contacts {chain : Chain} {address host : String} {d : Destination} {port : UInt16}
    {options : ChainOptions} {r : Resolver} (hs : splitHostPort address = .ok (host, port))
    (hh : options.hosts.bind (·.lookup host) = none) (hr : options.resolver = some r)
    (h : Contacts (r.resolve (Env.calm libs) host) s log d) :
    Contacts (chain.dialOnce (Env.calm libs) address options) s log d := by
  refine .bind_left ?_
  unfold resolve
  rw [hs]
  dsimp only
  rw [hh, hr]
  exact .bind_left (.attempt h)

end calm

end RtProxy
