import RtProxy.Chain.SocketOptions
import RtProxy.Chain.Traversal

/-!
Which targets a dial can get through to.

A dial that succeeds has resolved the address to one of `Chain.Resolves`, and none of its
hops refuses to be asked for the next.  Where nothing fails this is also enough.
-/

namespace RtProxy

open Act

/-! ## The hops -/

/-- A handshake with the node can be begun. -/
def Handshake.begins (libs : Libs) (node : Node) (h : Handshake) : Bool :=
  (h.refusal libs node).isNone

/-- `layer_transport` knows the transport of the node and can begin its handshakes. -/
def layerable (libs : Libs) (node : Node) : Bool :=
  if node.transport ∈ ["", "tcp"] then true
  else if node.transport ∈ ["tls", "http2"] then (Handshake.tls (hopHostname node)).begins libs node
  else if node.transport ∈ ["ws", "wss"] then
    (node.transport ≠ "wss" || (Handshake.tls (hopHostname node)).begins libs node) &&
      (Handshake.websocket (hopHostname node)).begins libs node
  else if node.transport = "otls" then true
  else if node.transport = "ohttp" then true
  else if node.transport ∈ ["h2", "h2c"] then
    (node.transport ≠ "h2" || (Handshake.tls (hopHostname node)).begins libs node) &&
      (Handshake.http2 (hopHostname node)).begins libs node
  else false

/-- The node can be asked to connect to the target. -/
def connectable (libs : Libs) (node : Node) (target : String) : Bool :=
  if node.protocol ∈ ["http", ""] then true
  else if node.protocol = "sni" then true
  else if node.protocol = "http2" then (Handshake.connector "http2" target).begins libs node
  else if node.protocol = "socks5" then (socks5ConnectRequest target).isOk
  else if node.protocol ∈ ["socks4", "socks4a"] then
    (socks4ConnectRequest target node.user (node.protocol = "socks4a")).isOk
  else if node.protocol = "ss" then (Ss.connectRequest node.user target).isOk
  else if node.protocol = "relay" then (Relay.connectRequest node.user "tcp" target).isOk
  else node.protocol ∈ ["forward", "direct", "remote"]

/-- The hops after the first let a dial of the target through. -/
def passable (libs : Libs) (target : String) : List Node → Bool
  | [] => true
  | node :: rest =>
    !ownsDial node.transport && layerable libs node &&
      connectable libs node (hopTarget target rest) && passable libs target rest

/-- The connection to the first hop can be made. -/
def enterable (libs : Libs) (first : Node) : Bool :=
  if isMuxTransport first.transport then (muxConfigFromNode first).isOk && muxBuildable libs first
  else if first.transport ∈ ["quic", "kcp"] then first.contactable libs
  else (toSocketAddrs first.addr).isOk && layerable libs first

/-- The route lets a dial of the target through. -/
def Route.passes (libs : Libs) (route : Route) (target : String) : Bool :=
  if route.isEmpty then (toSocketAddrs target).isOk
  else
    match route.nodes with
    | [] => false
    | first :: rest =>
      if first.transport = "ssh" then
        first.contactable libs && (Ssh.splitHostPort (hopTarget target rest)).isOk
      else
        enterable libs first && connectable libs first (hopTarget target rest) &&
          passable libs target rest

section

variable {env : Env} {s s' : Bytes} {log new : List Event} {c d : Conn} {node : Node}
  {target : String}

/-- The handshakes of the code's own are always begun. -/
theorem begins_of_own {libs : Libs} {node : Node} {h : Handshake} (hlib : h.ofLibrary = false) :
    h.begins libs node = true := by
  have hne : h ≠ .websocket "" := by
    rintro rfl
    cases hlib
  rw [Handshake.begins, Handshake.refusal, if_neg hne, hlib, if_neg Bool.false_ne_true]
  rfl

theorem begins_of_envShake {h : Handshake} {u : Unit}
    (hrun : env.shake node h c s log = ⟨.ok u, s', new⟩) : h.begins env.toLibs node = true := by
  unfold Env.shake at hrun
  unfold Handshake.begins
  cases hr : h.refusal env.toLibs node with
  | none => rfl
  | some reason =>
    rw [hr] at hrun
    cases hrun

/-- A handshake that has succeeded could be begun. -/
theorem begins_of_shake {h : Handshake} {text : String → String} {u : Unit}
    (hrun : shake env node h c text s log = ⟨.ok u, s', new⟩) : h.begins env.toLibs node = true :=
  begins_of_envShake (mapErr_eq_ok hrun)

theorem begins_of_bind {h : Handshake} {text : String → String} {β : Type}
    {f : Unit → Action ChainError β} {b : β}
    (hrun : (shake env node h c text >>= f) s log = ⟨.ok b, s', new⟩) :
    h.begins env.toLibs node = true := by
  obtain ⟨_, _, _, _, hshake, -, -⟩ := bind_eq_ok hrun
  exact begins_of_shake hshake

/-- TLS that runs under another handshake could be begun, and so could the other. -/
theorem begins_of_tlsUnder {secure : Bool} {host : String} {h : Handshake}
    {text : String → String} {out : Conn → Conn}
    (hrun : (tlsUnder env secure c node host >>= fun inner =>
      shake env node h inner text >>= fun _ => pure (out inner)) s log = ⟨.ok d, s', new⟩) :
    ((!secure || (Handshake.tls host).begins env.toLibs node) && h.begins env.toLibs node) = true := by
  obtain ⟨inner, _, _, _, htls, hrest, -⟩ := bind_eq_ok hrun
  rw [begins_of_bind hrest, Bool.and_true]
  cases secure with
  | false => rfl
  | true => exact begins_of_bind htls

theorem layerable_of_layerTransport (h : layerTransport env c node s log = ⟨.ok d, s', new⟩) :
    layerable env.toLibs node = true := by
  obtain ⟨out, s₁, ev₁, ev₂, hover, -, -⟩ := bind_eq_ok h
  unfold layerOver at hover
  unfold layerable
  split_ifs at hover ⊢ with h₁ h₂ h₃ h₄ h₅ h₆
  · rfl
  · exact begins_of_bind hover
  · have hboth := begins_of_tlsUnder hover
    simpa using hboth
  · rfl
  · rfl
  · have hboth := begins_of_tlsUnder hover
    simpa using hboth
  · cases hover

theorem isOk_of_ofExcept_bind {ε α β : Type} {r : Except ε α} {f : α → Action ε β} {b : β}
    (h : (ofExcept r >>= f) s log = ⟨.ok b, s', new⟩) : r.isOk = true := by
  obtain ⟨a, _, _, _, hr, -, -⟩ := bind_eq_ok h
  exact isOk_of_eq (ofExcept_eq_ok hr).1

theorem isOk_mapError {ε ε' α : Type} {r : Except ε α} {g : ε → ε'} :
    (r.mapError g).isOk = r.isOk := by
  cases r <;> rfl

theorem connectable_of_connectVia (h : connectVia env c node target s log = ⟨.ok d, s', new⟩) :
    connectable env.toLibs node target = true := by
  obtain ⟨out, s₁, ev₁, ev₂, hover, -, -⟩ := bind_eq_ok h
  unfold connectOver at hover
  unfold connectable
  split_ifs at hover ⊢ with h₁ h₂ h₃ h₄ h₅ h₆ h₇ h₈
  · rfl
  · rfl
  · exact begins_of_bind hover
  · obtain ⟨_, _, _, _, -, hrest, -⟩ := bind_eq_ok hover
    exact isOk_of_ofExcept_bind hrest
  · exact isOk_of_ofExcept_bind hover
  · exact isOk_mapError.symm.trans (isOk_of_ofExcept_bind hover)
  · exact isOk_mapError.symm.trans (isOk_of_ofExcept_bind hover)
  · exact decide_eq_true h₈
  · cases hover

theorem passable_of_hops {rest : List Node} (h : Hops env target rest c s log d s' new)
    (howns : ∀ node ∈ rest, ownsDial node.transport = false) :
    passable env.toLibs target rest = true := by
  induction h with
  | nil => rfl
  | cons layer connect later ih =>
    rw [passable, howns _ List.mem_cons_self, layerable_of_layerTransport layer,
      connectable_of_connectVia connect, ih fun node hn => howns node (List.mem_cons_of_mem _ hn)]
    rfl

/-- The hops of a dial that succeeds do not own theirs. -/
theorem not_ownsDial_of_dialRest {rest : List Node}
    (h : dialRest env target rest c s log = ⟨.ok d, s', new⟩) :
    ∀ node ∈ rest, ownsDial node.transport = false := by
  induction rest generalizing c s log new with
  | nil => exact List.forall_mem_nil _
  | cons node rest ih =>
    rw [dialRest] at h
    split_ifs at h with howns
    · cases h
    · obtain ⟨_, _, _, _, -, htail, -⟩ := bind_eq_ok h
      obtain ⟨_, _, _, _, -, hlater, -⟩ := bind_eq_ok htail
      exact List.forall_mem_cons.mpr ⟨Bool.eq_false_iff.mpr howns, ih hlater⟩

theorem isOk_of_connect {addr : String} {u : Unit}
    (h : env.connect addr s log = ⟨.ok u, s', new⟩) : (toSocketAddrs addr).isOk = true := by
  unfold Env.connect at h
  cases ha : toSocketAddrs addr with
  | error e =>
    rw [ha] at h
    cases h
  | ok _ => rfl

theorem isOk_of_connectTcp {route : Route} {addr : String}
    (h : connectTcp env route addr s log = ⟨.ok d, s', new⟩) : (toSocketAddrs addr).isOk = true := by
  obtain ⟨_, _, _, _, -, htail, -⟩ := bind_eq_ok h
  obtain ⟨_, _, _, _, hconnect, -, -⟩ := bind_eq_ok htail
  exact isOk_of_connect (mapErr_eq_ok hconnect)

theorem begins_of_when {p : Prop} [Decidable p] {h : Handshake} {u : Unit}
    (hrun : when p (mapErr Failure.text (env.shake node h c)) s log = ⟨.ok u, s', new⟩) :
    p → h.begins env.toLibs node = true := by
  intro hp
  rw [when, if_pos hp] at hrun
  exact begins_of_envShake (mapErr_eq_ok hrun)

theorem muxBuildable_of_muxSession {u : Unit}
    (h : muxSession env node s log = ⟨.ok u, s', new⟩) : muxBuildable env.toLibs node = true := by
  obtain ⟨_, _, _, _, hconnect, htail, -⟩ := bind_eq_ok h
  obtain ⟨_, _, _, _, htls, hws, -⟩ := bind_eq_ok htail
  have hbegins := begins_of_when htls
  have hbegins' := begins_of_when hws
  unfold Handshake.begins at hbegins hbegins'
  unfold muxBuildable
  rw [isOk_of_connect (mapErr_eq_ok hconnect), Bool.true_and, Bool.and_eq_true, Bool.or_eq_true,
    Bool.or_eq_true, decide_eq_true_eq, decide_eq_true_eq]
  exact ⟨or_iff_not_imp_left.mpr hbegins, or_iff_not_imp_left.mpr hbegins'⟩

theorem enterable_of_dialMuxHop (hmux : isMuxTransport node.transport = true)
    (h : dialMuxHop env node s log = ⟨.ok d, s', new⟩) : enterable env.toLibs node = true := by
  rw [enterable, if_pos hmux]
  obtain ⟨config, _, _, _, hconfig, htail, -⟩ := bind_eq_ok h
  obtain ⟨pooled, _, _, _, -, htail, -⟩ := bind_eq_ok htail
  obtain ⟨_, _, _, _, hsession, -, -⟩ := bind_eq_ok htail
  obtain ⟨_, _, _, _, hbuild, -, -⟩ := bind_eq_ok (mapErr_eq_ok hsession)
  rw [← isOk_mapError.trans rfl, isOk_of_eq (ofExcept_eq_ok hconfig).1, Bool.true_and]
  by_contra hno
  rw [Bool.not_eq_true] at hno
  rw [hno, when, if_pos (Bool.and_false _)] at hbuild
  rw [muxBuildable_of_muxSession hbuild] at hno
  cases hno

theorem isOk_of_datagramStream {ready : Except String Unit}
    (h : datagramStream env node ready s log = ⟨.ok d, s', new⟩) : ready.isOk = true := by
  obtain ⟨_, _, _, _, hstream, -, -⟩ := bind_eq_ok h
  exact isOk_of_ofExcept_bind (mapErr_eq_ok hstream)

theorem contactable_of_dialDatagramHop (hkind : node.transport ∈ ["quic", "kcp"])
    (h : dialDatagramHop env node s log = ⟨.ok d, s', new⟩) :
    node.contactable env.toLibs = true := by
  unfold dialDatagramHop at h
  unfold Node.contactable
  rcases List.mem_pair.mp hkind with hq | hq
  · rw [if_pos hq] at h
    rw [hq, if_neg (by decide), if_pos rfl]
    exact isOk_of_datagramStream h
  · rw [if_neg (by rw [hq]; decide)] at h
    rw [hq, if_neg (by decide), if_neg (by decide), if_pos rfl]
    obtain ⟨config, _, _, _, hconfig, htail, -⟩ := bind_eq_ok h
    obtain ⟨hok, -, -⟩ := ofExcept_eq_ok hconfig
    cases hc : Kcp.KcpConfig.fromNode env.toLibs node with
    | error e =>
      rw [hc] at hok
      cases hok
    | ok config' =>
      rw [hc] at hok
      cases hok
      exact isOk_of_datagramStream htail

theorem enterable_of_dialFirst {route : Route}
    (h : dialFirst env route node s log = ⟨.ok d, s', new⟩) :
    enterable env.toLibs node = true := by
  unfold dialFirst at h
  split_ifs at h with hmux hsession
  · exact enterable_of_dialMuxHop hmux h
  · rw [enterable, if_neg hmux, if_pos hsession]
    exact contactable_of_dialDatagramHop hsession h
  · rw [enterable, if_neg hmux, if_neg hsession]
    obtain ⟨conn, s₁, ev₁, ev₂, htcp, hlayer, -⟩ := bind_eq_ok h
    rw [isOk_of_connectTcp htcp, layerable_of_layerTransport hlayer]
    rfl

theorem contactable_of_dialSshHop (hssh : node.transport = "ssh")
    (h : dialSshHop env node target s log = ⟨.ok d, s', new⟩) :
    node.contactable env.toLibs = true ∧ (Ssh.splitHostPort target).isOk = true := by
  have hopens := opensChannel_of_dialSshHop h
  obtain ⟨x, hx⟩ := hopens.target
  obtain ⟨_, _, _, _, hnew, -, -⟩ := bind_eq_ok h
  refine ⟨?_, isOk_of_eq hx⟩
  rw [Node.contactable, hssh, if_neg (by decide), if_neg (by decide), if_neg (by decide), if_pos rfl,
    isOk_of_eq hopens.address, Bool.and_true]
  exact isOk_mapError.symm.trans (isOk_of_eq (ofExcept_eq_ok hnew).1)

theorem passes_of_dialTarget {route : Route}
    (h : route.dialTarget env target s log = ⟨.ok d, s', new⟩) :
    route.passes env.toLibs target = true := by
  unfold Route.passes
  by_cases hempty : route.isEmpty = true
  · rw [if_pos hempty]
    rw [Route.dialTarget, if_pos hempty] at h
    exact isOk_of_connectTcp h
  · rw [if_neg hempty]
    cases hn : route.nodes with
    | nil =>
      unfold Route.dialTarget at h
      rw [if_neg hempty, hn] at h
      cases h
    | cons first rest =>
      dsimp only
      by_cases hssh : first.transport = "ssh"
      · rw [dialTarget_ssh target hn hssh] at h
        obtain ⟨hcontact, hsplit⟩ := contactable_of_dialSshHop hssh h
        rw [if_pos hssh, hcontact, hsplit]
        rfl
      · rw [dialTarget_plain target hn hssh] at h
        obtain ⟨c₀, s₁, ev₁, ev', hfirst, htail, -⟩ := bind_eq_ok h
        obtain ⟨c₁, s₂, ev₂, ev₃, hconnect, hrest, -⟩ := bind_eq_ok htail
        rw [if_neg hssh, enterable_of_dialFirst hfirst, connectable_of_connectVia hconnect,
          passable_of_hops (hops_of_dialRest hrest) (not_ownsDial_of_dialRest hrest)]
        rfl

end

/-! ## Where nothing fails -/

/-- The system resolver knows every address. -/
def Env.Finds (env : Env) : Prop := ∀ log addr, ∃ ip ips, env.lookup log addr = .ok (ip :: ips)

theorem nodes_of_isEmpty {route : Route} (h : route.isEmpty = true) : route.nodes = [] := by
  have hgroups : route.groups = [] := List.isEmpty_iff.mp h
  rw [Route.nodes, hgroups]
  rfl

section

variable {env : Env} (henv : env.Unfailing)

include henv

theorem perform_succeeds (e : Event) : (env.perform e).Succeeds :=
  succeeds_perform fun log => (henv log e).1

theorem envShake_succeeds {node : Node} {h : Handshake} (hbegins : h.begins env.toLibs node = true)
    (base : Conn) : (env.shake node h base).Succeeds := by
  unfold Handshake.begins at hbegins
  unfold Env.shake
  rw [Option.isNone_iff_eq_none.mp hbegins]
  exact perform_succeeds henv _

theorem shake_succeeds {node : Node} {h : Handshake} (hbegins : h.begins env.toLibs node = true)
    (base : Conn) (text : String → String) : (shake env node h base text).Succeeds :=
  succeeds_mapErr _ (envShake_succeeds henv hbegins base)

theorem tlsLayer_succeeds {node : Node} {host : String}
    (h : (Handshake.tls host).begins env.toLibs node = true) (c : Conn) :
    (tlsLayer env c node host).Succeeds :=
  succeeds_bind (shake_succeeds henv h _ _) fun _ => succeeds_pure _

theorem tlsUnder_succeeds {secure : Bool} {node : Node} {host : String}
    (h : secure = true → (Handshake.tls host).begins env.toLibs node = true) (c : Conn) :
    (tlsUnder env secure c node host).Succeeds :=
  succeeds_ite (fun hs => tlsLayer_succeeds henv (h hs) c) fun _ => succeeds_pure _

theorem layerOver_succeeds {node : Node} (h : layerable env.toLibs node = true) (c : Conn) :
    (layerOver env c node (hopHostname node)).Succeeds := by
  have hshake {h : Handshake} (hbegins : h.begins env.toLibs node = true) (base out : Conn)
      (text : String → String) : (shake env node h base text >>= fun _ => pure out).Succeeds :=
    succeeds_bind (shake_succeeds henv hbegins _ _) fun _ => succeeds_pure _
  unfold layerable at h
  unfold layerOver
  split_ifs at h ⊢ with h₁ h₂ h₃ h₄ h₅ h₆
  · exact succeeds_pure _
  · exact tlsLayer_succeeds henv h c
  · simp only [Bool.and_eq_true, Bool.or_eq_true, decide_eq_true_eq] at h
    refine succeeds_bind (tlsUnder_succeeds henv (fun hs => ?_) c) fun inner => hshake h.2 _ _ _
    exact h.1.resolve_left (not_not.mpr (of_decide_eq_true hs))
  · exact hshake (begins_of_own rfl) _ _ _
  · exact hshake (begins_of_own rfl) _ _ _
  · simp only [Bool.and_eq_true, Bool.or_eq_true, decide_eq_true_eq] at h
    refine succeeds_bind (tlsUnder_succeeds henv (fun hs => ?_) c) fun inner => hshake h.2 _ _ _
    exact h.1.resolve_left (not_not.mpr (of_decide_eq_true hs))

theorem layerTransport_succeeds {node : Node} (h : layerable env.toLibs node = true) (c : Conn) :
    (layerTransport env c node).Succeeds :=
  succeeds_bind (layerOver_succeeds henv h c) fun _ =>
    succeeds_bind (succeeds_emit _) fun _ => succeeds_pure _

theorem connectOver_succeeds {node : Node} {target : String}
    (h : connectable env.toLibs node target = true) (c : Conn) :
    (connectOver env c node target).Succeeds := by
  have hshake {h : Handshake} (hbegins : h.begins env.toLibs node = true) (out : Conn)
      (text : String → String) : (shake env node h c text >>= fun _ => pure out).Succeeds :=
    succeeds_bind (shake_succeeds henv hbegins _ _) fun _ => succeeds_pure _
  have hasked {request : Except ChainError Bytes} {protocol : String} (hok : request.isOk = true)
      (hown : (Handshake.connector protocol target).ofLibrary = false) (out : Conn) :
      (ofExcept request >>= fun _ => shake env node (.connector protocol target) c id >>= fun _ =>
        pure out).Succeeds := by
    obtain ⟨bytes, hbytes⟩ := exists_of_isOk hok
    exact succeeds_bind (succeeds_ofExcept hbytes) fun _ => hshake (begins_of_own hown) _ _
  unfold connectable at h
  unfold connectOver
  split_ifs at h ⊢ with h₁ h₂ h₃ h₄ h₅ h₆ h₇ h₈
  · exact hshake (begins_of_own rfl) _ _
  · exact succeeds_pure _
  · exact hshake h _ _
  · obtain ⟨bytes, hbytes⟩ := exists_of_isOk h
    exact succeeds_bind (shake_succeeds henv (begins_of_own rfl) _ _) fun _ =>
      succeeds_bind (succeeds_ofExcept hbytes) fun _ => succeeds_pure _
  · refine hasked h ?_ _
    rcases List.mem_pair.mp h₅ with heq | heq <;> rw [heq] <;> rfl
  · exact hasked (isOk_mapError.trans h) rfl _
  · exact hasked (isOk_mapError.trans h) rfl _
  · exact succeeds_pure _
  · exact absurd (of_decide_eq_true h) h₈

theorem connectVia_succeeds {node : Node} {target : String}
    (h : connectable env.toLibs node target = true) (c : Conn) :
    (connectVia env c node target).Succeeds :=
  succeeds_bind (connectOver_succeeds henv h c) fun _ =>
    succeeds_bind (succeeds_emit _) fun _ => succeeds_pure _

theorem dialRest_succeeds {target : String} {rest : List Node}
    (h : passable env.toLibs target rest = true) (c : Conn) :
    (dialRest env target rest c).Succeeds := by
  induction rest generalizing c with
  | nil => exact succeeds_pure _
  | cons node rest ih =>
    simp only [passable, Bool.and_eq_true, Bool.not_eq_true'] at h
    obtain ⟨⟨⟨howns, hlayer⟩, hconnect⟩, hrest⟩ := h
    rw [dialRest, if_neg (by rw [howns]; exact Bool.false_ne_true)]
    refine succeeds_bind (layerTransport_succeeds henv hlayer c) fun layered => ?_
    exact succeeds_bind (connectVia_succeeds henv hconnect layered) fun next => ih hrest next

theorem markedSocket_succeeds (hfinds : env.Finds) (route : Route) {addr : String}
    (haddr : toSocketAddrs addr = .ok ()) : (markedSocket env route addr).Succeeds := by
  have hopt (opt : SockOpt) : (mapErr ChainError.ofFailure (env.perform (.sockopt opt))).Succeeds :=
    succeeds_mapErr _ (perform_succeeds henv _)
  refine succeeds_bind (succeeds_ofExcept (a := ()) (by rw [haddr]; rfl)) fun _ => ?_
  intro s log
  obtain ⟨ip, ips, hips⟩ := hfinds log addr
  rw [ask_bind, hips]
  exact succeeds_bind (succeeds_when fun _ => hopt _) (fun _ => succeeds_when fun _ => hopt _) s log

theorem connect_succeeds {addr : String} (haddr : toSocketAddrs addr = .ok ()) :
    (env.connect addr).Succeeds := by
  unfold Env.connect
  rw [haddr]
  exact perform_succeeds henv _

theorem connectTcp_succeeds {route : Route} (hfinds : route.sockOpts ≠ [] → env.Finds)
    {addr : String} (haddr : (toSocketAddrs addr).isOk = true) :
    (connectTcp env route addr).Succeeds := by
  obtain ⟨_, haddr⟩ := exists_of_isOk haddr
  refine succeeds_bind (succeeds_when fun hset => ?_) fun _ =>
    succeeds_bind (succeeds_mapErr _ (connect_succeeds henv haddr)) fun _ => succeeds_pure _
  refine markedSocket_succeeds henv (hfinds ?_) route haddr
  rw [Route.sockOpts, Ne, sockOpts_eq_nil_iff]
  tauto

theorem muxSession_succeeds {node : Node} (h : muxBuildable env.toLibs node = true) :
    (muxSession env node).Succeeds := by
  simp only [muxBuildable, Bool.and_eq_true, Bool.or_eq_true, decide_eq_true_eq] at h
  obtain ⟨⟨haddr, htls⟩, hws⟩ := h
  obtain ⟨_, haddr⟩ := exists_of_isOk haddr
  refine succeeds_bind (succeeds_mapErr _ (connect_succeeds henv haddr)) fun _ => ?_
  refine succeeds_bind (succeeds_when fun hne => ?_) fun _ => succeeds_when fun hne => ?_
  · exact succeeds_mapErr _ (envShake_succeeds henv (htls.resolve_left hne) _)
  · exact succeeds_mapErr _ (envShake_succeeds henv (hws.resolve_left hne) _)

theorem dialMuxHop_succeeds {node : Node} (hconfig : (muxConfigFromNode node).isOk = true)
    (h : muxBuildable env.toLibs node = true) : (dialMuxHop env node).Succeeds := by
  obtain ⟨config, hconfig⟩ := exists_of_isOk (isOk_mapError.trans hconfig)
  refine succeeds_bind (succeeds_ofExcept hconfig) fun _ => succeeds_bind (succeeds_ask _) fun _ => ?_
  refine succeeds_bind (succeeds_mapErr _ (succeeds_bind (succeeds_when fun _ => ?_) fun _ => ?_))
    fun _ => succeeds_pure _
  · exact muxSession_succeeds henv h
  · exact succeeds_mapErr _ (perform_succeeds henv _)

theorem datagramStream_succeeds {node : Node} {ready : Except String Unit}
    (h : ready.isOk = true) : (datagramStream env node ready).Succeeds := by
  obtain ⟨_, hready⟩ := exists_of_isOk h
  refine succeeds_bind (succeeds_mapErr _ (succeeds_bind (succeeds_ofExcept hready) fun _ => ?_))
    fun _ => succeeds_pure _
  exact succeeds_mapErr _ (succeeds_bind (perform_succeeds henv _) fun _ => perform_succeeds henv _)

theorem dialDatagramHop_succeeds {node : Node} (hkind : node.transport ∈ ["quic", "kcp"])
    (h : node.contactable env.toLibs = true) : (dialDatagramHop env node).Succeeds := by
  unfold Node.contactable at h
  unfold dialDatagramHop
  rcases List.mem_pair.mp hkind with hq | hq
  · rw [hq, if_neg (by decide), if_pos rfl] at h
    rw [if_pos hq]
    exact datagramStream_succeeds henv h
  · rw [hq, if_neg (by decide), if_neg (by decide), if_pos rfl] at h
    rw [if_neg (by rw [hq]; decide)]
    cases hconfig : Kcp.KcpConfig.fromNode env.toLibs node with
    | error e =>
      rw [hconfig] at h
      cases h
    | ok config =>
      rw [hconfig] at h
      intro s log
      have hok : (Except.ok config : Except String _).mapError ChainError.proxyError = .ok config := rfl
      rw [ofExcept_bind hok]
      exact datagramStream_succeeds henv h s log

theorem dialSshHop_succeeds {node : Node} {target : String} (hssh : node.transport = "ssh")
    (h : node.contactable env.toLibs = true) (hsplit : (Ssh.splitHostPort target).isOk = true) :
    (dialSshHop env node target).Succeeds := by
  rw [Node.contactable, hssh, if_neg (by decide), if_neg (by decide), if_neg (by decide), if_pos rfl,
    Bool.and_eq_true] at h
  obtain ⟨transporter, hnew⟩ := exists_of_isOk (isOk_mapError.trans h.1)
  obtain ⟨_, haddr⟩ := exists_of_isOk h.2
  obtain ⟨x, hx⟩ := exists_of_isOk (isOk_mapError.trans hsplit)
  refine succeeds_bind (succeeds_ofExcept hnew) fun _ => succeeds_bind (succeeds_ask _) fun _ => ?_
  refine succeeds_bind (succeeds_when fun _ => succeeds_mapErr _ ?_) fun _ => ?_
  · exact succeeds_bind (succeeds_mapErr _ (connect_succeeds henv haddr)) fun _ =>
      succeeds_mapErr _ (perform_succeeds henv _)
  · refine succeeds_bind (succeeds_mapErr _ (succeeds_bind (succeeds_ofExcept hx) fun _ => ?_))
      fun _ => succeeds_pure _
    exact succeeds_mapErr _ (perform_succeeds henv _)

theorem dialFirst_succeeds {route : Route} {first : Node}
    (hfinds : isMuxTransport first.transport = false → route.sockOpts ≠ [] → env.Finds)
    (h : enterable env.toLibs first = true) : (dialFirst env route first).Succeeds := by
  unfold enterable at h
  unfold dialFirst
  split_ifs at h ⊢ with hmux hsession
  · rw [Bool.and_eq_true] at h
    exact dialMuxHop_succeeds henv h.1 h.2
  · exact dialDatagramHop_succeeds henv hsession h
  · rw [Bool.and_eq_true] at h
    refine succeeds_bind (connectTcp_succeeds henv (hfinds (Bool.eq_false_iff.mpr hmux)) h.1)
      fun conn => layerTransport_succeeds henv h.2 conn

/-- What comes after the first hop. -/
theorem afterFirst_succeeds {target : String} {first : Node} {rest : List Node}
    (hconnect : connectable env.toLibs first (hopTarget target rest) = true)
    (hrest : passable env.toLibs target rest = true) (c : Conn) :
    (do let current ← connectVia env c first (hopTarget target rest)
        dialRest env target rest current).Succeeds :=
  succeeds_bind (connectVia_succeeds henv hconnect c) fun current =>
    dialRest_succeeds henv hrest current

theorem dialTarget_succeeds {route : Route} {target : String}
    (hfinds : route.OpensFirst → route.sockOpts ≠ [] → env.Finds)
    (h : route.passes env.toLibs target = true) : (route.dialTarget env target).Succeeds := by
  unfold Route.passes at h
  unfold Route.dialTarget
  split_ifs at h ⊢ with hempty
  · refine connectTcp_succeeds henv (hfinds ?_) h
    intro first hfirst
    rw [nodes_of_isEmpty hempty] at hfirst
    cases hfirst
  · cases hn : route.nodes with
    | nil =>
      rw [hn] at h
      cases h
    | cons first rest =>
      rw [hn] at h
      dsimp only at h ⊢
      split_ifs at h ⊢ with hssh
      · rw [Bool.and_eq_true] at h
        exact dialSshHop_succeeds henv hssh h.1 h.2
      simp only [Bool.and_eq_true] at h
      obtain ⟨⟨henter, hconnect⟩, hrest⟩ := h
      refine succeeds_bind (dialFirst_succeeds henv (fun hmux => hfinds ?_) henter)
        (afterFirst_succeeds henv hconnect hrest)
      intro node hnode
      rw [hn] at hnode
      cases hnode
      exact ⟨hmux, hssh⟩

end

/-! ## The address -/

/-- What an address may be resolved to.  A name may be resolved to anything, and to itself
if nobody knows it. -/
def Chain.Resolves (chain : Chain) (address t : String) : Prop :=
  match splitHostPort address with
  | .error _ => t = address
  | .ok (host, port) =>
    match chain.hosts.bind (·.lookup host) with
    | some ip => t = joinHostPort ip.text port
    | none =>
      if chain.resolver = none ∨ host = "" then t = address
      else
        match Net.IpAddr.parse host with
        | some ip => t = joinHostPort ip.text port
        | none => t = address ∨ ∃ ip : Net.IpAddr, t = joinHostPort ip.text port

/-- The lookup that a dial uses. -/
def Chain.lookup (env : Env) (chain : Chain) : Option Lookup :=
  chain.resolver.map fun r host => r.resolve env host

section

variable {env : Env} {chain : Chain} {address resolved t : String} {s s' : Bytes}
  {log new : List Event}

theorem joinHostPort_ne (host : String) (port : UInt16) : joinHostPort host port ≠ "" := by
  intro h
  have hlen := congrArg String.length h
  unfold joinHostPort at hlen
  split_ifs at hlen <;> simp at hlen

theorem dialled_joinHostPort (address host : String) (port : UInt16) :
    dialled address (joinHostPort host port) = joinHostPort host port :=
  if_neg (joinHostPort_ne host port)

theorem dialled_self (address : String) : dialled address address = address := by
  unfold dialled
  split_ifs <;> rfl

theorem resolves_of_resolve (h : resolve (chain.lookup env) chain.hosts address s log =
    (⟨.ok resolved, s', new⟩ : Outcome ChainError _ _ _)) :
    chain.Resolves address (dialled address resolved) := by
  unfold resolve at h
  unfold Chain.Resolves
  cases hs : splitHostPort address with
  | error e =>
    rw [hs] at h
    cases h
    exact dialled_self address
  | ok parts =>
    obtain ⟨host, port⟩ := parts
    rw [hs] at h
    dsimp only at h ⊢
    cases hh : chain.hosts.bind (·.lookup host) with
    | some ip =>
      rw [hh] at h
      cases h
      exact dialled_joinHostPort _ _ _
    | none =>
      rw [hh] at h
      dsimp only at h ⊢
      cases hr : chain.resolver with
      | none =>
        rw [if_pos (.inl rfl)]
        unfold Chain.lookup at h
        rw [hr] at h
        cases h
        exact dialled_self address
      | some r =>
        unfold Chain.lookup at h
        rw [hr] at h
        obtain ⟨res, s₁, ev₁, ev₂, hrun, hrest, -⟩ := bind_eq_ok h
        cases hrun
        dsimp only at hrest
        unfold Resolver.resolve at hrest
        by_cases hhost : host = ""
        · rw [if_pos (.inr hhost)]
          rw [if_pos hhost] at hrest
          cases hrest
          exact dialled_self address
        · rw [if_neg (by simp [hhost])]
          rw [if_neg hhost] at hrest
          cases hip : Net.IpAddr.parse host with
          | some ip =>
            rw [hip] at hrest
            cases hrest
            exact dialled_joinHostPort _ _ _
          | none =>
            rw [hip] at hrest
            dsimp only at hrest ⊢
            rcases hrun : (if r.servers = [] then
                Resolver.systemLookup env (r.searchName host) r.prefer
              else r.failover env (r.searchName host) r.servers none) s log with ⟨res, s₁, ev₁⟩
            rw [hrun] at hrest
            rcases res with e | _ | ⟨ip, ips⟩ <;> cases hrest
            · exact .inl (dialled_self address)
            · exact .inl (dialled_self address)
            · exact .inr ⟨ip, dialled_joinHostPort _ _ _⟩

/-- A dial that succeeds goes through its hops to what the address was resolved to. -/
theorem passes_of_dial {conn : Conn} (h : chain.dial env address s log = ⟨.ok conn, s', new⟩) :
    ∃ t, chain.Resolves address t ∧ chain.passes env.toLibs t = true := by
  obtain ⟨_, s₁, ev₁, ev₂, -, htries, -⟩ := bind_eq_ok h
  obtain ⟨s₂, before, ev, honce, -⟩ := tries_eq_ok htries
  obtain ⟨resolved, s₃, ev₃, ev₄, hresolve, htarget, -⟩ := bind_eq_ok (noted_eq_ok honce)
  exact ⟨_, resolves_of_resolve hresolve, passes_of_dialTarget htarget⟩

/-! ## A world that answers alike -/

/-- A world in which every name has the same addresses, without a server being asked. -/
def answering (libs : Libs) (ips : List Net.IpAddr) : Env :=
  { Env.calm libs with
    cached := fun _ _ => some ips
    lookup := fun _ _ => .ok ips }

/-- Nothing has happened but lookups of the system. -/
def Looked (events : List Event) : Prop := ∀ e ∈ events, ∃ name, e = .lookup name

variable {libs : Libs} {ip : Net.IpAddr} {r : Resolver} {host : String}

theorem looked_nil : Looked [] := List.forall_mem_nil _

theorem failover_answering_nil (servers : List NameServer) :
    r.failover (answering libs []) host servers none s log = ⟨.ok [], s, []⟩ := by
  induction servers with
  | nil => rfl
  | cons ns rest ih =>
    have hvia : attempt (r.resolveVia (answering libs []) ns host) s log =
        (⟨.ok (.ok []), s, []⟩ : Outcome Failure _ _ _) := rfl
    rw [Resolver.failover, bind_silent hvia]
    exact ih

/-- The system answers with its address, in whatever order it is asked to put them. -/
theorem systemLookup_answering (host prefer : String) :
    Resolver.systemLookup (answering libs [ip]) host prefer s log =
      ⟨.ok [ip], s, [.lookup s!"{host}:0"]⟩ := by
  have hrun : Resolver.systemLookup (answering libs [ip]) host prefer s log =
      ⟨.ok ([ip].filter (Resolver.preferred prefer) ++
        [ip].filter fun ip => !Resolver.preferred prefer ip), s, [.lookup s!"{host}:0"]⟩ := rfl
  rw [hrun]
  cases hp : Resolver.preferred prefer ip <;> simp [hp]

theorem looked_lookup (name : String) : Looked [.lookup name] :=
  List.forall_mem_singleton.mpr ⟨name, rfl⟩

theorem resolver_answering_nil (hip : Net.IpAddr.parse host = none) : ∃ ev, Looked ev ∧ ∀ s log,
    r.resolve (answering libs []) host s log = ⟨.ok [], s, ev⟩ := by
  unfold Resolver.resolve
  rw [hip]
  dsimp only
  split_ifs
  · exact ⟨[], looked_nil, fun _ _ => rfl⟩
  · exact ⟨_, looked_lookup _, fun _ _ => rfl⟩
  · exact ⟨[], looked_nil, fun _ _ => failover_answering_nil _⟩

theorem resolver_answering (ip : Net.IpAddr) (hhost : host ≠ "") (hip : Net.IpAddr.parse host = none) :
    ∃ ev, Looked ev ∧ ∀ s log,
      r.resolve (answering libs [ip]) host s log = ⟨.ok [ip], s, ev⟩ := by
  unfold Resolver.resolve
  rw [hip, if_neg hhost]
  dsimp only
  split_ifs with hservers
  · exact ⟨_, looked_lookup _, fun _ _ => systemLookup_answering _ _⟩
  · obtain ⟨ns, rest, hns⟩ := List.exists_cons_of_ne_nil hservers
    rw [hns]
    exact ⟨[], looked_nil, fun _ _ => rfl⟩

/-- Everything that an address may be resolved to, it is resolved to in some world. -/
theorem exists_answering (libs : Libs) (h : chain.Resolves address t) :
    ∃ ips resolved ev, dialled address resolved = t ∧ Looked ev ∧ ∀ s log,
      resolve (chain.lookup (answering libs ips)) chain.hosts address s log =
        (⟨.ok resolved, s, ev⟩ : Outcome ChainError _ _ _) := by
  unfold Chain.Resolves at h
  unfold resolve
  cases hs : splitHostPort address with
  | error e =>
    rw [hs] at h
    exact ⟨[], address, [], (dialled_self address).trans h.symm, looked_nil, fun s log => rfl⟩
  | ok parts =>
    obtain ⟨host, port⟩ := parts
    rw [hs] at h
    dsimp only at h ⊢
    cases hh : chain.hosts.bind (·.lookup host) with
    | some ip =>
      rw [hh] at h
      exact ⟨[], _, [], (dialled_joinHostPort _ _ _).trans h.symm, looked_nil, fun s log => rfl⟩
    | none =>
      rw [hh] at h
      dsimp only at h ⊢
      unfold Chain.lookup
      cases hr : chain.resolver with
      | none =>
        rw [hr, if_pos (.inl rfl)] at h
        exact ⟨[], address, [], (dialled_self address).trans h.symm, looked_nil, fun s log => rfl⟩
      | some r =>
        rw [hr] at h
        dsimp only [Option.map_some]
        by_cases hhost : host = ""
        · rw [if_pos (.inr hhost)] at h
          refine ⟨[], address, [], (dialled_self address).trans h.symm, looked_nil, fun s log => ?_⟩
          rw [hhost]
          rfl
        · rw [if_neg (by simp [hhost])] at h
          cases hip : Net.IpAddr.parse host with
          | some ip =>
            rw [hip] at h
            refine ⟨[], _, [], (dialled_joinHostPort _ ip.text port).trans h.symm, looked_nil,
              fun s log => ?_⟩
            have hrun : attempt (r.resolve (answering libs []) host) s log =
                (⟨.ok (.ok [ip]), s, []⟩ : Outcome ChainError _ _ _) := by
              unfold attempt Resolver.resolve
              rw [if_neg hhost, hip]
              rfl
            rw [bind_silent hrun]
            rfl
          | none =>
            rw [hip] at h
            rcases h with rfl | ⟨ip, rfl⟩
            · obtain ⟨ev, hev, hresolve⟩ := resolver_answering_nil hip
              refine ⟨[], t, ev, dialled_self t, hev, fun s log => ?_⟩
              have hrun : attempt (r.resolve (answering libs []) host) s log =
                  (⟨.ok (.ok []), s, ev⟩ : Outcome ChainError _ _ _) := by
                rw [attempt, hresolve]
              rw [bind_run hrun rfl, List.append_nil]
            · obtain ⟨ev, hev, hresolve⟩ := resolver_answering ip hhost hip
              refine ⟨[ip], _, ev, dialled_joinHostPort _ ip.text port, hev, fun s log => ?_⟩
              have hrun : attempt (r.resolve (answering libs [ip]) host) s log =
                  (⟨.ok (.ok [ip]), s, ev⟩ : Outcome ChainError _ _ _) := by
                rw [attempt, hresolve]
              rw [bind_run hrun rfl, List.append_nil]

end

end RtProxy
