import RtProxy.Chain.Dial

/-!
Which hops of its chain a dial goes through.

The first hop may own its dial; every later hop has to layer its transport over
the connection of the hop before it and run its connector there.  `Traverses` says
that a dial that succeeds has done so for each of them.
-/

namespace RtProxy

open Act

section

variable (env : Env)

/-- The whole of the first hop: the connection to it, and the connection that it
makes to `next`. -/
def firstHop (route : Route) (first : Node) (next : String) : Action ChainError Conn := do
  if first.transport = "ssh" then dialSshHop env first next
  else
    let conn ← dialFirst env route first
    connectVia env conn first next

/-- The hops after the first, over the connection `c`: `layer_transport` and then
`connect_via` of each succeed, over the connection of the hop before. -/
inductive Hops (target : String) :
    List Node → Conn → Bytes → List Event → Conn → Bytes → List Event → Prop
  | nil (c : Conn) (s : Bytes) (log : List Event) : Hops target [] c s log c s []
  | cons {node : Node} {rest : List Node} {c d e conn : Conn} {s s₁ s₂ s' : Bytes}
      {log ev₁ ev₂ ev₃ : List Event}
      (layer : layerTransport env c node s log = ⟨.ok d, s₁, ev₁⟩)
      (connect : connectVia env d node (hopTarget target rest) s₁ (log ++ ev₁) = ⟨.ok e, s₂, ev₂⟩)
      (later : Hops target rest e s₂ (log ++ ev₁ ++ ev₂) conn s' ev₃) :
      Hops target (node :: rest) c s log conn s' (ev₁ ++ ev₂ ++ ev₃)

/-- The target that a dial goes on with. -/
def dialled (address resolved : String) : String := if resolved = "" then address else resolved

/-- If this run of `dial_once` succeeds, then it resolves the address, goes through
the first hop and then through every other, and returns the connection of the
last. -/
def Traverses (chain : Chain) (address : String) (options : ChainOptions) (s : Bytes)
    (log : List Event) : Prop :=
  ∀ conn s' new, chain.dialOnce env address options s log = ⟨.ok conn, s', new⟩ →
    ∃ first rest resolved c s₀ s₁ ev₀ ev₁ ev₂,
      chain.nodes = first :: rest
      ∧ resolve (options.resolver.map fun r host => r.resolve env host) options.hosts address s log
          = (⟨.ok resolved, s₀, ev₀⟩ : Outcome ChainError _ _ _)
      ∧ firstHop env chain.toRoute first (hopTarget (dialled address resolved) rest) s₀ (log ++ ev₀)
          = ⟨.ok c, s₁, ev₁⟩
      ∧ Hops env (dialled address resolved) rest c s₁ (log ++ ev₀ ++ ev₁) conn s' ev₂
      ∧ new = ev₀ ++ ev₁ ++ ev₂

variable {env}

/-! ## One hop -/

/-- A hop that is gone through leaves its mark. -/
theorem connected_mem_of_connectVia {d e : Conn} {node : Node} {t : String} {s s' : Bytes}
    {log ev : List Event} (h : connectVia env d node t s log = ⟨.ok e, s', ev⟩) :
    .connected node t d e ∈ ev := by
  obtain ⟨out, s₁, ev₁, ev₂, -, htail, rfl⟩ := bind_eq_ok h
  obtain ⟨u, s₂, ev₃, ev₄, hemit, hpure, rfl⟩ := bind_eq_ok htail
  cases hemit
  cases hpure
  exact List.mem_append_right _ (List.mem_append_left _ List.mem_cons_self)

theorem Hops.ne_nil {target : String} {node : Node} {rest : List Node} {c conn : Conn}
    {s s' : Bytes} {log ev : List Event}
    (h : Hops env target (node :: rest) c s log conn s' ev) : ev ≠ [] := by
  cases h with
  | cons layer connect later =>
    have hmem := connected_mem_of_connectVia connect
    apply List.ne_nil_of_mem
    exact List.mem_append_left _ (List.mem_append_right _ hmem)

theorem hops_of_dialRest {target : String} :
    ∀ {rest : List Node} {c conn : Conn} {s s' : Bytes} {log ev : List Event},
      dialRest env target rest c s log = ⟨.ok conn, s', ev⟩ →
        Hops env target rest c s log conn s' ev := by
  intro rest
  induction rest with
  | nil =>
    intro c conn s s' log ev h
    cases h
    exact .nil c s log
  | cons node rest ih =>
    intro c conn s s' log ev h
    rw [dialRest] at h
    split_ifs at h with howns
    · cases h
    · obtain ⟨d, s₁, ev₁, ev', hlayer, htail, rfl⟩ := bind_eq_ok h
      obtain ⟨e, s₂, ev₂, ev₃, hconnect, hlater, rfl⟩ := bind_eq_ok htail
      rw [← List.append_assoc]
      exact .cons hlayer hconnect (ih hlater)

/-! ## The dial -/

/-- What cannot be resolved is dialled as it is. -/
theorem resolve_ok (lookup : Option Lookup) (hosts : Option Hosts) (addr : String) (s : Bytes)
    (log : List Event) : ∃ resolved s' ev,
      resolve lookup hosts addr s log = (⟨.ok resolved, s', ev⟩ : Outcome ChainError _ _ _) := by
  unfold resolve
  cases splitHostPort addr with
  | error e => exact ⟨_, _, _, rfl⟩
  | ok parts =>
    obtain ⟨host, port⟩ := parts
    dsimp only
    cases hosts.bind (·.lookup host) with
    | some ip => exact ⟨_, _, _, rfl⟩
    | none =>
      cases lookup with
      | none => exact ⟨_, _, _, rfl⟩
      | some lookup =>
        dsimp only
        rw [bind_ok (x := attempt (lookup host)) rfl]
        cases (lookup host s log).result with
        | error e => exact ⟨_, _, _, rfl⟩
        | ok ips => cases ips <;> exact ⟨_, _, _, rfl⟩

section attempts

variable {x : Action ChainError Conn} {conn : Conn} {s s' : Bytes} {log new : List Event}

theorem tries_ok (h : x s log = ⟨.ok conn, s', new⟩) {n : Nat}
    (hn : 0 < n) (last : ChainError) : tries x n last s log = ⟨.ok conn, s', new⟩ := by
  obtain ⟨n, rfl⟩ := Nat.exists_eq_succ_of_ne_zero hn.ne'
  have hattempt : attempt x s log = (⟨.ok (.ok conn), s', new⟩ : Outcome ChainError _ _ _) := by
    rw [attempt, h]
  rw [tries, bind_ok hattempt]
  simp [pure_run]

theorem noted_ok (h : x s log = ⟨.ok conn, s', new⟩) (address : String) :
    noted address x s log = ⟨.ok conn, s', new⟩ := by
  have hattempt : attempt x s log = (⟨.ok (.ok conn), s', new⟩ : Outcome ChainError _ _ _) := by
    rw [attempt, h]
  rw [noted, bind_ok hattempt]
  simp [pure_run]

theorem tries_eq_ok :
    ∀ {n : Nat} {last : ChainError} {s : Bytes} {log : List Event},
      tries x n last s log = ⟨.ok conn, s', new⟩ →
        ∃ s₀ before ev, x s₀ (log ++ before) = ⟨.ok conn, s', ev⟩ ∧ new = before ++ ev := by
  intro n
  induction n generalizing new with
  | zero =>
    intro last s log h
    cases h
  | succ n ih =>
    intro last s log h
    obtain ⟨r, s₁, ev₁, ev₂, hfirst, hrest, rfl⟩ := bind_eq_ok h
    cases hfirst
    rcases hx : x s log with ⟨e | c, s₂, ev⟩ <;> rw [hx] at hrest
    · obtain ⟨s₀, before, ev', hrun, rfl⟩ := ih hrest
      rw [List.append_assoc] at hrun
      exact ⟨s₀, ev ++ before, ev', hrun, (List.append_assoc ev before ev').symm⟩
    · cases hrest
      refine ⟨s, [], ev, ?_, List.append_nil ev⟩
      rw [List.append_nil, hx]

theorem noted_eq_ok {address : String} (h : noted address x s log = ⟨.ok conn, s', new⟩) :
    x s log = ⟨.ok conn, s', new⟩ := by
  obtain ⟨r, s₁, ev₁, ev₂, hfirst, hrest, rfl⟩ := bind_eq_ok h
  cases hfirst
  rcases hx : x s log with ⟨e | c, s₂, ev⟩ <;> rw [hx] at hrest
  · cases hrest
  · cases hrest
    rw [List.append_nil]

end attempts

section dial

variable {route : Route} {first : Node} {rest : List Node}

theorem dialTarget_ssh (target : String) (hn : route.nodes = first :: rest)
    (hssh : first.transport = "ssh") :
    route.dialTarget env target = dialSshHop env first (hopTarget target rest) := by
  have hne : route.isEmpty = false := by
    cases hg : route.groups with
    | nil => rw [Route.nodes, hg] at hn; cases hn
    | cons g gs => rw [Route.isEmpty, hg]; rfl
  rw [Route.dialTarget, hne, hn, if_neg Bool.false_ne_true]
  simp only [hssh, if_true]

theorem dialTarget_plain (target : String) (hn : route.nodes = first :: rest)
    (hssh : first.transport ≠ "ssh") :
    route.dialTarget env target = (do
      let conn ← dialFirst env route first
      let current ← connectVia env conn first (hopTarget target rest)
      dialRest env target rest current) := by
  have hne : route.isEmpty = false := by
    cases hg : route.groups with
    | nil => rw [Route.nodes, hg] at hn; cases hn
    | cons g gs => rw [Route.isEmpty, hg]; rfl
  rw [Route.dialTarget, hne, hn, if_neg Bool.false_ne_true]
  simp only [if_neg hssh]

end dial

/-! ## An SSH hop -/

/-- What an SSH hop finds for itself: credentials, an address to connect to and one to open the
channel to. -/
structure Node.OpensChannel (node : Node) (target : String) : Prop where
  credentials : (Ssh.SshConfig.fromNode node).HasCredentials
  address : toSocketAddrs node.addr = .ok ()
  target : ∃ x, Ssh.splitHostPort target = .ok x

/-- A session to the hop is an address that can be dialled. -/
theorem address_of_session {node : Node} {pooled : Bool} {s s' : Bytes} {log new : List Event}
    {u : Unit}
    (h : when ((pooled && (toSocketAddrs node.addr).isOk) = false)
      (mapErr (fun e => ChainError.proxyError s!"ssh hop failed: {e}") (sshSession env node)) s log =
        ⟨.ok u, s', new⟩) : toSocketAddrs node.addr = .ok () := by
  cases ha : toSocketAddrs node.addr with
  | ok _ => rfl
  | error e =>
    rw [ha, when, if_pos (by rw [Except.isOk, Except.toBool, Bool.and_false])] at h
    obtain ⟨_, _, _, _, hconnect, -, -⟩ := bind_eq_ok (mapErr_eq_ok h)
    have hrun := mapErr_eq_ok hconnect
    rw [Env.connect, ha] at hrun
    cases hrun

theorem opensChannel_of_dialSshHop {node : Node} {target : String} {c : Conn} {s s' : Bytes}
    {log new : List Event} (h : dialSshHop env node target s log = ⟨.ok c, s', new⟩) :
    node.OpensChannel target := by
  obtain ⟨transporter, _, _, _, hnew, htail, -⟩ := bind_eq_ok h
  obtain ⟨pooled, _, _, _, -, htail, -⟩ := bind_eq_ok htail
  obtain ⟨_, _, _, _, hsession, htail, -⟩ := bind_eq_ok htail
  obtain ⟨_, _, _, _, hchannel, -, -⟩ := bind_eq_ok htail
  obtain ⟨x, _, _, _, hsplit, -, -⟩ := bind_eq_ok (mapErr_eq_ok hchannel)
  refine ⟨?_, address_of_session hsession, ?_⟩
  · obtain ⟨hok, -, -⟩ := ofExcept_eq_ok hnew
    cases hn : Ssh.SshForwardTransporter.new env.keys (.fromNode node) with
    | error e =>
      rw [hn] at hok
      cases hok
    | ok _ => exact Ssh.hasCredentials_of_new hn
  · obtain ⟨hok, -, -⟩ := ofExcept_eq_ok hsplit
    cases hs : Ssh.splitHostPort target with
    | error e =>
      rw [hs] at hok
      cases hok
    | ok y => exact ⟨y, rfl⟩

/-- Libraries that take every key. -/
def Libs.lenient : Libs := { Libs.blank with keys := Ssh.Keys.lenient }

theorem dialSshHop_lenient {node : Node} {target : String} (h : node.OpensChannel target) (s : Bytes)
    (log : List Event) :
    dialSshHop (Env.calm .lenient) node target s log
      = ⟨.ok (.channel node.addr target), s,
          [.connect node.addr, .shake (.ssh ((node.user.map (·.1)).getD "")) (.tcp node.addr),
            .openStream (.channel node.addr target)]⟩ := by
  obtain ⟨transporter, hnew⟩ := Ssh.new_lenient h.credentials
  obtain ⟨x, hx⟩ := h.target
  have hconnect : (Env.calm Libs.lenient).connect node.addr =
      (Env.calm Libs.lenient).perform (.connect node.addr) := by
    rw [Env.connect, h.address]
  have hsession (log : List Event) :
      when (((Env.calm Libs.lenient).pooled log s!"ssh|{node.addr}" &&
          (toSocketAddrs node.addr).isOk) = false)
        (mapErr (fun e => ChainError.proxyError s!"ssh hop failed: {e}")
          (sshSession (Env.calm .lenient) node)) s log =
      ⟨.ok (), s, [.connect node.addr,
        .shake (.ssh ((node.user.map (·.1)).getD "")) (.tcp node.addr)]⟩ := by
    have hcold : ((Env.calm Libs.lenient).pooled log s!"ssh|{node.addr}" &&
        (toSocketAddrs node.addr).isOk) = false := Bool.false_and _
    rw [when, if_pos hcold, sshSession, hconnect]
    rfl
  unfold dialSshHop
  rw [ofExcept_bind (a := transporter) (by
    show Except.mapError _ (Ssh.SshForwardTransporter.new Ssh.Keys.lenient _) = _
    rw [hnew]
    rfl), ask_bind]
  refine bind_run (hsession log) ?_
  rw [hx]
  rfl

/-- Where the first hop is an SSH one, the dial is its channel and nothing else. -/
theorem dialOnce_ssh {chain : Chain} {first : Node} {rest : List Node} {address resolved : String}
    {options : ChainOptions} {s s₀ : Bytes} {log ev₀ : List Event}
    (hn : chain.nodes = first :: rest) (hssh : first.transport = "ssh")
    (hopens : first.OpensChannel (hopTarget (dialled address resolved) rest))
    (hr : resolve (options.resolver.map fun r host => r.resolve (Env.calm .lenient) host)
      options.hosts address s log = (⟨.ok resolved, s₀, ev₀⟩ : Outcome ChainError _ _ _)) :
    chain.dialOnce (Env.calm .lenient) address options s log
      = ⟨.ok (.channel first.addr (hopTarget (dialled address resolved) rest)), s₀,
          ev₀ ++ [.connect first.addr,
            .shake (.ssh ((first.user.map (·.1)).getD "")) (.tcp first.addr),
            .openStream (.channel first.addr (hopTarget (dialled address resolved) rest))]⟩ := by
  unfold Chain.dialOnce Route.dialOnce
  rw [bind_ok hr, dialTarget_ssh _ hn hssh]
  unfold dialled at hopens
  rw [dialSshHop_lenient hopens]
  rfl

theorem traverses_of_not_ssh {chain : Chain} {first : Node} {rest : List Node} {address : String}
    {options : ChainOptions} {s : Bytes} {log : List Event} (hn : chain.nodes = first :: rest)
    (hssh : first.transport ≠ "ssh") : Traverses env chain address options s log := by
  intro conn s' new h
  obtain ⟨resolved, s₀, ev₀, ev, hr, htarget, rfl⟩ := bind_eq_ok h
  rw [dialTarget_plain _ hn hssh] at htarget
  obtain ⟨c₀, s₁, ev₁, ev', hfirst, htail, rfl⟩ := bind_eq_ok htarget
  obtain ⟨c, s₂, ev₂, ev₃, hconnect, hrest, rfl⟩ := bind_eq_ok htail
  have hhop : firstHop env chain.toRoute first (hopTarget (dialled address resolved) rest) s₀
      (log ++ ev₀) = ⟨.ok c, s₂, ev₁ ++ ev₂⟩ := by
    rw [firstHop, if_neg hssh, bind_ok hfirst]
    show Outcome.mk (connectVia env c₀ first _ s₁ (log ++ ev₀ ++ ev₁)).result _ _ = _
    rw [show connectVia env c₀ first (hopTarget (dialled address resolved) rest) s₁
      (log ++ ev₀ ++ ev₁) = _ from hconnect]
  refine ⟨first, rest, resolved, c, s₀, s₂, ev₀, ev₁ ++ ev₂, ev₃, hn, hr, hhop, ?_, ?_⟩
  · have hhops := hops_of_dialRest hrest
    rwa [List.append_assoc (log ++ ev₀)] at hhops
  · simp only [List.append_assoc]

theorem traverses_of_single {chain : Chain} {first : Node} {address : String}
    {options : ChainOptions} {s : Bytes} {log : List Event} (hn : chain.nodes = [first])
    (hssh : first.transport = "ssh") : Traverses env chain address options s log := by
  intro conn s' new h
  obtain ⟨resolved, s₀, ev₀, ev, hr, htarget, rfl⟩ := bind_eq_ok h
  rw [dialTarget_ssh _ hn hssh] at htarget
  refine ⟨first, [], resolved, conn, s₀, s', ev₀, ev, [], hn, hr, ?_, .nil conn s' _, ?_⟩
  · rw [firstHop, if_pos hssh]
    exact htarget
  · rw [List.append_nil]

/-- The channel of an SSH hop is the whole of the dial, so nothing is left for the
hops after it. -/
theorem not_traverses_of_ssh {chain : Chain} {first node : Node} {rest : List Node}
    {address : String} {options : ChainOptions} {s : Bytes} {log : List Event}
    (hn : chain.nodes = first :: node :: rest) (hssh : first.transport = "ssh")
    (hopens : first.OpensChannel node.addr) :
    ¬ Traverses (Env.calm .lenient) chain address options s log := by
  intro h
  obtain ⟨resolved, s₀, ev₀, hr⟩ := resolve_ok
    (options.resolver.map fun r host => r.resolve (Env.calm .lenient) host) options.hosts address s
    log
  obtain ⟨first', rest', resolved', c, s₀', s₁, ev₀', ev₁, ev₂, hn', hr', hhop, hhops, hnew⟩ :=
    h _ _ _ (dialOnce_ssh hn hssh hopens hr)
  cases hn.symm.trans hn'
  cases hr.symm.trans hr'
  rw [firstHop, if_pos hssh] at hhop
  rw [show dialSshHop (Env.calm .lenient) first (hopTarget (dialled address resolved) (node :: rest))
    s₀ (log ++ ev₀) = _ from dialSshHop_lenient hopens s₀ _] at hhop
  cases hhop
  dsimp only [hopTarget] at hnew
  rw [List.self_eq_append_right] at hnew
  exact hhops.ne_nil hnew

/-- A dial that opens no channel never succeeds. -/
theorem traverses_of_not_opensChannel {chain : Chain} {first node : Node} {rest : List Node}
    {address : String} {options : ChainOptions} {s : Bytes} {log : List Event}
    (hn : chain.nodes = first :: node :: rest) (hssh : first.transport = "ssh")
    (hno : ¬ first.OpensChannel node.addr) : Traverses env chain address options s log := by
  intro conn s' new h
  obtain ⟨resolved, s₀, ev₀, ev, hr, htarget, rfl⟩ := bind_eq_ok h
  rw [dialTarget_ssh _ hn hssh] at htarget
  exact absurd (opensChannel_of_dialSshHop htarget) hno

/-- A dial goes through every hop of the chain, whatever the world does, if and only
if the chain does not begin with an SSH hop, or has no second one, or the first can open no
channel to the second. -/
theorem traverses_iff (chain : Chain) (first : Node) (rest : List Node) (address : String)
    (options : ChainOptions) (hn : chain.nodes = first :: rest) :
    (∀ env s log, Traverses env chain address options s log)
      ↔ first.transport ≠ "ssh" ∨ ∀ second ∈ rest.head?, ¬ first.OpensChannel second.addr := by
  constructor
  · intro h
    by_contra hno
    push Not at hno
    obtain ⟨hssh, second, hsecond, hopens⟩ := hno
    cases rest with
    | nil => cases hsecond
    | cons node rest =>
      cases hsecond
      exact not_traverses_of_ssh hn hssh hopens (h (Env.calm .lenient) [] [])
  · rintro hcond env s log
    by_cases hssh : first.transport = "ssh"
    · cases rest with
      | nil => exact traverses_of_single hn hssh
      | cons node rest =>
        exact traverses_of_not_opensChannel hn hssh (hcond.neg_resolve_left hssh node rfl)
    · exact traverses_of_not_ssh hn hssh

/-- `-F http+tls://a:443 -F socks5://b:1080`. -/
theorem tls_then_socks5_traverses :
    Traverses (Env.calm .blank)
      (Chain.ofNodes [("http", "tls", "a:443"), ("socks5", "tcp", "b:1080")])
      "example.com:80" (Chain.defaultOptions .empty) [] [] :=
  (traverses_iff (Chain.ofNodes [("http", "tls", "a:443"), ("socks5", "tcp", "b:1080")]) _ _
    "example.com:80" (Chain.defaultOptions .empty) rfl).mpr (.inl (by decide)) _ _ _

/-- `-F forward+ssh://u:p@jump:22` and a node behind it. -/
def Chain.overSsh (protocol addr : String) : Chain :=
  { Chain.empty with
    groups := [
      [{ Node.empty with
        addr := "jump:22", host := "jump:22", protocol := "forward", transport := "ssh",
        user := some ("u", some "p") }],
      [{ Node.empty with
        addr := addr, host := addr, protocol := protocol, transport := "tcp" }]] }

/-- `-F forward+ssh://u:p@jump:22 -F http://proxy:8080`: the dial ends at the second node. -/
theorem ssh_then_http_stops_short :
    ¬ ∀ env s log, Traverses env (Chain.overSsh "http" "proxy:8080") "example.com:80"
      (Chain.defaultOptions .empty) s log :=
  fun h => not_traverses_of_ssh rfl rfl ⟨.inr (by decide), rfl, _, rfl⟩ (h (Env.calm .lenient) [] [])

end

end RtProxy
