import RtProxy.Chain.Wire

/-!
The options of the sockets that a dial opens.

`Applied` is what is promised of a trace: each connection is opened on a socket that has
just had its options set.  A dial keeps it where it opens the socket itself; the sessions
of a first hop and the lookups without a chain open theirs without options.
-/

namespace RtProxy

open Act

/-- The options for a mark and an interface, in the order in which they are set. -/
def sockOpts (mark : Int) (interface : String) : List Event :=
  (if mark ≠ 0 then [.sockopt (.mark mark)] else []) ++
    if interface ≠ "" then [.sockopt (.interface interface)] else []

def Route.sockOpts (route : Route) : List Event := RtProxy.sockOpts route.mark route.interface

/-- Every connection is opened right after the options are set. -/
def Applied (opts events : List Event) : Prop :=
  ∀ pre addr post, events = pre ++ .connect addr :: post → opts <:+ pre

/-! ## Traces -/

section

variable {opts events : List Event}

theorem sockOpts_eq_nil_iff {mark : Int} {interface : String} :
    sockOpts mark interface = [] ↔ mark = 0 ∧ interface = "" := by
  unfold sockOpts
  split_ifs <;> simp_all

theorem mem_sockOpts {mark : Int} {interface : String} {e : Event}
    (h : e ∈ sockOpts mark interface) : ∃ opt, e = .sockopt opt := by
  unfold sockOpts at h
  split_ifs at h <;> simp only [List.append_nil, List.nil_append, List.mem_append,
    List.mem_singleton, List.not_mem_nil] at h
  · rcases h with rfl | rfl <;> exact ⟨_, rfl⟩
  · exact ⟨_, h⟩
  · exact ⟨_, h⟩

theorem applied_of_quiet (h : ∀ e ∈ events, ∀ addr, e ≠ .connect addr) : Applied opts events := by
  rintro pre addr post rfl
  exact absurd rfl (h _ (List.mem_append_right _ List.mem_cons_self) addr)

theorem applied_opts_connect (addr : String) (hopts : ∀ e ∈ opts, ∃ opt, e = .sockopt opt) :
    Applied opts (opts ++ [.connect addr]) := by
  intro pre addr' post heq
  rcases List.append_eq_append_iff.mp heq with ⟨mid, hpre, hlast⟩ | ⟨mid, hopts', hlast⟩
  · cases mid with
    | nil =>
      rw [List.append_nil] at hpre
      exact hpre ▸ List.suffix_refl _
    | cons e mid =>
      have hnil : [] = mid ++ .connect addr' :: post := (List.cons.inj hlast).2
      cases mid <;> cases hnil
  · cases mid with
    | nil =>
      rw [List.append_nil] at hopts'
      exact hopts' ▸ List.suffix_refl _
    | cons e mid =>
      -- a connection among the options
      obtain rfl : .connect addr' = e := (List.cons.inj hlast).1
      have hmem : .connect addr' ∈ opts := hopts' ▸ List.mem_append_right _ List.mem_cons_self
      obtain ⟨opt, hopt⟩ := hopts _ hmem
      cases hopt

theorem traced_applied (opts : List Event) : Traced (Applied opts) where
  nil := applied_of_quiet (List.forall_mem_nil _)
  append a b ha hb := by
    intro pre addr post heq
    rcases List.append_eq_append_iff.mp heq with ⟨mid, rfl, hb'⟩ | ⟨mid, rfl, hpost⟩
    · exact (hb mid addr post hb').trans (List.suffix_append _ _)
    · cases mid with
      | nil =>
        have hb' := hb [] addr post hpost.symm
        obtain rfl := List.suffix_nil.mp hb'
        exact List.nil_suffix
      | cons e mid =>
        obtain rfl : .connect addr = e := (List.cons.inj hpost).1
        exact ha pre addr mid rfl

/-- A connection that is opened without its options stays so. -/
theorem not_applied_append {more : List Event} (h : ¬ Applied opts events) :
    ¬ Applied opts (events ++ more) := by
  refine fun happ => h fun pre addr post heq => ?_
  refine happ pre addr (post ++ more) ?_
  rw [heq, List.append_assoc]
  rfl

/-- A connection right after an event that sets no option. -/
theorem not_applied_connect {mark : Int} {interface : String} (hset : sockOpts mark interface ≠ [])
    {before post : List Event} {e : Event} (he : ∀ opt, e ≠ .sockopt opt) (addr : String) :
    ¬ Applied (sockOpts mark interface) (before ++ e :: .connect addr :: post) := by
  intro happ
  have hsuffix := happ (before ++ [e]) addr post (by rw [List.append_assoc]; rfl)
  obtain ⟨front, hfront⟩ := hsuffix
  have hlast : (sockOpts mark interface).getLast hset = e := by
    have hget : (front ++ sockOpts mark interface).getLast? = some e := by
      rw [hfront, List.getLast?_append_cons]
      rfl
    rw [List.getLast?_append_of_ne_nil _ hset, List.getLast?_eq_some_getLast hset] at hget
    exact Option.some.inj hget
  obtain ⟨opt, hopt⟩ := mem_sockOpts (List.getLast_mem hset)
  exact he opt (hlast.symm.trans hopt)

end

/-! ## The sockets of a dial -/

section

variable {env : Env} {opts : List Event}

theorem applied_of_toward {ε α : Type} {x : Action ε α} (h : x.Emits (Toward fun _ => False)) :
    x.Leaves (Applied opts) := by
  refine h.leaves fun l hl => applied_of_quiet fun e he addr => ?_
  rintro rfl
  exact (hl _ he).2 _ rfl

/-- Setting an option adds the option, whether it fails or not. -/
theorem when_sockopt {c : Prop} [Decidable c] (opt : SockOpt) {s s' : Bytes} {log new : List Event}
    {u : Unit} (h : when c (mapErr ChainError.ofFailure (env.perform (.sockopt opt))) s log
      = ⟨.ok u, s', new⟩) : new = if c then [.sockopt opt] else [] := by
  unfold when at h
  split_ifs at h ⊢
  · exact (perform_eq_ok (mapErr_eq_ok h)).2
  · cases h
    rfl

/-- A socket that is ready has had its options set. -/
theorem markedSocket_eq_ok {route : Route} {addr : String} {s s' : Bytes} {log new : List Event}
    {u : Unit} (h : markedSocket env route addr s log = ⟨.ok u, s', new⟩) :
    new = route.sockOpts := by
  obtain ⟨_, _, _, _, hcheck, hrest, rfl⟩ := bind_eq_ok h
  obtain ⟨-, rfl, rfl⟩ := ofExcept_eq_ok hcheck
  rw [ask_bind, List.append_nil] at hrest
  rw [List.nil_append]
  cases hlookup : env.lookup log addr with
  | error f =>
    rw [hlookup] at hrest
    cases hrest
  | ok ips =>
    rw [hlookup] at hrest
    cases ips with
    | nil => cases hrest
    | cons ip ips =>
      obtain ⟨_, s₁, ev₁, ev₂, hmark, hinterface, rfl⟩ := bind_eq_ok hrest
      rw [when_sockopt _ hmark, when_sockopt _ hinterface]
      rfl

/-- A connection is the only event of connecting, if there is one. -/
theorem connect_cases (env : Env) (addr : String) (s : Bytes) (log : List Event) :
    ∃ r new, env.connect addr s log = ⟨r, s, new⟩ ∧ (new = [] ∨ new = [.connect addr]) := by
  unfold Env.connect
  cases toSocketAddrs addr with
  | error e => exact ⟨_, _, rfl, .inl rfl⟩
  | ok _ =>
    dsimp only
    unfold Env.perform perform
    split <;> exact ⟨_, _, rfl, .inr rfl⟩

/-- A connection right after its options. -/
theorem applied_connect {opts : List Event} (hopts : ∀ e ∈ opts, ∃ opt, e = .sockopt opt)
    (addr : String) (s : Bytes) (log : List Event) :
    Applied opts (opts ++ (env.connect addr s log).events) := by
  obtain ⟨r, new, hrun, rfl | rfl⟩ := connect_cases env addr s log <;> rw [hrun]
  · rw [List.append_nil]
    refine applied_of_quiet fun e he addr => ?_
    obtain ⟨opt, rfl⟩ := hopts e he
    exact nofun
  · exact applied_opts_connect addr hopts

theorem connectTcp_applied (route : Route) (addr : String) :
    (connectTcp env route addr).Leaves (Applied route.sockOpts) := by
  intro s log
  have hquiet : (markedSocket env route addr).Leaves (Applied route.sockOpts) :=
    applied_of_toward (markedSocket_toward route addr)
  unfold connectTcp
  by_cases hset : route.mark ≠ 0 ∨ route.interface ≠ ""
  · rw [when, if_pos hset]
    have hfirst := hquiet s log
    rcases hrun : markedSocket env route addr s log with ⟨e | u, s', new⟩ <;> rw [hrun] at hfirst
    · rw [bind_error hrun]
      exact hfirst
    · obtain rfl := markedSocket_eq_ok hrun
      have happlied : Applied route.sockOpts
          (route.sockOpts ++ (env.connect addr s' (log ++ route.sockOpts)).events) :=
        applied_connect (fun e he => mem_sockOpts he) addr s' _
      rw [bind_ok hrun]
      rcases hconn : env.connect addr s' (log ++ route.sockOpts) with ⟨e | u, s'', ev⟩ <;>
        rw [hconn] at happlied
      · rw [bind_error (x := mapErr _ _) (by rw [mapErr, hconn]; rfl)]
        exact happlied
      · rw [bind_ok (x := mapErr _ _) (by rw [mapErr, hconn]; rfl)]
        show Applied route.sockOpts (route.sockOpts ++ (ev ++ []))
        rwa [List.append_nil]
  · have hnil : route.sockOpts = [] := by
      rw [Route.sockOpts, sockOpts_eq_nil_iff]
      simpa using hset
    rw [hnil]
    exact fun _ _ _ _ => List.nil_suffix

/-- An action on the world that opens no connection. -/
theorem perform_applied {e : Event} (he : ∀ addr, e ≠ .connect addr) :
    (env.perform e).Leaves (Applied opts) :=
  (emits_perform he).leaves fun _ hl => applied_of_quiet hl

/-- The dial opens the socket to the first hop itself, and not a session. -/
def Route.OpensFirst (route : Route) : Prop :=
  ∀ first ∈ route.nodes.head?, isMuxTransport first.transport = false ∧ first.transport ≠ "ssh"

theorem dialFirst_applied {route : Route} {first : Node}
    (h : isMuxTransport first.transport = false) :
    (dialFirst env route first).Leaves (Applied route.sockOpts) := by
  have hP := traced_applied route.sockOpts
  unfold dialFirst
  rw [if_neg (by rw [h]; exact Bool.false_ne_true)]
  refine leaves_ite (fun _ => ?_) fun _ => ?_
  · have hstream (ready : Except String Unit) :
        (datagramStream env first ready).Leaves (Applied route.sockOpts) := by
      refine hP.leaves_bind (leaves_mapErr _ (hP.leaves_bind (hP.leaves_ofExcept _) fun _ => ?_))
        fun _ => hP.leaves_pure _
      exact leaves_mapErr _ (hP.leaves_bind (perform_applied nofun) fun _ => perform_applied nofun)
    refine leaves_ite (fun _ => hstream _) fun _ => ?_
    exact hP.leaves_bind (hP.leaves_ofExcept _) fun _ => hstream _
  · refine hP.leaves_bind (connectTcp_applied route first.addr) fun conn => ?_
    exact applied_of_toward (layerTransport_emits (toward_inside _) conn first)

theorem dialTarget_applied {route : Route} (h : route.OpensFirst) (target : String) :
    (route.dialTarget env target).Leaves (Applied route.sockOpts) := by
  have hP := traced_applied route.sockOpts
  unfold Route.dialTarget
  refine leaves_ite (fun _ => connectTcp_applied route target) fun _ => ?_
  cases hn : route.nodes with
  | nil => exact hP.leaves_fail _
  | cons first rest =>
    obtain ⟨hmux, hssh⟩ := h first (by rw [hn]; rfl)
    dsimp only
    rw [if_neg hssh]
    refine hP.leaves_bind (dialFirst_applied hmux) fun conn => ?_
    refine hP.leaves_bind (applied_of_toward (connectVia_emits (toward_inside _) _ _ _))
      fun current => ?_
    exact applied_of_toward (dialRest_emits (toward_inside _) _ _ _)

theorem dialPlain_applied {route : Route} (h : route.OpensFirst) (address : String) :
    (route.dialPlain env address).Leaves (Applied route.sockOpts) := by
  have hP := traced_applied route.sockOpts
  refine tries_leaves hP (hP.leaves_bind (resolve_leaves hP ?_) fun _ => dialTarget_applied h _) _ _
  intro host port hs hh l hl
  cases hl

/-! ## The name servers -/

/-- The chain through which a server is dialled, if it is to be dialled through one. -/
def NameServer.via (chain : Option Route) (ns : NameServer) : Option Route :=
  (if ns.protocolKind.2 then chain else none).filter fun route => !route.isEmpty

/-- Where a server that is asked over TCP is. -/
def NameServer.tcpAddr (urlParse : UrlParser) (ns : NameServer) : Option String :=
  match ns.protocolKind.1 with
  | .udp => none
  | .tcp | .tls => some ns.dialAddr
  | .https => (dohAddr urlParse ns.addr).toOption

/-- The server is asked over a TCP connection around the chain. -/
def NameServer.Direct (urlParse : UrlParser) (chain : Option Route) (ns : NameServer) : Prop :=
  ns.via chain = none ∧ ∃ addr, ns.tcpAddr urlParse = some addr ∧ toSocketAddrs addr = .ok ()

theorem dialTcpVia_applied {chain : Option Route} {addr : String} {route : Route}
    (hc : chain.filter (fun route => !route.isEmpty) = some route) (h : route.OpensFirst) :
    (dialTcpVia env addr chain).Leaves (Applied route.sockOpts) := by
  unfold dialTcpVia
  rw [hc]
  exact leaves_mapErr _ (dialPlain_applied h addr)

theorem nsContact_applied {ns : NameServer} {chain : Option Route}
    (hroute : ∀ route ∈ chain, route.OpensFirst ∧ route.sockOpts = opts)
    (h : ¬ ns.Direct env.urlParse chain) :
    (nsContact env ns (if ns.protocolKind.2 then chain else none)).Leaves (Applied opts) := by
  have hP := traced_applied opts
  -- a server over TCP is dialled through the chain, or cannot be dialled
  have htcp {addr : String} (hat : ns.tcpAddr env.urlParse = some addr) :
      (dialTcpVia env addr (if ns.protocolKind.2 then chain else none)).Leaves (Applied opts) := by
    cases hvia : ns.via chain with
    | none =>
      unfold NameServer.via at hvia
      unfold dialTcpVia Env.connect
      rw [hvia]
      cases hok : toSocketAddrs addr with
      | error e => exact hP.leaves_bind (hP.leaves_fail _) fun _ => hP.leaves_pure _
      | ok _ => exact absurd ⟨hvia, addr, hat, hok⟩ h
    | some route =>
      have hmem : route ∈ chain := by
        have hsome := (Option.filter_eq_some_iff.mp hvia).1
        split_ifs at hsome
        exact hsome
      obtain ⟨hopens, rfl⟩ := hroute route hmem
      exact dialTcpVia_applied hvia hopens
  unfold NameServer.tcpAddr at htcp
  unfold nsContact
  cases hk : ns.protocolKind.1 with
  | udp => exact hP.leaves_bind (hP.leaves_ofExcept _) fun _ => perform_applied nofun
  | tcp =>
    rw [hk] at htcp
    exact hP.leaves_bind (htcp rfl) fun _ => hP.leaves_pure _
  | tls =>
    rw [hk] at htcp
    exact hP.leaves_bind (htcp rfl) fun _ => perform_applied nofun
  | https =>
    rw [hk] at htcp
    dsimp only
    cases ha : dohAddr env.urlParse ns.addr with
    | error e => exact hP.leaves_fail _
    | ok addr =>
      rw [ha] at htcp
      exact hP.leaves_bind (htcp rfl) fun _ => hP.leaves_pure _

/-! ## The dial -/

/-- Resolving the address may ask a server over TCP around the chain. -/
def Chain.AsksDirectly (urlParse : UrlParser) (chain : Chain) (address : String) : Prop :=
  ∃ host port r ns, splitHostPort address = .ok (host, port) ∧
    chain.hosts.bind (·.lookup host) = none ∧ chain.resolver = some r ∧
    (r.queried host).isSome = true ∧ ns ∈ r.servers ∧ ns.Direct urlParse r.chain

theorem dial_applied {chain : Chain} {address : String} (h : chain.OpensFirst)
    (hroute : ∀ r ∈ chain.resolver, ∀ route ∈ r.chain,
      route.OpensFirst ∧ route.sockOpts = chain.sockOpts)
    (hdirect : ¬ chain.AsksDirectly env.urlParse address) :
    (chain.dial env address).Leaves (Applied chain.sockOpts) := by
  have hP := traced_applied chain.sockOpts
  refine hP.leaves_bind ((emits_emit (p := fun e => ∀ addr, e ≠ .connect addr) nofun).leaves
    fun _ hl => applied_of_quiet hl) fun _ => ?_
  refine tries_leaves hP (noted_leaves hP (applied_of_quiet (by simp)) (hP.leaves_bind
    (resolve_leaves hP fun host port hs hh l hl => ?_) fun resolved => dialTarget_applied h _)) _ _
  obtain ⟨r, hr, rfl⟩ := Option.map_eq_some_iff.mp hl
  refine resolver_leaves hP (fun _ _ => applied_of_quiet (by simp)) fun hq ns hns => nsContact_applied (hroute r hr) fun hd => hdirect ?_
  exact ⟨host, port, r, ns, hs, hh, hr, hq, hns, hd⟩

end

end RtProxy
