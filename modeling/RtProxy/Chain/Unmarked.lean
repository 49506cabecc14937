import RtProxy.Chain.Reaching
import RtProxy.Chain.SocketOptions

/-!
Dials that leave the options of a socket out.

There are two ways.  The connection to the first hop is the first thing that the dial does,
without its options; or a name server is asked around the chain, in a world where all goes
well, and the dial goes on to what it answers.
-/

namespace RtProxy

open Act

/-! ## The first connection -/

/-- The first connection of the dial is opened without options. -/
def Route.OpensBare (route : Route) : Prop :=
  (route.isEmpty = true ∧ route.sockOpts = []) ∨ ¬ route.OpensFirst

section

variable {env : Env} {ε α β : Type} {x : Action ε α} {s : Bytes} {log : List Event} {addr : String}

/-- The run begins with a connection. -/
def BeginsBare (x : Action ε α) (s : Bytes) (log : List Event) : Prop :=
  ∃ addr post, (x s log).events = .connect addr :: post

theorem BeginsBare.bind {f : α → Action ε β} (h : BeginsBare x s log) :
    BeginsBare (x >>= f) s log := by
  obtain ⟨addr, post, hev⟩ := h
  rcases hx : x s log with ⟨_ | a, s', new⟩ <;> rw [hx] at hev <;> dsimp only at hev
  · exact ⟨addr, post, by rw [bind_error hx, hev]⟩
  · rw [BeginsBare, bind_ok hx, hev]
    exact ⟨addr, _, List.cons_append⟩

theorem connect_bare (haddr : (toSocketAddrs addr).isOk = true) :
    BeginsBare (env.connect addr) s log := by
  obtain ⟨_, haddr⟩ := exists_of_isOk haddr
  refine ⟨addr, [], ?_⟩
  unfold Env.connect
  rw [haddr]
  dsimp only
  unfold Env.perform Act.perform
  split <;> rfl

theorem beginsBare_mapErr {ε' : Type} (g : ε' → ε) {x : Action ε' α} (h : BeginsBare x s log) :
    BeginsBare (mapErr g x) s log := h

variable (hpool : ∀ log key, env.pooled log key = false)

include hpool

theorem dialMuxHop_bare {node : Node} (hconfig : (muxConfigFromNode node).isOk = true)
    (h : muxBuildable env.toLibs node = true) : BeginsBare (dialMuxHop env node) s log := by
  rw [muxBuildable, Bool.and_eq_true, Bool.and_eq_true] at h
  obtain ⟨config, hconfig⟩ := exists_of_isOk (isOk_mapError.trans hconfig)
  unfold dialMuxHop
  rw [BeginsBare, ofExcept_bind hconfig, ask_bind, hpool]
  refine BeginsBare.bind (beginsBare_mapErr _ (BeginsBare.bind ?_))
  rw [Bool.false_and, when, if_pos rfl]
  exact BeginsBare.bind (beginsBare_mapErr _ (connect_bare h.1.1))

theorem dialSshHop_bare {node : Node} (hssh : node.transport = "ssh")
    (h : node.contactable env.toLibs = true) (target : String) :
    BeginsBare (dialSshHop env node target) s log := by
  rw [Node.contactable, hssh, if_neg (by decide), if_neg (by decide), if_neg (by decide), if_pos rfl,
    Bool.and_eq_true] at h
  obtain ⟨transporter, hnew⟩ := exists_of_isOk (isOk_mapError.trans h.1)
  unfold dialSshHop
  rw [BeginsBare, ofExcept_bind hnew, ask_bind, hpool, Bool.false_and, when, if_pos rfl]
  refine BeginsBare.bind (beginsBare_mapErr _ (BeginsBare.bind ?_))
  exact beginsBare_mapErr _ (connect_bare h.2)

theorem dialTarget_bare {route : Route} {target : String} (h : route.OpensBare)
    (hpasses : route.passes env.toLibs target = true) :
    BeginsBare (route.dialTarget env target) s log := by
  unfold Route.passes at hpasses
  rcases h with ⟨hempty, hopts⟩ | hopens
  · obtain ⟨hmark, hinterface⟩ := sockOpts_eq_nil_iff.mp hopts
    rw [if_pos hempty] at hpasses
    unfold Route.dialTarget connectTcp
    rw [if_pos hempty, hmark, hinterface, when, if_neg (by simp), BeginsBare,
      bind_silent (x := Act.pure ()) rfl]
    exact BeginsBare.bind (beginsBare_mapErr _ (connect_bare hpasses))
  · unfold Route.OpensFirst at hopens
    cases hn : route.nodes with
    | nil =>
      rw [hn] at hopens
      refine absurd (fun first hfirst => ?_) hopens
      cases hfirst
    | cons first rest =>
      have hempty : ¬ route.isEmpty = true := by
        intro hempty
        rw [nodes_of_isEmpty hempty] at hn
        cases hn
      rw [hn, List.head?_cons] at hopens
      rw [if_neg hempty, hn] at hpasses
      dsimp only at hpasses
      by_cases hssh : first.transport = "ssh"
      · rw [if_pos hssh, Bool.and_eq_true] at hpasses
        rw [dialTarget_ssh target hn hssh]
        exact dialSshHop_bare hpool hssh hpasses.1 _
      · have hmux : isMuxTransport first.transport = true := by
          by_contra hno
          refine hopens fun node hnode => ?_
          cases hnode
          exact ⟨Bool.eq_false_iff.mpr hno, hssh⟩
        rw [if_neg hssh, Bool.and_eq_true, Bool.and_eq_true, enterable, if_pos hmux,
          Bool.and_eq_true] at hpasses
        obtain ⟨⟨⟨hconfig, hbuild⟩, -⟩, -⟩ := hpasses
        rw [dialTarget_plain target hn hssh]
        refine BeginsBare.bind ?_
        unfold dialFirst
        rw [if_pos hmux]
        exact dialMuxHop_bare hpool hconfig hbuild

end

/-! ## A dial that succeeds -/

section

variable {env : Env} {chain : Chain} {address resolved t : String} {s s' : Bytes}
  {log new : List Event} {conn : Conn}

/-- A dial whose first attempt resolves the address and goes through. -/
theorem dial_of_resolve
    (hresolve : resolve (chain.lookup env) chain.hosts address s (log ++ [.dial address]) =
      (⟨.ok resolved, s', new⟩ : Outcome ChainError _ _ _))
    (hdial : (chain.dialTarget env (dialled address resolved)).Succeeds) :
    ∃ conn, chain.dial env address s log = ⟨.ok conn, s', .dial address :: (new ++ (chain.dialTarget
      env (dialled address resolved) s' (log ++ [.dial address] ++ new)).events)⟩ := by
  obtain ⟨conn, ev, htarget⟩ := hdial s' (log ++ [.dial address] ++ new)
  refine ⟨conn, ?_⟩
  have honce : chain.dialOnce env address chain.defaultOptions s (log ++ [.dial address]) =
      ⟨.ok conn, s', new ++ ev⟩ := bind_run hresolve htarget
  have htries := tries_ok (noted_ok honce address) (retryCount_pos chain.retries chain.retries)
    .emptyChain
  rw [htarget]
  exact bind_run (x := emit (Event.dial address)) rfl htries

/-- A lookup of the system sets no option. -/
theorem not_applied_looked {mark : Int} {interface : String} (hset : sockOpts mark interface ≠ [])
    {e : Event} (he : ∀ opt, e ≠ .sockopt opt) {ev : List Event} (hev : Looked ev) (addr : String)
    (post : List Event) : ¬ Applied (sockOpts mark interface) (e :: (ev ++ .connect addr :: post)) := by
  -- the event right before the connection
  have hlast {before : List Event} {e : Event} (he : ∀ opt, e ≠ .sockopt opt) :
      ¬ Applied (sockOpts mark interface) (before ++ e :: .connect addr :: post) :=
    not_applied_connect hset he addr
  rcases List.eq_nil_or_concat ev with rfl | ⟨before, last, rfl⟩
  · rw [List.nil_append, ← List.nil_append (e :: _)]
    exact hlast he
  · obtain ⟨name, rfl⟩ := hev last (by simp)
    rw [List.concat_eq_append, List.append_assoc, ← List.cons_append]
    exact hlast nofun

/-- A chain whose first connection is opened without options violates them in the world that
resolves the address to a target its hops let through. -/
theorem exists_bare_dial {mark : Int} {interface : String} (hset : sockOpts mark interface ≠ [])
    (libs : Libs) (hbare : chain.OpensBare) (hresolves : chain.Resolves address t)
    (hpasses : chain.passes libs t = true) :
    ∃ env : Env, env.toLibs = libs ∧ ∃ conn s' new,
      chain.dial env address [] [] = ⟨.ok conn, s', new⟩ ∧
        ¬ Applied (sockOpts mark interface) new := by
  obtain ⟨ips, resolved, ev, rfl, hev, hresolve⟩ := exists_answering libs hresolves
  have henv : (answering libs ips).Unfailing := fun _ _ => ⟨rfl, rfl⟩
  have hdial : (chain.dialTarget (answering libs ips) (dialled address resolved)).Succeeds := by
    refine dialTarget_succeeds henv (fun hopens hset => ?_) hpasses
    rcases hbare with ⟨-, hnil⟩ | hnot
    · exact absurd hnil hset
    · exact absurd hopens hnot
  obtain ⟨conn, hrun⟩ := dial_of_resolve (hresolve [] ([] ++ [.dial address])) hdial
  have hfirst : BeginsBare (chain.dialTarget (answering libs ips) (dialled address resolved)) []
      ([] ++ [.dial address] ++ ev) := dialTarget_bare (fun _ _ => rfl) hbare hpasses
  obtain ⟨addr, post, hfirst⟩ := hfirst
  refine ⟨answering libs ips, rfl, conn, [], _, hrun, ?_⟩
  rw [hfirst]
  exact not_applied_looked hset (fun _ => Event.noConfusion) hev addr post

end

/-! ## A name server around the chain -/

/-- The last thing that happened was not that an option was set. -/
def Settled (events : List Event) : Prop := ∀ opt, events.getLast? ≠ some (.sockopt opt)

theorem traced_settled : Traced Settled where
  nil := nofun
  append a b ha hb := by
    cases b with
    | nil =>
      rw [List.append_nil]
      exact ha
    | cons e b =>
      intro opt
      rw [List.getLast?_append_cons]
      exact hb opt

/-- An event that sets no option. -/
def Unset (e : Event) : Prop := ∀ opt, e ≠ .sockopt opt

theorem unset_inside : Inside Unset where
  shake _ _ := nofun
  openStream _ := nofun
  layered _ _ _ := nofun
  connected _ _ _ _ := nofun

theorem settled_of_unset {events : List Event} (h : ∀ e ∈ events, Unset e) : Settled events := by
  intro opt hlast
  exact h _ (List.mem_of_getLast? hlast) opt rfl

section

variable {env : Env}

theorem settled_of_emits {ε α : Type} {x : Action ε α} (h : x.Emits Unset) : x.Leaves Settled :=
  h.leaves fun _ hl => settled_of_unset hl

theorem perform_settled {e : Event} (h : Unset e) : (env.perform e).Leaves Settled :=
  settled_of_emits (emits_perform h)

theorem connect_run (henv : env.Unfailing) {addr : String} (haddr : toSocketAddrs addr = .ok ())
    (s : Bytes) (log : List Event) : env.connect addr s log = ⟨.ok (), s, [.connect addr]⟩ := by
  unfold Env.connect
  rw [haddr]
  exact henv.perform _ _ _

variable (henv : env.Unfailing) (hfinds : env.Finds)

include henv hfinds

/-- The options are followed by the connection that they were set for. -/
theorem connectTcp_settled (route : Route) (addr : String) :
    (connectTcp env route addr).Leaves Settled := by
  intro s log opt
  cases haddr : toSocketAddrs addr with
  | error e =>
    have hmarked : markedSocket env route addr s log = ⟨.error (.io e), s, []⟩ := by
      rw [markedSocket, haddr]
      exact bind_error rfl
    have hconnect : mapErr ChainError.ofFailure (env.connect addr) s log =
        ⟨.error (.io e), s, []⟩ := by
      rw [Env.connect, haddr]
      rfl
    unfold connectTcp when
    split_ifs
    · rw [bind_error hmarked]
      exact settled_of_unset (List.forall_mem_nil _) opt
    · rw [bind_silent (x := Act.pure ()) rfl, bind_error hconnect]
      exact settled_of_unset (List.forall_mem_nil _) opt
  | ok _ =>
    have hready : (when (route.mark ≠ 0 ∨ route.interface ≠ "")
        (markedSocket env route addr)).Succeeds :=
      succeeds_when fun _ => markedSocket_succeeds henv hfinds route haddr
    obtain ⟨_, opts, hopts⟩ := hready s log
    have hconnect : mapErr ChainError.ofFailure (env.connect addr) s (log ++ opts) =
        ⟨.ok (), s, [.connect addr]⟩ := by
      rw [mapErr, connect_run henv haddr]
      rfl
    have hrest := bind_run (f := fun _ => pure (Conn.tcp addr)) hconnect rfl
    rw [connectTcp, bind_run hopts hrest]
    simp

omit henv hfinds in
theorem connect_settled (addr : String) : (env.connect addr).Leaves Settled := by
  intro s log
  obtain ⟨r, new, hrun, rfl | rfl⟩ := connect_cases env addr s log <;> rw [hrun]
  · exact settled_of_unset (List.forall_mem_nil _)
  · exact settled_of_unset (List.forall_mem_singleton.mpr nofun)

omit henv hfinds in
theorem datagramStream_settled (node : Node) (ready : Except String Unit) :
    (datagramStream env node ready).Leaves Settled := by
  have hP := traced_settled
  refine hP.leaves_bind (leaves_mapErr _ (hP.leaves_bind (hP.leaves_ofExcept _) fun _ => ?_))
    fun _ => hP.leaves_pure _
  exact leaves_mapErr _ (hP.leaves_bind (perform_settled nofun) fun _ => perform_settled nofun)

theorem dialPlain_settled {route : Route} (h : route.OpensFirst) (address : String) :
    (route.dialPlain env address).Leaves Settled := by
  have hP := traced_settled
  refine tries_leaves hP (hP.leaves_bind (resolve_leaves hP ?_) fun resolved => ?_) _ _
  · intro host port hs hh l hl
    cases hl
  unfold Route.dialTarget
  refine leaves_ite (fun _ => connectTcp_settled henv hfinds route _) fun _ => ?_
  cases hn : route.nodes with
  | nil => exact hP.leaves_fail _
  | cons first rest =>
    obtain ⟨hmux, hssh⟩ := h first (by rw [hn]; rfl)
    dsimp only
    rw [if_neg hssh]
    refine hP.leaves_bind ?_ fun conn => hP.leaves_bind
      (settled_of_emits (connectVia_emits unset_inside _ _ _)) fun current =>
        settled_of_emits (dialRest_emits unset_inside _ _ _)
    unfold dialFirst
    rw [if_neg (by rw [hmux]; exact Bool.false_ne_true)]
    refine leaves_ite (fun _ => ?_) fun _ => ?_
    · refine leaves_ite (fun _ => datagramStream_settled _ _) fun _ => ?_
      exact hP.leaves_bind (hP.leaves_ofExcept _) fun _ => datagramStream_settled _ _
    · refine hP.leaves_bind (connectTcp_settled henv hfinds route _) fun conn => ?_
      exact settled_of_emits (layerTransport_emits unset_inside conn first)

theorem nsContact_settled {ns : NameServer} {chain : Option Route}
    (hroute : ∀ route ∈ chain, route.OpensFirst) :
    (nsContact env ns (if ns.protocolKind.2 then chain else none)).Leaves Settled := by
  have hP := traced_settled
  have htcp (addr : String) :
      (dialTcpVia env addr (if ns.protocolKind.2 then chain else none)).Leaves Settled := by
    unfold dialTcpVia
    cases hc : (if ns.protocolKind.2 then chain else none).filter fun route => !route.isEmpty with
    | none => exact hP.leaves_bind (connect_settled _) fun _ => hP.leaves_pure _
    | some route =>
      refine leaves_mapErr _ (dialPlain_settled henv hfinds (hroute route ?_) addr)
      have hsome := (Option.filter_eq_some_iff.mp hc).1
      split_ifs at hsome
      exact hsome
  unfold nsContact
  cases ns.protocolKind.1 with
  | udp => exact hP.leaves_bind (hP.leaves_ofExcept _) fun _ => perform_settled nofun
  | tcp => exact hP.leaves_bind (htcp _) fun _ => hP.leaves_pure _
  | tls => exact hP.leaves_bind (htcp _) fun _ => perform_settled nofun
  | https =>
    dsimp only
    cases dohAddr env.urlParse ns.addr with
    | error e => exact hP.leaves_fail _
    | ok addr => exact hP.leaves_bind (htcp _) fun _ => hP.leaves_pure _

end

/-- The address that a lookup brings. -/
def found : Except Failure (List Net.IpAddr) → Option Net.IpAddr
  | .ok (ip :: _) => some ip
  | _ => none

open Classical in
/-- A world whose name servers answer once a connection was opened without its options. -/
noncomputable def wary (libs : Libs) (opts : List Event) (ips : List Net.IpAddr) : Env :=
  { Env.calm libs with
    answer := fun log _ _ => .ok (if Applied opts log then [] else ips) }

section

variable {libs : Libs} {opts : List Event} {ips : List Net.IpAddr} {r : Resolver}
  {ns : NameServer} {host : String} {s : Bytes} {log : List Event}

theorem wary_unfailing : (wary libs opts ips).Unfailing := fun _ _ => ⟨rfl, rfl⟩

theorem wary_finds : (wary libs opts ips).Finds := fun _ _ => ⟨_, _, rfl⟩

/-- A lookup brings nothing, or the address after a connection without its options. -/
def Cautious (opts : List Event) (ips : List Net.IpAddr) (log : List Event)
    (o : Outcome Failure Bytes Event (List Net.IpAddr)) : Prop :=
  found o.result = none ∨ (¬ Applied opts (log ++ o.events) ∧ found o.result = ips.head?)

theorem answer_of_applied (h : Applied opts log) (addr name : String) :
    (wary libs opts ips).answer log addr name = .ok [] := congrArg Except.ok (if_pos h)

theorem answer_of_not_applied (h : ¬ Applied opts log) (addr name : String) :
    (wary libs opts ips).answer log addr name = .ok ips := congrArg Except.ok (if_neg h)

theorem found_ok (ips : List Net.IpAddr) : found (.ok ips) = ips.head? := by
  cases ips <;> rfl

theorem query_run {qtype : String} (henc : encodable (fqdn host) = true) :
    r.query (wary libs opts ips) ns host qtype s log =
      nsExchange (wary libs opts ips) ns r.chain (fqdn host) s log := by
  have hcached : (wary libs opts ips).cached log (fqdn host ++ "IN." ++ qtype) = none := rfl
  unfold Resolver.query
  rw [ask_bind, hcached]
  dsimp only
  rw [if_pos henc]

theorem query_cautious (henc : encodable (fqdn host) = true) (qtype : String) :
    Cautious opts ips log (r.query (wary libs opts ips) ns host qtype s log) := by
  rw [query_run henc]
  unfold nsExchange
  rcases hcontact : nsContact (wary libs opts ips) ns
    (if ns.protocolKind.2 = true then r.chain else none) s log with ⟨e | u, s', new⟩
  · rw [bind_error hcontact]
    exact .inl rfl
  · rw [bind_ok hcontact, ask_bind]
    by_cases happ : Applied opts (log ++ new)
    · rw [answer_of_applied happ]
      exact .inl rfl
    · rw [answer_of_not_applied happ]
      refine .inr ⟨?_, found_ok ips⟩
      show ¬ Applied opts (log ++ (new ++ []))
      rwa [List.append_nil]

/-- A server that is asked after another. -/
theorem Cautious.after {ev : List Event} {o : Outcome Failure Bytes Event (List Net.IpAddr)}
    (h : Cautious opts ips (log ++ ev) o) :
    Cautious opts ips log ⟨o.result, o.state, ev ++ o.events⟩ := by
  unfold Cautious at h ⊢
  rwa [List.append_assoc] at h

theorem resolveVia_cautious (henc : encodable (fqdn host) = true) :
    Cautious opts ips log (r.resolveVia (wary libs opts ips) ns host s log) := by
  unfold Resolver.resolveVia
  have hfirst : Cautious opts ips log (r.query (wary libs opts ips) ns host
    (if r.prefer = "ipv6" then "AAAA" else "A") s log) := query_cautious henc _
  rcases hrun : r.query (wary libs opts ips) ns host (if r.prefer = "ipv6" then "AAAA" else "A")
    s log with ⟨e | _ | ⟨ip, more⟩, s', ev⟩ <;> rw [hrun] at hfirst <;>
    rw [bind_ok (x := attempt _) (by rw [attempt, hrun])]
  · exact (query_cautious henc _).after
  · exact (query_cautious henc _).after
  · show Cautious opts ips log ⟨_, _, ev ++ []⟩
    rwa [List.append_nil]

theorem failover_cautious (henc : encodable (fqdn host) = true) (servers : List NameServer)
    (last : Option Failure) :
    Cautious opts ips log (r.failover (wary libs opts ips) host servers last s log) := by
  induction servers generalizing last s log with
  | nil => cases last <;> exact .inl rfl
  | cons ns rest ih =>
    have hfirst : Cautious opts ips log (r.resolveVia (wary libs opts ips) ns host s log) :=
      resolveVia_cautious henc
    unfold Resolver.failover
    rcases hrun : r.resolveVia (wary libs opts ips) ns host s log with
      ⟨e | _ | ⟨ip, more⟩, s', ev⟩ <;> rw [hrun] at hfirst <;>
      rw [bind_ok (x := attempt _) (by rw [attempt, hrun])]
    · exact (ih _).after
    · exact (ih _).after
    · show Cautious opts ips log ⟨_, _, ev ++ []⟩
      rwa [List.append_nil]

end

/-! ### A server that is asked around the chain -/

section

variable {env : Env} {libs : Libs} {mark : Int} {interface : String} {ips : List Net.IpAddr}
  {r : Resolver} {ns : NameServer} {host : String} {s : Bytes} {log : List Event}

theorem not_applied_of_settled (hset : sockOpts mark interface ≠ []) (hlog : Settled log)
    (addr : String) (post : List Event) :
    ¬ Applied (sockOpts mark interface) (log ++ .connect addr :: post) := by
  rcases List.eq_nil_or_concat log with rfl | ⟨before, e, rfl⟩
  · intro happ
    exact hset (List.suffix_nil.mp (happ [] addr post rfl))
  · rw [List.concat_eq_append, List.append_assoc]
    refine not_applied_connect hset (fun opt heq => hlog opt ?_) addr
    rw [List.concat_eq_append, List.getLast?_concat, heq]

theorem nsContact_direct (henv : env.Unfailing) {chain : Option Route}
    (h : ns.Direct env.urlParse chain) (s : Bytes) (log : List Event) :
    ∃ addr post, nsContact env ns (if ns.protocolKind.2 then chain else none) s log =
      ⟨.ok (), s, .connect addr :: post⟩ := by
  obtain ⟨hvia, addr, hat, haddr⟩ := h
  have htcp (log : List Event) :
      dialTcpVia env addr (if ns.protocolKind.2 then chain else none) s log =
        ⟨.ok (.tcp addr), s, [.connect addr]⟩ := by
    unfold NameServer.via at hvia
    rw [dialTcpVia, hvia]
    exact bind_run (connect_run henv haddr _ _) rfl
  unfold NameServer.tcpAddr at hat
  unfold nsContact
  cases hk : ns.protocolKind.1 with
  | udp =>
    rw [hk] at hat
    cases hat
  | tcp =>
    rw [hk] at hat
    obtain rfl := Option.some.inj hat
    exact ⟨_, _, bind_run (htcp _) rfl⟩
  | tls =>
    rw [hk] at hat
    obtain rfl := Option.some.inj hat
    exact ⟨_, _, bind_run (htcp _) (henv.perform _ _ _)⟩
  | https =>
    rw [hk] at hat
    dsimp only at hat ⊢
    cases hdoh : dohAddr env.urlParse ns.addr with
    | error e =>
      rw [hdoh] at hat
      cases hat
    | ok addr' =>
      rw [hdoh] at hat
      obtain rfl := Option.some.inj hat
      exact ⟨_, _, bind_run (htcp _) rfl⟩

/-- A run after which a connection is without its options, and that brings the address. -/
def Reveals (opts : List Event) (ips : List Net.IpAddr) (log : List Event)
    (o : Outcome Failure Bytes Event (List Net.IpAddr)) : Prop :=
  ¬ Applied opts (log ++ o.events) ∧ found o.result = ips.head?

theorem Reveals.after {opts ev : List Event} {o : Outcome Failure Bytes Event (List Net.IpAddr)}
    (h : Reveals opts ips (log ++ ev) o) :
    Reveals opts ips log ⟨o.result, o.state, ev ++ o.events⟩ := by
  unfold Reveals at h ⊢
  rwa [List.append_assoc] at h

/-- Where the first server brings no address, the next may be asked. -/
theorem reveals_after {opts ev : List Event} {res : Except Failure (List Net.IpAddr)}
    {o : Outcome Failure Bytes Event (List Net.IpAddr)} {s' : Bytes}
    (h : Reveals opts ips log ⟨res, s', ev⟩) (hres : found res = none)
    (ho : Cautious opts ips (log ++ ev) o) :
    Reveals opts ips log ⟨o.result, o.state, ev ++ o.events⟩ := by
  obtain ⟨hnot, hfound⟩ := h
  refine ⟨?_, ?_⟩
  · show ¬ Applied opts (log ++ (ev ++ o.events))
    rw [← List.append_assoc]
    exact not_applied_append hnot
  · rcases ho with hnone | ⟨-, hhead⟩
    · exact hnone.trans (hres.symm.trans hfound)
    · exact hhead

theorem query_direct (hset : sockOpts mark interface ≠ []) (hlog : Settled log)
    (hdirect : ns.Direct libs.urlParse r.chain) (henc : encodable (fqdn host) = true) (qtype : String) :
    Reveals (sockOpts mark interface) ips log
      (r.query (wary libs (sockOpts mark interface) ips) ns host qtype s log) := by
  have henv : (wary libs (sockOpts mark interface) ips).Unfailing := wary_unfailing
  obtain ⟨addr, post, hcontact⟩ := nsContact_direct henv hdirect s log
  have hnot := not_applied_of_settled hset hlog addr post
  rw [query_run henc]
  unfold nsExchange
  rw [bind_ok hcontact, ask_bind, answer_of_not_applied hnot]
  refine ⟨?_, found_ok ips⟩
  show ¬ Applied _ (log ++ (.connect addr :: post ++ []))
  rwa [List.append_nil]

theorem resolveVia_direct (hset : sockOpts mark interface ≠ []) (hlog : Settled log)
    (hdirect : ns.Direct libs.urlParse r.chain) (henc : encodable (fqdn host) = true) :
    Reveals (sockOpts mark interface) ips log
      (r.resolveVia (wary libs (sockOpts mark interface) ips) ns host s log) := by
  have hfirst : Reveals (sockOpts mark interface) ips log
      (r.query (wary libs (sockOpts mark interface) ips) ns host
        (if r.prefer = "ipv6" then "AAAA" else "A") s log) := query_direct hset hlog hdirect henc _
  unfold Resolver.resolveVia
  rcases hrun : r.query (wary libs (sockOpts mark interface) ips) ns host
    (if r.prefer = "ipv6" then "AAAA" else "A") s log with ⟨e | _ | ⟨ip, more⟩, s', ev⟩ <;>
    rw [hrun] at hfirst <;> rw [bind_ok (x := attempt _) (by rw [attempt, hrun])]
  · exact reveals_after hfirst rfl (query_cautious henc _)
  · exact reveals_after hfirst rfl (query_cautious henc _)
  · show Reveals _ ips log ⟨_, _, ev ++ []⟩
    rwa [List.append_nil]

/-- Asking the servers in order comes to the one that is asked around the chain. -/
theorem failover_reveals (hset : sockOpts mark interface ≠ [])
    (hroute : ∀ route ∈ r.chain, route.OpensFirst) (henc : encodable (fqdn host) = true)
    {servers : List NameServer} (hdirect : ∃ ns ∈ servers, ns.Direct libs.urlParse r.chain)
    (hlog : Settled log) (last : Option Failure) :
    Reveals (sockOpts mark interface) ips log
      (r.failover (wary libs (sockOpts mark interface) ips) host servers last s log) := by
  induction servers generalizing last s log with
  | nil =>
    obtain ⟨ns, hns, -⟩ := hdirect
    cases hns
  | cons ns rest ih =>
    have hcautious : Cautious (sockOpts mark interface) ips log
        (r.resolveVia (wary libs (sockOpts mark interface) ips) ns host s log) :=
      resolveVia_cautious henc
    have hleaves : (r.resolveVia (wary libs (sockOpts mark interface) ips) ns host).Leaves
        Settled :=
      resolveVia_leaves traced_settled fun _ => nsContact_settled wary_unfailing wary_finds hroute
    have hsettled := hleaves s log
    unfold Resolver.failover
    rcases hrun : r.resolveVia (wary libs (sockOpts mark interface) ips) ns host s log with
      ⟨res, s', ev⟩
    rw [hrun] at hcautious hsettled
    have hlater := traced_settled.append log ev hlog hsettled
    -- a server that brings no address is the one, or it is among the later ones
    have hrest (last' : Option Failure) (hres : found res = none) :
        Reveals (sockOpts mark interface) ips log
          (let o := r.failover (wary libs (sockOpts mark interface) ips) host rest last' s'
            (log ++ ev)
          ⟨o.result, o.state, ev ++ o.events⟩) := by
      by_cases hns : ns.Direct libs.urlParse r.chain
      · have hfirst : Reveals (sockOpts mark interface) ips log
            (r.resolveVia (wary libs (sockOpts mark interface) ips) ns host s log) :=
          resolveVia_direct hset hlog hns henc
        rw [hrun] at hfirst
        exact reveals_after hfirst hres (failover_cautious henc rest last')
      · refine (ih ?_ hlater last').after
        obtain ⟨ns', hmem, hns'⟩ := hdirect
        rcases List.mem_cons.mp hmem with rfl | hmem
        · exact absurd hns' hns
        · exact ⟨ns', hmem, hns'⟩
    rcases res with e | _ | ⟨ip, more⟩ <;> rw [bind_ok (x := attempt _) (by rw [attempt, hrun])]
    · exact hrest _ rfl
    · exact hrest _ rfl
    · show Reveals _ ips log ⟨_, _, ev ++ []⟩
      rw [List.append_nil]
      exact hcautious.resolve_left (Option.some_ne_none ip)

theorem queried_isSome (h : (r.queried host).isSome = true) :
    host ≠ "" ∧ Net.IpAddr.parse host = none ∧ r.servers ≠ [] ∧
      encodable (fqdn (r.searchName host)) = true := by
  unfold Resolver.queried at h
  split_ifs at h with hno
  · cases h
  · simpa [not_or] using hno

theorem resolve_reveals (hset : sockOpts mark interface ≠ [])
    (hroute : ∀ route ∈ r.chain, route.OpensFirst) (hq : (r.queried host).isSome = true)
    (hdirect : ∃ ns ∈ r.servers, ns.Direct libs.urlParse r.chain) (hlog : Settled log) :
    Reveals (sockOpts mark interface) ips log
      (r.resolve (wary libs (sockOpts mark interface) ips) host s log) := by
  obtain ⟨hhost, hip, hservers, henc⟩ := queried_isSome hq
  unfold Resolver.resolve
  rw [if_neg hhost, hip]
  dsimp only
  rw [if_neg hservers]
  exact failover_reveals hset hroute henc hdirect hlog none

end

section

variable {chain : Chain} {address t : String} {mark : Int} {interface : String}

/-- What a lookup around the chain may bring. -/
theorem resolves_of_asks {host : String} {port : UInt16} {r : Resolver}
    (hs : splitHostPort address = .ok (host, port)) (hh : chain.hosts.bind (·.lookup host) = none)
    (hr : chain.resolver = some r) (hq : (r.queried host).isSome = true)
    (h : chain.Resolves address t) :
    ∃ ips : List Net.IpAddr, t = match ips.head? with
      | some ip => joinHostPort ip.text port
      | none => address := by
  obtain ⟨hhost, hip, -, -⟩ := queried_isSome hq
  unfold Chain.Resolves at h
  rw [hs] at h
  dsimp only at h
  rw [hh] at h
  dsimp only at h
  rw [if_neg (by simp [hr, hhost]), hip] at h
  rcases h with rfl | ⟨ip, rfl⟩
  · exact ⟨[], rfl⟩
  · exact ⟨[ip], rfl⟩

/-- An address is resolved to what its lookup brings. -/
theorem resolve_found {env : Env} {host : String} {port : UInt16} {r : Resolver}
    (hs : splitHostPort address = .ok (host, port)) (hh : chain.hosts.bind (·.lookup host) = none)
    (hr : chain.resolver = some r) {s s' : Bytes} {log new : List Event}
    {res : Except Failure (List Net.IpAddr)} (hrun : r.resolve env host s log = ⟨res, s', new⟩) :
    ∃ resolved, resolve (chain.lookup env) chain.hosts address s log =
        (⟨.ok resolved, s', new⟩ : Outcome ChainError _ _ _) ∧
      dialled address resolved = match found res with
        | some ip => joinHostPort ip.text port
        | none => address := by
  have hattempt : attempt (r.resolve env host) s log =
      (⟨.ok res, s', new⟩ : Outcome ChainError _ _ _) := by
    rw [attempt, hrun]
  unfold resolve Chain.lookup
  rw [hs, hr]
  dsimp only [Option.map_some]
  rw [hh]
  dsimp only
  rw [bind_ok hattempt]
  rcases res with e | _ | ⟨ip, more⟩ <;> dsimp only [pure_run, found] <;> rw [List.append_nil]
  · exact ⟨address, rfl, dialled_self address⟩
  · exact ⟨address, rfl, dialled_self address⟩
  · exact ⟨_, rfl, dialled_joinHostPort _ _ _⟩

/-- A chain that asks a server around itself violates the options in the world in which the
server answers, if its hops let the answer through. -/
theorem exists_direct_dial {libs : Libs} (hset : sockOpts mark interface ≠ [])
    (hroute : ∀ r ∈ chain.resolver, ∀ route ∈ r.chain, route.OpensFirst)
    (hasks : chain.AsksDirectly libs.urlParse address) (hresolves : chain.Resolves address t)
    (hpasses : chain.passes libs t = true) :
    ∃ env : Env, env.toLibs = libs ∧ ∃ conn s' new,
      chain.dial env address [] [] = ⟨.ok conn, s', new⟩ ∧
        ¬ Applied (sockOpts mark interface) new := by
  obtain ⟨host, port, r, ns, hs, hh, hr, hq, hns, hdirect⟩ := hasks
  obtain ⟨ips, rfl⟩ := resolves_of_asks hs hh hr hq hresolves
  have hreveals : Reveals (sockOpts mark interface) ips ([] ++ [.dial address])
      (r.resolve (wary libs (sockOpts mark interface) ips) host [] ([] ++ [.dial address])) :=
    resolve_reveals hset (hroute r hr) hq ⟨ns, hns, hdirect⟩ nofun
  rcases hrun : r.resolve (wary libs (sockOpts mark interface) ips) host []
    ([] ++ [.dial address]) with ⟨res, s', new⟩
  rw [hrun] at hreveals
  obtain ⟨hnot, hfound⟩ := hreveals
  dsimp only at hfound hnot
  obtain ⟨resolved, hresolve, htarget⟩ := resolve_found hs hh hr hrun
  rw [hfound] at htarget
  have hdial : (chain.dialTarget (wary libs (sockOpts mark interface) ips)
      (dialled address resolved)).Succeeds := by
    rw [htarget]
    exact dialTarget_succeeds wary_unfailing (fun _ _ => wary_finds) hpasses
  obtain ⟨conn, hdialled⟩ := dial_of_resolve hresolve hdial
  refine ⟨wary libs (sockOpts mark interface) ips, rfl, conn, s', _, hdialled, ?_⟩
  rw [← List.cons_append, ← List.singleton_append]
  exact not_applied_append hnot

end

end RtProxy
