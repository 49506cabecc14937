import RtProxy.Handler.Gate

/-!
The table of the checks, one row for each handler that dials for a connection, and what a
node can rely on.

What a node asks for is text: a file of secrets and two lists of rules.  A listener that is
started with texts that load keeps what they say before every dial and every port that it
binds, where the table has the check, and nowhere else.
-/

namespace RtProxy

open Act

section

variable {env : Env} {libs : Libs} {o : HandlerOptions} {a : Asks} {engine : Sni.Engine}
  {frames : Nat → List (String × String) → Bytes}

namespace Relay

variable {h : RelayHandler} {n : UInt64}

theorem relayTo_dials (t : String) : (relayTo env h t).Emits (Dials t) := by
  refine emits_bind (emits_attempt (dial_dials _ t)) fun res => ?_
  cases res with
  | ok cc => exact (splice_idle cc).mono fun _ => Idle.dials
  | error e => exact (reply_fail_idle _ _).mono fun _ => Idle.dials

/-- What the rules are asked about is what is dialled, if the server has no targets. -/
def asks (group : List Node) : Asks := ⟨if group = [] then ["tcp", "udp"] else [], false, true⟩

theorem network_mem (r : Request) : network r ∈ ["tcp", "udp"] := by
  unfold network
  split_ifs <;> simp

theorem gated_handle : Gated libs h.options (asks h.group) (handle env h n) := by
  have hlet {x : Action HandlerError Unit} (hx : x.Emits Idle) {C : List Event → Prop} :
      Admits (Demand libs h.options (asks h.group)) C x fun _ _ => True :=
    (gated_of_idle hx).mono (fun _ _ => trivial) fun _ _ h => h
  refine admits_bind (gated_of_idle (emits_take _)) fun r => ?_
  refine admits_bind (admits_authenticate lasting_true _ _ _) fun accepted => admits_ite ?_ ?_
  · intro haccepted
    refine Admits.mono (C := LetIn h.options) ?_ (fun log hlog => hlog.2 haccepted) fun _ _ h => h
    refine admits_ite (fun _ => hlet (reply_fail_idle _ _)) fun _ => ?_
    refine admits_bind (admits_can lasting_letIn _ _) fun allowed => admits_ite ?_ ?_
    · intro hallowed
      refine (admits_dialling (C := fun log => LetIn h.options log ∧
          Allowed h.options ["tcp", "udp"] r.features.raddr log) (relayTo_dials _)
        (lasting_letIn.and lasting_allowed) (fun _ hlog _ => hlog.1) fun log hlog => ?_).mono
          (fun log hlog => ⟨hlog.1, network r, network_mem r, hlog.2 hallowed⟩) fun _ _ h => h
      refine ⟨fun hne => ?_, fun hno => nomatch hno⟩
      have hgroup : h.group = [] := by
        by_contra hcons
        exact hne (if_neg hcons)
      have htarget : h.target n r.features.raddr = r.features.raddr := by
        unfold RelayHandler.target
        rw [nextNode_eq_none.mpr hgroup]
      rw [htarget, asks, if_pos hgroup]
      exact hlog.2
    · exact fun _ => hlet (reply_fail_idle _ _)
  · exact fun _ => hlet (reply_fail_idle _ _)

end Relay

/-! The handlers that only read a target. -/

theorem gated_dialChecked {t : String} {bypass : Action HandlerError Unit}
    (hbypass : bypass.Emits Idle) : Gated libs o ⟨["tcp"], true, false⟩ (dialChecked env o t bypass) := by
  refine admits_checked lasting_true (gated_of_idle (emits_fail _)) (gated_of_idle hbypass) ?_
  refine admits_dialling (t := t) ?_ (lasting_true.and lasting_passed) (fun _ _ h => nomatch h)
    fun _ h => h.2.cleared
  refine emits_bind (emits_attempt (dial_dials _ t)) fun res => ?_
  cases res with
  | ok cc => exact (splice_idle cc).mono fun _ => Idle.dials
  | error e => exact emits_fail _

theorem Ss.ShadowHandler.gated_handle : Gated libs o ⟨["tcp"], true, false⟩ (handle env o) := by
  refine admits_bind (gated_of_idle emits_get) fun s => ?_
  refine admits_bind (gated_of_idle (emits_set _)) fun _ => ?_
  exact admits_bind (gated_of_idle (emits_take _)) fun t => gated_dialChecked (emits_fail _)

theorem TcpRedirectHandler.gated_handle (originalDst localAddr : Option Net.SocketAddr) :
    Gated libs o ⟨["tcp"], true, false⟩ (handle env o originalDst localAddr) := by
  cases originalDst with
  | none => exact gated_of_idle (emits_fail _)
  | some dst =>
    exact admits_ite (fun _ => gated_of_idle (emits_fail _)) fun _ =>
      gated_dialChecked (emits_pure _)

/-- A handler that asks for credentials meets the demands of one that does not. -/
theorem Gated.anyone {ε α : Type} {x : Action ε α} {actions : List String} {bypass : Bool}
    (h : Gated libs o ⟨actions, bypass, true⟩ x) : Gated libs o ⟨actions, bypass, false⟩ x := by
  refine Admits.weaken h fun e log hdemand => ?_
  have hno (p : Prop) : false = true → p := fun h => nomatch h
  cases e with
  | dial addr => exact ⟨⟨hdemand.1.rules, hdemand.1.bypass⟩, hno _⟩
  | listen addr => exact ⟨hdemand.1, hno _⟩
  | connect | datagram | openStream | lookup => exact hno _
  | decoy => exact hdemand
  | _ => trivial

theorem Sni.SniHandler.gated_handle : Gated env.toLibs o ⟨["tcp"], true, false⟩ (handle env o engine) := by
  have hforward (rewritten : Option Bytes) (n : Nat) (t : String) :
      Gated env.toLibs o ⟨["tcp"], true, false⟩ (forward env o rewritten n t) := by
    refine admits_checked lasting_true (gated_of_idle (emits_fail _))
      (gated_of_idle (emits_pure _)) ?_
    refine admits_dialling (t := t) ?_ (lasting_true.and lasting_passed) (fun _ _ h => nomatch h)
      fun _ h => h.2.cleared
    refine emits_bind (emits_attempt (dial_dials _ t)) fun res => ?_
    cases res with
    | ok cc =>
      refine Emits.mono (p := Idle) ?_ fun _ => Idle.dials
      exact emits_bind (emits_take _) fun _ => emits_bind (send_idle _ _) fun _ => splice_idle _
    | error e => exact emits_fail _
  refine admits_bind (gated_of_idle (peek_idle 1)) fun first => ?_
  cases first with
  | nil => exact gated_of_idle (emits_fail _)
  | cons b rest =>
    refine admits_ite (fun _ => ?_) fun _ => HttpHandler.gated_handle.anyone
    refine admits_bind (gated_of_idle (peek_idle _)) fun recordHead => ?_
    refine admits_ite (fun _ => gated_of_idle (emits_fail _)) fun _ => ?_
    refine admits_ite (fun _ => gated_of_idle (emits_fail _)) fun _ => ?_
    refine admits_bind (gated_of_idle (peek_idle _)) fun buf => ?_
    exact admits_ite (fun _ => gated_of_idle (emits_fail _)) fun _ => hforward _ _ _

theorem TcpDirectForwardHandler.gated_handle (shared : Shared) (h : TcpDirectForwardHandler) :
    Gated libs o ⟨[], false, false⟩ (handle env shared h) := by
  have hselect (node : GroupNode) : (select shared node).Emits Idle := by
    refine emits_bind (emits_ask _) fun group => emits_bind (emits_ask _) fun surroundings => ?_
    refine emits_ite (emits_pure _) ?_
    split
    · exact emits_pure _
    · exact emits_fail _
  have hattempts (n : Nat) (node : GroupNode) (last : Option ChainError) :
      (attempts env shared h n node last).Emits fun e => ∃ t, Dials t e := by
    induction n generalizing node last with
    | zero => exact emits_pure _
    | succ n ih =>
      refine emits_bind ((hselect node).mono fun _ he => ⟨"", he.dials⟩) fun node => ?_
      refine emits_bind (emits_attempt ((dial_dials _ _).mono fun _ he => ⟨_, he⟩)) fun res => ?_
      cases res with
      | ok cc => exact emits_pure _
      | error e => exact ih node (some e)
  have hall : (handle env shared h).Emits fun e => ∃ t, Dials t e := by
    refine emits_bind (hattempts _ _ _) fun res => ?_
    cases res with
    | ok cc => exact (splice_idle cc).mono fun _ he => ⟨"", he.dials⟩
    | error last => exact emits_fail _
  refine (admits_of_emits hall lasting_true fun e he log _ => ?_).mono (fun _ h => h)
    fun _ _ _ => trivial
  obtain ⟨t, rfl | he⟩ := he
  · exact ⟨⟨fun hne => absurd rfl hne, fun h => nomatch h⟩, fun h => nomatch h⟩
  · exact demand_of_inner he fun h => nomatch h

/-- A protocol without credentials is not told apart where some are needed. -/
theorem AutoHandler.gated_handle : Gated env.toLibs o ⟨["tcp"], true, true⟩ (handle env o engine) := by
  refine admits_bind (gated_of_idle (peek_idle 1)) fun first => ?_
  cases first with
  | nil => exact gated_of_idle (emits_fail _)
  | cons b rest =>
    refine admits_ite (fun _ => Socks5.gated_handle) fun _ => ?_
    refine admits_ite (fun _ => ?_) fun _ => HttpHandler.gated_handle
    refine admits_ite (fun _ => gated_of_idle (emits_fail _)) fun hopen => ?_
    refine Admits.weaken (@Socks4.gated_handle env env.toLibs o) fun e log hdemand => ?_
    have hin : true = true → LetIn o log := by
      intro _ hsome
      exact absurd (show o.requiresAuth = true by simp [HandlerOptions.requiresAuth, hsome]) hopen
    cases e with
    | dial addr => exact ⟨⟨hdemand.1.rules, hdemand.1.bypass⟩, hin⟩
    | listen addr => exact ⟨hdemand.1, hin⟩
    | connect | datagram | openStream | lookup => exact hin
    | decoy => exact hdemand
    | _ => trivial

end

/-! ## The table -/

/-- What a handler may check before it dials for a client. -/
inductive Check
  | rules
  | bypass
  | user
deriving Repr, DecidableEq

namespace Proto

/-- The protocols whose handlers dial a target for each connection.  The others connect by
themselves (`rtcp`), pass datagrams on or serve an SSH session. -/
def dialling : List Proto := [http, http2, socks4, socks5, auto, sni, ss, red, relay, tcp]

/-- The checks of a handler, whose listener may have targets of its own. -/
def checks (targets : Bool) : Proto → List Check
  | http | socks5 | auto => [.rules, .bypass, .user]
  | http2 => [.bypass, .user]
  | socks4 | sni | ss | red => [.rules, .bypass]
  | relay => if targets then [.user] else [.rules, .user]
  | _ => []

/-- The actions for which the rules may allow a target. -/
def actions : Proto → List String
  | relay => ["tcp", "udp"]
  | _ => ["tcp"]

/-- The same as a demand on the trace. -/
def asks (targets : Bool) (p : Proto) : Asks where
  actions := if .rules ∈ p.checks targets then p.actions else []
  bypass := .bypass ∈ p.checks targets
  user := .user ∈ p.checks targets

end Proto

/-- The listener has targets of its own. -/
def hasTargets (remote : String) : Bool := (Relay.RelayHandler.new remote .empty).group ≠ []

theorem Relay.asks_new (remote : String) (o : HandlerOptions) :
    Relay.asks (RelayHandler.new remote o).group = Proto.relay.asks (hasTargets remote) := by
  show Relay.asks (RelayHandler.new remote .empty).group = _
  unfold Relay.asks hasTargets
  by_cases hgroup : (RelayHandler.new remote .empty).group = []
  · simp [hgroup, Proto.asks, Proto.checks, Proto.actions]
  · simp [hgroup, Proto.asks, Proto.checks]

theorem Front.gated (env : Env) (o : HandlerOptions) (engine : Sni.Engine)
    (frames : Nat → List (String × String) → Bytes) (remote : String) (f : Front) :
    Gated env.toLibs o (f.proto.asks (hasTargets remote)) (f.run env o engine frames remote) := by
  cases f with
  | http => exact HttpHandler.gated_handle
  | http2 request => exact Http2Handler.gated_serveRequest request
  | socks4 => exact Socks4.gated_handle
  | socks5 => exact Socks5.gated_handle
  | auto => exact AutoHandler.gated_handle
  | sni => exact Sni.SniHandler.gated_handle
  | shadow => exact Ss.ShadowHandler.gated_handle
  | redirect originalDst localAddr => exact TcpRedirectHandler.gated_handle _ _
  | relay n =>
    rw [Front.proto, ← Relay.asks_new remote o]
    exact Relay.gated_handle (h := .new remote o)
  | forward ip b shared => exact TcpDirectForwardHandler.gated_handle _ _

/-! ## Who can have a target dialled -/

/-- Credentials are needed, and none are accepted. -/
def AdmitsNobody (o : HandlerOptions) : Prop :=
  o.authenticator.isSome = true ∧ ∀ user password, o.accepts user password = false

/-- What leaves the machine or is bound on it, other than a connection to the decoy of the
options. -/
def Outward (libs : Libs) (o : HandlerOptions) : Event → Prop
  | .dial _ | .listen _ | .connect _ | .datagram _ | .openStream _ | .lookup _ => True
  | .decoy addr => ¬ IsDecoy libs o addr
  | _ => False

/-- A handler that serves the protocol reaches outward for a client that cannot be let in. -/
def OpenToStrangers (p : Proto) : Prop :=
  ∃ (env : Env) (o : HandlerOptions) (engine : Sni.Engine)
    (frames : Nat → List (String × String) → Bytes) (remote : String) (f : Front) (s : Bytes)
    (e : Event), AdmitsNobody o ∧ f.proto = p ∧ Outward env.toLibs o e ∧
      e ∈ (f.run env o engine frames remote s []).events

section

variable {libs : Libs} {o : HandlerOptions} {a : Asks} {e : Event} {log : List Event}

theorem not_letIn (h : AdmitsNobody o) (log : List Event) : ¬ LetIn o log := by
  intro hin
  obtain ⟨presented, user, password, hacc, -⟩ := hin h.1
  rw [h.2 user password] at hacc
  cases hacc

/-- What a handler that asks for credentials demands of a step outward. -/
theorem letIn_of_outward (hout : Outward libs o e) (huser : a.user = true)
    (h : Demand libs o a e log) : LetIn o log := by
  cases e with
  | dial | listen => exact h.2 huser
  | connect | datagram | openStream | lookup => exact h huser
  | decoy => exact absurd h hout
  | _ => exact hout.elim

end

/-- Asks for credentials that nobody has. -/
def closedDoor : HandlerOptions :=
  { HandlerOptions.empty with authenticator := some ⟨fun _ _ => false⟩ }

theorem admitsNobody_closedDoor : AdmitsNobody closedDoor := ⟨rfl, fun _ _ => rfl⟩

/-- A forwarder with one target, which has not failed. -/
def fresh (remote : String) : Shared where
  group _ := (TcpDirectForwardHandler.new remote none ⟨"", 0, DEFAULT_FAIL_TIMEOUT, 0⟩ .empty).group
  surroundings _ := FilterSelector.noon

/-- Each of these names `10.0.0.1:80` or, in a ClientHello, `secret.example`. -/
theorem open_of_dial {f : Front} {s : Bytes} {t : String} (remote : String)
    (h : .dial t ∈ (f.run (Env.calm Libs.blank) closedDoor Sni.urlSafeNoPad (fun _ _ => []) remote
      s []).events) : OpenToStrangers f.proto :=
  ⟨_, closedDoor, _, _, remote, f, s, .dial t, admitsNobody_closedDoor, rfl, trivial, h⟩

/-- Among the protocols that dial, those are open to strangers whose handler does not ask. -/
theorem open_to_strangers_iff {p : Proto} (hp : p ∈ Proto.dialling) :
    OpenToStrangers p ↔ p ∈ [.socks4, .sni, .ss, .red, .tcp] := by
  constructor
  · intro h
    obtain ⟨env, o, engine, frames, remote, f, s, e, hnobody, rfl, hout, hmem⟩ := h
    obtain ⟨pre, post, heq⟩ := List.append_of_mem hmem
    have hdemand : Demand env.toLibs o (f.proto.asks (hasTargets remote)) e pre :=
      (f.gated env o engine frames remote).guarded trivial s pre e post heq
    have huser : (f.proto.asks (hasTargets remote)).user = false := by
      refine Bool.eq_false_iff.mpr fun huser => ?_
      exact not_letIn hnobody _ (letIn_of_outward hout huser hdemand)
    cases f with
    | http | http2 | socks5 | auto => cases huser
    | relay => cases hremote : hasTargets remote <;> rw [hremote] at huser <;> cases huser
    | _ => simp [Front.proto]
  · intro h
    simp only [List.mem_cons, List.not_mem_nil, or_false] at h
    rcases h with rfl | rfl | rfl | rfl | rfl
    · refine @open_of_dial .socks4 [4, 1, 0, 80, 10, 0, 0, 1, 0] "10.0.0.1:80" "" ?_
      show _ ∈ (Socks4.handle _ _ _ _).events
      decide
    · refine @open_of_dial .sni Sni.secretParts.bytes "secret.example:443" "" ?_
      show _ ∈ (Sni.SniHandler.handle _ _ _ _ _).events
      decide
    · refine @open_of_dial .shadow [1, 10, 0, 0, 1, 0, 80] "10.0.0.1:80" "" ?_
      show _ ∈ (Ss.ShadowHandler.handle _ _ _ _).events
      decide
    · refine @open_of_dial (.redirect (some ⟨.v4 (.ofOctets [10, 0, 0, 1]), 80⟩) none) []
        "10.0.0.1:80" "" ?_
      show _ ∈ (TcpRedirectHandler.handle _ _ _ _ _ _).events
      decide
    · refine @open_of_dial (.forward none ⟨"", 0, DEFAULT_FAIL_TIMEOUT, 0⟩ (fresh "10.0.0.1:80")) []
        "10.0.0.1:80" "10.0.0.1:80" ?_
      show _ ∈ (TcpDirectForwardHandler.handle _ _ _ _ _).events
      decide

/-- A relay server does ask. -/
theorem relay_not_open : ¬ OpenToStrangers .relay := by
  rw [open_to_strangers_iff (by decide)]
  decide

/-! ## What a node can rely on -/

namespace Server

section

variable (file : String → Option Bytes) (node : Node) (libs : Libs) (o : HandlerOptions)

/-- The rules, as they are written, admit the address for the action. -/
def RulesAdmit (action addr : String) : Prop :=
  ∃ host port, HostPort (ported addr) host port ∧
    (∀ text, node.get "whitelist" = some text → Means text action host port) ∧
    ∀ text, node.get "blacklist" = some text → ¬ Means text action host port

/-- They have been asked for one of the actions. -/
def Consulted (actions : List String) (addr : String) (log : List Event) : Prop :=
  ∃ action ∈ actions, RulesAdmit node action addr ∧ .can action addr true ∈ log

/-- The client has given a user and a password of the file. -/
def Known (log : List Event) : Prop :=
  ∀ path, node.get "secrets" = some path → ∃ presented user password,
    InFile file path user password ∧ .auth presented user password true ∈ log

/-- What a check says before an event, in the words of the node. -/
def Promise (actions : List String) : Check → Event → List Event → Prop
  | .rules, .dial addr, log => Consulted node actions addr log
  | .rules, .listen _, log => ∃ addr, Consulted node ["rtcp", "udp", "rudp"] addr log
  | .bypass, .dial addr, log => NotBypassed o addr log
  | .user, e, log => Outward libs o e → Known file node log
  | _, _, _ => True

end

/-- Every listener of the protocol that is started with texts that load keeps the promise,
whatever a client sends and however the world answers. -/
def Keeps (targets : Bool) (p : Proto) (c : Check) : Prop :=
  ∀ (pats : Patterns) (file : String → Option Bytes) (keys : Ssh.Keys)
    (listen : Node → Except String Unit) (hosts : Option Hosts) (resolver : Option Resolver)
    (node : Node) (chain : Chain) (o : HandlerOptions),
    runServer pats file keys listen hosts resolver node chain = .ok o → Loadable file node →
      Proto.of node = p → hasTargets node.remote = targets →
    ∀ (env : Env) (engine : Sni.Engine) (frames : Nat → List (String × String) → Bytes)
      (f : Front) (s : Bytes), f.proto = p →
      Guarded (Promise file node env.toLibs o p.actions c) []
        (f.run env o engine frames node.remote s []).events

section

variable {pats : Patterns} {file : String → Option Bytes} {hosts : Option Hosts}
  {resolver : Option Resolver} {node : Node} {chain : Chain} {libs : Libs} {targets : Bool}
  {p : Proto} {c : Check} {log : List Event}

theorem parsed_rules {key : String}
    (h : ∀ text, node.get key = some text → ∃ ps, Permissions.parse text = .ok ps) :
    Parsed (node.get key) (rules node key) := by
  unfold rules
  cases hget : node.get key with
  | none => trivial
  | some text =>
    obtain ⟨ps, hps⟩ := h text hget
    show Parsed (some text) (Permissions.parse text).toOption
    rw [hps]
    exact hps

/-- What the options allow is what the texts admit. -/
theorem allows_iff (hload : Loadable file node) (action addr : String) :
    (buildHandlerOptions pats file hosts resolver node chain).allows action addr = true ↔
      RulesAdmit node action addr := by
  have hw := parsed_rules hload.whitelist
  have hb := parsed_rules hload.blacklist
  show Can action addr (rules node "whitelist") (rules node "blacklist") = true ↔ _
  simp only [RtProxy.can_iff, hw.can_iff, hb.can_iff, address_iff, HostPort, true_iff,
    Bool.false_eq_true, false_iff, RulesAdmit]

theorem consulted_of_allowed (hload : Loadable file node) {actions : List String} {addr : String}
    (h : Allowed (buildHandlerOptions pats file hosts resolver node chain) actions addr log) :
    Consulted node actions addr log := by
  obtain ⟨action, hmem, hallows, hcan⟩ := h
  exact ⟨action, hmem, (allows_iff hload action addr).mp hallows, hcan⟩

/-- Whoever is let in is in the file. -/
theorem known_of_letIn (hload : Loadable file node)
    (h : LetIn (buildHandlerOptions pats file hosts resolver node chain) log) :
    Known file node log := by
  intro path hpath
  have henforces : Enforces file node (buildHandlerOptions pats file hosts resolver node chain) :=
    enforces_iff.mpr hload
  obtain ⟨au, hau, hinFile⟩ := henforces.secrets path hpath
  obtain ⟨presented, user, password, hacc, hmem⟩ := h (by rw [hau]; rfl)
  refine ⟨presented, user, password, hinFile user password ?_, hmem⟩
  unfold HandlerOptions.accepts at hacc
  rw [hau] at hacc
  exact hacc

theorem promise_of_demand (hload : Loadable file node) (hc : c ∈ p.checks targets) {e : Event}
    (h : Demand libs (buildHandlerOptions pats file hosts resolver node chain) (p.asks targets) e
      log) :
    Promise file node libs (buildHandlerOptions pats file hosts resolver node chain) p.actions c e
      log := by
  cases c with
  | rules =>
    have hactions : (p.asks targets).actions = p.actions := if_pos hc
    cases e with
    | dial addr =>
      have hne : (p.asks targets).actions ≠ [] := by
        rw [hactions]
        cases p <;> exact List.cons_ne_nil _ _
      have hallowed := h.1.rules hne
      rw [hactions] at hallowed
      exact consulted_of_allowed hload hallowed
    | listen addr =>
      obtain ⟨t, hallowed⟩ := h.1
      exact ⟨t, consulted_of_allowed hload hallowed⟩
    | _ => trivial
  | bypass =>
    cases e with
    | dial addr => exact h.1.bypass (decide_eq_true hc)
    | _ => trivial
  | user => exact fun hout => known_of_letIn hload (letIn_of_outward hout (decide_eq_true hc) h)

/-- The checks that a handler makes. -/
theorem keeps_of_check (hc : c ∈ p.checks targets) : Keeps targets p c := by
  intro pats file keys listen hosts resolver node chain o hstart hload _ htargets env engine frames
    f s hproto
  have ho : o = buildHandlerOptions pats file hosts resolver node chain := by
    rcases @runServer_cases pats file keys listen hosts resolver node chain with
      ⟨-, e, he⟩ | ⟨-, hok⟩
    · rw [he] at hstart
      cases hstart
    · exact (Except.ok.inj (hok.symm.trans hstart)).symm
  have hgated := f.gated env o engine frames node.remote
  rw [hproto, htargets, ho] at hgated
  rw [ho]
  intro pre e post heq
  exact promise_of_demand hload hc (hgated.guarded trivial s pre e post heq)

end

/-! ## What it cannot rely on -/

/-- The user `a` with the password `b`. -/
def usersFile (path : String) : Option Bytes :=
  if path = "users.txt" then some (Text.utf8 "a b\n") else none

/-- Asks for one check only. -/
def asking (c : Check) (protocol remote : String) : Node :=
  { Node.empty with
    addr := ":1080"
    host := ":1080"
    protocol := protocol
    remote := remote
    values := match c with
      | .rules => [("whitelist", "tcp:10.0.0.1:80")]
      | .bypass => [("bypass", "10.0.0.8")]
      | .user => [("secrets", "users.txt")] }

/-- The options that it is served with. -/
def askingOptions (c : Check) (protocol remote : String) : HandlerOptions :=
  buildHandlerOptions plainPatterns usersFile none none (asking c protocol remote) .empty

theorem loadable_asking (c : Check) (protocol remote : String) :
    Loadable usersFile (asking c protocol remote) where
  secrets path h := by
    have hload : loadSecretsFile usersFile "users.txt" = some ⟨[("a", "b")]⟩ := by decide
    cases c with
    | user =>
      rw [show path = "users.txt" from (Option.some.inj h).symm]
      refine ⟨_, hload, List.cons_ne_nil _ _, fun user => ?_⟩
      simp only [LocalAuthenticator.get, List.reverse_singleton, List.find?_singleton]
      split_ifs <;> simp
    | rules | bypass => cases h
  whitelist text h := by
    cases c with
    | rules =>
      rw [show text = "tcp:10.0.0.1:80" from (Option.some.inj h).symm]
      exact ⟨[⟨["tcp"], ["10.0.0.1"], [⟨80, 80⟩]⟩], by decide⟩
    | bypass | user => cases h
  blacklist text h := by
    cases c with
    | rules | bypass | user => cases h

/-- The check has said something about a dial. -/
def Check.speaks (t : String) : Check → Event → Bool
  | .rules, .can _ addr allowed => allowed && addr = t
  | .bypass, .bypass addr hit => !hit && addr = t
  | .user, .auth _ _ _ accepted => accepted
  | _, _ => false

/-- A dial about which the check has said nothing. -/
def Unasked (c : Check) (t : String) (events : List Event) : Prop :=
  .dial t ∈ events ∧ ∀ e ∈ events, Check.speaks t c e = false

instance (c : Check) (t : String) (events : List Event) : Decidable (Unasked c t events) :=
  inferInstanceAs (Decidable (_ ∧ _))

/-- What the listener does with the connection. -/
def askingRun (c : Check) (protocol remote : String) (f : Front) (s : Bytes) : List Event :=
  (f.run (Env.calm Libs.blank) (askingOptions c protocol remote) Sni.urlSafeNoPad (fun _ _ => [])
    remote s []).events

theorem not_keeps_of_unasked {c : Check} {targets : Bool} {f : Front} {protocol remote : String}
    {s : Bytes} {t : String} (hstart : newHandler Ssh.blankKeys (asking c protocol remote)
      (askingOptions c protocol remote) = .ok ())
    (hproto : Proto.of (asking c protocol remote) = f.proto) (htargets : hasTargets remote = targets)
    (h : Unasked c t (askingRun c protocol remote f s)) : ¬ Keeps targets f.proto c := by
  intro hkeeps
  have hrun : runServer plainPatterns usersFile Ssh.blankKeys (fun _ => .ok ()) none none
      (asking c protocol remote) .empty = .ok (askingOptions c protocol remote) := by
    unfold runServer
    rw [show ensureListenerTransportSupported (asking c protocol remote) = .ok () from rfl]
    rw [show newHandler Ssh.blankKeys (asking c protocol remote) (buildHandlerOptions plainPatterns
      usersFile none none (asking c protocol remote) .empty) = .ok () from hstart]
    rfl
  have hguard := hkeeps plainPatterns usersFile Ssh.blankKeys (fun _ => .ok ()) none none
    (asking c protocol remote) .empty _ hrun (loadable_asking c protocol remote) hproto htargets
    (Env.calm Libs.blank) Sni.urlSafeNoPad (fun _ _ => []) f s rfl
  obtain ⟨pre, post, heq⟩ := List.append_of_mem h.1
  have hpromise := hguard pre _ post heq
  rw [List.nil_append] at hpromise
  have hquiet : ∀ e ∈ pre, Check.speaks t c e = false := by
    intro e he
    refine h.2 e ?_
    rw [heq]
    exact List.mem_append_left _ he
  cases c with
  | rules =>
    obtain ⟨action, -, -, hcan⟩ := hpromise
    simpa [Check.speaks] using hquiet _ hcan
  | bypass =>
    obtain ⟨-, hbypass⟩ := hpromise rfl
    simpa [Check.speaks] using hquiet _ hbypass
  | user =>
    obtain ⟨presented, user, password, -, hauth⟩ := hpromise trivial "users.txt" rfl
    simpa [Check.speaks] using hquiet _ hauth

/-- A request for a port that the rules do not name. -/
def elsewhere : Http2Request :=
  { method := "CONNECT"
    scheme := none
    authority := some "10.0.0.2:80"
    host := some "10.0.0.2"
    port := some 80
    pathAndQuery := none
    headers := []
    body := [] }

/-- A forwarder with the remote address of its listener. -/
def forwarding (remote : String) : Front :=
  .forward none ⟨"", 0, DEFAULT_FAIL_TIMEOUT, 0⟩ (fresh remote)

section

variable {targets : Bool}

/-- A remote address with targets or without. -/
def remoteOf (targets : Bool) : String := if targets then "10.0.0.9:9" else ""

theorem hasTargets_remoteOf : hasTargets (remoteOf targets) = targets := by
  cases targets <;> decide

theorem http2_unasked : ¬ Keeps targets .http2 .rules := by
  have h : Unasked .rules "10.0.0.2:80" (askingRun .rules "http2" "" (.http2 elsewhere) []) := by
    decide +kernel
  exact @not_keeps_of_unasked .rules targets (.http2 elsewhere) "http2" (remoteOf targets) [] _ rfl
    rfl hasTargets_remoteOf h

theorem strangers_unasked {p : Proto} (hp : p ∈ [.socks4, .sni, .ss, .red]) :
    ¬ Keeps targets p .user := by
  simp only [List.mem_cons, List.not_mem_nil, or_false] at hp
  rcases hp with rfl | rfl | rfl | rfl
  · have h : Unasked .user "10.0.0.1:80"
        (askingRun .user "socks4" "" .socks4 [4, 1, 0, 80, 10, 0, 0, 1, 0]) := by
      decide +kernel
    exact @not_keeps_of_unasked .user targets .socks4 "socks4" (remoteOf targets) _ _ rfl rfl
      hasTargets_remoteOf h
  · have h : Unasked .user "secret.example:443"
        (askingRun .user "sni" "" .sni Sni.secretParts.bytes) := by
      decide +kernel
    exact @not_keeps_of_unasked .user targets .sni "sni" (remoteOf targets) _ _ rfl rfl
      hasTargets_remoteOf h
  · have h : Unasked .user "10.0.0.1:80"
        (askingRun .user "ss" "" .shadow [1, 10, 0, 0, 1, 0, 80]) := by
      decide +kernel
    have hcipher : newHandler Ssh.blankKeys (asking .user "ss" (remoteOf targets))
        (askingOptions .user "ss" (remoteOf targets)) = .ok () := by
      cases targets <;> decide +kernel
    exact @not_keeps_of_unasked .user targets .shadow "ss" (remoteOf targets) _ _ hcipher rfl
      hasTargets_remoteOf h
  · have h : Unasked .user "10.0.0.1:80" (askingRun .user "red" ""
        (.redirect (some ⟨.v4 (.ofOctets [10, 0, 0, 1]), 80⟩) none) []) := by
      decide +kernel
    exact @not_keeps_of_unasked .user targets
      (.redirect (some ⟨.v4 (.ofOctets [10, 0, 0, 1]), 80⟩) none) "red" (remoteOf targets) _ _ rfl
      rfl hasTargets_remoteOf h

theorem forward_unasked (c : Check) : ¬ Keeps targets .tcp c := by
  have h : ∀ targets, Unasked c (remoteOf targets)
      (askingRun c "tcp" (remoteOf targets) (forwarding (remoteOf targets)) []) := by
    cases c <;> decide +kernel
  exact @not_keeps_of_unasked c targets (forwarding (remoteOf targets)) "tcp" (remoteOf targets) _ _
    (by cases c <;> rfl) (by cases c <;> rfl) hasTargets_remoteOf (h targets)

theorem relay_unasked : ¬ Keeps true .relay .rules ∧ ¬ Keeps targets .relay .bypass := by
  have hread := @take_ok _ _ Event _ _ [] [] _ _ Relay.readRequest_asking
  constructor
  · have h : Unasked .rules "10.0.0.9:9"
        (askingRun .rules "relay" "10.0.0.9:9" (.relay 0) Relay.asking) := by
      show Unasked _ _ (Relay.handle _ _ _ _ _).events
      unfold Relay.handle
      rw [bind_silent hread]
      decide +kernel
    exact @not_keeps_of_unasked .rules true (.relay 0) "relay" "10.0.0.9:9" _ _ rfl rfl
      (@hasTargets_remoteOf true) h
  · have h : ∀ targets, Unasked .bypass (if targets then "10.0.0.9:9" else "10.0.0.1:80")
        (askingRun .bypass "relay" (remoteOf targets) (.relay 0) Relay.asking) := by
      intro targets
      show Unasked _ _ (Relay.handle _ _ _ _ _).events
      unfold Relay.handle
      rw [bind_silent hread]
      cases targets <;> decide +kernel
    exact @not_keeps_of_unasked .bypass targets (.relay 0) "relay" (remoteOf targets) _ _ rfl rfl
      hasTargets_remoteOf (h targets)

end

/-- A listener keeps the promises that its handler checks, and no others. -/
theorem keeps_iff_checks {p : Proto} (hp : p ∈ Proto.dialling) (targets : Bool) (c : Check) :
    Keeps targets p c ↔ c ∈ p.checks targets := by
  refine ⟨fun hkeeps => ?_, keeps_of_check⟩
  by_contra hc
  simp only [Proto.dialling, List.mem_cons, List.not_mem_nil, or_false] at hp
  rcases hp with rfl | rfl | rfl | rfl | rfl | rfl | rfl | rfl | rfl | rfl
  · cases c <;> simp [Proto.checks] at hc
  · cases c <;> simp [Proto.checks] at hc
    exact http2_unasked hkeeps
  · cases c <;> simp [Proto.checks] at hc
    exact strangers_unasked (by decide) hkeeps
  · cases c <;> simp [Proto.checks] at hc
  · cases c <;> simp [Proto.checks] at hc
  · cases c <;> simp [Proto.checks] at hc
    exact strangers_unasked (by decide) hkeeps
  · cases c <;> simp [Proto.checks] at hc
    exact strangers_unasked (by decide) hkeeps
  · cases c <;> simp [Proto.checks] at hc
    exact strangers_unasked (by decide) hkeeps
  · cases c <;> cases targets <;> simp [Proto.checks] at hc
    · exact (@relay_unasked true).1 hkeeps
    · exact relay_unasked.2 hkeeps
    · exact relay_unasked.2 hkeeps
  · exact forward_unasked c hkeeps

/-- A SOCKS5 listener with a file of users, and a relay server with targets and rules. -/
theorem keeps_users : Keeps false .socks5 .user ∧ ¬ Keeps true .relay .rules :=
  ⟨(keeps_iff_checks (by decide) false .user).mpr (by decide),
    fun h => absurd ((keeps_iff_checks (by decide) true .rules).mp h) (by decide)⟩

end Server
end RtProxy
