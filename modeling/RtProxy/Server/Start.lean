import RtProxy.Permissions.Rules
import RtProxy.Server.Options
import RtProxy.Ss.Stream

/-!
A listener from its node to the options that it serves with (`run_server` in `main.rs`).

What the transport needs to start (its socket, its certificates, its own settings) is an
input, of which only the error matters here.
-/

namespace RtProxy

namespace Server

inductive StartError
  | refused (msg : String)
  | proxy (msg : String)
  | ssh (e : Ssh.SshError)
  | listener (msg : String)
deriving Repr, DecidableEq

section

variable (pats : Patterns) (file : String → Option Bytes) (keys : Ssh.Keys)
  (listen : Node → Except String Unit) (hosts : Option Hosts) (resolver : Option Resolver)

/-- The cipher of a Shadowsocks listener. -/
def ssMethod (node : Node) : String :=
  ((node.user.map (·.1)).filter (· ≠ "")).getD ((node.get "method").getD "plain")

/-- The handler of the protocol is built; two of them may fail. -/
def newHandler (node : Node) (o : HandlerOptions) : Except StartError Unit :=
  if node.protocol ∈ ["ss", "ssu"] then
    match Ss.SsCipher.fromName (ssMethod node) with
    | some _ => .ok ()
    | none => .error (.proxy s!"unknown shadowsocks cipher: {ssMethod node}")
  else if node.protocol = "forward" then
    match Ssh.SshForwardHandler.new keys o (.fromNode node) with
    | .ok _ => .ok ()
    | .error e => .error (.ssh e)
  else .ok ()

def RUDP_THROUGH_CHAIN (node : Node) : String :=
  "`-L rudp://` through a chain is not implemented (in " ++ node.text ++ "); the port " ++
    "would have to be bound at the far end over a SOCKS5 UDP association, " ++
    "and binding it locally would listen on the wrong host"

/-- `run_server` up to where it serves, and the options that it serves with. -/
def runServer (node : Node) (chain : Chain) : Except StartError HandlerOptions :=
  match ensureListenerTransportSupported node with
  | .error msg => .error (.refused msg)
  | .ok () =>
    match newHandler keys node (buildHandlerOptions pats file hosts resolver node chain) with
    | .error e => .error e
    | .ok () =>
      if node.transport = "rudp" ∧ chain.isEmpty = false then
        .error (.refused (RUDP_THROUGH_CHAIN node))
      else
        match listen node with
        | .error msg => .error (.listener msg)
        | .ok () => .ok (buildHandlerOptions pats file hosts resolver node chain)

end

/-! ## What a listener enforces -/

/-- The pair is that of a line of the file. -/
def InFile (file : String → Option Bytes) (path user password : String) : Prop :=
  ∃ content au, file path = some content ∧ LocalAuthenticator.reload content = .ok au ∧
    (user, password) ∈ au.kvs

/-- The rules are there, and decide what their text means. -/
def EnforcesRules (text : String) (rules : Option Permissions) : Prop :=
  ∃ ps, rules = some ps ∧ ∀ action host port, ps.can action host port = true ↔
    Means text action host port

/-- The options enforce what the node asks for. -/
structure Enforces (file : String → Option Bytes) (node : Node) (o : HandlerOptions) : Prop where
  secrets : ∀ path, node.get "secrets" = some path → ∃ au, o.authenticator = some au ∧
    ∀ user password, au.authenticate user password = true → InFile file path user password
  whitelist : ∀ text, node.get "whitelist" = some text → EnforcesRules text o.whitelist
  blacklist : ∀ text, node.get "blacklist" = some text → EnforcesRules text o.blacklist

/-- The secrets file can be read, has an entry, and no user's last entry is without a
password; and the rules parse. -/
structure Loadable (file : String → Option Bytes) (node : Node) : Prop where
  secrets : ∀ path, node.get "secrets" = some path →
    ∃ au, loadSecretsFile file path = some au ∧ Ssh.Restrictive au
  whitelist : ∀ text, node.get "whitelist" = some text → ∃ ps, Permissions.parse text = .ok ps
  blacklist : ∀ text, node.get "blacklist" = some text → ∃ ps, Permissions.parse text = .ok ps

/-- The listener is refused before it serves. -/
def Refuses (keys : Ssh.Keys) (listen : Node → Except String Unit) (node : Node) (chain : Chain)
    (o : HandlerOptions) : Prop :=
  ensureListenerTransportSupported node ≠ .ok () ∨ newHandler keys node o ≠ .ok () ∨
    (node.transport = "rudp" ∧ chain.isEmpty = false) ∨ listen node ≠ .ok ()

section

variable {pats : Patterns} {file : String → Option Bytes} {keys : Ssh.Keys}
  {listen : Node → Except String Unit} {hosts : Option Hosts} {resolver : Option Resolver}
  {node : Node} {chain : Chain}

variable (pats file) in
/-- A server that is not refused serves with the options that were built. -/
theorem runServer_cases :
    (Refuses keys listen node chain (buildHandlerOptions pats file hosts resolver node chain) ∧
      ∃ e, runServer pats file keys listen hosts resolver node chain = .error e) ∨
    (¬ Refuses keys listen node chain (buildHandlerOptions pats file hosts resolver node chain) ∧
      runServer pats file keys listen hosts resolver node chain =
        .ok (buildHandlerOptions pats file hosts resolver node chain)) := by
  have hne {ε : Type} (e : ε) : (Except.error e : Except ε Unit) ≠ .ok () := fun h => by cases h
  unfold runServer Refuses
  cases ensureListenerTransportSupported node with
  | error msg => exact .inl ⟨.inl (hne msg), _, rfl⟩
  | ok =>
    cases newHandler keys node (buildHandlerOptions pats file hosts resolver node chain) with
    | error e => exact .inl ⟨.inr (.inl (hne e)), _, rfl⟩
    | ok =>
      by_cases hrudp : node.transport = "rudp" ∧ chain.isEmpty = false
      · refine .inl ⟨.inr (.inr (.inl hrudp)), .refused (RUDP_THROUGH_CHAIN node), ?_⟩
        dsimp only
        rw [if_pos hrudp]
      · dsimp only
        rw [if_neg hrudp]
        cases listen node with
        | error msg => exact .inl ⟨.inr (.inr (.inr (hne msg))), _, rfl⟩
        | ok => exact .inr ⟨by simp [hrudp], rfl⟩

theorem enforcesRules_iff {key text : String} (h : node.get key = some text) :
    EnforcesRules text (rules node key) ↔ ∃ ps, Permissions.parse text = .ok ps := by
  unfold rules
  rw [h]
  constructor
  · rintro ⟨ps, hps, -⟩
    have hparse : (Permissions.parse text).toOption = some ps := hps
    cases hp : Permissions.parse text with
    | error e =>
      rw [hp] at hparse
      cases hparse
    | ok ps' => exact ⟨ps', rfl⟩
  · rintro ⟨ps, hparse⟩
    refine ⟨ps, ?_, fun action host port => Permissions.can_iff hparse action host port⟩
    show (Permissions.parse text).toOption = some ps
    rw [hparse]
    rfl

theorem loadSecretsFile_eq_some {path : String} {au : LocalAuthenticator} :
    loadSecretsFile file path = some au ↔
      ∃ content, file path = some content ∧ LocalAuthenticator.reload content = .ok au := by
  unfold loadSecretsFile
  cases file path with
  | none => simp
  | some content =>
    cases hload : LocalAuthenticator.reload content with
    | error e => simp [hload]
    | ok au' => simp [hload]

theorem enforcesSecrets_iff {path : String} :
    (∃ au, (loadSecretsFile file path).map LocalAuthenticator.toAuthenticator = some au ∧
      ∀ user password, au.authenticate user password = true → InFile file path user password) ↔
      ∃ au, loadSecretsFile file path = some au ∧ Ssh.Restrictive au := by
  constructor
  · rintro ⟨_, hau, henforces⟩
    obtain ⟨au, hload, rfl⟩ := Option.map_eq_some_iff.mp hau
    refine ⟨au, hload, ?_⟩
    obtain ⟨password, hfresh⟩ := Ssh.exists_fresh (au.kvs.map (·.2))
    refine Ssh.restrictive_of_rejects password fun user hacc => hfresh ?_
    obtain ⟨content, au', hfile, hreload, hmem⟩ := henforces user password hacc
    obtain ⟨content', hfile', hreload'⟩ := loadSecretsFile_eq_some.mp hload
    cases hfile.symm.trans hfile'
    cases hreload.symm.trans hreload'
    exact List.mem_map.mpr ⟨_, hmem, rfl⟩
  · rintro ⟨au, hload, hrestrictive⟩
    refine ⟨au.toAuthenticator, by rw [hload]; rfl, fun user password hacc => ?_⟩
    obtain ⟨content, hfile, hreload⟩ := loadSecretsFile_eq_some.mp hload
    exact ⟨content, au, hfile, hreload, Ssh.mem_of_authenticate hrestrictive hacc⟩

theorem enforces_iff :
    Enforces file node (buildHandlerOptions pats file hosts resolver node chain) ↔
      Loadable file node := by
  have hauth {path : String} (h : node.get "secrets" = some path) :
      (buildHandlerOptions pats file hosts resolver node chain).authenticator =
        (loadSecretsFile file path).map LocalAuthenticator.toAuthenticator := by
    show (buildAuthenticator file node).map _ = _
    rw [buildAuthenticator, h]
  constructor
  · intro h
    refine ⟨fun path hp => ?_, fun text ht => ?_, fun text ht => ?_⟩
    · have hsecrets := h.secrets path hp
      rw [hauth hp] at hsecrets
      exact enforcesSecrets_iff.mp hsecrets
    · exact (enforcesRules_iff ht).mp (h.whitelist text ht)
    · exact (enforcesRules_iff ht).mp (h.blacklist text ht)
  · intro h
    refine ⟨fun path hp => ?_, fun text ht => ?_, fun text ht => ?_⟩
    · rw [hauth hp]
      exact enforcesSecrets_iff.mpr (h.secrets path hp)
    · exact (enforcesRules_iff ht).mpr (h.whitelist text ht)
    · exact (enforcesRules_iff ht).mpr (h.blacklist text ht)

end

/-- A listener fails to start or enforces what its node asks for exactly if it is refused for
another reason, or its secrets file and its rules load. -/
theorem starts_closed_iff (pats : Patterns) (file : String → Option Bytes) (keys : Ssh.Keys)
    (listen : Node → Except String Unit) (hosts : Option Hosts) (resolver : Option Resolver)
    (node : Node) (chain : Chain) :
    ((∃ e, runServer pats file keys listen hosts resolver node chain = .error e) ∨
      ∃ o, runServer pats file keys listen hosts resolver node chain = .ok o ∧
        Enforces file node o) ↔
      Refuses keys listen node chain (buildHandlerOptions pats file hosts resolver node chain) ∨
        Loadable file node := by
  rcases runServer_cases pats file with ⟨hrefuses, herror⟩ | ⟨hnot, hok⟩
  · exact iff_of_true (.inl herror) (.inl hrefuses)
  · rw [hok]
    constructor
    · rintro (⟨e, he⟩ | ⟨o, ho, henforces⟩)
      · cases he
      · cases ho
        exact .inr (enforces_iff.mp henforces)
    · rintro (hrefuses | hload)
      · exact absurd hrefuses hnot
      · exact .inr ⟨_, rfl, enforces_iff.mpr hload⟩

/-- Patterns without wildcards and networks. -/
def plainPatterns : Patterns where
  globMatch pattern s := pattern = s
  ipNet _ := none

/-- `-L http://:8080?<key>=<value>`. -/
def httpListener (key value : String) : Node :=
  { Node.empty with addr := ":8080", host := ":8080", protocol := "http", values := [(key, value)] }

/-- A secrets file that is not there, and rules with a slip, leave the checks out. -/
theorem starts_open :
    (∃ o, runServer plainPatterns (fun _ => none) Ssh.blankKeys (fun _ => .ok ()) none none
        (httpListener "secrets" "users.txt") .empty = .ok o ∧ o.authenticator = none ∧
          ¬ Enforces (fun _ => none) (httpListener "secrets" "users.txt") o) ∧
      ∃ o, runServer plainPatterns (fun _ => none) Ssh.blankKeys (fun _ => .ok ()) none none
        (httpListener "whitelist" "tcp:*") .empty = .ok o ∧ o.whitelist = none ∧
          ¬ Enforces (fun _ => none) (httpListener "whitelist" "tcp:*") o := by
  refine ⟨⟨_, rfl, rfl, fun h => ?_⟩, _, rfl, rfl, fun h => ?_⟩
  · obtain ⟨au, hau, -⟩ := h.secrets "users.txt" (by decide)
    cases hau
  · obtain ⟨ps, hps, -⟩ := h.whitelist "tcp:*" (by decide)
    cases hps

end Server
end RtProxy
