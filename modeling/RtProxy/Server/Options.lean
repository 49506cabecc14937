import RtProxy.Lib.Checked
import RtProxy.Server.Transport
import RtProxy.Ssh.Auth

/-!
From the command line or a route of the configuration to the options of a handler
(`start_from_cli`, `start_from_config` and `build_handler_options` in `main.rs`).

The hosts table and the resolver that a listener names are inputs.
-/

namespace RtProxy

/-- `Chain::new`: a group for each node. -/
def Chain.new (nodes : List Node) : Chain := { Chain.empty with groups := nodes.map ([·]) }

namespace Server

/-! ## The chain -/

structure Cli where
  forward : List String
  mark : Int
  interface : Option String
deriving Repr, DecidableEq

/-- A route of the configuration. -/
structure RouteConfig where
  chainNodes : List String
  retries : Nat
  mark : Int
  interface : String
deriving Repr, DecidableEq

inductive LaunchError
  | node (e : ParseNodeError)
  | refused (msg : String)
deriving Repr, DecidableEq

/-- Where the chain of a listener comes from. -/
inductive Launch
  | cli (cli : Cli)
  | route (route : RouteConfig)
deriving Repr, DecidableEq

section

variable (urlParse : UrlParser)

def parseNodes : List String → Except LaunchError (List Node)
  | [] => .ok []
  | s :: rest =>
    match Node.parse urlParse s with
    | .error e => .error (.node e)
    | .ok node =>
      match ensureChainTransportSupported node with
      | .error msg => .error (.refused msg)
      | .ok () => (parseNodes rest).map (node :: ·)

/-- The chain of `start_from_cli`. -/
def Cli.chain (cli : Cli) : Except LaunchError Chain :=
  if cli.forward = [] then .ok .empty
  else
    (parseNodes urlParse cli.forward).map fun nodes =>
      { Chain.new nodes with mark := cli.mark, interface := cli.interface.getD "" }

/-- The chain of `start_from_config`. -/
def RouteConfig.chain (route : RouteConfig) : Except LaunchError Chain :=
  if route.chainNodes = [] then .ok .empty
  else
    (parseNodes urlParse route.chainNodes).map fun nodes =>
      { Chain.new nodes with
        retries := route.retries, mark := route.mark, interface := route.interface }

namespace Launch

def chain : Launch → Except LaunchError Chain
  | .cli c => c.chain urlParse
  | .route r => r.chain urlParse

/-- The nodes that are written. -/
def nodes : Launch → List String
  | .cli c => c.forward
  | .route r => r.chainNodes

/-- The mark that is configured. -/
def mark : Launch → Int
  | .cli c => c.mark
  | .route r => r.mark

/-- The interface that is configured. -/
def interface : Launch → String
  | .cli c => c.interface.getD ""
  | .route r => r.interface

end Launch

end

/-! ## The options -/

/-- A cast of an `i64` to `usize`. -/
def asUsize (n : Int) : Nat := (n % 2 ^ 64).toNat

section

variable (pats : Patterns) (file : String → Option Bytes) (hosts : Option Hosts)
  (resolver : Option Resolver) (node : Node)

def bypass : Option Bypass :=
  (node.get "bypass").map fun s =>
    match Text.dropStart s "~" with
    | some patterns => .fromPatterns pats true ((Text.split patterns ',').filter (· ≠ ""))
    | none => .fromPatterns pats false ((Text.split s ',').filter (· ≠ ""))

/-- The rules of a whitelist or a blacklist; those that are not parsed are left out. -/
def rules (key : String) : Option Permissions :=
  (node.get key).bind fun s => (Permissions.parse s).toOption

def retries : Nat := asUsize (node.getInt "retry")

/-- The chain with the settings of the listener. -/
def listenerRoute (chain : Chain) : Route :=
  { chain.toRoute with
    hosts := hosts, retries := if 0 < retries node then retries node else chain.retries }

/-- The resolver dials its servers through a copy of the chain, without a resolver. -/
def initResolver (route : Route) (r : Resolver) : Resolver :=
  { r with
    chain := some route
    prefer := if (node.get "prefer").getD "" ≠ "" then
      Text.toAsciiLowercase ((node.get "prefer").getD "") else r.prefer }

/-- The chain of a listener. -/
def listenerChain (chain : Chain) : Chain :=
  { listenerRoute hosts node chain with
    resolver := resolver.map (initResolver node (listenerRoute hosts node chain)) }

def buildHandlerOptions (chain : Chain) : HandlerOptions where
  chain := some (listenerChain hosts resolver node chain)
  users := node.user.toList
  authenticator := (buildAuthenticator file node).map LocalAuthenticator.toAuthenticator
  whitelist := rules node "whitelist"
  blacklist := rules node "blacklist"
  bypass := bypass pats node
  retries := retries node
  host := (node.get "host").getD ""
  proxyAgent := (node.get "proxyAgent").getD ""
  probeResist := (node.get "probe_resist").getD ""
  knockingHost := (node.get "knock").getD ""

end

/-! ## What a launch makes of its nodes -/

section

variable {urlParse : UrlParser} {launch : Launch} {chain : Chain}

theorem length_parseNodes {ss : List String} {nodes : List Node}
    (h : parseNodes urlParse ss = .ok nodes) : nodes.length = ss.length := by
  induction ss generalizing nodes with
  | nil =>
    cases h
    rfl
  | cons s rest ih =>
    unfold parseNodes at h
    split at h
    · cases h
    · split at h
      · cases h
      · cases hrest : parseNodes urlParse rest with
        | error e =>
          rw [hrest] at h
          cases h
        | ok more =>
          rw [hrest] at h
          cases h
          rw [List.length_cons, List.length_cons, ih hrest]

theorem nodes_new (nodes : List Node) : (Chain.new nodes).nodes = nodes := by
  show (nodes.map ([·])).filterMap (·.head?) = nodes
  rw [List.filterMap_map]
  exact List.filterMap_some

theorem isEmpty_new (nodes : List Node) : (Chain.new nodes).isEmpty = nodes.isEmpty := by
  cases nodes <;> rfl

/-- A launch without nodes has a chain without settings. -/
theorem chain_of_nodes_eq_nil (h : launch.chain urlParse = .ok chain) (hnil : launch.nodes = []) :
    chain = .empty := by
  cases launch <;>
  · unfold Launch.chain Cli.chain RouteConfig.chain at h
    simp only [Launch.nodes] at hnil
    simp only [hnil, if_true, Except.ok.injEq] at h
    exact h.symm

/-- The chain of a launch with nodes has what is configured. -/
theorem chain_of_nodes_ne_nil (h : launch.chain urlParse = .ok chain) (hne : launch.nodes ≠ []) :
    chain.isEmpty = false ∧ chain.mark = launch.mark ∧ chain.interface = launch.interface ∧
      ∃ first rest, chain.nodes = first :: rest := by
  obtain ⟨nodes, hlen, hempty, hnodes, hmark, hinterface⟩ : ∃ nodes : List Node,
      nodes.length = launch.nodes.length ∧ chain.isEmpty = nodes.isEmpty ∧ chain.nodes = nodes ∧
        chain.mark = launch.mark ∧ chain.interface = launch.interface := by
    cases launch with
    | cli cli =>
      have hforward : cli.forward ≠ [] := hne
      simp only [Launch.chain, Cli.chain, if_neg hforward] at h
      cases hn : parseNodes urlParse cli.forward with
      | error e =>
        rw [hn] at h
        cases h
      | ok nodes =>
        rw [hn] at h
        cases h
        exact ⟨nodes, length_parseNodes hn, isEmpty_new nodes, nodes_new nodes, rfl, rfl⟩
    | route route =>
      have hforward : route.chainNodes ≠ [] := hne
      simp only [Launch.chain, RouteConfig.chain, if_neg hforward] at h
      cases hn : parseNodes urlParse route.chainNodes with
      | error e =>
        rw [hn] at h
        cases h
      | ok nodes =>
        rw [hn] at h
        cases h
        exact ⟨nodes, length_parseNodes hn, isEmpty_new nodes, nodes_new nodes, rfl, rfl⟩
  cases nodes with
  | nil => exact absurd (List.eq_nil_of_length_eq_zero hlen.symm) hne
  | cons first rest => exact ⟨hempty, hmark, hinterface, first, rest, hnodes⟩

end

end Server
end RtProxy
