import RtProxy.Lib.Text

/-!
Proxy nodes and their URLs (`node.rs`).

The `url` crate is a parameter: `UrlParser` stands for `url::Url::parse`, and a
`Url` holds what the code asks a parsed URL for.
-/

namespace RtProxy

/-- A parsed URL.  `port` is `Url::port`, which is absent if it is the default of
the scheme. -/
structure Url where
  scheme : String
  username : String
  password : Option String
  host : Option String
  port : Option UInt16
  path : String
  query : Option String
  queryPairs : List (String × String)
deriving Repr, DecidableEq

abbrev UrlParser := String → Except String Url

inductive ParseNodeError
  | empty
  | invalidUrl (e : String)
deriving Repr, DecidableEq

/-- A node of a proxy chain, or a listener.  `values` holds the query parameters in
order; a later one replaces an earlier one of the same name. -/
structure Node where
  addr : String
  host : String
  protocol : String
  transport : String
  remote : String
  user : Option (String × Option String)
  values : List (String × String)
deriving Repr, DecidableEq

/-- The names that `normalize_transport` knows. -/
def knownTransports : List String :=
  ["https", "tls", "mtls", "http2", "h2", "h2c", "ws", "mws", "wss", "mwss", "kcp", "ssh", "quic",
    "ohttp", "otls", "obfs4", "tcp", "udp", "rtcp", "rudp", "tun", "tap", "ftcp", "dns", "redu",
    "redirectu", "vsock", "ssu"]

def normalizeTransport (t : String) : String :=
  if t = "https" then "tls"
  else if t ∈ knownTransports then if t = "ssu" then "udp" else t
  else "tcp"

def normalizeProtocol (p : String) : String :=
  if p = "https" then "http"
  else if p ∈ ["socks", "socks5"] then "socks5"
  else if p = "ss2" then "ss"
  else if p ∈ ["http", "http2", "socks4", "socks4a", "ss", "ssu", "sni", "tcp", "udp", "rtcp",
      "rudp", "direct", "remote", "forward", "red", "redirect", "redu", "redirectu", "tun", "tap",
      "ftcp", "dns", "dot", "doh", "relay"] then p
  else ""

/-- The authority of a URL, split before the host: what stands before it and what
stands from it on, both without the rest of the URL. -/
def splitAuthority (authority : List Char) : List Char × List Char :=
  match Text.cutLast '@' authority with
  | some (info, hostport) => (info ++ ['@'], hostport)
  | none => ([], authority)

def endsAuthority (c : Char) : Bool := c = '/' || c = '?' || c = '#'

/-- `host:port` exactly as written. -/
def rawHostPort (s : String) : Option String :=
  match Text.cutSub "://".toList s.toList with
  | none => none
  | some (_, rest) =>
    some (String.ofList (splitAuthority (rest.takeWhile fun c => !endsAuthority c)).2)

/-- Puts a host into a URL that has none, as the `url` crate wants one. -/
def insertSentinelHost (s : String) : String × Bool :=
  match Text.cutSub "://".toList s.toList with
  | none => (s, false)
  | some (scheme, rest) =>
    let (info, hostport) := splitAuthority (rest.takeWhile fun c => !endsAuthority c)
    if hostport ≠ [] ∧ hostport.head? ≠ some ':' then (s, false)
    else
      (String.ofList (scheme ++ "://".toList ++ info ++ "0.0.0.0".toList ++ hostport
        ++ rest.dropWhile fun c => !endsAuthority c), true)

/-- The protocol and the transport that a scheme names. -/
def schemeParts (scheme : String) : String × String :=
  match Text.split scheme '+' with
  | [p, t] => (p, t)
  | p :: _ => (p, p)
  | [] => ("", "")

namespace Node

/-- A node string without a scheme is an `auto` one. -/
def withScheme (s : String) : String :=
  if (Text.cutSub "://".toList s.toList).isSome then s else s!"auto://{s}"

/-- The node of a parsed URL; `full` is the string as it was written. -/
def ofUrl (full : String) (u : Url) : Node :=
  { addr := (rawHostPort full).getD (u.host.getD "")
    host := (rawHostPort full).getD (u.host.getD "")
    protocol := normalizeProtocol (schemeParts u.scheme).1
    transport := normalizeTransport (schemeParts u.scheme).2
    remote := Text.trimMatches (· = '/') u.path
    user := if u.username = "" then none else some (u.username, u.password)
    values := u.queryPairs }

def parse (urlParse : UrlParser) (s : String) : Except ParseNodeError Node :=
  if Text.trim s = "" then .error .empty
  else
    match urlParse (insertSentinelHost (withScheme (Text.trim s))).1 with
    | .error e => .error (.invalidUrl e)
    | .ok u => .ok (ofUrl (withScheme (Text.trim s)) u)

/-- A query parameter. -/
def get (node : Node) (key : String) : Option String :=
  (node.values.reverse.find? (·.1 = key)).map (·.2)

/-- `Display`. -/
def text (node : Node) : String :=
  if node.protocol = "" then
    if node.transport = "" ∨ node.transport = "tcp" then s!"auto://{node.addr}"
    else s!"auto+{node.transport}://{node.addr}"
  else if node.protocol = node.transport ∨ node.transport = "tcp" ∨ node.transport = "" then
    s!"{node.protocol}://{node.addr}"
  else s!"{node.protocol}+{node.transport}://{node.addr}"

theorem parse_eq_ok {urlParse : UrlParser} {s : String} {u : Url} (hs : Text.trim s ≠ "")
    (hu : urlParse (insertSentinelHost (withScheme (Text.trim s))).1 = .ok u) :
    parse urlParse s = .ok (ofUrl (withScheme (Text.trim s)) u) := by
  unfold parse
  rw [if_neg hs, hu]

end Node

end RtProxy
