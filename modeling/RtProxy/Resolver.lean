import RtProxy.World

/-!
The name resolver's view of its name servers (`resolver.rs`).

The wire format and the contents of the cache are the world's; what is modelled is
which server is asked, in which order, and over which connection.
-/

namespace RtProxy

inductive NsProtocol
  | udp
  | tcp
  | tls
  | https
deriving Repr, DecidableEq

/-- The protocol a name server's spelling means, and whether its exchanges are to
go through the chain. -/
def NsProtocol.parse (s : String) : NsProtocol × Bool :=
  let lower := Text.toAsciiLowercase s
  let (base, chained) := match Text.dropEnd lower "-chain" with
    | some b => (b, true)
    | none => (lower, false)
  (if base = "tcp" then .tcp else if base = "tls" then .tls
    else if base = "https" then .https else .udp, chained)

structure NameServer where
  addr : String
  protocol : String
  hostname : String
deriving Repr, DecidableEq

/-- Appends a default port, with brackets around a bare IPv6 literal. -/
def ensurePort (addr defaultPort : String) : String :=
  if addr = "" then addr
  else if Text.startsWith addr "[" then
    if (Text.cutSub "]:".toList addr.toList).isSome then addr else s!"{addr}:{defaultPort}"
  else
    match (addr.toList.filter (· = ':')).length with
    | 0 => s!"{addr}:{defaultPort}"
    | 1 => addr
    | _ => s!"[{addr}]:{defaultPort}"

/-- The host part of `host:port`; a bare IPv6 literal is all host. -/
def hostOf (addr : String) : String :=
  let plain (cs : List Char) : String :=
    match Text.cutLast ':' cs with
    | some (host, _) => if ':' ∈ host then addr else String.ofList host
    | none => addr
  match addr.toList with
  | '[' :: rest =>
    match Text.cutFirst ']' rest with
    | some (host, _) => String.ofList host
    | none => plain addr.toList
  | cs => plain cs

/-- The name with the root label. -/
def fqdn (name : String) : String := if Text.endsWith name "." then name else name ++ "."

/-- What `encode_name` accepts: no label has more than 63 bytes. -/
def encodable (name : String) : Bool :=
  (Text.split name '.').all fun label => (Text.utf8 label).length ≤ 63

namespace NameServer

def protocolKind (ns : NameServer) : NsProtocol × Bool := NsProtocol.parse ns.protocol

def dialAddr (ns : NameServer) : String := ensurePort ns.addr "53"

end NameServer

structure Host where
  ip : Net.IpAddr
  hostname : String
  aliases : List String
deriving Repr, DecidableEq

abbrev Hosts := List Host

/-- Exact matches only; the first entry wins. -/
def Hosts.lookup (hosts : Hosts) (host : String) : Option Net.IpAddr :=
  if host = "" then none
  else (List.find? (fun h => h.hostname = host ∨ host ∈ h.aliases) hosts).map (·.ip)

end RtProxy
