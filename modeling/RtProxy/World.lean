import RtProxy.Io
import RtProxy.Kcp.Config
import RtProxy.Lib.Act
import RtProxy.Lib.Net
import RtProxy.Node

/-!
What the proxy does to the world, and what the world answers.

A handler serves one client.  Its state is the part of the client's byte stream
that it has not read; everything else it does is an `Event`.  Real time is left
out: a timeout is one of the ways in which the world may answer, and a client or a
server that never answers is one whose stream has ended.
-/

namespace RtProxy

/-- Why an action of the world failed. -/
inductive Failure
  | timeout
  | io (e : IoError)
deriving Repr, DecidableEq

def Failure.text : Failure → String
  | .timeout => "deadline has elapsed"
  | .io e => e.msg

/-- A connection, as the way it was made. -/
inductive Conn
  /-- a TCP socket -/
  | tcp (addr : String)
  /-- a stream of a session that is shared between dials -/
  | stream (transport addr : String)
  /-- an SSH channel of a shared session, which the hop forwards to `target` -/
  | channel (addr target : String)
  /-- a transport over a connection -/
  | layered (transport host : String) (inner : Conn)
  /-- the connection to `target` that a proxy protocol makes of a connection -/
  | via (protocol target : String) (inner : Conn)
  /-- a connection that was accepted -/
  | accepted (peer : String)
  /-- a TCP socket to a probe-resistance decoy -/
  | decoy (addr : String)
deriving Repr, DecidableEq

/-- A handshake that runs over a connection. -/
inductive Handshake
  | tls (host : String)
  | websocket (host : String)
  | obfsTls (host : String)
  | obfsHttp (host : String)
  | http2 (host : String)
  | connector (protocol target : String)
  /-- the method negotiation of a SOCKS5 client -/
  | socks5Methods
  /-- an SSH session, authenticated as the user -/
  | ssh (user : String)
deriving Repr, DecidableEq

/-- An option of a socket. -/
inductive SockOpt
  | mark (mark : Int)
  | interface (name : String)
deriving Repr, DecidableEq

inductive Event
  /-- bytes are written to the client -/
  | reply (bs : Bytes)
  /-- a TLS session is accepted on the client's connection -/
  | acceptTls
  /-- `Can` is asked -/
  | can (action addr : String) (allowed : Bool)
  /-- `Bypass::contains` is asked -/
  | bypass (addr : String) (hit : Bool)
  /-- `Authenticator::authenticate` is asked; `presented` tells whether the client gave
  credentials, as a handler may ask about empty ones in their place -/
  | auth (presented : Bool) (user password : String) (accepted : Bool)
  /-- a dial through the chain begins -/
  | dial (addr : String)
  /-- a call of `dial_once` fails -/
  | failed (addr : String)
  /-- a TCP connection is opened -/
  | connect (addr : String)
  /-- a TCP connection to a probe-resistance decoy is opened -/
  | decoy (addr : String)
  /-- a UDP datagram is sent -/
  | datagram (addr : String)
  /-- the system's resolver is asked for a name, other than to connect to it -/
  | lookup (name : String)
  /-- a local port is bound -/
  | listen (addr : String)
  /-- a connection is accepted on a bound port -/
  | accept
  /-- an option is set on a socket before it connects -/
  | sockopt (opt : SockOpt)
  /-- a handshake runs over a connection -/
  | shake (h : Handshake) (base : Conn)
  /-- a stream or channel is opened on a session -/
  | openStream (c : Conn)
  /-- `layer_transport` has succeeded for a node -/
  | layered (node : Node) (base out : Conn)
  /-- `connect_via` has succeeded for a node -/
  | connected (node : Node) (target : String) (base out : Conn)
  /-- bytes that the handler composed are written to a connection it made -/
  | send (conn : Conn) (bs : Bytes)
  /-- bytes of the client are written to a connection as they came -/
  | copy (conn : Conn) (bs : Bytes)
  /-- the client and a connection are joined until they close; `bs` is what the
  client has still to send -/
  | splice (conn : Conn) (bs : Bytes)
deriving Repr, DecidableEq

/-- A request on an HTTP/2 connection.  A header value that is no text is absent. -/
structure Http2Request where
  method : String
  scheme : Option String
  authority : Option String
  host : Option String
  port : Option UInt16
  pathAndQuery : Option String
  headers : List (String × Option String)
  body : List Bytes
deriving Repr, DecidableEq

/-- What the client of an SSH session asks for. -/
inductive SshRequest
  | password (user password : String)
  | publickey (user key : String)
  | directTcpip (host : String) (port : UInt32)
  | tcpipForward (address : String) (port : UInt32)
deriving Repr, DecidableEq

/-- A datagram that reaches a UDP association. -/
inductive Arrival
  | client (bs : Bytes) (sender : Net.SocketAddr)
  | peer (bs : Bytes) (sender : Net.SocketAddr)
deriving Repr, DecidableEq

/-- What the code asks of the key formats and of the file system. -/
structure Ssh.Keys where
  /-- `read_to_string` -/
  readToString : String → Except String String
  /-- the fingerprint of `PublicKey::from_openssh` -/
  fromOpenssh : String → Except String String
  /-- the fingerprint of `decode_secret_key` -/
  decodeSecretKey : String → Option String → Except String String
  /-- the PEM text of a key that is generated -/
  generateFor : Except String String

/-- The libraries that the code uses. -/
structure Libs where
  urlParse : UrlParser
  /-- the standard alphabet, with padding -/
  base64 : String → Option Bytes
  /-- the URL-safe alphabet, without padding -/
  base64Url : Bytes → Option Bytes
  /-- the stream inside the TLS session on a stream -/
  decrypt : Bytes → Bytes
  /-- the stream inside the cipher of a Shadowsocks listener -/
  decipher : Bytes → Bytes
  /-- the requests of an HTTP/2 connection, in the order they are accepted -/
  http2 : Bytes → Except String (List Http2Request)
  /-- the requests of an SSH session, in the order they arrive -/
  ssh : Bytes → List SshRequest
  /-- why a library does not begin a handshake with what a node asks for: a server name, a
  URI, a header or an idle timeout that it does not take -/
  refuses : Node → Handshake → Option String
  keys : Ssh.Keys
  /-- the settings in a file, as `serde_json` reads them -/
  kcpFile : String → Except String Kcp.KcpConfig
  newCrypt : Kcp.NewCrypt
  setMtu : Kcp.SetMtu

/-- The outside world.  Each answer may depend on everything that happened. -/
structure Env extends Libs where
  /-- whether an action fails -/
  fails : List Event → Event → Option Failure
  /-- whether a write on an open connection fails -/
  breaks : List Event → Event → Option Failure
  /-- whether a pool holds a live session under a key -/
  pooled : List Event → String → Bool
  /-- how many bytes a buffered reader has read ahead -/
  ahead : List Event → Nat
  /-- the answers a resolver's cache holds for a name -/
  cached : List Event → String → Option (List Net.IpAddr)
  /-- what a name server answers -/
  answer : List Event → String → String → Except Failure (List Net.IpAddr)
  /-- what the system resolver answers -/
  lookup : List Event → String → Except Failure (List Net.IpAddr)
  /-- the address of a socket, or of its peer -/
  addrOf : List Event → Net.SocketAddr
  /-- whether the client leaves before a peer is accepted -/
  leaves : List Event → Bool
  /-- how many peers are accepted until a listener fails -/
  peers : List Event → Nat
  /-- the datagrams that reach a UDP association until it is closed -/
  arrivals : List Arrival
  /-- which node of a group its selector picks -/
  pick : List Event → Option Nat
  /-- what a file holds -/
  file : String → Option Bytes
  /-- what a server answers -/
  response : List Event → Bytes
  /-- the seconds since the epoch -/
  now : List Event → UInt64

/-- Libraries that understand nothing and pass every stream on as it is. -/
def Libs.blank : Libs where
  urlParse _ := .error "relative URL without a base"
  base64 _ := none
  base64Url _ := none
  decrypt := id
  decipher := id
  http2 _ := .error "invalid preface"
  ssh _ := []
  refuses _ _ := none
  keys := {
    readToString := fun _ => .error "No such file or directory (os error 2)"
    fromOpenssh := fun _ => .error "invalid format"
    decodeSecretKey := fun _ _ => .error "Could not read key"
    generateFor := .error "no entropy" }
  kcpFile _ := .error "No such file or directory (os error 2)"
  newCrypt _ _ := .error "invalid key length"
  setMtu _ := .ok ()

/-- The world in which every action succeeds, no session is pooled and nobody
else speaks. -/
def Env.calm (libs : Libs) : Env where
  toLibs := libs
  fails _ _ := none
  breaks _ _ := none
  pooled _ _ := false
  ahead _ := 0
  cached _ _ := none
  answer _ _ _ := .ok []
  lookup _ _ := .ok [.v4 Net.Ipv4Addr.unspecified]
  addrOf _ := ⟨.v4 Net.Ipv4Addr.unspecified, 0⟩
  leaves _ := false
  peers _ := 0
  arrivals := []
  pick _ := none
  file _ := none
  response _ := []
  now _ := 0

/-- A program that serves a client. -/
abbrev Action (ε α : Type) := Act ε Bytes Event α

/-- An action of the world that may fail. -/
def Env.perform (env : Env) (e : Event) : Action Failure Unit := Act.perform env.fails e

/-- A write on an open connection, which may fail. -/
def Env.write (env : Env) (e : Event) : Action Failure Unit := Act.perform env.breaks e

/-- Asks the system's resolver for a name. -/
def Env.systemLookup {ε : Type} (env : Env) (name : String) :
    Action ε (Except Failure (List Net.IpAddr)) := do
  Act.emit (.lookup name)
  Act.ask (env.lookup · name)

/-- No action and no write fails. -/
def Env.Unfailing (env : Env) : Prop :=
  ∀ log e, env.fails log e = none ∧ env.breaks log e = none

theorem Env.unfailing_calm (libs : Libs) : (Env.calm libs).Unfailing := fun _ _ => ⟨rfl, rfl⟩

theorem Env.Unfailing.perform {env : Env} (h : env.Unfailing) (e : Event) (s : Bytes)
    (log : List Event) : env.perform e s log = ⟨.ok (), s, [e]⟩ := by
  unfold Env.perform Act.perform
  rw [(h log e).1]

theorem Env.Unfailing.write {env : Env} (h : env.Unfailing) (e : Event) (s : Bytes)
    (log : List Event) : env.write e s log = ⟨.ok (), s, [e]⟩ := by
  unfold Env.write Act.perform
  rw [(h log e).2]

/-- Where something goes that leaves the machine. -/
inductive Destination
  | addr (addr : String)
  /-- the name servers of the system -/
  | system
deriving Repr, DecidableEq

namespace Event

/-- Where a connection, a datagram or a query that leaves the machine goes. -/
def destination : Event → Option Destination
  | .connect addr | .decoy addr | .datagram addr => some (.addr addr)
  | .lookup _ => some .system
  | _ => none

/-- The events of an attempt to dial. -/
def wire : Event → Bool
  | .connect _ | .datagram _ | .lookup _ | .sockopt _ | .shake .. | .openStream _ | .layered ..
  | .connected .. => true
  | _ => false

end Event

end RtProxy
