import RtProxy.Durations
import RtProxy.Reload.Bypass
import RtProxy.Resolver.Exchange

/-!
The settings of a resolver (`resolver.rs`).

A reload writes the values of a file, and the options are written over them.  A value that
is overwritten is gone, so an option that is taken back leaves its own value behind until
the next reload.  The flag that disables caching is never taken back.
-/

namespace RtProxy.Resolver

open BypassReload (splitLineRef)

/-! ## Configuration files -/

/-- What a file says, with the times that are not part of an answer. -/
structure FileConfig extends FileValues where
  timeout : Nat
  period : Nat
deriving Repr, DecidableEq

namespace FileConfig

def empty : FileConfig :=
  { servers := [], domain := "", ttl := 0, ttlNegative := false, prefer := "", srcIp := none
    timeout := 0, period := 0 }

def addServer (c : FileConfig) (ns : NameServer) : FileConfig :=
  let protocol :=
    if Text.startsWith ns.addr "https" ∧ ns.protocol = "" then "https" else ns.protocol
  { c with servers := c.servers ++ [{ ns with protocol := protocol }] }

/-- A name server by its address, its protocol and its host name. -/
def server (c : FileConfig) : List String → FileConfig
  | [] => c
  | [addr] => c.addServer ⟨addr, "", ""⟩
  | [addr, protocol] => c.addServer ⟨addr, protocol, ""⟩
  | addr :: protocol :: hostname :: _ => c.addServer ⟨addr, protocol, hostname⟩

end FileConfig

variable (F : Type) [Float64 F]

/-- Whether the duration is below zero; it is zero then. -/
def parseSignedGoDuration (s : String) : Bool × Nat :=
  match Text.dropStart s "-" with
  | some rest => (decide (0 < (parseGoDuration F rest).getD 0), 0)
  | none => (false, (parseGoDuration F s).getD 0)

/-- A keyword without a value is left out. -/
def FileConfig.line (c : FileConfig) (line : String) : FileConfig :=
  match splitLineRef line with
  | [] => c
  | ["timeout"] | ["ttl"] | ["reload"] | ["domain"] | ["prefer"] | ["ip"] | ["nameserver"] => c
  | "timeout" :: value :: _ => { c with timeout := (parseGoDuration F value).getD 0 }
  | "ttl" :: value :: _ =>
    let (neg, d) := parseSignedGoDuration F value
    { c with ttl := d, ttlNegative := neg }
  | "reload" :: value :: _ => { c with period := (parseGoDuration F value).getD 0 }
  | "domain" :: value :: _ => { c with domain := value }
  | "search" :: _ | "sortlist" :: _ | "options" :: _ => c
  | "prefer" :: value :: _ => { c with prefer := Text.toAsciiLowercase value }
  | "ip" :: value :: _ => { c with srcIp := Net.IpAddr.parse value }
  | "nameserver" :: ss => c.server ss
  | ss => c.server ss

def FileConfig.read (lines : List String) : FileConfig :=
  lines.foldl (FileConfig.line F) FileConfig.empty

/-! ## Settings -/

/-- The whole of the state under the lock. -/
structure Settings extends State where
  period : Nat
  timeout : Nat
  optTimeout : Nat
deriving Repr, DecidableEq

namespace Settings

def applyOptions (st : Settings) : Settings :=
  { st with
    toState := st.toState.applyOptions
    timeout := if st.optTimeout ≠ 0 then st.optTimeout else st.timeout }

/-- What `reload_impl` writes. -/
def load (st : Settings) (file : FileConfig) : Settings :=
  applyOptions { st with
    ttl := file.ttl, ttlNegative := file.ttlNegative, timeout := file.timeout
    domain := file.domain, period := file.period, prefer := file.prefer, srcIp := file.srcIp
    servers := file.servers }

end Settings

/-- A resolver; its cache and its chain are no settings. -/
structure Inner where
  state : Settings
  stopped : Bool
deriving Repr, DecidableEq

namespace Inner

/-- A resolver with the values of `c` and no option. -/
def start (c : FileConfig) : Inner :=
  { state :=
      { servers := c.servers, domain := c.domain, ttl := c.ttl, ttlNegative := c.ttlNegative
        prefer := c.prefer, srcIp := c.srcIp, optTtl := 0, optTtlNegative := false, optPrefer := ""
        optSrcIp := none, period := c.period, timeout := c.timeout, optTimeout := 0 }
    stopped := false }

def withServers (servers : List NameServer) : Inner :=
  start { FileConfig.empty with servers := servers }

/-- `Resolver::new`, for the name servers that were read. -/
def new (servers : List NameServer) : Inner :=
  { withServers servers with state := { (withServers servers).state with prefer := "ipv4" } }

/-- The lines of the reader are `none` if one of them cannot be read. -/
def reload (r : Inner) (lines : Option (List String)) : Inner :=
  if r.stopped then r
  else
    match lines with
    | none => r
    | some lines => { r with state := r.state.load (FileConfig.read F lines) }

/-- What is zero or empty leaves its option alone. -/
def init (r : Inner) (timeout ttl : Nat) (prefer : String) (srcIp : Option Net.IpAddr) : Inner :=
  { r with
    state := { r.state with
      optTimeout := if timeout ≠ 0 then timeout else r.state.optTimeout
      optTtl := if ttl ≠ 0 then ttl else r.state.optTtl
      optPrefer := if prefer ≠ "" then Text.toAsciiLowercase prefer else r.state.optPrefer
      optSrcIp := if srcIp.isSome then srcIp else r.state.optSrcIp }.applyOptions }

/-- Disables caching, the way a negative `ttl` in the file does. -/
def setTtlDisabled (r : Inner) : Inner :=
  { r with state := { r.state with optTtlNegative := true, optTtl := 0 }.applyOptions }

def setPrefer (r : Inner) (prefer : String) : Inner :=
  { r with state := { r.state with optPrefer := Text.toAsciiLowercase prefer }.applyOptions }

def setSrcIp (r : Inner) (ip : Option Net.IpAddr) : Inner :=
  { r with state := { r.state with optSrcIp := ip }.applyOptions }

def setTimeout (r : Inner) (timeout : Nat) : Inner :=
  { r with state := { r.state with optTimeout := timeout }.applyOptions }

def stop (r : Inner) : Inner := { r with stopped := true }

end Inner

/-- One call on a resolver. -/
inductive Call
  | reload (lines : Option (List String))
  | init (timeout ttl : Nat) (prefer : String) (srcIp : Option Net.IpAddr)
  | setTtlDisabled
  | setPrefer (prefer : String)
  | setSrcIp (ip : Option Net.IpAddr)
  | setTimeout (timeout : Nat)
  | stop
deriving Repr, DecidableEq

def Inner.call (r : Inner) : Call → Inner
  | .reload lines => r.reload F lines
  | .init timeout ttl prefer srcIp => r.init timeout ttl prefer srcIp
  | .setTtlDisabled => r.setTtlDisabled
  | .setPrefer prefer => r.setPrefer prefer
  | .setSrcIp ip => r.setSrcIp ip
  | .setTimeout timeout => r.setTimeout timeout
  | .stop => r.stop

def Inner.run (r : Inner) (calls : List Call) : Inner := calls.foldl (Inner.call F) r

end RtProxy.Resolver
