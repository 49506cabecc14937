import RtProxy.Handler.Basic
import RtProxy.Sni.ClientHello

/-!
The HTTP proxy server (`HttpHandler` in `http_proxy.rs`).

The request head is read through a buffered reader.  What it has read ahead, which the
world decides, is taken out of it before it is dropped.
-/

namespace RtProxy
namespace HttpHandler

open Act

/-! ## The request head -/

/-- `read_line`: a line with its line feed, or what there is before the end. -/
def readLine : Take String := fun s =>
  match Text.fromUtf8 (Text.cutLine s).1 with
  | some line => .ok (line, (Text.cutLine s).2)
  | none => .error (.io ⟨.invalidData, "stream did not contain valid UTF-8"⟩)

structure Fields where
  headers : List String
  proxyAuth : String
  hostHeader : String
  gostTarget : String
deriving Repr, DecidableEq

/-- The value of a header, if it has the name.  A name without a `k` is as long in any
case as in lower case. -/
def named (header name : String) : Option String :=
  if Text.startsWith (Text.toLowercase header) name then
    some (Text.trim (String.ofList (header.toList.drop name.length)))
  else none

namespace Fields

def empty : Fields := { headers := [], proxyAuth := "", hostHeader := "", gostTarget := "" }

/-- What a line adds.  `Gost-Target` is an artefact of the hop and not forwarded. -/
def add (f : Fields) (line : String) : Fields :=
  match named line "proxy-authorization:" with
  | some auth => { f with headers := f.headers ++ [line], proxyAuth := auth }
  | none =>
    match named line "host:" with
    | some host => { f with headers := f.headers ++ [line], hostHeader := host }
    | none =>
      match named line "gost-target:" with
      | some target => { f with gostTarget := target }
      | none => { f with headers := f.headers ++ [line] }

/-- The first `Host` with another value. -/
def setHost (real : String) : List String → List String
  | [] => []
  | header :: headers =>
    if Text.startsWith (Text.toLowercase header) "host:" then s!"Host: {real}" :: headers
    else header :: setHost real headers

/-- A target that decodes stands in for the `Host`. -/
def redirect (engine : Sni.Engine) (f : Fields) : Fields :=
  if f.gostTarget = "" then f
  else
    match Sni.decodeServerName engine f.gostTarget with
    | some real => { f with headers := setHost real f.headers, hostHeader := real }
    | none => f

end Fields

/-- The lines up to a blank one or the end; there are at most `fuel`. -/
def readFields : Nat → Fields → Take Fields
  | 0, f => pure f
  | fuel + 1, f => do
    let line ← readLine
    if Text.trim line = "" then pure f else readFields fuel (f.add (Text.trim line))

structure Request extends Fields where
  method : String
  target : String
deriving Repr, DecidableEq

/-- All that is read before the reader is dropped; `none` if there is nothing. -/
def readRequest (engine : Sni.Engine) : Take (Option Request) := do
  let line ← readLine
  if line = "" then return none
  match Text.splitWhitespace line with
  | method :: target :: _version :: _ =>
    -- every line but the last takes a byte
    let f ← fun s => readFields (s.length + 1) .empty s
    return some { f.redirect engine with method := method, target := target }
  | _ => throw (.proxy "malformed request")

/-- What the reader holds, once it is dropped. -/
def takeBuffer (env : Env) : Action HandlerError Bytes := do
  let n ← ask env.ahead
  let s ← get
  set (s.drop n)
  pure (s.take n)

namespace Request

section

variable (libs : Libs) (r : Request)

/-- The host that is dialled. -/
def host : String :=
  if r.method = "CONNECT" then r.target
  else
    match libs.urlParse r.target with
    | .ok url => s!"{url.host.getD r.hostHeader}:{(url.port.getD 80).toNat}"
    | .error _ =>
      let h := if r.hostHeader = "" then r.target else r.hostHeader
      if Text.contains h ':' then h else s!"{h}:80"

/-- `origin_form`. -/
def originForm : String :=
  match libs.urlParse r.target with
  | .ok url =>
    if url.host.isSome then
      (if url.path = "" then "/" else url.path) ++
        match url.query with
        | some q => "?" ++ q
        | none => ""
    else r.target
  | .error _ => r.target

/-- A request head with the headers that are kept. -/
def rebuilt (kept : String → Bool) : Bytes :=
  Text.utf8 s!"{r.method} {r.originForm libs} HTTP/1.1\r\n" ++
    (r.headers.filter kept).flatMap (fun header => Text.utf8 s!"{header}\r\n") ++ Text.utf8 "\r\n"

/-- `rebuild_request`: the credentials must not reach the decoy. -/
def rebuildRequest : Bytes :=
  r.rebuilt libs fun header => !Text.startsWith (Text.toLowercase header) "proxy-"

/-- The head that is forwarded. -/
def forwarded : Bytes :=
  r.rebuilt libs fun header =>
    !Text.startsWith (Text.toLowercase header) "proxy-authorization" &&
      !Text.startsWith (Text.toLowercase header) "proxy-connection"

/-- Whether the client asked to keep the connection. -/
def keepAlive : Bool :=
  r.headers.any fun header =>
    Text.startsWith (Text.toLowercase header) "proxy-connection:" &&
      (Text.cutSub "keep-alive".toList (Text.toLowercase header).toList).isSome

end

end Request

/-! ## Probe resistance -/

inductive ProbeResist
  | code (code : UInt16)
  | web (url : String)
  | host (addr : String)
  | file (path : String)
deriving Repr, DecidableEq

def ProbeResist.parse (spec : String) : Option ProbeResist := do
  let (mode, value) ← Text.splitOnce spec ':'
  if value = "" then none
  else if mode = "code" then (Text.parseUnsigned (2 ^ 16) value).map fun n => .code (UInt16.ofNat n)
  else if mode = "web" then some (.web value)
  else if mode = "host" then some (.host value)
  else if mode = "file" then some (.file value)
  else none

def statusText (code : UInt16) : String :=
  if code = 200 then "OK"
  else if code = 400 then "Bad Request"
  else if code = 403 then "Forbidden"
  else if code = 404 then "Not Found"
  else if code = 503 then "Service Unavailable"
  else "OK"

def DAYS : List String := ["Sun", "Mon", "Tue", "Wed", "Thu", "Fri", "Sat"]

def MONTHS : List String :=
  ["Jan", "Feb", "Mar", "Apr", "May", "Jun", "Jul", "Aug", "Sep", "Oct", "Nov", "Dec"]

/-- `{:02}`. -/
def twoDigits (n : Int) : String :=
  if (toString n).length < 2 then "0" ++ toString n else toString n

/-- `http_date`: civil-from-days, in years that begin on the first of March. -/
def httpDate (unixSecs : UInt64) : String :=
  let days : Int := (unixSecs.toNat / 86400 : Nat)
  let secsOfDay : Int := (unixSecs.toNat % 86400 : Nat)
  -- 1970-01-01 was a Thursday
  let weekday := (days + 4) % 7
  let z := days + 719468
  let era := z / 146097
  let doe := z % 146097
  let yoe := (doe - doe / 1460 + doe / 36524 - doe / 146096) / 365
  let doy := doe - (365 * yoe + yoe / 4 - yoe / 100)
  let mp := (5 * doy + 2) / 153
  let d := doy - (153 * mp + 2) / 5 + 1
  let m := if mp < 10 then mp + 3 else mp - 9
  let y := if m ≤ 2 then yoe + era * 400 + 1 else yoe + era * 400
  DAYS.getD weekday.toNat "" ++ ", " ++ twoDigits d ++ " " ++ MONTHS.getD (m - 1).toNat "" ++ " " ++
    toString y ++ " " ++ twoDigits (secsOfDay / 3600) ++ ":" ++
    twoDigits (secsOfDay % 3600 / 60) ++ ":" ++ twoDigits (secsOfDay % 60) ++ " GMT"

example : httpDate 784111777 = "Sun, 06 Nov 1994 08:49:37 GMT" := by decide

/-- `camouflage_headers`, at a date. -/
def camouflageHeaders (date : String) (code : UInt16) (bodyLen : Nat) (contentType : Option String) :
    String :=
  s!"HTTP/1.1 {code} {statusText code}\r\nServer: nginx/1.14.1\r\nDate: {date}\r\n" ++
    (match contentType with
      | some ct => s!"Content-Type: {ct}\r\n"
      | none => "") ++
    s!"Content-Length: {bodyLen}\r\n" ++
    (if code = 200 then "Connection: keep-alive\r\n" else "") ++ "\r\n"

section

variable (env : Env) (o : HandlerOptions)

/-- What an unauthenticated client is shown instead of a 407, unless the request names
the knocking host. -/
def resist (host : String) : Option ProbeResist :=
  if o.knockingHost ≠ "" ∧ Text.toAsciiLowercase ((Text.split host ':').headD host) =
      Text.toAsciiLowercase o.knockingHost then none
  else ProbeResist.parse o.probeResist

/-- The ordinary challenge. -/
def challenge (keepAlive : Bool) : String :=
  "HTTP/1.1 407 Proxy Authentication Required\r\nProxy-Authenticate: Basic realm=\"gost\"\r\n" ++
    (if keepAlive then "Connection: close\r\nProxy-Connection: close\r\n" else "") ++
    "Content-Length: 0\r\n\r\n"

def camouflage (code : UInt16) (bodyLen : Nat) (contentType : Option String) :
    Action HandlerError Unit := do
  let now ← ask env.now
  replyText env (camouflageHeaders (httpDate now) code bodyLen contentType)

/-- The host, the port and the request of a decoy page. -/
def decoyPage (libs : Libs) (url : String) : Except HandlerError (String × UInt16 × Bytes) :=
  match libs.urlParse (if Text.startsWith url "http" then url else s!"http://{url}") with
  | .error e => .error (.proxy s!"invalid probe_resist url: {e}")
  | .ok parsed =>
    if parsed.scheme ≠ "http" then
      .error (.proxy "probe_resist web: only http:// decoys are supported")
    else
      match parsed.host with
      | none => .error (.proxy "probe_resist url has no host")
      | some host =>
        let path := parsed.path ++ match parsed.query with
          | some q => "?" ++ q
          | none => ""
        let target := if path = "" then "/" else path
        .ok (host, parsed.port.getD 80,
          Text.utf8 (s!"GET {target} HTTP/1.1\r\nHost: {host}\r\n" ++
            s!"User-Agent: {DEFAULT_USER_AGENT}\r\nConnection: close\r\n\r\n"))

/-- `fetch_decoy`. -/
def fetchDecoy (url : String) : Action HandlerError Bytes := do
  let (host, port, req) ← ofExcept (decoyPage env.toLibs url)
  let addr := joinHostPort host port
  mapErr .ofFailure (env.perform (.decoy addr))
  send env (.decoy addr) req
  ask env.response

/-- Answers a client that failed authentication. -/
def deny (host : String) (keepAlive : Bool) (requestHead : Bytes) : Action HandlerError Unit :=
  match resist o host with
  | none => replyText env (challenge keepAlive)
  | some (.code code) => camouflage env code 0 none
  | some (.file path) =>
    match env.file path with
    | some body => do
      camouflage env 200 body.length (some "text/html")
      reply env body
    | none => camouflage env 503 0 none
  | some (.web url) => do
    match ← attempt (fetchDecoy env url) with
    | .ok response => reply env response
    | .error _ => camouflage env 503 0 none
  | some (.host addr) => do
    match ← attempt (env.perform (.decoy addr)) with
    | .ok () =>
      send env (.decoy addr) requestHead
      splice (.decoy addr)
    | .error _ => camouflage env 503 0 none

/-! ## The handler -/

def proxyAgent : String := if o.proxyAgent = "" then DEFAULT_PROXY_AGENT else o.proxyAgent

/-- An answer without a body. -/
def answer (status : String) : String :=
  s!"HTTP/1.1 {status}\r\nProxy-Agent: {proxyAgent o}\r\n\r\n"

/-- The connection to the target. -/
def connect (host : String) : Action ChainError Conn :=
  tries (o.chainOrEmpty.dial env host) (if 0 < o.retries then o.retries else 1) .emptyChain

/-- Replays what the client sent together with the head, and joins the two. -/
def replay (pipelined : Bytes) (cc : Conn) : Action HandlerError Unit := do
  when (pipelined ≠ []) (copy env cc pipelined)
  splice cc

def relay (r : Request) (pipelined : Bytes) (cc : Conn) : Action HandlerError Unit :=
  if r.method = "CONNECT" then do
    replyText env (answer o "200 Connection established")
    replay env pipelined cc
  else do
    send env cc (r.forwarded env.toLibs)
    replay env pipelined cc

/-- An error is reported by its text. -/
def dialTarget (r : Request) (pipelined : Bytes) : Action HandlerError Unit := do
  match ← attempt (connect env o (r.host env.toLibs)) with
  | .ok cc => relay env o r pipelined cc
  | .error e =>
    replyText env (answer o "503 Service Unavailable")
    fail (.proxy s!"failed to connect to {r.host env.toLibs}: {e.text}")

def serve (r : Request) (pipelined : Bytes) : Action HandlerError Unit :=
  let host := r.host env.toLibs
  let creds := basicProxyAuth env.toLibs r.proxyAuth
  checked o host (replyText env (answer o "403 Forbidden"))
    (replyText env (answer o "403 Forbidden")) (do
      if ← authenticate o creds.2.2 creds.1 creds.2.1 then dialTarget env o r pipelined
      else deny env o host r.keepAlive (r.rebuildRequest env.toLibs))

def handle (engine : Sni.Engine) : Action HandlerError Unit := do
  match ← take (readRequest engine) with
  | none => pure ()
  | some r => serve env o r (← takeBuffer env)

end

end HttpHandler
end RtProxy
