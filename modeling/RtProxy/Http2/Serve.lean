import RtProxy.Handler.GostTarget
import RtProxy.Http2.Request

/-!
The HTTP/2 proxy (`serve_request`, and `forward_request` up to the response,
`http2_transport.rs`).

The target of a request is that of its authority, unless a `Gost-Target` decodes.  The head
that is forwarded is put together from the request as it came.
-/

namespace RtProxy
namespace Http2Handler

open Act

section

variable (request : Http2Request)

/-- `request_target`. -/
def requestTarget : Option String :=
  match request.host with
  | none => none
  | some host =>
    let port := match request.port with
      | some port => port
      | none => if request.method = "CONNECT" ∨ request.scheme = some "https" then 443 else 80
    if Text.contains host ':' && !Text.startsWith host "[" then some s!"[{host}]:{portText port}"
    else some s!"{host}:{portText port}"

/-- `header_str`: the first value, if it is text. -/
def headerStr (name : String) : String :=
  match request.headers.find? (·.1 = name) with
  | some (_, some v) => v
  | _ => ""

/-- The port of a target. -/
def portOf (host : String) : String :=
  match Text.cutLast ':' host.toList with
  | some (_, p) => String.ofList p
  | none => "80"

/-- The host that is dialled: a `Gost-Target` overrides the target. -/
def dialled (engine : Sni.Engine) (host : String) : String :=
  if headerStr request "gost-target" = "" then host
  else
    match Sni.decodeServerName engine (headerStr request "gost-target") with
    | some real => if Text.contains real ':' then real else s!"{real}:{portOf host}"
    | none => host

/-- The fields that are forwarded: those of the connection, and values that are no text, are
not. -/
def forwardedFields : List (String × String) :=
  request.headers.filterMap fun (name, value) =>
    if Http2.HOP_BY_HOP.contains (Text.utf8 name) then none else value.map fun v => (name, v)

/-- The path that is forwarded. -/
def path : String := request.pathAndQuery.getD "/"

/-- The head that is forwarded. -/
def head (host : String) : Bytes :=
  Text.utf8 s!"{request.method} {path request} HTTP/1.1\r\n" ++
    Text.utf8 s!"Host: {request.authority.getD host}\r\n" ++
    (forwardedFields request).flatMap (fun (name, v) => Text.utf8 s!"{name}: {v}\r\n") ++
    Text.utf8 "Connection: close\r\n\r\n"

end

section

variable (env : Env) (o : HandlerOptions)
  /- what the h2 crate writes for a status and headers -/
  (frames : Nat → List (String × String) → Bytes)

def proxyAgent : String := if o.proxyAgent = "" then DEFAULT_PROXY_AGENT else o.proxyAgent

/-- `send_status`, whose error is not looked at. -/
def sendStatus (status : Nat) : Action HandlerError Unit := do
  let headers := [("Proxy-Agent", proxyAgent o)] ++
    if status = 407 then [("Proxy-Authenticate", "Basic realm=\"gost\"")] else []
  let _ ← (attempt (reply env (frames status headers)) : Action HandlerError _)
  pure ()

def copyBody (conn : Conn) : List Bytes → Action HandlerError Unit
  | [] => pure ()
  | chunk :: chunks => do
    copy env conn chunk
    copyBody conn chunks

/-- `forward_request` up to the response. -/
def forwardRequest (request : Http2Request) (host : String) (conn : Conn) :
    Action HandlerError Unit := do
  send env conn (head request host)
  copyBody env conn request.body

/-- `serve_request`. -/
def serveRequest (engine : Sni.Engine) (request : Http2Request) : Action HandlerError Unit :=
  match requestTarget request with
  | none => sendStatus env o frames 400
  | some target => do
    let host := dialled request engine target
    if ← bypassed o host then sendStatus env o frames 403
    else
      let creds := basicProxyAuth env.toLibs (headerStr request "proxy-authorization")
      if ← authenticate o creds.2.2 creds.1 creds.2.1 then
        match ← attempt (tries (o.chainOrEmpty.dial env host) (max o.retries 1) .emptyChain) with
        | .error _ => sendStatus env o frames 502
        | .ok conn =>
          if request.method = "CONNECT" then do
            mapErr (fun f => .proxy s!"h2 response failed: {f.text}")
              (env.write (.reply (frames 200 [("Proxy-Agent", proxyAgent o)])))
            splice conn
          else forwardRequest env request host conn
      else sendStatus env o frames 407

end

end Http2Handler
end RtProxy
