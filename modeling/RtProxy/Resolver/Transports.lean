import RtProxy.Handler.Basic
import RtProxy.Lib.HttpMessage
import RtProxy.Io
import RtProxy.Resolver.UdpServer

/-!
How a DNS message travels: over UDP, in frames on a stream, and in an HTTP exchange
(`resolver.rs` for the side that asks, `dns_proxy.rs` for the side that answers).

A stream is what arrives on it, inside TLS if there is TLS.  What a side writes is given as
bytes, and a side that is done closes its stream.
-/

namespace RtProxy.Resolver

open ByteStream Http1 Bytes

def wireErr (msg : String) : IoError := ⟨.invalidData, msg⟩

def ioOther (msg : String) : IoError := ⟨.other, msg⟩

/-! ## UDP -/

/-- How long a reply `exchange_udp` has room for. -/
def udpRoom (query : Bytes) : Nat :=
  max (((Message.decode query).toOption.bind Message.edns0UdpSize).getD
    DEFAULT_UDP_SIZE).toNat 512

/-- `exchange_udp`, for the datagram that comes back; it waits for one until its timeout. -/
def exchangeUdp (query : Bytes) : Option Bytes → Except IoError Bytes
  | some datagram => .ok (datagram.take (udpRoom query))
  | none => .error ⟨.timedOut, "dns udp timeout"⟩

/-! ## Frames on a stream -/

/-- A message behind its length. -/
def framed (bs : Bytes) : Bytes := be 2 bs.length ++ bs

/-- Reads a length and so many bytes. -/
def readFramed (src : Inbound IoError) : Option (Except IoError Bytes) :=
  match readExact 2 src with
  | (some (.ok len), src) => (readExact (beNat len) src).1
  | (out, _) => out

/-- What `exchange_stream` writes. -/
def streamRequest (query : Bytes) : Except IoError Bytes :=
  if 65535 < query.length then .error (wireErr "query too long for TCP framing")
  else .ok (framed query)

/-- `exchange_stream`, for what arrives behind its request. -/
def exchangeStream (query : Bytes) (src : Inbound IoError) : Option (Except IoError Bytes) :=
  match streamRequest query with
  | .error e => some (.error e)
  | .ok _ => readFramed src

/-- What `serve_stream` writes. -/
def serveStream (answer : Except String Bytes) (src : Inbound IoError) :
    Option (Except HandlerError Bytes) :=
  match readFramed src with
  | none => none
  | some (.error e) => some (.error (.io e))
  | some (.ok query) =>
    match exchangeLogged answer query with
    | .error e => some (.error (.proxy e))
    | .ok reply =>
      if 65535 < reply.length then some (.error (.proxy "DNS reply too long for TCP"))
      else some (.ok (framed reply))

/-! ## HTTP: the side that asks -/

def dohPort (url : Url) : UInt16 := url.port.getD (if url.scheme = "http" then 80 else 443)

def dohTarget (url : Url) : String :=
  (if url.path = "" then "/" else url.path) ++
    match url.query with
    | some query => "?" ++ query
    | none => ""

/-- The port is left out if it is the one of the scheme. -/
def dohHostHeader (url : Url) (host : String) : String :=
  if (url.scheme = "http" ∧ dohPort url = 80) ∨ (url.scheme ≠ "http" ∧ dohPort url = 443) then host
  else host ++ ":" ++ toString (dohPort url).toNat

/-- The head of the request, as `exchange_doh` writes it. -/
def dohRequestText (url : Url) (host : String) (len : Nat) : String :=
  "POST " ++ dohTarget url ++ " HTTP/1.1\r\nHost: " ++ dohHostHeader url host ++
    "\r\nContent-Type: application/dns-message\r\n" ++
    "Accept: application/dns-message\r\nContent-Length: " ++ toString len ++
    "\r\nConnection: close\r\n\r\n"

def dohRequest (url : Url) (host : String) (query : Bytes) : Bytes :=
  Text.utf8 (dohRequestText url host query.length) ++ query

def HEAD_LIMIT : Nat := 64 * 1024

def CHUNK : Nat := 2048

theorem chunk_pos : 0 < CHUNK := by decide

/-- The body of a response, which has to be a 200. -/
def readHttpBody (parser : Parser) (src : Inbound IoError) : Option (Except IoError Bytes) :=
  match readHead CHUNK HEAD_LIMIT [] src with
  | (none, _) => none
  | (some (.failed e), _) => some (.error e)
  | (some .ended, _) => some (.error (wireErr "truncated DoH response"))
  | (some .large, _) => some (.error (wireErr "DoH response header too large"))
  | (some (.found buf n), src) =>
    match parser.response (buf.take n) with
    | .error e => some (.error (wireErr ("bad DoH response: " ++ e)))
    | .ok (status, fields) =>
      if status ≠ 200 then some (.error (ioOther ("returned status code " ++ toString status)))
      else
        match lengthField fields with
        | some len => (readBody CHUNK len (buf.drop n) src).1.map (Except.map (·.take len))
        | none => (readToEnd CHUNK chunk_pos (buf.drop n) src).1

/-! ## HTTP: the side that answers -/

inductive DohRequest
  | query (bs : Bytes)
  | status (code : Nat)
deriving Repr, DecidableEq

/-- `u8::from_str_radix` of two bytes, which takes a sign for the first. -/
def hexByte? (a b : UInt8) : Option UInt8 :=
  match hexDigit? b with
  | none => none
  | some lo =>
    match hexDigit? a with
    | some hi => some (UInt8.ofNat (16 * hi + lo))
    | none => if a = 0x2B then some (UInt8.ofNat lo) else none

/-- What is no escape stays as it is. -/
def percentDecodeBytes : Bytes → Bytes
  | [] => []
  | 0x25 :: a :: b :: bs =>
    match hexByte? a b with
    | some byte => byte :: percentDecodeBytes bs
    | none => 0x25 :: percentDecodeBytes (a :: b :: bs)
  | byte :: bs => byte :: percentDecodeBytes bs

def percentDecode (s : String) : String := Text.fromUtf8Lossy (percentDecodeBytes (Text.utf8 s))

def queryPair (pair : String) : String × String := (Text.splitOnce pair '=').getD (pair, "")

/-- The first parameter of a name. -/
def queryParam (target key : String) : Option String := do
  let (_, query) ← Text.splitOnce target '?'
  let (_, value) ← ((Text.split query '&').map queryPair).find? (·.1 = key)
  return percentDecode value

def DNS_MESSAGE : String := "application/dns-message"

/-- Whether a content type is the one of a DNS message, whatever its parameters. -/
def isDnsMessage (contentType : Option String) : Bool :=
  Text.toAsciiLowercase (Text.trim ((Text.split (contentType.getD "") ';').headD "")) = DNS_MESSAGE

/-- The message that a request brings, or the status to answer with. -/
def dohBuffer (base64Url : Bytes → Option Bytes) (method target : String)
    (contentType : Option String) (body : Bytes) : DohRequest :=
  if method = "GET" then
    let param := (queryParam target "dns").getD ""
    if param = "" then .status 400
    else
      match base64Url (Text.utf8 param) with
      | some bs => if bs = [] then .status 400 else .query bs
      | none => .status 400
  else if method = "POST" then
    if isDnsMessage contentType then .query body else .status 415
  else .status 405

/-- `parse_doh_request`.  A query that cannot be read is not passed on. -/
def parseDohRequest (base64Url : Bytes → Option Bytes) (method target : String)
    (contentType : Option String) (body : Bytes) : DohRequest :=
  match dohBuffer base64Url method target contentType body with
  | .status code => .status code
  | .query bs =>
    match Message.decode bs with
    | .ok _ => .query bs
    | .error _ => .status 400

def httpStatusText : Nat → String
  | 200 => "OK"
  | 400 => "Bad Request"
  | 405 => "Method Not Allowed"
  | 415 => "Unsupported Media Type"
  | 500 => "Internal Server Error"
  | _ => "Error"

def httpErrorResponse (code : Nat) : Bytes :=
  let text := httpStatusText code
  Text.utf8 ("HTTP/1.1 " ++ toString code ++ " " ++ text ++
    "\r\nContent-Type: text/plain; charset=utf-8\r\nContent-Length: " ++
    toString (text.utf8ByteSize + 1) ++ "\r\nConnection: close\r\n\r\n" ++ text ++ "\n")

def httpDnsResponse (body : Bytes) : Bytes :=
  Text.utf8 ("HTTP/1.1 200 OK\r\nServer: SDNS\r\nContent-Type: application/dns-message\r\n" ++
    "Content-Length: " ++ toString body.length ++ "\r\nConnection: close\r\n\r\n") ++ body

/-- The response to a request. -/
def dohReply (base64Url : Bytes → Option Bytes) (answer : Except String Bytes) (head : Head)
    (body : Bytes) : Bytes :=
  match parseDohRequest base64Url (Text.fromUtf8Lossy head.method)
      (Text.fromUtf8Lossy head.target) (fieldText (Text.utf8 "content-type") head.fields) body with
  | .status code => httpErrorResponse code
  | .query query =>
    match exchange answer query with
    | .ok reply => httpDnsResponse reply
    | .error _ => httpErrorResponse 500

/-- What `serve_doh_conn` writes. -/
def serveDohConn (parser : Parser) (base64Url : Bytes → Option Bytes)
    (answer : Except String Bytes) (src : Inbound IoError) : Option (Except IoError Bytes) :=
  match readHead CHUNK HEAD_LIMIT [] src with
  | (none, _) => none
  | (some (.failed e), _) => some (.error e)
  | (some .ended, _) => some (.ok [])
  | (some .large, _) => some (.ok (httpErrorResponse 400))
  | (some (.found buf n), src) =>
    match parser.request (buf.take n) with
    | none => some (.ok (httpErrorResponse 400))
    | some head =>
      let len := (lengthField head.fields).getD 0
      (readBody CHUNK len (buf.drop n) src).1.map
        (Except.map fun body => dohReply base64Url answer head (body.take len))

end RtProxy.Resolver
