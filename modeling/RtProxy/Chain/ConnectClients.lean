import RtProxy.Chain.Connect
import RtProxy.Chain.ResponseHead
import RtProxy.Lib.Decoded
import RtProxy.Lib.LineReader
import RtProxy.Transport

/-!
The clients of CONNECT and of the upgrade (`chain.rs`, `http_proxy.rs`, `obfs_transport.rs`).

Each writes a request, reads the head of the response in its own way and hands on what is
behind it.  One looks at the second word of the first line, one looks for the number
anywhere in that line, and one looks for it anywhere in the head.
-/

namespace RtProxy

open ByteStream AsyncRead Http1

/-! ## Calls on a connection -/

/-- Goes on with what a call returned. -/
def andThen {ε α β σ : Type} (x : Option (Except ε α) × σ)
    (f : α → σ → Option (Except ε β) × σ) : Option (Except ε β) × σ :=
  match x with
  | (some (.ok a), s) => f a s
  | (some (.error e), s) => (some (.error e), s)
  | (none, s) => (none, s)

/-- A call that touches one part of the state, with its error as the caller has it. -/
def onPart {ε ε' α σ τ : Type} (err : ε → ε') (put : τ → σ) (x : Option (Except ε α) × τ) :
    Option (Except ε' α) × σ :=
  (x.1.map fun out => out.mapError err, put x.2)

namespace Grants

/-- How often the transport is going to be pending. -/
def waits (dst : Outbound IoError) : Nat :=
  dst.grants.countP fun g => match g with
    | .pending => true
    | _ => false

end Grants

/-- `write_all`; `none` waits for ever. -/
def writeAll (bs : Bytes) (dst : Outbound IoError) :
    Option (Except IoError Unit) × Outbound IoError :=
  let (out, _, dst) := await (fun s : Cursor × Outbound IoError => drainOut writeZeroErr s.1 s.2)
    (fun s => Grants.waits s.2) (.ofBytes bs, dst)
  (out, dst)

/-- `flush`. -/
def flushAll (dst : Outbound IoError) : Option (Except IoError Unit) × Outbound IoError :=
  await Outbound.finish Grants.waits dst

/-! ## `chain.rs` -/

def httpConnect (base64 : Bytes → String) (stream : ProxyConn) (dst : Outbound IoError)
    (target : String) (user : Option (String × Option String)) :
    Option (Except ChainError Unit) × ProxyConn × Outbound IoError :=
  andThen (onPart .io (stream, ·) (writeAll (httpConnectRequest base64 target user) dst))
    fun _ (stream, dst) =>
  andThen (onPart id (·, dst) (readResponseHead stream)) fun head s =>
  let statusLine := Text.firstLine head
  let code := (Text.splitWhitespace statusLine)[1]?.getD ""
  if code = "200" then (some (.ok ()), s)
  else (some (.error (.proxyError s!"HTTP CONNECT failed: {statusLine}")), s)

/-! ## `http_proxy.rs` -/

structure HttpConnector where
  user : Option (String × Option String)
deriving Repr, DecidableEq

namespace HttpConnector

/-- `read_line`. -/
def readText (reader : LineReader (Inbound IoError)) :
    Option (Except IoError String) × LineReader (Inbound IoError) :=
  andThen reader.readLine fun line reader =>
  match Text.fromUtf8 line with
  | some text => (some (.ok text), reader)
  | none => (some (.error ⟨.invalidData, "stream did not contain valid UTF-8"⟩), reader)

/-- Reads the headers up to an empty line; there are at most `fuel` lines. -/
def skipHeaders : Nat → LineReader (Inbound IoError) →
    Option (Except IoError Unit) × LineReader (Inbound IoError)
  | 0, reader => (some (.ok ()), reader)
  | fuel + 1, reader =>
    andThen (readText reader) fun line reader =>
    if Text.trim line = "" then (some (.ok ()), reader) else skipHeaders fuel reader

/-- What is read for the response; every line but the last takes a byte. -/
def readResponse (reader : LineReader (Inbound IoError)) :
    Option (Except HandlerError Unit) × LineReader (Inbound IoError) :=
  andThen (onPart .io id (readText reader)) fun statusLine reader =>
  if Text.hasSub statusLine "200" = false then
    (some (.error (.proxy s!"HTTP CONNECT failed: {Text.trim statusLine}")), reader)
  else onPart .io id (skipHeaders (reader.content.length + 1) reader)

/-- The request is that of `http_connect`.  What the reader has read ahead is dropped with it. -/
def connect (base64 : Bytes → String) (self : HttpConnector) (conn : Inbound IoError)
    (dst : Outbound IoError) (address : String) :
    Option (Except HandlerError Unit) × Inbound IoError × Outbound IoError :=
  andThen (onPart .io (conn, ·) (writeAll (httpConnectRequest base64 address self.user) dst))
    fun _ (conn, dst) =>
  onPart id (fun reader => (reader.inner, dst)) (readResponse (.new conn))

end HttpConnector

/-! ## `obfs_transport.rs` -/

/-- What a `BoxError` of a handshake can hold. -/
inductive ObfsError
  | io (e : IoError)
  | text (msg : String)
deriving Repr, DecidableEq

section

variable {σ : Type} [AsyncRead σ IoError]

/-- The loop of `read_head`. -/
def readHeadLoop (head : Bytes) (stream : σ) : Option (Except ObfsError String) × σ :=
  if HEAD_END.isSuffixOf head then (some (.ok (Text.fromUtf8Lossy head)), stream)
  else
    match read 1 stream with
    | (none, stream) => (none, stream)
    | (some (.error e), stream) => (some (.error (.io e)), stream)
    | (some (.ok []), stream) =>
      (some (.error (.text "obfs-http: connection closed during handshake")), stream)
    | (some (.ok (b :: _)), stream) =>
      if 8192 < (head ++ [b]).length then
        (some (.error (.text "obfs-http: header too large")), stream)
      else readHeadLoop (head ++ [b]) stream
termination_by 8193 - head.length
decreasing_by
  rw [List.length_append, List.length_singleton] at *
  omega

/-- The request with the key that was drawn. -/
def ohttpRequest (base64 : Bytes → String) (key : Bytes) (host : String) : Bytes :=
  Text.utf8 ("GET / HTTP/1.1\r\nHost: " ++ host ++ "\r\nUser-Agent: " ++ DEFAULT_USER_AGENT ++
    "\r\nConnection: Upgrade\r\nUpgrade: websocket\r\nSec-WebSocket-Key: " ++ base64 key ++
    "\r\nSec-WebSocket-Version: 13\r\n\r\n")

def ohttpConnect (base64 : Bytes → String) (key : Bytes) (stream : σ) (dst : Outbound IoError)
    (host : String) : Option (Except ObfsError Unit) × σ × Outbound IoError :=
  andThen (onPart .io (stream, ·) (writeAll (ohttpRequest base64 key host) dst))
    fun _ (stream, dst) =>
  andThen (onPart .io (stream, ·) (flushAll dst)) fun _ (stream, dst) =>
  andThen (onPart id (·, dst) (readHeadLoop [] stream)) fun head s =>
  if Text.hasSub head " 101 " then (some (.ok ()), s)
  else (some (.error (.text s!"obfs-http: unexpected response: {Text.firstLine head}")), s)

end

end RtProxy
