import RtProxy.Sni.ClientHello
import RtProxy.Transport
import RtProxy.Lib.Framing

/-!
The client end of an SNI hop (`SniClientConn` and `obfuscate_http` in `sni.rs`).

Only the first write is looked at.  A ClientHello record or a request head in it is
rewritten; everything else goes to the transport as it is.
-/

namespace RtProxy
namespace Sni

open ByteStream

/-! ## Request heads -/

def HEAD_END : List Char := ['\r', '\n', '\r', '\n']
def LINE_END : List Char := ['\r', '\n']

/-- `head.split("\r\n")`. -/
def crlfLines : List Char → List (List Char)
  | [] => [[]]
  | '\r' :: '\n' :: cs => [] :: crlfLines cs
  | c :: cs =>
    match crlfLines cs with
    | [] => [[c]]
    | line :: lines => (c :: line) :: lines

/-- `Host` only; `Host-Something` is a different header. -/
def isHost (line : List Char) : Bool :=
  match Text.cutFirst ':' line with
  | some (name, _) => Text.toAsciiLowercase (String.ofList name) = "host"
  | none => false

def hostValue (line : List Char) : String :=
  match Text.cutFirst ':' line with
  | some (_, v) => Text.trim (String.ofList v)
  | none => ""

/-- The lines with the first `Host` replaced, and whether there was one. -/
def obfuscateLines (engine : Engine) (decoy : String) : Bool → List (List Char) → List Char × Bool
  | found, [] => ([], found)
  | found, line :: lines =>
    if isHost line ∧ found = false then
      let (out, found) := obfuscateLines engine decoy true lines
      ("Host: ".toList ++ decoy.toList ++ LINE_END ++ "Gost-Target: ".toList ++
        (encodeServerName engine (hostValue line)).toList ++ LINE_END ++ out, found)
    else
      let (out, found) := obfuscateLines engine decoy found lines
      (line ++ LINE_END ++ out, found)

/-- `none` when there is no `Host` header to move. -/
def obfuscateHttp (engine : Engine) (request : Bytes) (decoy : String) : Option Bytes := do
  let text ← Text.fromUtf8 request
  let (head, rest) ← Text.cutSub HEAD_END text.toList
  let (out, found) := obfuscateLines engine decoy false (crlfLines head)
  if found then some (Text.utf8 (String.ofList (out ++ LINE_END ++ rest))) else none

/-- What the first buffer becomes; `none` leaves it as it is. -/
def rewritten (engine : Engine) (decoy : String) (buf : Bytes) : Option Bytes :=
  if buf.head? = some TLS_HANDSHAKE then
    (rewriteClientHello engine buf decoy true).map Prod.fst
  else obfuscateHttp engine buf decoy

/-! ## The connection -/

structure SniClientConn where
  inner : Transport
  host : String
  obfuscated : Bool
  /-- Rewritten bytes still to be written. -/
  out : Cursor

namespace SniClientConn

def new (inner : Transport) (host : String) : SniClientConn :=
  { inner := inner, host := host, obfuscated := false, out := .empty }

def zeroErr : IoError := ⟨.writeZero, "sni: write returned zero"⟩

def pollRead (cap : Nat) (c : SniClientConn) : Poll (Except IoError Bytes) × SniClientConn :=
  match c.inner.inbound.read cap with
  | (a, inbound) => (a, { c with inner := { c.inner with inbound := inbound } })

def flushOut (c : SniClientConn) : Poll (Except IoError Unit) × SniClientConn :=
  match drainOut zeroErr c.out c.inner.outbound with
  | (a, out, outbound) => (a, { c with out := out, inner := { c.inner with outbound := outbound } })

/-- `poll_write` of the transport. -/
def pass (buf : Bytes) (c : SniClientConn) : Poll (Except IoError Nat) × SniClientConn :=
  match c.inner.outbound.write buf with
  | (a, outbound) => (a, { c with inner := { c.inner with outbound := outbound } })

/-- The first write. -/
def obfuscate (engine : Engine) (buf : Bytes) (c : SniClientConn) :
    Poll (Except IoError Nat) × SniClientConn :=
  match rewritten engine c.host buf with
  | none => pass buf { c with obfuscated := true }
  | some bytes =>
    match flushOut { c with obfuscated := true, out := .ofBytes bytes } with
    | (.ready (.error e), c) => (.ready (.error e), c)
    -- a partial flush finishes on the next poll
    | (_, c) => (.ready (.ok buf.length), c)

def pollWrite (engine : Engine) (buf : Bytes) (c : SniClientConn) :
    Poll (Except IoError Nat) × SniClientConn :=
  match c.flushOut with
  | (.pending, c) => (.pending, c)
  | (.ready _, c) =>
    if c.obfuscated ∨ c.host = "" ∨ buf = [] then c.pass buf else c.obfuscate engine buf

/-- `poll_flush` and `poll_shutdown`, which end in the same call of the transport. -/
def pollFinish (c : SniClientConn) : Poll (Except IoError Unit) × SniClientConn :=
  match c.flushOut with
  | (.pending, c) => (.pending, c)
  | (.ready (.error e), c) => (.ready (.error e), c)
  | (.ready (.ok ()), c) =>
    match c.inner.outbound.finish with
    | (a, outbound) => (a, { c with inner := { c.inner with outbound := outbound } })

def pollFlush (c : SniClientConn) : Poll (Except IoError Unit) × SniClientConn := c.pollFinish

def pollShutdown (c : SniClientConn) : Poll (Except IoError Unit) × SniClientConn := c.pollFinish

def writer (engine : Engine) : ByteWriter SniClientConn IoError :=
  { write := pollWrite engine, flush := pollFlush, shutdown := pollShutdown }

/-- The bytes handed to the transport and those still queued for it. -/
def produced (c : SniClientConn) : Bytes := c.inner.outbound.sent ++ c.out.rest

end SniClientConn

end Sni
end RtProxy
