import RtProxy.Handler.Http
import RtProxy.Sni.RoundTrip

/-!
The SNI proxy (`SniHandler` in `sni.rs`).

The first record of a TLS client names the target and is looked at before it is read; a client
that begins with anything else is served as an HTTP client.
-/

namespace RtProxy

open Act

/-- `peek`: as many bytes as it is asked for, or what there is before the end. -/
def peek (n : Nat) : Action HandlerError Bytes := do
  let s ← get
  pure (s.take n)

namespace Sni

def TLS_RECORD_HEADER_LEN : Nat := 5

/-- The longest first record that is waited for. -/
def MAX_CLIENT_HELLO : Nat := 4096

/-! ## The visible name -/

/-- Two bytes as a number; the bounds are looked at before. -/
def u16At (bs : Bytes) (pos : Nat) : Nat := Bytes.beNat ((bs.drop pos).take 2)

/-- The host name in the extension whose body begins here. -/
def hostName (payload : Bytes) (pos : Nat) : Option String :=
  if pos + 2 > payload.length then none
  else if pos + 2 + u16At payload pos > payload.length then none
  else some (Text.fromUtf8Lossy ((payload.drop (pos + 2)).take (u16At payload pos)))

/-- The loop over the extensions; each of them takes four bytes at least.  An entry of the
list that is no host name is skipped by the length of its extension, counted from behind
the entry's type. -/
def findName (payload : Bytes) (extEnd : Nat) : Nat → Nat → Option String
  | 0, _ => none
  | fuel + 1, pos =>
    if pos + 4 ≤ extEnd ∧ pos + 4 ≤ payload.length then
      let extLen := u16At payload (pos + 2)
      if u16At payload pos = 0x0000 then
        if pos + 4 + 2 > payload.length then none
        else
          match payload[pos + 4 + 2]? with
          | none => none
          | some nameType =>
            if nameType = 0x00 then hostName payload (pos + 4 + 2 + 1)
            else findName payload extEnd fuel (pos + 4 + 2 + 1 + extLen)
      else findName payload extEnd fuel (pos + 4 + extLen)
    else none

/-- Behind a field that begins with its length in one byte. -/
def skipByteField (payload : Bytes) (pos : Nat) : Option Nat :=
  payload[pos]?.map fun len => pos + (1 + len.toNat)

/-- Behind a field that begins with its length in two bytes. -/
def skipWordField (payload : Bytes) (pos : Nat) : Option Nat :=
  if pos + 2 > payload.length then none else some (pos + (2 + u16At payload pos))

/-- `extract_sni`. -/
def extractSni (data : Bytes) : Option String :=
  if data.length < 5 ∨ data.head? ≠ some TLS_HANDSHAKE then none
  else if data.length < 5 + u16At data 3 then none
  else
    let payload := data.drop 5
    if payload.head? ≠ some 0x01 then none
    else if payload.length < 38 then none
    else do
      let pos ← skipByteField payload (4 + 2 + 32)
      let pos ← skipWordField payload pos
      let pos ← skipByteField payload pos
      if pos + 2 > payload.length then none
      else findName payload (pos + 2 + u16At payload pos) payload.length (pos + 2)

/-! ## The handler -/

/-- The record to forward, if it is rewritten, and the name it is for. -/
def destination (engine : Engine) (buf : Bytes) : Option Bytes × String :=
  match rewriteClientHello engine buf "" false with
  | some (record, host) => (some record, host)
  | none => (none, (extractSni buf).getD "")

/-- The port is that of the listener. -/
def targetPort (o : HandlerOptions) : String :=
  match Text.cutLast ':' o.host.toList with
  | some (_, port) => String.ofList port
  | none => "443"

namespace SniHandler

section

variable (env : Env) (o : HandlerOptions)

/-- Forwards a record of `n` bytes and what follows it. -/
def forward (rewritten : Option Bytes) (n : Nat) (target : String) : Action HandlerError Unit :=
  checked o target (fail .forbidden) (pure ()) (do
    match ← attempt (o.chainOrEmpty.dial env target) with
    | .ok cc =>
      let initial ← take (takeExact n)
      send env cc (rewritten.getD initial)
      splice cc
    | .error e => fail (.chain e))

/-- A TLS client. -/
def serveTls (engine : Engine) : Action HandlerError Unit := do
  let recordHead ← peek TLS_RECORD_HEADER_LEN
  if recordHead.length < TLS_RECORD_HEADER_LEN then
    fail (.io ⟨.unexpectedEof, "truncated TLS record header"⟩)
  else
    let want := TLS_RECORD_HEADER_LEN + u16At recordHead 3
    if want > MAX_CLIENT_HELLO then fail (.proxy "SNI: ClientHello too large")
    else
      let buf ← peek want
      let (rewritten, host) := destination engine buf
      if host = "" then fail (.proxy "SNI: no server name found")
      else forward env o rewritten buf.length s!"{host}:{targetPort o}"

def handle (engine : Engine) : Action HandlerError Unit := do
  let first ← peek 1
  match first with
  | [] => fail (.io ⟨.unexpectedEof, "empty connection"⟩)
  | b :: _ => if b = TLS_HANDSHAKE then serveTls env o engine else HttpHandler.handle env o engine

end

end SniHandler
end Sni
end RtProxy
