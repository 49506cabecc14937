import RtProxy.Lib.Text

/-!
The rewrite of a ClientHello (`sni.rs`).

The client of a hop copies the server name into a private extension and shows a decoy
instead; the server takes the extension out and puts the name back.  The base64 engine
comes from another crate and is a parameter.
-/

namespace RtProxy
namespace Sni

def TLS_HANDSHAKE : UInt8 := 0x16

/-- The extension that carries the destination. -/
def EXT_GOST_HOST : UInt16 := 0xFFFE
def EXT_SERVER_NAME : UInt16 := 0x0000

/-! ## The encoding of a name -/

/-- `URL_SAFE_NO_PAD`. -/
structure Engine where
  encode : Bytes → String
  decode : Bytes → Option Bytes

def crc32Bit (crc : UInt32) : UInt32 := (crc >>> 1) ^^^ (0xEDB88320 &&& (0 - (crc &&& 1)))

def crc32Ieee (data : Bytes) : UInt32 :=
  ~~~ data.foldl
    (fun crc b => (List.range 8).foldl (fun crc _ => crc32Bit crc) (crc ^^^ b.toUInt32)) 0xFFFFFFFF

def encodeServerName (engine : Engine) (name : String) : String :=
  engine.encode (Bytes.be 4 (crc32Ieee (Text.utf8 name)).toNat ++
    Text.utf8 (engine.encode (Text.utf8 name)))

/-- `none` when the checksum does not match. -/
def decodeServerName (engine : Engine) (s : String) : Option String := do
  let outer ← engine.decode (Text.utf8 s)
  if outer.length < 4 then none
  else
    let inner ← engine.decode (outer.drop 4)
    if crc32Ieee inner ≠ UInt32.ofNat (Bytes.beNat (outer.take 4)) then none
    else Text.fromUtf8 inner

/-! ## Extensions -/

abbrev Extension := UInt16 × Bytes

/-- Where the length of the extensions block sits: after the header, the version, the
random, the session id, the suites and the compression methods. -/
def lengthOffset (hello : Bytes) : Option Nat := do
  let sessionLen ← hello[4 + 2 + 32]?
  let i := 4 + 2 + 32 + (1 + sessionLen.toNat)
  let suitesHigh ← hello[i]?
  let suitesLow ← hello[i + 1]?
  let i := i + (2 + Bytes.beNat [suitesHigh, suitesLow])
  let compLen ← hello[i]?
  return i + (1 + compLen.toNat)

/-- Where the extensions block starts and ends. -/
def extensionsSpan (hello : Bytes) : Option (Nat × Nat) := do
  let i ← lengthOffset hello
  let extsHigh ← hello[i]?
  let extsLow ← hello[i + 1]?
  let start := i + 2
  let stop := start + Bytes.beNat [extsHigh, extsLow]
  if stop > hello.length then none else some (start, stop)

/-- Every extension takes four bytes at least, so there are no more than bytes. -/
def parseFrom : Nat → Bytes → Option (List Extension)
  | 0, _ => some []
  | fuel + 1, block =>
    if block.length < 4 then some []
    else
      let len := Bytes.beNat ((block.drop 2).take 2)
      if (block.drop 4).length < len then none
      else
        (parseFrom fuel ((block.drop 4).drop len)).map fun exts =>
          (UInt16.ofNat (Bytes.beNat (block.take 2)), (block.drop 4).take len) :: exts

/-- Up to three bytes at the end are left over. -/
def parseExtensions (block : Bytes) : Option (List Extension) := parseFrom block.length block

def encodeExtension (ext : Extension) : Bytes :=
  Bytes.be 2 ext.1.toNat ++ Bytes.be 2 ext.2.length ++ ext.2

def encodeExtensions (exts : List Extension) : Bytes := exts.flatMap encodeExtension

def sniBody (name : String) : Bytes :=
  Bytes.be 2 ((Text.utf8 name).length + 3) ++ [0x00] ++ Bytes.be 2 (Text.utf8 name).length ++
    Text.utf8 name

def sniName (body : Bytes) : Option String :=
  if body.length < 5 then none
  else
    let len := Bytes.beNat ((body.drop 3).take 2)
    if body.length < 5 + len then none else Text.fromUtf8 ((body.drop 5).take len)

/-! ## Records -/

/-- A record without its lengths: the type and version, the handshake up to the extensions
block, the extensions, and what follows the block. -/
structure Parts where
  front : Bytes
  opening : Bytes
  exts : List Extension
  tail : Bytes
deriving Repr, DecidableEq

/-- The bounds of the record and of its extensions block. -/
def readParts (record : Bytes) : Option Parts := do
  if record.length < 5 ∨ record.head? ≠ some TLS_HANDSHAKE then none
  else
    let bodyLen := Bytes.beNat ((record.drop 3).take 2)
    if record.length < 5 + bodyLen then none
    else
      let hello := (record.drop 5).take bodyLen
      let (start, stop) ← extensionsSpan hello
      let exts ← parseExtensions ((hello.drop start).take (stop - start))
      return ⟨record.take 3, hello.take (start - 2), exts, hello.drop stop⟩

/-- The handshake length has three bytes after the type. -/
def setLength (hello : Bytes) : Bytes :=
  hello.take 1 ++ Bytes.be 3 (hello.length - 4) ++ hello.drop 4

namespace Parts

def hello (p : Parts) : Bytes :=
  p.opening ++ Bytes.be 2 (encodeExtensions p.exts).length ++ encodeExtensions p.exts ++ p.tail

/-- The record, with all lengths written anew. -/
def bytes (p : Parts) : Bytes :=
  p.front ++ Bytes.be 2 (setLength p.hello).length ++ setLength p.hello

end Parts

/-- The server takes out the private extensions that decode; the last of them names the
destination. -/
def takeHost (engine : Engine) (host : String) : List Extension → String × List Extension
  | [] => (host, [])
  | ext :: exts =>
    match if ext.1 = EXT_GOST_HOST then decodeServerName engine (Text.fromUtf8Lossy ext.2) else none with
    | some decoded => takeHost engine decoded exts
    | none => ((takeHost engine host exts).1, ext :: (takeHost engine host exts).2)

/-- The first server name: what it becomes, the destination, and the extension to append. -/
def editName (engine : Engine) (host : String) (isClient : Bool) :
    List Extension → List Extension × String × Option Extension
  | [] => ([], host, none)
  | ext :: exts =>
    if ext.1 ≠ EXT_SERVER_NAME then
      let (exts, host, appended) := editName engine host isClient exts
      (ext :: exts, host, appended)
    else
      let name := (sniName ext.2).getD ""
      let host := if host = "" then name else host
      let appended :=
        if isClient then some (EXT_GOST_HOST, Text.utf8 (encodeServerName engine name)) else none
      ((ext.1, if host = "" then ext.2 else sniBody host) :: exts, host, appended)

def rewriteClientHello (engine : Engine) (record : Bytes) (host : String) (isClient : Bool) :
    Option (Bytes × String) := do
  let p ← readParts record
  let (host, exts) := if isClient then (host, p.exts) else takeHost engine host p.exts
  let (exts, host, appended) := editName engine host isClient exts
  return ({ p with exts := exts ++ appended.toList }.bytes, host)

end Sni
end RtProxy
