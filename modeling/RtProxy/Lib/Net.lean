/-
IP addresses and their text, as `std::net` reads and prints them.
-/
import RtProxy.Lib.Text

namespace Net

/-- The four octets of an address, in order. -/
structure Ipv4Addr where
  a : UInt8
  b : UInt8
  c : UInt8
  d : UInt8
deriving Repr, DecidableEq

/-- The eight 16-bit segments of an address, in order. -/
structure Ipv6Addr where
  segments : List UInt16
  eight : segments.length = 8
deriving Repr, DecidableEq

inductive IpAddr
  | v4 (ip : Ipv4Addr)
  | v6 (ip : Ipv6Addr)
deriving Repr, DecidableEq

structure SocketAddr where
  ip : IpAddr
  port : UInt16
deriving Repr, DecidableEq

namespace Ipv4Addr

def unspecified : Ipv4Addr := ⟨0, 0, 0, 0⟩

def octets (ip : Ipv4Addr) : Bytes := [ip.a, ip.b, ip.c, ip.d]

def ofOctets : Bytes → Ipv4Addr
  | [a, b, c, d] => ⟨a, b, c, d⟩
  | _ => unspecified

/-- `Display`. -/
def text (ip : Ipv4Addr) : String :=
  s!"{ip.a.toNat}.{ip.b.toNat}.{ip.c.toNat}.{ip.d.toNat}"

/-- One octet: at most three digits, no leading zero. -/
def octet? (cs : List Char) : Option UInt8 :=
  match cs with
  | '0' :: _ :: _ => none
  | _ =>
    if cs.length ≤ 3 then
      match Text.decimal? cs with
      | some n => if n < 256 then some (UInt8.ofNat n) else none
      | none => none
    else none

def ofPieces : List (List Char) → Option Ipv4Addr
  | [a, b, c, d] => do
    some ⟨← octet? a, ← octet? b, ← octet? c, ← octet? d⟩
  | _ => none

/-- `FromStr`. -/
def parse (s : String) : Option Ipv4Addr := ofPieces (Text.pieces '.' s.toList)

end Ipv4Addr

namespace Ipv6Addr

theorem length_pad (l : List UInt16) : ((l ++ List.replicate 8 0).take 8).length = 8 := by
  simp

/-- The address of the given segments, zeros for the ones that are missing. -/
def ofSegments (l : List UInt16) : Ipv6Addr := ⟨(l ++ List.replicate 8 0).take 8, length_pad l⟩

def pairs : Bytes → List UInt16
  | hi :: lo :: rest => UInt16.ofNat (hi.toNat * 256 + lo.toNat) :: pairs rest
  | _ => []

def ofOctets (bs : Bytes) : Ipv6Addr := ofSegments (pairs bs)

def octets (ip : Ipv6Addr) : Bytes := ip.segments.flatMap fun s => Bytes.be 2 s.toNat

/-- The longest run of zero segments, the first of them if there are several, as
its start and length; `cur` zeros end just before segment `i`. -/
def zeroRun (i cur : Nat) (best : Nat × Nat) : List UInt16 → Nat × Nat
  | [] => best
  | s :: rest =>
    if s = 0 then
      zeroRun (i + 1) (cur + 1) (if best.2 < cur + 1 then (i - cur, cur + 1) else best) rest
    else zeroRun (i + 1) 0 best rest

def hexText (s : UInt16) : String := String.ofList (Nat.toDigits 16 s.toNat)

def joined (l : List UInt16) : String := ":".intercalate (l.map hexText)

/-- `Display`. -/
def text (ip : Ipv6Addr) : String :=
  match ip.segments with
  | [0, 0, 0, 0, 0, 0xFFFF, g, h] =>
    let bs := Bytes.be 2 g.toNat ++ Bytes.be 2 h.toNat
    s!"::ffff:{(Ipv4Addr.ofOctets bs).text}"
  | segments =>
    let (start, len) := zeroRun 0 0 (0, 0) segments
    if len > 1 then joined (segments.take start) ++ "::" ++ joined (segments.drop (start + len))
    else joined segments

/-- Up to four hexadecimal digits. -/
def group? : Nat → Nat → List Char → Option (UInt16 × List Char)
  | k, n, c :: cs =>
    match Text.hexDigit? c with
    | some d =>
      if k = 4 then none else group? (k + 1) (16 * n + d) cs
    | none => if k = 0 then none else some (UInt16.ofNat n, c :: cs)
  | k, n, [] => if k = 0 then none else some (UInt16.ofNat n, [])

/-- An embedded IPv4 address at the front of the input. -/
def embedded? (cs : List Char) : Option (Ipv4Addr × List Char) :=
  let front := cs.takeWhile fun c => (Text.digit? c).isSome || c = '.'
  match Ipv4Addr.ofPieces (Text.pieces '.' front) with
  | some ip => some (ip, cs.drop front.length)
  | none => none

/-- Skips the colon before every group but the first. -/
def afterSep (i : Nat) (cs : List Char) : Option (List Char) :=
  if i = 0 then some cs
  else
    match cs with
    | ':' :: cs => some cs
    | _ => none

/-- Reads groups `i`, `i + 1`, … while there are any and `left` of them are
wanted; the flag tells that the last two came from an IPv4 address. -/
def readGroups : Nat → Nat → List Char → List UInt16 × Bool × List Char
  | 0, _, cs => ([], false, cs)
  | left + 1, i, cs =>
    match afterSep i cs with
    | none => ([], false, cs)
    | some rest =>
      match if 0 < left then embedded? rest else none with
      | some (ip, rest) => (pairs ip.octets, true, rest)
      | none =>
        match group? 0 0 rest with
        | none => ([], false, cs)
        | some (g, rest) =>
          let (gs, v4, rest) := readGroups left (i + 1) rest
          (g :: gs, v4, rest)

/-- `FromStr`. -/
def parse (s : String) : Option Ipv6Addr :=
  let (front, v4, rest) := readGroups 8 0 s.toList
  if front.length = 8 then if rest = [] then some (ofSegments front) else none
  else if v4 then none
  else
    match rest with
    | ':' :: ':' :: rest =>
      let (back, _, rest) := readGroups (7 - front.length) 0 rest
      if rest = [] then
        some (ofSegments (front ++ List.replicate (8 - front.length - back.length) 0 ++ back))
      else none
    | _ => none

end Ipv6Addr

namespace IpAddr

def text : IpAddr → String
  | .v4 ip => ip.text
  | .v6 ip => ip.text

/-- `FromStr`: IPv4 is tried first. -/
def parse (s : String) : Option IpAddr :=
  match Ipv4Addr.parse s with
  | some ip => some (.v4 ip)
  | none => (Ipv6Addr.parse s).map .v6

end IpAddr

/-- `Display`; an IPv6 address stands in brackets. -/
def SocketAddr.text (a : SocketAddr) : String :=
  match a.ip with
  | .v4 ip => s!"{ip.text}:{a.port.toNat}"
  | .v6 ip => s!"[{ip.text}]:{a.port.toNat}"

/-- The port of a socket address: digits, without a sign. -/
def port? (cs : List Char) : Option UInt16 :=
  match Text.decimal? cs with
  | some n => if n < 65536 then some (UInt16.ofNat n) else none
  | none => none

/-- An IPv6 address with a scope behind it, which is not kept. -/
def scoped? (cs : List Char) : Option Ipv6Addr :=
  match Text.cutFirst '%' cs with
  | none => Ipv6Addr.parse (String.ofList cs)
  | some (front, scope) =>
    match Text.decimal? scope with
    | some n => if n < 2 ^ 32 then Ipv6Addr.parse (String.ofList front) else none
    | none => none

/-- `FromStr`: an IPv4 address and a port, or an IPv6 address in brackets and a port. -/
def SocketAddr.parse (s : String) : Option SocketAddr :=
  match s.toList with
  | '[' :: rest =>
    match Text.cutFirst ']' rest with
    | some (inner, ':' :: port) => do some ⟨.v6 (← scoped? inner), ← port? port⟩
    | _ => none
  | cs =>
    match Text.cutFirst ':' cs with
    | some (host, port) => do some ⟨.v4 (← Ipv4Addr.parse (String.ofList host)), ← port? port⟩
    | none => none

end Net
