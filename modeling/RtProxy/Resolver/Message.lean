import RtProxy.Lib.Cut
import RtProxy.Lib.DnsWire
import RtProxy.Lib.Net
import RtProxy.Resolver

/-!
The DNS messages of the resolver (`resolver.rs`).

In a message a name is a text: each label followed by a dot.  The bytes of a label are
decoded lossily, so a name on the wire is more than its text tells.
-/

namespace RtProxy.Resolver

open Bytes

def CLASS_IN : UInt16 := 1
def CLASS_CH : UInt16 := 3
def CLASS_HS : UInt16 := 4
def CLASS_ANY : UInt16 := 255

def TYPE_A : UInt16 := 1
def TYPE_NS : UInt16 := 2
def TYPE_CNAME : UInt16 := 5
def TYPE_SOA : UInt16 := 6
def TYPE_PTR : UInt16 := 12
def TYPE_MX : UInt16 := 15
def TYPE_TXT : UInt16 := 16
def TYPE_AAAA : UInt16 := 28
def TYPE_SRV : UInt16 := 33
def TYPE_OPT : UInt16 := 41
def TYPE_ANY : UInt16 := 255

/-- EDNS0 option code for client subnet. -/
def EDNS0_SUBNET : UInt16 := 8

/-- Recursion desired. -/
def FLAG_RD : UInt16 := 0x0100

/-! ## Names -/

def be16 (buf : Bytes) (pos : Nat) : Except String UInt16 :=
  if buf.length < pos + 2 then .error "short read (u16)"
  else .ok (UInt16.ofNat (beNat ((buf.drop pos).take 2)))

def be32 (buf : Bytes) (pos : Nat) : Except String UInt32 :=
  if buf.length < pos + 4 then .error "short read (u32)"
  else .ok (UInt32.ofNat (beNat ((buf.drop pos).take 4)))

def encodeLabel (label : String) : Except String Bytes :=
  if 63 < (Text.utf8 label).length then .error s!"label too long: {label}"
  else .ok (UInt8.ofNat (Text.utf8 label).length :: Text.utf8 label)

/-- One part after another, until one is refused. -/
def encodeAll {α : Type} (f : α → Except String Bytes) : List α → Except String Bytes
  | [] => .ok []
  | a :: as => do
    let bs ← f a
    let more ← encodeAll f as
    .ok (bs ++ more)

/-- Empty labels are left out. -/
def encodeName (name : String) : Except String Bytes := do
  let labels ← encodeAll encodeLabel ((Text.split name '.').filter (· ≠ ""))
  .ok (labels ++ [0])

/-- The loop of `decode_name`. -/
def decodeNameLoop (buf : Bytes) : Nat → String → Nat → Nat → Bool → Except String (String × Nat)
  | 0, _, _, _, _ => .error "compression pointer loop"
  | budget + 1, name, pos, endPos, jumped =>
    match buf[pos]? with
    | none => .error "truncated name"
    | some len =>
      if len = 0 then
        .ok (if name = "" then "." else name, if jumped then endPos else pos + 1)
      else if len &&& 0xC0 = 0 then
        if buf.length < pos + 1 + len.toNat then .error "truncated label"
        else
          decodeNameLoop buf budget
            (name ++ Text.fromUtf8Lossy ((buf.drop (pos + 1)).take len.toNat) ++ ".")
            (pos + 1 + len.toNat) endPos jumped
      else if len &&& 0xC0 = 0xC0 then
        match buf[pos + 1]? with
        | none => .error "truncated compression pointer"
        | some lo =>
          let ptr := (len &&& 0x3F).toNat <<< 8 ||| lo.toNat
          if buf.length ≤ ptr then .error "compression pointer out of range"
          else decodeNameLoop buf budget name ptr (if jumped then endPos else pos + 2) true
      else .error "reserved label type"

/-- The name at an offset, and the offset after it where it stands. -/
def decodeName (buf : Bytes) (start : Nat) : Except String (String × Nat) :=
  decodeNameLoop buf (buf.length + 1) "" start start false

/-! ## Messages -/

structure Question where
  name : String
  qtype : UInt16
  qclass : UInt16
deriving Repr, DecidableEq

/-- A resource record; its data are opaque. -/
structure Rr where
  name : String
  rtype : UInt16
  rclass : UInt16
  ttl : UInt32
  rdata : Bytes
deriving Repr, DecidableEq

structure Message where
  id : UInt16
  flags : UInt16
  questions : List Question
  answers : List Rr
  authorities : List Rr
  additionals : List Rr
deriving Repr, DecidableEq

namespace Question

def new (name : String) (qtype : UInt16) : Question :=
  { name := fqdn name, qtype := qtype, qclass := CLASS_IN }

def encode (q : Question) : Except String Bytes := do
  let name ← encodeName q.name
  .ok (name ++ (be 2 q.qtype.toNat ++ be 2 q.qclass.toNat))

def decode (buf : Bytes) (pos : Nat) : Except String (Question × Nat) := do
  let (name, next) ← decodeName buf pos
  let qtype ← be16 buf next
  let qclass ← be16 buf (next + 2)
  .ok (⟨name, qtype, qclass⟩, next + 4)

end Question

namespace Rr

/-- The name is refused before the data are. -/
def encode (rr : Rr) : Except String Bytes := do
  let name ← encodeName rr.name
  if 65535 < rr.rdata.length then .error "rdata too long"
  else
    .ok (name ++ (be 2 rr.rtype.toNat ++ be 2 rr.rclass.toNat ++ be 4 rr.ttl.toNat
      ++ be 2 rr.rdata.length ++ rr.rdata))

def decode (buf : Bytes) (start : Nat) : Except String (Rr × Nat) := do
  let (name, next) ← decodeName buf start
  let rtype ← be16 buf next
  let rclass ← be16 buf (next + 2)
  let ttl ← be32 buf (next + 4)
  let rdlen ← be16 buf (next + 8)
  let pos := next + 10
  if buf.length < pos + rdlen.toNat then .error "truncated rdata"
  else .ok (⟨name, rtype, rclass, ttl, (buf.drop pos).take rdlen.toNat⟩, pos + rdlen.toNat)

end Rr

namespace Message

/-- A query for one name. -/
def query (id : UInt16) (name : String) (qtype : UInt16) : Message :=
  { id := id, flags := FLAG_RD, questions := [Question.new name qtype], answers := [],
    authorities := [], additionals := [] }

/-- The header, with each count cut to sixteen bits. -/
def header (m : Message) : Bytes :=
  be 2 m.id.toNat ++ be 2 m.flags.toNat ++ be 2 m.questions.length ++ be 2 m.answers.length
    ++ be 2 m.authorities.length ++ be 2 m.additionals.length

def encode (m : Message) : Except String Bytes := do
  let questions ← encodeAll Question.encode m.questions
  let answers ← encodeAll Rr.encode m.answers
  let authorities ← encodeAll Rr.encode m.authorities
  let additionals ← encodeAll Rr.encode m.additionals
  .ok (m.header ++ questions ++ answers ++ authorities ++ additionals)

def decode (buf : Bytes) : Except String Message :=
  if buf.length < 12 then .error "message shorter than DNS header"
  else do
    let id ← be16 buf 0
    let flags ← be16 buf 2
    let qdcount ← be16 buf 4
    let ancount ← be16 buf 6
    let nscount ← be16 buf 8
    let arcount ← be16 buf 10
    let (questions, pos) ← readMany (Question.decode buf) qdcount.toNat 12
    let (answers, pos) ← readMany (Rr.decode buf) ancount.toNat pos
    let (authorities, pos) ← readMany (Rr.decode buf) nscount.toNat pos
    let (additionals, _) ← readMany (Rr.decode buf) arcount.toNat pos
    .ok ⟨id, flags, questions, answers, authorities, additionals⟩

/-- The advertised UDP payload size. -/
def edns0UdpSize (m : Message) : Option UInt16 :=
  (m.additionals.find? (·.rtype = TYPE_OPT)).map (·.rclass)

def removeOpt (m : Message) : Message :=
  { m with additionals := m.additionals.filter (·.rtype ≠ TYPE_OPT) }

/-- The smallest TTL of the answers. -/
def minAnswerTtl (m : Message) : Option UInt32 := (m.answers.map (·.ttl)).min?

end Message

/-- Overwrites the id of an encoded message. -/
def setMsgId (buf : Bytes) (id : UInt16) : Bytes :=
  if 2 ≤ buf.length then be 2 id.toNat ++ buf.drop 2 else buf

/-- An OPT record with a client-subnet option. -/
def edns0SubnetOpt (src : Net.IpAddr) (udpSize : UInt16) : Rr :=
  let (family, netmask, addr) : UInt16 × UInt8 × Bytes :=
    match src with
    | .v4 ip => (1, 32, ip.octets)
    | .v6 ip => (2, 128, ip.octets)
  let option := be 2 family.toNat ++ [netmask, 0] ++ addr
  { name := ".", rtype := TYPE_OPT, rclass := udpSize, ttl := 0
    rdata := be 2 EDNS0_SUBNET.toNat ++ be 2 option.length ++ option }

end RtProxy.Resolver
