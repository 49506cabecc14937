import RtProxy.Lib.Bytes
import RtProxy.Lib.Checked

/-!
The forward error correction of `kcp.rs`.

The encoder numbers the shards of a group and adds parity shards; the decoder keeps a
window of shards ordered by number and rebuilds the missing data shards of a group.
The code itself comes from another crate and is a parameter.  The decoder's arithmetic
and indexing are checked, so that a panic is a result of the model.
-/

namespace RtProxy
namespace Kcp

open Checked

def FEC_HEADER_SIZE : Nat := 6

def FEC_HEADER_SIZE_PLUS2 : Nat := FEC_HEADER_SIZE + 2

def TYPE_DATA : UInt16 := 0xF1

def TYPE_PARITY : UInt16 := 0xF2

/-- A codec of the `reed_solomon_erasure` crate.  Both methods work on a slice of
shards in place: the number of shards stays, and `encode` keeps their lengths too. -/
structure ReedSolomon where
  encode : List Bytes → Option (List Bytes)
  reconstructData : List (Option Bytes) → Option (List (Option Bytes))
  lengths_encode : ∀ {shards out}, encode shards = some out →
    out.map List.length = shards.map List.length
  length_reconstructData : ∀ {shards out}, reconstructData shards = some out →
    out.length = shards.length

/-- `ReedSolomon::new` for a number of data and parity shards. -/
abbrev NewCodec := Nat → Nat → Option ReedSolomon

/-- `Vec::resize` to a longer length with zeros. -/
def pad (n : Nat) (bs : Bytes) : Bytes := bs ++ List.replicate (n - bs.length) 0

/-! ## The header -/

def fecFlag (data : Bytes) : Option UInt16 :=
  if data.length < FEC_HEADER_SIZE then none
  else
    let flag := UInt16.ofNat (Bytes.leNat ((data.drop 4).take 2))
    if flag = TYPE_DATA ∨ flag = TYPE_PARITY then some flag else none

def fecPayloadSegments (payload : Bytes) : Option Bytes :=
  if payload.length < 2 then none
  else
    let size := Bytes.leNat (payload.take 2)
    if size < 2 ∨ size > payload.length then none else some ((payload.take size).drop 2)

def fecStrip (data : Bytes) : Option Bytes :=
  match fecFlag data with
  | some flag =>
    if flag = TYPE_DATA ∧ data.length ≥ FEC_HEADER_SIZE_PLUS2 then
      some (data.drop FEC_HEADER_SIZE_PLUS2)
    else none
  | none => some data

/-! ## The encoder -/

structure FecEncoder where
  next : UInt32
  paws : UInt32
  datashard : Nat
  parityshard : Nat
  codec : ReedSolomon
  cache : List Bytes
  maxSize : Nat

namespace FecEncoder

def new (rs : NewCodec) (datashard parityshard : UInt32) : Option FecEncoder :=
  if datashard = 0 ∨ parityshard = 0 then none
  else
    match rs datashard.toNat parityshard.toNat with
    | none => none
    | some codec =>
      some {
        next := 0
        paws := 0xFFFFFFFF / (datashard + parityshard) * (datashard + parityshard)
        datashard := datashard.toNat
        parityshard := parityshard.toNat
        codec := codec
        cache := []
        maxSize := 0 }

/-- The 8 bytes of a data header. -/
def markData (payloadLen : Nat) (enc : FecEncoder) : Bytes × FecEncoder :=
  (Bytes.le 4 enc.next.toNat ++ Bytes.le 2 TYPE_DATA.toNat ++ Bytes.le 2 payloadLen,
    { enc with next := if enc.next + 1 ≥ enc.paws then 0 else enc.next + 1 })

/-- The 6 bytes of a parity header. -/
def markParity (enc : FecEncoder) : Bytes × FecEncoder :=
  (Bytes.le 4 enc.next.toNat ++ Bytes.le 2 TYPE_PARITY.toNat,
    { enc with next := (enc.next + 1) % enc.paws })

/-- The packets of the parity shards `parity`. -/
def parityPackets (payloadOffset : Nat) : List Bytes → FecEncoder → List Bytes × FecEncoder
  | [], enc => ([], enc)
  | body :: parity, enc =>
    ((List.replicate (payloadOffset - FEC_HEADER_SIZE) 0 ++ enc.markParity.1 ++ body)
        :: (parityPackets payloadOffset parity enc.markParity.2).1,
      (parityPackets payloadOffset parity enc.markParity.2).2)

/-- The shards of a whole group before encoding. -/
def groupShards (payloadOffset : Nat) (enc : FecEncoder) : List Bytes :=
  enc.cache.map (fun packet => pad (enc.maxSize - payloadOffset) (packet.drop payloadOffset))
    ++ List.replicate enc.parityshard (List.replicate (enc.maxSize - payloadOffset) 0)

def cleared (enc : FecEncoder) : FecEncoder := { enc with cache := [], maxSize := 0 }

def push (packet : Bytes) (payloadOffset : Nat) (enc : FecEncoder) : List Bytes × FecEncoder :=
  let enc := { enc with
    maxSize := max enc.maxSize packet.length
    cache := enc.cache ++ [packet] }
  if enc.cache.length < enc.datashard then ([], enc)
  else
    match enc.codec.encode (enc.groupShards payloadOffset) with
    | none => ([], enc.cleared)
    | some shards =>
      ((parityPackets payloadOffset (shards.drop enc.datashard) enc).1,
        (parityPackets payloadOffset (shards.drop enc.datashard) enc).2.cleared)

end FecEncoder

/-! ## The decoder -/

/-- A shard in the window; `at'` is the time it came in, in nanoseconds. -/
structure FecElement where
  seqid : UInt32
  flag : UInt16
  data : Bytes
  at' : Nat
deriving Repr, DecidableEq

structure FecDecoder where
  datashard : Nat
  parityshard : Nat
  shardSize : Nat
  rxlimit : Nat
  rx : List FecElement
  codec : ReedSolomon

/-- What the search through the window has found of a group. -/
structure Gathered where
  shards : List (Option Bytes)
  present : List Bool
  numShard : Nat
  numData : Nat
  first : Nat
  maxlen : Nat
deriving Repr, DecidableEq

namespace Gathered

def new (shardSize : Nat) : Gathered where
  shards := List.replicate shardSize none
  present := List.replicate shardSize false
  numShard := 0
  numData := 0
  first := 0
  maxlen := 0

/-- Takes in the element `s`, which stands at `i` in the window and is shard `idx`. -/
def add (i idx : Nat) (s : FecElement) (g : Gathered) : Except Panic Gathered := do
  let shards ← setAt g.shards idx (some s.data)
  let present ← setAt g.present idx true
  .ok {
    shards := shards
    present := present
    numShard := g.numShard + 1
    numData := if s.flag = TYPE_DATA then g.numData + 1 else g.numData
    first := if g.numShard = 0 then i else g.first
    maxlen := max g.maxlen s.data.length }

end Gathered

namespace FecDecoder

def new (rs : NewCodec) (datashard parityshard : UInt32) : Option FecDecoder :=
  if datashard = 0 ∨ parityshard = 0 then none
  else
    match rs datashard.toNat parityshard.toNat with
    | none => none
    | some codec =>
      some {
        datashard := datashard.toNat
        parityshard := parityshard.toNat
        shardSize := datashard.toNat + parityshard.toNat
        rxlimit := 3 * (datashard.toNat + parityshard.toNat)
        rx := []
        codec := codec }

/-- The loop that looks for the place of `seqid`, from the last of `n` elements to the
first; a duplicate has none. -/
def slot (rx : List FecElement) (seqid : UInt32) : Nat → Except Panic (Option Nat)
  | 0 => .ok (some 0)
  | i + 1 => do
    let e ← index rx i
    if e.seqid = seqid then .ok none
    else if 0 < asI32 (seqid - e.seqid) then .ok (some (i + 1))
    else slot rx seqid i

/-- The loop over `n` elements of the window from `i` on. -/
def gather (rx : List FecElement) (group shardBegin shardEnd : UInt32) :
    Nat → Nat → Gathered → Except Panic Gathered
  | 0, _, g => .ok g
  | n + 1, i, g => do
    let s ← index rx i
    if 0 < asI32 (s.seqid - shardEnd) then .ok g
    else if 0 ≤ asI32 (s.seqid - shardBegin) then do
      let idx ← rem32 s.seqid group
      let g ← g.add i idx.toNat s
      gather rx group shardBegin shardEnd n (i + 1) g
    else gather rx group shardBegin shardEnd n (i + 1) g

/-- The data shards, from `idx` on, that were not present. -/
def missing (shards : List (Option Bytes)) : Nat → List Bool → Except Panic (List Bytes)
  | _, [] => .ok []
  | idx, wasPresent :: present => do
    if wasPresent then missing shards (idx + 1) present
    else do
      let shard ← index shards idx
      let rest ← missing shards (idx + 1) present
      .ok (shard.toList ++ rest)

def freeRange (first n : Nat) (dec : FecDecoder) : Except Panic FecDecoder :=
  if first < min (first + n) dec.rx.length then do
    let rx ← drain dec.rx first (min (first + n) dec.rx.length)
    .ok { dec with rx := rx }
  else .ok dec

/-- The shards that the codec rebuilds of a group with enough shards. -/
def rebuild (g : Gathered) (dec : FecDecoder) : Except Panic (List Bytes) :=
  match dec.codec.reconstructData (g.shards.map (Option.map (pad g.maxlen))) with
  | some shards => missing shards 0 (g.present.take dec.datashard)
  | none => .ok []

/-- What is done with a group whose shards have been gathered. -/
def finish (g : Gathered) (dec : FecDecoder) : Except Panic (List Bytes × FecDecoder) :=
  if g.numData = dec.datashard then do
    let dec ← dec.freeRange g.first g.numShard
    .ok ([], dec)
  else if g.numShard ≥ dec.datashard then do
    let recovered ← dec.rebuild g
    let dec ← dec.freeRange g.first g.numShard
    .ok (recovered, dec)
  else .ok ([], dec)

/-- The group of a shard just inserted. -/
def recover (seqid : UInt32) (insertAt : Nat) (dec : FecDecoder) :
    Except Panic (List Bytes × FecDecoder) := do
  let group := UInt32.ofNat dec.shardSize
  let cell ← rem32 seqid group
  let shardBegin ← sub32 seqid cell
  let shardAfter ← add32 shardBegin group
  let shardEnd ← sub32 shardAfter 1
  let searchBegin := insertAt - cell.toNat
  let searchEnd := min (searchBegin + dec.shardSize - 1) (dec.rx.length - 1)
  if searchEnd ≥ searchBegin ∧ searchEnd - searchBegin + 1 ≥ dec.datashard then do
    let g ← gather dec.rx group shardBegin shardEnd (searchEnd + 1 - searchBegin) searchBegin
      (Gathered.new dec.shardSize)
    dec.finish g
  else .ok ([], dec)

/-- 60 seconds. -/
def EXPIRY : Nat := 60 * 10 ^ 9

/-- The elements at the front that are too old to complete a group. -/
def expired (now : Nat) (dec : FecDecoder) : Nat :=
  (dec.rx.takeWhile fun e => now - e.at' > EXPIRY).length

def boundWindow (dec : FecDecoder) : Except Panic FecDecoder :=
  if dec.rx.length > dec.rxlimit then dec.freeRange 0 1 else .ok dec

def expire (now : Nat) (dec : FecDecoder) : Except Panic FecDecoder :=
  if dec.expired now > 0 then dec.freeRange 0 (dec.expired now) else .ok dec

/-- Bounds the window and drops what is too old. -/
def trim (now : Nat) (dec : FecDecoder) : Except Panic FecDecoder := do
  let dec ← dec.boundWindow
  dec.expire now

/-- `decode` at the time `now`. -/
def decode (seqid : UInt32) (flag : UInt16) (data : Bytes) (now : Nat) (dec : FecDecoder) :
    Except Panic (List Bytes × FecDecoder) := do
  match ← slot dec.rx seqid dec.rx.length with
  | none => .ok ([], dec)
  | some insertAt =>
    let rx ← insert dec.rx insertAt { seqid := seqid, flag := flag, data := data, at' := now }
    let (recovered, dec) ← recover seqid insertAt { dec with rx := rx }
    let dec ← dec.trim now
    .ok (recovered, dec)

/-- Feeds shards in one after the other, each at its time. -/
def decodeAll : List FecElement → FecDecoder → Except Panic (List (List Bytes) × FecDecoder)
  | [], dec => .ok ([], dec)
  | s :: shards, dec => do
    let (recovered, dec) ← dec.decode s.seqid s.flag s.data s.at'
    let (rest, dec) ← decodeAll shards dec
    .ok (recovered :: rest, dec)

end FecDecoder

end Kcp
end RtProxy
