import RtProxy.Kcp.FecEncode
import Mathlib.Data.Finset.Lattice.Fold
import Mathlib.Data.Finset.Range
import Mathlib.Order.Lattice.Nat

/-!
What an encoder emits, group by group.

A group is `datashard` blocks and the parity computed from them.  After any number of
blocks the encoder stands at a known position, caches the packets of the group it is in,
and has emitted the packets of the positions before.
-/

namespace RtProxy
namespace Kcp

/-- What the crate says of a codec for `d` data and `p` parity shards: `encode` leaves the
data in front of the parity, and `reconstruct_data` puts the data of a codeword back when
`d` of its shards are there. -/
structure ReedSolomon.Lawful (codec : ReedSolomon) (d p : Nat) : Prop where
  encodes : ∀ {shards : List Bytes} {len : Nat}, shards.length = d + p → 0 < len →
    (∀ shard ∈ shards, shard.length = len) →
    ∃ out, codec.encode shards = some out ∧ out.take d = shards.take d
  restores : ∀ {shards out : List Bytes} {held : List (Option Bytes)} {len : Nat},
    shards.length = d + p → 0 < len → (∀ shard ∈ shards, shard.length = len) →
    codec.encode shards = some out → held.length = d + p →
    (∀ (i : Nat) (shard : Bytes), held[i]? = some (some shard) → out[i]? = some shard) →
    d ≤ (held.filter Option.isSome).length →
    ∃ restored, codec.reconstructData held = some restored
      ∧ ∀ i : Nat, i < d → restored[i]? = out[i]?.map some

/-- What it says of `ReedSolomon::new`. -/
def NewCodec.Lawful (rs : NewCodec) : Prop :=
  ∀ d p codec, rs d p = some codec → 0 < d ∧ 0 < p ∧ d + p ≤ 256 ∧ codec.Lawful d p

theorem NewCodec.Lawful.bounded {rs : NewCodec} (h : rs.Lawful) : rs.Bounded := by
  intro d p codec hc
  obtain ⟨hd, hp, hle, -⟩ := h d p codec hc
  exact ⟨hd, hp, hle⟩

namespace FecEncoder

/-- Every packet of some blocks, in the order they go out. -/
def frameAll : List Bytes → FecEncoder → List Bytes × FecEncoder
  | [], enc => ([], enc)
  | segments :: blocks, enc =>
    ((enc.frame segments).1 :: (enc.frame segments).2.1
        ++ (frameAll blocks (enc.frame segments).2.2).1,
      (frameAll blocks (enc.frame segments).2.2).2)

/-- The packet at a position of what is emitted for a sequence of blocks.  A block gives
at least one packet, so that the first `pos + 1` of them decide it. -/
def emitted (enc : FecEncoder) (blocks : Nat → Bytes) (pos : Nat) : Bytes :=
  (enc.frameAll ((List.range (pos + 1)).map blocks)).1.getD pos []

theorem frameAll_append (blocks : List Bytes) (segments : Bytes) (enc : FecEncoder) :
    enc.frameAll (blocks ++ [segments])
      = ((enc.frameAll blocks).1 ++ ((enc.frameAll blocks).2.frame segments).1
          :: ((enc.frameAll blocks).2.frame segments).2.1,
        ((enc.frameAll blocks).2.frame segments).2.2) := by
  induction blocks generalizing enc with
  | nil => simp [frameAll]
  | cons block blocks ih => simp [frameAll, ih]

end FecEncoder

/-! ## The shards by position -/

/-- A sequence of blocks and the code it is sent with. -/
structure Sending where
  datashard : Nat
  parityshard : Nat
  codec : ReedSolomon
  blocks : Nat → Bytes

namespace Sending

def shardSize (s : Sending) : Nat := s.datashard + s.parityshard

/-- The payload of the longest block of a group. -/
def groupLen (s : Sending) (k : Nat) : Nat :=
  (Finset.range s.datashard).sup fun i => (dataPayload (s.blocks (k * s.datashard + i))).length

/-- A data shard as it enters the code. -/
def dataShard (s : Sending) (k i : Nat) : Bytes :=
  pad (s.groupLen k) (dataPayload (s.blocks (k * s.datashard + i)))

def groupData (s : Sending) (k : Nat) : List Bytes :=
  (List.range s.datashard).map (s.dataShard k)
    ++ List.replicate s.parityshard (List.replicate (s.groupLen k) 0)

def codeword (s : Sending) (k : Nat) : List Bytes := (s.codec.encode (s.groupData k)).getD []

def flagAt (s : Sending) (pos : Nat) : UInt16 :=
  if pos % s.shardSize < s.datashard then TYPE_DATA else TYPE_PARITY

def payloadAt (s : Sending) (pos : Nat) : Bytes :=
  if pos % s.shardSize < s.datashard then
    dataPayload (s.blocks (pos / s.shardSize * s.datashard + pos % s.shardSize))
  else (s.codeword (pos / s.shardSize)).getD (pos % s.shardSize) []

def packetAt (s : Sending) (pos : Nat) : Bytes :=
  shardPacket (seqAt s.shardSize pos) (s.flagAt pos) (s.payloadAt pos)

/-- How many packets the first `n` blocks give. -/
def count (s : Sending) (n : Nat) : Nat := n / s.datashard * s.shardSize + n % s.datashard

/-- Counts that the crate takes and blocks that fit the size field. -/
structure Valid (s : Sending) : Prop where
  data_pos : 0 < s.datashard
  parity_pos : 0 < s.parityshard
  le : s.shardSize ≤ 256
  lawful : s.codec.Lawful s.datashard s.parityshard
  blocks : ∀ n, 1 ≤ (s.blocks n).length ∧ (s.blocks n).length ≤ 65533

variable {s : Sending}

theorem Valid.pos (h : s.Valid) : 0 < s.shardSize := by
  have := h.data_pos
  rw [shardSize]
  omega

theorem length_dataPayload (segments : Bytes) : (dataPayload segments).length = 2 + segments.length := by
  rw [dataPayload, List.length_append, Bytes.length_le]

theorem length_dataPayload_le (s : Sending) (k : Nat) {i : Nat} (hi : i < s.datashard) :
    (dataPayload (s.blocks (k * s.datashard + i))).length ≤ s.groupLen k :=
  Finset.le_sup (f := fun i => (dataPayload (s.blocks (k * s.datashard + i))).length)
    (Finset.mem_range.mpr hi)

theorem length_pad {n : Nat} {bs : Bytes} (h : bs.length ≤ n) : (pad n bs).length = n := by
  rw [pad, List.length_append, List.length_replicate]
  omega

theorem Valid.groupLen_pos (h : s.Valid) (k : Nat) : 0 < s.groupLen k := by
  have hle := s.length_dataPayload_le k h.data_pos
  rw [length_dataPayload] at hle
  omega

theorem length_groupData (s : Sending) (k : Nat) : (s.groupData k).length = s.shardSize := by
  simp [groupData, shardSize]

theorem length_of_mem_groupData {k : Nat} {shard : Bytes} (h : shard ∈ s.groupData k) :
    shard.length = s.groupLen k := by
  rcases List.mem_append.mp h with h | h
  · obtain ⟨i, hi, rfl⟩ := List.mem_map.mp h
    exact length_pad (s.length_dataPayload_le k (List.mem_range.mp hi))
  · rw [List.eq_of_mem_replicate h, List.length_replicate]

theorem Valid.encode_eq (h : s.Valid) (k : Nat) :
    s.codec.encode (s.groupData k) = some (s.codeword k)
      ∧ (s.codeword k).take s.datashard = (List.range s.datashard).map (s.dataShard k) := by
  obtain ⟨out, hout, htake⟩ := h.lawful.encodes (s.length_groupData k) (h.groupLen_pos k)
    fun _ => length_of_mem_groupData
  have hcw : s.codeword k = out := by rw [codeword, hout, Option.getD_some]
  have hlen : ((List.range s.datashard).map (s.dataShard k)).length = s.datashard := by simp
  rw [hcw, htake, groupData, List.take_left' hlen]
  exact ⟨hout, rfl⟩

theorem Valid.lengths_codeword (h : s.Valid) (k : Nat) :
    (s.codeword k).length = s.shardSize ∧ ∀ shard ∈ s.codeword k, shard.length = s.groupLen k := by
  have hlens := s.codec.lengths_encode (h.encode_eq k).1
  constructor
  · have := congrArg List.length hlens
    rw [List.length_map, List.length_map, length_groupData] at this
    exact this
  · intro shard hmem
    have hshard : shard.length ∈ (s.groupData k).map List.length :=
      hlens ▸ List.mem_map_of_mem hmem
    obtain ⟨shard', hmem', heq⟩ := List.mem_map.mp hshard
    exact heq ▸ length_of_mem_groupData hmem'

/-- The data shards come first in the codeword. -/
theorem Valid.codeword_data (h : s.Valid) (k : Nat) {i : Nat} (hi : i < s.datashard) :
    (s.codeword k)[i]? = some (s.dataShard k i) := by
  rw [← List.getElem?_take_of_lt hi, (h.encode_eq k).2, List.getElem?_map,
    List.getElem?_range hi]
  rfl

/-! ## Positions -/

/-- The quotient and the remainder of the place `i` in the block `k` of `n` places. -/
theorem block_pos {n : Nat} (k : Nat) {i : Nat} (hi : i < n) :
    (k * n + i) / n = k ∧ (k * n + i) % n = i := by
  rw [Nat.add_comm, Nat.mul_comm]
  constructor
  · rw [Nat.add_mul_div_left _ _ (by omega), Nat.div_eq_of_lt hi, Nat.zero_add]
  · rw [Nat.add_mul_mod_self_left, Nat.mod_eq_of_lt hi]

theorem packetAt_data (s : Sending) (hp : 0 < s.parityshard) (k : Nat) {i : Nat} (hi : i < s.datashard) :
    s.packetAt (k * s.shardSize + i) = shardPacket (seqAt s.shardSize (k * s.shardSize + i)) TYPE_DATA
      (dataPayload (s.blocks (k * s.datashard + i))) := by
  obtain ⟨hdiv, hmod⟩ := block_pos k (show i < s.shardSize by rw [shardSize]; omega)
  rw [packetAt, flagAt, payloadAt, hdiv, hmod, if_pos hi, if_pos hi]

theorem packetAt_parity (s : Sending) (k : Nat) {i : Nat} (hi : i < s.parityshard) :
    s.packetAt (k * s.shardSize + (s.datashard + i))
      = shardPacket (seqAt s.shardSize (k * s.shardSize + (s.datashard + i))) TYPE_PARITY
        ((s.codeword k).getD (s.datashard + i) []) := by
  obtain ⟨hdiv, hmod⟩ := block_pos k (show s.datashard + i < s.shardSize by rw [shardSize]; omega)
  rw [packetAt, flagAt, payloadAt, hdiv, hmod, if_neg (by omega), if_neg (by omega)]

/-- Every block is sent in a packet of its own. -/
theorem le_count (s : Sending) (n : Nat) : n ≤ s.count n := by
  have hdiv := Nat.div_add_mod n s.datashard
  have hle : n / s.datashard * s.datashard ≤ n / s.datashard * s.shardSize :=
    Nat.mul_le_mul_left _ (Nat.le_add_right _ _)
  rw [Nat.mul_comm] at hdiv
  rw [count]
  omega

theorem count_of_block (s : Sending) (k : Nat) {i : Nat} (hi : i < s.datashard) :
    s.count (k * s.datashard + i) = k * s.shardSize + i := by
  obtain ⟨hdiv, hmod⟩ := block_pos k hi
  rw [count, hdiv, hmod]

end Sending

/-! ## The encoder after some blocks -/

/-- An encoder that has framed the first `i` blocks of the group `k`, and all before. -/
structure FecEncoder.Sends (s : Sending) (k i : Nat) (enc : FecEncoder) : Prop where
  datashard : enc.datashard = s.datashard
  parityshard : enc.parityshard = s.parityshard
  codec : enc.codec = s.codec
  stands : enc.At (k * s.shardSize + i)
  cache : enc.cache = (List.range i).map fun j => s.packetAt (k * s.shardSize + j)
  maxSize : enc.maxSize - (CRYPT_HEADER_SIZE + FEC_HEADER_SIZE)
    = (Finset.range i).sup fun j => (dataPayload (s.blocks (k * s.datashard + j))).length

namespace FecEncoder

variable {s : Sending} {enc : FecEncoder} {k i : Nat}

theorem length_shardPacket (seqid : UInt32) (flag : UInt16) (payload : Bytes) :
    (shardPacket seqid flag payload).length
      = CRYPT_HEADER_SIZE + FEC_HEADER_SIZE + payload.length := by
  simp only [shardPacket, List.length_append, List.length_replicate, Bytes.length_le,
    FEC_HEADER_SIZE]
  omega

theorem payload_shardPacket (seqid : UInt32) (flag : UInt16) (payload : Bytes) :
    (shardPacket seqid flag payload).drop (CRYPT_HEADER_SIZE + FEC_HEADER_SIZE) = payload := by
  rw [shardPacket, ← List.drop_drop, List.drop_left' List.length_replicate, ← List.append_assoc]
  exact List.drop_left' (by simp [FEC_HEADER_SIZE])

/-- The encoder with one packet more in its cache. -/
def caching (packet : Bytes) (enc : FecEncoder) : FecEncoder :=
  { enc with maxSize := max enc.maxSize packet.length, cache := enc.cache ++ [packet] }

theorem frame_eq (enc : FecEncoder) (segments : Bytes) :
    enc.frame segments = ((enc.frame segments).1,
      if ((enc.markData (2 + segments.length)).2.caching (enc.frame segments).1).cache.length
          < enc.datashard then
        ([], (enc.markData (2 + segments.length)).2.caching (enc.frame segments).1)
      else
        match enc.codec.encode (((enc.markData (2 + segments.length)).2.caching
            (enc.frame segments).1).groupShards (CRYPT_HEADER_SIZE + FEC_HEADER_SIZE)) with
        | none => ([], ((enc.markData (2 + segments.length)).2.caching (enc.frame segments).1).cleared)
        | some shards =>
          ((parityPackets (CRYPT_HEADER_SIZE + FEC_HEADER_SIZE) (shards.drop enc.datashard)
              ((enc.markData (2 + segments.length)).2.caching (enc.frame segments).1)).1,
            (parityPackets (CRYPT_HEADER_SIZE + FEC_HEADER_SIZE) (shards.drop enc.datashard)
              ((enc.markData (2 + segments.length)).2.caching (enc.frame segments).1)).2.cleared)) :=
  rfl

/-- A data packet is the one of its position, and goes into the cache. -/
theorem Sends.cached (hs : s.Valid) (h : enc.Sends s k i) (hi : i < s.datashard) :
    (enc.frame (s.blocks (k * s.datashard + i))).1 = s.packetAt (k * s.shardSize + i)
      ∧ ((enc.markData (2 + (s.blocks (k * s.datashard + i)).length)).2.caching
        (s.packetAt (k * s.shardSize + i))).Sends s k (i + 1) := by
  have hsize : enc.datashard + enc.parityshard = s.shardSize := by
    rw [h.datashard, h.parityshard, Sending.shardSize]
  have hmarked := h.stands.markData (2 + (s.blocks (k * s.datashard + i)).length)
  refine ⟨?_, ⟨h.datashard, h.parityshard, h.codec, ?_, ?_, ?_⟩⟩
  · rw [frame_fst h.stands, hsize, s.packetAt_data hs.parity_pos k hi]
  · exact ⟨hmarked.pos_shards, hmarked.le, hmarked.paws, hmarked.next⟩
  · show enc.cache ++ [_] = _
    rw [h.cache, List.range_succ, List.map_append]
    rfl
  · show max enc.maxSize _ - _ = _
    rw [Finset.range_add_one, Finset.sup_insert, ← h.maxSize, s.packetAt_data hs.parity_pos k hi,
      length_shardPacket]
    show _ = max _ _
    omega

theorem Sends.frame_lt (hs : s.Valid) (h : enc.Sends s k i) (hi : i + 1 < s.datashard) :
    ∃ enc', enc.frame (s.blocks (k * s.datashard + i)) = (s.packetAt (k * s.shardSize + i), [], enc')
      ∧ enc'.Sends s k (i + 1) := by
  obtain ⟨hpkt, hsends⟩ := h.cached hs (by omega)
  refine ⟨_, ?_, hsends⟩
  rw [frame_eq, hpkt, if_pos]
  rw [hsends.cache, List.length_map, List.length_range, h.datashard]
  exact hi

/-- A full cache is the data of its group. -/
theorem Sends.groupShards (hs : s.Valid) (h : enc.Sends s k s.datashard) :
    enc.groupShards (CRYPT_HEADER_SIZE + FEC_HEADER_SIZE) = s.groupData k := by
  rw [FecEncoder.groupShards, Sending.groupData, h.maxSize, h.cache, h.parityshard, List.map_map]
  refine congrArg₂ _ (List.map_congr_left fun j hj => ?_) rfl
  show pad _ ((s.packetAt _).drop _) = _
  rw [s.packetAt_data hs.parity_pos k (List.mem_range.mp hj), payload_shardPacket]
  rfl

theorem Sends.frame_last (hs : s.Valid) (h : enc.Sends s k i) (hi : i + 1 = s.datashard) :
    ∃ enc', enc.frame (s.blocks (k * s.datashard + i))
        = (s.packetAt (k * s.shardSize + i),
          (List.range s.parityshard).map (fun j => s.packetAt (k * s.shardSize + (s.datashard + j))),
          enc')
      ∧ enc'.Sends s (k + 1) 0 := by
  obtain ⟨hpkt, hsends⟩ := h.cached hs (by omega)
  rw [hi] at hsends
  have hfull : ¬ ((enc.markData (2 + (s.blocks (k * s.datashard + i)).length)).2.caching
      (s.packetAt (k * s.shardSize + i))).cache.length < enc.datashard := by
    rw [hsends.cache, List.length_map, List.length_range, h.datashard]
    exact Nat.lt_irrefl _
  have hsize : enc.datashard + enc.parityshard = s.shardSize := by
    rw [h.datashard, h.parityshard, Sending.shardSize]
  have hlen := (hs.lengths_codeword k).1
  have hparity : ((s.codeword k).drop s.datashard).length = s.parityshard := by
    rw [List.length_drop, hlen, Sending.shardSize, Nat.add_sub_cancel_left]
  have hpackets := parityPackets_eq hsends.stands ((s.codeword k).drop s.datashard)
  rw [frame_eq, hpkt, if_neg hfull, hsends.groupShards hs, h.codec, (hs.encode_eq k).1]
  simp only [h.datashard, hpackets]
  refine ⟨_, congrArg _ (Prod.ext ?_ rfl), ?_⟩
  · refine List.ext_getElem (by simp [hparity]) fun j hj _ => ?_
    rw [List.length_mapIdx, hparity] at hj
    rw [List.getElem_mapIdx, List.getElem_map, List.getElem_range, s.packetAt_parity k hj,
      List.getElem_drop, List.getD_eq_getElem?_getD,
      List.getElem?_eq_getElem (by rw [hlen, Sending.shardSize]; omega), Option.getD_some,
      Nat.add_assoc]
    exact congrArg (fun g => shardPacket (seqAt g _) _ _) hsize
  · have hnext : k * s.shardSize + s.datashard + s.parityshard = (k + 1) * s.shardSize + 0 := by
      rw [Nat.add_mul, Nat.one_mul, Sending.shardSize]
      omega
    have hstands := hsends.stands
    refine ⟨h.datashard, h.parityshard, h.codec, ⟨hstands.pos_shards, hstands.le, hstands.paws, ?_⟩,
      rfl, rfl⟩
    show seqAt _ _ = seqAt _ _
    rw [hparity, hnext]
    rfl

/-- The first `n` blocks give the packets of the first positions. -/
theorem frameAll_range (hs : s.Valid) (h : enc.Sends s 0 0) (n : Nat) :
    (enc.frameAll ((List.range n).map s.blocks)).1 = (List.range (s.count n)).map s.packetAt
      ∧ (enc.frameAll ((List.range n).map s.blocks)).2.Sends s (n / s.datashard) (n % s.datashard) := by
  induction n with
  | zero =>
    rw [Sending.count, Nat.zero_div, Nat.zero_mod, Nat.zero_mul]
    exact ⟨rfl, h⟩
  | succ n ih =>
    obtain ⟨hpackets, hsends⟩ := ih
    have hi := Nat.mod_lt n hs.data_pos
    have hn : n = n / s.datashard * s.datashard + n % s.datashard := by
      rw [Nat.mul_comm]
      exact (Nat.div_add_mod n s.datashard).symm
    have hcount : s.count n = n / s.datashard * s.shardSize + n % s.datashard := rfl
    rw [List.range_succ, List.map_append, List.map_singleton, frameAll_append, hpackets]
    rcases Nat.lt_or_ge (n % s.datashard + 1) s.datashard with hlt | hge
    · obtain ⟨enc', hframe, hsends'⟩ := hsends.frame_lt hs hlt
      obtain ⟨hdiv, hmod⟩ := Sending.block_pos (n / s.datashard) hlt
      have hsucc : n + 1 = n / s.datashard * s.datashard + (n % s.datashard + 1) := by omega
      rw [← hn] at hframe
      rw [hframe, hsucc, hdiv, hmod, s.count_of_block _ hlt, ← Nat.add_assoc, ← hcount,
        List.range_succ, List.map_append, hcount]
      exact ⟨rfl, hsends'⟩
    · have hlast : n % s.datashard + 1 = s.datashard := by omega
      obtain ⟨enc', hframe, hsends'⟩ := hsends.frame_last hs hlast
      obtain ⟨hdiv, hmod⟩ := Sending.block_pos (n / s.datashard + 1) hs.data_pos
      have hsucc : n + 1 = (n / s.datashard + 1) * s.datashard + 0 := by
        rw [Nat.add_mul]
        omega
      have hnext : s.count (n + 1) = s.count n + 1 + s.parityshard := by
        rw [hsucc, s.count_of_block _ hs.data_pos, hcount, Nat.add_mul, Sending.shardSize]
        omega
      have hparity (j : Nat) : n / s.datashard * s.shardSize + (s.datashard + j) = s.count n + 1 + j := by
        omega
      rw [← hn] at hframe
      rw [hframe, hnext, hsucc, hdiv, hmod, List.range_add, List.range_succ]
      simp only [List.map_append, List.map_map, List.append_assoc, hparity, hcount]
      exact ⟨rfl, hsends'⟩

/-- The encoder emits the packet of every position. -/
theorem emitted_eq (hs : s.Valid) (h : enc.Sends s 0 0) (pos : Nat) :
    enc.emitted s.blocks pos = s.packetAt pos := by
  have hlt : pos < s.count (pos + 1) := s.le_count (pos + 1)
  rw [emitted, (frameAll_range hs h (pos + 1)).1, List.getD_eq_getElem?_getD, List.getElem?_map,
    List.getElem?_range hlt]
  rfl

end FecEncoder

end Kcp
end RtProxy
