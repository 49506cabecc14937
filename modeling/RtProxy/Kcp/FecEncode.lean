import RtProxy.Kcp.FecTotal
import RtProxy.Kcp.Packet

/-!
The numbering of the shards that an encoder emits.

Shards are counted by the position at which they are emitted; a shard's number is its
position modulo the start of the last cell, whichever of the two marks it gets.
-/

namespace RtProxy
namespace Kcp

/-- The number of the shard at a position. -/
def seqAt (shardSize pos : Nat) : UInt32 := UInt32.ofNat (pos % lastCell shardSize)

theorem lastCell_lt (shardSize : Nat) : lastCell shardSize < 2 ^ 32 := by
  have := Nat.div_mul_le_self (2 ^ 32 - 1) shardSize
  rw [lastCell]
  omega

theorem lastCell_pos {shardSize : Nat} (hpos : 0 < shardSize) (hle : shardSize ≤ 256) :
    0 < lastCell shardSize := by
  refine Nat.mul_pos (Nat.div_pos ?_ hpos) hpos
  omega

/-- An unsealed packet that carries a shard. -/
def shardPacket (seqid : UInt32) (flag : UInt16) (payload : Bytes) : Bytes :=
  List.replicate CRYPT_HEADER_SIZE 0 ++ (Bytes.le 4 seqid.toNat ++ (Bytes.le 2 flag.toNat ++ payload))

/-- The payload of a data shard. -/
def dataPayload (segments : Bytes) : Bytes := Bytes.le 2 (2 + segments.length) ++ segments

section

variable {shardSize : Nat} (hpos : 0 < shardSize) (hle : shardSize ≤ 256)

include hpos hle

theorem toNat_seqAt (pos : Nat) : (seqAt shardSize pos).toNat = pos % lastCell shardSize := by
  have hlt := Nat.mod_lt pos (lastCell_pos hpos hle)
  have := lastCell_lt shardSize
  exact UInt32.toNat_ofNat_of_lt' (by show _ < 2 ^ 32; omega)

theorem toNat_seqAt_lt (pos : Nat) : (seqAt shardSize pos).toNat < lastCell shardSize := by
  rw [toNat_seqAt hpos hle]
  exact Nat.mod_lt pos (lastCell_pos hpos hle)

theorem toNat_seqAt_succ (pos : Nat) :
    (seqAt shardSize pos + 1).toNat = pos % lastCell shardSize + 1 := by
  have hlt := Nat.mod_lt pos (lastCell_pos hpos hle)
  have := lastCell_lt shardSize
  rw [UInt32.toNat_add, toNat_seqAt hpos hle]
  exact Nat.mod_eq_of_lt (by show _ + 1 < 2 ^ 32; omega)

/-- The wrap of a parity shard. -/
theorem seqAt_succ_mod {paws : UInt32} (hpaws : paws.toNat = lastCell shardSize) (pos : Nat) :
    (seqAt shardSize pos + 1) % paws = seqAt shardSize (pos + 1) := by
  apply UInt32.toNat_inj.mp
  rw [UInt32.toNat_mod, toNat_seqAt_succ hpos hle, hpaws, toNat_seqAt hpos hle, Nat.add_mod,
    Nat.mod_mod, ← Nat.add_mod]

/-- The wrap of a data shard. -/
theorem seqAt_succ_ite {paws : UInt32} (hpaws : paws.toNat = lastCell shardSize) (pos : Nat) :
    (if seqAt shardSize pos + 1 ≥ paws then 0 else seqAt shardSize pos + 1)
      = seqAt shardSize (pos + 1) := by
  rw [← seqAt_succ_mod hpos hle hpaws]
  have hlt := Nat.mod_lt pos (lastCell_pos hpos hle)
  have hsucc := toNat_seqAt_succ hpos hle pos
  apply UInt32.toNat_inj.mp
  rw [UInt32.toNat_mod, hsucc, hpaws]
  by_cases h : paws ≤ seqAt shardSize pos + 1
  · rw [if_pos h]
    rw [UInt32.le_iff_toNat_le, hsucc, hpaws] at h
    have heq : pos % lastCell shardSize + 1 = lastCell shardSize := by omega
    rw [heq, Nat.mod_self]
    rfl
  · rw [if_neg h, hsucc]
    rw [UInt32.le_iff_toNat_le, hsucc, hpaws] at h
    exact (Nat.mod_eq_of_lt (by omega)).symm

end

namespace FecEncoder

/-- An encoder that is going to emit the shard at position `pos`. -/
structure At (enc : FecEncoder) (pos : Nat) : Prop where
  pos_shards : 0 < enc.datashard + enc.parityshard
  le : enc.datashard + enc.parityshard ≤ 256
  paws : enc.paws.toNat = lastCell (enc.datashard + enc.parityshard)
  next : enc.next = seqAt (enc.datashard + enc.parityshard) pos

theorem at_new {rs : NewCodec} (hrs : rs.Bounded) {d p : UInt32} {enc : FecEncoder}
    (h : new rs d p = some enc) :
    enc.At 0 ∧ enc.datashard = d.toNat ∧ enc.parityshard = p.toNat ∧ enc.cache = []
      ∧ enc.maxSize = 0 ∧ rs d.toNat p.toNat = some enc.codec := by
  unfold new at h
  split at h
  · cases h
  split at h
  · cases h
  · rename_i codec hc
    cases h
    obtain ⟨hd, hp, hle⟩ := hrs _ _ _ hc
    refine ⟨⟨by simp only; omega, hle, ?_, ?_⟩, rfl, rfl, rfl, rfl, hc⟩
    · have hsum : (d + p).toNat = d.toNat + p.toNat := by
        rw [UInt32.toNat_add]
        exact Nat.mod_eq_of_lt (by omega)
      have hmul := Nat.div_mul_le_self (2 ^ 32 - 1) (d.toNat + p.toNat)
      simp only [lastCell]
      rw [UInt32.toNat_mul, UInt32.toNat_div, hsum]
      exact Nat.mod_eq_of_lt (Nat.lt_of_le_of_lt hmul (by decide))
    · simp [seqAt]

variable {enc : FecEncoder} {pos : Nat}

theorem At.markData (h : enc.At pos) (len : Nat) : (enc.markData len).2.At (pos + 1) :=
  ⟨h.pos_shards, h.le, h.paws, by
    simp only [FecEncoder.markData]
    rw [h.next]
    exact seqAt_succ_ite h.pos_shards h.le h.paws pos⟩

theorem At.markParity (h : enc.At pos) : enc.markParity.2.At (pos + 1) :=
  ⟨h.pos_shards, h.le, h.paws, by
    simp only [FecEncoder.markParity]
    rw [h.next]
    exact seqAt_succ_mod h.pos_shards h.le h.paws pos⟩

/-- The same encoder with another number for its next shard. -/
def withNext (enc : FecEncoder) (next : UInt32) : FecEncoder := { enc with next := next }

/-- Parity packets carry their shards at the positions that follow. -/
theorem parityPackets_eq (h : enc.At pos) (parity : List Bytes) :
    parityPackets (CRYPT_HEADER_SIZE + FEC_HEADER_SIZE) parity enc
      = (parity.mapIdx fun i body =>
          shardPacket (seqAt (enc.datashard + enc.parityshard) (pos + i)) TYPE_PARITY body,
        enc.withNext (seqAt (enc.datashard + enc.parityshard) (pos + parity.length))) := by
  induction parity generalizing enc pos with
  | nil =>
    rw [parityPackets, List.length_nil, Nat.add_zero, ← h.next]
    rfl
  | cons body parity ih =>
    have hrest := ih h.markParity
    have hnext := h.next
    have hswap (i : Nat) : pos + 1 + i = pos + (i + 1) := by omega
    rw [parityPackets, hrest, List.mapIdx_cons, List.length_cons]
    refine Prod.ext (congrArg₂ List.cons ?_ ?_) ?_
    · rw [FecEncoder.markParity, hnext]
      simp only [shardPacket, List.append_assoc]
      rfl
    · simp only [hswap]
      rfl
    · simp only [hswap]
      rfl

theorem frame_fst (h : enc.At pos) (segments : Bytes) :
    (enc.frame segments).1
      = shardPacket (seqAt (enc.datashard + enc.parityshard) pos) TYPE_DATA (dataPayload segments) := by
  rw [frame, FecEncoder.markData, ← h.next]
  simp only [shardPacket, dataPayload, List.append_assoc]

/-- An encoder of the same shard counts. -/
def SameCounts (enc enc' : FecEncoder) : Prop :=
  enc'.datashard = enc.datashard ∧ enc'.parityshard = enc.parityshard

theorem At.push (h : enc.At pos) (packet : Bytes) :
    (∃ pos', (enc.push packet (CRYPT_HEADER_SIZE + FEC_HEADER_SIZE)).2.At pos')
      ∧ enc.SameCounts (enc.push packet (CRYPT_HEADER_SIZE + FEC_HEADER_SIZE)).2
      ∧ ∀ q ∈ (enc.push packet (CRYPT_HEADER_SIZE + FEC_HEADER_SIZE)).1, ∃ pos' payload,
          q = shardPacket (seqAt (enc.datashard + enc.parityshard) pos') TYPE_PARITY payload := by
  have hcached : ({ enc with
      maxSize := max enc.maxSize packet.length
      cache := enc.cache ++ [packet] } : FecEncoder).At pos := ⟨h.pos_shards, h.le, h.paws, h.next⟩
  rw [FecEncoder.push]
  split
  · exact ⟨⟨pos, hcached⟩, ⟨rfl, rfl⟩, by simp⟩
  split
  · exact ⟨⟨pos, h.pos_shards, h.le, h.paws, h.next⟩, ⟨rfl, rfl⟩, by simp⟩
  · rename_i shards _
    rw [parityPackets_eq hcached]
    refine ⟨⟨_, h.pos_shards, h.le, h.paws, rfl⟩, ⟨rfl, rfl⟩, fun q hq => ?_⟩
    obtain ⟨i, hi, rfl⟩ := List.mem_mapIdx.mp hq
    exact ⟨_, _, rfl⟩

/-- A block becomes one data packet and parity packets only. -/
theorem At.frame (h : enc.At pos) (segments : Bytes) :
    (∃ pos', (enc.frame segments).2.2.At pos') ∧ enc.SameCounts (enc.frame segments).2.2
      ∧ ∀ q ∈ (enc.frame segments).2.1, ∃ pos' payload,
          q = shardPacket (seqAt (enc.datashard + enc.parityshard) pos') TYPE_PARITY payload :=
  (h.markData (2 + segments.length)).push _

/-! ## The size of a packet -/

/-- No packet of the group so far is longer than the longest on record, nor that than
`m`. -/
structure Within (m : Nat) (enc : FecEncoder) : Prop where
  maxSize_le : enc.maxSize ≤ m
  cached : ∀ q ∈ enc.cache, q.length ≤ enc.maxSize

variable {m : Nat}

theorem within_new {rs : NewCodec} {d p : UInt32} (h : new rs d p = some enc) (m : Nat) :
    enc.Within m := by
  unfold new at h
  split at h
  · cases h
  · split at h
    · cases h
    · cases h
      exact ⟨Nat.zero_le m, fun q hq => by cases hq⟩

theorem within_cleared (enc : FecEncoder) (m : Nat) : enc.cleared.Within m :=
  ⟨Nat.zero_le m, fun q hq => by cases hq⟩

theorem length_parityPackets {off : Nat} (hoff : FEC_HEADER_SIZE ≤ off) (parity : List Bytes)
    (enc : FecEncoder) :
    ∀ q ∈ (parityPackets off parity enc).1, ∃ body ∈ parity, q.length = off + body.length := by
  induction parity generalizing enc with
  | nil =>
    intro q hq
    cases hq
  | cons body parity ih =>
    intro q hq
    rw [parityPackets] at hq
    rcases List.mem_cons.mp hq with rfl | hq
    · refine ⟨body, List.mem_cons_self, ?_⟩
      rw [markParity, List.length_append, List.length_append, List.length_append,
        List.length_replicate, Bytes.length_le, Bytes.length_le]
      rw [FEC_HEADER_SIZE] at hoff ⊢
      omega
    · obtain ⟨body', hmem, hlen⟩ := ih enc.markParity.2 q hq
      exact ⟨body', List.mem_cons_of_mem body hmem, hlen⟩

/-- The shards of a group are as long as its longest packet behind the offset. -/
theorem length_of_mem_groupShards {off : Nat} (h : enc.Within m) :
    ∀ shard ∈ enc.groupShards off, shard.length = enc.maxSize - off := by
  intro shard hshard
  rcases List.mem_append.mp hshard with hdata | hparity
  · obtain ⟨q, hq, rfl⟩ := List.mem_map.mp hdata
    have hle := h.cached q hq
    rw [pad, List.length_append, List.length_replicate, List.length_drop]
    omega
  · rw [List.eq_of_mem_replicate hparity, List.length_replicate]

theorem Within.push {off : Nat} {packet : Bytes} (h : enc.Within m) (hoff : FEC_HEADER_SIZE ≤ off)
    (hpacket : off ≤ packet.length) (hm : packet.length ≤ m) :
    (enc.push packet off).2.Within m
      ∧ ∀ q ∈ (enc.push packet off).1, off ≤ q.length ∧ q.length ≤ m := by
  have hgrown : ({ enc with
      maxSize := max enc.maxSize packet.length
      cache := enc.cache ++ [packet] } : FecEncoder).Within m := by
    refine ⟨Nat.max_le.mpr ⟨h.maxSize_le, hm⟩, fun q hq => ?_⟩
    rcases List.mem_append.mp hq with hq | hq
    · exact Nat.le_trans (h.cached q hq) (Nat.le_max_left _ _)
    · rw [List.mem_singleton.mp hq]
      exact Nat.le_max_right _ _
  rw [FecEncoder.push]
  split
  · exact ⟨hgrown, fun q hq => by cases hq⟩
  · split
    · exact ⟨within_cleared _ m, fun q hq => by cases hq⟩
    · rename_i shards hencode
      refine ⟨within_cleared _ m, fun q hq => ?_⟩
      obtain ⟨body, hbody, hlen⟩ := length_parityPackets hoff _ _ q hq
      have hmem : body.length ∈ shards.map List.length :=
        List.mem_map_of_mem (List.mem_of_mem_drop hbody)
      rw [enc.codec.lengths_encode hencode] at hmem
      obtain ⟨shard, hshard, heq⟩ := List.mem_map.mp hmem
      have hshards := length_of_mem_groupShards hgrown shard hshard
      have hmax := hgrown.maxSize_le
      have hpacket' := Nat.le_max_right enc.maxSize packet.length
      simp only at hshards hmax
      omega

theorem length_frame (segments : Bytes) (enc : FecEncoder) :
    (enc.frame segments).1.length = CRYPT_HEADER_SIZE + FEC_HEADER_SIZE_PLUS2 + segments.length := by
  rw [frame, markData, List.length_append, List.length_append, List.length_append,
    List.length_append, List.length_replicate, Bytes.length_le, Bytes.length_le, Bytes.length_le]
  rfl

theorem Within.frame {segments : Bytes} (h : enc.Within m)
    (hm : CRYPT_HEADER_SIZE + FEC_HEADER_SIZE_PLUS2 + segments.length ≤ m) :
    (enc.frame segments).2.2.Within m
      ∧ ∀ q ∈ (enc.frame segments).1 :: (enc.frame segments).2.1,
        CRYPT_HEADER_SIZE ≤ q.length ∧ q.length ≤ m := by
  have hlen := length_frame segments enc
  have hmarked : (enc.markData (2 + segments.length)).2.Within m := ⟨h.maxSize_le, h.cached⟩
  have hoff : FEC_HEADER_SIZE ≤ CRYPT_HEADER_SIZE + FEC_HEADER_SIZE := Nat.le_add_left _ _
  have hpacket : CRYPT_HEADER_SIZE + FEC_HEADER_SIZE ≤ (enc.frame segments).1.length := by
    rw [hlen, FEC_HEADER_SIZE_PLUS2]
    omega
  obtain ⟨hnext, hparity⟩ := hmarked.push hoff hpacket (hlen ▸ hm)
  refine ⟨hnext, fun q hq => ?_⟩
  rcases List.mem_cons.mp hq with rfl | hq
  · omega
  · obtain ⟨hlow, hhigh⟩ := hparity q hq
    exact ⟨Nat.le_of_add_right_le hlow, hhigh⟩

end FecEncoder

end Kcp
end RtProxy
