import RtProxy.Kcp.FecSearch

/-!
The grid of the shard numbers.

The numbers of a group are consecutive, begin at a multiple of the group's size and end
before the wrap.  So no group straddles the wrap, and a decoder that rounds a number down
to such a multiple finds the group of its shard.
-/

namespace RtProxy
namespace Kcp

/-- Consecutive groups of `size` numbers below `paws`; the group `k` begins at `g k`. -/
structure Grid (size paws : Nat) (g : Nat → Nat) : Prop where
  next : ∀ k, g (k + 1) = (g k + size) % paws
  aligned : ∀ k, size ∣ g k
  fits : ∀ k, g k + size ≤ paws

theorem mod_grid_add {size paws : Nat} (hdvd : size ∣ paws) (hpos : 0 < paws) (k : Nat) {i : Nat}
    (hi : i < size) : k * size % paws + size ≤ paws
      ∧ (k * size + i) % paws = k * size % paws + i := by
  obtain ⟨cells, rfl⟩ := hdvd
  have hcells : 0 < cells := Nat.pos_of_mul_pos_left hpos
  have hmod : k * size % (size * cells) = k % cells * size := by
    rw [Nat.mul_comm size, Nat.mul_mod_mul_right]
  have hfits : k % cells * size + size ≤ size * cells := by
    calc k % cells * size + size = (k % cells + 1) * size := (Nat.succ_mul _ _).symm
      _ ≤ cells * size := Nat.mul_le_mul_right size (Nat.mod_lt k hcells)
      _ = size * cells := Nat.mul_comm cells size
  refine ⟨hmod ▸ hfits, ?_⟩
  rw [Nat.add_mod, hmod, Nat.mod_eq_of_lt (show i < size * cells by omega)]
  exact Nat.mod_eq_of_lt (by omega)

theorem grid_mul {size paws : Nat} (hsize : 0 < size) (hdvd : size ∣ paws) (hpos : 0 < paws) :
    Grid size paws fun k => k * size % paws where
  next k := by
    show (k + 1) * size % paws = (k * size % paws + size) % paws
    rw [Nat.succ_mul, Nat.mod_add_mod]
  aligned k := (Nat.dvd_mod_iff hdvd).mpr (Nat.dvd_mul_left size k)
  fits k := (mod_grid_add hdvd hpos k hsize).1

/-! ## The encoder -/

/-- `encode` does not fail on `n` shards of one length. -/
def ReedSolomon.Encodes (codec : ReedSolomon) (n : Nat) : Prop :=
  ∀ shards len, shards.length = n → 0 < len → (∀ shard ∈ shards, shard.length = len) →
    (codec.encode shards).isSome

namespace FecEncoder

/-- An encoder that has taken in `i` blocks of its group `k`. -/
structure Standing (k i : Nat) (enc : FecEncoder) : Prop where
  stands : enc.At (k * (enc.datashard + enc.parityshard) + i)
  cache : enc.cache.length = i
  lt : i < enc.datashard
  within : enc.Within enc.maxSize
  encodes : enc.codec.Encodes (enc.datashard + enc.parityshard)

variable {enc : FecEncoder} {k i : Nat}

/-- The encoder with the packet of a block in its cache. -/
def cached (enc : FecEncoder) (segments : Bytes) : FecEncoder :=
  (enc.markData (2 + segments.length)).2.caching (enc.frame segments).1

theorem Standing.cached (h : enc.Standing k i) (segments : Bytes) :
    (enc.cached segments).At (k * (enc.datashard + enc.parityshard) + (i + 1))
      ∧ (enc.cached segments).cache.length = i + 1
      ∧ (enc.cached segments).Within (enc.cached segments).maxSize
      ∧ CRYPT_HEADER_SIZE + FEC_HEADER_SIZE < (enc.cached segments).maxSize := by
  have hmarked := h.stands.markData (2 + segments.length)
  have hlen := length_frame segments enc
  refine ⟨⟨hmarked.pos_shards, hmarked.le, hmarked.paws, hmarked.next⟩, ?_, ⟨Nat.le_refl _, ?_⟩, ?_⟩
  · show (enc.cache ++ [_]).length = _
    rw [List.length_append, h.cache, List.length_singleton]
  · intro q hq
    show q.length ≤ max enc.maxSize (enc.frame segments).1.length
    rcases List.mem_append.mp hq with hq | hq
    · exact Nat.le_trans (h.within.cached q hq) (Nat.le_max_left _ _)
    · rw [List.mem_singleton.mp hq]
      exact Nat.le_max_right _ _
  · have hmax : (enc.frame segments).1.length ≤ (enc.cached segments).maxSize :=
      Nat.le_max_right _ _
    rw [hlen, FEC_HEADER_SIZE_PLUS2] at hmax
    omega

theorem Standing.frame_lt (h : enc.Standing k i) (hi : i + 1 < enc.datashard) (segments : Bytes) :
    (enc.frame segments).2.1 = [] ∧ (enc.frame segments).2.2.Standing k (i + 1)
      ∧ enc.SameCounts (enc.frame segments).2.2 := by
  obtain ⟨hat, hcache, hwithin, -⟩ := h.cached segments
  have hframe : (enc.frame segments).2 = ([], enc.cached segments) := by
    rw [frame_eq]
    exact if_pos (hcache.trans_lt hi)
  rw [hframe]
  exact ⟨rfl, ⟨hat, hcache, hi, hwithin, h.encodes⟩, rfl, rfl⟩

theorem Standing.frame_last (h : enc.Standing k i) (hi : i + 1 = enc.datashard) (segments : Bytes) :
    (∃ bodies : List Bytes, bodies.length = enc.parityshard
      ∧ (enc.frame segments).2.1 = bodies.mapIdx fun j body =>
        shardPacket (seqAt (enc.datashard + enc.parityshard)
          (k * (enc.datashard + enc.parityshard) + (enc.datashard + j))) TYPE_PARITY body)
      ∧ (enc.frame segments).2.2.Standing (k + 1) 0 ∧ enc.SameCounts (enc.frame segments).2.2 := by
  obtain ⟨hat, hcache, hwithin, hmax⟩ := h.cached segments
  have hfull : ¬ (enc.cached segments).cache.length < enc.datashard := by omega
  have hcount : ((enc.cached segments).groupShards (CRYPT_HEADER_SIZE + FEC_HEADER_SIZE)).length
      = enc.datashard + enc.parityshard := by
    rw [groupShards, List.length_append, List.length_map, List.length_replicate, hcache, hi]
    rfl
  obtain ⟨shards, hencode⟩ := Option.isSome_iff_exists.mp (h.encodes _ _ hcount
    (Nat.sub_pos_of_lt hmax) (length_of_mem_groupShards hwithin))
  have hshards : shards.length = enc.datashard + enc.parityshard := by
    have hlens := congrArg List.length (enc.codec.lengths_encode hencode)
    rwa [List.length_map, List.length_map, hcount] at hlens
  have hbodies : (shards.drop enc.datashard).length = enc.parityshard := by
    rw [List.length_drop, hshards]
    omega
  have hpackets := parityPackets_eq hat (shards.drop enc.datashard)
  have hframe : (enc.frame segments).2
      = ((parityPackets (CRYPT_HEADER_SIZE + FEC_HEADER_SIZE) (shards.drop enc.datashard)
          (enc.cached segments)).1,
        (parityPackets (CRYPT_HEADER_SIZE + FEC_HEADER_SIZE) (shards.drop enc.datashard)
          (enc.cached segments)).2.cleared) := by
    have hshown : enc.codec.encode (groupShards (CRYPT_HEADER_SIZE + FEC_HEADER_SIZE)
        ((enc.markData (2 + segments.length)).2.caching (enc.frame segments).1)) = some shards :=
      hencode
    rw [frame_eq]
    refine (if_neg hfull).trans ?_
    rw [hshown]
    rfl
  rw [hframe, hpackets]
  refine ⟨⟨shards.drop enc.datashard, hbodies, ?_⟩, ⟨?_, rfl, ?_, within_cleared _ _, h.encodes⟩,
    rfl, rfl⟩
  · refine congrArg (fun f => (shards.drop enc.datashard).mapIdx f) (funext fun j => ?_)
    rw [hi, Nat.add_assoc]
    rfl
  · refine ⟨hat.pos_shards, hat.le, hat.paws, ?_⟩
    show seqAt _ _ = seqAt _ _
    rw [hbodies, hi, Nat.add_assoc, Nat.succ_mul]
    rfl
  · have hpos := h.lt
    show 0 < enc.datashard
    omega

theorem standing_new {rs : NewCodec} (hrs : rs.Bounded) {d p : UInt32}
    (h : new rs d p = some enc) (hcodec : enc.codec.Encodes (d.toNat + p.toNat)) :
    enc.Standing 0 0 := by
  obtain ⟨hat, hd, hp, hcache, hmax, hnew⟩ := at_new hrs h
  have hpos := (hrs _ _ _ hnew).1
  refine ⟨?_, ?_, ?_, within_new h enc.maxSize, ?_⟩
  · rw [Nat.zero_mul]
    exact hat
  · rw [hcache]
    rfl
  · rw [hd]
    exact hpos
  · rw [hd, hp]
    exact hcodec

/-- After `n` blocks an encoder stands in the group `n / d`, at the block `n % d` of it. -/
theorem Standing.frameAll (h : enc.Standing 0 0) (blocks : List Bytes) :
    (enc.frameAll blocks).2.Standing (blocks.length / enc.datashard)
        (blocks.length % enc.datashard)
      ∧ enc.SameCounts (enc.frameAll blocks).2 := by
  induction blocks using List.reverseRecOn with
  | nil =>
    rw [List.length_nil, Nat.zero_div, Nat.zero_mod]
    exact ⟨h, rfl, rfl⟩
  | append_singleton blocks segments ih =>
    obtain ⟨hstanding, hd, hp⟩ := ih
    have hmod := Nat.div_add_mod blocks.length enc.datashard
    rw [Nat.mul_comm] at hmod
    rw [frameAll_append, List.length_append, List.length_singleton]
    rcases Nat.lt_or_ge (blocks.length % enc.datashard + 1) enc.datashard with hlt | hge
    · obtain ⟨-, hnext, hd', hp'⟩ := hstanding.frame_lt (hd.symm ▸ hlt) segments
      obtain ⟨hdiv, hrem⟩ := Sending.block_pos (blocks.length / enc.datashard) hlt
      rw [← Nat.add_assoc, hmod] at hdiv hrem
      rw [hdiv, hrem]
      exact ⟨hnext, hd'.trans hd, hp'.trans hp⟩
    · have hlast : blocks.length % enc.datashard + 1 = enc.datashard :=
        Nat.le_antisymm (Nat.mod_lt _ h.lt) hge
      obtain ⟨-, hnext, hd', hp'⟩ := hstanding.frame_last (hlast.trans hd.symm) segments
      obtain ⟨hdiv, hrem⟩ := Sending.block_pos (blocks.length / enc.datashard + 1) h.lt
      have hsucc : (blocks.length / enc.datashard + 1) * enc.datashard + 0 = blocks.length + 1 := by
        rw [Nat.succ_mul]
        omega
      rw [hsucc] at hdiv hrem
      rw [hdiv, hrem]
      exact ⟨hnext, hd'.trans hd, hp'.trans hp⟩

end FecEncoder

/-! ## The numbers of a run -/

/-- What an encoder that has framed `blocks` makes of the block `segments`: its data shard
has the next number of its group, and the parity shards that the last block of a group
completes have the numbers after it. -/
structure Numbered (enc : FecEncoder) (g : Nat → Nat) (blocks : List Bytes) (segments : Bytes) :
    Prop where
  next_lt : (enc.frameAll blocks).2.next < enc.paws
  marked_lt : ((enc.frameAll blocks).2.markData (2 + segments.length)).2.next < enc.paws
  paws_eq : (enc.frameAll blocks).2.paws = enc.paws
  data : ∃ payload, ((enc.frameAll blocks).2.frame segments).1
    = shardPacket (UInt32.ofNat
      (g (blocks.length / enc.datashard) + blocks.length % enc.datashard)) TYPE_DATA payload
  early : blocks.length % enc.datashard + 1 < enc.datashard →
    ((enc.frameAll blocks).2.frame segments).2.1 = []
  parity : blocks.length % enc.datashard + 1 = enc.datashard →
    ∃ bodies : List Bytes, bodies.length = enc.parityshard
      ∧ ((enc.frameAll blocks).2.frame segments).2.1 = bodies.mapIdx fun j body =>
        shardPacket (UInt32.ofNat (g (blocks.length / enc.datashard) + (enc.datashard + j)))
          TYPE_PARITY body

namespace FecEncoder

variable {enc : FecEncoder} {pos : Nat}

theorem At.next_lt (h : enc.At pos) : enc.next < enc.paws := by
  rw [UInt32.lt_iff_toNat_lt, h.next, h.paws]
  exact toNat_seqAt_lt h.pos_shards h.le pos

theorem Standing.numbered (h : enc.Standing 0 0) (blocks : List Bytes) (segments : Bytes) :
    Numbered enc (fun k => k * (enc.datashard + enc.parityshard)
      % lastCell (enc.datashard + enc.parityshard)) blocks segments := by
  obtain ⟨hstanding, hd, hp⟩ := h.frameAll blocks
  have hpaws : (enc.frameAll blocks).2.paws = enc.paws := by
    apply UInt32.toNat_inj.mp
    rw [hstanding.stands.paws, h.stands.paws, hd, hp]
  have hdvd : enc.datashard + enc.parityshard ∣ lastCell (enc.datashard + enc.parityshard) :=
    Nat.dvd_mul_left _ _
  have hpos := lastCell_pos h.stands.pos_shards h.stands.le
  have hseq {i : Nat} (k : Nat) (hi : i < enc.datashard + enc.parityshard) :
      seqAt (enc.datashard + enc.parityshard) (k * (enc.datashard + enc.parityshard) + i)
        = UInt32.ofNat (k * (enc.datashard + enc.parityshard)
          % lastCell (enc.datashard + enc.parityshard) + i) := by
    rw [seqAt, (mod_grid_add hdvd hpos k hi).2]
  have hdata : enc.datashard ≤ enc.datashard + enc.parityshard := Nat.le_add_right _ _
  have hmod := Nat.mod_lt blocks.length h.lt
  refine ⟨?_, ?_, hpaws, ⟨dataPayload segments, ?_⟩, fun hlt => ?_, fun hlast => ?_⟩
  · rw [← hpaws]
    exact hstanding.stands.next_lt
  · rw [← hpaws]
    exact (hstanding.stands.markData (2 + segments.length)).next_lt
  · rw [frame_fst hstanding.stands, hd, hp, hseq _ (Nat.lt_of_lt_of_le hmod hdata)]
  · exact (hstanding.frame_lt (hd.symm ▸ hlt) segments).1
  · obtain ⟨⟨bodies, hbodies, hparity⟩, -, -⟩ :=
      hstanding.frame_last (hlast.trans hd.symm) segments
    refine ⟨bodies, hbodies.trans hp, ?_⟩
    rw [hparity, hd, hp]
    refine List.ext_getElem (by rw [List.length_mapIdx, List.length_mapIdx]) fun j hj _ => ?_
    rw [List.length_mapIdx, hbodies, hp] at hj
    rw [List.getElem_mapIdx, List.getElem_mapIdx, hseq _ (Nat.add_lt_add_left hj _)]

end FecEncoder

/-- A decoder finds the cell of every number of a group. -/
theorem FecDecoder.cell_of_group {dec : FecDecoder} (hv : dec.Valid) (k : Nat) {i : Nat}
    (hi : i < dec.shardSize) :
    dec.groupBegin (UInt32.ofNat (k * dec.shardSize % lastCell dec.shardSize + i))
        = UInt32.ofNat (k * dec.shardSize % lastCell dec.shardSize)
      ∧ dec.groupEnd (UInt32.ofNat (k * dec.shardSize % lastCell dec.shardSize + i))
        = UInt32.ofNat (k * dec.shardSize % lastCell dec.shardSize + (dec.shardSize - 1)) := by
  have hdvd : dec.shardSize ∣ lastCell dec.shardSize := Nat.dvd_mul_left _ _
  have hseq {i : Nat} (hi : i < dec.shardSize) :
      UInt32.ofNat (k * dec.shardSize % lastCell dec.shardSize + i)
        = seqAt dec.shardSize (k * dec.shardSize + i) := by
    rw [seqAt, (mod_grid_add hdvd (lastCell_pos hv.pos hv.le) k hi).2]
  obtain ⟨hdiv, -⟩ := Sending.block_pos k hi
  have hbegin := groupBegin_seqAt hv (k * dec.shardSize + i)
  have hend := groupEnd_seqAt hv (k * dec.shardSize + i)
  rw [hdiv] at hbegin hend
  rw [hseq hi, hbegin, hend, hseq (Nat.sub_lt hv.pos Nat.one_pos)]
  exact ⟨(hseq hv.pos).symm, rfl⟩

/-- The groups of an encoder are a grid whose cells end at the wrap or before, every shard
has its number on it, whatever has been sent before, and a decoder finds the cell of each
number. -/
theorem seqids_on_grid {rs : NewCodec} (hrs : rs.Bounded) {d p : UInt32} {enc : FecEncoder}
    (hnew : FecEncoder.new rs d p = some enc)
    (hcodec : enc.codec.Encodes (d.toNat + p.toNat)) :
    ∃ g, Grid (d.toNat + p.toNat) enc.paws.toNat g
      ∧ (∀ blocks segments, Numbered enc g blocks segments)
      ∧ ∀ dec, FecDecoder.new rs d p = some dec → ∀ k i, i < d.toNat + p.toNat →
        (g k + i) % (d.toNat + p.toNat) = i
          ∧ dec.groupBegin (UInt32.ofNat (g k + i)) = UInt32.ofNat (g k)
          ∧ dec.groupEnd (UInt32.ofNat (g k + i))
            = UInt32.ofNat (g k + (d.toNat + p.toNat - 1)) := by
  obtain ⟨hat, hd, hp, -⟩ := FecEncoder.at_new hrs hnew
  have hstanding := FecEncoder.standing_new hrs hnew hcodec
  have hdvd : d.toNat + p.toNat ∣ lastCell (d.toNat + p.toNat) := Nat.dvd_mul_left _ _
  have hpaws := hat.paws
  have hpos := hat.pos_shards
  have hle := hat.le
  have hnumbered := hstanding.numbered
  rw [hd, hp] at hpaws hpos hle hnumbered
  have hgrid := grid_mul hpos hdvd (lastCell_pos hpos hle)
  refine ⟨_, hpaws ▸ hgrid, hnumbered, fun dec hdec k i hi => ⟨?_, ?_⟩⟩
  · obtain ⟨cells, hcells⟩ := hgrid.aligned k
    rw [hcells, Nat.mul_add_mod, Nat.mod_eq_of_lt hi]
  · obtain ⟨hv, -, hsize, -⟩ := FecDecoder.valid_new hrs hdec
    rw [← hsize] at hi ⊢
    exact FecDecoder.cell_of_group hv k hi

theorem copyCodec_encodes : copyCodec.Encodes 2 := by
  intro shards len hcount _ hshards
  obtain ⟨a, b, rfl⟩ := List.length_eq_two.mp hcount
  have ha := hshards a (by simp)
  have hb := hshards b (by simp)
  have hcopy : copyCodec.encode [a, b] = some [a, a] := if_pos (ha.trans hb.symm)
  rw [hcopy]
  rfl

def copyEncoder : FecEncoder :=
  { next := 0, paws := 0xFFFFFFFE, datashard := 1, parityshard := 1, codec := copyCodec,
    cache := [], maxSize := 0 }

/-- One data and one parity shard. -/
theorem seqids_on_grid_pair :
    ∃ g, Grid 2 copyEncoder.paws.toNat g
      ∧ (∀ blocks segments, Numbered copyEncoder g blocks segments)
      ∧ ∀ dec, FecDecoder.new newCopyCodec 1 1 = some dec → ∀ k i, i < 2 →
        (g k + i) % 2 = i ∧ dec.groupBegin (UInt32.ofNat (g k + i)) = UInt32.ofNat (g k)
          ∧ dec.groupEnd (UInt32.ofNat (g k + i)) = UInt32.ofNat (g k + (2 - 1)) :=
  seqids_on_grid newCopyCodec_bounded (d := 1) (p := 1) rfl copyCodec_encodes

end Kcp
end RtProxy
