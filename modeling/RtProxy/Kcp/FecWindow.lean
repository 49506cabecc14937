import RtProxy.Kcp.FecSearch
import RtProxy.Lib.Threshold

/-!
The decoder's window as a set of positions.

A call that brings a new shard gathers its whole group, wherever in the window it stands,
and gives it up once it has `datashard` of its shards.  That is the window of
`Threshold`, with a position's group as its key.
-/

namespace RtProxy
namespace Kcp

open Checked

theorem set_map_range {α : Type} (n c : Nat) (F : Nat → α) (v : α) :
    ((List.range n).map F).set c v = (List.range n).map fun i => if i = c then v else F i := by
  refine List.ext_getElem (by simp) fun i hi _ => ?_
  rw [List.getElem_set, List.getElem_map, List.getElem_map, List.getElem_range]
  by_cases h : c = i
  · rw [if_pos h, if_pos h.symm]
  · rw [if_neg h, if_neg fun heq => h heq.symm]

/-- The numbers left out by the last cell are fewer than a group. -/
theorem lastCell_ge {shardSize : Nat} (hpos : 0 < shardSize) : 2 ^ 32 ≤ lastCell shardSize + shardSize := by
  have hdiv := Nat.div_add_mod (2 ^ 32 - 1) shardSize
  have hmod := Nat.mod_lt (2 ^ 32 - 1) hpos
  rw [lastCell_eq]
  omega

/-- The positions of some feeds. -/
def positions (feeds : List Feed) : Finset Nat := (feeds.map Feed.pos).toFinset

theorem mem_positions {feeds : List Feed} {pos : Nat} :
    pos ∈ positions feeds ↔ ∃ f ∈ feeds, f.pos = pos := by
  rw [positions, List.mem_toFinset, List.mem_map]

theorem positions_cons (f : Feed) (feeds : List Feed) :
    positions (f :: feeds) = Insert.insert f.pos (positions feeds) := by
  rw [positions, List.map_cons, List.toFinset_cons, positions]

theorem positions_append (feeds feeds' : List Feed) :
    positions (feeds ++ feeds') = positions feeds ∪ positions feeds' := by
  rw [positions, List.map_append, List.toFinset_append, positions, positions]

theorem InOrder.card_positions {feeds : List Feed} (h : InOrder feeds) :
    (positions feeds).card = feeds.length := by
  rw [positions, List.toFinset_card_of_nodup, List.length_map]
  exact List.pairwise_map.mpr (h.imp Nat.ne_of_lt)

/-! ## What is gathered -/

/-- The shards of the group `k` at the positions `M`, the first of them at `first`. -/
structure Gathered.Holds (s : Sending) (k first : Nat) (M : Finset Nat) (g : Gathered) : Prop where
  shards : g.shards = (List.range s.shardSize).map fun i =>
    if k * s.shardSize + i ∈ M then some (s.payloadAt (k * s.shardSize + i)) else none
  present : g.present = (List.range s.shardSize).map fun i => decide (k * s.shardSize + i ∈ M)
  numShard : g.numShard = M.card
  numData : g.numData = (M.filter fun pos => pos % s.shardSize < s.datashard).card
  first : M.Nonempty → g.first = first
  maxlen : g.maxlen = M.sup fun pos => (s.payloadAt pos).length

namespace Gathered.Holds

variable {s : Sending} {k first : Nat} {M : Finset Nat} {g : Gathered}

theorem new (s : Sending) (k first : Nat) : Holds s k first ∅ (Gathered.new s.shardSize) where
  shards := by simp [Gathered.new]
  present := by simp [Gathered.new]
  numShard := rfl
  numData := rfl
  first := fun h => absurd h Finset.not_nonempty_empty
  maxlen := rfl

theorem adding (h : Holds s k first M g) {f : Feed} (hnew : f.pos ∉ M)
    (hk : f.pos / s.shardSize = k) {i : Nat} (hi : i = first + M.card) :
    Holds s k first (Insert.insert f.pos M) (g.adding i (f.pos % s.shardSize) (s.element f)) := by
  have hpos : f.pos = k * s.shardSize + f.pos % s.shardSize := by
    rw [← hk, Nat.mul_comm]
    exact (Nat.div_add_mod f.pos s.shardSize).symm
  have hmem (j : Nat) : k * s.shardSize + j ∈ Insert.insert f.pos M
      ↔ j = f.pos % s.shardSize ∨ k * s.shardSize + j ∈ M := by
    rw [Finset.mem_insert]
    refine or_congr_left ⟨fun h => by omega, fun h => by omega⟩
  refine ⟨?_, ?_, ?_, ?_, fun _ => ?_, ?_⟩
  · rw [Gathered.adding, h.shards, set_map_range]
    refine List.map_congr_left fun j _ => ?_
    by_cases hj : j = f.pos % s.shardSize
    · rw [if_pos hj, if_pos ((hmem j).mpr (.inl hj)), hj, ← hpos]
      rfl
    · rw [if_neg hj]
      simp only [hmem, hj, false_or]
  · rw [Gathered.adding, h.present, set_map_range]
    refine List.map_congr_left fun j _ => ?_
    by_cases hj : j = f.pos % s.shardSize
    · rw [if_pos hj, decide_eq_true ((hmem j).mpr (.inl hj))]
    · rw [if_neg hj]
      simp only [hmem, hj, false_or]
  · show g.numShard + 1 = _
    rw [Finset.card_insert_of_notMem hnew, h.numShard]
  · show (if s.flagAt f.pos = TYPE_DATA then g.numData + 1 else g.numData) = _
    rw [Finset.filter_insert, Sending.flagAt]
    by_cases hdata : f.pos % s.shardSize < s.datashard
    · rw [if_pos hdata, if_pos hdata, if_pos rfl,
        Finset.card_insert_of_notMem fun hin => hnew (Finset.mem_of_mem_filter _ hin), h.numData]
    · rw [if_neg hdata, if_neg hdata, if_neg (by decide), h.numData]
  · show (if g.numShard = 0 then i else g.first) = first
    rw [h.numShard]
    rcases M.eq_empty_or_nonempty with rfl | hne
    · exact hi
    · rw [if_neg (Finset.card_ne_zero.mpr hne), h.first hne]
  · show max g.maxlen (s.payloadAt f.pos).length = _
    rw [Finset.sup_insert, h.maxlen]
    exact Nat.max_comm _ _

end Gathered.Holds

namespace FecDecoder

/-- The search as a recursion on the elements it visits. -/
def gatherList (group shardBegin shardEnd : UInt32) :
    List FecElement → Nat → Gathered → Gathered
  | [], _, g => g
  | e :: rest, i, g =>
    if 0 < asI32 (e.seqid - shardEnd) then g
    else if 0 ≤ asI32 (e.seqid - shardBegin) then
      gatherList group shardBegin shardEnd rest (i + 1) (g.adding i (e.seqid % group).toNat e)
    else gatherList group shardBegin shardEnd rest (i + 1) g

theorem gather_eq (rx : List FecElement) {group : UInt32} (hgroup : group ≠ 0)
    (shardBegin shardEnd : UInt32) {n i : Nat} (h : i + n ≤ rx.length) {g : Gathered}
    (hg : Gathered.Sized group.toNat g) :
    gather rx group shardBegin shardEnd n i g
      = .ok (gatherList group shardBegin shardEnd ((rx.drop i).take n) i g) := by
  induction n generalizing i g with
  | zero => rfl
  | succ n ih =>
    have hi : i < rx.length := by omega
    have hpos : 0 < group.toNat := Nat.pos_of_ne_zero fun hz => hgroup (UInt32.toNat_inj.mp hz)
    rw [gather, index_ok hi, ok_bind, List.drop_eq_getElem_cons hi, List.take_succ_cons, gatherList]
    split
    · rfl
    split
    · have hidx : (rx[i].seqid % group).toNat < group.toNat := by
        rw [UInt32.toNat_mod]
        exact Nat.mod_lt _ hpos
      obtain ⟨hg', hsized⟩ := add_ok hg hidx i rx[i]
      rw [rem32_ok hgroup, ok_bind, hg', ok_bind]
      exact ih (by omega) hsized
    · exact ih (by omega) hg

section

variable {s : Sending} (hpos : 0 < s.shardSize) (hle : s.shardSize ≤ 256) (k : Nat)

/-- The search for the group `k` over some feeds. -/
def gatherFeeds (s : Sending) (k : Nat) (feeds : List Feed) : Nat → Gathered → Gathered :=
  gatherList (UInt32.ofNat s.shardSize) (seqAt s.shardSize (k * s.shardSize))
    (seqAt s.shardSize (k * s.shardSize + (s.shardSize - 1))) (feeds.map s.element)

include hpos hle

/-- Feeds of lower groups are passed. -/
theorem gatherFeeds_below {lower : List Feed} (hlower : ∀ f ∈ lower, f.pos < k * s.shardSize
      ∧ k * s.shardSize + s.shardSize + 2 ^ 31 ≤ f.pos + lastCell s.shardSize)
    (rest : List Feed) (i : Nat) (g : Gathered) :
    gatherFeeds s k (lower ++ rest) i g = gatherFeeds s k rest (i + lower.length) g := by
  induction lower generalizing i with
  | nil => rfl
  | cons f lower ih =>
    obtain ⟨hbelow, hfar⟩ := hlower f List.mem_cons_self
    have hend : ¬ 0 < asI32 ((s.element f).seqid
        - seqAt s.shardSize (k * s.shardSize + (s.shardSize - 1))) :=
      not_serial_pos hpos hle (by omega) (by omega)
    have hbegin : ¬ 0 ≤ asI32 ((s.element f).seqid - seqAt s.shardSize (k * s.shardSize)) :=
      not_serial_nonneg hpos hle hbelow (by omega)
    rw [gatherFeeds, List.cons_append, List.map_cons, gatherList, if_neg hend, if_neg hbegin,
      List.length_cons, Nat.add_comm lower.length, ← Nat.add_assoc]
    exact ih (fun f' hf' => hlower f' (List.mem_cons_of_mem f hf')) (i + 1)

/-- A feed of a higher group stops the search. -/
theorem gatherFeeds_above {higher : List Feed} (hhigher : ∀ f ∈ higher,
      k * s.shardSize + s.shardSize ≤ f.pos
      ∧ f.pos + 2 ^ 31 < k * s.shardSize + (s.shardSize - 1) + lastCell s.shardSize)
    (i : Nat) (g : Gathered) : gatherFeeds s k higher i g = g := by
  cases higher with
  | nil => rfl
  | cons f higher =>
    obtain ⟨habove, hfar⟩ := hhigher f List.mem_cons_self
    have hend : 0 < asI32 ((s.element f).seqid
        - seqAt s.shardSize (k * s.shardSize + (s.shardSize - 1))) :=
      serial_pos hpos hle (by omega) hfar
    rw [gatherFeeds, List.map_cons, gatherList, if_pos hend]

/-- The feeds of the group are gathered. -/
theorem gatherFeeds_group {own : List Feed} (horder : InOrder own)
    (hown : ∀ f ∈ own, f.pos / s.shardSize = k) {first : Nat} {M : Finset Nat} {g : Gathered}
    (h : g.Holds s k first M) (hnew : ∀ f ∈ own, ∀ pos ∈ M, pos < f.pos) (rest : List Feed) :
    ∃ g', g'.Holds s k first (positions own ∪ M)
      ∧ gatherFeeds s k (own ++ rest) (first + M.card) g
        = gatherFeeds s k rest (first + M.card + own.length) g' := by
  induction own generalizing M g with
  | nil => exact ⟨g, by simpa [positions] using h, rfl⟩
  | cons f own ih =>
    obtain ⟨hfirst, hrest⟩ := List.pairwise_cons.mp horder
    have hk := hown f List.mem_cons_self
    have hge := lastCell_ge hpos
    have hdiv := Nat.div_add_mod f.pos s.shardSize
    have hmod := Nat.mod_lt f.pos hpos
    rw [hk, Nat.mul_comm] at hdiv
    have hend : ¬ 0 < asI32 ((s.element f).seqid
        - seqAt s.shardSize (k * s.shardSize + (s.shardSize - 1))) :=
      not_serial_pos hpos hle (by omega) (by omega)
    have hbegin : 0 ≤ asI32 ((s.element f).seqid - seqAt s.shardSize (k * s.shardSize)) :=
      serial_nonneg hpos hle (by omega) (by omega)
    have hcell : ((s.element f).seqid % UInt32.ofNat s.shardSize).toNat = f.pos % s.shardSize := by
      rw [UInt32.toNat_mod, UInt32.toNat_ofNat_of_lt' (Nat.lt_of_le_of_lt hle (by decide))]
      exact seqAt_mod hpos hle f.pos
    have hfresh : f.pos ∉ M := fun hin =>
      Nat.lt_irrefl _ (hnew f List.mem_cons_self f.pos hin)
    have hcard := Finset.card_insert_of_notMem hfresh
    obtain ⟨g', hholds, hgather⟩ := ih hrest (fun f' hf' => hown f' (List.mem_cons_of_mem f hf'))
      (h.adding hfresh hk rfl) fun f' hf' pos hin => by
        rcases Finset.mem_insert.mp hin with rfl | hin
        · exact hfirst f' hf'
        · exact hnew f' (List.mem_cons_of_mem f hf') pos hin
    rw [hcard] at hgather
    refine ⟨g', ?_, ?_⟩
    · rw [positions_cons, Finset.insert_union, ← Finset.union_insert]
      exact hholds
    · rw [gatherFeeds, List.cons_append, List.map_cons, gatherList, if_neg hend, if_pos hbegin,
        hcell, List.length_cons, Nat.add_comm own.length, ← Nat.add_assoc]
      exact hgather

end

/-! ## What is rebuilt -/

/-- The data shards that were not present, over a range of indices. -/
theorem missing_range {shards : List (Option Bytes)} (data : Nat → Bytes) (present : Nat → Bool)
    {idx n : Nat} (h : ∀ i, idx ≤ i → i < idx + n → shards[i]? = some (some (data i))) :
    missing shards idx ((List.range' idx n).map present)
      = .ok (((List.range' idx n).filter fun i => !present i).map data) := by
  induction n generalizing idx with
  | zero => rfl
  | succ n ih =>
    have hrest : missing shards (idx + 1) ((List.range' (idx + 1) n).map present)
        = .ok (((List.range' (idx + 1) n).filter fun i => !present i).map data) :=
      ih fun i hlow hhigh => h i (by omega) (by omega)
    have hfirst : index shards idx = .ok (some (data idx)) :=
      index_eq (h idx (Nat.le_refl idx) (by omega))
    rw [List.range'_succ, List.map_cons, missing, List.filter_cons, hrest]
    cases present idx with
    | true => rfl
    | false =>
      rw [if_neg Bool.false_ne_true, hfirst, ok_bind, ok_bind]
      rfl

end FecDecoder

namespace Sending

variable {s : Sending} {k : Nat} {M : Finset Nat}

/-- The data shards of a group that are not at the positions `M`, as they enter the code. -/
def owed (s : Sending) (k : Nat) (M : Finset Nat) : List Bytes :=
  ((List.range s.datashard).filter fun i => k * s.shardSize + i ∉ M).map (s.dataShard k)

/-- A payload, padded, is the shard of its codeword. -/
theorem codeword_payloadAt (hs : s.Valid) (k : Nat) {i : Nat} (hi : i < s.shardSize) :
    (s.codeword k)[i]? = some (pad (s.groupLen k) (s.payloadAt (k * s.shardSize + i))) := by
  obtain ⟨hdiv, hmod⟩ := block_pos k hi
  rw [payloadAt, hdiv, hmod]
  by_cases hdata : i < s.datashard
  · rw [if_pos hdata, hs.codeword_data k hdata, dataShard]
  · obtain ⟨hlen, hlens⟩ := hs.lengths_codeword k
    have hget : (s.codeword k)[i]? = some (s.codeword k)[i] := List.getElem?_eq_getElem (by omega)
    have hfull := hlens (s.codeword k)[i] (List.getElem_mem _)
    rw [if_neg hdata, List.getD_eq_getElem?_getD, hget, Option.getD_some, pad, hfull, Nat.sub_self]
    simp

theorem length_payloadAt_le (hs : s.Valid) {pos : Nat} (hk : pos / s.shardSize = k) :
    (s.payloadAt pos).length ≤ s.groupLen k
      ∧ (s.datashard ≤ pos % s.shardSize → (s.payloadAt pos).length = s.groupLen k) := by
  have hmod := Nat.mod_lt pos hs.pos
  rw [payloadAt, hk]
  by_cases hdata : pos % s.shardSize < s.datashard
  · rw [if_pos hdata]
    exact ⟨s.length_dataPayload_le k hdata, fun hge => absurd hdata (Nat.not_lt.mpr hge)⟩
  · obtain ⟨hlen, hlens⟩ := hs.lengths_codeword k
    have hget : (s.codeword k)[pos % s.shardSize]? = some (s.codeword k)[pos % s.shardSize] :=
      List.getElem?_eq_getElem (by omega)
    have hfull := hlens (s.codeword k)[pos % s.shardSize] (List.getElem_mem _)
    rw [if_neg hdata, List.getD_eq_getElem?_getD, hget, Option.getD_some, hfull]
    exact ⟨Nat.le_refl _, fun _ => rfl⟩

/-- A parity shard is as long as the group. -/
theorem sup_payloadAt (hs : s.Valid) (hM : ∀ pos ∈ M, pos / s.shardSize = k)
    (hparity : ∃ pos ∈ M, s.datashard ≤ pos % s.shardSize) :
    (M.sup fun pos => (s.payloadAt pos).length) = s.groupLen k := by
  obtain ⟨pos, hpos, hge⟩ := hparity
  apply Nat.le_antisymm
  · exact Finset.sup_le fun pos hpos => (length_payloadAt_le hs (hM pos hpos)).1
  · rw [← (length_payloadAt_le hs (hM pos hpos)).2 hge]
    exact Finset.le_sup (f := fun pos => (s.payloadAt pos).length) hpos

theorem pos_eq {pos : Nat} (hk : pos / s.shardSize = k) :
    k * s.shardSize + pos % s.shardSize = pos := by
  rw [← hk, Nat.mul_comm]
  exact Nat.div_add_mod pos s.shardSize

/-- The members of a group are as many as the shards it holds. -/
theorem card_le_length (hpos : 0 < s.shardSize) (hM : ∀ pos ∈ M, pos / s.shardSize = k) :
    M.card ≤ ((List.range s.shardSize).filter fun i => k * s.shardSize + i ∈ M).length := by
  have hsub : M ⊆ (((List.range s.shardSize).filter fun i => k * s.shardSize + i ∈ M).map
      fun i => k * s.shardSize + i).toFinset := by
    intro pos hin
    rw [List.mem_toFinset, List.mem_map]
    refine ⟨pos % s.shardSize, ?_, pos_eq (hM pos hin)⟩
    rw [List.mem_filter, List.mem_range, pos_eq (hM pos hin)]
    exact ⟨Nat.mod_lt pos hpos, decide_eq_true hin⟩
  calc M.card ≤ _ := Finset.card_le_card hsub
    _ ≤ _ := List.toFinset_card_le _
    _ = _ := List.length_map _

/-- A group with all of its data owes nothing. -/
theorem owed_eq_nil (hM : ∀ pos ∈ M, pos / s.shardSize = k)
    (hall : s.datashard ≤ (M.filter fun pos => pos % s.shardSize < s.datashard).card) :
    s.owed k M = [] := by
  have hsub : (M.filter fun pos => pos % s.shardSize < s.datashard)
      ⊆ (Finset.range s.datashard).image fun i => k * s.shardSize + i := by
    intro pos hin
    obtain ⟨hin, hdata⟩ := Finset.mem_filter.mp hin
    exact Finset.mem_image.mpr ⟨_, Finset.mem_range.mpr hdata, pos_eq (hM pos hin)⟩
  have heq := Finset.eq_of_subset_of_card_le hsub
    ((Finset.card_image_le.trans_eq (Finset.card_range _)).trans hall)
  rw [owed, List.map_eq_nil_iff, List.filter_eq_nil_iff]
  intro i hi
  have hin : k * s.shardSize + i ∈ M.filter fun pos => pos % s.shardSize < s.datashard := by
    rw [heq]
    exact Finset.mem_image_of_mem _ (Finset.mem_range.mpr (List.mem_range.mp hi))
  simp [(Finset.mem_filter.mp hin).1]

end Sending

namespace FecDecoder

/-- A decoder for a sequence of blocks, with these feeds in its window. -/
structure Tracks (s : Sending) (held : List Feed) (dec : FecDecoder) : Prop where
  datashard : dec.datashard = s.datashard
  parityshard : dec.parityshard = s.parityshard
  shardSize : dec.shardSize = s.shardSize
  codec : dec.codec = s.codec
  rx : dec.rx = held.map s.element
  order : InOrder held

variable {s : Sending} {dec : FecDecoder} {held : List Feed} {k first : Nat} {M : Finset Nat}
  {g : Gathered}

theorem Tracks.valid (hs : s.Valid) (h : dec.Tracks s held) : dec.Valid :=
  ⟨h.datashard ▸ hs.data_pos, h.parityshard ▸ hs.parity_pos,
    by rw [h.shardSize, h.datashard, h.parityshard, Sending.shardSize], h.shardSize ▸ hs.le⟩

theorem Tracks.withRx (h : dec.Tracks s held) {held' : List Feed} (horder : InOrder held') :
    (dec.withRx (held'.map s.element)).Tracks s held' :=
  ⟨h.datashard, h.parityshard, h.shardSize, h.codec, rfl, horder⟩

/-- Enough shards with a parity shard among them give the missing data back. -/
theorem Tracks.rebuild (hs : s.Valid) (h : dec.Tracks s held) (hg : g.Holds s k first M)
    (hM : ∀ pos ∈ M, pos / s.shardSize = k) (henough : s.datashard ≤ M.card)
    (hlost : (M.filter fun pos => pos % s.shardSize < s.datashard).card < s.datashard) :
    dec.rebuild g = .ok (s.owed k M) := by
  have hparity : ∃ pos ∈ M, s.datashard ≤ pos % s.shardSize := by
    by_contra hnone
    have hall : M.filter (fun pos => pos % s.shardSize < s.datashard) = M :=
      Finset.filter_true_of_mem fun pos hin => Nat.lt_of_not_le fun hge => hnone ⟨pos, hin, hge⟩
    rw [hall] at hlost
    omega
  have hheld : g.shards.map (Option.map (pad g.maxlen)) = (List.range s.shardSize).map fun i =>
      if k * s.shardSize + i ∈ M then
        some (pad (s.groupLen k) (s.payloadAt (k * s.shardSize + i))) else none := by
    rw [hg.maxlen, Sending.sup_payloadAt hs hM hparity, hg.shards, List.map_map]
    refine List.map_congr_left fun i _ => ?_
    show Option.map _ (if _ then _ else _) = _
    split <;> rfl
  have hcount : s.datashard ≤ ((g.shards.map (Option.map (pad g.maxlen))).filter
      Option.isSome).length := by
    rw [hheld, List.filter_map, List.length_map]
    refine Nat.le_trans (henough.trans (Sending.card_le_length hs.pos hM)) (Nat.le_of_eq ?_)
    refine congrArg List.length (List.filter_congr fun i _ => ?_)
    show _ = Option.isSome (if _ then _ else _)
    split <;> simp [*]
  have hagree (i : Nat) (shard : Bytes)
      (hi : (g.shards.map (Option.map (pad g.maxlen)))[i]? = some (some shard)) :
      (s.codeword k)[i]? = some shard := by
    rw [hheld, List.getElem?_map] at hi
    rcases Nat.lt_or_ge i s.shardSize with hlt | hge
    · rw [List.getElem?_range hlt, Option.map_some, Option.some.injEq] at hi
      split at hi
      · cases hi
        exact Sending.codeword_payloadAt hs k hlt
      · cases hi
    · rw [List.getElem?_eq_none (by simpa using hge)] at hi
      cases hi
  obtain ⟨restored, hrestored, hdata⟩ := hs.lawful.restores (s.length_groupData k)
    (hs.groupLen_pos k) (fun _ => Sending.length_of_mem_groupData) (hs.encode_eq k).1
    (by rw [hheld, List.length_map, List.length_range, Sending.shardSize]) hagree hcount
  have hpresent : g.present.take dec.datashard
      = (List.range' 0 s.datashard).map fun i => decide (k * s.shardSize + i ∈ M) := by
    rw [hg.present, h.datashard, ← List.map_take, List.take_range, ← List.range_eq_range',
      Nat.min_eq_left (by rw [Sending.shardSize]; omega)]
  rw [FecDecoder.rebuild, h.codec, hrestored]
  simp only [hpresent]
  rw [missing_range (s.dataShard k), Sending.owed, List.range_eq_range']
  · simp only [decide_not]
  · intro i _ hi
    rw [hdata i (by omega), hs.codeword_data k (by omega)]
    rfl

/-- What becomes of a group that has been gathered. -/
theorem Tracks.finish (hs : s.Valid) (h : dec.Tracks s held) (hg : g.Holds s k first M)
    (hM : ∀ pos ∈ M, pos / s.shardSize = k) :
    dec.finish g = .ok (if s.datashard ≤ M.card then
        (s.owed k M, dec.withRx (dec.rx.take first ++ dec.rx.drop (first + M.card)))
      else ([], dec)) := by
  have hsome := Finset.card_filter_le M fun pos => pos % s.shardSize < s.datashard
  rw [FecDecoder.finish, hg.numData, hg.numShard, h.datashard]
  by_cases henough : s.datashard ≤ M.card
  · have hfirst : g.first = first :=
      hg.first (Finset.card_pos.mp (Nat.lt_of_lt_of_le hs.data_pos henough))
    rw [if_pos henough, hfirst, freeRange_ok, ok_bind]
    by_cases hall : (M.filter fun pos => pos % s.shardSize < s.datashard).card = s.datashard
    · rw [if_pos hall, Sending.owed_eq_nil hM (Nat.le_of_eq hall.symm), if_pos henough]
    · have hlost : (M.filter fun pos => pos % s.shardSize < s.datashard).card < s.datashard := by
        by_contra hge
        have hdata : (M.filter fun pos => pos % s.shardSize < s.datashard).card ≤ s.datashard := by
          refine Finset.card_le_card_of_injOn (t := Finset.range s.datashard) (· % s.shardSize) ?_ ?_
            |>.trans_eq (Finset.card_range _)
          · intro pos hin
            exact Finset.mem_coe.mpr (Finset.mem_range.mpr (Finset.mem_filter.mp hin).2)
          · intro a ha b hb hab
            have hka := hM a (Finset.mem_of_mem_filter a ha)
            have hkb := hM b (Finset.mem_of_mem_filter b hb)
            have hmod : a % s.shardSize = b % s.shardSize := hab
            rw [← Sending.pos_eq hka, ← Sending.pos_eq hkb, hmod]
        omega
      rw [if_neg hall, if_pos henough, h.rebuild hs hg hM henough hlost, ok_bind]
      rfl
  · rw [if_neg henough, if_neg (by omega), if_neg henough]

/-- Neither the window's limit nor the expiry takes anything away. -/
theorem trim_keeps (now : Nat) (hroom : dec.rx.length ≤ dec.rxlimit)
    (hfresh : ∀ e ∈ dec.rx, now - e.at' ≤ EXPIRY) : dec.trim now = .ok dec := by
  have hexpired : dec.expired now = 0 := by
    rw [expired]
    cases hrx : dec.rx with
    | nil => rfl
    | cons e rx =>
      have := hfresh e (hrx ▸ List.mem_cons_self)
      rw [List.takeWhile_cons, if_neg (by simpa using this)]
      rfl
  rw [trim, boundWindow, if_neg (Nat.not_lt.mpr hroom), ok_bind, expire, hexpired]
  rfl

/-! ## One call -/

section

variable {lower own₁ own₂ higher : List Feed} {f : Feed}

/-- The window of a call, cut around the group of the shard `f` it brings. -/
structure Cut (s : Sending) (lower own₁ : List Feed) (f : Feed) (own₂ higher : List Feed) : Prop where
  order : InOrder (lower ++ (own₁ ++ f :: own₂) ++ higher)
  below : ∀ e ∈ lower, e.pos < f.pos / s.shardSize * s.shardSize
  group : ∀ e ∈ own₁ ++ f :: own₂, e.pos / s.shardSize = f.pos / s.shardSize
  above : ∀ e ∈ higher, f.pos / s.shardSize * s.shardSize + s.shardSize ≤ e.pos
  near : ∀ e ∈ lower ++ higher, Near s.shardSize e.pos f.pos

/-- The group of `f` in the window is what the search finds. -/
theorem Cut.members (hpos : 0 < s.shardSize) (h : Cut s lower own₁ f own₂ higher) :
    Threshold.members (· / s.shardSize) (positions (lower ++ (own₁ ++ f :: own₂) ++ higher))
      (f.pos / s.shardSize) = positions (own₁ ++ f :: own₂) := by
  ext pos
  rw [Threshold.mem_members, mem_positions, mem_positions]
  constructor
  · rintro ⟨⟨e, he, rfl⟩, hk⟩
    have hk : e.pos / s.shardSize = f.pos / s.shardSize := hk
    have hdiv := Sending.pos_eq hk
    have hmod := Nat.mod_lt e.pos hpos
    rcases List.mem_append.mp he with he | he
    · rcases List.mem_append.mp he with he | he
      · have := h.below e he
        omega
      · exact ⟨e, he, rfl⟩
    · have := h.above e he
      omega
  · rintro ⟨e, he, rfl⟩
    exact ⟨⟨e, List.mem_append_left _ (List.mem_append_right _ he), rfl⟩, h.group e he⟩

/-- The other groups. -/
theorem Cut.others (hpos : 0 < s.shardSize) (h : Cut s lower own₁ f own₂ higher) :
    ((positions (lower ++ (own₁ ++ f :: own₂) ++ higher)).filter fun pos =>
      pos / s.shardSize ≠ f.pos / s.shardSize) = positions (lower ++ higher) := by
  ext pos
  rw [Finset.mem_filter, mem_positions, mem_positions]
  constructor
  · rintro ⟨⟨e, he, rfl⟩, hk⟩
    refine ⟨e, ?_, rfl⟩
    rcases List.mem_append.mp he with he | he
    · rcases List.mem_append.mp he with he | he
      · exact List.mem_append_left _ he
      · exact absurd (h.group e he) hk
    · exact List.mem_append_right _ he
  · rintro ⟨e, he, rfl⟩
    rcases List.mem_append.mp he with he | he
    · refine ⟨⟨e, by simp [he], rfl⟩, fun hk => ?_⟩
      have hdiv := Sending.pos_eq hk
      have := h.below e he
      omega
    · refine ⟨⟨e, by simp [he], rfl⟩, fun hk => ?_⟩
      have hdiv := Sending.pos_eq hk
      have hmod := Nat.mod_lt e.pos hpos
      have := h.above e he
      omega

/-- The group lies in the range that is searched. -/
theorem Cut.range (hpos : 0 < s.shardSize) (h : Cut s lower own₁ f own₂ higher) :
    own₁.length ≤ f.pos % s.shardSize
      ∧ own₂.length + (f.pos % s.shardSize) + 1 ≤ s.shardSize := by
  have hf : f.pos / s.shardSize * s.shardSize + f.pos % s.shardSize = f.pos := Sending.pos_eq rfl
  have hmod := Nat.mod_lt f.pos hpos
  have hown : InOrder (own₁ ++ f :: own₂) := h.order.sublist (by simp)
  have hin (e : Feed) (he : e ∈ own₁ ++ f :: own₂) : f.pos / s.shardSize * s.shardSize ≤ e.pos
      ∧ e.pos < f.pos / s.shardSize * s.shardSize + s.shardSize := by
    have hdiv := Sending.pos_eq (h.group e he)
    have := Nat.mod_lt e.pos hpos
    omega
  obtain ⟨hown₁, hafter, hbefore⟩ := List.pairwise_append.mp hown
  obtain ⟨hfirst, hown₂⟩ := List.pairwise_cons.mp hafter
  have hlen₁ := InOrder.length_le hown₁ (a := f.pos / s.shardSize * s.shardSize) (b := f.pos)
    fun e he => ⟨(hin e (by simp [he])).1, hbefore e he f List.mem_cons_self⟩
  have hlen₂ := InOrder.length_le hown₂ (a := f.pos + 1)
    (b := f.pos / s.shardSize * s.shardSize + s.shardSize)
    fun e he => ⟨hfirst e he, (hin e (by simp [he])).2⟩
  omega

/-- A slice around the middle of three lists. -/
theorem slice_middle {α : Type} {xs ys zs : List α} {skip n : Nat} (hskip : skip ≤ xs.length)
    (hn : xs.length + ys.length ≤ skip + n) : ((xs ++ ys ++ zs).drop skip).take n
      = xs.drop skip ++ (ys ++ zs.take (n - (xs.length - skip + ys.length))) := by
  have hlen : (xs.drop skip ++ ys).length = xs.length - skip + ys.length := by
    rw [List.length_append, List.length_drop]
  rw [List.append_assoc, List.drop_append_of_le_length hskip, ← List.append_assoc, List.take_append,
    List.take_of_length_le (by omega), hlen, List.append_assoc]

/-- The search finds the group and leaves the rest. -/
theorem Cut.gather (hs : s.Valid) (h : Cut s lower own₁ f own₂ higher) (skip n : Nat)
    (hskip : skip ≤ lower.length) (hn : lower.length + (own₁ ++ f :: own₂).length ≤ skip + n)
    (hfits : skip + n ≤ (lower ++ (own₁ ++ f :: own₂) ++ higher).length) :
    ∃ g', Gathered.Holds s (f.pos / s.shardSize) lower.length (positions (own₁ ++ f :: own₂)) g'
      ∧ FecDecoder.gather ((lower ++ (own₁ ++ f :: own₂) ++ higher).map s.element)
        (UInt32.ofNat s.shardSize) (seqAt s.shardSize (f.pos / s.shardSize * s.shardSize))
        (seqAt s.shardSize (f.pos / s.shardSize * s.shardSize + (s.shardSize - 1))) n skip
        (Gathered.new s.shardSize) = .ok g' := by
  have hpos := hs.pos
  have hgroup : (UInt32.ofNat s.shardSize).toNat = s.shardSize :=
    UInt32.toNat_ofNat_of_lt' (Nat.lt_of_le_of_lt hs.le (by decide))
  have hne : UInt32.ofNat s.shardSize ≠ 0 := by
    intro hz
    rw [hz] at hgroup
    exact absurd hpos (by rw [← hgroup]; decide)
  have hf : f.pos / s.shardSize * s.shardSize + f.pos % s.shardSize = f.pos := Sending.pos_eq rfl
  have hmod := Nat.mod_lt f.pos hpos
  have hslice : (((lower ++ (own₁ ++ f :: own₂) ++ higher).map s.element).drop skip).take n
      = (lower.drop skip ++ ((own₁ ++ f :: own₂)
        ++ higher.take (n - (lower.length - skip + (own₁ ++ f :: own₂).length)))).map s.element := by
    rw [← List.map_drop, ← List.map_take, slice_middle hskip hn]
  have hlower : ∀ e ∈ lower.drop skip, e.pos < f.pos / s.shardSize * s.shardSize
      ∧ f.pos / s.shardSize * s.shardSize + s.shardSize + 2 ^ 31 ≤ e.pos + lastCell s.shardSize := by
    intro e he
    have hmem := List.mem_of_mem_drop he
    have hnear := (h.near e (List.mem_append_left _ hmem)).2
    exact ⟨h.below e hmem, by omega⟩
  have hhigher : ∀ e ∈ higher.take (n - (lower.length - skip + (own₁ ++ f :: own₂).length)),
      f.pos / s.shardSize * s.shardSize + s.shardSize ≤ e.pos
      ∧ e.pos + 2 ^ 31 < f.pos / s.shardSize * s.shardSize + (s.shardSize - 1)
        + lastCell s.shardSize := by
    intro e he
    have hmem := List.mem_of_mem_take he
    have hnear := (h.near e (List.mem_append_right _ hmem)).1
    exact ⟨h.above e hmem, by omega⟩
  obtain ⟨g', hholds, hgather⟩ := gatherFeeds_group hpos hs.le (f.pos / s.shardSize)
    (h.order.sublist (by simp)) h.group (.new s (f.pos / s.shardSize) lower.length)
    (by simp) (higher.take (n - (lower.length - skip + (own₁ ++ f :: own₂).length)))
  rw [Finset.union_empty] at hholds
  rw [Finset.card_empty, Nat.add_zero] at hgather
  refine ⟨g', hholds, ?_⟩
  rw [gather_eq _ hne _ _ (by simpa using hfits) (hgroup.symm ▸ .new s.shardSize), hslice]
  show Except.ok (gatherFeeds s _ _ skip _) = _
  rw [gatherFeeds_below hpos hs.le _ hlower, List.length_drop, Nat.add_sub_cancel' hskip, hgather,
    gatherFeeds_above hpos hs.le _ hhigher]

/-- The call gives the group up once it has enough shards. -/
theorem Cut.recover (hs : s.Valid) (h : Cut s lower own₁ f own₂ higher)
    (htracks : dec.Tracks s (lower ++ (own₁ ++ f :: own₂) ++ higher)) :
    dec.recover (seqAt s.shardSize f.pos) (lower ++ own₁).length
      = .ok (if s.datashard ≤ (positions (own₁ ++ f :: own₂)).card then
          (s.owed (f.pos / s.shardSize) (positions (own₁ ++ f :: own₂)),
            dec.withRx ((lower ++ higher).map s.element))
        else ([], dec)) := by
  have hv := htracks.valid hs
  have hsize := htracks.shardSize
  have hpos := hs.pos
  have hbegin := groupBegin_seqAt hv f.pos
  have hend := groupEnd_seqAt hv f.pos
  have hcell : (seqAt s.shardSize f.pos).toNat % s.shardSize = f.pos % s.shardSize :=
    seqAt_mod hpos hs.le f.pos
  have hmod := Nat.mod_lt f.pos hpos
  obtain ⟨hown₁, hown₂⟩ := h.range hpos
  have hM : ∀ pos ∈ positions (own₁ ++ f :: own₂), pos / s.shardSize = f.pos / s.shardSize := by
    intro pos hin
    obtain ⟨e, he, rfl⟩ := mem_positions.mp hin
    exact h.group e he
  have hcard : (positions (own₁ ++ f :: own₂)).card = (own₁ ++ f :: own₂).length :=
    InOrder.card_positions (h.order.sublist (by simp))
  have hlen : dec.rx.length = (lower ++ (own₁ ++ f :: own₂) ++ higher).length := by
    rw [htracks.rx, List.length_map]
  have hlt : (seqAt s.shardSize f.pos).toNat < lastCell dec.shardSize := by
    rw [hsize]
    exact toNat_seqAt_lt hpos hs.le f.pos
  rw [hsize] at hbegin hend
  rw [recover_eq hv hlt, hbegin, hend, searchEnd, searchBegin, hsize, hcell, hlen, htracks.datashard]
  simp only [List.length_append, List.length_cons] at hcard ⊢
  split
  · rename_i hwide
    obtain ⟨g', hholds, hgather⟩ := h.gather hs
      (lower.length + own₁.length - f.pos % s.shardSize)
      (min (lower.length + own₁.length - f.pos % s.shardSize + s.shardSize - 1)
        (lower.length + (own₁.length + (own₂.length + 1)) + higher.length - 1) + 1
        - (lower.length + own₁.length - f.pos % s.shardSize))
      (by omega) (by simp only [List.length_append, List.length_cons]; omega)
      (by simp only [List.length_append, List.length_cons]; omega)
    have hrest : dec.rx.take lower.length ++ dec.rx.drop (lower.length + (own₁ ++ f :: own₂).length)
        = (lower ++ higher).map s.element := by
      rw [htracks.rx, ← List.map_take, ← List.map_drop, ← List.map_append, List.append_assoc,
        List.take_left, ← List.drop_drop, List.drop_left, List.drop_left]
    have hown : (positions (own₁ ++ f :: own₂)).card = (own₁ ++ f :: own₂).length := by
      rw [hcard, List.length_append, List.length_cons]
    rw [htracks.rx, hgather, ok_bind, htracks.finish hs hholds hM, hown, hrest]
  · rename_i hnarrow
    rw [if_neg (by omega)]

/-- Feeds below and above a new one are cut around its group. -/
theorem exists_cut (hpos : 0 < s.shardSize) {lo hi : List Feed} (horder : InOrder (lo ++ f :: hi))
    (hnear : ∀ e ∈ lo ++ hi, Near s.shardSize e.pos f.pos) : ∃ lower own₁ own₂ higher,
      lo = lower ++ own₁ ∧ hi = own₂ ++ higher ∧ Cut s lower own₁ f own₂ higher := by
  obtain ⟨hlo, hafter, hbefore⟩ := List.pairwise_append.mp horder
  obtain ⟨habove, hhi⟩ := List.pairwise_cons.mp hafter
  obtain ⟨lower, own₁, rfl, hlower, hown₁⟩ :=
    InOrder.split hlo (f.pos / s.shardSize * s.shardSize)
  obtain ⟨own₂, higher, rfl, hown₂, hhigher⟩ :=
    InOrder.split hhi (f.pos / s.shardSize * s.shardSize + s.shardSize)
  have hf : f.pos / s.shardSize * s.shardSize + f.pos % s.shardSize = f.pos := Sending.pos_eq rfl
  have hmod := Nat.mod_lt f.pos hpos
  refine ⟨lower, own₁, own₂, higher, rfl, rfl, ⟨by simpa using horder, hlower, fun e he => ?_,
    hhigher, fun e he => hnear e ?_⟩⟩
  · have hin : f.pos / s.shardSize * s.shardSize ≤ e.pos
        ∧ e.pos < f.pos / s.shardSize * s.shardSize + s.shardSize := by
      rcases List.mem_append.mp he with he | he
      · have := hbefore e (List.mem_append_right _ he) f List.mem_cons_self
        exact ⟨hown₁ e he, by omega⟩
      rcases List.mem_cons.mp he with rfl | he
      · omega
      · have := habove e (List.mem_append_left _ he)
        exact ⟨by omega, hown₂ e he⟩
    have hdiv := Sending.block_pos (f.pos / s.shardSize)
      (show e.pos - f.pos / s.shardSize * s.shardSize < s.shardSize by omega)
    rw [Nat.add_sub_cancel' hin.1] at hdiv
    exact hdiv.1
  · rcases List.mem_append.mp he with he | he <;> simp [he]

/-- A call with a shard that is there already changes nothing. -/
theorem Tracks.decode_held (hs : s.Valid) {lo hi : List Feed} (h : dec.Tracks s (lo ++ f :: hi))
    (hnear : ∀ e ∈ hi, Near s.shardSize e.pos f.pos) (flag : UInt16) (data : Bytes) (now : Nat) :
    dec.decode (seqAt s.shardSize f.pos) flag data now = .ok ([], dec) := by
  have hhigher := (List.pairwise_cons.mp (List.pairwise_append.mp h.order).2.1).1
  refine decode_of_duplicate ?_ flag data now
  rw [h.rx, List.length_map]
  exact slot_held hs.pos hs.le f fun e he => ⟨hhigher e he, hnear e he⟩

/-- A call with a new shard. -/
theorem Cut.decode (hs : s.Valid) (h : Cut s lower own₁ f own₂ higher)
    (htracks : dec.Tracks s (lower ++ own₁ ++ (own₂ ++ higher)))
    (hnear : ∀ e ∈ lower ++ own₁ ++ (own₂ ++ higher), Near s.shardSize e.pos f.pos)
    (hroom : (lower ++ own₁ ++ (own₂ ++ higher)).length < dec.rxlimit)
    (hfresh : ∀ e ∈ lower ++ own₁ ++ (own₂ ++ higher), f.now - e.now ≤ EXPIRY) :
    dec.decode (seqAt s.shardSize f.pos) (s.flagAt f.pos) (s.payloadAt f.pos) f.now
      = .ok (if s.datashard ≤ (positions (own₁ ++ f :: own₂)).card then
          (s.owed (f.pos / s.shardSize) (positions (own₁ ++ f :: own₂)),
            dec.withRx ((lower ++ higher).map s.element))
        else ([], dec.withRx ((lower ++ (own₁ ++ f :: own₂) ++ higher).map s.element))) := by
  have hjoin : lower ++ own₁ ++ f :: (own₂ ++ higher)
      = lower ++ (own₁ ++ f :: own₂) ++ higher := by simp
  obtain ⟨-, hafter, hbefore⟩ := List.pairwise_append.mp (hjoin ▸ h.order)
  have habove := (List.pairwise_cons.mp hafter).1
  have hslot : slot dec.rx (seqAt s.shardSize f.pos) dec.rx.length = .ok (some (lower ++ own₁).length) := by
    rw [htracks.rx, List.length_map]
    exact slot_new hs.pos hs.le
      (fun e he => ⟨hbefore e he f List.mem_cons_self, hnear e (List.mem_append_left _ he)⟩)
      fun e he => ⟨habove e he, hnear e (List.mem_append_right _ he)⟩
  have hinserted : dec.rx.take (lower ++ own₁).length ++ s.element f
      :: dec.rx.drop (lower ++ own₁).length
      = (lower ++ (own₁ ++ f :: own₂) ++ higher).map s.element := by
    rw [htracks.rx, ← List.map_take, ← List.map_drop, List.take_left, List.drop_left, ← hjoin,
      ← List.map_cons, ← List.map_append]
  have hlen : (lower ++ (own₁ ++ f :: own₂) ++ higher).length ≤ dec.rxlimit := by
    simp only [List.length_append, List.length_cons] at hroom ⊢
    omega
  have htrim {kept : List Feed} (hsub : kept.Sublist (lower ++ (own₁ ++ f :: own₂) ++ higher)) :
      (dec.withRx (kept.map s.element)).trim f.now = .ok (dec.withRx (kept.map s.element)) := by
    refine trim_keeps f.now ?_ fun e he => ?_
    · rw [withRx_rx, List.length_map]
      exact Nat.le_trans hsub.length_le hlen
    · obtain ⟨e, hin, rfl⟩ := List.mem_map.mp he
      have hmem := hsub.subset hin
      rw [← hjoin, List.mem_append, List.mem_cons] at hmem
      rcases hmem with hmem | rfl | hmem
      · exact hfresh e (List.mem_append_left _ hmem)
      · exact (Nat.sub_self _).trans_le (Nat.zero_le _)
      · exact hfresh e (List.mem_append_right _ hmem)
  rw [decode_of_slot hslot (by rw [htracks.rx]; simp)]
  show ((dec.withRx (_ ++ s.element f :: _)).recover _ _ >>= _) = _
  rw [hinserted, h.recover hs (htracks.withRx h.order), ok_bind]
  split
  · rw [withRx_withRx, htrim ((List.sublist_append_left lower _).append_right higher), ok_bind]
  · rw [htrim (List.Sublist.refl _), ok_bind]

/-- A call on a window of positions is a step of `Threshold`. -/
theorem Tracks.decode (hs : s.Valid) (h : dec.Tracks s held) (f : Feed)
    (hnear : ∀ e ∈ held, Near s.shardSize e.pos f.pos) (hroom : held.length < dec.rxlimit)
    (hfresh : ∀ e ∈ held, f.now - e.now ≤ EXPIRY) :
    ∃ held', (dec.withRx (held'.map s.element)).Tracks s held'
      ∧ positions held' = Threshold.step (· / s.shardSize) s.datashard (positions held) f.pos
      ∧ (∀ e ∈ held', e = f ∨ e ∈ held)
      ∧ dec.decode (seqAt s.shardSize f.pos) (s.flagAt f.pos) (s.payloadAt f.pos) f.now
        = .ok (if Threshold.Fires (· / s.shardSize) s.datashard (positions held) f.pos then
            s.owed (f.pos / s.shardSize) (Threshold.members (· / s.shardSize)
              (Insert.insert f.pos (positions held)) (f.pos / s.shardSize))
          else [], dec.withRx (held'.map s.element)) := by
  obtain ⟨lo, rest, rfl, hlo, hrest⟩ := h.order.split f.pos
  obtain ⟨hlower, hhigher, hacross⟩ := List.pairwise_append.mp h.order
  by_cases hdup : f.pos ∈ positions (lo ++ rest)
  · obtain ⟨y, hi, rfl, hy⟩ : ∃ y hi, rest = y :: hi ∧ y.pos = f.pos := by
      obtain ⟨e, he, heq⟩ := mem_positions.mp hdup
      rcases List.mem_append.mp he with he | he
      · exact absurd heq (Nat.ne_of_lt (hlo e he))
      · cases rest with
        | nil => cases he
        | cons y hi =>
          refine ⟨y, hi, rfl, Nat.le_antisymm ?_ (hrest y List.mem_cons_self)⟩
          rcases List.mem_cons.mp he with rfl | he
          · exact Nat.le_of_eq heq
          · have := (List.pairwise_cons.mp hhigher).1 e he
            omega
    have hkeep : dec.withRx ((lo ++ y :: hi).map s.element) = dec := by
      rw [← h.rx]
      rfl
    have hquiet : ¬ Threshold.Fires (· / s.shardSize) s.datashard (positions (lo ++ y :: hi)) f.pos :=
      fun hfires => hfires.1 hdup
    refine ⟨lo ++ y :: hi, hkeep.symm ▸ h, ?_, fun e he => .inr he, ?_⟩
    · rw [Threshold.step, if_neg hquiet, Finset.insert_eq_of_mem hdup]
    · rw [if_neg hquiet, hkeep, ← hy]
      refine h.decode_held hs (fun e he => ?_) _ _ _
      rw [hy]
      exact hnear e (by simp [he])
  · have habove : ∀ e ∈ rest, f.pos < e.pos := by
      intro e he
      refine Nat.lt_of_le_of_ne (hrest e he) fun heq => hdup ?_
      exact mem_positions.mpr ⟨e, List.mem_append_right _ he, heq.symm⟩
    have horder : InOrder (lo ++ f :: rest) :=
      List.pairwise_append.mpr ⟨hlower, List.pairwise_cons.mpr ⟨habove, hhigher⟩, fun a ha b hb => by
        rcases List.mem_cons.mp hb with rfl | hb
        · exact hlo a ha
        · exact hacross a ha b hb⟩
    obtain ⟨lower, own₁, own₂, higher, rfl, rfl, hcut⟩ := exists_cut hs.pos horder hnear
    have hset : Insert.insert f.pos (positions (lower ++ own₁ ++ (own₂ ++ higher)))
        = positions (lower ++ (own₁ ++ f :: own₂) ++ higher) := by
      rw [positions_append, ← Finset.union_insert, ← positions_cons, ← positions_append]
      simp
    have hmembers := hcut.members hs.pos
    have hfires : Threshold.Fires (· / s.shardSize) s.datashard
        (positions (lower ++ own₁ ++ (own₂ ++ higher))) f.pos
        ↔ s.datashard ≤ (positions (own₁ ++ f :: own₂)).card := by
      rw [Threshold.Fires, hset, hmembers]
      exact and_iff_right hdup
    rw [Threshold.step, hset, hcut.others hs.pos, hcut.decode hs h hnear hroom hfresh, hmembers]
    by_cases hfull : s.datashard ≤ (positions (own₁ ++ f :: own₂)).card
    · have hsub := (List.sublist_append_left lower (own₁ ++ f :: own₂)).append_right higher
      refine ⟨lower ++ higher, h.withRx (hcut.order.sublist hsub), ?_, fun e he => .inr ?_, ?_⟩
      · rw [if_pos (hfires.mpr hfull)]
      · rcases List.mem_append.mp he with he | he <;> simp [he]
      · rw [if_pos hfull, if_pos (hfires.mpr hfull)]
    · refine ⟨lower ++ (own₁ ++ f :: own₂) ++ higher, h.withRx hcut.order, ?_, fun e he => ?_, ?_⟩
      · rw [if_neg (mt hfires.mp hfull)]
      · simp only [List.mem_append, List.mem_cons] at he ⊢
        tauto
      · rw [if_neg hfull, if_neg (mt hfires.mp hfull)]

end

end FecDecoder

end Kcp
end RtProxy
