import RtProxy.Kcp.Fec

/-!
Where the decoder panics.

Every step but one is in range whatever the shards are.  The end of a group is computed
as `shard_begin + group - 1`, which overflows for the numbers of the last cell of the
grid, the one the encoder never uses.
-/

namespace RtProxy
namespace Kcp

open Checked

/-- The first number of the last cell below `2 ^ 32`, where the encoder wraps. -/
def lastCell (shardSize : Nat) : Nat := (2 ^ 32 - 1) / shardSize * shardSize

/-- The crate takes at least one shard of each kind and at most 256 shards. -/
def NewCodec.Bounded (rs : NewCodec) : Prop :=
  ∀ d p codec, rs d p = some codec → 0 < d ∧ 0 < p ∧ d + p ≤ 256

theorem cell_lt_iff {n shardSize : Nat} (hpos : 0 < shardSize) :
    n / shardSize * shardSize + shardSize < 2 ^ 32 ↔ n < lastCell shardSize := by
  have hdiv : n / shardSize * shardSize + shardSize = (n / shardSize + 1) * shardSize := by
    rw [Nat.add_mul, Nat.one_mul]
  rw [hdiv, lastCell]
  constructor
  · intro h
    have hle : n / shardSize + 1 ≤ (2 ^ 32 - 1) / shardSize :=
      (Nat.le_div_iff_mul_le hpos).mpr (by omega)
    calc n < (n / shardSize + 1) * shardSize := Nat.lt_mul_of_div_lt (Nat.lt_succ_self _) hpos
      _ ≤ (2 ^ 32 - 1) / shardSize * shardSize := Nat.mul_le_mul_right _ hle
  · intro h
    have hlt : n / shardSize < (2 ^ 32 - 1) / shardSize := by
      rw [Nat.div_lt_iff_lt_mul hpos]
      exact h
    have hle : (n / shardSize + 1) * shardSize ≤ (2 ^ 32 - 1) / shardSize * shardSize :=
      Nat.mul_le_mul_right shardSize hlt
    have := Nat.div_mul_le_self (2 ^ 32 - 1) shardSize
    omega

namespace Gathered

/-- The tables have a place for each shard of a group. -/
def Sized (shardSize : Nat) (g : Gathered) : Prop :=
  g.shards.length = shardSize ∧ g.present.length = shardSize

/-- The tables with one element more. -/
def adding (g : Gathered) (i idx : Nat) (s : FecElement) : Gathered where
  shards := g.shards.set idx (some s.data)
  present := g.present.set idx true
  numShard := g.numShard + 1
  numData := if s.flag = TYPE_DATA then g.numData + 1 else g.numData
  first := if g.numShard = 0 then i else g.first
  maxlen := max g.maxlen s.data.length

theorem Sized.new (shardSize : Nat) : Sized shardSize (new shardSize) :=
  ⟨List.length_replicate, List.length_replicate⟩

end Gathered

namespace FecDecoder

/-- What `new` makes sure of. -/
structure Valid (dec : FecDecoder) : Prop where
  data_pos : 0 < dec.datashard
  parity_pos : 0 < dec.parityshard
  shardSize_eq : dec.shardSize = dec.datashard + dec.parityshard
  le : dec.shardSize ≤ 256

/-- The same decoder with another window. -/
def withRx (dec : FecDecoder) (rx : List FecElement) : FecDecoder := { dec with rx := rx }

theorem valid_new {rs : NewCodec} (hrs : rs.Bounded) {d p : UInt32} {dec : FecDecoder}
    (h : new rs d p = some dec) :
    dec.Valid ∧ dec.rx = [] ∧ dec.shardSize = d.toNat + p.toNat ∧ dec.datashard = d.toNat := by
  unfold new at h
  split at h
  · cases h
  split at h
  · cases h
  · rename_i codec hc
    cases h
    obtain ⟨hd, hp, hle⟩ := hrs _ _ _ hc
    exact ⟨⟨hd, hp, rfl, hle⟩, rfl, rfl, rfl⟩

variable {dec : FecDecoder}

@[simp] theorem withRx_rx (rx : List FecElement) : (dec.withRx rx).rx = rx := rfl

@[simp] theorem withRx_datashard (rx : List FecElement) :
    (dec.withRx rx).datashard = dec.datashard := rfl

@[simp] theorem withRx_shardSize (rx : List FecElement) :
    (dec.withRx rx).shardSize = dec.shardSize := rfl

@[simp] theorem withRx_rxlimit (rx : List FecElement) : (dec.withRx rx).rxlimit = dec.rxlimit := rfl

@[simp] theorem withRx_codec (rx : List FecElement) : (dec.withRx rx).codec = dec.codec := rfl

@[simp] theorem withRx_withRx (rx rx' : List FecElement) :
    (dec.withRx rx).withRx rx' = dec.withRx rx' := rfl

theorem Valid.withRx (h : dec.Valid) (rx : List FecElement) : (dec.withRx rx).Valid :=
  ⟨h.data_pos, h.parity_pos, h.shardSize_eq, h.le⟩

theorem Valid.pos (h : dec.Valid) : 0 < dec.shardSize := by
  have := h.data_pos
  rw [h.shardSize_eq]
  omega

theorem Valid.toNat_group (h : dec.Valid) : (UInt32.ofNat dec.shardSize).toNat = dec.shardSize :=
  UInt32.toNat_ofNat_of_lt' (Nat.lt_of_le_of_lt h.le (by decide))

theorem Valid.group_ne_zero (h : dec.Valid) : UInt32.ofNat dec.shardSize ≠ 0 := by
  intro heq
  have hpos := h.pos
  have hnat := h.toNat_group
  rw [heq] at hnat
  rw [← hnat] at hpos
  exact absurd hpos (by decide)

/-! ## The steps -/

/-- A place is within the window, and only a number that is there has none. -/
theorem slot_ok (rx : List FecElement) (seqid : UInt32) {n : Nat} (h : n ≤ rx.length) :
    (∃ i, slot rx seqid n = .ok (some i) ∧ i ≤ n)
      ∨ (slot rx seqid n = .ok none ∧ ∃ e ∈ rx, e.seqid = seqid) := by
  induction n with
  | zero => exact .inl ⟨0, rfl, Nat.le_refl 0⟩
  | succ n ih =>
    have hn : n < rx.length := h
    rw [slot, index_ok hn, ok_bind]
    by_cases hdup : rx[n].seqid = seqid
    · rw [if_pos hdup]
      exact .inr ⟨rfl, rx[n], List.getElem_mem hn, hdup⟩
    · rw [if_neg hdup]
      by_cases hafter : 0 < asI32 (seqid - rx[n].seqid)
      · rw [if_pos hafter]
        exact .inl ⟨n + 1, rfl, Nat.le_refl _⟩
      · rw [if_neg hafter]
        refine (ih (Nat.le_of_lt hn)).imp_left ?_
        rintro ⟨i, hi, hle⟩
        exact ⟨i, hi, Nat.le_succ_of_le hle⟩

theorem freeRange_ok (first n : Nat) (dec : FecDecoder) :
    dec.freeRange first n = .ok (dec.withRx (dec.rx.take first ++ dec.rx.drop (first + n))) := by
  unfold freeRange
  by_cases h : first < min (first + n) dec.rx.length
  · rw [if_pos h, drain_ok (Nat.le_of_lt h) (Nat.min_le_right _ _), ok_bind]
    rcases Nat.le_total (first + n) dec.rx.length with hle | hle
    · rw [Nat.min_eq_left hle]
      rfl
    · rw [Nat.min_eq_right hle, List.drop_length, List.drop_of_length_le hle]
      rfl
  · rw [if_neg h]
    have hkeep : dec.rx.take first ++ dec.rx.drop (first + n) = dec.rx := by
      rcases Nat.lt_or_ge first dec.rx.length with hlt | hge
      · have hn : n = 0 := by omega
        rw [hn, Nat.add_zero, List.take_append_drop]
      · rw [List.take_of_length_le hge, List.drop_of_length_le (by omega), List.append_nil]
    rw [hkeep]
    rfl

theorem add_ok {shardSize : Nat} {g : Gathered} (h : Gathered.Sized shardSize g) {idx : Nat}
    (hidx : idx < shardSize) (i : Nat) (s : FecElement) :
    g.add i idx s = .ok (g.adding i idx s) ∧ Gathered.Sized shardSize (g.adding i idx s) := by
  rw [Gathered.add, setAt_ok _ (h.1 ▸ hidx), ok_bind, setAt_ok _ (h.2 ▸ hidx), ok_bind]
  exact ⟨rfl, List.length_set.trans h.1, List.length_set.trans h.2⟩

theorem gather_ok (rx : List FecElement) {group : UInt32} (hgroup : group ≠ 0)
    (shardBegin shardEnd : UInt32) {n i : Nat} (h : i + n ≤ rx.length) {g : Gathered}
    (hg : Gathered.Sized group.toNat g) :
    ∃ g', gather rx group shardBegin shardEnd n i g = .ok g' ∧ Gathered.Sized group.toNat g' := by
  induction n generalizing i g with
  | zero => exact ⟨g, rfl, hg⟩
  | succ n ih =>
    have hi : i < rx.length := by omega
    have hpos : 0 < group.toNat := Nat.pos_of_ne_zero fun hz => hgroup (UInt32.toNat_inj.mp hz)
    rw [gather, index_ok hi, ok_bind]
    split
    · exact ⟨g, rfl, hg⟩
    split
    · have hidx : (rx[i].seqid % group).toNat < group.toNat := by
        rw [UInt32.toNat_mod]
        exact Nat.mod_lt _ hpos
      obtain ⟨hg', hsized⟩ := add_ok hg hidx i rx[i]
      rw [rem32_ok hgroup, ok_bind, hg', ok_bind]
      exact ih (by omega) hsized
    · exact ih (by omega) hg

theorem missing_ok (shards : List (Option Bytes)) (present : List Bool) {idx : Nat}
    (h : idx + present.length ≤ shards.length) : ∃ out, missing shards idx present = .ok out := by
  induction present generalizing idx with
  | nil => exact ⟨[], rfl⟩
  | cons wasPresent present ih =>
    rw [List.length_cons] at h
    have hrest : idx + 1 + present.length ≤ shards.length := by omega
    obtain ⟨out, hout⟩ := ih hrest
    rw [missing]
    split
    · exact ⟨out, hout⟩
    · rw [index_ok (by omega), ok_bind, hout, ok_bind]
      exact ⟨_, rfl⟩

theorem rebuild_ok {g : Gathered} (hg : Gathered.Sized dec.shardSize g) :
    ∃ out, dec.rebuild g = .ok out := by
  unfold rebuild
  split
  · rename_i shards hs
    refine missing_ok shards _ ?_
    rw [dec.codec.length_reconstructData hs, List.length_map, List.length_take, hg.1, hg.2]
    omega
  · exact ⟨[], rfl⟩

theorem take_append_drop_subset {α : Type} (xs : List α) (first n : Nat) :
    xs.take first ++ xs.drop (first + n) ⊆ xs := by
  intro x hx
  rcases List.mem_append.mp hx with h | h
  · exact List.mem_of_mem_take h
  · exact List.mem_of_mem_drop h

/-- The result of a step that takes elements out of the window only. -/
def Shrinks (dec : FecDecoder) : Except Panic (List Bytes × FecDecoder) → Prop
  | .ok (_, dec') => ∃ rx ⊆ dec.rx, dec' = dec.withRx rx
  | .error _ => False

theorem finish_ok {g : Gathered} (hg : Gathered.Sized dec.shardSize g) :
    dec.Shrinks (dec.finish g) := by
  have hsub := take_append_drop_subset dec.rx g.first g.numShard
  unfold finish
  split
  · rw [freeRange_ok, ok_bind]
    exact ⟨_, hsub, rfl⟩
  split
  · obtain ⟨out, hout⟩ := rebuild_ok hg
    rw [hout, ok_bind, freeRange_ok, ok_bind]
    exact ⟨_, hsub, rfl⟩
  · exact ⟨dec.rx, List.Subset.refl _, rfl⟩

theorem trim_ok (now : Nat) (dec : FecDecoder) :
    ∃ rx ⊆ dec.rx, dec.trim now = .ok (dec.withRx rx) := by
  have hbound : ∃ rx ⊆ dec.rx, dec.boundWindow = .ok (dec.withRx rx) := by
    unfold boundWindow
    split
    · rw [freeRange_ok]
      exact ⟨_, take_append_drop_subset _ _ _, rfl⟩
    · exact ⟨dec.rx, List.Subset.refl _, rfl⟩
  obtain ⟨rx, hrx, hbound⟩ := hbound
  rw [trim, hbound, ok_bind, expire]
  split
  · rw [freeRange_ok]
    exact ⟨_, List.Subset.trans (take_append_drop_subset _ _ _) hrx, rfl⟩
  · exact ⟨rx, hrx, rfl⟩

theorem toNat_shardBegin (seqid group : UInt32) :
    (seqid - seqid % group).toNat = seqid.toNat / group.toNat * group.toNat := by
  have hle : (seqid % group).toNat ≤ seqid.toNat := by
    rw [UInt32.toNat_mod]
    exact Nat.mod_le _ _
  have hdiv := Nat.div_add_mod seqid.toNat group.toNat
  rw [UInt32.toNat_sub_of_le _ _ hle, UInt32.toNat_mod, Nat.mul_comm]
  omega

/-- The first and the last number of the group of a shard. -/
def groupBegin (dec : FecDecoder) (seqid : UInt32) : UInt32 :=
  seqid - seqid % UInt32.ofNat dec.shardSize

def groupEnd (dec : FecDecoder) (seqid : UInt32) : UInt32 :=
  dec.groupBegin seqid + UInt32.ofNat dec.shardSize - 1

/-- Where the search for the group begins, and where it ends. -/
def searchBegin (dec : FecDecoder) (seqid : UInt32) (insertAt : Nat) : Nat :=
  insertAt - seqid.toNat % dec.shardSize

def searchEnd (dec : FecDecoder) (seqid : UInt32) (insertAt : Nat) : Nat :=
  min (dec.searchBegin seqid insertAt + dec.shardSize - 1) (dec.rx.length - 1)

/-- The group of a shard is found in range, unless it is the last cell. -/
theorem recover_eq (hv : dec.Valid) {seqid : UInt32} (hlt : seqid.toNat < lastCell dec.shardSize)
    (insertAt : Nat) :
    dec.recover seqid insertAt =
      if dec.searchEnd seqid insertAt ≥ dec.searchBegin seqid insertAt
          ∧ dec.searchEnd seqid insertAt - dec.searchBegin seqid insertAt + 1 ≥ dec.datashard then
        gather dec.rx (UInt32.ofNat dec.shardSize) (dec.groupBegin seqid) (dec.groupEnd seqid)
            (dec.searchEnd seqid insertAt + 1 - dec.searchBegin seqid insertAt)
            (dec.searchBegin seqid insertAt) (Gathered.new dec.shardSize) >>= dec.finish
      else .ok ([], dec) := by
  have hgroup := hv.toNat_group
  have hpos := hv.pos
  have hrem : (seqid % UInt32.ofNat dec.shardSize).toNat ≤ seqid.toNat := by
    rw [UInt32.toNat_mod]
    exact Nat.mod_le _ _
  have hbegin := toNat_shardBegin seqid (UInt32.ofNat dec.shardSize)
  have hfits : (seqid - seqid % UInt32.ofNat dec.shardSize).toNat
      + (UInt32.ofNat dec.shardSize).toNat < 2 ^ 32 := by
    rw [hbegin, hgroup]
    exact (cell_lt_iff hpos).mpr hlt
  have hone : (1 : UInt32).toNat ≤ (seqid - seqid % UInt32.ofNat dec.shardSize
      + UInt32.ofNat dec.shardSize).toNat := by
    rw [UInt32.toNat_add, Nat.mod_eq_of_lt hfits, hgroup]
    show 1 ≤ _
    omega
  have hcell : (seqid % UInt32.ofNat dec.shardSize).toNat = seqid.toNat % dec.shardSize := by
    rw [UInt32.toNat_mod, hgroup]
  rw [recover]
  simp only [rem32_ok hv.group_ne_zero, sub32_ok hrem, add32_ok hfits, sub32_ok hone, ok_bind, hcell]
  rfl

theorem recover_ok (hv : dec.Valid) {seqid : UInt32} (hlt : seqid.toNat < lastCell dec.shardSize)
    {insertAt : Nat} (hrx : insertAt < dec.rx.length) :
    dec.Shrinks (dec.recover seqid insertAt) := by
  have hgroup := hv.toNat_group
  have hpos := hv.pos
  rw [recover_eq hv hlt]
  split
  · have hnew : Gathered.Sized (UInt32.ofNat dec.shardSize).toNat (Gathered.new dec.shardSize) := by
      rw [hgroup]
      exact .new dec.shardSize
    have hrange : dec.searchBegin seqid insertAt
        + (dec.searchEnd seqid insertAt + 1 - dec.searchBegin seqid insertAt) ≤ dec.rx.length := by
      rw [searchEnd, searchBegin]
      omega
    obtain ⟨g, hg, hsized⟩ := gather_ok dec.rx hv.group_ne_zero (dec.groupBegin seqid)
      (dec.groupEnd seqid) hrange hnew
    rw [hg, ok_bind]
    exact finish_ok (hgroup ▸ hsized)
  · exact ⟨dec.rx, List.Subset.refl _, rfl⟩

theorem recover_overflow (hv : dec.Valid) {seqid : UInt32}
    (hge : lastCell dec.shardSize ≤ seqid.toNat) (insertAt : Nat) :
    dec.recover seqid insertAt = .error .overflow := by
  have hgroup := hv.toNat_group
  have hrem : (seqid % UInt32.ofNat dec.shardSize).toNat ≤ seqid.toNat := by
    rw [UInt32.toNat_mod]
    exact Nat.mod_le _ _
  have hbegin := toNat_shardBegin seqid (UInt32.ofNat dec.shardSize)
  have hover : 2 ^ 32 ≤ (seqid - seqid % UInt32.ofNat dec.shardSize).toNat
      + (UInt32.ofNat dec.shardSize).toNat := by
    rw [hbegin, hgroup]
    exact Nat.not_lt.mp fun h => absurd ((cell_lt_iff hv.pos).mp h) (Nat.not_lt.mpr hge)
  rw [recover]
  simp only [rem32_ok hv.group_ne_zero, sub32_ok hrem, add32_overflow hover, ok_bind, error_bind]

/-! ## Whole runs -/

/-- A shard that is not a duplicate is inserted, then its group is looked for. -/
theorem decode_of_slot {seqid : UInt32} {i : Nat}
    (hi : slot dec.rx seqid dec.rx.length = .ok (some i)) (hle : i ≤ dec.rx.length) (flag : UInt16)
    (data : Bytes) (now : Nat) :
    dec.decode seqid flag data now
      = ((dec.withRx (dec.rx.take i ++ ⟨seqid, flag, data, now⟩ :: dec.rx.drop i)).recover seqid i
          >>= fun x => x.2.trim now >>= fun dec' => .ok (x.1, dec')) := by
  rw [decode, hi, ok_bind]
  simp only [insert_ok _ hle, ok_bind]
  rfl

theorem decode_of_duplicate {seqid : UInt32} (h : slot dec.rx seqid dec.rx.length = .ok none)
    (flag : UInt16) (data : Bytes) (now : Nat) :
    dec.decode seqid flag data now = .ok ([], dec) := by
  rw [decode, h, ok_bind]

/-- What one call makes of a window without a number of the last cell: a shard of any
other cell leaves such a window again, and a shard of the last cell is a panic. -/
theorem decode_ok (hv : dec.Valid) (hrx : ∀ e ∈ dec.rx, e.seqid.toNat < lastCell dec.shardSize)
    (seqid : UInt32) (flag : UInt16) (data : Bytes) (now : Nat) :
    (seqid.toNat < lastCell dec.shardSize ∧ ∃ out rx, dec.decode seqid flag data now
        = .ok (out, dec.withRx rx) ∧ ∀ e ∈ rx, e.seqid.toNat < lastCell dec.shardSize)
      ∨ (lastCell dec.shardSize ≤ seqid.toNat
        ∧ dec.decode seqid flag data now = .error .overflow) := by
  rcases slot_ok dec.rx seqid (Nat.le_refl _) with ⟨i, hi, hle⟩ | ⟨hnone, e, he, rfl⟩
  · let rx := dec.rx.take i ++ ⟨seqid, flag, data, now⟩ :: dec.rx.drop i
    rw [decode_of_slot hi hle]
    rcases Nat.lt_or_ge seqid.toNat (lastCell dec.shardSize) with hlt | hge
    · have hlen : i < rx.length := by
        rw [List.length_append, List.length_take, List.length_cons]
        omega
      have hshrinks := recover_ok (hv.withRx rx) hlt hlen
      revert hshrinks
      rcases (dec.withRx rx).recover seqid i with p | ⟨out, dec'⟩
      · exact fun h => h.elim
      · rintro ⟨rx', hsub, rfl⟩
        obtain ⟨rx'', hsub', htrim⟩ := trim_ok now ((dec.withRx rx).withRx rx')
        rw [ok_bind, htrim, ok_bind]
        refine .inl ⟨hlt, out, rx'', rfl, fun e he => ?_⟩
        have hmem : e ∈ rx := hsub (hsub' he)
        rcases List.mem_append.mp hmem with h | h
        · exact hrx e (List.mem_of_mem_take h)
        rcases List.mem_cons.mp h with rfl | h
        · exact hlt
        · exact hrx e (List.mem_of_mem_drop h)
    · exact .inr ⟨hge, by rw [recover_overflow (hv.withRx rx) hge, error_bind]⟩
  · exact .inl ⟨hrx e he, [], dec.rx, decode_of_duplicate hnone flag data now, hrx⟩

theorem decodeAll_ok_iff (hv : dec.Valid)
    (hrx : ∀ e ∈ dec.rx, e.seqid.toNat < lastCell dec.shardSize) (shards : List FecElement) :
    (∃ out, dec.decodeAll shards = .ok out)
      ↔ ∀ s ∈ shards, s.seqid.toNat < lastCell dec.shardSize := by
  induction shards generalizing dec with
  | nil => simp [decodeAll]
  | cons s shards ih =>
    rw [decodeAll, List.forall_mem_cons]
    rcases decode_ok hv hrx s.seqid s.flag s.data s.at' with
      ⟨hlt, out, rx, hok, hrx'⟩ | ⟨hge, herr⟩
    · have hrest := ih (hv.withRx rx) hrx'
      simp only [hok, ok_bind]
      constructor
      · rintro ⟨res, hres⟩
        refine ⟨hlt, hrest.mp ?_⟩
        rcases hdec' : (dec.withRx rx).decodeAll shards with p | out'
        · rw [hdec', error_bind] at hres
          cases hres
        · exact ⟨out', rfl⟩
      · rintro ⟨-, hall⟩
        obtain ⟨out', hdec'⟩ := hrest.mpr hall
        rw [hdec', ok_bind]
        exact ⟨_, rfl⟩
    · rw [herr, error_bind]
      constructor
      · rintro ⟨res, hres⟩
        cases hres
      · exact fun h => absurd h.1 (Nat.not_lt.mpr hge)

end FecDecoder

/-- A decoder panics in a run exactly if the run has a number that the encoder never
uses, one of the last cell. -/
theorem fec_total {rs : NewCodec} (hrs : rs.Bounded) {d p : UInt32} {dec : FecDecoder}
    (hnew : FecDecoder.new rs d p = some dec) (shards : List FecElement) :
    (∃ out, dec.decodeAll shards = .ok out)
      ↔ ∀ s ∈ shards, s.seqid.toNat < lastCell (d.toNat + p.toNat) := by
  obtain ⟨hv, hnil, hsize, -⟩ := FecDecoder.valid_new hrs hnew
  rw [← hsize]
  refine FecDecoder.decodeAll_ok_iff hv (fun e he => ?_) shards
  rw [hnil] at he
  cases he

/-! ## One data and one parity shard -/

/-- With one shard of each kind the parity is a copy of the data. -/
def copyCodec : ReedSolomon where
  encode
    | [a, b] => if a.length = b.length then some [a, a] else none
    | _ => none
  reconstructData
    | [none, some b] => some [some b, some b]
    | [some a, b] => some [some a, b]
    | _ => none
  lengths_encode := by
    intro shards out h
    split at h
    · split at h
      · rename_i heq
        cases h
        simp [heq]
      · cases h
    · cases h
  length_reconstructData := by
    intro shards out h
    split at h <;> cases h <;> rfl

def newCopyCodec : NewCodec
  | 1, 1 => some copyCodec
  | _, _ => none

theorem newCopyCodec_bounded : newCopyCodec.Bounded := by
  intro d p codec h
  unfold newCopyCodec at h
  split at h
  · decide
  · cases h

def copyDecoder : FecDecoder :=
  { datashard := 1, parityshard := 1, shardSize := 2, rxlimit := 6, rx := [], codec := copyCodec }

/-- A parity shard and its data shard. -/
theorem fec_total_pair :
    ∃ out, copyDecoder.decodeAll [⟨1, TYPE_PARITY, [3, 0, 7], 0⟩, ⟨0, TYPE_DATA, [3, 0, 7], 1⟩]
      = .ok out :=
  (fec_total newCopyCodec_bounded (d := 1) (p := 1) rfl _).mpr (by decide)

/-- The last number there is. -/
theorem fec_total_last :
    FecDecoder.new newCopyCodec 1 1 = some copyDecoder
      ∧ copyDecoder.decodeAll [⟨0xFFFFFFFF, TYPE_DATA, [], 0⟩] = .error .overflow :=
  ⟨rfl, rfl⟩

end Kcp
end RtProxy
