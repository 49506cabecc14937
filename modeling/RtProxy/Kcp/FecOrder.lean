import RtProxy.Kcp.FecTotal

/-!
The window of the decoder stays in order.

Numbers of one half of the circle are ordered by the signed difference of any two, also
where the circle closes.  A group is then a stretch of the window, so a range freed by a
count from its first member holds no shard of another group.
-/

namespace RtProxy
namespace Kcp

open Checked

/-- Each shard comes before those behind it, as `decode` compares them. -/
def Ordered (rx : List FecElement) : Prop := rx.Pairwise fun a b => 0 < asI32 (b.seqid - a.seqid)

/-- Two numbers of one cell of the grid. -/
def SameCell (shardSize : Nat) (x y : UInt32) : Prop :=
  x.toNat / shardSize = y.toNat / shardSize

/-- A window from which a stretch was taken, of shards in the cell of `x` only. -/
def Frees (shardSize : Nat) (x : UInt32) (rx rx' : List FecElement) : Prop :=
  ∃ front gone back, rx = front ++ gone ++ back ∧ rx' = front ++ back
    ∧ ∀ e ∈ gone, SameCell shardSize e.seqid x

theorem Frees.sublist {shardSize : Nat} {x : UInt32} {rx rx' : List FecElement}
    (h : Frees shardSize x rx rx') : rx'.Sublist rx := by
  obtain ⟨front, gone, back, rfl, rfl, -⟩ := h
  rw [List.append_assoc]
  exact (List.sublist_append_right gone back).append_left front

namespace FecDecoder

/-- The window with the shard `s` put in at `i`. -/
def inserted (dec : FecDecoder) (i : Nat) (s : FecElement) : List FecElement :=
  dec.rx.take i ++ s :: dec.rx.drop i

/-- What the completed group of the shard `s` takes out of the window. -/
def FreesCell (dec : FecDecoder) (s : FecElement) : Prop :=
  ∀ i, slot dec.rx s.seqid dec.rx.length = .ok (some i) →
    ∃ out dec', (dec.withRx (dec.inserted i s)).recover s.seqid i = .ok (out, dec')
      ∧ Frees dec.shardSize s.seqid (dec.inserted i s) dec'.rx

/-- Every call of a run returns, leaves the window in order and within its limit, and frees
shards of its own group only. -/
def WindowKept : List FecElement → FecDecoder → Prop
  | [], _ => True
  | s :: shards, dec => ∃ out dec', dec.decode s.seqid s.flag s.data s.at' = .ok (out, dec')
      ∧ Ordered dec'.rx ∧ (dec'.rx.map FecElement.seqid).Nodup
      ∧ dec'.rx.length ≤ 3 * dec.shardSize ∧ dec.FreesCell s ∧ WindowKept shards dec'

/-! ## One half of the circle -/

/-- How far a number lies behind `base` on the circle. -/
def behind (base x : UInt32) : Nat := (x - base).toNat

theorem toNat_sub_of_behind {base x y : UInt32} (h : behind base y ≤ behind base x) :
    (x - y).toNat = behind base x - behind base y := by
  have hx : x.toNat < 2 ^ 32 := x.toNat_lt
  have hy : y.toNat < 2 ^ 32 := y.toNat_lt
  have hb : base.toNat < 2 ^ 32 := base.toNat_lt
  rw [behind, behind, UInt32.toNat_sub, UInt32.toNat_sub] at h ⊢
  rw [UInt32.toNat_sub]
  omega

/-- In one half the signed difference tells the order. -/
theorem serial_iff {base x y : UInt32} (hx : behind base x < 2 ^ 31) (hy : behind base y < 2 ^ 31) :
    0 < asI32 (x - y) ↔ behind base y < behind base x := by
  rw [asI32_pos]
  rcases Nat.lt_or_ge (behind base y) (behind base x) with h | h
  · rw [toNat_sub_of_behind (Nat.le_of_lt h)]
    omega
  · have hswap : (y - x).toNat = behind base y - behind base x := toNat_sub_of_behind h
    have hx' : x.toNat < 2 ^ 32 := x.toNat_lt
    have hy' : y.toNat < 2 ^ 32 := y.toNat_lt
    rw [UInt32.toNat_sub] at hswap ⊢
    omega

theorem eq_of_behind {base x y : UInt32} (h : behind base x = behind base y) : x = y := by
  have hx : x.toNat < 2 ^ 32 := x.toNat_lt
  have hy : y.toNat < 2 ^ 32 := y.toNat_lt
  have hb : base.toNat < 2 ^ 32 := base.toNat_lt
  rw [behind, behind, UInt32.toNat_sub, UInt32.toNat_sub] at h
  apply UInt32.toNat_inj.mp
  omega

/-- A window of shards of the half from `base` on, in order. -/
structure Rising (base : UInt32) (rx : List FecElement) : Prop where
  half : ∀ e ∈ rx, behind base e.seqid < 2 ^ 31
  rises : rx.Pairwise fun a b => behind base a.seqid < behind base b.seqid

namespace Rising

variable {base : UInt32} {rx : List FecElement}

theorem ordered (h : Rising base rx) : Ordered rx := by
  refine h.rises.imp_of_mem fun {a b} ha hb hlt => ?_
  exact (serial_iff (h.half b hb) (h.half a ha)).mpr hlt

theorem nodup (h : Rising base rx) : (rx.map FecElement.seqid).Nodup := by
  refine List.pairwise_map.mpr (h.rises.imp fun {a b} hlt heq => ?_)
  rw [heq] at hlt
  exact Nat.lt_irrefl _ hlt

theorem sublist {rx' : List FecElement} (h : Rising base rx) (hsub : rx'.Sublist rx) :
    Rising base rx' :=
  ⟨fun e he => h.half e (hsub.subset he), h.rises.sublist hsub⟩

/-- A shard goes behind those before it and before those behind it. -/
theorem insert {lo hi : List FecElement} (h : Rising base (lo ++ hi)) {s : FecElement}
    (hs : behind base s.seqid < 2 ^ 31) (hlo : ∀ e ∈ lo, behind base e.seqid < behind base s.seqid)
    (hhi : ∀ e ∈ hi, behind base s.seqid < behind base e.seqid) : Rising base (lo ++ s :: hi) := by
  obtain ⟨hrise, hrise', hcross⟩ := List.pairwise_append.mp h.rises
  constructor
  · intro e he
    rcases List.mem_append.mp he with he | he
    · exact h.half e (List.mem_append_left _ he)
    rcases List.mem_cons.mp he with rfl | he
    · exact hs
    · exact h.half e (List.mem_append_right _ he)
  · refine List.pairwise_append.mpr ⟨hrise, List.pairwise_cons.mpr ⟨hhi, hrise'⟩, fun a ha b hb => ?_⟩
    rcases List.mem_cons.mp hb with rfl | hb
    · exact hlo a ha
    · exact hcross a ha b hb

end Rising

/-! ## The place of a shard -/

/-- The place that the search finds among the first `n` elements divides them. -/
theorem slot_divides {base seqid : UInt32} {rx : List FecElement} (h : Rising base rx)
    (hs : behind base seqid < 2 ^ 31) {n i : Nat} (hn : n ≤ rx.length)
    (hslot : slot rx seqid n = .ok (some i)) :
    i ≤ n ∧ (∀ e ∈ rx.take i, behind base e.seqid < behind base seqid)
      ∧ ∀ e ∈ (rx.take n).drop i, behind base seqid < behind base e.seqid := by
  induction n with
  | zero =>
    cases hslot
    exact ⟨Nat.le_refl 0, by simp, by simp⟩
  | succ n ih =>
    have hlt : n < rx.length := hn
    have hhalf := h.half rx[n] (List.getElem_mem hlt)
    have htake := List.take_succ_eq_append_getElem hlt
    rw [slot, index_ok hlt, ok_bind] at hslot
    split_ifs at hslot with hdup hafter
    · cases hslot
    · cases hslot
      rw [serial_iff hs hhalf] at hafter
      refine ⟨Nat.le_refl _, fun e he => ?_, by simp⟩
      have hrises := h.rises.sublist (List.take_sublist (n + 1) rx)
      rw [htake] at he hrises
      rcases List.mem_append.mp he with he | he
      · exact Nat.lt_trans ((List.pairwise_append.mp hrises).2.2 e he _ (by simp)) hafter
      · rw [List.mem_singleton.mp he]
        exact hafter
    · obtain ⟨hle, hlo, hhi⟩ := ih (Nat.le_of_lt hlt) hslot
      rw [serial_iff hs hhalf] at hafter
      have hne : behind base seqid ≠ behind base rx[n].seqid := fun heq =>
        hdup (eq_of_behind heq).symm
      refine ⟨Nat.le_succ_of_le hle, hlo, fun e he => ?_⟩
      rw [htake, List.drop_append_of_le_length (by rw [List.length_take]; omega)] at he
      rcases List.mem_append.mp he with he | he
      · exact hhi e he
      · rw [List.mem_singleton.mp he]
        omega

/-! ## A group is a stretch -/

/-- The shard at `j` of the window is one of the `size` shards from `first` on. -/
def MemberAt (rx : List FecElement) (first : UInt32) (size j : Nat) : Prop :=
  ∃ e, rx[j]? = some e ∧ (e.seqid - first).toNat < size

/-- What stands between two shards of a group is of the group. -/
theorem Rising.between {base first : UInt32} {rx : List FecElement} {size a m b : Nat}
    (h : Rising base rx) (hsize : size ≤ 256) (ham : a < m) (hmb : m < b)
    (ha : MemberAt rx first size a) (hb : MemberAt rx first size b) : MemberAt rx first size m := by
  obtain ⟨x, hx, hxin⟩ := ha
  obtain ⟨z, hz, hzin⟩ := hb
  have hblt : b < rx.length := (List.getElem?_eq_some_iff.mp hz).1
  have hmlt : m < rx.length := Nat.lt_trans hmb hblt
  have halt : a < rx.length := Nat.lt_trans ham hmlt
  have hxm := List.pairwise_iff_getElem.mp h.rises a m halt hmlt ham
  have hmz := List.pairwise_iff_getElem.mp h.rises m b hmlt hblt hmb
  have hxh := h.half rx[a] (List.getElem_mem halt)
  have hzh := h.half rx[b] (List.getElem_mem hblt)
  rw [(List.getElem?_eq_some_iff.mp hx).2] at hxm hxh
  rw [(List.getElem?_eq_some_iff.mp hz).2] at hmz hzh
  refine ⟨rx[m], List.getElem?_eq_getElem hmlt, ?_⟩
  have hy := rx[m].seqid.toNat_lt
  have hx' := x.seqid.toNat_lt
  have hz' := z.seqid.toNat_lt
  have hf := first.toNat_lt
  have hb' := base.toNat_lt
  rw [behind, behind, UInt32.toNat_sub, UInt32.toNat_sub] at hxm hmz
  rw [behind, UInt32.toNat_sub] at hxh hzh
  rw [UInt32.toNat_sub] at hxin hzin ⊢
  omega

/-- What the search has taken in before it comes to `i` is a stretch of the group, up to
`i` or up to a shard of another group. -/
def Stretch (rx : List FecElement) (first : UInt32) (size i : Nat) (g : Gathered) : Prop :=
  g.numShard = 0 ∨ (0 < g.numShard
    ∧ (∀ j, g.first ≤ j → j < g.first + g.numShard → MemberAt rx first size j)
    ∧ (g.first + g.numShard = i ∨ ∃ m, g.first < m ∧ m < i ∧ ¬ MemberAt rx first size m))

/-- A shard of the group goes on with the stretch, since nothing stands between. -/
theorem Stretch.adding {rx : List FecElement} {first : UInt32} {size i : Nat} {g : Gathered}
    (h : Stretch rx first size i g)
    (hbetween : ∀ a m b, a < m → m < b → MemberAt rx first size a → MemberAt rx first size b →
      MemberAt rx first size m) (hmem : MemberAt rx first size i) (idx : Nat) (s : FecElement) :
    Stretch rx first size (i + 1) (g.adding i idx s) := by
  have hnum : (g.adding i idx s).numShard = g.numShard + 1 := rfl
  refine .inr ⟨Nat.succ_pos _, ?_⟩
  rcases h with hzero | ⟨hpos, hall, hopen | ⟨m, hlo, hhi, hgap⟩⟩
  · have hfirst : (g.adding i idx s).first = i := if_pos hzero
    rw [hfirst, hnum, hzero]
    refine ⟨fun j hlo hhi => ?_, .inl rfl⟩
    have hj : j = i := by omega
    exact hj ▸ hmem
  · have hfirst : (g.adding i idx s).first = g.first := if_neg (Nat.ne_of_gt hpos)
    rw [hfirst, hnum]
    refine ⟨fun j hlo hhi => ?_, .inl (by omega)⟩
    rcases Nat.lt_or_ge j (g.first + g.numShard) with hlt | hge
    · exact hall j hlo hlt
    · have hj : j = i := by omega
      exact hj ▸ hmem
  · exact absurd (hbetween g.first m i hlo hhi (hall g.first (Nat.le_refl _) (by omega)) hmem) hgap

/-- A shard of another group ends it. -/
theorem Stretch.passing {rx : List FecElement} {first : UInt32} {size i : Nat} {g : Gathered}
    (h : Stretch rx first size i g) (hnot : ¬ MemberAt rx first size i) :
    Stretch rx first size (i + 1) g := by
  refine h.imp_right fun ⟨hpos, hall, hend⟩ => ⟨hpos, hall, .inr ?_⟩
  rcases hend with hopen | ⟨m, hlo, hhi, hgap⟩
  · exact ⟨i, by omega, Nat.lt_succ_self i, hnot⟩
  · exact ⟨m, hlo, Nat.lt_succ_of_lt hhi, hgap⟩

/-- The two tests of the search pick out the group. -/
theorem member_iff {first last x : UInt32} {size : Nat} (hpos : 0 < size) (hle : size ≤ 256)
    (hlast : last = first + UInt32.ofNat size - 1) (hnot : ¬ 0 < asI32 (x - last)) :
    0 ≤ asI32 (x - first) ↔ (x - first).toNat < size := by
  have hx := x.toNat_lt
  have hf := first.toNat_lt
  have hsize : (UInt32.ofNat size).toNat = size :=
    UInt32.toNat_ofNat_of_lt' (Nat.lt_of_le_of_lt hle (by decide))
  have hone : (1 : UInt32).toNat = 1 := rfl
  rw [asI32_pos, hlast, UInt32.toNat_sub, UInt32.toNat_sub, UInt32.toNat_add, hsize, hone] at hnot
  rw [asI32_nonneg, UInt32.toNat_sub]
  omega

variable {dec : FecDecoder}

theorem gather_stretch {rx : List FecElement} {group first last : UInt32} (hgroup : group ≠ 0)
    (hle : group.toNat ≤ 256) (hlast : last = first + group - 1)
    (hbetween : ∀ a m b, a < m → m < b → MemberAt rx first group.toNat a →
      MemberAt rx first group.toNat b → MemberAt rx first group.toNat m)
    {n i : Nat} (hin : i + n ≤ rx.length) {g g' : Gathered} (hg : Gathered.Sized group.toNat g)
    (h : Stretch rx first group.toNat i g) (hgather : gather rx group first last n i g = .ok g') :
    g'.numShard = 0 ∨
      ∀ j, g'.first ≤ j → j < g'.first + g'.numShard → MemberAt rx first group.toNat j := by
  have hpos : 0 < group.toNat := Nat.pos_of_ne_zero fun hz => hgroup (UInt32.toNat_inj.mp hz)
  have hlast' : last = first + UInt32.ofNat group.toNat - 1 := by
    rw [UInt32.ofNat_toNat]
    exact hlast
  induction n generalizing i g with
  | zero =>
    cases hgather
    exact h.imp_right fun h => h.2.1
  | succ n ih =>
    have hi : i < rx.length := by omega
    rw [gather, index_ok hi, ok_bind] at hgather
    split_ifs at hgather with hafter hfrom
    · cases hgather
      exact h.imp_right fun h => h.2.1
    · have hmem := (member_iff hpos hle hlast' hafter).mp hfrom
      have hidx : (rx[i].seqid % group).toNat < group.toNat := by
        rw [UInt32.toNat_mod]
        exact Nat.mod_lt _ hpos
      obtain ⟨hadd, hsized⟩ := add_ok hg hidx i rx[i]
      rw [rem32_ok hgroup, ok_bind, hadd, ok_bind] at hgather
      exact ih (by omega) hsized
        (h.adding hbetween ⟨rx[i], List.getElem?_eq_getElem hi, hmem⟩ _ rx[i]) hgather
    · refine ih (by omega) hg (h.passing fun hmem => hfrom ?_) hgather
      obtain ⟨e, he, hmem⟩ := hmem
      rw [(List.getElem?_eq_some_iff.mp he).2.symm] at hmem
      exact (member_iff hpos hle hlast' hafter).mpr hmem

/-! ## What is freed -/

theorem sameCell_of_member (hv : dec.Valid) {seqid x : UInt32}
    (hlt : seqid.toNat < lastCell dec.shardSize)
    (h : (x - dec.groupBegin seqid).toNat < dec.shardSize) : SameCell dec.shardSize x seqid := by
  have hpos := hv.pos
  have hbegin : (dec.groupBegin seqid).toNat = seqid.toNat / dec.shardSize * dec.shardSize := by
    rw [groupBegin, toNat_shardBegin, hv.toNat_group]
  have hfits := (cell_lt_iff hpos).mpr hlt
  have hx := x.toNat_lt
  rw [UInt32.toNat_sub, hbegin] at h
  have hlow : seqid.toNat / dec.shardSize * dec.shardSize ≤ x.toNat := by omega
  have hhigh : x.toNat < (seqid.toNat / dec.shardSize + 1) * dec.shardSize := by
    rw [Nat.add_mul, Nat.one_mul]
    omega
  refine Nat.le_antisymm (Nat.le_of_lt_succ ?_) ?_
  · exact (Nat.div_lt_iff_lt_mul hpos).mpr hhigh
  · exact (Nat.le_div_iff_mul_le hpos).mpr hlow

/-- A range of members is freed as a stretch. -/
theorem freeRange_frees {seqid : UInt32} {first n : Nat}
    (h : ∀ j, first ≤ j → j < first + n → ∀ e, dec.rx[j]? = some e →
      SameCell dec.shardSize e.seqid seqid) :
    ∃ rx, dec.freeRange first n = .ok (dec.withRx rx) ∧ Frees dec.shardSize seqid dec.rx rx := by
  refine ⟨_, freeRange_ok first n dec, dec.rx.take first, (dec.rx.drop first).take n,
    dec.rx.drop (first + n), ?_, rfl, fun e he => ?_⟩
  · rw [List.append_assoc, ← List.drop_drop, List.take_append_drop, List.take_append_drop]
  · obtain ⟨j, hj, hget⟩ := List.mem_iff_getElem.mp he
    rw [List.length_take, List.length_drop] at hj
    refine h (first + j) (Nat.le_add_right _ _) (by omega) e ?_
    rw [List.getElem_take, List.getElem_drop] at hget
    rw [List.getElem?_eq_getElem (by omega), hget]

theorem frees_none (seqid : UInt32) (rx : List FecElement) (shardSize : Nat) :
    Frees shardSize seqid rx rx :=
  ⟨rx, [], [], by simp, by simp, by simp⟩

theorem finish_frees {seqid : UInt32} {g : Gathered} (hg : Gathered.Sized dec.shardSize g)
    (h : ∀ j, g.first ≤ j → j < g.first + g.numShard → ∀ e, dec.rx[j]? = some e →
      SameCell dec.shardSize e.seqid seqid) :
    ∃ out rx, dec.finish g = .ok (out, dec.withRx rx) ∧ Frees dec.shardSize seqid dec.rx rx := by
  obtain ⟨rx, hfree, hfrees⟩ := freeRange_frees h
  unfold finish
  split
  · rw [hfree, ok_bind]
    exact ⟨[], rx, rfl, hfrees⟩
  split
  · obtain ⟨out, hout⟩ := rebuild_ok hg
    rw [hout, ok_bind, hfree, ok_bind]
    exact ⟨out, rx, rfl, hfrees⟩
  · exact ⟨[], dec.rx, rfl, frees_none _ _ _⟩

theorem recover_frees (hv : dec.Valid) {base seqid : UInt32}
    (hlt : seqid.toNat < lastCell dec.shardSize) (hr : Rising base dec.rx) {insertAt : Nat}
    (hrx : insertAt < dec.rx.length) :
    ∃ out rx, dec.recover seqid insertAt = .ok (out, dec.withRx rx)
      ∧ Frees dec.shardSize seqid dec.rx rx := by
  have hgroup := hv.toNat_group
  have hle := hv.le
  rw [recover_eq hv hlt]
  split
  · have hnew : Gathered.Sized (UInt32.ofNat dec.shardSize).toNat (Gathered.new dec.shardSize) := by
      rw [hgroup]
      exact .new dec.shardSize
    have hrange : dec.searchBegin seqid insertAt
        + (dec.searchEnd seqid insertAt + 1 - dec.searchBegin seqid insertAt) ≤ dec.rx.length := by
      rw [searchEnd, searchBegin]
      omega
    obtain ⟨g, hg, hsized⟩ := gather_ok dec.rx hv.group_ne_zero (dec.groupBegin seqid)
      (dec.groupEnd seqid) hrange hnew
    have hstretch := gather_stretch hv.group_ne_zero (hgroup.trans_le hle) rfl
      (fun a m b ham hmb => hr.between (hgroup.trans_le hle) ham hmb) hrange hnew (.inl rfl) hg
    rw [hg, ok_bind]
    refine finish_frees (hgroup ▸ hsized) fun j hlo hhi e he => ?_
    rcases hstretch with hzero | hall
    · omega
    · obtain ⟨e', he', hmem⟩ := hall j hlo hhi
      rw [he] at he'
      obtain rfl := Option.some.inj he'
      exact sameCell_of_member hv hlt (hgroup ▸ hmem)
  · exact ⟨[], dec.rx, rfl, frees_none _ _ _⟩

/-! ## One call -/

theorem freeRange_front (n : Nat) : dec.freeRange 0 n = .ok (dec.withRx (dec.rx.drop n)) := by
  rw [freeRange_ok, List.take_zero, List.nil_append, Nat.zero_add]

/-- The trimming takes shards from the front, at least one if there are too many. -/
theorem trim_front (now : Nat) (dec : FecDecoder) :
    ∃ n, dec.trim now = .ok (dec.withRx (dec.rx.drop n)) ∧ (dec.rxlimit < dec.rx.length → 0 < n) := by
  have hexpire (dec' : FecDecoder) : ∃ n, dec'.expire now = .ok (dec'.withRx (dec'.rx.drop n)) := by
    unfold expire
    split
    · exact ⟨_, freeRange_front _⟩
    · exact ⟨0, rfl⟩
  rw [trim, boundWindow]
  split
  · obtain ⟨n, hn⟩ := hexpire (dec.withRx (dec.rx.drop 1))
    refine ⟨1 + n, ?_, fun _ => by omega⟩
    rw [freeRange_front, ok_bind, hn, withRx_rx, withRx_withRx, List.drop_drop]
  · rename_i hroom
    obtain ⟨n, hn⟩ := hexpire dec
    exact ⟨n, by rw [ok_bind, hn], fun h => absurd h hroom⟩

/-- A window in order with room for no more than the limit. -/
structure Kept (base : UInt32) (dec : FecDecoder) : Prop where
  valid : dec.Valid
  limit : dec.rxlimit = 3 * dec.shardSize
  rising : Rising base dec.rx
  length : dec.rx.length ≤ dec.rxlimit

theorem rising_inserted {base : UInt32} {s : FecElement} (hr : Rising base dec.rx)
    (hs : behind base s.seqid < 2 ^ 31) {i : Nat}
    (hi : slot dec.rx s.seqid dec.rx.length = .ok (some i)) :
    i ≤ dec.rx.length ∧ Rising base (dec.inserted i s) := by
  obtain ⟨hle, hlo, hhi⟩ := slot_divides hr hs (Nat.le_refl _) hi
  rw [List.take_length] at hhi
  refine ⟨hle, Rising.insert ?_ hs hlo hhi⟩
  rw [List.take_append_drop]
  exact hr

theorem Kept.decode {base : UInt32} (h : Kept base dec) {s : FecElement}
    (hgrid : s.seqid.toNat < lastCell dec.shardSize) (hs : behind base s.seqid < 2 ^ 31) :
    ∃ out rx, dec.decode s.seqid s.flag s.data s.at' = .ok (out, dec.withRx rx)
      ∧ Kept base (dec.withRx rx) ∧ dec.FreesCell s := by
  have hput {i : Nat} (hi : slot dec.rx s.seqid dec.rx.length = .ok (some i)) :
      ∃ out rx, (dec.withRx (dec.inserted i s)).recover s.seqid i = .ok (out, dec.withRx rx)
        ∧ Frees dec.shardSize s.seqid (dec.inserted i s) rx := by
    obtain ⟨hle, hr⟩ := rising_inserted h.rising hs hi
    have hlen : i < (dec.withRx (dec.inserted i s)).rx.length := by
      rw [withRx_rx, inserted, List.length_append, List.length_take, List.length_cons]
      omega
    exact recover_frees (h.valid.withRx (dec.inserted i s)) hgrid hr hlen
  have hfrees : dec.FreesCell s := by
    intro i hi
    obtain ⟨out, rx, hrec, hfrees⟩ := hput hi
    exact ⟨out, _, hrec, hfrees⟩
  rcases slot_ok dec.rx s.seqid (Nat.le_refl _) with ⟨i, hi, hle⟩ | ⟨hnone, -⟩
  · obtain ⟨-, hr⟩ := rising_inserted h.rising hs hi
    obtain ⟨out, rx, hrec, hsub⟩ := hput hi
    obtain ⟨n, htrim, hn⟩ := trim_front s.at' (dec.withRx rx)
    have hdecode : dec.decode s.seqid s.flag s.data s.at'
        = (dec.withRx (dec.inserted i s)).recover s.seqid i >>= fun x =>
          x.2.trim s.at' >>= fun dec' => .ok (x.1, dec') := decode_of_slot hi hle s.flag s.data s.at'
    rw [hrec, ok_bind, htrim, ok_bind] at hdecode
    refine ⟨out, rx.drop n, hdecode, ⟨h.valid.withRx _, h.limit, ?_, ?_⟩, hfrees⟩
    · exact hr.sublist ((List.drop_sublist n rx).trans hsub.sublist)
    · have hlen := hsub.sublist.length_le
      have hroom := h.length
      rw [inserted, List.length_append, List.length_take, List.length_cons, List.length_drop] at hlen
      simp only [withRx_rx, withRx_rxlimit, List.length_drop] at hn ⊢
      omega
  · exact ⟨[], dec.rx, decode_of_duplicate hnone _ _ _, h, hfrees⟩

/-! ## A run -/

theorem Kept.run {base : UInt32} (h : Kept base dec) {shards : List FecElement}
    (hgrid : ∀ s ∈ shards, s.seqid.toNat < lastCell dec.shardSize)
    (hhalf : ∀ s ∈ shards, behind base s.seqid < 2 ^ 31) : dec.WindowKept shards := by
  induction shards generalizing dec with
  | nil => trivial
  | cons s shards ih =>
    obtain ⟨out, rx, hdecode, hkept, hfrees⟩ := h.decode (hgrid s (by simp)) (hhalf s (by simp))
    refine ⟨out, _, hdecode, hkept.rising.ordered, hkept.rising.nodup, ?_, hfrees, ?_⟩
    · exact hkept.length.trans_eq hkept.limit
    · exact ih hkept (fun t ht => hgrid t (List.mem_cons_of_mem _ ht))
        fun t ht => hhalf t (List.mem_cons_of_mem _ ht)

end FecDecoder

theorem FecDecoder.rxlimit_new {rs : NewCodec} {d p : UInt32} {dec : FecDecoder}
    (h : FecDecoder.new rs d p = some dec) : dec.rxlimit = 3 * dec.shardSize := by
  unfold FecDecoder.new at h
  split at h
  · cases h
  split at h
  · cases h
  · cases h
    rfl

/-- In a run whose numbers are of the grid and of one half of the circle, every call leaves
the window in order and within its limit, and a completed group takes out none but its own
shards. -/
theorem window_kept {rs : NewCodec} (hrs : rs.Bounded) {d p : UInt32} {dec : FecDecoder}
    (hnew : FecDecoder.new rs d p = some dec) (base : UInt32) {shards : List FecElement}
    (hgrid : ∀ s ∈ shards, s.seqid.toNat < lastCell (d.toNat + p.toNat))
    (hhalf : ∀ s ∈ shards, (s.seqid - base).toNat < 2 ^ 31) : dec.WindowKept shards := by
  obtain ⟨hv, hnil, hsize, -⟩ := FecDecoder.valid_new hrs hnew
  rw [← hsize] at hgrid
  refine FecDecoder.Kept.run ⟨hv, FecDecoder.rxlimit_new hnew, ?_, ?_⟩ hgrid hhalf
  · rw [hnil]
    exact ⟨by simp, .nil⟩
  · rw [hnil]
    exact Nat.zero_le _

/-- The circle closes within the run, and the last shard completes the first group. -/
theorem window_kept_wrap : copyDecoder.WindowKept
    [⟨0xFFFFFFFD, TYPE_PARITY, [3, 0, 7], 0⟩, ⟨1, TYPE_PARITY, [3, 0, 8], 1⟩,
      ⟨0xFFFFFFFC, TYPE_DATA, [3, 0, 7], 2⟩] :=
  window_kept newCopyCodec_bounded (d := 1) (p := 1) rfl 0xFFFFFF00 (by decide) (by decide)

end Kcp
end RtProxy
