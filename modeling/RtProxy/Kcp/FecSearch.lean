import RtProxy.Kcp.FecGroups

/-!
The window by position.

The decoder compares numbers modulo `2 ^ 32` by their signed difference.  As long as the
positions of two shards are less than half of the numbers apart, that comparison is the
one of the positions, also where the numbers wrap.
-/

namespace RtProxy
namespace Kcp

open Checked

/-- Positions of which serial numbers tell which one comes first, with room for a group. -/
def Near (shardSize a b : Nat) : Prop :=
  a + shardSize + 2 ^ 31 ≤ b + lastCell shardSize ∧ b + shardSize + 2 ^ 31 ≤ a + lastCell shardSize

theorem toNat_sub_swap (x y : UInt32) :
    (x - y).toNat = (2 ^ 32 - (y - x).toNat) % 2 ^ 32 := by
  have hx : x.toNat < 2 ^ 32 := x.toNat_lt
  have hy : y.toNat < 2 ^ 32 := y.toNat_lt
  rw [UInt32.toNat_sub, UInt32.toNat_sub]
  show (2 ^ 32 - _ + _) % 2 ^ 32 = (2 ^ 32 - (2 ^ 32 - _ + _) % 2 ^ 32) % 2 ^ 32
  omega

theorem lastCell_eq (shardSize : Nat) : lastCell shardSize = shardSize * ((2 ^ 32 - 1) / shardSize) :=
  Nat.mul_comm _ _

section

variable {shardSize : Nat} (hpos : 0 < shardSize) (hle : shardSize ≤ 256)

include hpos hle

/-! ## Serial numbers -/

/-- The distance of two numbers is the one of their positions, longer by what the grid
leaves out when it wraps in between. -/
theorem toNat_seqAt_sub {a b : Nat} (h : a ≤ b) (hfar : b + 2 ^ 31 < a + lastCell shardSize) :
    b - a ≤ (seqAt shardSize b - seqAt shardSize a).toNat
      ∧ (seqAt shardSize b - seqAt shardSize a).toNat < 2 ^ 31
      ∧ (b = a → (seqAt shardSize b - seqAt shardSize a).toNat = 0) := by
  have hcell := lastCell_lt shardSize
  have ha := Nat.mod_lt a (lastCell_pos hpos hle)
  have hb : b % lastCell shardSize = (a % lastCell shardSize + (b - a)) % lastCell shardSize := by
    rw [Nat.mod_add_mod, Nat.add_sub_cancel' h]
  rw [UInt32.toNat_sub, toNat_seqAt hpos hle, toNat_seqAt hpos hle]
  show _ ≤ (2 ^ 32 - _ + _) % 2 ^ 32 ∧ (2 ^ 32 - _ + _) % 2 ^ 32 < _ ∧ (_ → (2 ^ 32 - _ + _) % 2 ^ 32 = 0)
  rcases Nat.lt_or_ge (a % lastCell shardSize + (b - a)) (lastCell shardSize) with hlt | hge
  · rw [Nat.mod_eq_of_lt hlt] at hb
    omega
  · have hwrap : a % lastCell shardSize + (b - a) - lastCell shardSize < lastCell shardSize := by
      omega
    rw [Nat.mod_eq_sub_mod hge, Nat.mod_eq_of_lt hwrap] at hb
    omega

theorem serial_pos {a b : Nat} (h : a < b) (hfar : b + 2 ^ 31 < a + lastCell shardSize) :
    0 < asI32 (seqAt shardSize b - seqAt shardSize a) := by
  obtain ⟨hlow, hhigh, -⟩ := toNat_seqAt_sub hpos hle (Nat.le_of_lt h) hfar
  exact asI32_pos.mpr ⟨by omega, hhigh⟩

theorem serial_nonneg {a b : Nat} (h : a ≤ b) (hfar : b + 2 ^ 31 < a + lastCell shardSize) :
    0 ≤ asI32 (seqAt shardSize b - seqAt shardSize a) :=
  asI32_nonneg.mpr (toNat_seqAt_sub hpos hle h hfar).2.1

theorem not_serial_pos {a b : Nat} (h : a ≤ b) (hfar : b + 2 ^ 31 < a + lastCell shardSize) :
    ¬ 0 < asI32 (seqAt shardSize a - seqAt shardSize b) := by
  obtain ⟨-, hhigh, -⟩ := toNat_seqAt_sub hpos hle h hfar
  rw [asI32_pos, toNat_sub_swap]
  omega

theorem not_serial_nonneg {a b : Nat} (h : a < b) (hfar : b + 2 ^ 31 < a + lastCell shardSize) :
    ¬ 0 ≤ asI32 (seqAt shardSize a - seqAt shardSize b) := by
  obtain ⟨hlow, hhigh, -⟩ := toNat_seqAt_sub hpos hle (Nat.le_of_lt h) hfar
  rw [asI32_nonneg, toNat_sub_swap]
  omega

theorem seqAt_ne {a b : Nat} (h : a < b) (hfar : b + 2 ^ 31 < a + lastCell shardSize) :
    seqAt shardSize a ≠ seqAt shardSize b := by
  intro heq
  have hahead := serial_pos hpos hle h hfar
  rw [heq] at hahead
  exact not_serial_pos hpos hle (Nat.le_refl b) (by omega) hahead

/-! ## Groups -/

/-- A number stands in its group as its position does. -/
theorem seqAt_mod (pos : Nat) : (seqAt shardSize pos).toNat % shardSize = pos % shardSize := by
  rw [toNat_seqAt hpos hle, lastCell_eq, Nat.mod_mul_right_mod]

theorem seqAt_div (pos : Nat) {i : Nat} (hi : i < shardSize) :
    (seqAt shardSize pos).toNat / shardSize * shardSize + i
      = (seqAt shardSize (pos / shardSize * shardSize + i)).toNat := by
  have hin := Sending.block_pos (pos / shardSize) hi
  have hdiv := Nat.div_add_mod (seqAt shardSize (pos / shardSize * shardSize + i)).toNat shardSize
  rw [seqAt_mod hpos hle, hin.2, toNat_seqAt hpos hle, lastCell_eq, Nat.mod_mul_right_div_self,
    hin.1] at hdiv
  rw [toNat_seqAt hpos hle, toNat_seqAt hpos hle, lastCell_eq, Nat.mod_mul_right_div_self,
    Nat.mul_comm _ shardSize]
  exact hdiv

end

namespace FecDecoder

variable {dec : FecDecoder}

theorem groupBegin_seqAt (hv : dec.Valid) (pos : Nat) :
    dec.groupBegin (seqAt dec.shardSize pos)
      = seqAt dec.shardSize (pos / dec.shardSize * dec.shardSize) := by
  apply UInt32.toNat_inj.mp
  rw [groupBegin, toNat_shardBegin, hv.toNat_group]
  exact seqAt_div hv.pos hv.le pos hv.pos

theorem groupEnd_seqAt (hv : dec.Valid) (pos : Nat) :
    dec.groupEnd (seqAt dec.shardSize pos)
      = seqAt dec.shardSize (pos / dec.shardSize * dec.shardSize + (dec.shardSize - 1)) := by
  have hpos := hv.pos
  have hlt : (seqAt dec.shardSize pos).toNat / dec.shardSize * dec.shardSize + dec.shardSize < 2 ^ 32 :=
    (cell_lt_iff hpos).mpr (toNat_seqAt_lt hpos hv.le pos)
  have hsum : (dec.groupBegin (seqAt dec.shardSize pos) + UInt32.ofNat dec.shardSize).toNat
      = (seqAt dec.shardSize pos).toNat / dec.shardSize * dec.shardSize + dec.shardSize := by
    rw [UInt32.toNat_add, groupBegin, toNat_shardBegin, hv.toNat_group]
    exact Nat.mod_eq_of_lt hlt
  have hone : (1 : UInt32).toNat = 1 := rfl
  apply UInt32.toNat_inj.mp
  rw [groupEnd, UInt32.toNat_sub_of_le _ _ (by rw [UInt32.le_iff_toNat_le, hsum, hone]; omega), hsum,
    hone, ← seqAt_div hpos hv.le pos (Nat.sub_lt hpos Nat.one_pos)]
  omega

end FecDecoder

/-! ## The place of a shard -/

/-- A shard fed to a decoder: the position it was emitted at and the time it comes in. -/
structure Feed where
  pos : Nat
  now : Nat
deriving Repr, DecidableEq

/-- The element that stands for it in a window. -/
def Sending.element (s : Sending) (f : Feed) : FecElement where
  seqid := seqAt s.shardSize f.pos
  flag := s.flagAt f.pos
  data := s.payloadAt f.pos
  at' := f.now

@[simp] theorem Sending.seqid_element (s : Sending) (f : Feed) :
    (s.element f).seqid = seqAt s.shardSize f.pos := rfl

@[simp] theorem Sending.data_element (s : Sending) (f : Feed) :
    (s.element f).data = s.payloadAt f.pos := rfl

/-- Feeds in the order of their positions. -/
abbrev InOrder (feeds : List Feed) : Prop := feeds.Pairwise fun f f' => f.pos < f'.pos

/-- Ordered feeds are cut at any position. -/
theorem InOrder.split {feeds : List Feed} (h : InOrder feeds) (c : Nat) : ∃ lo hi, feeds = lo ++ hi
    ∧ (∀ f ∈ lo, f.pos < c) ∧ ∀ f ∈ hi, c ≤ f.pos := by
  induction feeds with
  | nil => exact ⟨[], [], rfl, by simp, by simp⟩
  | cons f feeds ih =>
    obtain ⟨hfirst, hrest⟩ := List.pairwise_cons.mp h
    rcases Nat.lt_or_ge f.pos c with hlt | hge
    · obtain ⟨lo, hi, rfl, hlo, hhi⟩ := ih hrest
      exact ⟨f :: lo, hi, rfl, List.forall_mem_cons.mpr ⟨hlt, hlo⟩, hhi⟩
    · refine ⟨[], f :: feeds, rfl, by simp, List.forall_mem_cons.mpr ⟨hge, fun f' hf' => ?_⟩⟩
      exact Nat.le_of_lt (Nat.lt_of_le_of_lt hge (hfirst f' hf'))

/-- There are no more feeds than positions. -/
theorem InOrder.length_le {feeds : List Feed} (h : InOrder feeds) {a b : Nat}
    (hin : ∀ f ∈ feeds, a ≤ f.pos ∧ f.pos < b) : feeds.length ≤ b - a := by
  induction feeds generalizing a with
  | nil => exact Nat.zero_le _
  | cons f feeds ih =>
    obtain ⟨hfirst, hrest⟩ := List.pairwise_cons.mp h
    have hlen := ih hrest (a := f.pos + 1) fun f' hf' =>
      ⟨hfirst f' hf', (hin f' (List.mem_cons_of_mem f hf')).2⟩
    have := hin f List.mem_cons_self
    rw [List.length_cons]
    omega

namespace FecDecoder

section

variable {s : Sending} (hpos : 0 < s.shardSize) (hle : s.shardSize ≤ 256) {pos : Nat}
  {lo hi : List Feed}

include hpos hle

/-- The search passes what comes after the shard. -/
theorem slot_above (hhi : ∀ f ∈ hi, pos < f.pos ∧ Near s.shardSize f.pos pos) {n : Nat}
    (hn : n ≤ hi.length) :
    slot ((lo ++ hi).map s.element) (seqAt s.shardSize pos) (lo.length + n)
      = slot ((lo ++ hi).map s.element) (seqAt s.shardSize pos) lo.length := by
  induction n with
  | zero => rfl
  | succ n ih =>
    have hlt : n < hi.length := hn
    obtain ⟨hafter, hnear⟩ := hhi hi[n] (List.getElem_mem hlt)
    have hfar : hi[n].pos + 2 ^ 31 < pos + lastCell s.shardSize := by
      have := hnear.1
      omega
    have hget : ((lo ++ hi).map s.element)[lo.length + n]? = some (s.element hi[n]) := by
      rw [List.getElem?_map, List.getElem?_append_right (Nat.le_add_right _ _),
        Nat.add_sub_cancel_left, List.getElem?_eq_getElem hlt]
      rfl
    rw [← Nat.add_assoc, slot, index_eq hget, ok_bind,
      Sending.seqid_element, if_neg (seqAt_ne hpos hle hafter hfar).symm,
      if_neg (not_serial_pos hpos hle (Nat.le_of_lt hafter) hfar)]
    exact ih (Nat.le_of_lt hlt)

/-- A new shard goes between those before it and those after it. -/
theorem slot_new (hlo : ∀ f ∈ lo, f.pos < pos ∧ Near s.shardSize f.pos pos)
    (hhi : ∀ f ∈ hi, pos < f.pos ∧ Near s.shardSize f.pos pos) :
    slot ((lo ++ hi).map s.element) (seqAt s.shardSize pos) (lo ++ hi).length = .ok (some lo.length) := by
  rw [List.length_append, slot_above hpos hle hhi (Nat.le_refl _)]
  cases lo using List.reverseRecOn with
  | nil => rfl
  | append_singleton lo f =>
    obtain ⟨hbefore, hnear⟩ := hlo f (List.mem_append_right _ List.mem_cons_self)
    have hfar : pos + 2 ^ 31 < f.pos + lastCell s.shardSize := by
      have := hnear.2
      omega
    have hget : ((lo ++ [f] ++ hi).map s.element)[lo.length]? = some (s.element f) := by simp
    rw [List.length_append, List.length_singleton, slot, index_eq hget, ok_bind,
      Sending.seqid_element, if_neg (seqAt_ne hpos hle hbefore hfar), if_pos (serial_pos hpos hle hbefore hfar)]

/-- A shard that is there already has no place. -/
theorem slot_held (f : Feed) (hhi : ∀ f' ∈ hi, f.pos < f'.pos ∧ Near s.shardSize f'.pos f.pos) :
    slot ((lo ++ f :: hi).map s.element) (seqAt s.shardSize f.pos) (lo ++ f :: hi).length
      = .ok none := by
  have hsplit : lo ++ f :: hi = (lo ++ [f]) ++ hi := by simp
  have hget : ((lo ++ [f] ++ hi).map s.element)[lo.length]? = some (s.element f) := by simp
  rw [hsplit, List.length_append, slot_above hpos hle hhi (Nat.le_refl _), List.length_append,
    List.length_singleton, slot, index_eq hget, ok_bind]
  exact if_pos rfl

end

end FecDecoder

end Kcp
end RtProxy
