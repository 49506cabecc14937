/-
The end of a head.

A head ends with the first empty line, which is where two line ends stand behind one
another.  Whether bytes that arrive have brought the whole head, and where it ends, is seen
from the bytes that are there.
-/
import RtProxy.Lib.HttpHead
import RtProxy.Lib.Offsets

namespace Http1

open Bytes

/-- Where the pattern stands first. -/
def position (pat : Bytes) : Bytes → Option Nat
  | [] => if pat.isPrefixOf [] then some 0 else none
  | b :: bs => if pat.isPrefixOf (b :: bs) then some 0 else (position pat bs).map (· + 1)

def HEAD_END : Bytes := lineEnd ++ lineEnd

/-- The bytes end with the end of a head, and none is before it. -/
def IsHead (head : Bytes) : Prop :=
  ∃ n, head.length = n + 4 ∧ At head n HEAD_END ∧ ∀ m < n, ¬ At head m HEAD_END

section

variable {pat bs whole head payload : Bytes} {n m : Nat}

theorem position_eq_some : position pat bs = some n ↔ At bs n pat ∧ ∀ m < n, ¬ At bs m pat := by
  have hfirst (bs : Bytes) (n : Nat) (h : pat.isPrefixOf bs) :
      some 0 = some n ↔ At bs n pat ∧ ∀ m < n, ¬ At bs m pat := by
    have hat : At bs 0 pat := List.isPrefixOf_iff_prefix.mp h
    constructor
    · intro hn
      cases hn
      exact ⟨hat, fun m hm => absurd hm (Nat.not_lt_zero m)⟩
    · intro ⟨_, hn⟩
      by_cases hzero : n = 0
      · rw [hzero]
      · exact absurd hat (hn 0 (Nat.pos_of_ne_zero hzero))
  induction bs generalizing n with
  | nil =>
    rw [position]
    split_ifs with h
    · exact hfirst [] n h
    · have hnot : ¬ At [] n pat := by
        rw [At, List.drop_nil, ← List.isPrefixOf_iff_prefix]
        exact h
      simp [hnot]
  | cons b bs ih =>
    rw [position]
    split_ifs with h
    · exact hfirst (b :: bs) n h
    · have hzero : ¬ At (b :: bs) 0 pat := fun hat => h (List.isPrefixOf_iff_prefix.mpr hat)
      cases n with
      | zero => simp [hzero]
      | succ n =>
        simp only [Option.map_eq_some_iff, Nat.add_right_cancel_iff, exists_eq_right, ih]
        refine and_congr_right fun _ => ⟨fun hbefore m hm => ?_, fun hbefore m hm => ?_⟩
        · cases m with
          | zero => exact hzero
          | succ m => exact hbefore m (Nat.succ_lt_succ_iff.mp hm)
        · exact hbefore (m + 1) (Nat.succ_lt_succ hm)

/-- What stands in the first bytes of a buffer stands in the buffer. -/
theorem at_of_front (h : bs <+: whole) (hpat : pat ≠ []) (hat : At bs n pat) : At whole n pat := by
  have hlen := hat.length_le
  have hpos := List.length_pos_iff.mpr hpat
  have hwhole : At whole 0 bs := h
  have := hwhole.inner hat (by omega)
  rwa [Nat.zero_add] at this

theorem at_front (h : bs <+: whole) (hat : At whole n pat) (hlen : n + pat.length ≤ bs.length) :
    At bs n pat := by
  have hwhole : At whole 0 bs := h
  rw [← Nat.zero_add n] at hat
  exact hwhole.within hat hlen

/-- As long as the head is not whole, its end is not found. -/
theorem position_short (h : IsHead head) (hbs : bs <+: head ++ payload)
    (hlen : bs.length < head.length) : position HEAD_END bs = none := by
  rw [Option.eq_none_iff_forall_ne_some]
  intro m hm
  have hat := (position_eq_some.mp hm).1
  obtain ⟨n, hn, _, hbefore⟩ := h
  have hend : m + 4 ≤ bs.length := by
    have := hat.length_le
    have hfour : HEAD_END.length = 4 := rfl
    omega
  have hwhole : At (head ++ payload) m HEAD_END := at_of_front hbs (by decide) hat
  exact hbefore m (by omega) (at_front (List.prefix_append _ _) hwhole (by
    have hfour : HEAD_END.length = 4 := rfl
    omega))

/-- With the whole head the end of it is found. -/
theorem position_long (h : IsHead head) (hbs : bs <+: head ++ payload)
    (hlen : head.length ≤ bs.length) : position HEAD_END bs = some (head.length - 4) := by
  obtain ⟨n, hn, hat, hbefore⟩ := h
  have hhead : head <+: bs :=
    List.prefix_of_prefix_length_le (List.prefix_append _ _) hbs hlen
  have hfour : HEAD_END.length = 4 := rfl
  rw [show head.length - 4 = n by omega]
  refine position_eq_some.mpr ⟨at_of_front hhead (by decide) hat, fun m hm hm' => ?_⟩
  exact hbefore m hm (at_front hhead hm' (by omega))

/-- Where the end is found, the bytes up to it are a head. -/
theorem isHead_take (h : position HEAD_END bs = some n) :
    IsHead (bs.take (n + 4)) ∧ n + 4 ≤ bs.length := by
  obtain ⟨hat, hbefore⟩ := position_eq_some.mp h
  have hend := hat.length_le
  have hfour : HEAD_END.length = 4 := rfl
  have hle : n + 4 ≤ bs.length := by omega
  have hlen : (bs.take (n + 4)).length = n + 4 := by rw [List.length_take, Nat.min_eq_left hle]
  refine ⟨⟨n, hlen, at_front (List.take_prefix _ _) hat (by omega), fun m hm hm' => ?_⟩, hle⟩
  exact hbefore m hm (at_of_front (List.take_prefix _ _) (by decide) hm')

/-- Bytes are lines, and a last one without a line feed. -/
theorem exists_lines (bs : Bytes) :
    ∃ (lines : List Bytes) (last : Bytes), (∀ line ∈ lines, LF ∉ line) ∧ LF ∉ last ∧
      bs = lines.flatMap (· ++ [LF]) ++ last := by
  induction bs with
  | nil => exact ⟨[], [], by simp, by simp, rfl⟩
  | cons b bs ih =>
    obtain ⟨lines, last, hlines, hlast, rfl⟩ := ih
    by_cases hb : b = LF
    · exact ⟨[] :: lines, last, by simpa using hlines, hlast, by simp [hb]⟩
    · cases lines with
      | nil => exact ⟨[], b :: last, by simp, by simp [Ne.symm hb, hlast], rfl⟩
      | cons line lines =>
        obtain ⟨hline, hlines⟩ := List.forall_mem_cons.mp hlines
        refine ⟨(b :: line) :: lines, last, List.forall_mem_cons.mpr ⟨?_, hlines⟩, hlast, rfl⟩
        simp [Ne.symm hb, hline]

/-- A head has a first line, and its last one is empty. -/
theorem IsHead.exists_lines (h : IsHead head) :
    ∃ (first : Bytes) (lines : List Bytes), LF ∉ first ∧ (∀ line ∈ lines, LF ∉ line) ∧
      head = first ++ LF :: (lines.flatMap (· ++ [LF]) ++ lineEnd) := by
  obtain ⟨n, hn, ⟨rest, hrest⟩, _⟩ := h
  have hnil : rest = [] := by
    have hlen := congrArg List.length hrest
    have hfour : HEAD_END.length = 4 := rfl
    rw [List.length_append, List.length_drop] at hlen
    exact List.length_eq_zero_iff.mp (by omega)
  have hhead : head = head.take n ++ [CR] ++ [LF] ++ lineEnd := by
    conv_lhs => rw [← List.take_append_drop n head, ← hrest, hnil]
    simp [HEAD_END, lineEnd]
  obtain ⟨lines, last, hlines, hlast, hsplit⟩ := Http1.exists_lines (head.take n ++ [CR])
  rw [hsplit] at hhead
  have hmore : ∀ line ∈ lines ++ [last], LF ∉ line :=
    List.forall_mem_append.mpr ⟨hlines, by simpa using hlast⟩
  have hflat : head = (lines ++ [last]).flatMap (· ++ [LF]) ++ lineEnd := by
    rw [hhead, List.flatMap_append]
    simp
  cases hall : lines ++ [last] with
  | nil => simp at hall
  | cons first more =>
    rw [hall] at hmore hflat
    obtain ⟨hfirst, hmore⟩ := List.forall_mem_cons.mp hmore
    exact ⟨first, more, hfirst, hmore, by rw [hflat]; simp⟩

end

end Http1
