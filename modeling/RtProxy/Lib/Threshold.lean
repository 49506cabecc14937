/-
A window that releases a group once it holds enough of it.

Elements arrive one after the other and have a key.  An element that the window holds is
ignored; any other is added, and when it makes `need` elements of its key the window
fires and gives all of that key up.  How many of a key the window holds is then the
number of those that came in, modulo `need`, whatever came in between.
-/
import Mathlib.Data.Finset.Card
import Mathlib.Data.List.Induction

namespace Threshold

variable {α κ : Type} [DecidableEq κ] (key : α → κ)

/-- The elements of a window that have the key `k`. -/
def members (W : Finset α) (k : κ) : Finset α := W.filter fun x => key x = k

/-- The elements with the key `k` among those that came in. -/
def fed (xs : List α) (k : κ) : List α := xs.filter fun x => key x = k

section

variable {key} {W : Finset α} {x : α} {k : κ} {xs : List α}

theorem mem_members : x ∈ members key W k ↔ x ∈ W ∧ key x = k := Finset.mem_filter

theorem mem_fed : x ∈ fed key xs k ↔ x ∈ xs ∧ key x = k := by
  simp [fed]

theorem fed_append_same (key : α → κ) (xs : List α) (x : α) :
    fed key (xs ++ [x]) (key x) = fed key xs (key x) ++ [x] := by
  simp [fed]

theorem fed_append_of_ne (xs : List α) (hk : key x ≠ k) : fed key (xs ++ [x]) k = fed key xs k := by
  simp [fed, hk]

end

variable [DecidableEq α] (need : Nat)

/-- Whether `x` completes the elements of its key. -/
def Fires (W : Finset α) (x : α) : Prop := x ∉ W ∧ need ≤ (members key (insert x W) (key x)).card

instance (W : Finset α) (x : α) : Decidable (Fires key need W x) :=
  inferInstanceAs (Decidable (_ ∧ _))

def step (W : Finset α) (x : α) : Finset α :=
  if Fires key need W x then (insert x W).filter fun y => key y ≠ key x else insert x W

/-- The window after the elements `xs`. -/
def window (xs : List α) : Finset α := xs.foldl (step key need) ∅

variable {key need} {W : Finset α} {x : α} {k : κ} {xs : List α}

/-! ## One element -/

theorem members_insert (key : α → κ) : members key (insert x W) (key x) = insert x (members key W (key x)) := by
  rw [members, Finset.filter_insert, if_pos rfl, members]

theorem card_members_insert (key : α → κ) (hx : x ∉ W) :
    (members key (insert x W) (key x)).card = (members key W (key x)).card + 1 := by
  rw [members_insert]
  exact Finset.card_insert_of_notMem fun h => hx (mem_members.mp h).1

theorem members_step_of_fires (h : Fires key need W x) : members key (step key need W x) (key x) = ∅ := by
  rw [step, if_pos h, members, Finset.filter_filter, Finset.filter_eq_empty_iff]
  exact fun _ _ hne => hne.1 hne.2

theorem members_step_of_not_fires (h : ¬ Fires key need W x) :
    members key (step key need W x) (key x) = insert x (members key W (key x)) := by
  rw [step, if_neg h, members_insert]

/-- Elements of other keys stay. -/
theorem members_step_of_ne (hk : key x ≠ k) : members key (step key need W x) k = members key W k := by
  ext y
  rw [mem_members, mem_members, step]
  split
  · rw [Finset.mem_filter, Finset.mem_insert]
    constructor
    · rintro ⟨⟨rfl | hy, hne⟩, rfl⟩
      · exact absurd rfl hk
      · exact ⟨hy, rfl⟩
    · rintro ⟨hy, rfl⟩
      exact ⟨⟨.inr hy, hk.symm⟩, rfl⟩
  · rw [Finset.mem_insert]
    constructor
    · rintro ⟨rfl | hy, rfl⟩
      · exact absurd rfl hk
      · exact ⟨hy, rfl⟩
    · rintro ⟨hy, rfl⟩
      exact ⟨.inr hy, rfl⟩

theorem step_subset : step key need W x ⊆ insert x W := by
  rw [step]
  split
  · exact Finset.filter_subset _ _
  · exact Finset.Subset.refl _

/-! ## Every element -/

theorem window_append (xs : List α) (x : α) :
    window key need (xs ++ [x]) = step key need (window key need xs) x := by
  rw [window, List.foldl_append]
  rfl

theorem mem_of_mem_window (h : x ∈ window key need xs) : x ∈ xs := by
  induction xs using List.reverseRecOn with
  | nil => exact absurd h (Finset.notMem_empty x)
  | append_singleton xs y ih =>
    rw [window_append] at h
    rcases Finset.mem_insert.mp (step_subset h) with rfl | h
    · exact List.mem_append_right _ List.mem_cons_self
    · exact List.mem_append_left _ (ih h)

/-- An element that comes in for the first time is not in the window. -/
theorem notMem_window_of_nodup (need : Nat) (h : (fed key (xs ++ [x]) (key x)).Nodup) : x ∉ window key need xs := by
  intro hx
  rw [fed_append_same] at h
  exact List.disjoint_of_nodup_append h (mem_fed.mpr ⟨mem_of_mem_window hx, rfl⟩) List.mem_cons_self

/-- No window holds as many of a key as it needs. -/
theorem card_members_lt (key : α → κ) (hneed : 0 < need) (xs : List α) (k : κ) :
    (members key (window key need xs) k).card < need := by
  induction xs using List.reverseRecOn with
  | nil => exact hneed
  | append_singleton xs x ih =>
    rw [window_append]
    by_cases hk : key x = k
    · subst hk
      by_cases h : Fires key need (window key need xs) x
      · rw [members_step_of_fires h]
        exact hneed
      · rw [members_step_of_not_fires h]
        by_cases hx : x ∈ window key need xs
        · rw [Finset.insert_eq_of_mem (mem_members.mpr ⟨hx, rfl⟩)]
          exact ih
        · rw [← members_insert]
          exact Nat.lt_of_not_le fun hle => h ⟨hx, hle⟩
    · rw [members_step_of_ne hk]
      exact ih

/-- Elements of a key that all differ are counted modulo `need`. -/
theorem card_members (hneed : 0 < need) (h : (fed key xs k).Nodup) :
    (members key (window key need xs) k).card = (fed key xs k).length % need := by
  induction xs using List.reverseRecOn with
  | nil => exact (Nat.zero_mod need).symm
  | append_singleton xs x ih =>
    rw [window_append]
    by_cases hk : key x = k
    · subst hk
      have hx := notMem_window_of_nodup need h
      rw [fed_append_same] at h
      have hold := ih h.of_append_left
      have hcard := card_members_insert key hx
      rw [fed_append_same, List.length_append, List.length_singleton, Nat.add_mod, ← hold]
      have hlt := card_members_lt key hneed xs (key x)
      by_cases hfires : Fires key need (window key need xs) x
      · have hfull : (members key (window key need xs) (key x)).card + 1 = need := by
          have := hcard ▸ hfires.2
          omega
        rw [members_step_of_fires hfires, Finset.card_empty]
        rcases Nat.lt_or_ge 1 need with hone | hone
        · rw [Nat.mod_eq_of_lt hone, hfull, Nat.mod_self]
        · rw [show need = 1 by omega, Nat.mod_one]
      · have hroom : (members key (window key need xs) (key x)).card + 1 < need := by
          rw [← hcard]
          exact Nat.lt_of_not_le fun hle => hfires ⟨hx, hle⟩
        rw [members_step_of_not_fires hfires, ← members_insert, hcard,
          Nat.mod_eq_of_lt (show 1 < need by omega), Nat.mod_eq_of_lt hroom]
    · rw [members_step_of_ne hk, fed_append_of_ne xs hk]
      rw [fed_append_of_ne xs hk] at h
      exact ih h

/-- When the first element of a key that all differ makes the window fire. -/
theorem fires_iff (hneed : 0 < need) (h : (fed key (xs ++ [x]) (key x)).Nodup) :
    Fires key need (window key need xs) x ↔ (fed key xs (key x)).length % need + 1 = need := by
  have hx := notMem_window_of_nodup need h
  rw [fed_append_same] at h
  rw [Fires, card_members_insert key hx, card_members hneed h.of_append_left]
  have := Nat.mod_lt (fed key xs (key x)).length hneed
  constructor
  · rintro ⟨-, hle⟩
    omega
  · intro heq
    exact ⟨hx, Nat.le_of_eq heq.symm⟩

/-- Until enough of a key came in, the window holds all of them. -/
theorem members_window (h : (fed key xs k).length < need) :
    members key (window key need xs) k = (fed key xs k).toFinset := by
  induction xs using List.reverseRecOn with
  | nil => rfl
  | append_singleton xs x ih =>
    rw [window_append]
    by_cases hk : key x = k
    · subst hk
      rw [fed_append_same, List.length_append, List.length_singleton] at h
      have hold := ih (by omega)
      have hfires : ¬ Fires key need (window key need xs) x := by
        rintro ⟨hx, hle⟩
        rw [card_members_insert key hx, hold] at hle
        have := List.toFinset_card_le (fed key xs (key x))
        omega
      rw [members_step_of_not_fires hfires, hold, fed_append_same, List.toFinset_append,
        Finset.union_comm]
      rfl
    · rw [fed_append_of_ne xs hk] at h
      rw [members_step_of_ne hk, fed_append_of_ne xs hk, ih h]

end Threshold
