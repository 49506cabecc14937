/-
Two lanes that are drained together.

Items are counted in the order they are pushed, whatever lane they go to, and a drain takes
all that wait, one lane before the other.  The lanes change the order of items, but not of
those of one kind, and after each drain as many items have left as were pushed.  So a count
of the items that left says which were among them.
-/
import Mathlib.Data.List.Basic

namespace Lanes

variable {α κ : Type} (kind : α → κ) (first : κ → Bool)

/-- What waits, in the order in which it leaves. -/
def drain (waiting : List α) : List α :=
  waiting.filter (fun x => first (kind x)) ++ waiting.filter (fun x => !first (kind x))

theorem length_drain (waiting : List α) : (drain kind first waiting).length = waiting.length := by
  rw [drain, List.length_append]
  exact (List.length_eq_length_filter_add _).symm

/-- After a drain as many have left as were pushed. -/
theorem length_leave {pushed left : List α} (hle : left.length ≤ pushed.length) :
    (left ++ drain kind first (pushed.drop left.length)).length = pushed.length := by
  rw [List.length_append, length_drain, List.length_drop]
  omega

variable [DecidableEq κ]

/-- The items of a kind. -/
def only (k : κ) (l : List α) : List α := l.filter (kind · = k)

/-- The first `n` that left are, kind by kind, the first `n` that were pushed. -/
def InStep (pushed left : List α) (n : Nat) : Prop :=
  ∀ k, only kind k (left.take n) = only kind k (pushed.take n)

theorem only_append (k : κ) (l l' : List α) :
    only kind k (l ++ l') = only kind k l ++ only kind k l' := List.filter_append ..

/-- The lanes keep the order of the items of one kind. -/
theorem only_drain (k : κ) (waiting : List α) :
    only kind k (drain kind first waiting) = only kind k waiting := by
  unfold only drain
  rw [List.filter_append, List.filter_filter, List.filter_filter]
  cases hk : first k with
  | true =>
    have hyes (x : α) : (decide (kind x = k) && first (kind x)) = decide (kind x = k) := by
      by_cases hx : kind x = k <;> simp [hx, hk]
    have hno (x : α) : (decide (kind x = k) && !first (kind x)) = false := by
      by_cases hx : kind x = k <;> simp [hx, hk]
    simp [hyes, hno]
  | false =>
    have hyes (x : α) : (decide (kind x = k) && !first (kind x)) = decide (kind x = k) := by
      by_cases hx : kind x = k <;> simp [hx, hk]
    have hno (x : α) : (decide (kind x = k) && first (kind x)) = false := by
      by_cases hx : kind x = k <;> simp [hx, hk]
    simp [hyes, hno]

namespace InStep

variable {kind first} {pushed left : List α} {n : Nat}

theorem push (h : InStep kind pushed left n) (hn : n ≤ pushed.length) (l : List α) :
    InStep kind (pushed ++ l) left n := by
  intro k
  rw [List.take_append_of_le_length hn]
  exact h k

theorem leave (h : InStep kind pushed left n) (hn : n ≤ left.length) (l : List α) :
    InStep kind pushed (left ++ l) n := by
  intro k
  rw [List.take_append_of_le_length hn]
  exact h k

/-- After a drain all that were pushed have left. -/
theorem drained (h : InStep kind pushed left left.length) (hle : left.length ≤ pushed.length) :
    InStep kind pushed (left ++ drain kind first (pushed.drop left.length)) pushed.length := by
  intro k
  have hk := h k
  have hlen := length_leave kind first hle
  rw [List.take_length] at hk
  calc only kind k ((left ++ drain kind first (pushed.drop left.length)).take pushed.length)
      = only kind k (pushed.take left.length) ++ only kind k (pushed.drop left.length) := by
        rw [← hlen, List.take_length, only_append, only_drain, hk]
    _ = only kind k (pushed.take pushed.length) := by
        rw [← only_append, List.take_append_drop, List.take_length]

/-- What left is, kind by kind, what was pushed first. -/
theorem isPrefix (h : InStep kind pushed left left.length) (k : κ) :
    only kind k left <+: only kind k pushed := by
  have hk := h k
  rw [List.take_length] at hk
  rw [hk]
  exact (List.take_prefix _ _).filter _

/-- A count of the items that left has reached the last one of a kind. -/
theorem served (h : InStep kind pushed left n) {k : κ} {m : Nat}
    (hm : only kind k (pushed.drop m) = []) (hn : m ≤ n) :
    only kind k (left.take n) = only kind k pushed := by
  have hrest : only kind k (pushed.drop n) = [] := by
    have hdrop : pushed.drop n <:+ pushed.drop m := List.drop_suffix_drop_left pushed hn
    have hsub := hdrop.sublist.filter (fun x => decide (kind x = k))
    rw [show (pushed.drop m).filter _ = [] from hm] at hsub
    exact List.sublist_nil.mp hsub
  calc only kind k (left.take n)
      = only kind k (pushed.take n) ++ only kind k (pushed.drop n) := by
        rw [hrest, List.append_nil, h k]
    _ = only kind k pushed := by rw [← only_append, List.take_append_drop]

end InStep

end Lanes
