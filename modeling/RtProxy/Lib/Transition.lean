/-
Labelled transition relations and the states they reach.

`step s a t` says that the action `a` can take `s` to `t`; the action says which
thread moves and what the environment chose for it.  `Reaches step ok s t` says
that `t` is reached from `s` by actions that all meet `ok` in the state they are
taken from, so an unrestricted run is one at `fun _ _ => True`.
-/
import Mathlib.Algebra.Order.BigOperators.Group.Finset
import Mathlib.Data.Fintype.Basic
import Mathlib.Data.List.Basic
import Mathlib.Logic.Relation

namespace Transition

variable {σ α : Type} {step : σ → α → σ → Prop} {ok ok' : σ → α → Prop} {s t u : σ}

/-- The states reached from `s` by steps that all meet `ok`. -/
inductive Reaches (step : σ → α → σ → Prop) (ok : σ → α → Prop) (s : σ) : σ → Prop
  | refl : Reaches step ok s s
  | tail {t u : σ} {a : α} (run : Reaches step ok s t) (hok : ok t a)
      (hstep : step t a u) : Reaches step ok s u

/-- No restriction on the steps of a run. -/
def anyStep : σ → α → Prop := fun _ _ => True

namespace Reaches

/-- What holds at the start and is kept by every admitted step holds in every
state reached.  The step may use the admission condition. -/
theorem invariant {I : σ → Prop} (hinit : I s)
    (hkeep : ∀ t a u, I t → ok t a → step t a u → I u)
    (h : Reaches step ok s t) : I t := by
  induction h with
  | refl => exact hinit
  | tail _ hok hstep ih => exact hkeep _ _ _ ih hok hstep

theorem mono (hsub : ∀ t a, ok t a → ok' t a) (h : Reaches step ok s t) :
    Reaches step ok' s t := by
  induction h with
  | refl => exact .refl
  | tail _ hok hstep ih => exact ih.tail (hsub _ _ hok) hstep

theorem trans (h : Reaches step ok s t) (h' : Reaches step ok t u) : Reaches step ok s u := by
  induction h' with
  | refl => exact h
  | tail _ hok hstep ih => exact ih.tail hok hstep

/-- A run of one system seen as a run of another. -/
theorem map {τ : Type} {step' : τ → α → τ → Prop} {good : τ → α → Prop} (f : σ → τ)
    (hmap : ∀ s a t, ok s a → step s a t → good (f s) a ∧ step' (f s) a (f t))
    (h : Reaches step ok s t) : Reaches step' good (f s) (f t) := by
  induction h with
  | refl => exact .refl
  | tail _ hok hstep ih =>
    obtain ⟨hgood, hstep'⟩ := hmap _ _ _ hok hstep
    exact ih.tail hgood hstep'

end Reaches

/-! ## Systems that come to rest

`r s t` says that a system goes on from `s` to `t` by itself.  It settles in `P` if every way
of going on ends, and where none is left `P` holds. -/

section settling

open Relation

variable {r : σ → σ → Prop} {P : σ → Prop} {m : σ → Nat}

def Rests (r : σ → σ → Prop) (s : σ) : Prop := ∀ t, ¬ r s t

inductive Settles (r : σ → σ → Prop) (P : σ → Prop) : σ → Prop
  | rest {s : σ} (h : Rests r s) (hp : P s) : Settles r P s
  | more {s t : σ} (h : r s t) (hall : ∀ t, r s t → Settles r P t) : Settles r P s

/-- Where the system has come to rest. -/
theorem Settles.of_rests {s t : σ} (h : Settles r P s) (hrun : ReflTransGen r s t)
    (hrests : Rests r t) : P t := by
  induction h with
  | rest hrest hp =>
    rcases hrun.cases_head with rfl | ⟨u, hu, -⟩
    · exact hp
    · exact absurd hu (hrest u)
  | more hmove _ ih =>
    rcases hrun.cases_head with rfl | ⟨u, hu, hut⟩
    · exact absurd hmove (hrests _)
    · exact ih u hu hut

/-- With a measure that falls, the system cannot go on for ever. -/
theorem exists_rests (hm : ∀ s t, r s t → m t < m s) (s : σ) :
    ∃ t, ReflTransGen r s t ∧ Rests r t := by
  induction hn : m s using Nat.strong_induction_on generalizing s with
  | _ n ih =>
    subst hn
    by_cases hrest : Rests r s
    · exact ⟨s, .refl, hrest⟩
    · obtain ⟨t, hst⟩ := Classical.not_forall_not.mp hrest
      obtain ⟨u, htu, hrests⟩ := ih (m t) (hm s t hst) t rfl
      exact ⟨u, .head hst htu, hrests⟩

/-- A system with a measure settles in what holds wherever it can rest. -/
theorem settles_iff (hm : ∀ s t, r s t → m t < m s) {s : σ} :
    Settles r P s ↔ ∀ t, ReflTransGen r s t → Rests r t → P t := by
  refine ⟨fun h t hrun hrests => h.of_rests hrun hrests, ?_⟩
  induction hn : m s using Nat.strong_induction_on generalizing s with
  | _ n ih =>
    subst hn
    intro h
    by_cases hrest : Rests r s
    · exact .rest hrest (h s .refl hrest)
    · obtain ⟨t, hst⟩ := Classical.not_forall_not.mp hrest
      refine .more hst fun u hsu => ih (m u) (hm s u hsu) rfl fun t hrun hrests => ?_
      exact h t (.head hsu hrun) hrests

/-! ### Side by side -/

variable {ι : Type} {rs : ι → σ → σ → Prop} {Ps : ι → σ → Prop} {ms : ι → σ → Nat} {f g : ι → σ}

/-- One of the systems goes on. -/
def Beside (rs : ι → σ → σ → Prop) (f g : ι → σ) : Prop :=
  ∃ i, rs i (f i) (g i) ∧ ∀ j, j ≠ i → g j = f j

theorem Beside.component (h : ReflTransGen (Beside rs) f g) (i : ι) :
    ReflTransGen (rs i) (f i) (g i) := by
  induction h with
  | refl => exact .refl
  | tail _ hmove ih =>
    obtain ⟨j, hj, hother⟩ := hmove
    by_cases hij : i = j
    · subst hij
      exact ih.tail hj
    · rw [hother i hij]
      exact ih

variable [DecidableEq ι]

theorem Beside.update {i : ι} {s : σ} (h : rs i (f i) s) : Beside rs f (Function.update f i s) :=
  ⟨i, by rwa [Function.update_self], fun _ hj => Function.update_of_ne hj _ _⟩

theorem Beside.update_run {i : ι} {s : σ} (h : ReflTransGen (rs i) (f i) s) :
    ReflTransGen (Beside rs) f (Function.update f i s) := by
  induction h with
  | refl => rw [Function.update_eq_self]
  | @tail s t _ hmove ih =>
    have hmove' : rs i (Function.update f i s i) t := by rwa [Function.update_self]
    have hlast := Beside.update hmove'
    rw [Function.update_idem] at hlast
    exact ih.tail hlast

/-- All rest if each does. -/
theorem rests_beside : Rests (Beside rs) f ↔ ∀ i, Rests (rs i) (f i) := by
  constructor
  · intro h i s hmove
    exact h _ (Beside.update hmove)
  · rintro h g ⟨i, hmove, -⟩
    exact h i _ hmove

/-- Systems with measures settle side by side if each settles by itself. -/
theorem settles_beside [Fintype ι] (hm : ∀ i s t, rs i s t → ms i t < ms i s) :
    Settles (Beside rs) (fun f => ∀ i, Ps i (f i)) f ↔ ∀ i, Settles (rs i) (Ps i) (f i) := by
  have hsum : ∀ f g, Beside rs f g → ∑ i, ms i (g i) < ∑ i, ms i (f i) := by
    rintro f g ⟨i, hmove, hother⟩
    refine Finset.sum_lt_sum (fun j _ => ?_) ⟨i, Finset.mem_univ i, hm i _ _ hmove⟩
    by_cases hj : j = i
    · subst hj
      exact Nat.le_of_lt (hm j _ _ hmove)
    · rw [hother j hj]
  constructor
  · intro h i
    refine (settles_iff (hm i)).mpr fun s hrun hrests => ?_
    -- the others are let go on until they rest
    obtain ⟨g, hg, hrest⟩ := exists_rests hsum (Function.update f i s)
    have hsame : g i = s := by
      have hcomp := Beside.component hg i
      rw [Function.update_self] at hcomp
      rcases hcomp.cases_head with heq | ⟨t, hst, -⟩
      · exact heq.symm
      · exact absurd hst (hrests t)
    have hp := h.of_rests ((Beside.update_run hrun).trans hg) hrest i
    rwa [hsame] at hp
  · intro h
    refine (settles_iff hsum).mpr fun g hrun hrests i => ?_
    exact (h i).of_rests (Beside.component hrun i) (rests_beside.mp hrests i)

end settling

end Transition
