/-
Outputs that are made of some of the inputs, in their order and one of each at most.

`Made R ins outs` says that `outs` are made, by `R`, of a sublist of `ins`.  A loop that
takes one input a round keeps it: the round passes its input over or makes one output of
it.
-/
import Mathlib.Data.List.Forall2
import Mathlib.Data.List.Induction

namespace Picked

variable {ι ω σ : Type} {R : ι → ω → Prop} {ins more : List ι} {outs : List ω}

def Made (R : ι → ω → Prop) (ins : List ι) (outs : List ω) : Prop :=
  ∃ picked : List ι, picked.Sublist ins ∧ List.Forall₂ R picked outs

namespace Made

theorem nil : Made R [] [] := ⟨[], .refl _, .nil⟩

theorem skip (h : Made R ins outs) (more : List ι) : Made R (ins ++ more) outs := by
  obtain ⟨picked, hsub, hmade⟩ := h
  exact ⟨picked, hsub.trans (List.sublist_append_left ins more), hmade⟩

theorem take (h : Made R ins outs) {x : ι} {out : ω} (hx : R x out) :
    Made R (ins ++ [x]) (outs ++ [out]) := by
  obtain ⟨picked, hsub, hmade⟩ := h
  exact ⟨picked ++ [x], hsub.append (.refl _), List.rel_append hmade (.cons hx .nil)⟩

end Made

/-- What holds at the start and is kept by every round holds at the end, where it may
speak of the inputs taken so far. -/
theorem foldl_rounds {round : σ → ι → σ} {I : List ι → σ → Prop} {s : σ} (hinit : I [] s)
    (hround : ∀ before s x, I before s → I (before ++ [x]) (round s x)) (xs : List ι) :
    I xs (xs.foldl round s) := by
  induction xs using List.reverseRecOn with
  | nil => exact hinit
  | append_singleton before x ih =>
    rw [List.foldl_append]
    exact hround before _ x ih

end Picked
