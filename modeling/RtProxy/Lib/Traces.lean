/-
What the traces of programs are like.

`Fails` says that a program fails whatever the world answers, and `Counts` how many times
it adds one event.  A program that is tried again after each failure adds the event that
many times more.

A demand says what has to stand in the trace before an event.  What stands in a trace
stays in it, so a condition on the trace, once it holds, holds in all that follows, and
a part of a program that adds only what the condition admits can be passed over.
-/
import RtProxy.Lib.Act

namespace Act

variable {ε ε' σ ν α β : Type}

/-! ## What is counted -/

section counts

variable {x : Act ε σ ν α} {v : ν} {k m : Nat}

def Fails (x : Act ε σ ν α) : Prop := ∀ s log, ∃ e, (x s log).result = .error e

def Counts [DecidableEq ν] (x : Act ε σ ν α) (v : ν) (k : Nat) : Prop :=
  ∀ s log, (x s log).events.count v = k

theorem fails_fail (e : ε) : (fail e : Act ε σ ν α).Fails := fun _ _ => ⟨e, rfl⟩

theorem attempt_run (s : σ) (log : List ν) : (attempt x : Act ε' σ ν (Except ε α)) s log =
    ⟨.ok (x s log).result, (x s log).state, (x s log).events⟩ := rfl

section

variable [DecidableEq ν]

theorem counts_of_emits (h : x.Emits (· ≠ v)) : x.Counts v 0 := by
  intro s log
  rw [List.count_eq_zero]
  exact fun hmem => h s log v hmem rfl

/-- The count of a sequence, if its first part ends with this value. -/
theorem count_bind_ok {f : α → Act ε σ ν β} {a : α} {s s' : σ} {log new : List ν}
    (hx : x s log = ⟨.ok a, s', new⟩) (hf : (f a).Counts v m) :
    ((x >>= f) s log).events.count v = new.count v + m := by
  rw [bind_ok hx, List.count_append, hf]

/-- An attempt that fails goes on with its error. -/
theorem counts_attempt_bind {f : Except ε α → Act ε' σ ν β} (hfails : x.Fails)
    (hx : x.Counts v k) (hf : ∀ e, (f (.error e)).Counts v m) :
    (attempt x >>= f).Counts v (k + m) := by
  intro s log
  obtain ⟨e, he⟩ := hfails s log
  have hrun : (attempt x : Act ε' σ ν (Except ε α)) s log =
      ⟨.ok (.error e), (x s log).state, (x s log).events⟩ := by rw [attempt_run, he]
  rw [count_bind_ok hrun (hf e), hx]

end

/-- It fails, if it does not go on to anything else. -/
theorem fails_attempt_bind {f : Except ε α → Act ε' σ ν β} (hfails : x.Fails)
    (hf : ∀ e, (f (.error e)).Fails) : (attempt x >>= f).Fails := by
  intro s log
  obtain ⟨e, he⟩ := hfails s log
  have hrun : (attempt x : Act ε' σ ν (Except ε α)) s log =
      ⟨.ok (.error e), (x s log).state, (x s log).events⟩ := by rw [attempt_run, he]
  rw [bind_ok hrun]
  exact hf e _ _

end counts

/-! ## What is prepared -/

/-- A condition on traces that no further event can break. -/
def Lasting (C : List ν → Prop) : Prop := ∀ log new, C log → C (log ++ new)

section lasting

variable {C D : List ν → Prop}

theorem lasting_true : Lasting fun _ : List ν => True := fun _ _ _ => trivial

theorem Lasting.and (hC : Lasting C) (hD : Lasting D) : Lasting fun log => C log ∧ D log :=
  fun log new h => ⟨hC log new h.1, hD log new h.2⟩

theorem lasting_exists {ι : Type} {P : ι → List ν → Prop} (h : ∀ i, Lasting (P i)) :
    Lasting fun log => ∃ i, P i log := by
  intro log new hex
  obtain ⟨i, hi⟩ := hex
  exact ⟨i, h i log new hi⟩

end lasting

/-- After a trace with `C` the program adds only what the demand admits, and if it succeeds
then its result and the trace satisfy `D`. -/
def Admits (need : ν → List ν → Prop) (C : List ν → Prop) (x : Act ε σ ν α)
    (D : α → List ν → Prop) : Prop :=
  Safe need (fun _ => C) x fun a _ => D a

section admits

variable {need : ν → List ν → Prop} {C C' : List ν → Prop} {x : Act ε σ ν α}
  {D D' : α → List ν → Prop} {E : β → List ν → Prop}

theorem Admits.guarded (h : Admits need C x D) {log : List ν} (hC : C log) (s : σ) :
    Guarded need log (x s log).events :=
  (h s log hC).1

theorem Admits.mono (h : Admits need C x D) (hC : ∀ log, C' log → C log)
    (hD : ∀ a log, D a log → D' a log) : Admits need C' x D' := by
  intro s log hlog
  obtain ⟨hguard, hpost⟩ := h s log (hC log hlog)
  exact ⟨hguard, fun a ha => hD a _ (hpost a ha)⟩

/-- A demand that is met meets a weaker one. -/
theorem Admits.weaken {need' : ν → List ν → Prop} (h : Admits need C x D)
    (hneed : ∀ e log, need e log → need' e log) : Admits need' C x D := by
  intro s log hlog
  obtain ⟨hguard, hpost⟩ := h s log hlog
  exact ⟨fun pre e post heq => hneed e _ (hguard pre e post heq), hpost⟩

theorem admits_bind {f : α → Act ε σ ν β} (hx : Admits need C x D)
    (hf : ∀ a, Admits need (D a) (f a) E) : Admits need C (x >>= f) E :=
  safe_bind hx hf

/-- A part that adds only what the condition admits, and what its runs tell. -/
theorem admits_of_run {p : ν → Prop} (hx : x.Emits p) (hC : Lasting C)
    (hneed : ∀ e, p e → ∀ log, C log → need e log)
    (hD : ∀ s log a s' new, x s log = ⟨.ok a, s', new⟩ → C log → D a (log ++ new)) :
    Admits need C x D := by
  intro s log hlog
  constructor
  · intro pre e post heq
    refine hneed e (hx s log e ?_) _ (hC log pre hlog)
    rw [heq]
    exact List.mem_append_right _ List.mem_cons_self
  · intro a ha
    refine hD s log a (x s log).state (x s log).events ?_ hlog
    rw [← ha]

theorem admits_of_emits {p : ν → Prop} (hx : x.Emits p) (hC : Lasting C)
    (hneed : ∀ e, p e → ∀ log, C log → need e log) : Admits need C x fun _ => C :=
  admits_of_run hx hC hneed fun _ _ _ _ _ _ hlog => hC _ _ hlog

theorem admits_ite {c : Prop} [Decidable c] {y : Act ε σ ν α} (hx : c → Admits need C x D)
    (hy : ¬ c → Admits need C y D) : Admits need C (if c then x else y) D :=
  safe_ite hx hy

end admits

end Act
