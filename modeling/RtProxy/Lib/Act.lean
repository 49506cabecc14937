/-
Programs that keep a state, fail, and leave a trace of events.

A program is run in a state and after a trace of earlier events.  It ends with a
result or an error and, in both cases, with a state and the events it added, so
an event is never taken back.  What the outside world answers may depend on the
trace, which is how `ask` and `perform` see it.

Six kinds of rules follow.  `Emits` says that a program adds only events of some
kind, `Leaves` that all it adds is a trace of some kind, `Keeps` that it leaves the
state alone, `Returns` that there is one value it can succeed with, and `Succeeds` that
it cannot fail.  `Safe` is a triple with a precondition and a postcondition, for programs
each of whose events is admitted by `need` after the events before it.
-/
import Mathlib.Data.List.Basic

/-- How a run ends. -/
structure Outcome (ε σ ν α : Type) where
  result : Except ε α
  state : σ
  events : List ν

def Act (ε σ ν α : Type) := σ → List ν → Outcome ε σ ν α

namespace Act

variable {ε ε' σ ν α β : Type}

protected def pure (a : α) : Act ε σ ν α := fun s _ => ⟨.ok a, s, []⟩

protected def bind (x : Act ε σ ν α) (f : α → Act ε σ ν β) : Act ε σ ν β := fun s log =>
  match x s log with
  | ⟨.ok a, s', new⟩ =>
    let o := f a s' (log ++ new)
    ⟨o.result, o.state, new ++ o.events⟩
  | ⟨.error e, s', new⟩ => ⟨.error e, s', new⟩

instance : Monad (Act ε σ ν) where
  pure := Act.pure
  bind := Act.bind

def fail (e : ε) : Act ε σ ν α := fun s _ => ⟨.error e, s, []⟩

/-- Adds one event. -/
def emit (e : ν) : Act ε σ ν Unit := fun s _ => ⟨.ok (), s, [e]⟩

/-- What the world answers after the trace so far. -/
def ask (g : List ν → α) : Act ε σ ν α := fun s log => ⟨.ok (g log), s, []⟩

def get : Act ε σ ν σ := fun s _ => ⟨.ok s, s, []⟩

def set (s : σ) : Act ε σ ν Unit := fun _ _ => ⟨.ok (), s, []⟩

/-- The program, if the condition holds. -/
def when (c : Prop) [Decidable c] (x : Act ε σ ν Unit) : Act ε σ ν Unit :=
  if c then x else Act.pure ()

/-- Runs a function on the state that may fail, and then leaves the state alone. -/
def take (p : StateT σ (Except ε) α) : Act ε σ ν α := fun s _ =>
  match p s with
  | .ok (a, s') => ⟨.ok a, s', []⟩
  | .error e => ⟨.error e, s, []⟩

/-- Fails with the error, if the value is one. -/
def ofExcept : Except ε α → Act ε σ ν α
  | .ok a => Act.pure a
  | .error e => fail e

/-- The result of a program as a value. -/
def attempt (x : Act ε σ ν α) : Act ε' σ ν (Except ε α) := fun s log =>
  ⟨.ok (x s log).result, (x s log).state, (x s log).events⟩

def mapErr (g : ε → ε') (x : Act ε σ ν α) : Act ε' σ ν α := fun s log =>
  ⟨(x s log).result.mapError g, (x s log).state, (x s log).events⟩

/-- An action on the world: the event is recorded, and the world says whether the
action succeeded. -/
def perform (world : List ν → ν → Option ε) (e : ν) : Act ε σ ν Unit := fun s log =>
  match world log e with
  | none => ⟨.ok (), s, [e]⟩
  | some err => ⟨.error err, s, [e]⟩

/-! ## Runs -/

section run

variable {x : Act ε σ ν α} {f : α → Act ε σ ν β} {s s' : σ} {log new : List ν}

theorem pure_run (a : α) : (pure a : Act ε σ ν α) s log = ⟨.ok a, s, []⟩ := rfl

theorem take_ok {p : StateT σ (Except ε) α} {a : α} (h : p s = .ok (a, s')) :
    (take p : Act ε σ ν α) s log = ⟨.ok a, s', []⟩ := by
  unfold take
  rw [h]

theorem take_error {p : StateT σ (Except ε) α} {e : ε} (h : p s = .error e) :
    (take p : Act ε σ ν α) s log = ⟨.error e, s, []⟩ := by
  unfold take
  rw [h]

theorem bind_ok {a : α} (h : x s log = ⟨.ok a, s', new⟩) :
    (x >>= f) s log = ⟨(f a s' (log ++ new)).result, (f a s' (log ++ new)).state,
      new ++ (f a s' (log ++ new)).events⟩ := by
  show Act.bind x f s log = _
  unfold Act.bind
  rw [h]

theorem bind_run {a : α} {t : σ} {r : Except ε β} {new' : List ν} (h : x s log = ⟨.ok a, s', new⟩)
    (hf : f a s' (log ++ new) = ⟨r, t, new'⟩) : (x >>= f) s log = ⟨r, t, new ++ new'⟩ := by
  rw [bind_ok h, hf]

/-- A first part that adds no event leaves no trace. -/
theorem bind_silent {a : α} (h : x s log = ⟨.ok a, s', []⟩) :
    (x >>= f) s log = f a s' log := by
  rw [bind_ok h, List.append_nil]
  rfl

theorem ask_bind (g : List ν → α) : (ask g >>= f) s log = f (g log) s log := bind_silent rfl

theorem get_bind (f : σ → Act ε σ ν β) : (get >>= f) s log = f s s log := bind_silent rfl

theorem bind_error {e : ε} (h : x s log = ⟨.error e, s', new⟩) :
    (x >>= f) s log = ⟨.error e, s', new⟩ := by
  show Act.bind x f s log = _
  unfold Act.bind
  rw [h]

/-- A sequence that succeeds is two parts that succeed. -/
theorem bind_eq_ok {b : β} {new' : List ν} {t : σ} (h : (x >>= f) s log = ⟨.ok b, t, new'⟩) :
    ∃ a s' new₁ new₂, x s log = ⟨.ok a, s', new₁⟩ ∧ f a s' (log ++ new₁) = ⟨.ok b, t, new₂⟩
      ∧ new' = new₁ ++ new₂ := by
  rcases hx : x s log with ⟨_ | a, s', new₁⟩
  · rw [bind_error hx] at h
    cases h
  · rcases hf : f a s' (log ++ new₁) with ⟨r, t', new₂⟩
    rw [bind_ok hx, hf] at h
    cases h
    exact ⟨a, s', new₁, new₂, rfl, hf, rfl⟩

/-- Two parts that succeed make a sequence that does. -/
theorem exists_bind_ok {a : α} {b : β} {t : σ} (hx : ∃ new, x s log = ⟨.ok a, s', new⟩)
    (hf : ∀ log, ∃ new, f a s' log = ⟨.ok b, t, new⟩) :
    ∃ new, (x >>= f) s log = ⟨.ok b, t, new⟩ := by
  obtain ⟨new, hx⟩ := hx
  obtain ⟨new', hf⟩ := hf (log ++ new)
  exact ⟨new ++ new', by rw [bind_ok hx, hf]⟩

theorem take_eq_ok {p : StateT σ (Except ε) α} {a : α}
    (h : (take p : Act ε σ ν α) s log = ⟨.ok a, s', new⟩) : p s = .ok (a, s') ∧ new = [] := by
  unfold take at h
  split at h
  · cases h
    exact ⟨by assumption, rfl⟩
  · cases h

theorem ofExcept_bind {r : Except ε α} {a : α} (h : r = .ok a) :
    (ofExcept r >>= f) s log = f a s log := by
  rw [h]
  exact bind_silent rfl

theorem ofExcept_bind_error {r : Except ε α} {e : ε} (h : r = .error e) :
    (ofExcept r >>= f) s log = ⟨.error e, s, []⟩ := by
  rw [h]
  exact bind_error rfl

theorem ofExcept_eq_ok {r : Except ε α} {a : α} (h : ofExcept r s log = ⟨.ok a, s', new⟩) :
    r = .ok a ∧ s' = s ∧ new = [] := by
  cases r <;> cases h
  exact ⟨rfl, rfl, rfl⟩

theorem mapErr_eq_ok {g : ε → ε'} {a : α} (h : mapErr g x s log = ⟨.ok a, s', new⟩) :
    x s log = ⟨.ok a, s', new⟩ := by
  rcases hx : x s log with ⟨_ | b, t, ev⟩ <;> rw [mapErr, hx] at h <;> cases h
  rfl

theorem perform_eq_ok {world : List ν → ν → Option ε} {e : ν} {u : Unit}
    (h : (perform world e : Act ε σ ν Unit) s log = ⟨.ok u, s', new⟩) : s' = s ∧ new = [e] := by
  unfold perform at h
  split at h <;> cases h
  exact ⟨rfl, rfl⟩

end run

/-! ## Kinds of events -/

/-- The program adds only events that satisfy `p`. -/
def Emits (x : Act ε σ ν α) (p : ν → Prop) : Prop := ∀ s log, ∀ e ∈ (x s log).events, p e

section emits

variable {p q : ν → Prop} {x : Act ε σ ν α}

theorem Emits.mono (h : x.Emits p) (hpq : ∀ e, p e → q e) : x.Emits q :=
  fun s log e he => hpq e (h s log e he)

theorem emits_pure (a : α) : (pure a : Act ε σ ν α).Emits p := fun _ _ _ h => nomatch h

theorem emits_fail (e : ε) : (fail e : Act ε σ ν α).Emits p := fun _ _ _ h => nomatch h

theorem emits_ask (g : List ν → α) : (ask g : Act ε σ ν α).Emits p := fun _ _ _ h => nomatch h

theorem emits_get : (get : Act ε σ ν σ).Emits p := fun _ _ _ h => nomatch h

theorem emits_set (s : σ) : (set s : Act ε σ ν Unit).Emits p := fun _ _ _ h => nomatch h

theorem emits_take (q : StateT σ (Except ε) α) : (take q : Act ε σ ν α).Emits p := by
  intro s log e he
  unfold take at he
  split at he <;> cases he

theorem emits_ofExcept (r : Except ε α) : (ofExcept r : Act ε σ ν α).Emits p := by
  cases r
  · exact emits_fail _
  · exact emits_pure _

theorem emits_emit {e : ν} (h : p e) : (emit e : Act ε σ ν Unit).Emits p := by
  intro s log e' he
  obtain rfl := List.mem_singleton.mp he
  exact h

theorem emits_perform {world : List ν → ν → Option ε} {e : ν} (h : p e) :
    (perform world e : Act ε σ ν Unit).Emits p := by
  intro s log e' he
  unfold perform at he
  split at he <;> obtain rfl := List.mem_singleton.mp he <;> exact h

/-- The second part has to be considered only for what the first can give. -/
theorem emits_bind_of_result {f : α → Act ε σ ν β} (hx : x.Emits p)
    (hf : ∀ a s log s' new, x s log = ⟨.ok a, s', new⟩ → (f a).Emits p) : (x >>= f).Emits p := by
  intro s log e he
  rcases h : x s log with ⟨_ | a, s', new⟩
  · rw [bind_error h] at he
    exact hx s log e (by rw [h]; exact he)
  · rw [bind_ok h] at he
    rcases List.mem_append.mp he with he | he
    · exact hx s log e (by rw [h]; exact he)
    · exact hf a s log s' new h _ _ e he

theorem emits_bind {f : α → Act ε σ ν β} (hx : x.Emits p) (hf : ∀ a, (f a).Emits p) :
    (x >>= f).Emits p :=
  emits_bind_of_result hx fun a _ _ _ _ _ => hf a

/-- A first part that always gives the same result. -/
theorem emits_bind_of_ok {f : α → Act ε σ ν β} {a : α} (hx : x.Emits p)
    (hok : ∀ s log, ∃ s' new, x s log = ⟨.ok a, s', new⟩) (hf : (f a).Emits p) :
    (x >>= f).Emits p := by
  refine emits_bind_of_result hx fun b s log s' new h => ?_
  obtain ⟨s'', new', hrun⟩ := hok s log
  cases h.symm.trans hrun
  exact hf

theorem emits_attempt (h : x.Emits p) : (attempt x : Act ε' σ ν (Except ε α)).Emits p := h

theorem emits_mapErr (g : ε → ε') (h : x.Emits p) : (mapErr g x).Emits p := h

theorem emits_ite {c : Prop} [Decidable c] {y : Act ε σ ν α} (hx : x.Emits p) (hy : y.Emits p) :
    (if c then x else y).Emits p := by
  split_ifs
  · exact hx
  · exact hy

theorem emits_when {c : Prop} [Decidable c] {y : Act ε σ ν Unit} (hy : c → y.Emits p) :
    (when c y).Emits p := by
  unfold when
  split_ifs with h
  · exact hy h
  · exact emits_pure _

end emits

/-! ## Kinds of traces -/

/-- A kind of traces that can be empty and can be continued. -/
structure Traced (P : List ν → Prop) : Prop where
  nil : P []
  append : ∀ a b, P a → P b → P (a ++ b)

/-- Whatever the program adds is a trace of this kind. -/
def Leaves (x : Act ε σ ν α) (P : List ν → Prop) : Prop := ∀ s log, P (x s log).events

section leaves

variable {P : List ν → Prop} {x : Act ε σ ν α}

theorem traced_forall (p : ν → Prop) : Traced fun l => ∀ e ∈ l, p e where
  nil := List.forall_mem_nil p
  append _ _ ha hb := List.forall_mem_append.mpr ⟨ha, hb⟩

theorem Emits.leaves {p : ν → Prop} (h : x.Emits p) (hp : ∀ l, (∀ e ∈ l, p e) → P l) :
    x.Leaves P :=
  fun s log => hp _ (h s log)

theorem Traced.leaves_pure (hP : Traced P) (a : α) : (pure a : Act ε σ ν α).Leaves P :=
  fun _ _ => hP.nil

theorem Traced.leaves_fail (hP : Traced P) (e : ε) : (fail e : Act ε σ ν α).Leaves P :=
  fun _ _ => hP.nil

theorem Traced.leaves_ask (hP : Traced P) (g : List ν → α) : (ask g : Act ε σ ν α).Leaves P :=
  fun _ _ => hP.nil

theorem Traced.leaves_ofExcept (hP : Traced P) (r : Except ε α) :
    (ofExcept r : Act ε σ ν α).Leaves P := by
  cases r
  · exact hP.leaves_fail _
  · exact hP.leaves_pure _

theorem Traced.leaves_bind (hP : Traced P) {f : α → Act ε σ ν β} (hx : x.Leaves P)
    (hf : ∀ a, (f a).Leaves P) : (x >>= f).Leaves P := by
  intro s log
  have hfirst := hx s log
  rcases h : x s log with ⟨_ | a, s', new⟩ <;> rw [h] at hfirst
  · rw [bind_error h]
    exact hfirst
  · rw [bind_ok h]
    exact hP.append _ _ hfirst (hf a s' _)

theorem leaves_attempt (h : x.Leaves P) : (attempt x : Act ε' σ ν (Except ε α)).Leaves P := h

theorem leaves_mapErr (g : ε → ε') (h : x.Leaves P) : (mapErr g x).Leaves P := h

theorem leaves_ite {c : Prop} [Decidable c] {y : Act ε σ ν α} (hx : c → x.Leaves P)
    (hy : ¬ c → y.Leaves P) : (if c then x else y).Leaves P := by
  split_ifs with h
  · exact hx h
  · exact hy h

end leaves

/-- What the first part of a sequence adds. -/
theorem mem_bind_left {x : Act ε σ ν α} {f : α → Act ε σ ν β} {s : σ} {log : List ν} {e : ν}
    (h : e ∈ (x s log).events) : e ∈ ((x >>= f) s log).events := by
  rcases hx : x s log with ⟨_ | a, s', new⟩ <;> rw [hx] at h
  · rw [bind_error hx]
    exact h
  · rw [bind_ok hx]
    exact List.mem_append_left _ h

/-- What the second part of a sequence adds, if the first succeeds. -/
theorem mem_bind_right {x : Act ε σ ν α} {f : α → Act ε σ ν β} {s s' : σ} {log new : List ν}
    {a : α} {e : ν} (hx : x s log = ⟨.ok a, s', new⟩) (h : e ∈ (f a s' (log ++ new)).events) :
    e ∈ ((x >>= f) s log).events := by
  rw [bind_ok hx]
  exact List.mem_append_right _ h

/-! ## The state -/

/-- The program leaves the state as it is. -/
def Keeps (x : Act ε σ ν α) : Prop := ∀ s log, (x s log).state = s

section keeps

variable {x : Act ε σ ν α}

theorem keeps_pure (a : α) : (pure a : Act ε σ ν α).Keeps := fun _ _ => rfl

theorem keeps_fail (e : ε) : (fail e : Act ε σ ν α).Keeps := fun _ _ => rfl

theorem keeps_ask (g : List ν → α) : (ask g : Act ε σ ν α).Keeps := fun _ _ => rfl

theorem keeps_emit (e : ν) : (emit e : Act ε σ ν Unit).Keeps := fun _ _ => rfl

theorem keeps_ofExcept (r : Except ε α) : (ofExcept r : Act ε σ ν α).Keeps := by
  cases r
  · exact keeps_fail _
  · exact keeps_pure _

theorem keeps_perform (world : List ν → ν → Option ε) (e : ν) :
    (perform world e : Act ε σ ν Unit).Keeps := by
  intro s log
  unfold perform
  split <;> rfl

theorem keeps_attempt (h : x.Keeps) : (attempt x : Act ε' σ ν (Except ε α)).Keeps := h

theorem keeps_mapErr (g : ε → ε') (h : x.Keeps) : (mapErr g x).Keeps := h

theorem keeps_bind {f : α → Act ε σ ν β} (hx : x.Keeps) (hf : ∀ a, (f a).Keeps) :
    (x >>= f).Keeps := by
  intro s log
  have hs := hx s log
  rcases h : x s log with ⟨_ | a, s', new⟩ <;> rw [h] at hs
  · rw [bind_error h]
    exact hs
  · rw [bind_ok h]
    exact (hf a s' _).trans hs

theorem keeps_ite {c : Prop} [Decidable c] {y : Act ε σ ν α} (hx : x.Keeps) (hy : y.Keeps) :
    (if c then x else y).Keeps := by
  split_ifs
  · exact hx
  · exact hy

theorem keeps_when {c : Prop} [Decidable c] {y : Act ε σ ν Unit} (hy : y.Keeps) :
    (when c y).Keeps :=
  keeps_ite hy (keeps_pure ())

end keeps

/-! ## What a program returns -/

/-- The program succeeds with this value, if it does. -/
def Returns (x : Act ε σ ν α) (a : α) : Prop :=
  ∀ s log b s' new, x s log = ⟨.ok b, s', new⟩ → b = a

/-- All runs that succeed return the same. -/
def Steady (x : Act ε σ ν α) : Prop := ∃ a, x.Returns a

section returns

variable {x : Act ε σ ν α} {a : α}

theorem returns_pure (a : α) : (pure a : Act ε σ ν α).Returns a := by
  intro s log b s' new h
  cases h
  rfl

theorem returns_fail (e : ε) (a : α) : (fail e : Act ε σ ν α).Returns a :=
  fun _ _ _ _ _ h => by cases h

/-- A last part that returns the same, whatever the first part gives. -/
theorem returns_after {y : Act ε σ ν β} {f : β → Act ε σ ν α} (hf : ∀ b, (f b).Returns a) :
    (y >>= f).Returns a := by
  intro s log c s' new h
  obtain ⟨b, t, ev₁, ev₂, -, hlast, -⟩ := bind_eq_ok h
  exact hf b t _ c s' ev₂ hlast

theorem returns_bind {f : α → Act ε σ ν β} {b : β} (hx : x.Returns a) (hf : (f a).Returns b) :
    (x >>= f).Returns b := by
  intro s log c s' new h
  obtain ⟨a', t, ev₁, ev₂, hfirst, hlast, -⟩ := bind_eq_ok h
  cases hx s log a' t ev₁ hfirst
  exact hf t _ c s' ev₂ hlast

theorem Returns.steady (h : x.Returns a) : x.Steady := ⟨a, h⟩

theorem steady_bind {f : α → Act ε σ ν β} (hx : x.Steady) (hf : ∀ a, (f a).Steady) :
    (x >>= f).Steady := by
  obtain ⟨a, ha⟩ := hx
  obtain ⟨b, hb⟩ := hf a
  exact ⟨b, returns_bind ha hb⟩

theorem Steady.eq {b : α} {s s' t t' : σ} {log log' new new' : List ν} (h : x.Steady)
    (ha : x s log = ⟨.ok a, s', new⟩) (hb : x t log' = ⟨.ok b, t', new'⟩) : a = b := by
  obtain ⟨c, hc⟩ := h
  exact (hc _ _ _ _ _ ha).trans (hc _ _ _ _ _ hb).symm

end returns

/-! ## Programs that succeed -/

/-- The program succeeds from every state, and leaves it alone. -/
def Succeeds (x : Act ε σ ν α) : Prop := ∀ s log, ∃ a new, x s log = ⟨.ok a, s, new⟩

section succeeds

variable {x : Act ε σ ν α}

theorem succeeds_pure (a : α) : (pure a : Act ε σ ν α).Succeeds := fun _ _ => ⟨_, _, rfl⟩

theorem succeeds_ask (g : List ν → α) : (ask g : Act ε σ ν α).Succeeds := fun _ _ => ⟨_, _, rfl⟩

theorem succeeds_emit (e : ν) : (emit e : Act ε σ ν Unit).Succeeds := fun _ _ => ⟨_, _, rfl⟩

theorem succeeds_perform {world : List ν → ν → Option ε} {e : ν} (h : ∀ log, world log e = none) :
    (perform world e : Act ε σ ν Unit).Succeeds := by
  intro s log
  unfold perform
  rw [h log]
  exact ⟨_, _, rfl⟩

theorem succeeds_ofExcept {r : Except ε α} {a : α} (h : r = .ok a) :
    (ofExcept r : Act ε σ ν α).Succeeds := by
  rw [h]
  exact succeeds_pure a

theorem succeeds_mapErr (g : ε → ε') (h : x.Succeeds) : (mapErr g x).Succeeds := by
  intro s log
  obtain ⟨a, new, hrun⟩ := h s log
  refine ⟨a, new, ?_⟩
  unfold mapErr
  rw [hrun]
  rfl

theorem succeeds_bind {f : α → Act ε σ ν β} (hx : x.Succeeds) (hf : ∀ a, (f a).Succeeds) :
    (x >>= f).Succeeds := by
  intro s log
  obtain ⟨a, new, hrun⟩ := hx s log
  obtain ⟨b, new', hrun'⟩ := hf a s (log ++ new)
  exact ⟨b, new ++ new', by rw [bind_ok hrun, hrun']⟩

theorem succeeds_ite {c : Prop} [Decidable c] {y : Act ε σ ν α} (hx : c → x.Succeeds)
    (hy : ¬ c → y.Succeeds) : (if c then x else y).Succeeds := by
  split_ifs with h
  · exact hx h
  · exact hy h

theorem succeeds_when {c : Prop} [Decidable c] {y : Act ε σ ν Unit} (hy : c → y.Succeeds) :
    (when c y).Succeeds :=
  succeeds_ite hy fun _ => succeeds_pure ()

end succeeds

/-! ## Guarded traces -/

/-- Each event of `new` is admitted by `need` after the ones before it. -/
def Guarded (need : ν → List ν → Prop) (log new : List ν) : Prop :=
  ∀ pre e post, new = pre ++ e :: post → need e (log ++ pre)

theorem guarded_nil (need : ν → List ν → Prop) (log : List ν) : Guarded need log [] := by
  intro pre e post h
  cases pre <;> cases h

theorem guarded_singleton {need : ν → List ν → Prop} {log : List ν} {e : ν} (h : need e log) :
    Guarded need log [e] := by
  intro pre e' post heq
  cases pre with
  | nil =>
    cases heq
    rw [List.append_nil]
    exact h
  | cons _ pre => cases pre <;> cases heq

theorem Guarded.append {need : ν → List ν → Prop} {log new new' : List ν}
    (h : Guarded need log new) (h' : Guarded need (log ++ new) new') :
    Guarded need log (new ++ new') := by
  intro pre e post heq
  rcases List.append_eq_append_iff.mp heq with ⟨mid, hpre, hnew'⟩ | ⟨mid, hnew, hpost⟩
  · rw [hpre, ← List.append_assoc]
    exact h' mid e post hnew'
  · cases mid with
    | nil =>
      rw [List.append_nil] at hnew
      rw [← hnew]
      have := h' [] e post hpost.symm
      rwa [List.append_nil] at this
    | cons e' mid =>
      cases hpost
      exact h pre e mid hnew

/-- Events that are admitted after anything. -/
theorem guarded_of_free {need : ν → List ν → Prop} {log new : List ν}
    (h : ∀ e ∈ new, ∀ log, need e log) : Guarded need log new := by
  rintro pre e post rfl
  exact h e (List.mem_append_right _ List.mem_cons_self) _

/-! ## Triples -/

/-- From a state and trace with `P`, the program adds only admitted events, and if it
succeeds then with `Q`. -/
def Safe (need : ν → List ν → Prop) (P : σ → List ν → Prop) (x : Act ε σ ν α)
    (Q : α → σ → List ν → Prop) : Prop :=
  ∀ s log, P s log → Guarded need log (x s log).events
    ∧ ∀ a, (x s log).result = .ok a → Q a (x s log).state (log ++ (x s log).events)

section safe

variable {need : ν → List ν → Prop} {P P' : σ → List ν → Prop} {x : Act ε σ ν α}
  {Q Q' : α → σ → List ν → Prop} {R : β → σ → List ν → Prop}

theorem safe_bind {f : α → Act ε σ ν β} (hx : Safe need P x Q)
    (hf : ∀ a, Safe need (Q a) (f a) R) : Safe need P (x >>= f) R := by
  intro s log hp
  obtain ⟨hg, hq⟩ := hx s log hp
  rcases h : x s log with ⟨_ | a, s', new⟩ <;> rw [h] at hg hq
  · rw [bind_error h]
    exact ⟨hg, fun _ h => nomatch h⟩
  · rw [bind_ok h]
    obtain ⟨hg', hr⟩ := hf a s' (log ++ new) (hq a rfl)
    refine ⟨hg.append hg', fun b hb => ?_⟩
    show R b _ (log ++ (new ++ _))
    rw [← List.append_assoc]
    exact hr b hb

theorem safe_ite {c : Prop} [Decidable c] {y : Act ε σ ν α} (hx : c → Safe need P x Q)
    (hy : ¬ c → Safe need P y Q) : Safe need P (if c then x else y) Q := by
  split_ifs with h
  · exact hx h
  · exact hy h

end safe

end Act
