import RtProxy.Dialer.Step

/-!
What every interleaving of `dial` calls keeps.

A session that is neither dead nor refused is in the cache or in the hands of the
call that built it.  A call builds only after it has seen, under the lock, that no
other session is left, so at most one session is unspent.
-/

namespace RtProxy
namespace Dialer

variable {ε : Type} {builds : Except ε Unit → Prop} {s t : State ε}

/-! ## Sessions only wear out -/

namespace Session

/-- `y` is the same session as `x` at a later time. -/
structure Le (x y : Session ε) : Prop where
  spent : x.spent = true → y.spent = true
  opened : x.opened ≤ y.opened
  refusals : ∀ e ∈ x.refusals, e ∈ y.refusals

theorem Le.refl (x : Session ε) : x.Le x := ⟨id, Nat.le_refl _, fun _ h => h⟩

theorem le_close (x : Session ε) : x.Le x.close := ⟨fun _ => rfl, Nat.le_refl _, fun _ h => h⟩

theorem spent_of_closed {x : Session ε} (h : x.closed = true) : x.spent = true := by
  rw [spent, h, Bool.true_or]

theorem spent_of_mem_refusals {x : Session ε} {e : ε} (h : e ∈ x.refusals) :
    x.spent = true := by
  have hne : x.refusals.isEmpty = false := by
    cases hx : x.refusals with
    | nil =>
      rw [hx] at h
      cases h
    | cons => rfl
  rw [spent, hne, Bool.not_false, Bool.or_true]

theorem le_answer (x : Session ε) (r : Except ε Unit) : x.Le (x.answer r) := by
  cases r with
  | ok => exact ⟨id, Nat.le_succ _, fun _ h => h⟩
  | error e =>
    exact ⟨fun _ => spent_of_mem_refusals (List.mem_append_right _ (List.mem_singleton_self e)),
      Nat.le_refl _, fun _ h => List.mem_append_left _ h⟩

theorem opened_answer_ok (x : Session ε) : 0 < (x.answer (.ok ())).opened := Nat.succ_pos _

theorem mem_refusals_answer (x : Session ε) (e : ε) : e ∈ (x.answer (.error e)).refusals :=
  List.mem_append_right _ (List.mem_singleton_self e)

end Session

/-! ## What a call has to show for itself -/

/-- The result of a finished `dial`, given the rebuilds of the call: a stream on a
session that was built here, or the error of its only rebuild. -/
def Result (s : State ε) (rebuilds : List (Except ε Nat)) : Except ε Nat → Prop
  | .ok i => i < s.built ∧ 0 < (s.session i).opened ∧ (rebuilds = [] ∨ rebuilds = [.ok i])
  | .error e =>
    rebuilds = [.error e] ∨
      ∃ i < s.built, rebuilds = [.ok i] ∧ e ∈ (s.session i).refusals

/-- The rebuilds of a call that stands at `pc`. -/
def Account (s : State ε) (rebuilds : List (Except ε Nat)) : Pc ε → Prop
  | .first i => rebuilds = [.ok i]
  | .publish i => rebuilds = [.ok i] ∧ 0 < (s.session i).opened
  | .leave r | .done r => Result s rebuilds r
  | _ => rebuilds = []

structure Inv (s : State ε) : Prop where
  holder : ∀ d, (s.dials d).pc.inside = true ↔ s.buildLock = some d
  cached : ∀ i, s.cached = some i → i < s.built ∧ 0 < (s.session i).opened
  bound : ∀ d i, (s.dials d).pc.session? = some i → i < s.built
  /-- Where the sessions in use are. -/
  kept : ∀ i < s.built, (s.session i).spent = true ∨ s.cached = some i ∨
    ∃ d, (s.dials d).pc.unpublished? = some i
  /-- What a call that is about to build knows. -/
  alone : ∀ d x, (s.dials d).pc.spare? = some x →
    ∀ i < s.built, some i ≠ x → (s.session i).spent = true
  account : ∀ d, Account s (s.dials d).rebuilds (s.dials d).pc

theorem Inv.init : Inv (State.init : State ε) where
  holder := by
    intro d
    constructor <;> intro h <;> cases h
  cached := by
    intro i h
    cases h
  bound := by
    intro d i h
    cases h
  kept := by
    intro i hi
    exact absurd hi (Nat.not_lt_zero i)
  alone := by
    intro d x h
    cases h
  account := by
    intro d
    rfl

/-! ## Frame lemmas -/

theorem Result.mono {rs : List (Except ε Nat)} {r : Except ε Nat} (h : Result s rs r)
    (hb : s.built ≤ t.built) (hs : ∀ i < s.built, (s.session i).Le (t.session i)) :
    Result t rs r := by
  cases r with
  | ok i =>
    obtain ⟨hi, hop, hrs⟩ := h
    exact ⟨by omega, Nat.lt_of_lt_of_le hop (hs i hi).opened, hrs⟩
  | error e =>
    rcases h with h | ⟨i, hi, hrs, he⟩
    · exact .inl h
    · exact .inr ⟨i, by omega, hrs, (hs i hi).refusals e he⟩

theorem Account.mono {rs : List (Except ε Nat)} {pc : Pc ε} (h : Account s rs pc)
    (hpc : ∀ i, pc.session? = some i → i < s.built) (hb : s.built ≤ t.built)
    (hs : ∀ i < s.built, (s.session i).Le (t.session i)) : Account t rs pc := by
  cases pc with
  | publish i => exact ⟨h.1, Nat.lt_of_lt_of_le h.2 (hs i (hpc i rfl)).opened⟩
  | leave r | done r => exact Result.mono h hb hs
  | _ => exact h

/-- Time passes for the sessions. -/
theorem Inv.wear {f : Nat → Session ε} (h : Inv s) (hf : ∀ i, (s.session i).Le (f i)) :
    Inv { s with session := f } where
  holder := h.holder
  cached := by
    intro i hi
    obtain ⟨hlt, hop⟩ := h.cached i hi
    exact ⟨hlt, Nat.lt_of_lt_of_le hop (hf i).opened⟩
  bound := h.bound
  kept := by
    intro i hi
    rcases h.kept i hi with hs | hrest
    · exact .inl ((hf i).spent hs)
    · exact .inr hrest
  alone := by
    intro d x hx i hi hne
    exact (hf i).spent (h.alone d x hx i hi hne)
  account := by
    intro d
    exact (h.account d).mono (h.bound d) (Nat.le_refl _) fun i _ => hf i

theorem le_update {i : Nat} {y : Session ε} (h : (s.session i).Le y) (j : Nat) :
    (s.session j).Le (Function.update s.session i y j) := by
  by_cases hj : j = i
  · subst hj
    rwa [Function.update_self]
  · rw [Function.update_of_ne hj]
    exact .refl _

theorem Inv.openStream (h : Inv s) (i : Nat) (r : Except ε Unit) : Inv (s.openStream i r) :=
  h.wear (le_update (Session.le_answer _ r))

theorem Inv.die (h : Inv s) (i : Nat) : Inv (s.die i) :=
  h.wear (le_update (Session.le_close _))

/-- Only a dead session is evicted. -/
theorem Inv.evict (h : Inv s) (hc : ∀ i, s.cached = some i → (s.session i).spent = true) :
    Inv { s with cached := none } where
  holder := h.holder
  cached := by
    intro i hi
    cases hi
  bound := h.bound
  kept := by
    intro i hi
    rcases h.kept i hi with hs | hs | hs
    · exact .inl hs
    · exact .inl (hc i hs)
    · exact .inr (.inr hs)
  alone := h.alone
  account := h.account

/-- What `live_session` does: it answers with the cached session, or it leaves the
cache empty. -/
theorem liveSession_cases (s : State ε) :
    (∃ i, s.cached = some i ∧ s.liveSession = (some i, s)) ∨
      (s.liveSession = (none, { s with cached := none }) ∧
        ∀ i, s.cached = some i → (s.session i).closed = true) := by
  unfold State.liveSession
  cases hc : s.cached with
  | none =>
    refine .inr ⟨?_, fun i hi => by cases hi⟩
    show (none, s) = (none, { s with cached := none })
    rw [← hc]
  | some i =>
    by_cases hcl : (s.session i).closed = true
    · refine .inr ⟨if_pos hcl, fun j hj => ?_⟩
      cases hj
      exact hcl
    · exact .inl ⟨i, rfl, if_neg hcl⟩

theorem Inv.liveSession (h : Inv s) : Inv s.liveSession.2 := by
  rcases liveSession_cases s with ⟨i, -, hl⟩ | ⟨hl, hc⟩
  · rw [hl]
    exact h
  · rw [hl]
    exact h.evict fun i hi => Session.spent_of_closed (hc i hi)

/-! ## One step -/

section Goto

variable {d : Nat} {pc : Pc ε}

/-- One call moves and may take the lock or give it back. -/
theorem Inv.put (h : Inv s) (lock : Option Nat) {x : Dial ε}
    (hlock : x.pc.inside = true ↔ lock = some d)
    (hothers : ∀ e, e ≠ d → (lock = some e ↔ s.buildLock = some e))
    (hbound : ∀ i, x.pc.session? = some i → i < s.built)
    (hkept : ∀ i, (s.dials d).pc.unpublished? = some i →
      (s.session i).spent = true ∨ s.cached = some i ∨ x.pc.unpublished? = some i)
    (halone : ∀ y, x.pc.spare? = some y →
      ∀ i < s.built, some i ≠ y → (s.session i).spent = true)
    (haccount : Account s x.rebuilds x.pc) :
    Inv ({ s with buildLock := lock }.put d x) where
  holder := by
    intro e
    by_cases he : e = d
    · subst he
      rw [State.put_self]
      exact hlock
    · rw [State.put_of_ne _ he]
      exact (h.holder e).trans (hothers e he).symm
  cached := h.cached
  bound := by
    intro e i
    by_cases he : e = d
    · subst he
      rw [State.put_self]
      exact hbound i
    · rw [State.put_of_ne _ he]
      exact h.bound e i
  kept := by
    intro i hi
    rcases h.kept i hi with hs | hs | ⟨e, hs⟩
    · exact .inl hs
    · exact .inr (.inl hs)
    · by_cases he : e = d
      · subst he
        rcases hkept i hs with hk | hk | hk
        · exact .inl hk
        · exact .inr (.inl hk)
        · refine .inr (.inr ⟨e, ?_⟩)
          rw [State.put_self]
          exact hk
      · refine .inr (.inr ⟨e, ?_⟩)
        rw [State.put_of_ne _ he]
        exact hs
  alone := by
    intro e y
    by_cases he : e = d
    · subst he
      rw [State.put_self]
      exact halone y
    · rw [State.put_of_ne _ he]
      exact h.alone e y
  account := by
    intro e
    by_cases he : e = d
    · subst he
      rw [State.put_self]
      exact haccount
    · rw [State.put_of_ne _ he]
      exact h.account e

/-- One call moves and the lock stays as it is. -/
theorem Inv.goto (h : Inv s) (hin : pc.inside = (s.dials d).pc.inside)
    (hbound : ∀ i, pc.session? = some i → i < s.built)
    (hkept : ∀ i, (s.dials d).pc.unpublished? = some i →
      (s.session i).spent = true ∨ s.cached = some i ∨ pc.unpublished? = some i)
    (halone : ∀ x, pc.spare? = some x →
      ∀ i < s.built, some i ≠ x → (s.session i).spent = true)
    (haccount : Account s (s.dials d).rebuilds pc) : Inv (s.goto d pc) := by
  apply h.put s.buildLock ?_ (fun _ _ => .rfl) hbound hkept halone haccount
  show pc.inside = true ↔ _
  rw [hin]
  exact h.holder d

theorem Inv.goto_start (h : Inv s) (hpc : (s.dials d).pc = .start) :
    Inv (s.liveSession.2.goto d (.afterStart s.liveSession.1)) := by
  have hacc := h.account d
  rw [hpc] at hacc
  rcases liveSession_cases s with ⟨i, hc, hl⟩ | ⟨hl, hc⟩
  · rw [hl]
    refine h.goto (by rw [hpc]; rfl) ?_ ?_ (fun x hx => by cases hx) hacc
    · intro j hj
      cases hj
      exact (h.cached i hc).1
    · intro j hj
      rw [hpc] at hj
      cases hj
  · rw [hl]
    have h' := h.evict fun i hi => Session.spent_of_closed (hc i hi)
    refine h'.goto (by show _ = (s.dials d).pc.inside; rw [hpc]; rfl)
      (fun j hj => by cases hj) ?_ (fun x hx => by cases hx) hacc
    intro j hj
    change (s.dials d).pc.unpublished? = some j at hj
    rw [hpc] at hj
    cases hj

/-- With nobody else inside the lock, every session outside the cache is spent. -/
theorem Inv.spent_of_uncached (h : Inv s) (hin : (s.dials d).pc.inside = true)
    (hun : (s.dials d).pc.unpublished? = none) {i : Nat} (hi : i < s.built)
    (hc : s.cached ≠ some i) : (s.session i).spent = true := by
  rcases h.kept i hi with hs | hs | ⟨e, hs⟩
  · exact hs
  · exact absurd hs hc
  · have he : s.buildLock = some e := by
      apply (h.holder e).mp
      cases hpe : (s.dials e).pc <;> rw [hpe] at hs <;> first | rfl | cases hs
    have hd := (h.holder d).mp hin
    rw [he] at hd
    cases hd
    rw [hun] at hs
    cases hs

theorem Inv.goto_recheck (h : Inv s) (hpc : (s.dials d).pc = .recheck) :
    Inv (s.liveSession.2.goto d (.afterRecheck s.liveSession.1)) := by
  have hacc := h.account d
  rw [hpc] at hacc
  have hin : (s.dials d).pc.inside = true := by
    rw [hpc]
    rfl
  have hun : (s.dials d).pc.unpublished? = none := by
    rw [hpc]
    rfl
  rcases liveSession_cases s with ⟨i, hc, hl⟩ | ⟨hl, hc⟩
  · rw [hl]
    refine h.goto hin.symm ?_ ?_ ?_ hacc
    · intro j hj
      cases hj
      exact (h.cached i hc).1
    · intro j hj
      rw [hun] at hj
      cases hj
    · intro x hx j hj hne
      cases hx
      apply h.spent_of_uncached hin hun hj
      rw [hc]
      exact fun he => hne he.symm
  · rw [hl]
    have h' := h.evict fun i hi => Session.spent_of_closed (hc i hi)
    refine h'.goto hin.symm (fun j hj => by cases hj) ?_ ?_ hacc
    · intro j hj
      change (s.dials d).pc.unpublished? = some j at hj
      rw [hun] at hj
      cases hj
    · intro x _ j hj _
      exact h'.spent_of_uncached hin hun hj (fun he => by cases he)

theorem Inv.goto_lock (h : Inv s) (hpc : (s.dials d).pc = .lock) (hfree : s.buildLock = none) :
    Inv ({ s with buildLock := some d }.goto d .recheck) := by
  have hacc := h.account d
  rw [hpc] at hacc
  refine h.put (some d) (by simp [Pc.inside]) ?_ (fun j hj => by cases hj) ?_ (fun x hx => by cases hx)
    hacc
  · intro e he
    rw [hfree]
    constructor <;> intro heq
    · cases heq
      exact absurd rfl he
    · cases heq
  · intro j hj
    rw [hpc] at hj
    cases hj

theorem Inv.goto_leave (h : Inv s) {r : Except ε Nat} (hpc : (s.dials d).pc = .leave r) :
    Inv ({ s with buildLock := none }.goto d (.done r)) := by
  have hacc := h.account d
  rw [hpc] at hacc
  refine h.put none (by simp [Pc.inside]) ?_ (fun j hj => by cases hj) ?_ (fun x hx => by cases hx)
    hacc
  · intro e he
    have hd : s.buildLock = some d := (h.holder d).mp (by rw [hpc]; rfl)
    rw [hd]
    constructor <;> intro heq
    · cases heq
    · cases heq
      exact absurd rfl he
  · intro j hj
    rw [hpc] at hj
    cases hj

theorem session_openStream_self (s : State ε) (i : Nat) (r : Except ε Unit) :
    (s.openStream i r).session i = (s.session i).answer r := by
  show Function.update s.session i _ i = _
  rw [Function.update_self]

theorem Inv.goto_warm (h : Inv s) {i : Nat} (hpc : (s.dials d).pc = .warm i)
    (r : Except ε Unit) : Inv ((s.openStream i r).goto d (.afterWarm i r)) := by
  have hacc := h.account d
  have hi := h.bound d i (by rw [hpc]; rfl)
  rw [hpc] at hacc
  have hun : ∀ j, (s.dials d).pc.unpublished? ≠ some j := by
    intro j hj
    rw [hpc] at hj
    cases hj
  cases r with
  | ok =>
    refine (h.openStream i (.ok ())).goto (by show _ = (s.dials d).pc.inside; rw [hpc]; rfl)
      (fun j hj => by cases hj) (fun j hj => absurd hj (hun j)) (fun x hx => by cases hx) ?_
    refine ⟨hi, ?_, .inl hacc⟩
    rw [session_openStream_self]
    exact Session.opened_answer_ok _
  | error e =>
    exact (h.openStream i (.error e)).goto
      (by show _ = (s.dials d).pc.inside; rw [hpc]; rfl) (fun j hj => by cases hj)
      (fun j hj => absurd hj (hun j)) (fun x hx => by cases hx) hacc

theorem Inv.goto_reopen (h : Inv s) {i : Nat} (hpc : (s.dials d).pc = .reopen i)
    (r : Except ε Unit) : Inv ((s.openStream i r).goto d (.afterReopen i r)) := by
  have hacc := h.account d
  have hi := h.bound d i (by rw [hpc]; rfl)
  have hothers := h.alone d (some i) (by rw [hpc]; rfl)
  rw [hpc] at hacc
  have hun : ∀ j, (s.dials d).pc.unpublished? ≠ some j := by
    intro j hj
    rw [hpc] at hj
    cases hj
  cases r with
  | ok =>
    refine (h.openStream i (.ok ())).goto (by show _ = (s.dials d).pc.inside; rw [hpc]; rfl)
      (fun j hj => by cases hj) (fun j hj => absurd hj (hun j)) (fun x hx => by cases hx) ?_
    refine ⟨hi, ?_, .inl hacc⟩
    rw [session_openStream_self]
    exact Session.opened_answer_ok _
  | error e =>
    refine (h.openStream i (.error e)).goto
      (by show _ = (s.dials d).pc.inside; rw [hpc]; rfl) (fun j hj => by cases hj)
      (fun j hj => absurd hj (hun j)) ?_ hacc
    -- the session that refused was the last one in use
    intro x _ j hj _
    by_cases hji : j = i
    · subst hji
      rw [session_openStream_self]
      exact Session.spent_of_mem_refusals (Session.mem_refusals_answer _ e)
    · apply (le_update (Session.le_answer _ _) j).spent
      exact hothers j hj fun he => hji (Option.some.inj he)

theorem Inv.goto_first (h : Inv s) {i : Nat} (hpc : (s.dials d).pc = .first i)
    (r : Except ε Unit) : Inv ((s.openStream i r).goto d (.afterFirst i r)) := by
  have hacc := h.account d
  have hi := h.bound d i (by rw [hpc]; rfl)
  have hothers := h.alone d (some i) (by rw [hpc]; rfl)
  rw [hpc] at hacc
  have hun : ∀ j, (s.dials d).pc.unpublished? = some j → j = i := by
    intro j hj
    rw [hpc] at hj
    exact (Option.some.inj hj).symm
  cases r with
  | ok =>
    refine (h.openStream i (.ok ())).goto (by show _ = (s.dials d).pc.inside; rw [hpc]; rfl)
      ?_ ?_ ?_ ⟨hacc, ?_⟩
    · intro j hj
      cases hj
      exact hi
    · intro j hj
      rw [hun j hj]
      exact .inr (.inr rfl)
    · intro x hx j hj hne
      cases hx
      exact (le_update (Session.le_answer _ _) j).spent (hothers j hj hne)
    · rw [session_openStream_self]
      exact Session.opened_answer_ok _
  | error e =>
    refine (h.openStream i (.error e)).goto
      (by show _ = (s.dials d).pc.inside; rw [hpc]; rfl) (fun j hj => by cases hj) ?_
      (fun x hx => by cases hx) (.inr ⟨i, hi, hacc, ?_⟩)
    · intro j hj
      rw [hun j hj, session_openStream_self]
      exact .inl (Session.spent_of_mem_refusals (Session.mem_refusals_answer _ e))
    · rw [session_openStream_self]
      exact Session.mem_refusals_answer _ e

/-- The session that takes the place in the cache has opened a stream, and the one
that had it is spent. -/
theorem Inv.goto_publish (h : Inv s) {i : Nat} (hpc : (s.dials d).pc = .publish i) :
    Inv ({ s with cached := some i }.goto d (.leave (.ok i))) := by
  have hacc := h.account d
  have hi := h.bound d i (by rw [hpc]; rfl)
  have hothers := h.alone d (some i) (by rw [hpc]; rfl)
  rw [hpc] at hacc
  obtain ⟨hrs, hop⟩ := hacc
  have h' : Inv { s with cached := some i } :=
    { holder := h.holder
      cached := by
        intro j hj
        cases hj
        exact ⟨hi, hop⟩
      bound := h.bound
      kept := by
        intro j hj
        by_cases hji : j = i
        · subst hji
          exact .inr (.inl rfl)
        · exact .inl (hothers j hj fun he => hji (Option.some.inj he))
      alone := h.alone
      account := h.account }
  refine h'.goto (by show _ = (s.dials d).pc.inside; rw [hpc]; rfl) (fun j hj => by cases hj) ?_
    (fun x hx => by cases hx) ⟨hi, hop, .inr hrs⟩
  intro j hj
  change (s.dials d).pc.unpublished? = some j at hj
  rw [hpc] at hj
  exact .inr (.inl hj)

theorem Inv.buildFailed (h : Inv s) (hpc : (s.dials d).pc = .build) (e : ε) :
    Inv (s.buildFailed d e) := by
  have hacc := h.account d
  rw [hpc] at hacc
  change (s.dials d).rebuilds = [] at hacc
  refine h.put s.buildLock ?_ (fun _ _ => .rfl) (fun j hj => by cases hj) ?_
    (fun x hx => by cases hx) ?_
  · rw [← h.holder d, hpc]
    exact .rfl
  · intro j hj
    rw [hpc] at hj
    cases hj
  · rw [hacc]
    exact .inl rfl

theorem Pc.inside_of_spare {x : Option Nat} (h : pc.spare? = some x) : pc.inside = true := by
  cases pc <;> first | rfl | cases h

theorem Inv.buildDone (h : Inv s) (hpc : (s.dials d).pc = .build) : Inv (s.buildDone d) := by
  have hacc := h.account d
  rw [hpc] at hacc
  change (s.dials d).rebuilds = [] at hacc
  have hall := h.alone d none (by rw [hpc]; rfl)
  have hlock : s.buildLock = some d := (h.holder d).mp (by rw [hpc]; rfl)
  have hself : (s.buildDone d).dials d =
      { pc := .first s.built, rebuilds := (s.dials d).rebuilds ++ [.ok s.built] } := by
    unfold State.buildDone
    rw [State.put_self]
  have hother : ∀ e, e ≠ d → (s.buildDone d).dials e = s.dials e := by
    intro e he
    unfold State.buildDone
    rw [State.put_of_ne _ he]
  have hold : ∀ i < s.built, (s.buildDone d).session i = s.session i := by
    intro i hi
    show Function.update s.session s.built _ i = _
    rw [Function.update_of_ne (Nat.ne_of_lt hi)]
  have hle : ∀ i < s.built, (s.session i).Le ((s.buildDone d).session i) := by
    intro i hi
    rw [hold i hi]
    exact .refl _
  have hspent : ∀ i < s.built, ((s.buildDone d).session i).spent = true := by
    intro i hi
    rw [hold i hi]
    exact hall i hi fun he => by cases he
  refine ⟨?_, ?_, ?_, ?_, ?_, ?_⟩
  · intro e
    by_cases he : e = d
    · subst he
      rw [hself]
      exact iff_of_true rfl hlock
    · rw [hother e he]
      exact h.holder e
  · intro i hi
    obtain ⟨hlt, hop⟩ := h.cached i hi
    rw [hold i hlt]
    exact ⟨Nat.lt_succ_of_lt hlt, hop⟩
  · intro e i
    by_cases he : e = d
    · subst he
      rw [hself]
      intro hi
      cases hi
      exact Nat.lt_succ_self _
    · rw [hother e he]
      exact fun hi => Nat.lt_succ_of_lt (h.bound e i hi)
  · intro i hi
    by_cases hlt : i < s.built
    · exact .inl (hspent i hlt)
    · have hib : i = s.built := by
        have : i < s.built + 1 := hi
        omega
      refine .inr (.inr ⟨d, ?_⟩)
      rw [hself, hib]
      rfl
  · intro e x
    by_cases he : e = d
    · subst he
      rw [hself]
      intro hx i hi hne
      cases hx
      have hlt : i < s.built := by
        have : i < s.built + 1 := hi
        have : i ≠ s.built := fun hib => hne (by rw [hib])
        omega
      exact hspent i hlt
    · rw [hother e he]
      intro hx
      have hle := (h.holder e).mp (Pc.inside_of_spare hx)
      rw [hlock] at hle
      exact absurd (Option.some.inj hle).symm he
  · intro e
    by_cases he : e = d
    · subst he
      rw [hself, hacc]
      exact rfl
    · rw [hother e he]
      exact (h.account e).mono (h.bound e) (Nat.le_succ _) hle

theorem Step.inv {l : Label} (h : Inv s) (hstep : Step builds s l t) : Inv t := by
  cases hstep with
  | start hpc => exact h.goto_start hpc
  | warm hpc r => exact h.goto_warm hpc r
  | lock hpc hfree => exact h.goto_lock hpc hfree
  | recheck hpc => exact h.goto_recheck hpc
  | reopen hpc r => exact h.goto_reopen hpc r
  | buildFailed hpc _ => exact h.buildFailed hpc _
  | buildDone hpc _ => exact h.buildDone hpc
  | first hpc r => exact h.goto_first hpc r
  | publish hpc => exact h.goto_publish hpc
  | leave hpc => exact h.goto_leave hpc
  | die _ => exact h.die _
  | close =>
    unfold State.closeCached
    cases s.cached with
    | none => exact h
    | some i => exact h.die i
  | look => exact h.liveSession

end Goto

open Transition in
theorem inv_of_reaches (h : Reaches (Step builds) anyStep State.init s) : Inv s :=
  h.invariant Inv.init fun _ _ _ hi _ hstep => hstep.inv hi

/-! ## At most one session in use -/

theorem Pc.spare_of_unpublished {pc : Pc ε} {i : Nat} (h : pc.unpublished? = some i) :
    pc.spare? = some (some i) := by
  cases pc <;> first | exact congrArg some h | cases h

/-- Two sessions of which neither is spent are one. -/
theorem Inv.eq_of_unspent (h : Inv s) {i j : Nat} (hi : i < s.built) (hj : j < s.built)
    (hsi : (s.session i).spent = false) (hsj : (s.session j).spent = false) : i = j := by
  -- a session in the hands of its builder is the only one that is not spent
  have hand : ∀ a b, b < s.built → (s.session b).spent = false →
      (∃ d, (s.dials d).pc.unpublished? = some a) → b = a := by
    intro a b hb hsb ⟨d, hd⟩
    by_contra hne
    have := h.alone d _ (Pc.spare_of_unpublished hd) b hb fun he => hne (Option.some.inj he)
    rw [hsb] at this
    cases this
  have hwhere : ∀ a, a < s.built → (s.session a).spent = false →
      s.cached = some a ∨ ∃ d, (s.dials d).pc.unpublished? = some a := by
    intro a ha hsa
    rcases h.kept a ha with hk | hk
    · rw [hsa] at hk
      cases hk
    · exact hk
  rcases hwhere i hi hsi with hci | hpi
  · rcases hwhere j hj hsj with hcj | hpj
    · rw [hci] at hcj
      exact Option.some.inj hcj
    · exact hand j i hi hsi hpj
  · exact (hand i j hj hsj hpi).symm

/-- The built sessions that have died or refused a stream. -/
def State.spentSessions (s : State ε) : Finset Nat :=
  (Finset.range s.built).filter fun i => (s.session i).spent = true

theorem Inv.built_le (h : Inv s) : s.built ≤ 1 + s.spentSessions.card := by
  have hone : ((Finset.range s.built).filter fun i => ¬ (s.session i).spent = true).card ≤ 1 := by
    rw [Finset.card_le_one]
    intro i hi j hj
    rw [Finset.mem_filter, Finset.mem_range, Bool.not_eq_true] at hi hj
    exact h.eq_of_unspent hi.1 hj.1 hi.2 hj.2
  have hsum := Finset.card_filter_add_card_filter_not (s := Finset.range s.built)
    (fun i => (s.session i).spent = true)
  rw [Finset.card_range] at hsum
  unfold State.spentSessions
  omega

end Dialer
end RtProxy
