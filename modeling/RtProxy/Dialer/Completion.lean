import RtProxy.Dialer.Invariant

/-!
Every `dial` call comes to an end.

A call takes at most nine steps of its own, and the only thing it waits for is
`build_lock`, whose holder never waits for anything but its own `await`s.
-/

namespace RtProxy
namespace Dialer

open Transition

variable {ε : Type} {builds : Except ε Unit → Prop} {s t : State ε} {d : Nat}

namespace State

theorem buildLock_liveSession (s : State ε) : s.liveSession.2.buildLock = s.buildLock := by
  rcases liveSession_cases s with ⟨i, -, hl⟩ | ⟨hl, -⟩ <;> rw [hl]

theorem pc_goto (s : State ε) (d : Nat) (pc : Pc ε) : ((s.goto d pc).dials d).pc = pc := by
  unfold goto
  rw [put_self]

end State

/-- Every step of a call brings it nearer to its end. -/
theorem Step.rank_lt (h : Step builds s (.dial d) t) :
    (t.dials d).pc.rank < (s.dials d).pc.rank := by
  cases h with
  | start hpc =>
    rw [State.pc_goto, hpc]
    cases s.liveSession.1 <;> simp [Pc.afterStart, Pc.rank]
  | warm hpc r =>
    rw [State.pc_goto, hpc]
    cases r <;> simp [Pc.afterWarm, Pc.rank]
  | recheck hpc =>
    rw [State.pc_goto, hpc]
    cases s.liveSession.1 <;> simp [Pc.afterRecheck, Pc.rank]
  | reopen hpc r =>
    rw [State.pc_goto, hpc]
    cases r <;> simp [Pc.afterReopen, Pc.rank]
  | first hpc r =>
    rw [State.pc_goto, hpc]
    cases r <;> simp [Pc.afterFirst, Pc.rank]
  | lock hpc | publish hpc | leave hpc =>
    rw [State.pc_goto, hpc]
    simp [Pc.rank]
  | buildFailed hpc | buildDone hpc =>
    show ((State.put _ _ _).dials d).pc.rank < _
    rw [State.put_self, hpc]
    simp [Pc.rank]

/-- Nobody but the call `d` holds the lock. -/
def State.Turn (s : State ε) (d : Nat) : Prop := s.buildLock = none ∨ s.buildLock = some d

theorem Step.turn (h : Step builds s (.dial d) t) (hturn : s.Turn d) : t.Turn d := by
  cases h with
  | start | recheck =>
    show s.liveSession.2.buildLock = none ∨ s.liveSession.2.buildLock = some d
    rw [State.buildLock_liveSession]
    exact hturn
  | lock => exact .inr rfl
  | leave => exact .inl rfl
  | warm | reopen | buildFailed | buildDone | first | publish => exact hturn

/-- A call that is not done and has its turn can move. -/
theorem exists_step (hb : ∃ r, builds r) (hinv : Inv s) (hturn : s.Turn d)
    (hdone : ∀ r, (s.dials d).pc ≠ .done r) : ∃ t, Step builds s (.dial d) t := by
  cases hpc : (s.dials d).pc with
  | start => exact ⟨_, .start hpc⟩
  | warm i => exact ⟨_, .warm hpc (.ok ())⟩
  | lock =>
    have hfree : s.buildLock = none := by
      rcases hturn with h | h
      · exact h
      · have hin := (hinv.holder d).mpr h
        rw [hpc] at hin
        cases hin
    exact ⟨_, .lock hpc hfree⟩
  | recheck => exact ⟨_, .recheck hpc⟩
  | reopen i => exact ⟨_, .reopen hpc (.ok ())⟩
  | build =>
    obtain ⟨r, hr⟩ := hb
    cases r with
    | ok => exact ⟨_, .buildDone hpc hr⟩
    | error e => exact ⟨_, .buildFailed hpc hr⟩
  | first i => exact ⟨_, .first hpc (.ok ())⟩
  | publish i => exact ⟨_, .publish hpc⟩
  | leave r => exact ⟨_, .leave hpc⟩
  | done r => exact absurd hpc (hdone r)

/-- Only `dial` calls move. -/
def ByCalls (_ : State ε) (l : Label) : Prop := ∃ d, l = .dial d

theorem exists_done_of_turn (hb : ∃ r, builds r) (hinv : Inv s) (hturn : s.Turn d) :
    ∃ t, Reaches (Step builds) ByCalls s t ∧ Inv t ∧ t.Turn d ∧
      ∃ r, (t.dials d).pc = .done r := by
  -- on the steps the call has left
  induction hn : (s.dials d).pc.rank using Nat.strong_induction_on generalizing s with
  | _ n ih =>
    by_cases hdone : ∃ r, (s.dials d).pc = .done r
    · exact ⟨s, .refl, hinv, hturn, hdone⟩
    · obtain ⟨u, hu⟩ := exists_step hb hinv hturn fun r hr => hdone ⟨r, hr⟩
      have hlt := hu.rank_lt
      rw [hn] at hlt
      obtain ⟨t, hrun, hrest⟩ := ih _ hlt (hu.inv hinv) (hu.turn hturn) rfl
      exact ⟨t, (Reaches.refl.tail ⟨d, rfl⟩ hu).trans hrun, hrest⟩

/-- From every state the calls alone can bring the call `d` to its end. -/
theorem exists_done (hb : ∃ r, builds r) (hinv : Inv s) (d : Nat) :
    ∃ t, Reaches (Step builds) ByCalls s t ∧ ∃ r, (t.dials d).pc = .done r := by
  cases hlock : s.buildLock with
  | none =>
    obtain ⟨t, hrun, -, -, hdone⟩ := exists_done_of_turn hb hinv (.inl hlock)
    exact ⟨t, hrun, hdone⟩
  | some e =>
    -- the holder of the lock goes first
    obtain ⟨u, hrun, hinv', hturn, r, hr⟩ := exists_done_of_turn hb hinv (.inr hlock)
    have hfree : u.buildLock = none := by
      rcases hturn with h | h
      · exact h
      · have hin := (hinv'.holder e).mpr h
        rw [hr] at hin
        cases hin
    obtain ⟨t, hrun', -, -, hdone⟩ := exists_done_of_turn hb hinv' (.inl hfree)
    exact ⟨t, hrun.trans hrun', hdone⟩

end Dialer
end RtProxy
