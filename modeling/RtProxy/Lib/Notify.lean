/-
A wake-up cell with one stored permit, for at most one waiting task.

`notified` is the start of a wait: it takes the stored permit if there is one,
and otherwise registers the caller.  `notifyOne` wakes the registered waiter, or
stores the permit when nobody waits (or the waiter is already woken).
`notifyWaiters` wakes a registered waiter and stores nothing.
-/
import Mathlib.Data.Nat.Notation

/-- `waiting = none`: nobody waits; `some false`: a task waits; `some true`: a
task waits and has been woken. -/
structure Notify where
  permit : Bool
  waiting : Option Bool
deriving Repr, DecidableEq

namespace Notify

def init : Notify := { permit := false, waiting := none }

def notifyOne (n : Notify) : Notify :=
  match n.waiting with
  | some false => { n with waiting := some true }
  | _ => { n with permit := true }

def notifyWaiters (n : Notify) : Notify :=
  match n.waiting with
  | some false => { n with waiting := some true }
  | _ => n

/-- Starts a wait; the flag says whether it completed at once. -/
def notified (n : Notify) : Notify × Bool :=
  if n.permit then ({ n with permit := false }, true)
  else ({ n with waiting := some false }, false)

/-- Completes a wait whose task has been woken. -/
def wake? (n : Notify) : Option Notify :=
  match n.waiting with
  | some true => some { n with waiting := none }
  | _ => none

/-- Gives a wait up.  A wake-up that had reached the abandoned wait is kept for
the next one. -/
def cancel (n : Notify) : Notify :=
  match n.waiting with
  | some true => { permit := true, waiting := none }
  | _ => { n with waiting := none }

/-! ## Wake-ups on their way -/

/-- A wake-up will reach the task that waits (`asleep`), or the one that is about
to: it is delivered to the first and stored for the second. -/
def Wakes (n : Notify) (asleep : Bool) : Prop :=
  if asleep then n.waiting = some true else n.permit = true

@[simp] theorem isSome_notifyOne (n : Notify) :
    n.notifyOne.waiting.isSome = n.waiting.isSome := by
  obtain ⟨p, w⟩ := n
  cases w with
  | none => rfl
  | some b => cases b <;> rfl

@[simp] theorem isSome_notifyWaiters (n : Notify) :
    n.notifyWaiters.waiting.isSome = n.waiting.isSome := by
  obtain ⟨p, w⟩ := n
  cases w with
  | none => rfl
  | some b => cases b <;> rfl

/-- `notifyOne` always sends a wake-up. -/
theorem wakes_notifyOne {n : Notify} {asleep : Bool} (h : n.waiting.isSome = asleep) :
    n.notifyOne.Wakes asleep := by
  obtain ⟨p, w⟩ := n
  cases w with
  | none =>
    subst h
    rfl
  | some b =>
    subst h
    cases b <;> rfl

/-- No notification takes a wake-up back. -/
theorem Wakes.notifyOne {n : Notify} {asleep : Bool} (h : n.Wakes asleep) :
    n.notifyOne.Wakes asleep := by
  obtain ⟨p, w⟩ := n
  cases asleep with
  | false =>
    have hp : p = true := h
    subst hp
    cases w with
    | none => rfl
    | some b => cases b <;> rfl
  | true =>
    have hw : w = some true := h
    subst hw
    rfl

theorem Wakes.notifyWaiters {n : Notify} {asleep : Bool} (h : n.Wakes asleep) :
    n.notifyWaiters.Wakes asleep := by
  obtain ⟨p, w⟩ := n
  cases asleep with
  | false =>
    have hp : p = true := h
    subst hp
    cases w with
    | none => rfl
    | some b => cases b <;> rfl
  | true =>
    have hw : w = some true := h
    subst hw
    rfl

end Notify
