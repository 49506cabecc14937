import Mathlib.Data.List.Basic
import RtProxy.Lib.Text
import RtProxy.Lib.Transition

/-!
The periodic reload of a configuration file (`reload.rs`, `main.rs`).

The file has versions, numbered in the order in which they are written, each with a
modification time of its own.  The caller loads the file and spawns the loop; an
iteration looks at the modification time, and if that has changed opens the file and
reloads it.  Writes come in between at any place.  What is reloaded is a parameter; only
tests stop it.
-/

namespace RtProxy
namespace PeriodicReload

open Transition

/-- A `Reloader`: the contents it can parse, and the period each of them asks for. -/
structure Reloader (κ : Type) where
  accepts : κ → Bool
  period : κ → Nat

structure Version (κ : Type) where
  modTime : Nat
  content : κ

/-- `SystemTime::UNIX_EPOCH`. -/
def UNIX_EPOCH : Nat := 0

/-- Where caller and loop stand.  `v` is the version whose modification time the
iteration has observed, `o` the newest one when it opened the file; `broken` has returned
with the error of `open`. -/
inductive Pc
  | start
  | ready
  | top
  | opening (v : Nat)
  | reading (v o : Nat)
  | sleeping (v : Nat)
  | broken (v : Nat)
  | ended
deriving Repr, DecidableEq

/-- What an iteration did; `failed` is for an error that is not the content's. -/
structure Iteration where
  observed : Nat
  attempted : Bool
  failed : Bool
deriving Repr, DecidableEq

variable {κ : Type}

/-- `loaded` is the version loaded last.  The last two fields are history: the version
read last, and the iterations. -/
structure Sys (κ : Type) where
  versions : List (Version κ)
  loaded : Option Nat
  lastMod : Nat
  pc : Pc
  seen : Nat
  iterations : List Iteration

namespace Sys

def init (first : Version κ) : Sys κ :=
  { versions := [first], loaded := none, lastMod := UNIX_EPOCH, pc := .start, seen := 0, iterations := [] }

/-- The newest version. -/
def current (s : Sys κ) : Nat := s.versions.length - 1

/-- The period of what is loaded; nothing loaded asks for no reloads. -/
def period (r : Reloader κ) (s : Sys κ) : Nat :=
  match s.loaded.bind (s.versions[·]?) with
  | some version => r.period version.content
  | none => 0

/-- The loop has seen the modification time of version `v`. -/
def observe (s : Sys κ) (v modTime : Nat) : Sys κ :=
  if s.lastMod ≠ UNIX_EPOCH ∧ modTime ≠ s.lastMod then { s with pc := .opening v }
  else
    { s with
      lastMod := modTime, pc := .sleeping v
      iterations := s.iterations ++ [⟨v, false, false⟩] }

/-- Version `w` has been read, and reloaded if it can be parsed. -/
def read (r : Reloader κ) (s : Sys κ) (w : Nat) (content : κ) : Sys κ :=
  { s with seen := w, loaded := if r.accepts content then some w else s.loaded }

/-- An iteration that has reloaded is over. -/
def finish (s : Sys κ) (v modTime : Nat) (failed : Bool) : Sys κ :=
  { s with
    lastMod := modTime, pc := .sleeping v
    iterations := s.iterations ++ [⟨v, true, failed⟩] }

end Sys

inductive Action
  | write
  | load
  | spawn
  | stat
  | statError
  | open
  | openError
  | reload (w : Nat)
  | reloadError
  | wake
deriving Repr, DecidableEq

/-- Steps.  What is read from an open file may be older than the newest version, but not
than the one it was opened at. -/
inductive Step (r : Reloader κ) (s : Sys κ) : Action → Sys κ → Prop
  | write (version : Version κ) (hnew : ∀ v ∈ s.versions, v.modTime ≠ version.modTime) :
      Step r s .write { s with versions := s.versions ++ [version] }
  | load {version : Version κ} (hpc : s.pc = .start)
      (hread : s.versions[s.current]? = some version) :
      Step r s .load { s.read r s.current version.content with pc := .ready }
  | loadError (hpc : s.pc = .start) : Step r s .load { s with pc := .ready }
  | spawn (hpc : s.pc = .ready) :
      Step r s .spawn { s with pc := if s.period r = 0 then .ended else .top }
  | disabled (hpc : s.pc = .top) (hzero : s.period r = 0) : Step r s .stat { s with pc := .ended }
  | stat {version : Version κ} (hpc : s.pc = .top) (hperiod : s.period r ≠ 0)
      (hmeta : s.versions[s.current]? = some version) :
      Step r s .stat (s.observe s.current version.modTime)
  | statError (hpc : s.pc = .top) (hperiod : s.period r ≠ 0) :
      Step r s .statError { s with pc := .ended }
  | open {v : Nat} (hpc : s.pc = .opening v) :
      Step r s .open { s with pc := .reading v s.current }
  | openError {v : Nat} (hpc : s.pc = .opening v) :
      Step r s .openError { s with pc := .broken v }
  | reload {v o w : Nat} {observed version : Version κ} (hpc : s.pc = .reading v o)
      (hobserved : s.versions[v]? = some observed) (hw : o ≤ w)
      (hread : s.versions[w]? = some version) :
      Step r s (.reload w) ((s.read r w version.content).finish v observed.modTime false)
  | reloadError {v o : Nat} {observed : Version κ} (hpc : s.pc = .reading v o)
      (hobserved : s.versions[v]? = some observed) :
      Step r s .reloadError (s.finish v observed.modTime true)
  | wake {v : Nat} (hpc : s.pc = .sleeping v) : Step r s .wake { s with pc := .top }

/-! ## What an iteration is to leave behind -/

/-- The content of version `v` cannot be parsed. -/
def Broken (r : Reloader κ) (s : Sys κ) (v : Nat) : Prop :=
  ∃ version, s.versions[v]? = some version ∧ r.accepts version.content = false

/-- Version `v` or a later one is loaded, or version `v` cannot be parsed. -/
def Covers (r : Reloader κ) (s : Sys κ) (v : Nat) : Prop :=
  (∃ l, s.loaded = some l ∧ v ≤ l) ∨ Broken r s v

/-- No version is missed: after an iteration the version it observed is covered, and after
a reload that failed the next iteration reloads. -/
structure NoneMissed (r : Reloader κ) (s : Sys κ) : Prop where
  covered : ∀ v, s.pc = .sleeping v ∨ s.pc = .broken v → Covers r s v
  retried : ∀ n it next, s.iterations[n]? = some it → s.iterations[n + 1]? = some next →
    it.failed = true → next.attempted = true

/-- Nothing goes wrong behind the loop's back: when it has recorded no time, or that of
the epoch, the newest version is the one read last, or cannot be parsed; the file can be
opened and read; and if what is read is newer than what was observed, it is not the only
one of the two that cannot be parsed. -/
structure Quiet (r : Reloader κ) (s : Sys κ) (a : Action) : Prop where
  stat : a = .stat → s.lastMod = UNIX_EPOCH → s.seen = s.current ∨ Broken r s s.current
  opens : a ≠ .openError
  reads : a ≠ .reloadError
  parses : ∀ v o w, s.pc = .reading v o → a = .reload w → Broken r s w → Broken r s v

/-! ## The invariant -/

/-- What is known where the loop stands. -/
def PcOk (r : Reloader κ) (s : Sys κ) : Pc → Prop
  | .start => s.loaded = none ∧ s.lastMod = UNIX_EPOCH
  | .ready => s.lastMod = UNIX_EPOCH ∧ (s.loaded = none ∨ Covers r s s.seen)
  | .top => Covers r s s.seen
  | .opening v => Covers r s s.seen ∧ s.seen ≤ v ∧ v ≤ s.current
  | .reading v o => Covers r s s.seen ∧ s.seen ≤ v ∧ v ≤ o ∧ o ≤ s.current
  | .sleeping v => Covers r s s.seen ∧ Covers r s v
  | .broken _ => False
  | .ended => True

structure Inv (r : Reloader κ) (s : Sys κ) : Prop where
  distinct : ∀ (i j : Nat) (a b : Version κ), s.versions[i]? = some a →
    s.versions[j]? = some b → a.modTime = b.modTime → i = j
  loaded : ∀ l, s.loaded = some l → l ≤ s.seen
  seen : s.seen < s.versions.length
  recorded : s.lastMod ≠ UNIX_EPOCH → ∃ p version, s.versions[p]? = some version
    ∧ version.modTime = s.lastMod ∧ Covers r s p
  pc : PcOk r s s.pc
  iterations : ∀ it ∈ s.iterations, it.failed = false

variable {r : Reloader κ} {s t : Sys κ}

theorem Broken.write {v : Nat} (h : Broken r s v) (version : Version κ) :
    Broken r { s with versions := s.versions ++ [version] } v := by
  obtain ⟨old, hold, hbroken⟩ := h
  refine ⟨old, ?_, hbroken⟩
  show (s.versions ++ [version])[v]? = some old
  rw [List.getElem?_append_left (List.getElem?_eq_some_iff.mp hold).1]
  exact hold

theorem Covers.write {v : Nat} (h : Covers r s v) (version : Version κ) :
    Covers r { s with versions := s.versions ++ [version] } v :=
  h.imp_right fun hbroken => hbroken.write version

theorem current_lt (h : Inv r s) : s.current < s.versions.length := by
  have hpos := h.seen
  unfold Sys.current
  omega

/-- A version that has been read is covered; what was covered stays so. -/
theorem covers_read (h : Inv r s) {w : Nat} {version : Version κ} (hw : s.seen ≤ w)
    (hread : s.versions[w]? = some version) :
    Covers r (s.read r w version.content) w
      ∧ ∀ v, Covers r s v → Covers r (s.read r w version.content) v := by
  by_cases hacc : r.accepts version.content = true
  · have hloaded : (s.read r w version.content).loaded = some w := if_pos hacc
    refine ⟨.inl ⟨w, hloaded, Nat.le_refl w⟩, fun v hv => ?_⟩
    refine hv.imp (fun hl => ?_) id
    obtain ⟨l, hl, hle⟩ := hl
    exact ⟨w, hloaded, Nat.le_trans hle (Nat.le_trans (h.loaded l hl) hw)⟩
  · have hloaded : (s.read r w version.content).loaded = s.loaded := if_neg hacc
    refine ⟨.inr ⟨version, hread, eq_false_of_ne_true hacc⟩, fun v hv => ?_⟩
    refine hv.imp (fun hl => ?_) id
    rw [hloaded]
    exact hl

theorem PcOk.write {pc : Pc} (h : PcOk r s pc) (version : Version κ) :
    PcOk r { s with versions := s.versions ++ [version] } pc := by
  have hcurrent : s.current
      ≤ (Sys.current { s with versions := s.versions ++ [version] } : Nat) := by
    show s.versions.length - 1 ≤ (s.versions ++ [version]).length - 1
    rw [List.length_append]
    omega
  cases pc with
  | start => exact h
  | ready => exact ⟨h.1, h.2.imp_right fun hc => hc.write version⟩
  | top => exact Covers.write h version
  | opening v => exact ⟨h.1.write version, h.2.1, Nat.le_trans h.2.2 hcurrent⟩
  | reading v o => exact ⟨h.1.write version, h.2.1, h.2.2.1, Nat.le_trans h.2.2.2 hcurrent⟩
  | sleeping v => exact ⟨h.1.write version, h.2.write version⟩
  | broken v => exact h
  | ended => exact h

namespace Inv

theorem init (first : Version κ) : Inv r (Sys.init first) where
  distinct i j a b hi hj _ := by
    have hi' := (List.getElem?_eq_some_iff.mp hi).1
    have hj' := (List.getElem?_eq_some_iff.mp hj).1
    have hlen : (Sys.init first).versions.length = 1 := rfl
    omega
  loaded l hl := nomatch hl
  seen := Nat.succ_pos 0
  recorded h := absurd rfl h
  pc := ⟨rfl, rfl⟩
  iterations it hit := absurd hit List.not_mem_nil

theorem write (h : Inv r s) {version : Version κ}
    (hnew : ∀ v ∈ s.versions, v.modTime ≠ version.modTime) :
    Inv r { s with versions := s.versions ++ [version] } where
  distinct i j a b hi hj htime := by
    have place {k : Nat} {c : Version κ} (hk : (s.versions ++ [version])[k]? = some c) :
        s.versions[k]? = some c ∨ k = s.versions.length ∧ c = version := by
      rcases Nat.lt_trichotomy k s.versions.length with hlt | heq | hgt
      · rw [List.getElem?_append_left hlt] at hk
        exact .inl hk
      · rw [heq, List.getElem?_concat_length] at hk
        cases hk
        exact .inr ⟨heq, rfl⟩
      · have hlen := (List.getElem?_eq_some_iff.mp hk).1
        rw [List.length_append, List.length_singleton] at hlen
        omega
    rcases place hi with hold | ⟨hlast, rfl⟩
    · rcases place hj with hold' | ⟨hlast', rfl⟩
      · exact h.distinct i j a b hold hold' htime
      · exact absurd htime (hnew a (List.mem_of_getElem? hold))
    · rcases place hj with hold | ⟨hlast', -⟩
      · exact absurd htime.symm (hnew b (List.mem_of_getElem? hold))
      · exact hlast.trans hlast'.symm
  loaded := h.loaded
  seen := by
    show s.seen < (s.versions ++ [version]).length
    rw [List.length_append]
    exact Nat.lt_of_lt_of_le h.seen (Nat.le_add_right _ _)
  recorded hmod := by
    obtain ⟨p, old, hold, htime, hcovers⟩ := h.recorded hmod
    refine ⟨p, old, ?_, htime, hcovers.write version⟩
    show (s.versions ++ [version])[p]? = some old
    rw [List.getElem?_append_left (List.getElem?_eq_some_iff.mp hold).1]
    exact hold
  pc := h.pc.write version
  iterations := h.iterations

theorem setPc (h : Inv r s) {pc : Pc} (hpc : PcOk r s pc) : Inv r { s with pc := pc } :=
  ⟨h.distinct, h.loaded, h.seen, h.recorded, hpc, h.iterations⟩

/-- A time is recorded with the version it belongs to, once that is covered. -/
theorem record (h : Inv r s) {v : Nat} {version : Version κ} {it : Iteration}
    (hv : s.versions[v]? = some version) (hseen : Covers r s s.seen) (hcovers : Covers r s v)
    (hit : it.failed = false) :
    Inv r { s with
      lastMod := version.modTime, pc := .sleeping v, iterations := s.iterations ++ [it] } where
  distinct := h.distinct
  loaded := h.loaded
  seen := h.seen
  recorded _ := ⟨v, version, hv, rfl, hcovers⟩
  pc := ⟨hseen, hcovers⟩
  iterations x hx := by
    rcases List.mem_append.mp hx with hx | hx
    · exact h.iterations x hx
    · rw [List.mem_singleton.mp hx]
      exact hit

/-- Without a reload the version is the one recorded, or the condition covers it. -/
theorem observe (h : Inv r s) {version : Version κ} (hpc : s.pc = .top)
    (hmeta : s.versions[s.current]? = some version)
    (hquiet : s.lastMod = UNIX_EPOCH → s.seen = s.current ∨ Broken r s s.current) :
    Inv r (s.observe s.current version.modTime) := by
  have hseen : Covers r s s.seen := by
    have hok := h.pc
    rw [hpc] at hok
    exact hok
  have hle : s.seen ≤ s.current := by
    have hlt := h.seen
    unfold Sys.current
    omega
  unfold Sys.observe
  by_cases hmod : s.lastMod = UNIX_EPOCH
  · rw [if_neg fun hne => hne.1 hmod]
    refine h.record hmeta hseen ?_ rfl
    rcases hquiet hmod with hlast | hbroken
    · rw [← hlast]
      exact hseen
    · exact .inr hbroken
  · by_cases hsame : version.modTime = s.lastMod
    · rw [if_neg fun hne => hne.2 hsame]
      obtain ⟨p, old, hold, htime, hcovers⟩ := h.recorded hmod
      obtain rfl := h.distinct p s.current old version hold hmeta (htime.trans hsame.symm)
      exact h.record hmeta hseen hcovers rfl
    · rw [if_pos ⟨hmod, hsame⟩]
      exact h.setPc ⟨hseen, hle, Nat.le_refl _⟩

/-- The version read covers the one observed. -/
theorem reload (h : Inv r s) {v o w : Nat} {observed version : Version κ}
    (hpc : s.pc = .reading v o) (hobserved : s.versions[v]? = some observed) (hw : o ≤ w)
    (hread : s.versions[w]? = some version) (hquiet : Broken r s w → Broken r s v) :
    Inv r ((s.read r w version.content).finish v observed.modTime false) := by
  have hok := h.pc
  rw [hpc] at hok
  obtain ⟨hseen, hsv, hvo, -⟩ := hok
  obtain ⟨hcovers, hkeep⟩ := covers_read h (by omega) hread
  have hv : Covers r (s.read r w version.content) v := by
    rcases hcovers with ⟨l, hl, hle⟩ | hbroken
    · exact .inl ⟨l, hl, by omega⟩
    · exact .inr (hquiet hbroken)
  have hmid : Inv r { s.read r w version.content with pc := .ended } := by
    refine ⟨h.distinct, fun l hl => ?_, (List.getElem?_eq_some_iff.mp hread).1, fun hmod => ?_,
      trivial, h.iterations⟩
    · have hl' : (if r.accepts version.content then some w else s.loaded) = some l := hl
      split_ifs at hl' with hacc
      · cases hl'
        exact Nat.le_refl w
      · have hold := h.loaded l hl'
        show l ≤ w
        omega
    · obtain ⟨p, old, hold, htime, hc⟩ := h.recorded hmod
      exact ⟨p, old, hold, htime, hkeep p hc⟩
  exact hmid.record hobserved hcovers hv rfl

theorem step {a : Action} (h : Inv r s) (hquiet : Quiet r s a) (hstep : Step r s a t) :
    Inv r t := by
  have hok := h.pc
  cases hstep with
  | write version hnew => exact h.write hnew
  | @load version hpc hread =>
    rw [hpc] at hok
    obtain ⟨hnone, hmod⟩ := hok
    have hle : s.seen ≤ s.current := by
      have hlt := h.seen
      unfold Sys.current
      omega
    obtain ⟨hcovers, -⟩ := covers_read h hle hread
    refine ⟨h.distinct, fun l hl => ?_, current_lt h, fun hne => absurd hmod hne,
      ⟨hmod, .inr hcovers⟩, h.iterations⟩
    have hl' : (if r.accepts version.content then some s.current else s.loaded) = some l := hl
    split_ifs at hl' with hacc
    · cases hl'
      exact Nat.le_refl _
    · rw [hnone] at hl'
      cases hl'
  | loadError hpc =>
    rw [hpc] at hok
    exact h.setPc ⟨hok.2, .inl hok.1⟩
  | spawn hpc =>
    rw [hpc] at hok
    refine h.setPc ?_
    split_ifs with hzero
    · exact trivial
    · rcases hok.2 with hnone | hcovers
      · refine absurd ?_ hzero
        unfold Sys.period
        rw [hnone]
        rfl
      · exact hcovers
  | disabled hpc hzero => exact h.setPc trivial
  | stat hpc hperiod hmeta => exact h.observe hpc hmeta (hquiet.stat rfl)
  | statError hpc hperiod => exact h.setPc trivial
  | «open» hpc =>
    rw [hpc] at hok
    exact h.setPc ⟨hok.1, hok.2.1, hok.2.2, Nat.le_refl _⟩
  | openError hpc => exact absurd rfl hquiet.opens
  | reload hpc hobserved hw hread =>
    exact h.reload hpc hobserved hw hread (hquiet.parses _ _ _ hpc rfl)
  | reloadError hpc hobserved => exact absurd rfl hquiet.reads
  | wake hpc =>
    rw [hpc] at hok
    exact h.setPc hok.1

end Inv

/-- In a run in which nothing goes wrong behind the loop's back no version is missed. -/
theorem period_reload_misses_none (r : Reloader κ) {first : Version κ}
    (h : Reaches (Step r) (Quiet r) (Sys.init first) s) : NoneMissed r s := by
  have hs := h.invariant (Inv.init first) fun t a u ht hok hstep => ht.step hok hstep
  constructor
  · rintro v (hpc | hpc)
    · have hok := hs.pc
      rw [hpc] at hok
      exact hok.2
    · have hok := hs.pc
      rw [hpc] at hok
      exact hok.elim
  · intro n it next hit _ hfailed
    rw [hs.iterations it (List.mem_of_getElem? hit)] at hfailed
    cases hfailed

/-! ### Two runs -/

/-- Contents are periods; `none` cannot be parsed. -/
def seconds : Reloader (Option Nat) :=
  { accepts := Option.isSome, period := fun content => content.getD 0 }

def firstVersion : Version (Option Nat) := { modTime := 1, content := some 60 }

def secondVersion : Version (Option Nat) := { modTime := 2, content := some 60 }

/-- Only the iterations are restricted. -/
theorem quiet_of_ne {a : Action} (hstat : a ≠ .stat) (hopen : a ≠ .openError)
    (hread : a ≠ .reloadError) (hreload : ∀ w, a ≠ .reload w) : Quiet r s a :=
  ⟨fun h => absurd h hstat, hopen, hread, fun _ _ w _ h => absurd h (hreload w)⟩

/-- The file is written after the first iteration; the second one loads it. -/
theorem period_reload_misses_none_written : ∃ s,
    Reaches (Step seconds) (Quiet seconds) (Sys.init firstVersion) s
      ∧ s.pc = .sleeping 1 ∧ s.loaded = some 1 ∧ NoneMissed seconds s := by
  have h0 : Reaches (Step seconds) (Quiet seconds) (Sys.init firstVersion) (Sys.init firstVersion) :=
    .refl
  have h1 := h0.tail (quiet_of_ne (a := .load) nofun nofun nofun nofun) (Step.load rfl rfl)
  have h2 := h1.tail (quiet_of_ne (a := .spawn) nofun nofun nofun nofun) (Step.spawn rfl)
  have h3 := h2.tail (a := .stat) ⟨fun _ _ => .inl rfl, nofun, nofun, nofun⟩
    (Step.stat rfl (by decide) rfl)
  have h4 := h3.tail (quiet_of_ne (a := .wake) nofun nofun nofun nofun) (Step.wake rfl)
  have h5 := h4.tail (quiet_of_ne (a := .write) nofun nofun nofun nofun)
    (Step.write secondVersion (by decide))
  have h6 := h5.tail (a := .stat) ⟨fun _ hmod => absurd hmod (by decide), nofun, nofun, nofun⟩
    (Step.stat rfl (by decide) rfl)
  have h7 := h6.tail (quiet_of_ne (a := .open) nofun nofun nofun nofun) (Step.open rfl)
  have h8 := h7.tail (a := .reload 1) ⟨nofun, nofun, nofun, fun v o w hpc hw hbroken => by
    cases hw
    cases hpc
    exact hbroken⟩
    (Step.reload (w := 1) rfl rfl (Nat.le_refl 1) rfl)
  exact ⟨_, h8, rfl, rfl, period_reload_misses_none seconds h8⟩

/-- The file is written between the load and the first iteration, which only records the
time. -/
theorem period_reload_misses_written : ∃ s,
    Reaches (Step seconds) anyStep (Sys.init firstVersion) s ∧ ¬ NoneMissed seconds s := by
  have h0 : Reaches (Step seconds) anyStep (Sys.init firstVersion) (Sys.init firstVersion) := .refl
  have h1 := h0.tail trivial (Step.load rfl rfl)
  have h2 := h1.tail trivial (Step.write secondVersion (by decide))
  have h3 := h2.tail trivial (Step.spawn rfl)
  have h4 := h3.tail trivial (Step.stat rfl (by decide) rfl)
  refine ⟨_, h4, fun hnone => ?_⟩
  rcases hnone.covered 1 (.inl rfl) with ⟨l, hl, hle⟩ | ⟨version, hversion, hbroken⟩
  · cases hl
    exact absurd hle (by decide)
  · cases hversion
    exact absurd hbroken (by decide)

end PeriodicReload
end RtProxy
