import RtProxy.Lib.Transition
import RtProxy.Server.Transport

/-!
The accept loops of the listeners, and how they end.

A loop starts a task for each connection it accepts, and ends when its token is cancelled.  It
returns when no task is left, or when a timeout has passed if it has one.  A handler is dropped
at the cancellation wherever it stands, but what a task does before and after its handler is
not: a handshake with the client goes on, and a session that reports its end waits for room in
a channel that the loop alone reads.
-/

namespace RtProxy
namespace Serving

open Transition Relation

/-- What a task does with the client before the handler has the connection. -/
inductive Handshake
  | none
  /-- until a timeout -/
  | limited
  | unlimited
deriving Repr, DecidableEq

/-- How a listener serves. -/
structure Loop where
  /-- the loop sleeps after an accept that has failed -/
  backoff : Bool
  handshake : Handshake
  /-- handlers start tasks for the streams of their connection -/
  streams : Bool
  /-- how many reports of ended sessions wait for the loop at most, if they are reported -/
  reports : Option Nat
  /-- the wait for the tasks has a timeout -/
  drainTimeout : Bool
  /-- what is accepted from may end by itself -/
  stops : Bool
deriving Repr, DecidableEq

namespace Loop

/-- `Server`. -/
def server : Loop where
  backoff := true
  handshake := .none
  streams := false
  reports := none
  drainTimeout := true
  stops := false

/-- `TlsServer`, which does not limit the TLS handshake. -/
def tlsServer : Loop where
  backoff := true
  handshake := .unlimited
  streams := false
  reports := none
  drainTimeout := false
  stops := false

/-- `WsServer`, for `ws` and `wss`. -/
def wsServer : Loop where
  backoff := true
  handshake := .limited
  streams := false
  reports := none
  drainTimeout := false
  stops := false

/-- `MuxServer`, which puts TLS in front of the handler like `TlsServer`. -/
def muxServer (tls : Bool) : Loop where
  backoff := true
  handshake := if tls then .unlimited else .none
  streams := true
  reports := none
  drainTimeout := false
  stops := false

/-- `KcpListener`. -/
def kcpListener : Loop where
  backoff := false
  handshake := .none
  streams := true
  reports := some 64
  drainTimeout := false
  stops := false

/-- `QuicServer`, which leaves the handshake to quinn; `quinn` tells what becomes of one
whose client has gone silent. -/
def quicServer (quinn : Handshake) : Loop where
  backoff := false
  handshake := quinn
  streams := true
  reports := none
  drainTimeout := false
  stops := true

/-- `UdpServer`. -/
def udpServer : Loop where
  backoff := false
  handshake := .none
  streams := false
  reports := none
  drainTimeout := true
  stops := true

/-- The arms of `run_server`: transports, and how their listener serves. -/
def arms (quinn : Handshake) : List (List String × Loop) := [
  (["", "tcp", "ssh", "rtcp", "dns", "redu"], server),
  (["tls"], tlsServer),
  (["kcp"], kcpListener),
  (["quic"], quicServer quinn),
  (["mtls", "mwss"], muxServer true),
  (["mws"], muxServer false),
  (["ohttp", "otls"], server),
  (["http2"], tlsServer),
  (["h2"], tlsServer),
  (["h2c"], server),
  (["ws", "wss"], wsServer),
  (["udp", "rudp"], udpServer)]

def ofTransport (quinn : Handshake) (transport : String) : Option Loop :=
  ((arms quinn).find? fun arm => transport ∈ arm.1).map Prod.snd

end Loop

/-! ## States -/

inductive Phase
  | accepting
  | sleeping
  | draining
  | returned
deriving Repr, DecidableEq

inductive Task
  /-- in the handshake -/
  | shaking
  /-- in the handler -/
  | handling
  /-- in the handler, for a stream of a connection -/
  | stream
  /-- telling the loop of its end -/
  | reporting
  | ended
deriving Repr, DecidableEq

structure State where
  phase : Phase
  /-- `temp_delay`, in milliseconds -/
  delay : Nat
  /-- the token of the process -/
  interrupted : Bool
  /-- the token of the server -/
  cancelled : Bool
  tasks : List Task
  /-- the reports in the channel -/
  reports : Nat
deriving Repr, DecidableEq

def State.new : State where
  phase := .accepting
  delay := 0
  interrupted := false
  cancelled := false
  tasks := []
  reports := 0

/-- The delay after another accept that has failed. -/
def nextDelay (delay : Nat) : Nat := min (if delay = 0 then 5 else delay * 2) 1000

/-- Where a task starts. -/
def Loop.first (loop : Loop) : Task := if loop.handshake = .none then .handling else .shaking

/-- Where a task goes from its handler. -/
def Loop.after (loop : Loop) : Task → Task
  | .handling => if loop.reports = none then .ended else .reporting
  | _ => .ended

inductive Action
  | interrupt
  | accept
  | refuse
  | stop
  | shake (i : Nat) (ok : Bool)
  | finish (i : Nat)
  | spawn (i : Nat)
  | forward
  | notice
  | wake
  | expire (i : Nat)
  | drop (i : Nat)
  | report (i : Nat)
  | collect
  | drained
  | timeout
deriving Repr, DecidableEq

/-- What happens without a client, a handler or the operator. -/
def Action.own : Action → Bool
  | .forward | .notice | .wake | .expire _ | .drop _ | .report _ | .collect | .drained
  | .timeout => true
  | _ => false

/-- What can happen to a listener. -/
inductive Step (loop : Loop) (s : State) : Action → State → Prop
  | interrupt : Step loop s .interrupt { s with interrupted := true }
  | accept (h : s.phase = .accepting) :
      Step loop s .accept { s with delay := 0, tasks := s.tasks ++ [loop.first] }
  | refuse (h : s.phase = .accepting) (hb : loop.backoff = true) :
      Step loop s .refuse { s with phase := .sleeping, delay := nextDelay s.delay }
  | stop (h : s.phase = .accepting) (hs : loop.stops = true) :
      Step loop s .stop { s with phase := .draining }
  | shake {i : Nat} (ok : Bool) (h : s.tasks[i]? = some .shaking) :
      Step loop s (.shake i ok)
        { s with tasks := s.tasks.set i (if ok then .handling else .ended) }
  | finish {i : Nat} {t : Task} (h : s.tasks[i]? = some t) (ht : t = .handling ∨ t = .stream) :
      Step loop s (.finish i) { s with tasks := s.tasks.set i (loop.after t) }
  | spawn {i : Nat} (h : s.tasks[i]? = some .handling) (hs : loop.streams = true) :
      Step loop s (.spawn i) { s with tasks := s.tasks ++ [.stream] }
  -- the task that `run_server` starts beside the server
  | forward (h : s.interrupted = true) (hnot : s.cancelled = false) :
      Step loop s .forward { s with cancelled := true }
  | notice (h : s.phase = .accepting) (hc : s.cancelled = true) :
      Step loop s .notice { s with phase := .draining }
  | wake (h : s.phase = .sleeping) : Step loop s .wake { s with phase := .accepting }
  | expire {i : Nat} (h : s.tasks[i]? = some .shaking) (hl : loop.handshake = .limited) :
      Step loop s (.expire i) { s with tasks := s.tasks.set i .ended }
  | drop {i : Nat} {t : Task} (h : s.tasks[i]? = some t) (ht : t = .handling ∨ t = .stream)
      (hc : s.cancelled = true) :
      Step loop s (.drop i) { s with tasks := s.tasks.set i (loop.after t) }
  | report {i : Nat} (h : s.tasks[i]? = some .reporting)
      (hroom : ∀ cap, loop.reports = some cap → s.reports < cap) :
      Step loop s (.report i)
        { s with tasks := s.tasks.set i .ended, reports := s.reports + 1 }
  | collect (h : s.phase = .accepting) (hpos : 0 < s.reports) :
      Step loop s .collect { s with reports := s.reports - 1 }
  | drained (h : s.phase = .draining) (hall : ∀ t ∈ s.tasks, t = .ended) :
      Step loop s .drained { s with phase := .returned }
  | timeout (h : s.phase = .draining) (hd : loop.drainTimeout = true) :
      Step loop s .timeout { s with phase := .returned }

/-- The listener goes on by itself. -/
def Moves (loop : Loop) (s t : State) : Prop := ∃ a : Action, a.own = true ∧ Step loop s a t

/-! ## Sums over the tasks -/

def total (w : Task → Nat) (tasks : List Task) : Nat := (tasks.map w).sum

section total

variable {w : Task → Nat} {tasks : List Task} {i : Nat} {t : Task}

theorem total_set (h : tasks[i]? = some t) (u : Task) :
    total w (tasks.set i u) + w t = total w tasks + w u := by
  induction tasks generalizing i with
  | nil => cases h
  | cons first tasks ih =>
    cases i with
    | zero =>
      cases h
      simp only [total, List.set_cons_zero, List.map_cons, List.sum_cons]
      omega
    | succ i =>
      have hrest := ih (i := i) h
      simp only [total, List.set_cons_succ, List.map_cons, List.sum_cons] at hrest ⊢
      omega

theorem le_total (h : tasks[i]? = some t) : w t ≤ total w tasks := by
  have hmem : w t ∈ tasks.map w := List.mem_map_of_mem (List.mem_of_getElem? h)
  exact List.le_sum_of_mem hmem

theorem total_eq_zero (h : ∀ t ∈ tasks, w t = 0) : total w tasks = 0 := by
  rw [total, List.sum_eq_zero_iff]
  intro n hn
  obtain ⟨t, ht, rfl⟩ := List.mem_map.mp hn
  exact h t ht

end total

/-! ## It cannot go on for ever -/

def Phase.weight : Phase → Nat
  | .sleeping => 3
  | .accepting => 2
  | .draining => 1
  | .returned => 0

def Task.weight : Task → Nat
  | .shaking | .handling => 3
  | .reporting => 2
  | .stream => 1
  | .ended => 0

def State.weight (s : State) : Nat :=
  s.phase.weight + (if s.cancelled then 0 else 1) + total Task.weight s.tasks + s.reports

section

variable {loop : Loop} {s t : State}

theorem weight_after {u : Task} (hu : u = .handling ∨ u = .stream) :
    (loop.after u).weight < u.weight := by
  rcases hu with rfl | rfl
  · simp only [Loop.after]
    split_ifs <;> decide
  · exact Nat.zero_lt_one

theorem weight_lt (s t : State) (h : Moves loop s t) : t.weight < s.weight := by
  obtain ⟨a, hown, hstep⟩ := h
  cases hstep with
  | interrupt | accept | refuse | stop | shake | finish | spawn => cases hown
  | forward _ hnot => simp [State.weight, hnot]
  | notice hphase _ | wake hphase | drained hphase _ | timeout hphase _ =>
    simp [State.weight, hphase, Phase.weight]
  | collect _ hpos =>
    simp only [State.weight]
    omega
  | expire hshaking _ =>
    have hsum := total_set (w := Task.weight) hshaking .ended
    simp only [State.weight, Task.weight] at hsum ⊢
    omega
  | @drop i u hu hor _ =>
    have hsum := total_set (w := Task.weight) hu (loop.after u)
    have hlt := @weight_after loop _ hor
    simp only [State.weight]
    omega
  | report hreporting _ =>
    have hsum := total_set (w := Task.weight) hreporting .ended
    simp only [State.weight, Task.weight] at hsum ⊢
    omega

/-! ## What holds in every state -/

/-- A session that has not told the loop of its end. -/
def Task.unreported : Task → Nat
  | .handling | .reporting => 1
  | _ => 0

/-- How many reports there are going to be, with those in the channel. -/
def State.due (s : State) : Nat := s.reports + total Task.unreported s.tasks

structure Sound (loop : Loop) (s : State) : Prop where
  returned : s.phase = .returned → loop.drainTimeout = true ∨ ∀ t ∈ s.tasks, t = .ended
  room : ∀ cap, loop.reports = some cap → s.reports ≤ cap
  shakes : loop.handshake = .none → .shaking ∉ s.tasks
  delay : s.delay ≤ 1000

theorem sound_new (loop : Loop) : Sound loop .new :=
  ⟨fun h => (by cases h), fun _ _ => Nat.zero_le _, fun _ => List.not_mem_nil, Nat.zero_le _⟩

theorem mem_set {tasks : List Task} {i : Nat} {t u : Task} (h : t ∈ tasks.set i u) (hne : t ≠ u) :
    t ∈ tasks :=
  (List.mem_or_eq_of_mem_set h).resolve_right hne

theorem first_ne_shaking (h : loop.handshake = .none) : loop.first ≠ .shaking := by
  rw [Loop.first, if_pos h]
  decide

theorem after_ne_shaking (u : Task) : loop.after u ≠ .shaking := by
  cases u with
  | handling =>
    simp only [Loop.after]
    split_ifs <;> decide
  | shaking | stream | reporting | ended => exact (by decide : Task.ended ≠ .shaking)

/-- A task that has not ended is not in a listener that has returned, without a timeout. -/
theorem Sound.not_returned (hs : Sound loop s) {i : Nat} {t : Task} (h : s.tasks[i]? = some t)
    (hne : t ≠ .ended) : s.phase = .returned → loop.drainTimeout = true := by
  intro hphase
  exact (hs.returned hphase).resolve_right fun hall => hne (hall t (List.mem_of_getElem? h))

/-- A task moves on, or there is one more. -/
theorem Sound.tasks (hs : Sound loop s) {tasks : List Task} {n : Nat}
    (hphase : s.phase = .returned → loop.drainTimeout = true)
    (hroom : ∀ cap, loop.reports = some cap → n ≤ cap)
    (hshakes : loop.handshake = .none → .shaking ∉ tasks) :
    Sound loop { s with tasks := tasks, reports := n } :=
  ⟨fun h => .inl (hphase h), hroom, hshakes, hs.delay⟩

theorem sound_step (hs : Sound loop s) {a : Action} (h : Step loop s a t) : Sound loop t := by
  have hset {i : Nat} {u : Task} (hu : u ≠ .shaking) :
      loop.handshake = .none → .shaking ∉ s.tasks.set i u :=
    fun hnone hmem => hs.shakes hnone (mem_set hmem hu.symm)
  cases h with
  | interrupt | forward => exact ⟨hs.returned, hs.room, hs.shakes, hs.delay⟩
  | accept hphase =>
    refine ⟨fun hret => ?_, hs.room, fun hnone hmem => ?_, Nat.zero_le _⟩
    · rw [hphase] at hret
      cases hret
    · rcases List.mem_append.mp hmem with hold | hnew
      · exact hs.shakes hnone hold
      · exact first_ne_shaking hnone (List.mem_singleton.mp hnew).symm
  | refuse => exact ⟨fun h => (by cases h), hs.room, hs.shakes, Nat.min_le_right ..⟩
  | stop | notice | wake => exact ⟨fun h => (by cases h), hs.room, hs.shakes, hs.delay⟩
  | shake ok hshaking =>
    refine hs.tasks (hs.not_returned hshaking (by decide)) hs.room (hset ?_)
    cases ok <;> decide
  | finish hu hor | drop hu hor =>
    refine hs.tasks (hs.not_returned hu ?_) hs.room (hset (after_ne_shaking _))
    rcases hor with rfl | rfl <;> decide
  | spawn hu =>
    refine hs.tasks (hs.not_returned hu (by decide)) hs.room fun hnone hmem => ?_
    rcases List.mem_append.mp hmem with hold | hnew
    · exact hs.shakes hnone hold
    · cases List.mem_singleton.mp hnew
  | expire hu => exact hs.tasks (hs.not_returned hu (by decide)) hs.room (hset (by decide))
  | report hu hroom =>
    exact hs.tasks (hs.not_returned hu (by decide)) (fun cap hcap => hroom cap hcap)
      (hset (by decide))
  | collect _ hpos =>
    refine ⟨hs.returned, fun cap hcap => ?_, hs.shakes, hs.delay⟩
    have := hs.room cap hcap
    show s.reports - 1 ≤ cap
    omega
  | drained _ hall => exact ⟨fun _ => .inr hall, hs.room, hs.shakes, hs.delay⟩
  | timeout _ hd => exact ⟨fun _ => .inl hd, hs.room, hs.shakes, hs.delay⟩

theorem sound (h : Reaches (Step loop) anyStep .new s) : Sound loop s :=
  h.invariant (sound_new loop) fun _ _ _ hs _ hstep => sound_step hs hstep

theorem sound_run (hs : Sound loop s) (h : ReflTransGen (Moves loop) s t) : Sound loop t := by
  induction h with
  | refl => exact hs
  | tail _ hmove ih =>
    obtain ⟨a, -, hstep⟩ := hmove
    exact sound_step ih hstep

/-! ## When a listener returns -/

/-- No client keeps a handshake open, and the channel has room for the ends of all sessions. -/
structure Free (loop : Loop) (s : State) : Prop where
  handshake : loop.handshake = .unlimited → .shaking ∉ s.tasks
  room : ∀ cap, loop.reports = some cap → s.due ≤ cap

theorem unreported_after {u : Task} (hu : u = .handling ∨ u = .stream)
    (hsome : loop.reports ≠ none) : (loop.after u).unreported = u.unreported := by
  rcases hu with rfl | rfl
  · rw [Loop.after, if_neg hsome]
    rfl
  · rfl

theorem mem_set_iff {tasks : List Task} {i : Nat} {t u x : Task} (h : tasks[i]? = some t)
    (ht : t ≠ x) (hu : u ≠ x) : x ∈ tasks.set i u ↔ x ∈ tasks := by
  refine ⟨fun hx => mem_set hx hu.symm, fun hx => ?_⟩
  obtain ⟨j, hj⟩ := List.mem_iff_getElem?.mp hx
  have hij : i ≠ j := by
    rintro rfl
    rw [h] at hj
    exact ht (Option.some.inj hj)
  exact List.mem_iff_getElem?.mpr ⟨j, by rw [List.getElem?_set_ne hij, hj]⟩

/-- The loop accepts no more. -/
def State.Closing (s : State) : Prop := s.phase = .draining ∨ s.phase = .returned

/-- What stays as a listener goes on by itself. -/
structure Onward (loop : Loop) (s t : State) : Prop where
  interrupted : s.interrupted = true → t.interrupted = true
  shaking : loop.handshake = .unlimited → (.shaking ∈ t.tasks ↔ .shaking ∈ s.tasks)
  closing : s.Closing → t.Closing
  due : loop.reports ≠ none → t.due ≤ s.due
  kept : loop.reports ≠ none → s.Closing → t.due = s.due

theorem Onward.of_due {s t : State} (hint : t.interrupted = s.interrupted)
    (hshaking : loop.handshake = .unlimited → (.shaking ∈ t.tasks ↔ .shaking ∈ s.tasks))
    (hclosing : s.Closing → t.Closing) (hdue : loop.reports ≠ none → t.due = s.due) :
    Onward loop s t :=
  ⟨fun h => hint.trans h, hshaking, hclosing, fun h => Nat.le_of_eq (hdue h), fun h _ => hdue h⟩

theorem onward_step (h : Moves loop s t) : Onward loop s t := by
  obtain ⟨a, hown, hstep⟩ := h
  cases hstep with
  | interrupt | accept | refuse | stop | shake | finish | spawn => cases hown
  | forward => exact .of_due rfl (fun _ => Iff.rfl) id fun _ => rfl
  | notice => exact .of_due rfl (fun _ => Iff.rfl) (fun _ => .inl rfl) fun _ => rfl
  | drained | timeout => exact .of_due rfl (fun _ => Iff.rfl) (fun _ => .inr rfl) fun _ => rfl
  | wake hphase =>
    refine .of_due rfl (fun _ => Iff.rfl) (fun hc => ?_) fun _ => rfl
    rcases hc with hc | hc <;> rw [hphase] at hc <;> cases hc
  | expire hu hlimited =>
    refine .of_due rfl (fun hun => ?_) id fun _ => ?_
    · rw [hlimited] at hun
      cases hun
    · have hsum := total_set (w := Task.unreported) hu .ended
      simp only [State.due, Task.unreported] at hsum ⊢
      omega
  | @drop i u hu hor _ =>
    have hne : u ≠ .shaking := by rcases hor with rfl | rfl <;> decide
    refine .of_due rfl (fun _ => mem_set_iff hu hne (after_ne_shaking u)) id fun hsome => ?_
    have hsum := total_set (w := Task.unreported) hu (loop.after u)
    rw [unreported_after hor hsome] at hsum
    simp only [State.due]
    omega
  | report hu _ =>
    refine .of_due rfl (fun _ => mem_set_iff hu (by decide) (by decide)) id fun _ => ?_
    have hsum := total_set (w := Task.unreported) hu .ended
    simp only [State.due, Task.unreported] at hsum ⊢
    omega
  | collect hphase hpos =>
    refine ⟨id, fun _ => Iff.rfl, id, fun _ => ?_, fun _ hc => ?_⟩
    · simp only [State.due]
      omega
    · rcases hc with hc | hc <;> rw [hphase] at hc <;> cases hc

theorem onward_run (h : ReflTransGen (Moves loop) s t) : Onward loop s t := by
  induction h with
  | refl => exact ⟨id, fun _ => Iff.rfl, id, fun _ => Nat.le_refl _, fun _ _ => rfl⟩
  | tail _ hmove ih =>
    have hlast := onward_step hmove
    exact ⟨fun h => hlast.interrupted (ih.interrupted h),
      fun h => (hlast.shaking h).trans (ih.shaking h), fun h => hlast.closing (ih.closing h),
      fun h => Nat.le_trans (hlast.due h) (ih.due h),
      fun h hc => (hlast.kept h (ih.closing hc)).trans (ih.kept h hc)⟩

/-- Without a client it stops only where it has returned, if nothing holds it up. -/
theorem returned_of_rests (hs : Sound loop s) (hint : s.interrupted = true)
    (hfree : loop.drainTimeout = true ∨ Free loop s) (hrun : ReflTransGen (Moves loop) s t)
    (hrests : Rests (Moves loop) t) : t.phase = .returned := by
  have hsound := sound_run hs hrun
  have honward := onward_run hrun
  have hmove {a : Action} {u : State} (hown : a.own = true) : ¬ Step loop t a u :=
    fun hstep => hrests u ⟨a, hown, hstep⟩
  have hcancelled : t.cancelled = true := by
    by_contra hnot
    exact hmove rfl (.forward (honward.interrupted hint) (eq_false_of_ne_true hnot))
  cases hphase : t.phase with
  | returned => rfl
  | accepting => exact absurd (.notice hphase hcancelled) (hmove rfl)
  | sleeping => exact absurd (.wake hphase) (hmove rfl)
  | draining =>
    rcases hfree with htimeout | hfree
    · exact absurd (.timeout hphase htimeout) (hmove rfl)
    · -- some task has not ended, and it cannot go on
      have hsome : ¬ ∀ u ∈ t.tasks, u = .ended := fun hall =>
        hmove rfl (.drained hphase hall)
      push Not at hsome
      obtain ⟨u, hu, hne⟩ := hsome
      obtain ⟨i, hi⟩ := List.mem_iff_getElem?.mp hu
      cases u with
      | ended => exact absurd rfl hne
      | handling => exact absurd (.drop hi (.inl rfl) hcancelled) (hmove rfl)
      | stream => exact absurd (.drop hi (.inr rfl) hcancelled) (hmove rfl)
      | shaking =>
        cases hkind : loop.handshake with
        | none => exact absurd hu (hsound.shakes hkind)
        | limited => exact absurd (.expire hi hkind) (hmove rfl)
        | unlimited => exact absurd ((honward.shaking hkind).mp hu) (hfree.handshake hkind)
      | reporting =>
        refine absurd (.report hi fun cap hcap => ?_) (hmove rfl)
        have hdue := honward.due (by rw [hcap]; exact Option.some_ne_none cap)
        have hroom := hfree.room cap hcap
        have hone : Task.unreported .reporting ≤ total Task.unreported t.tasks := le_total hi
        simp only [State.due, Task.unreported] at hdue hroom hone
        omega

/-- The loop can leave off accepting at once. -/
theorem exists_closing (hint : s.interrupted = true) : ∃ t, ReflTransGen (Moves loop) s t ∧
    t.Closing ∧ t.tasks = s.tasks ∧ t.reports = s.reports := by
  have hcancel : ∃ t, ReflTransGen (Moves loop) s t ∧ t.cancelled = true ∧ t.phase = s.phase ∧
      t.tasks = s.tasks ∧ t.reports = s.reports := by
    by_cases hc : s.cancelled = true
    · exact ⟨s, .refl, hc, rfl, rfl, rfl⟩
    · exact ⟨_, .single ⟨_, rfl, .forward hint (eq_false_of_ne_true hc)⟩, rfl, rfl, rfl, rfl⟩
  obtain ⟨t, hrun, hc, hphase, htasks, hreports⟩ := hcancel
  cases ht : t.phase with
  | draining => exact ⟨t, hrun, .inl ht, htasks, hreports⟩
  | returned => exact ⟨t, hrun, .inr ht, htasks, hreports⟩
  | accepting => exact ⟨_, hrun.tail ⟨_, rfl, .notice ht hc⟩, .inl rfl, htasks, hreports⟩
  | sleeping =>
    exact ⟨_, (hrun.tail ⟨_, rfl, .wake ht⟩).tail ⟨_, rfl, .notice rfl hc⟩, .inl rfl, htasks,
      hreports⟩

/-- Where it has come to rest, no handshake is going on and all ends have been reported. -/
theorem free_of_settles (hs : Sound loop s) (hint : s.interrupted = true)
    (htimeout : loop.drainTimeout = false)
    (h : Settles (Moves loop) (fun t => t.phase = .returned) s) : Free loop s := by
  have hended {t : State} (hrun : ReflTransGen (Moves loop) s t) (hrests : Rests (Moves loop) t) :
      ∀ u ∈ t.tasks, u = .ended := by
    refine ((sound_run hs hrun).returned (h.of_rests hrun hrests)).resolve_left ?_
    rw [htimeout]
    exact Bool.false_ne_true
  constructor
  · intro hkind hmem
    obtain ⟨t, hrun, hrests⟩ := exists_rests (@weight_lt loop) s
    have hshaking := ((onward_run hrun).shaking hkind).mpr hmem
    cases hended hrun hrests _ hshaking
  · intro cap hcap
    have hsome : loop.reports ≠ none := by
      rw [hcap]
      exact Option.some_ne_none cap
    obtain ⟨mid, hmid, hclosing, htasks, hreports⟩ := @exists_closing loop _ hint
    obtain ⟨t, hrun, hrests⟩ := exists_rests (@weight_lt loop) mid
    have hkept := (onward_run hrun).kept hsome hclosing
    have hzero : total Task.unreported t.tasks = 0 := total_eq_zero fun u hu => by
      rw [hended (hmid.trans hrun) hrests u hu]
      rfl
    have hroom := (sound_run hs (hmid.trans hrun)).room cap hcap
    simp only [State.due, htasks, hreports] at hkept ⊢
    omega

/-- After the interruption a listener is certain to return if and only if its wait has a
timeout, or no client keeps a handshake open and there is room for the ends of all sessions. -/
theorem settles_iff_free (hs : Sound loop s) (hint : s.interrupted = true) :
    Settles (Moves loop) (fun t => t.phase = .returned) s ↔
      loop.drainTimeout = true ∨ Free loop s := by
  constructor
  · intro h
    cases htimeout : loop.drainTimeout with
    | true => exact .inl rfl
    | false => exact .inr (free_of_settles hs hint htimeout h)
  · intro hfree
    exact (settles_iff weight_lt).mpr fun _ hrun hrests =>
      returned_of_rests hs hint hfree hrun hrests

/-! ## The process -/

/-- After an interruption the process is certain to exit if and only if each of its listeners
can do without its clients: its wait has a timeout, or none of them keeps a handshake open and
there is room for the ends of all sessions. -/
theorem exits_iff {ι : Type} [Fintype ι] [DecidableEq ι] (loops : ι → Loop) {ss : ι → State}
    (hreach : ∀ i, Reaches (Step (loops i)) anyStep .new (ss i))
    (hint : ∀ i, (ss i).interrupted = true) :
    Settles (Beside fun i => Moves (loops i)) (fun ts => ∀ i, (ts i).phase = .returned) ss ↔
      ∀ i, (loops i).drainTimeout = true ∨ Free (loops i) (ss i) := by
  have hall : Settles (Beside fun i => Moves (loops i)) (fun ts => ∀ i, (ts i).phase = .returned)
      ss ↔ ∀ i, Settles (Moves (loops i)) (fun t => t.phase = .returned) (ss i) :=
    @settles_beside State ι _ (fun _ t => t.phase = .returned) (fun _ => State.weight) ss _ _
      fun i => @weight_lt (loops i)
  rw [hall]
  exact forall_congr' fun i => settles_iff_free (sound (hreach i)) (hint i)

/-- So many clients have connected, and then the process is interrupted. -/
def crowded (loop : Loop) (n : Nat) : State :=
  { State.new with interrupted := true, tasks := List.replicate n loop.first }

theorem reaches_crowded (loop : Loop) (n : Nat) :
    Reaches (Step loop) anyStep .new (crowded loop n) := by
  have hopen : ∀ n, Reaches (Step loop) anyStep .new
      { State.new with tasks := List.replicate n loop.first } := by
    intro n
    induction n with
    | zero => exact .refl
    | succ n ih =>
      have h := ih.tail (a := .accept) trivial (.accept rfl)
      rwa [← List.replicate_succ'] at h
  exact (hopen n).tail (a := .interrupt) trivial .interrupt

/-- One client over TLS that says nothing keeps the process, whatever it serves besides. -/
theorem silent_client_holds : ¬ Settles (Beside fun tls => Moves (cond tls .tlsServer .server))
    (fun ts => ∀ tls, (ts tls).phase = .returned)
    fun tls => crowded (cond tls .tlsServer .server) 1 := by
  rw [exits_iff (fun tls => cond tls .tlsServer .server) (fun _ => reaches_crowded _ 1)
    fun _ => rfl]
  intro h
  rcases h true with htimeout | hfree
  · cases htimeout
  · exact hfree.handshake rfl List.mem_cons_self

/-! ## Which listeners a client can hold up -/

/-- Whatever its clients have done, the listener returns after an interruption, once they do
nothing more. -/
def Certain (loop : Loop) : Prop :=
  ∀ s, Reaches (Step loop) anyStep .new s → s.interrupted = true →
    Settles (Moves loop) (fun t => t.phase = .returned) s

theorem certain_of_timeout (h : loop.drainTimeout = true) : Certain loop :=
  fun _ hreach hint => (settles_iff_free (sound hreach) hint).mpr (.inl h)

theorem certain_of_limited (hshake : loop.handshake ≠ .unlimited) (hreports : loop.reports = none) :
    Certain loop := by
  refine fun s hreach hint => (settles_iff_free (sound hreach) hint).mpr (.inr ⟨?_, ?_⟩)
  · exact fun h => absurd h hshake
  · intro cap hcap
    rw [hreports] at hcap
    cases hcap

theorem not_certain_of_unlimited (htimeout : loop.drainTimeout = false)
    (hshake : loop.handshake = .unlimited) : ¬ Certain loop := by
  intro h
  have hfirst : loop.first = .shaking := by
    rw [Loop.first, if_neg (by rw [hshake]; decide)]
  have hfree := free_of_settles (sound (reaches_crowded loop 1)) rfl htimeout
    (h _ (reaches_crowded loop 1) rfl)
  refine hfree.handshake hshake ?_
  rw [crowded, hfirst]
  exact List.mem_cons_self

/-- The channel is too small for one more session. -/
theorem not_certain_of_reports (htimeout : loop.drainTimeout = false)
    (hshake : loop.handshake = .none) {cap : Nat} (hcap : loop.reports = some cap) :
    ¬ Certain loop := by
  intro h
  have hfirst : loop.first = .handling := if_pos hshake
  have hfree := free_of_settles (sound (reaches_crowded loop (cap + 1))) rfl htimeout
    (h _ (reaches_crowded loop (cap + 1)) rfl)
  have hroom := hfree.room cap hcap
  simp only [State.due, crowded, State.new, hfirst, total, List.map_replicate,
    List.sum_replicate_nat, Task.unreported] at hroom
  omega

/-- The transports whose listeners clients can keep from returning. -/
def holdable (quinn : Handshake) : List String :=
  ["tls", "http2", "h2", "mtls", "mwss", "kcp"] ++ if quinn = .unlimited then ["quic"] else []

/-- In every arm, the transports that can be held up and what is wrong with their loop. -/
theorem holdable_arms (quinn : Handshake) : ∀ arm ∈ Loop.arms quinn, ∀ transport ∈ arm.1,
    if transport ∈ holdable quinn then arm.2.drainTimeout = false ∧ (arm.2.handshake = .unlimited ∨
      arm.2.handshake = .none ∧ arm.2.reports.isSome = true)
    else arm.2.drainTimeout = true ∨ arm.2.handshake ≠ .unlimited ∧ arm.2.reports = none := by
  cases quinn <;> decide +kernel

/-- Clients can keep a listener from returning exactly if the transport puts TLS in front of
the handler without a limit, or is KCP, whose sessions tell of their ends, or QUIC where
quinn never gives up a handshake. -/
theorem certain_iff {quinn : Handshake} {transport : String}
    (h : Loop.ofTransport quinn transport = some loop) :
    Certain loop ↔ transport ∉ holdable quinn := by
  obtain ⟨arm, hfind, rfl⟩ := Option.map_eq_some_iff.mp h
  have hin : transport ∈ arm.1 := by simpa using List.find?_some hfind
  have harm := holdable_arms quinn arm (List.mem_of_find?_eq_some hfind) transport hin
  by_cases hheld : transport ∈ holdable quinn
  · rw [if_pos hheld] at harm
    refine iff_of_false ?_ (not_not_intro hheld)
    obtain ⟨htimeout, hunlimited | ⟨hnone, hsome⟩⟩ := harm
    · exact not_certain_of_unlimited htimeout hunlimited
    · obtain ⟨cap, hcap⟩ := Option.isSome_iff_exists.mp hsome
      exact not_certain_of_reports htimeout hnone hcap
  · rw [if_neg hheld] at harm
    refine iff_of_true ?_ hheld
    rcases harm with htimeout | ⟨hlimited, hnone⟩
    · exact certain_of_timeout htimeout
    · exact certain_of_limited hlimited hnone

/-- Also where quinn gives handshakes up. -/
theorem kcp_not_certain : Loop.ofTransport .limited "kcp" = some .kcpListener ∧
    ¬ Certain .kcpListener := by
  have hkcp : Loop.ofTransport .limited "kcp" = some .kcpListener := by decide +kernel
  refine ⟨hkcp, ?_⟩
  rw [certain_iff hkcp, not_not]
  exact List.mem_append_left _ (by decide)

end

end Serving
end RtProxy
