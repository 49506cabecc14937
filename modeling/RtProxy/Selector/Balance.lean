import Mathlib.Data.List.Infix
import Mathlib.Logic.Function.Basic
import RtProxy.Lib.Transition
import RtProxy.Selector.Group

/-!
Dead targets and the handlers that spread their requests (`forward.rs`, `remote_forward.rs`,
`relay.rs`).

A request picks a target and dials it, as often as it may retry; the requests of a handler
run side by side.  A pick loads the marks of one node after the other, and every load, every
store, the pick from what was loaded and the dial are steps of their own.
-/

namespace RtProxy
namespace Balance

open Transition

/-! ## Handlers -/

inductive Kind
  | direct (ip : Option String)
  | remote
  | relay
deriving Repr, DecidableEq

structure Handler where
  kind : Kind
  raddr : String
  retries : Nat
  balancing : Balancing
deriving DecidableEq

namespace Handler

variable (h : Handler)

def group : NodeGroup :=
  match h.kind with
  | .direct ip => (TcpDirectForwardHandler.new h.raddr ip h.balancing .empty).group
  | .remote => (TcpRemoteForwardHandler.new h.raddr .empty).group
  | .relay => Relay.RelayHandler.nodeGroup (.new h.raddr .empty)

/-- The dials of a request.  A relay server does not retry. -/
def attempts : Nat :=
  match h.kind with
  | .relay => 1
  | _ => if 0 < h.retries then h.retries else 1

/-- Where no target is available, a relay server takes the address of the request. -/
def orDefault : Except SelectError GroupNode → Except SelectError GroupNode
  | .ok n => .ok n
  | .error e => if h.kind = .relay then .ok .default else .error e

/-- What is picked from a group, and the group for the next pick.  The default node stands for the
address of the handler or, in a relay server, of the request. -/
def next (env : Surroundings) (g : NodeGroup) : Except SelectError GroupNode × NodeGroup :=
  if g.nodes = [] then (.ok .default, g) else (h.orDefault (g.next env).1, (g.next env).2)

end Handler

/-! ## Runs -/

inductive Outcome
  /-- a pick that began when the log had `since` entries -/
  | picked (id since : Nat) (now : SystemTime)
  | dialled (id : Nat)
  | timed (id : Nat) (now : SystemTime)
  | counted (id : Nat)
  | cleared (id : Nat)
  | zeroed (id : Nat)
deriving DecidableEq

/-- A pick under way: the nodes with the marks it has loaded of them, and the count of the
next one, if that is loaded. -/
structure Pick where
  env : Surroundings
  since : Nat
  loaded : List GroupNode
  count : Option UInt32

/-- `left` picks are left to the request. -/
inductive Task
  | idle
  | waiting (left : Nat)
  | picking (left : Nat) (p : Pick)
  | picked (left id : Nat)
  | dialling (left id : Nat)
  /-- `mark_dead` has stored the time -/
  | failing (left id : Nat)
  /-- `reset_dead` has cleared the time -/
  | succeeding (id : Nat)

/-- The pick of a task that is at one. -/
def Task.pick? : Task → Option Pick
  | .picking _ p => some p
  | _ => none

/-- `log` is history, the latest first. -/
structure Sys where
  group : NodeGroup
  tasks : Nat → Task
  log : List Outcome

namespace Sys

def setTask (s : Sys) (k : Nat) (task : Task) : Sys :=
  { s with tasks := Function.update s.tasks k task }

def setSelector (s : Sys) (sel : Selector) : Sys := { s with group := s.group.setSelector sel }

def change (s : Sys) (id : Nat) (f : FailMarker → FailMarker) : Sys :=
  { s with group := s.group.change id f }

def note (s : Sys) (o : Outcome) : Sys := { s with log := o :: s.log }

end Sys

inductive Action
  | request (k : Nat)
  | begin (k : Nat) (env : Surroundings)
  | loadCount (k : Nat)
  | loadTime (k : Nat)
  | pick (k : Nat)
  | dial (k : Nat)
  | failed (k : Nat) (now : SystemTime)
  | count (k : Nat)
  | succeeded (k : Nat)
  | zero (k : Nat)
  | giveUp (k : Nat)

def init (h : Handler) : Sys := ⟨h.group, fun _ => .idle, []⟩

/-- What is picked from the nodes as they were loaded. -/
def Handler.choose (h : Handler) (s : Sys) (p : Pick) : Except SelectError GroupNode × Selector :=
  ((h.next p.env { s.group with nodes := p.loaded }).1,
    (h.next p.env { s.group with nodes := p.loaded }).2.selector)

inductive Step (h : Handler) (s : Sys) : Action → Sys → Prop
  | request {k : Nat} (hk : s.tasks k = .idle) :
      Step h s (.request k) (s.setTask k (.waiting h.attempts))
  | begin {k left : Nat} {env : Surroundings} (hk : s.tasks k = .waiting (left + 1)) :
      Step h s (.begin k env) (s.setTask k (.picking left ⟨env, s.log.length, [], none⟩))
  | loadCount {k left : Nat} {p : Pick} {n : GroupNode} (hk : s.tasks k = .picking left p)
      (hcount : p.count = none) (hn : s.group.nodes[p.loaded.length]? = some n) :
      Step h s (.loadCount k)
        (s.setTask k (.picking left { p with count := some n.marker.failCount }))
  | loadTime {k left : Nat} {p : Pick} {count : UInt32} {n : GroupNode}
      (hk : s.tasks k = .picking left p) (hcount : p.count = some count)
      (hn : s.group.nodes[p.loaded.length]? = some n) :
      Step h s (.loadTime k) (s.setTask k (.picking left ⟨p.env, p.since,
        p.loaded ++ [{ n with marker := ⟨n.marker.failTime, count⟩ }], none⟩))
  | pick {k left : Nat} {p : Pick} {n : GroupNode} (hk : s.tasks k = .picking left p)
      (hall : p.loaded.length = s.group.nodes.length) (hn : (h.choose s p).1 = .ok n) :
      Step h s (.pick k) (((s.setSelector (h.choose s p).2).setTask k
        (.picked left n.id)).note (.picked n.id p.since p.env.now))
  | refused {k left : Nat} {p : Pick} {e : SelectError} (hk : s.tasks k = .picking left p)
      (hall : p.loaded.length = s.group.nodes.length) (he : (h.choose s p).1 = .error e) :
      Step h s (.pick k) ((s.setSelector (h.choose s p).2).setTask k .idle)
  | dial {k left id : Nat} (hk : s.tasks k = .picked left id) :
      Step h s (.dial k) ((s.setTask k (.dialling left id)).note (.dialled id))
  | failed {k left id : Nat} {now : SystemTime} (hk : s.tasks k = .dialling left id) :
      Step h s (.failed k now) (((s.change id (·.storeTime now.asSecs)).setTask k
        (.failing left id)).note (.timed id now))
  | count {k left id : Nat} (hk : s.tasks k = .failing left id) :
      Step h s (.count k) (((s.change id (·.countUp)).setTask k
        (.waiting left)).note (.counted id))
  | succeeded {k left id : Nat} (hk : s.tasks k = .dialling left id) :
      Step h s (.succeeded k) (((s.change id (·.storeTime 0)).setTask k
        (.succeeding id)).note (.cleared id))
  | zero {k id : Nat} (hk : s.tasks k = .succeeding id) :
      Step h s (.zero k) (((s.change id (·.zeroCount)).setTask k .idle).note (.zeroed id))
  | giveUp {k : Nat} (hk : s.tasks k = .waiting 0) : Step h s (.giveUp k) (s.setTask k .idle)

/-! ## What a run is promised -/

/-- The failures of a target that were counted since its count was last zeroed. -/
def failures (id : Nat) : List Outcome → Nat
  | [] => 0
  | .counted i :: log => if id = i then failures id log + 1 else failures id log
  | .zeroed i :: log => if id = i then 0 else failures id log
  | .picked _ _ _ :: log => failures id log
  | .dialled _ :: log => failures id log
  | .timed _ _ :: log => failures id log
  | .cleared _ :: log => failures id log

/-- The time that was stored last, unless it has been cleared since. -/
def lastFailure (id : Nat) : List Outcome → Option SystemTime
  | [] => none
  | .timed i now :: log => if id = i then some now else lastFailure id log
  | .cleared i :: log => if id = i then none else lastFailure id log
  | .picked _ _ _ :: log => lastFailure id log
  | .dialled _ :: log => lastFailure id log
  | .counted _ :: log => lastFailure id log
  | .zeroed _ :: log => lastFailure id log

/-- At every moment since the log had `since` entries. -/
def Throughout (since : Nat) (P : List Outcome → Prop) (log : List Outcome) : Prop :=
  ∀ l ∈ log.tails, since ≤ l.length → P l

/-- At some moment since then. -/
def Sometime (since : Nat) (P : List Outcome → Prop) (log : List Outcome) : Prop :=
  ∃ l ∈ log.tails, since ≤ l.length ∧ P l

instance (since : Nat) (P : List Outcome → Prop) [DecidablePred P] (log : List Outcome) :
    Decidable (Throughout since P log) :=
  inferInstanceAs (Decidable (∀ l ∈ log.tails, since ≤ l.length → P l))

section

variable (b : Balancing) (nodes : List GroupNode) (now : SystemTime) (id : Nat) (log : List Outcome)

/-- The target has failed `max_fails` times, and once at least, the last time less than
`fail_timeout` ago. -/
def Dead : Prop :=
  max 1 b.maxFails.toNat ≤ failures id log ∧
    ∃ t ∈ lastFailure id log, now.nanos < t.nanos + b.failTimeout.asNanos

/-- The target is dead, and another one has no failure on record. -/
def Avoidable : Prop := Dead b now id log ∧ ∃ n ∈ nodes, n.id ≠ id ∧ failures n.id log = 0

/-- In whole seconds the last failure is less than `fail_timeout` ago, too, and 32 bits
hold as many failures as it takes. -/
def Timely : Prop :=
  max 1 b.maxFails.toNat ≤ failures id log % 2 ^ 32 ∧ b.failTimeout.secs < 2 ^ 63 ∧
    ∃ t ∈ lastFailure id log, now.asSecs < t.asSecs + b.failTimeout.secs

instance : Decidable (Dead b now id log) := inferInstanceAs (Decidable (_ ∧ _))

instance : DecidablePred (Timely b now id) := fun _ => inferInstanceAs (Decidable (_ ∧ _ ∧ _))

instance : DecidablePred (Avoidable b nodes now id) := fun _ => inferInstanceAs (Decidable (_ ∧ _))

end

/-- No pick took a target that was dead all the while, another one having no failure on
record. -/
def Avoids (b : Balancing) (nodes : List GroupNode) : List Outcome → Prop
  | [] => True
  | .picked id since now :: log =>
    ¬ Throughout since (Avoidable b nodes now id) log ∧ Avoids b nodes log
  | .dialled _ :: log => Avoids b nodes log
  | .timed _ _ :: log => Avoids b nodes log
  | .counted _ :: log => Avoids b nodes log
  | .cleared _ :: log => Avoids b nodes log
  | .zeroed _ :: log => Avoids b nodes log

/-- Where the selector filters, the filter sees of each target to be avoided that it is dead;
where it does not, the target whose turn it is need not be avoided. -/
def AptFor (h : Handler) (s : Sys) (p : Pick) : Selector → Prop
  | .filter _ => ∀ n ∈ h.group.nodes,
      Throughout p.since (Avoidable h.balancing h.group.nodes p.env.now n.id) s.log →
        Throughout p.since (Timely h.balancing p.env.now n.id) s.log
  | .default counter => ∀ n ∈ h.group.nodes[counter.toNat % h.group.nodes.length]?,
      ¬ Throughout p.since (Avoidable h.balancing h.group.nodes p.env.now n.id) s.log

instance (h : Handler) (s : Sys) (p : Pick) : (sel : Selector) → Decidable (AptFor h s p sel)
  | .filter _ => inferInstanceAs (Decidable (∀ n ∈ h.group.nodes, _ → _))
  | .default counter => inferInstanceAs (Decidable
      (∀ n ∈ h.group.nodes[counter.toNat % h.group.nodes.length]?, _))

def Apt (h : Handler) (s : Sys) : Action → Prop
  | .pick k => ∀ p ∈ (s.tasks k).pick?, AptFor h s p s.group.selector
  | _ => True

instance (h : Handler) (s : Sys) (k : Nat) : Decidable (Apt h s (.pick k)) :=
  inferInstanceAs (Decidable (∀ p ∈ (s.tasks k).pick?, AptFor h s p s.group.selector))

/-! ## The marks -/

/-- The marks that a target has after the outcomes. -/
def markerOf (id : Nat) (log : List Outcome) : FailMarker :=
  ⟨(lastFailure id log).elim 0 SystemTime.asSecs, UInt32.ofNat (failures id log)⟩

/-- The target that an outcome is about, and what it does to its marks. -/
def Outcome.mark : Outcome → Nat × (FailMarker → FailMarker)
  | .picked id _ _ => (id, fun m => m)
  | .dialled id => (id, fun m => m)
  | .timed id now => (id, (·.storeTime now.asSecs))
  | .counted id => (id, (·.countUp))
  | .cleared id => (id, (·.storeTime 0))
  | .zeroed id => (id, (·.zeroCount))

/-- A node before anything has failed. -/
def unmarked (n : GroupNode) : GroupNode := { n with marker := .new }

/-- The marks of the group are those on record. -/
structure Marked (h : Handler) (s : Sys) : Prop where
  nodes : s.group.nodes = h.group.nodes.map fun n => { n with marker := markerOf n.id s.log }
  filters : s.group.selector.filters = h.group.selector.filters

/-- What a pick has loaded stood on record at some moment of the pick. -/
structure Fits (h : Handler) (log : List Outcome) (p : Pick) : Prop where
  since : p.since ≤ log.length
  nodes : p.loaded.map unmarked = h.group.nodes.take p.loaded.length
  loaded : ∀ n ∈ p.loaded,
    Sometime p.since (fun l => n.marker.failCount = (markerOf n.id l).failCount) log ∧
      Sometime p.since (fun l => n.marker.failTime = (markerOf n.id l).failTime) log
  count : ∀ c ∈ p.count, ∀ n ∈ h.group.nodes[p.loaded.length]?,
    Sometime p.since (fun l => c = (markerOf n.id l).failCount) log

/-- The marks are those on record, and every pick under way fits. -/
structure Kept (h : Handler) (s : Sys) : Prop where
  marked : Marked h s
  fits : ∀ k, ∀ p ∈ (s.tasks k).pick?, Fits h s.log p

section

variable {h : Handler} {s : Sys} {b : Balancing} {log : List Outcome} {now : SystemTime} {id : Nat}

/-- The marks as an outcome leaves them, those of other targets as they were. -/
theorem markerOf_cons (o : Outcome) :
    markerOf id (o :: log) = if id = o.mark.1 then o.mark.2 (markerOf id log) else markerOf id log := by
  by_cases hid : id = o.mark.1
  · rw [if_pos hid]
    cases o with
    | picked | dialled => rfl
    | timed | cleared => simp_all [markerOf, failures, lastFailure, Outcome.mark, FailMarker.storeTime]
    | counted =>
      simp_all [markerOf, failures, lastFailure, Outcome.mark, FailMarker.countUp, UInt32.ofNat_add]
    | zeroed => simp_all [markerOf, failures, lastFailure, Outcome.mark, FailMarker.zeroCount]
  · rw [if_neg hid]
    cases o with
    | picked | dialled => rfl
    | timed | counted | cleared | zeroed =>
      simp_all [markerOf, failures, lastFailure, Outcome.mark]

/-- A mark of which the count and the time were loaded while the target was dead, each of
them, is not kept. -/
theorem not_keeps {l l' : List Outcome} {m : FailMarker} (hl : Timely b now id l)
    (hl' : Timely b now id l') (hcount : m.failCount = (markerOf id l).failCount)
    (htime : m.failTime = (markerOf id l').failTime) :
    (FailFilter.new b.maxFails b.failTimeout).keeps now m = false := by
  obtain ⟨hle, -, -⟩ := hl
  obtain ⟨-, hsecs, t, ht, hlt⟩ := hl'
  have hnow := now.asSecs_lt
  have ht' : m.failTime = t.asSecs := by
    rw [htime, markerOf, Option.mem_def.mp ht]
    rfl
  have hfails : ¬ m.failCount < (FailFilter.new b.maxFails b.failTimeout).maxFails := by
    rw [hcount, markerOf, UInt32.not_lt, UInt32.le_iff_toNat_le, UInt32.toNat_ofNat']
    refine Nat.le_trans ?_ hle
    unfold FailFilter.new
    dsimp only
    split_ifs
    · exact Nat.le_max_left _ _
    · exact Nat.le_max_right _ _
  have htimeout : ¬ asI64 now.asSecs - t.asSecs ≥
      asI64 (FailFilter.new b.maxFails b.failTimeout).failTimeout.secs := by
    rw [asI64_of_lt hnow]
    unfold FailFilter.new
    dsimp only
    split_ifs with hzero
    · unfold Duration.asNanos at hzero
      have hdefault : asI64 DEFAULT_FAIL_TIMEOUT.secs = 30 := rfl
      omega
    · rw [asI64_of_lt hsecs]
      omega
  rw [FailFilter.keeps, ht', decide_eq_false_iff_not]
  exact fun hor => hor.elim hfails htimeout

/-! ## Moments -/

section

variable {since : Nat} {P Q : List Outcome → Prop} {o : Outcome}

theorem Sometime.here (hsince : since ≤ log.length) (hp : P log) : Sometime since P log :=
  ⟨log, List.mem_tails _ _ |>.mpr List.suffix_rfl, hsince, hp⟩

theorem Sometime.mono {log' : List Outcome} (hp : Sometime since P log) (hlog : log <:+ log') :
    Sometime since P log' := by
  obtain ⟨l, hl, hsince, hp⟩ := hp
  refine ⟨l, ?_, hsince, hp⟩
  rw [List.mem_tails] at hl ⊢
  exact hl.trans hlog

/-- What held at some moment met what held throughout. -/
theorem Throughout.meets (hp : Throughout since P log) (hq : Sometime since Q log) :
    ∃ l, P l ∧ Q l := by
  obtain ⟨l, hl, hsince, hq⟩ := hq
  exact ⟨l, hp l hl hsince, hq⟩

end

/-! ## The picks -/

theorem valid_unmarked (nodes : List GroupNode) :
    (valid nodes).length = (valid (nodes.map unmarked)).length := by
  rw [valid, valid, List.filter_map, List.length_map]
  rfl

/-- The nodes of a handler have not failed yet. -/
theorem unmarked_group {n : GroupNode} (hn : n ∈ h.group.nodes) : unmarked n = n := by
  have hnew : n.marker = .new := by
    unfold Handler.group at hn
    cases hkind : h.kind with
    | direct | remote | relay =>
      rw [hkind] at hn
      obtain ⟨p, -, rfl⟩ := List.mem_map.mp hn
      rfl
  rw [unmarked, ← hnew]

theorem Marked.unmarked_nodes (hinv : Marked h s) : s.group.nodes.map unmarked = h.group.nodes := by
  rw [hinv.nodes, List.map_map]
  exact (List.map_congr_left fun n hn => unmarked_group hn).trans (List.map_id _)

theorem Marked.length_nodes (hinv : Marked h s) : s.group.nodes.length = h.group.nodes.length := by
  rw [hinv.nodes, List.length_map]

/-- All nodes are loaded. -/
theorem Fits.all {p : Pick} (hfits : Fits h log p) (hinv : Marked h s)
    (hall : p.loaded.length = s.group.nodes.length) : p.loaded.map unmarked = h.group.nodes := by
  rw [hfits.nodes, hall, hinv.length_nodes, List.take_length]

theorem next_filters (h : Handler) (env : Surroundings) (g : NodeGroup) :
    (h.next env g).2.selector.filters = g.selector.filters := by
  unfold Handler.next NodeGroup.next
  split_ifs
  · rfl
  · exact g.selector.filters_select env g.nodes

theorem filters_direct {fs : FilterSelector}
    (hfs : some fs.filters = h.group.selector.filters) :
    h.kind ≠ .relay ∧ fs.filters = (FilterSelector.withFilters h.balancing.strategy
      h.balancing.maxFails h.balancing.failTimeout h.balancing.fastestCount).filters := by
  unfold Handler.group at hfs
  cases hkind : h.kind with
  | direct ip =>
    rw [hkind] at hfs
    exact ⟨nofun, Option.some.inj hfs⟩
  | remote | relay =>
    rw [hkind] at hfs
    cases hfs

/-- Without filters, the node whose turn it is is taken. -/
theorem choose_default {p : Pick} {counter : UInt64} (hall : p.loaded.map unmarked = h.group.nodes)
    (hne : h.group.nodes ≠ []) (hsel : s.group.selector = .default counter) :
    ∃ n, h.group.nodes[counter.toNat % h.group.nodes.length]? = some (unmarked n) ∧
      h.choose s p = (.ok n, .default (counter + 1)) := by
  have hlen : p.loaded.length = h.group.nodes.length := by
    rw [← hall, List.length_map]
  have hne' : p.loaded ≠ [] := by
    intro hnil
    rw [hnil] at hlen
    exact hne (List.eq_nil_of_length_eq_zero hlen.symm)
  obtain ⟨n, hn, hnext⟩ := NodeGroup.next_default (g := { s.group with nodes := p.loaded }) p.env
    hne' hsel
  refine ⟨n, ?_, ?_⟩
  · rw [← hlen, ← hall, List.getElem?_map]
    exact congrArg (Option.map unmarked) hn
  · rw [Handler.choose, Handler.next, if_neg hne', hnext]
    rfl

/-- With filters, what is taken has passed the fail filter. -/
theorem choose_filter {p : Pick} {fs : FilterSelector} {n : GroupNode}
    (hfilters : s.group.selector.filters = h.group.selector.filters)
    (htwo : 2 ≤ (valid p.loaded).length) (hsel : s.group.selector = .filter fs)
    (hn : (h.choose s p).1 = .ok n) : n ∈ p.loaded ∧
      (FailFilter.new h.balancing.maxFails h.balancing.failTimeout).keeps p.env.now n.marker =
        true := by
  rw [hsel] at hfilters
  obtain ⟨hrelay, hfs⟩ := filters_direct hfilters
  have hne : ({ s.group with nodes := p.loaded } : NodeGroup).nodes ≠ [] := by
    intro hnil
    rw [show p.loaded = [] from hnil] at htwo
    cases htwo
  have hselect : (fs.select p.env p.loaded).1 = .ok n := by
    rw [Handler.choose, Handler.next, if_neg hne, NodeGroup.next_of_ne_nil hne] at hn
    simp only [hsel, Selector.select] at hn
    cases hr : (fs.select p.env p.loaded).1 with
    | ok m =>
      rw [hr] at hn
      exact hn
    | error e =>
      rw [hr] at hn
      simp only [Handler.orDefault, if_neg hrelay] at hn
      cases hn
  have hleft := FilterSelector.select_mem_left hfs hselect
  unfold FilterSelector.left FailFilter.filter at hleft
  rw [if_neg (by omega), List.mem_filter] at hleft
  exact ⟨(mem_valid.mp hleft.1).1, hleft.2⟩

/-- A target that may be taken was not to be avoided all the while. -/
theorem Kept.not_avoidable (hinv : Kept h s) (htwo : 2 ≤ (valid h.group.nodes).length)
    {k left : Nat} {p : Pick} {n : GroupNode} (hk : s.tasks k = .picking left p)
    (hall : p.loaded.length = s.group.nodes.length) (hapt : Apt h s (.pick k))
    (hn : (h.choose s p).1 = .ok n) :
    ¬ Throughout p.since (Avoidable h.balancing h.group.nodes p.env.now n.id) s.log := by
  have hpick : p ∈ (s.tasks k).pick? := by
    rw [hk]
    rfl
  have hfits := hinv.fits k p hpick
  have hloaded := hfits.all hinv.marked hall
  have haptp := hapt p hpick
  cases hsel : s.group.selector with
  | default counter =>
    have hne : h.group.nodes ≠ [] := by
      intro hnil
      rw [hnil] at htwo
      cases htwo
    obtain ⟨m, hm, hchoose⟩ := choose_default hloaded hne hsel
    rw [hsel] at haptp
    rw [hchoose] at hn
    cases hn
    exact haptp (unmarked n) hm
  | filter fs =>
    have htwo' : 2 ≤ (valid p.loaded).length := by
      rw [valid_unmarked, hloaded]
      exact htwo
    obtain ⟨hmem, hkeeps⟩ := choose_filter hinv.marked.filters htwo' hsel hn
    obtain ⟨hcount, htime⟩ := hfits.loaded n hmem
    rw [hsel] at haptp
    intro havoid
    have hgroup : unmarked n ∈ h.group.nodes := by
      rw [← hloaded]
      exact List.mem_map_of_mem hmem
    have htimely := haptp (unmarked n) hgroup havoid
    obtain ⟨l, hl, hcount⟩ := htimely.meets hcount
    obtain ⟨l', hl', htime⟩ := htimely.meets htime
    rw [not_keeps hl hl' hcount htime] at hkeeps
    cases hkeeps

/-! ## The run -/

/-- The marks of the group and those on record change alike. -/
theorem change_nodes {g : NodeGroup} (o : Outcome)
    (hnodes : g.nodes = h.group.nodes.map fun n => { n with marker := markerOf n.id log }) :
    (g.change o.mark.1 o.mark.2).nodes =
      h.group.nodes.map fun n => { n with marker := markerOf n.id (o :: log) } := by
  unfold NodeGroup.change
  rw [hnodes, List.map_map]
  refine List.map_congr_left fun n _ => ?_
  rw [markerOf_cons]
  by_cases hid : n.id = o.mark.1
  · simp [hid]
  · simp [hid]

theorem Marked.init (h : Handler) : Marked h (init h) where
  nodes := ((List.map_congr_left fun _ hn => unmarked_group hn).trans (List.map_id _)).symm
  filters := rfl

/-- Every step keeps the marks those on record. -/
theorem Marked.step {a : Action} {t : Sys} (hinv : Marked h s) (hstep : Step h s a t) :
    Marked h t := by
  cases hstep with
  | request | begin | loadCount | loadTime | giveUp => exact ⟨hinv.nodes, hinv.filters⟩
  | pick | refused => exact ⟨hinv.nodes, (next_filters h _ _).trans hinv.filters⟩
  | dial => exact ⟨hinv.nodes, hinv.filters⟩
  | failed => exact ⟨change_nodes (.timed _ _) hinv.nodes, hinv.filters⟩
  | count => exact ⟨change_nodes (.counted _) hinv.nodes, hinv.filters⟩
  | succeeded => exact ⟨change_nodes (.cleared _) hinv.nodes, hinv.filters⟩
  | zero => exact ⟨change_nodes (.zeroed _) hinv.nodes, hinv.filters⟩

/-- A pick that fits does so when more is on record. -/
theorem Fits.mono {p : Pick} {log' : List Outcome} (hfits : Fits h log p) (hlog : log <:+ log') :
    Fits h log' p where
  since := Nat.le_trans hfits.since hlog.length_le
  nodes := hfits.nodes
  loaded n hn := ⟨(hfits.loaded n hn).1.mono hlog, (hfits.loaded n hn).2.mono hlog⟩
  count c hc n hn := (hfits.count c hc n hn).mono hlog

theorem Fits.begin {env : Surroundings} : Fits h log ⟨env, log.length, [], none⟩ where
  since := Nat.le_refl _
  nodes := rfl
  loaded := List.forall_mem_nil _
  count := fun _ hc => by cases hc

/-- The node of the group that is loaded next, as it was before anything had failed. -/
theorem Marked.next_node (hinv : Marked h s) {i : Nat} {n : GroupNode}
    (hn : s.group.nodes[i]? = some n) :
    h.group.nodes[i]? = some (unmarked n) ∧ n.marker = markerOf n.id s.log := by
  constructor
  · rw [← hinv.unmarked_nodes, List.getElem?_map, hn]
    rfl
  · have hmem := List.mem_of_getElem? hn
    rw [hinv.nodes, List.mem_map] at hmem
    obtain ⟨m, -, rfl⟩ := hmem
    rfl

theorem Fits.loadCount {p : Pick} {n : GroupNode} (hfits : Fits h s.log p) (hinv : Marked h s)
    (hn : s.group.nodes[p.loaded.length]? = some n) :
    Fits h s.log { p with count := some n.marker.failCount } where
  since := hfits.since
  nodes := hfits.nodes
  loaded := hfits.loaded
  count := by
    intro c hc m hm
    obtain ⟨hnode, hmarker⟩ := hinv.next_node hn
    have hid : m = unmarked n := Option.some.inj ((Option.mem_def.mp hm).symm.trans hnode)
    refine Sometime.here hfits.since ?_
    rw [← Option.some.inj hc, hmarker, hid]
    rfl

theorem Fits.loadTime {p : Pick} {n : GroupNode} {count : UInt32} (hfits : Fits h s.log p)
    (hinv : Marked h s) (hcount : p.count = some count)
    (hn : s.group.nodes[p.loaded.length]? = some n) :
    Fits h s.log ⟨p.env, p.since,
      p.loaded ++ [{ n with marker := ⟨n.marker.failTime, count⟩ }], none⟩ where
  since := hfits.since
  nodes := by
    obtain ⟨hnode, -⟩ := hinv.next_node hn
    rw [List.map_append, hfits.nodes, List.length_append, List.length_singleton,
      List.take_add_one, hnode]
    rfl
  loaded := by
    obtain ⟨hnode, hmarker⟩ := hinv.next_node hn
    intro m hm
    rcases List.mem_append.mp hm with hm | hm
    · exact hfits.loaded m hm
    · cases List.mem_singleton.mp hm
      have htime : n.marker.failTime = (markerOf n.id s.log).failTime :=
        congrArg FailMarker.failTime hmarker
      exact ⟨hfits.count count hcount (unmarked n) hnode, Sometime.here hfits.since htime⟩
  count := fun _ hc => by cases hc

/-- The picks under way, when one task has gone on. -/
theorem fits_update {tasks : Nat → Task} {log' : List Outcome} {k : Nat} {task : Task}
    (hfits : ∀ k, ∀ p ∈ (tasks k).pick?, Fits h log p) (hlog : log <:+ log')
    (htask : ∀ p ∈ task.pick?, Fits h log' p) :
    ∀ i, ∀ p ∈ (Function.update tasks k task i).pick?, Fits h log' p := by
  intro i p hp
  by_cases hi : i = k
  · rw [hi, Function.update_self] at hp
    exact htask p hp
  · rw [Function.update_of_ne hi] at hp
    exact (hfits i p hp).mono hlog

theorem Kept.step {a : Action} {t : Sys} (hinv : Kept h s) (hstep : Step h s a t) :
    Kept h t := by
  refine ⟨hinv.marked.step hstep, ?_⟩
  have hnone {log : List Outcome} : ∀ p ∈ (none : Option Pick), Fits h log p :=
    fun p hp => by cases hp
  have hgrown (o : Outcome) : s.log <:+ o :: s.log := List.suffix_cons o s.log
  cases hstep with
  | request | refused | giveUp => exact fits_update hinv.fits List.suffix_rfl hnone
  | pick | dial | failed | count | succeeded | zero =>
    exact fits_update hinv.fits (hgrown _) hnone
  | begin =>
    refine fits_update hinv.fits List.suffix_rfl ?_
    intro p hp
    cases Option.some.inj hp
    exact .begin
  | loadCount hk hcount hn =>
    refine fits_update hinv.fits List.suffix_rfl ?_
    intro p hp
    cases Option.some.inj hp
    exact (hinv.fits _ _ (congrArg Task.pick? hk)).loadCount hinv.marked hn
  | loadTime hk hcount hn =>
    refine fits_update hinv.fits List.suffix_rfl ?_
    intro p hp
    cases Option.some.inj hp
    exact (hinv.fits _ _ (congrArg Task.pick? hk)).loadTime hinv.marked hcount hn

theorem avoids_step (htwo : 2 ≤ (valid h.group.nodes).length) {a : Action} {t : Sys}
    (hinv : Kept h s) (havoids : Avoids h.balancing h.group.nodes s.log) (hapt : Apt h s a)
    (hstep : Step h s a t) : Avoids h.balancing h.group.nodes t.log := by
  cases hstep with
  | pick hk hall hn => exact ⟨hinv.not_avoidable htwo hk hall hapt hn, havoids⟩
  | request | begin | loadCount | loadTime | refused | dial | failed | count | succeeded | zero
  | giveUp => exact havoids

/-- No run takes a target that is dead all through the pick while another one has no failure
on record, if the filter sees that the targets are dead or, without one, their turn does not
come. -/
theorem avoids_of_apt (h : Handler) (htwo : 2 ≤ (valid h.group.nodes).length) {s : Sys}
    (hrun : Reaches (Step h) (Apt h) (Balance.init h) s) :
    Avoids h.balancing h.group.nodes s.log := by
  have hkept : Kept h s ∧ Avoids h.balancing h.group.nodes s.log := by
    refine hrun.invariant (I := fun s => Kept h s ∧ Avoids h.balancing h.group.nodes s.log)
      ⟨⟨Marked.init h, fun _ _ hp => by cases hp⟩, trivial⟩ ?_
    intro t a u hinv hapt hstep
    exact ⟨hinv.1.step hstep, avoids_step htwo hinv.1 hinv.2 hapt hstep⟩
  exact hkept.2

/-! ## Turns -/

/-- The targets that were taken, in order. -/
def picks : List Outcome → List Nat
  | [] => []
  | .picked id _ _ :: log => picks log ++ [id]
  | .dialled _ :: log => picks log
  | .timed _ _ :: log => picks log
  | .counted _ :: log => picks log
  | .cleared _ :: log => picks log
  | .zeroed _ :: log => picks log

/-- The targets of a group in turn, numbered from one on; the turns are counted in 64 bits. -/
def turns (targets k : Nat) : List Nat := (List.range k).map fun i => i % 2 ^ 64 % targets + 1

theorem turns_succ (targets k : Nat) :
    turns targets (k + 1) = turns targets k ++ [k % 2 ^ 64 % targets + 1] := by
  rw [turns, List.range_succ, List.map_append]
  rfl

theorem id_of_numbered {nodes : List Node} {i : Nat} {n : GroupNode}
    (h : (numbered nodes)[i]? = some n) : n.id = i + 1 := by
  unfold numbered at h
  rw [List.getElem?_map, List.getElem?_zipIdx] at h
  cases hi : nodes[i]? with
  | none =>
    rw [hi] at h
    cases h
  | some node =>
    rw [hi] at h
    cases h
    simp

/-- The groups without filters. -/
theorem group_unfiltered (hkind : ∀ ip, h.kind ≠ .direct ip) :
    ∃ nodes, h.group = NodeGroup.new (numbered nodes) := by
  unfold Handler.group
  cases hk : h.kind with
  | direct ip => exact absurd hk (hkind ip)
  | remote | relay => exact ⟨_, rfl⟩

/-- The counter of the group has counted the picks, which took turns. -/
structure InTurn (h : Handler) (s : Sys) : Prop where
  kept : Kept h s
  counter : s.group.selector = .default (UInt64.ofNat (picks s.log).length)
  turns : picks s.log = turns h.group.nodes.length (picks s.log).length

/-- Whose turn it is. -/
theorem InTurn.choose (hinv : InTurn h s) (hkind : ∀ ip, h.kind ≠ .direct ip)
    (hne : h.group.nodes ≠ []) {k left : Nat} {p : Pick} (hk : s.tasks k = .picking left p)
    (hall : p.loaded.length = s.group.nodes.length) : ∃ n,
      n.id = (picks s.log).length % 2 ^ 64 % h.group.nodes.length + 1 ∧
        h.choose s p = (.ok n, .default (UInt64.ofNat ((picks s.log).length + 1))) := by
  have hfits := hinv.kept.fits k p (congrArg Task.pick? hk)
  obtain ⟨n, hn, hchoose⟩ := choose_default (hfits.all hinv.kept.marked hall) hne hinv.counter
  refine ⟨n, ?_, ?_⟩
  · obtain ⟨nodes, hgroup⟩ := group_unfiltered hkind
    rw [hgroup] at hn ⊢
    have hid := id_of_numbered hn
    rw [UInt64.toNat_ofNat'] at hid
    exact hid
  · rw [hchoose, UInt64.ofNat_add]
    rfl

theorem InTurn.init (hkind : ∀ ip, h.kind ≠ .direct ip) : InTurn h (init h) := by
  obtain ⟨nodes, hgroup⟩ := group_unfiltered hkind
  refine ⟨⟨Marked.init h, fun _ _ hp => by cases hp⟩, ?_, rfl⟩
  show h.group.selector = _
  rw [hgroup]
  rfl

theorem InTurn.step (hkind : ∀ ip, h.kind ≠ .direct ip) (hne : h.group.nodes ≠ []) {a : Action}
    {t : Sys} (hinv : InTurn h s) (hstep : Step h s a t) : InTurn h t := by
  have hkept := hinv.kept.step hstep
  cases hstep with
  | request | begin | loadCount | loadTime | dial | failed | count | succeeded | zero | giveUp =>
    exact ⟨hkept, hinv.counter, hinv.turns⟩
  | @pick k left p n hk hall hn =>
    obtain ⟨m, hm, hchoose⟩ := hinv.choose hkind hne hk hall
    rw [hchoose] at hn hkept ⊢
    cases hn
    refine ⟨hkept, ?_, ?_⟩
    · show Selector.default _ = .default (UInt64.ofNat (picks s.log ++ [n.id]).length)
      rw [List.length_append]
      rfl
    · show picks s.log ++ [n.id] = Balance.turns _ (picks s.log ++ [n.id]).length
      rw [List.length_append, List.length_singleton, turns_succ, ← hinv.turns, hm]
  | refused hk hall he =>
    obtain ⟨m, -, hchoose⟩ := hinv.choose hkind hne hk hall
    rw [hchoose] at he
    cases he

/-- In a remote forwarder and in a relay server with targets the picks of all requests take
turns, whatever has failed. -/
theorem picks_take_turns (h : Handler) (hkind : ∀ ip, h.kind ≠ .direct ip)
    (hne : h.group.nodes ≠ []) {s : Sys}
    (hrun : Reaches (Step h) anyStep (Balance.init h) s) :
    picks s.log = turns h.group.nodes.length (picks s.log).length := by
  have hkept : InTurn h s := by
    refine hrun.invariant (InTurn.init hkind) ?_
    intro t a u hinv _ hstep
    exact hinv.step hkind hne hstep
  exact hkept.turns

/-- Both loads of one node, with nothing between them. -/
theorem load_node {ok : Sys → Action → Prop} {k left : Nat} {p : Pick} {n : GroupNode}
    (hrun : Reaches (Step h) ok (Balance.init h) s)
    (hok : ok s (.loadCount k) ∧ ok (s.setTask k (.picking left { p with
      count := some n.marker.failCount })) (.loadTime k))
    (hk : s.tasks k = .picking left p) (hcount : p.count = none)
    (hn : s.group.nodes[p.loaded.length]? = some n) :
    Reaches (Step h) ok (Balance.init h)
      (s.setTask k (.picking left ⟨p.env, p.since, p.loaded ++ [n], none⟩)) := by
  have hcounted := hrun.tail hok.1 (.loadCount hk hcount hn)
  have hloaded := hcounted.tail hok.2 (.loadTime (Function.update_self k _ s.tasks) rfl hn)
  simp only [Sys.setTask, Function.update_idem] at hloaded
  exact hloaded

end

/-- `a:1` and `b:2`. -/
def twoTargets (kind : Kind) : Handler where
  kind := kind
  raddr := "a:1,b:2"
  retries := 0
  balancing := ⟨"round", 1, DEFAULT_FAIL_TIMEOUT, 0⟩

def noon : Surroundings := FilterSelector.noon

/-- A request whose dial fails, and one more. -/
theorem direct_avoids : Avoids (twoTargets (.direct none)).balancing
    (twoTargets (.direct none)).group.nodes
    [.picked 2 4 noon.now, .counted 1, .timed 1 noon.now, .dialled 1, .picked 1 0 noon.now] := by
  have h₁ : Reaches (Step (twoTargets (.direct none))) (Apt (twoTargets (.direct none)))
      (init (twoTargets (.direct none))) _ := .refl
  have h₂ := h₁.tail (a := Action.request 0) trivial (.request rfl)
  have h₃ := h₂.tail (a := Action.begin 0 noon) trivial (.begin rfl)
  have h₄ := load_node (k := 0) h₃ ⟨trivial, trivial⟩ rfl rfl rfl
  have h₅ := load_node (k := 0) h₄ ⟨trivial, trivial⟩ rfl rfl rfl
  have h₆ := h₅.tail (a := Action.pick 0) (by decide) (.pick rfl rfl rfl)
  have h₇ := h₆.tail (a := Action.dial 0) trivial (.dial rfl)
  have h₈ := h₇.tail (a := Action.failed 0 noon.now) trivial (.failed rfl)
  have h₉ := h₈.tail (a := Action.count 0) trivial (.count rfl)
  have h₁₀ := h₉.tail (a := Action.giveUp 0) trivial (.giveUp rfl)
  have h₁₁ := h₁₀.tail (a := Action.request 0) trivial (.request rfl)
  have h₁₂ := h₁₁.tail (a := Action.begin 0 noon) trivial (.begin rfl)
  have h₁₃ := load_node (k := 0) h₁₂ ⟨trivial, trivial⟩ rfl rfl rfl
  have h₁₄ := load_node (k := 0) h₁₃ ⟨trivial, trivial⟩ rfl rfl rfl
  have h₁₅ := h₁₄.tail (a := Action.pick 0) (by decide) (.pick rfl rfl rfl)
  exact avoids_of_apt (twoTargets (.direct none)) (by decide) h₁₅

/-- Two requests pick before either dials, and the second one dials first.  Then it is the
turn of the target that has failed. -/
theorem remote_picks_dead : ∃ s, Reaches (Step (twoTargets .remote)) anyStep
    (init (twoTargets .remote)) s ∧ picks s.log = turns 2 3 ∧
      ¬ Avoids (twoTargets .remote).balancing (twoTargets .remote).group.nodes s.log := by
  have h₁ : Reaches (Step (twoTargets .remote)) anyStep (init (twoTargets .remote)) _ := .refl
  have h₂ := h₁.tail (a := Action.request 0) trivial (.request rfl)
  have h₃ := h₂.tail (a := Action.begin 0 noon) trivial (.begin rfl)
  have h₄ := load_node (k := 0) h₃ ⟨trivial, trivial⟩ rfl rfl rfl
  have h₅ := load_node (k := 0) h₄ ⟨trivial, trivial⟩ rfl rfl rfl
  have h₆ := h₅.tail (a := Action.request 1) trivial (.request rfl)
  have h₇ := h₆.tail (a := Action.begin 1 noon) trivial (.begin rfl)
  have h₈ := load_node (k := 1) h₇ ⟨trivial, trivial⟩ rfl rfl rfl
  have h₉ := load_node (k := 1) h₈ ⟨trivial, trivial⟩ rfl rfl rfl
  have h₁₀ := h₉.tail (a := Action.pick 0) trivial (.pick rfl rfl rfl)
  have h₁₁ := h₁₀.tail (a := Action.pick 1) trivial (.pick rfl rfl rfl)
  have h₁₂ := h₁₁.tail (a := Action.dial 1) trivial (.dial rfl)
  have h₁₃ := h₁₂.tail (a := Action.dial 0) trivial (.dial rfl)
  have h₁₄ := h₁₃.tail (a := Action.failed 0 noon.now) trivial (.failed rfl)
  have h₁₅ := h₁₄.tail (a := Action.count 0) trivial (.count rfl)
  have h₁₆ := h₁₅.tail (a := Action.request 2) trivial (.request rfl)
  have h₁₇ := h₁₆.tail (a := Action.begin 2 noon) trivial (.begin rfl)
  have h₁₈ := load_node (k := 2) h₁₇ ⟨trivial, trivial⟩ rfl rfl rfl
  have h₁₉ := load_node (k := 2) h₁₈ ⟨trivial, trivial⟩ rfl rfl rfl
  have h₂₀ := h₁₉.tail (a := Action.pick 2) trivial (.pick rfl rfl rfl)
  refine ⟨_, h₂₀, ?_, fun havoids => havoids.1 ?_⟩
  · exact picks_take_turns (twoTargets .remote) nofun (by decide) h₂₀
  · show Throughout 6 (Avoidable (twoTargets .remote).balancing (twoTargets .remote).group.nodes
      noon.now 1) [.counted 1, .timed 1 noon.now, .dialled 1, .dialled 2,
        .picked 2 0 noon.now, .picked 1 0 noon.now]
    decide

end Balance
end RtProxy
