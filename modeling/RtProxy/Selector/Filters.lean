import RtProxy.Chain.Dial
import RtProxy.Lib.Cut

/-!
The selection of a node (`selector.rs`, and `FailMarker` in `node.rs`).

The clones of a node share its marks, so a node of a group has a number that tells whose
marks they are.  What a selection reads besides the nodes is its `Surroundings`.
-/

namespace RtProxy

/-! ## Time -/

/-- `std::time::Duration`. -/
structure Duration where
  secs : Nat
  nanos : Nat
  secs_lt : secs < 2 ^ 64
  nanos_lt : nanos < 10 ^ 9
deriving DecidableEq

def Duration.asNanos (d : Duration) : Nat := d.secs * 10 ^ 9 + d.nanos

def Duration.ofSecs (secs : Nat) (h : secs < 2 ^ 64 := by decide) : Duration :=
  ⟨secs, 0, h, by decide⟩

/-- What the clock reads, in nanoseconds since the epoch.  A clock before the epoch reads
zero. -/
structure SystemTime where
  nanos : Nat
  nanos_lt : nanos < 2 ^ 63 * 10 ^ 9
deriving DecidableEq

def SystemTime.asSecs (t : SystemTime) : Nat := t.nanos / 10 ^ 9

/-- A cast of a `u64` to `i64`. -/
def asI64 (n : Nat) : Int := if n < 2 ^ 63 then n else n - 2 ^ 64

/-! ## Marks -/

/-- `fail_time` is a time in seconds, or zero.  The two are atomic, each by itself. -/
structure FailMarker where
  failTime : Nat
  failCount : UInt32
deriving Repr, DecidableEq

namespace FailMarker

def new : FailMarker := ⟨0, 0⟩

/-- The first store of `mark`, and with zero that of `reset`. -/
def storeTime (m : FailMarker) (secs : Nat) : FailMarker := { m with failTime := secs }

/-- The second store of `mark`. -/
def countUp (m : FailMarker) : FailMarker := { m with failCount := m.failCount + 1 }

/-- The second store of `reset`. -/
def zeroCount (m : FailMarker) : FailMarker := { m with failCount := 0 }

end FailMarker

structure GroupNode where
  id : Nat
  node : Node
  marker : FailMarker
deriving Repr, DecidableEq

/-- `Node::default`. -/
def GroupNode.default : GroupNode := ⟨0, Node.empty, .new⟩

/-! ## Filters -/

structure Surroundings where
  now : SystemTime
  /-- the random number below `n + 1` -/
  genRange : (n : Nat) → Fin (n + 1)
  /-- the latency that the probes have found for a node, or zero -/
  latency : Nat → Nat

/-- What stands after the last colon, as a `u16`. -/
def portOf (addr : String) : Option Nat :=
  match Text.cutLast ':' addr.toList with
  | some (_, port) => Text.parseUnsigned (2 ^ 16) (String.ofList port)
  | none => none

def InvalidFilter.keeps (addr : String) : Bool :=
  match portOf addr with
  | some port => 0 < port
  | none => false

def InvalidFilter.filter (nodes : List GroupNode) : List GroupNode :=
  nodes.filter fun n => keeps n.node.addr

def DEFAULT_MAX_FAILS : UInt32 := 1
def DEFAULT_FAIL_TIMEOUT : Duration := .ofSecs 30

structure FailFilter where
  maxFails : UInt32
  failTimeout : Duration
deriving DecidableEq

namespace FailFilter

def new (maxFails : UInt32) (failTimeout : Duration) : FailFilter where
  maxFails := if maxFails = 0 then DEFAULT_MAX_FAILS else maxFails
  failTimeout := if failTimeout.asNanos = 0 then DEFAULT_FAIL_TIMEOUT else failTimeout

/-- Whether a node may be selected. -/
def keeps (f : FailFilter) (now : SystemTime) (m : FailMarker) : Bool :=
  m.failCount < f.maxFails ∨ asI64 now.asSecs - m.failTime ≥ asI64 f.failTimeout.secs

def filter (f : FailFilter) (now : SystemTime) (nodes : List GroupNode) : List GroupNode :=
  if nodes.length ≤ 1 then nodes else nodes.filter fun n => f.keeps now n.marker

end FailFilter

/-- The nodes of the lowest latencies, of which equal ones keep their order. -/
def FastestFilter.filter (topCount : Nat) (latency : Nat → Nat) (nodes : List GroupNode) :
    List GroupNode :=
  if topCount = 0 then nodes
  else (nodes.mergeSort fun n m => latency n.id ≤ latency m.id).take topCount

inductive Filter
  | invalid
  | fail (f : FailFilter)
  | fastest (topCount : Nat)
deriving DecidableEq

def Filter.filter (env : Surroundings) : Filter → List GroupNode → List GroupNode
  | .invalid => InvalidFilter.filter
  | .fail f => f.filter env.now
  | .fastest topCount => FastestFilter.filter topCount env.latency

/-! ## Strategies -/

inductive Strategy
  | round (counter : UInt64)
  | random
  | fifo
deriving Repr, DecidableEq

def newStrategy (name : String) : Strategy :=
  if name = "random" then .random else if name = "fifo" then .fifo else .round 0

/-- The node, and the strategy for the next one. -/
def Strategy.apply (env : Surroundings) (s : Strategy) :
    List GroupNode → GroupNode × Strategy
  | [] => (.default, s)
  | n :: nodes =>
    match s with
    | .round counter =>
      ((n :: nodes).get ⟨counter.toNat % (nodes.length + 1), Nat.mod_lt _ (Nat.succ_pos _)⟩,
        .round (counter + 1))
    | .random => ((n :: nodes).get (env.genRange nodes.length), .random)
    | .fifo => (n, .fifo)

/-! ## Selectors -/

inductive SelectError
  | noneAvailable
deriving Repr, DecidableEq

structure FilterSelector where
  filters : List Filter
  strategy : Strategy
deriving DecidableEq

namespace FilterSelector

def withFilters (strategy : String) (maxFails : UInt32) (failTimeout : Duration)
    (fastestCount : Nat) : FilterSelector where
  filters := [.invalid, .fail (.new maxFails failTimeout)]
    ++ if 0 < fastestCount then [.fastest fastestCount] else []
  strategy := newStrategy strategy

def withFailFilter (strategy : String) (maxFails : UInt32) (failTimeout : Duration) :
    FilterSelector := withFilters strategy maxFails failTimeout 0

/-- The nodes that all the filters leave. -/
def candidates (env : Surroundings) : List Filter → List GroupNode →
    Except SelectError (List GroupNode)
  | [], nodes => .ok nodes
  | f :: filters, nodes =>
    if f.filter env nodes = [] then .error .noneAvailable
    else candidates env filters (f.filter env nodes)

/-- The node, and the selector for the next one. -/
def select (env : Surroundings) (s : FilterSelector) (nodes : List GroupNode) :
    Except SelectError GroupNode × FilterSelector :=
  match candidates env s.filters nodes with
  | .error e => (.error e, s)
  | .ok nodes =>
    (.ok (s.strategy.apply env nodes).1, { s with strategy := (s.strategy.apply env nodes).2 })

/-- The selector after earlier selections. -/
def after (s : FilterSelector) : List (Surroundings × List GroupNode) → FilterSelector
  | [] => s
  | (env, nodes) :: earlier => ((s.select env nodes).2).after earlier

end FilterSelector

/-! ## What a selection is promised -/

/-- The address ends in a port from 1 to 65535. -/
def HasPort (addr : String) : Prop := ∃ port ∈ portOf addr, 1 ≤ port ∧ port ≤ 65535

instance (addr : String) : Decidable (HasPort addr) :=
  inferInstanceAs (Decidable (∃ port ∈ portOf addr, 1 ≤ port ∧ port ≤ 65535))

def valid (nodes : List GroupNode) : List GroupNode :=
  nodes.filter fun n => HasPort n.node.addr

section

variable (maxFails : UInt32) (failTimeout : Duration) (now : SystemTime)

/-- `max_fails` failures at least, the last of them less than `fail_timeout` ago. -/
def Barred (m : FailMarker) : Prop :=
  maxFails ≤ m.failCount ∧ now.nanos < m.failTime * 10 ^ 9 + failTimeout.asNanos

/-- The last failure is less than the whole seconds of `fail_timeout` ago, and they are in
the range of `i64`. -/
def Counted (m : FailMarker) : Prop :=
  failTimeout.secs < 2 ^ 63 ∧ now.asSecs < m.failTime + failTimeout.secs

instance (m : FailMarker) : Decidable (Barred maxFails failTimeout now m) :=
  inferInstanceAs (Decidable (_ ∧ _))

instance (m : FailMarker) : Decidable (Counted failTimeout now m) :=
  inferInstanceAs (Decidable (_ ∧ _))

/-- A selection honours the fail window. -/
structure Honours (nodes : List GroupNode) (r : Except SelectError GroupNode) : Prop where
  member : ∀ n, r = .ok n → n ∈ nodes ∧ HasPort n.node.addr
  single : ∀ n, valid nodes = [n] → r = .ok n
  window : 2 ≤ (valid nodes).length →
    ∀ n, r = .ok n → ¬ Barred maxFails failTimeout now n.marker
  fails : (valid nodes).length ≠ 1 →
    ((∃ e, r = .error e) ↔ ∀ n ∈ valid nodes, Barred maxFails failTimeout now n.marker)

end

/-! ## What the filters leave -/

section

variable {env : Surroundings} {nodes : List GroupNode} {maxFails : UInt32}
  {failTimeout : Duration} {now : SystemTime} {m : FailMarker}

theorem portOf_lt {addr : String} {port : Nat} (h : portOf addr = some port) : port < 2 ^ 16 := by
  unfold portOf at h
  split at h
  · exact Text.lt_of_parseUnsigned h
  · cases h

theorem InvalidFilter.keeps_iff (addr : String) : keeps addr = true ↔ HasPort addr := by
  unfold keeps HasPort
  constructor
  · intro h
    split at h
    · rename_i port hp
      have hpos : 0 < port := of_decide_eq_true h
      have hlt := portOf_lt hp
      exact ⟨port, hp, by omega⟩
    · cases h
  · intro h
    obtain ⟨port, hp, hpos, -⟩ := h
    rw [Option.mem_def.mp hp]
    exact decide_eq_true hpos

theorem InvalidFilter.filter_eq (nodes : List GroupNode) :
    InvalidFilter.filter nodes = valid nodes := by
  apply List.filter_congr
  intro n _
  rw [Bool.eq_iff_iff, keeps_iff, decide_eq_true_iff]

theorem mem_valid {n : GroupNode} : n ∈ valid nodes ↔ n ∈ nodes ∧ HasPort n.node.addr := by
  rw [valid, List.mem_filter, decide_eq_true_iff]

theorem asI64_of_lt {n : Nat} (h : n < 2 ^ 63) : asI64 n = n := if_pos h

theorem SystemTime.asSecs_lt (now : SystemTime) : now.asSecs < 2 ^ 63 := by
  have h := now.nanos_lt
  unfold asSecs
  omega

/-- A timeout from `2 ^ 63` seconds on is negative when it is compared. -/
theorem FailFilter.not_keeps_iff {f : FailFilter} (h : m.failTime ≤ now.asSecs) :
    f.keeps now m = false ↔ f.maxFails ≤ m.failCount ∧ Counted f.failTimeout now m := by
  have hnow := now.asSecs_lt
  have hsecs := f.failTimeout.secs_lt
  unfold keeps Counted
  rw [decide_eq_false_iff_not, not_or, UInt32.not_lt, asI64_of_lt hnow]
  apply and_congr_right
  intro _
  unfold asI64
  split <;> omega

/-- What is excluded is barred, as the whole seconds are not more than the time. -/
theorem Counted.before (h : Counted failTimeout now m) :
    now.nanos < m.failTime * 10 ^ 9 + failTimeout.asNanos := by
  have hlt := h.2
  unfold SystemTime.asSecs at hlt
  unfold Duration.asNanos
  omega

theorem FailFilter.new_eq (hfails : 1 ≤ maxFails) (htimeout : 0 < failTimeout.asNanos) :
    FailFilter.new maxFails failTimeout = ⟨maxFails, failTimeout⟩ := by
  have hne : maxFails ≠ 0 := fun h => absurd hfails (by rw [h]; decide)
  rw [new, if_neg hne, if_neg (by omega)]

end

/-! ## What a selection gives -/

namespace FilterSelector

variable {env : Surroundings} {nodes : List GroupNode} {maxFails : UInt32}
  {failTimeout : Duration} {strategy : String}

/-- The nodes with a valid port that the fail filter leaves. -/
def left (maxFails : UInt32) (failTimeout : Duration) (now : SystemTime)
    (nodes : List GroupNode) : List GroupNode :=
  (FailFilter.new maxFails failTimeout).filter now (valid nodes)

theorem apply_mem (s : Strategy) (h : nodes ≠ []) : (s.apply env nodes).1 ∈ nodes := by
  cases nodes with
  | nil => exact absurd rfl h
  | cons n nodes =>
    cases s with
    | round | random => exact List.get_mem _ _
    | fifo => exact List.mem_cons_self

/-- Some random number gives the node. -/
theorem exists_random {n : GroupNode} (h : n ∈ nodes) (now : SystemTime) :
    ∃ env, env.now = now ∧ (Strategy.random.apply env nodes).1 = n := by
  obtain ⟨⟨i, hi⟩, rfl⟩ := List.get_of_mem h
  refine ⟨⟨now, fun k => Fin.ofNat (k + 1) i, fun _ => 0⟩, rfl, ?_⟩
  cases nodes with
  | nil => cases hi
  | cons n nodes =>
    have hmod : i % (nodes.length + 1) = i := Nat.mod_eq_of_lt hi
    simp only [Strategy.apply, Fin.ofNat, hmod]

theorem left_nil {now : SystemTime} (h : valid nodes = []) :
    left maxFails failTimeout now nodes = [] := by
  unfold left
  rw [h]
  rfl

theorem left_subset {now : SystemTime} {n : GroupNode}
    (h : n ∈ left maxFails failTimeout now nodes) : n ∈ valid nodes := by
  unfold left FailFilter.filter at h
  split at h
  · exact h
  · exact (List.mem_filter.mp h).1

theorem filters_select (s : FilterSelector) : (s.select env nodes).2.filters = s.filters := by
  unfold select
  split <;> rfl

theorem filters_after (s : FilterSelector) (earlier : List (Surroundings × List GroupNode)) :
    (s.after earlier).filters = s.filters := by
  induction earlier generalizing s with
  | nil => rfl
  | cons e earlier ih => rw [after, ih, filters_select]

/-- A selection fails if the filters leave no node, and else takes one of those left. -/
theorem select_fst (s : FilterSelector)
    (h : s.filters = (withFailFilter strategy maxFails failTimeout).filters) :
    (s.select env nodes).1 =
      if left maxFails failTimeout env.now nodes = [] then .error .noneAvailable
      else .ok (s.strategy.apply env (left maxFails failTimeout env.now nodes)).1 := by
  have hc : candidates env s.filters nodes =
      if left maxFails failTimeout env.now nodes = [] then .error .noneAvailable
      else .ok (left maxFails failTimeout env.now nodes) := by
    rw [h]
    show candidates env [.invalid, .fail (.new maxFails failTimeout)] nodes = _
    simp only [candidates, Filter.filter, InvalidFilter.filter_eq]
    split
    · rename_i hnil
      rw [if_pos (left_nil hnil)]
    · rfl
  unfold select
  rw [hc]
  split <;> rename_i hleft <;> split at hleft <;> cases hleft
  · rename_i hnil
    rw [if_pos hnil]
  · rename_i hnil
    rw [if_neg hnil]

/-! ## The fail window -/

section

variable {now : SystemTime}

/-- With two nodes or more, those left are the valid ones that are not excluded. -/
theorem mem_left {n : GroupNode} (hpast : ∀ n ∈ nodes, n.marker.failTime ≤ now.asSecs)
    (hfails : 1 ≤ maxFails) (htimeout : 0 < failTimeout.asNanos)
    (htwo : 2 ≤ (valid nodes).length) :
    n ∈ left maxFails failTimeout now nodes ↔
      n ∈ valid nodes ∧ ¬ (maxFails ≤ n.marker.failCount ∧ Counted failTimeout now n.marker) := by
  unfold left FailFilter.filter
  rw [if_neg (by omega), List.mem_filter]
  apply and_congr_right
  intro hn
  have hk := FailFilter.not_keeps_iff (f := FailFilter.new maxFails failTimeout)
    (hpast n (mem_valid.mp hn).1)
  rw [FailFilter.new_eq hfails htimeout] at hk ⊢
  rw [← hk, Bool.not_eq_false]

/-- The selection honours the window whatever the strategy takes, if the nodes left are
those that are not barred. -/
theorem honours_of_left {s : FilterSelector}
    (h : s.filters = (withFailFilter strategy maxFails failTimeout).filters)
    (hmem : 2 ≤ (valid nodes).length → ∀ n, n ∈ left maxFails failTimeout env.now nodes ↔
      n ∈ valid nodes ∧ ¬ Barred maxFails failTimeout env.now n.marker) :
    Honours maxFails failTimeout env.now nodes (s.select env nodes).1 := by
  have hsel : (s.select env nodes).1 = if left maxFails failTimeout env.now nodes = []
      then .error .noneAvailable
      else .ok (s.strategy.apply env (left maxFails failTimeout env.now nodes)).1 :=
    select_fst s h
  by_cases hnil : left maxFails failTimeout env.now nodes = []
  · rw [if_pos hnil] at hsel
    rw [hsel]
    refine ⟨fun n h => (by cases h), fun n hn => ?_, fun _ n h => (by cases h), fun hne => ?_⟩
    · unfold left FailFilter.filter at hnil
      rw [hn] at hnil
      cases hnil
    · refine ⟨fun _ n hn => ?_, fun _ => ⟨_, rfl⟩⟩
      have htwo : 2 ≤ (valid nodes).length := by
        have hpos := List.length_pos_of_mem hn
        omega
      by_contra hbar
      have hin := (hmem htwo n).mpr ⟨hn, hbar⟩
      rw [hnil] at hin
      cases hin
  · rw [if_neg hnil] at hsel
    have hin : (s.strategy.apply env (left maxFails failTimeout env.now nodes)).1 ∈
        left maxFails failTimeout env.now nodes := apply_mem s.strategy hnil
    rw [hsel]
    generalize (s.strategy.apply env (left maxFails failTimeout env.now nodes)).1 = got at hin
    have hvalid := left_subset hin
    refine ⟨fun n h => ?_, fun n hn => ?_, fun htwo n h => ?_, fun hne => ?_⟩
    · cases h
      exact mem_valid.mp hvalid
    · rw [hn, List.mem_singleton] at hvalid
      rw [hvalid]
    · cases h
      exact ((hmem htwo got).mp hin).2
    · refine ⟨fun ⟨e, he⟩ => (by cases he), fun hall => ?_⟩
      have htwo : 2 ≤ (valid nodes).length := by
        have hpos := List.length_pos_of_mem hvalid
        omega
      exact absurd (hall got hvalid) ((hmem htwo got).mp hin).2

/-- A selection honours the fail window, whatever the strategy and the selections before
it, exactly if two nodes do not have a port, or the timeout and the time since each
barred node failed compare in whole seconds as they do in full. -/
theorem select_honours_window (nodes : List GroupNode) (now : SystemTime) (maxFails : UInt32)
    (failTimeout : Duration) (hpast : ∀ n ∈ nodes, n.marker.failTime ≤ now.asSecs)
    (hfails : 1 ≤ maxFails) (htimeout : 0 < failTimeout.asNanos) :
    (∀ (strategy : String) (earlier : List (Surroundings × List GroupNode)) (env : Surroundings),
      env.now = now → Honours maxFails failTimeout now nodes
        (((withFailFilter strategy maxFails failTimeout).after earlier).select env nodes).1) ↔
      (valid nodes).length < 2 ∨ ∀ n ∈ valid nodes, Barred maxFails failTimeout now n.marker →
        Counted failTimeout now n.marker := by
  constructor
  · intro h
    by_contra hno
    rw [not_or, Nat.not_lt] at hno
    obtain ⟨htwo, hno⟩ := hno
    apply hno
    intro n hn hbar
    by_contra hcount
    have hleft := (mem_left hpast hfails htimeout htwo).mpr ⟨hn, fun hc => hcount hc.2⟩
    obtain ⟨env, rfl, hgot⟩ := exists_random hleft now
    have hsel : ((withFailFilter "random" maxFails failTimeout).select env nodes).1 =
        if left maxFails failTimeout env.now nodes = [] then .error .noneAvailable
        else .ok (Strategy.random.apply env (left maxFails failTimeout env.now nodes)).1 :=
      select_fst _ rfl
    rw [if_neg (List.ne_nil_of_mem hleft)] at hsel
    exact (h "random" [] env rfl).window htwo n (by rw [after, hsel]; exact congrArg _ hgot) hbar
  · intro h strategy earlier env henv
    subst henv
    refine honours_of_left (filters_after (withFailFilter strategy maxFails failTimeout) earlier) ?_
    intro htwo n
    rw [mem_left hpast hfails htimeout htwo]
    apply and_congr_right
    intro hn
    rcases h with h | h
    · omega
    · exact not_congr ⟨fun hc => ⟨hc.1, hc.2.before⟩, fun hb => ⟨hb.1, h n hn hb⟩⟩

/-- A node that has just failed, and one that has not. -/
def failedNode : GroupNode := ⟨1, { Node.empty with addr := "a:1", host := "a:1" }, ⟨5, 1⟩⟩
def freshNode : GroupNode := ⟨2, { Node.empty with addr := "b:2", host := "b:2" }, .new⟩

def noon : Surroundings := ⟨⟨5 * 10 ^ 9, by decide⟩, fun _ => 0, fun _ => 0⟩

theorem select_honours_window_second :
    Honours 1 (.ofSecs 1) noon.now [failedNode, freshNode]
      ((withFailFilter "fifo" 1 (.ofSecs 1)).select noon [failedNode, freshNode]).1 :=
  (select_honours_window [failedNode, freshNode] noon.now 1 (.ofSecs 1) (by decide) (by decide)
    (by decide)).mpr (.inr (by decide)) "fifo" [] noon rfl

def halfSecond : Duration := ⟨0, 500000000, by decide, by decide⟩

/-- Half a second is no whole second, and the node that failed in this second is taken. -/
theorem select_within_window :
    ¬ Honours 1 halfSecond noon.now [failedNode, freshNode]
      ((withFailFilter "fifo" 1 halfSecond).select noon [failedNode, freshNode]).1 := by
  intro h
  exact h.window (by decide) failedNode (by decide) (by decide)

end

end FilterSelector

end RtProxy
