import RtProxy.Relay.Handler
import RtProxy.Selector.Filters

/-!
A group of targets (`NodeGroup` in `node.rs`), and the groups of the handlers that spread
their requests over one (`forward.rs`, `remote_forward.rs`, `relay.rs`).

The clones of a node share its marks, so a mark is set in the group, at the number of the
node.
-/

namespace RtProxy

/-! ## What the filters of a group leave -/

namespace FilterSelector

variable {env : Surroundings} {nodes left : List GroupNode} {n : GroupNode}

theorem mem_of_mem_filter {f : Filter} (h : n ∈ f.filter env nodes) : n ∈ nodes := by
  cases f with
  | invalid => exact List.mem_of_mem_filter h
  | fail f =>
    simp only [Filter.filter, FailFilter.filter] at h
    split_ifs at h
    · exact h
    · exact List.mem_of_mem_filter h
  | fastest topCount =>
    simp only [Filter.filter, FastestFilter.filter] at h
    split_ifs at h
    · exact h
    · exact List.mem_mergeSort.mp (List.mem_of_mem_take h)

/-- The filters leave some of the nodes, and one at least. -/
theorem candidates_cons {f : Filter} {filters : List Filter}
    (h : candidates env (f :: filters) nodes = .ok left) :
    f.filter env nodes ≠ [] ∧ candidates env filters (f.filter env nodes) = .ok left := by
  unfold candidates at h
  split_ifs at h with hnil
  exact ⟨hnil, h⟩

theorem candidates_subset {filters : List Filter} (h : candidates env filters nodes = .ok left)
    (hne : nodes ≠ []) : left ≠ [] ∧ ∀ n ∈ left, n ∈ nodes := by
  induction filters generalizing nodes with
  | nil =>
    cases h
    exact ⟨hne, fun _ hn => hn⟩
  | cons f filters ih =>
    obtain ⟨hnil, hrest⟩ := candidates_cons h
    obtain ⟨hleft, hsub⟩ := ih hrest hnil
    exact ⟨hleft, fun n hn => mem_of_mem_filter (hsub n hn)⟩

/-- What is selected has passed the fail filter, whatever filters come after it. -/
theorem select_mem_left {s : FilterSelector} {strategy : String} {maxFails : UInt32}
    {failTimeout : Duration} {fastestCount : Nat}
    (hs : s.filters = (withFilters strategy maxFails failTimeout fastestCount).filters)
    (h : (s.select env nodes).1 = .ok n) :
    n ∈ FilterSelector.left maxFails failTimeout env.now nodes := by
  unfold select at h
  cases hc : candidates env s.filters nodes with
  | error e =>
    rw [hc] at h
    cases h
  | ok got =>
    rw [hc] at h
    cases h
    rw [hs] at hc
    obtain ⟨hvalid, hc⟩ := candidates_cons hc
    obtain ⟨hfail, hc⟩ := candidates_cons hc
    obtain ⟨hne, hsub⟩ := candidates_subset hc hfail
    have hgot : (s.strategy.apply env got).1 ∈ got := apply_mem s.strategy hne
    have hmem := hsub _ hgot
    rw [Filter.filter, Filter.filter, InvalidFilter.filter_eq] at hmem
    exact hmem

/-- The only node with a valid port is selected, whatever its marks. -/
theorem select_single {s : FilterSelector} {strategy : String} {maxFails : UInt32}
    {failTimeout : Duration} {fastestCount : Nat}
    (hs : s.filters = (withFilters strategy maxFails failTimeout fastestCount).filters)
    (h : valid nodes = [n]) : (s.select env nodes).1 = .ok n := by
  have hne : [n] ≠ [] := List.cons_ne_nil n []
  have hfail (f : FailFilter) : f.filter env.now [n] = [n] := rfl
  have hc : candidates env s.filters nodes = .ok [n] := by
    rw [hs]
    show candidates env (.invalid :: .fail _ :: ([] ++ if 0 < fastestCount then _ else [])) nodes = _
    simp only [candidates, Filter.filter, InvalidFilter.filter_eq, h, hfail, if_neg hne]
    by_cases hfast : 0 < fastestCount
    · have htake : FastestFilter.filter fastestCount env.latency [n] = [n] := by
        rw [FastestFilter.filter, if_neg (Nat.ne_of_gt hfast), List.mergeSort_singleton]
        exact List.take_of_length_le hfast
      rw [if_pos hfast]
      show candidates env [.fastest fastestCount] [n] = _
      simp only [candidates, Filter.filter, htake, if_neg hne]
    · rw [if_neg hfast]
      rfl
  unfold select
  rw [hc]
  cases hstrategy : s.strategy with
  | round counter => simp [Strategy.apply, Nat.mod_one]
  | random => simp [Strategy.apply]
  | fifo => rfl

end FilterSelector

/-! ## Selectors -/

/-- `dyn NodeSelector`. -/
inductive Selector
  /-- round robin, whatever the marks -/
  | default (counter : UInt64)
  | filter (s : FilterSelector)
deriving DecidableEq

namespace Selector

/-- The node, and the selector for the next one. -/
def select (env : Surroundings) (nodes : List GroupNode) :
    Selector → Except SelectError GroupNode × Selector
  | .default counter =>
    match nodes[counter.toNat % nodes.length]? with
    | none => (.error .noneAvailable, .default counter)
    | some n => (.ok n, .default (counter + 1))
  | .filter s => ((s.select env nodes).1, .filter (s.select env nodes).2)

/-- The filters of a selector that has any. -/
def filters : Selector → Option (List Filter)
  | .default _ => none
  | .filter s => some s.filters

/-- A selection moves a counter only. -/
theorem filters_select (s : Selector) (env : Surroundings) (nodes : List GroupNode) :
    (s.select env nodes).2.filters = s.filters := by
  cases s with
  | default counter =>
    simp only [select]
    cases nodes[counter.toNat % nodes.length]? <;> rfl
  | filter s => exact congrArg some s.filters_select

end Selector

/-! ## Groups -/

structure NodeGroup where
  nodes : List GroupNode
  selector : Selector
deriving DecidableEq

namespace NodeGroup

def new (nodes : List GroupNode) : NodeGroup := ⟨nodes, .default 0⟩

def setSelector (g : NodeGroup) (s : Selector) : NodeGroup := { g with selector := s }

/-- The node, and the group for the next one. -/
def next (env : Surroundings) (g : NodeGroup) : Except SelectError GroupNode × NodeGroup :=
  if g.nodes = [] then (.error .noneAvailable, g)
  else ((g.selector.select env g.nodes).1, g.setSelector (g.selector.select env g.nodes).2)

/-- The marks of the nodes with this number change. -/
def change (g : NodeGroup) (id : Nat) (f : FailMarker → FailMarker) : NodeGroup :=
  { g with nodes := g.nodes.map fun n => if n.id = id then { n with marker := f n.marker } else n }

variable {g : NodeGroup} {env : Surroundings}

theorem next_of_ne_nil (h : g.nodes ≠ []) : g.next env =
    ((g.selector.select env g.nodes).1, g.setSelector (g.selector.select env g.nodes).2) :=
  if_neg h

variable (env) in
/-- Without filters, the targets take turns. -/
theorem next_default {counter : UInt64} (h : g.nodes ≠ []) (hsel : g.selector = .default counter) :
    ∃ n, g.nodes[counter.toNat % g.nodes.length]? = some n ∧
      g.next env = (.ok n, g.setSelector (.default (counter + 1))) := by
  have hlt : counter.toNat % g.nodes.length < g.nodes.length :=
    Nat.mod_lt _ (List.length_pos_of_ne_nil h)
  refine ⟨_, List.getElem?_eq_getElem hlt, ?_⟩
  simp only [next_of_ne_nil h, hsel, Selector.select, List.getElem?_eq_getElem hlt]

end NodeGroup

/-- Nodes with numbers from one on. -/
def numbered (nodes : List Node) : List GroupNode :=
  nodes.zipIdx.map fun p => ⟨p.2 + 1, p.1, .new⟩

/-- What the options say about the selection. -/
structure Balancing where
  strategy : String
  maxFails : UInt32
  failTimeout : Duration
  fastestCount : Nat
deriving DecidableEq

/-- A node for each of the addresses. -/
def targetNodes (addrs : List String) : List Node :=
  (addrs.filter (· ≠ "")).map fun addr => { Node.empty with addr := addr, host := addr }

structure TcpDirectForwardHandler where
  raddr : String
  group : NodeGroup
  options : HandlerOptions

/-- The `ip` of the listener is one more address. -/
def TcpDirectForwardHandler.new (raddr : String) (ip : Option String) (b : Balancing)
    (o : HandlerOptions) : TcpDirectForwardHandler where
  raddr := raddr
  group := (NodeGroup.new (numbered (targetNodes (Text.split raddr ',' ++ ip.toList)))).setSelector
    (.filter (.withFilters b.strategy b.maxFails b.failTimeout b.fastestCount))
  options := o

structure TcpRemoteForwardHandler where
  raddr : String
  group : NodeGroup
  options : HandlerOptions

def TcpRemoteForwardHandler.new (raddr : String) (o : HandlerOptions) : TcpRemoteForwardHandler where
  raddr := raddr
  group := .new (numbered (targetNodes (Text.split raddr ',')))
  options := o

/-- The group of `RelayHandler::new`. -/
def Relay.RelayHandler.nodeGroup (h : RelayHandler) : NodeGroup := .new (numbered h.group)

end RtProxy
