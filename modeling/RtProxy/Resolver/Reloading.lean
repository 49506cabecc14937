import RtProxy.Resolver.Questions

/-!
Reloads and the calls under way.

A reload replaces the configuration and then clears the cache.  A call that took its
copy of the configuration before may store its answer after that, and nothing removes it
then.
-/

namespace RtProxy.Resolver

open Transition

/-! ## What the calls keep from their copy -/

/-- A copy of the configuration as it was; of the present one if no reload has written
since. -/
def Snapshot.Of (snap : Snapshot) (state : State) (gen : Nat) : Prop :=
  snap.gen ≤ gen ∧ (snap.gen = gen → snap.st = state)

/-- The answer of a server of the copy. -/
def Answer.From (a : Answer) (state : State) (gen : Nat) : Prop :=
  a.snap.Of state gen ∧ a.server ∈ a.snap.st.servers

def TaskFrom (state : State) (gen : Nat) : Task → Prop
  | .exLook snap _ _ => snap.Of state gen
  | .exAsk snap _ _ _ ns rest =>
    snap.Of state gen ∧ ∀ server ∈ ns :: rest, server ∈ snap.st.servers
  | .exStore _ _ a => a.From state gen
  | .reLook snap _ ns qtype rest =>
    snap.Of state gen ∧ ∀ x ∈ (ns, qtype) :: rest, x.1 ∈ snap.st.servers
  | .reAsk snap _ ns qtype rest _ =>
    snap.Of state gen ∧ ∀ x ∈ (ns, qtype) :: rest, x.1 ∈ snap.st.servers
  | .reStore _ rest a => a.From state gen ∧ ∀ x ∈ rest, x.1 ∈ a.snap.st.servers
  | _ => True

theorem Snapshot.Of.write {snap : Snapshot} {state : State} {gen : Nat} (h : snap.Of state gen)
    (state' : State) : snap.Of state' (gen + 1) :=
  ⟨Nat.le_succ_of_le h.1, fun heq => absurd h.1 (by omega)⟩

theorem TaskFrom.write {state : State} {gen : Nat} {task : Task} (h : TaskFrom state gen task)
    (state' : State) : TaskFrom state' (gen + 1) task := by
  cases task with
  | exLook snap packet mq => exact Snapshot.Of.write h _
  | exAsk snap packet mq asked ns rest => exact ⟨h.1.write _, h.2⟩
  | exStore packet mq a => exact ⟨h.1.write _, h.2⟩
  | reLook snap host ns qtype rest => exact ⟨h.1.write _, h.2⟩
  | reAsk snap host ns qtype rest asked => exact ⟨h.1.write _, h.2⟩
  | reStore host rest a => exact ⟨⟨h.1.1.write _, h.1.2⟩, h.2⟩
  | _ => exact h

variable {state : State} {gen : Nat} {snap : Snapshot}

theorem from_exchange (h : snap.Of state gen) (packet : Bytes) :
    TaskFrom state gen (.exchange snap packet) := by
  unfold Task.exchange
  cases Message.decode packet with
  | error e => exact trivial
  | ok mq =>
    dsimp only
    split_ifs
    · exact trivial
    · exact h

theorem from_exMiss (h : snap.Of state gen) (packet : Bytes) (mq : Message) :
    TaskFrom state gen (.exMiss snap packet mq) := by
  unfold Task.exMiss
  cases outbound snap.st.srcIp packet mq with
  | error e => exact trivial
  | ok asked =>
    dsimp only
    cases hservers : snap.st.servers with
    | nil => exact trivial
    | cons ns rest => exact ⟨h, fun server hmem => by rwa [hservers]⟩

theorem from_reNext (h : snap.Of state gen) {rest : List (NameServer × UInt16)}
    (hrest : ∀ x ∈ rest, x.1 ∈ snap.st.servers) (host : String)
    (outcome : Except String (List Net.IpAddr)) :
    TaskFrom state gen (.reNext snap host outcome rest) := by
  cases rest with
  | nil => exact trivial
  | cons x rest => exact ⟨h, hrest⟩

theorem from_reDone (h : snap.Of state gen) {rest : List (NameServer × UInt16)}
    (hrest : ∀ x ∈ rest, x.1 ∈ snap.st.servers) (host : String)
    (outcome : Except String (List Net.IpAddr)) :
    TaskFrom state gen (.reDone snap host rest outcome) := by
  unfold Task.reDone
  split
  · exact trivial
  · exact from_reNext h hrest _ _
  · exact from_reNext h hrest _ _

/-- The queries of a lookup go to the servers of its copy. -/
theorem mem_plan {st : State} : ∀ x ∈ st.plan, x.1 ∈ st.servers := by
  intro x hx
  obtain ⟨ns, hns, hmem⟩ := List.mem_flatMap.mp hx
  split_ifs at hmem <;>
    (rcases List.mem_cons.mp hmem with rfl | hmem
     · exact hns
     · rw [List.mem_singleton.mp hmem]
       exact hns)

theorem from_resolve (h : snap.Of state gen) (host : String) :
    TaskFrom state gen (.resolve snap host) := by
  unfold Task.resolve
  by_cases hempty : host = ""
  · rw [if_pos hempty]
    exact trivial
  · rw [if_neg hempty]
    cases Net.IpAddr.parse host with
    | some ip => exact trivial
    | none =>
      dsimp only
      split
      · exact trivial
      · exact from_reNext h mem_plan _ _

theorem from_stored {task : Task} (h : TaskFrom state gen task) :
    TaskFrom state gen task.stored := by
  cases task with
  | exStore packet mq a => exact trivial
  | reStore host rest a => exact from_reDone h.1.1 h.2 _ _
  | _ => exact h

theorem from_storing {task : Task} {a : Answer} (h : TaskFrom state gen task)
    (ha : task.storing = some a) : a.From state gen := by
  cases task with
  | exStore packet mq b => cases ha; exact h
  | reStore host rest b => cases ha; exact h.1
  | _ => cases ha

/-! ## The invariant -/

/-- A reload has replaced the configuration and has yet to clear the cache. -/
def Pending (s : Sys) : Prop := ∃ i, s.reloads i = .clearing

/-- An entry is as its answer was stored; and the answer belongs to the present
configuration, or the cache is still to be cleared. -/
def EntryFrom (s : Sys) (key : String) (item : CacheItem) : Prop :=
  ∃ a, s.origin key = some a ∧ a.From s.state s.gen ∧ item.ttl = a.snap.st.ttl
    ∧ a.snap.st.ttlNegative = false ∧ (a.snap.gen = s.gen ∨ Pending s)

structure Tracked (s : Sys) : Prop where
  tasks : ∀ d, TaskFrom s.state s.gen (s.tasks d)
  entries : ∀ key item, s.cache key = some item → EntryFrom s key item

/-- A call stores its answer only if no reload has replaced the configuration since it
took its copy, or the cache is still to be cleared, or the cache takes no answer. -/
def StoresCurrent (s : Sys) (act : Action) : Prop :=
  ∀ d a, act = .store d → (s.tasks d).storing = some a →
    a.snap.gen = s.gen ∨ Pending s ∨ ¬ a.call.Accepted

theorem Sys.origin_store (s : Sys) {a : Answer} (h : a.call.Accepted) (now : Nat) :
    (s.store a now).origin = Function.update s.origin a.key (some a) :=
  if_pos h

namespace Tracked

variable {s : Sys}

theorem setTask (h : Tracked s) {d : Nat} {task : Task} (htask : TaskFrom s.state s.gen task) :
    Tracked (s.setTask d task) where
  tasks e := by
    show TaskFrom s.state s.gen (Function.update s.tasks d task e)
    by_cases he : e = d
    · rw [he, Function.update_self]
      exact htask
    · rw [Function.update_of_ne he]
      exact h.tasks e
  entries := h.entries

theorem look (h : Tracked s) (key : String) (now : Nat) : Tracked (s.look key now) where
  tasks := h.tasks
  entries k item hitem := by
    rcases s.cache.apply_cases now (.load key) k with hsame | hnone | ⟨e, he, -⟩
    · exact h.entries k item (hsame.symm.trans hitem)
    · cases hnone.symm.trans hitem
    · cases he

theorem store (h : Tracked s) {a : Answer} (ha : a.From s.state s.gen)
    (hcur : a.snap.gen = s.gen ∨ Pending s ∨ ¬ a.call.Accepted) (now : Nat) :
    Tracked (s.store a now) where
  tasks := h.tasks
  entries k item hitem := by
    have hcache : s.cache.apply now (.store a.call) k = some item := hitem
    by_cases hacc : a.call.Accepted
    · have horigin := Sys.origin_store s hacc now
      rw [ResolverCache.store_accepted _ hacc] at hcache
      change Function.update s.cache a.key (some (a.call.item now)) k = some item at hcache
      by_cases hk : k = a.key
      · rw [hk, Function.update_self] at hcache
        cases hcache
        refine ⟨a, ?_, ha, rfl, hacc.2, ?_⟩
        · rw [horigin, hk, Function.update_self]
        · rcases hcur with hgen | hpend | hno
          · exact .inl hgen
          · exact .inr hpend
          · exact absurd hacc hno
      · rw [Function.update_of_ne hk] at hcache
        obtain ⟨b, hb, hrest⟩ := h.entries k item hcache
        refine ⟨b, ?_, hrest⟩
        rw [horigin, Function.update_of_ne hk]
        exact hb
    · have horigin : (s.store a now).origin = s.origin := if_neg hacc
      rw [ResolverCache.store_refused _ hacc] at hcache
      obtain ⟨b, hb, hrest⟩ := h.entries k item hcache
      exact ⟨b, by rw [horigin]; exact hb, hrest⟩

/-- The configuration is replaced: until the cache has been cleared nothing is asked of
its entries. -/
theorem write (h : Tracked s) {i : Nat} (state' : State) :
    Tracked { s with
      state := state', gen := s.gen + 1, reloads := Function.update s.reloads i .clearing } where
  tasks d := (h.tasks d).write state'
  entries k item hitem := by
    obtain ⟨a, ha, hfrom, httl, hneg, -⟩ := h.entries k item hitem
    exact ⟨a, ha, ⟨hfrom.1.write _, hfrom.2⟩, httl, hneg,
      .inr ⟨i, Function.update_self _ _ _⟩⟩

theorem step {t : Sys} {act : Action} (h : Tracked s) (hok : StoresCurrent s act)
    (hstep : Step s act t) : Tracked t := by
  have hnow : s.snap.Of s.state s.gen := ⟨Nat.le_refl _, fun _ => rfl⟩
  cases hstep with
  | exchange packet hidle => exact h.setTask (from_exchange hnow packet)
  | @exHit d now snap packet mq bytes hpc hone hhit => exact (h.look _ _).setTask trivial
  | @exMiss d now snap packet mq hpc hone hmiss =>
    have htask := h.tasks d
    rw [hpc] at htask
    exact (h.look _ _).setTask (from_exMiss htask packet mq)
  | @exMany d snap packet mq hpc hmany =>
    have htask := h.tasks d
    rw [hpc] at htask
    exact h.setTask (from_exMiss htask packet mq)
  | @exReply d snap packet mq asked ns rest reply hpc =>
    have htask := h.tasks d
    rw [hpc] at htask
    have hreceive : Tracked (s.receive ⟨ns, asked, reply⟩) := ⟨h.tasks, h.entries⟩
    refine hreceive.setTask ?_
    unfold Task.exReply
    cases Message.decode reply with
    | error e => exact trivial
    | ok mr => exact ⟨htask.1, htask.2 ns List.mem_cons_self⟩
  | @exError d snap packet mq asked ns rest e hpc =>
    have htask := h.tasks d
    rw [hpc] at htask
    refine h.setTask ?_
    cases rest with
    | nil => exact trivial
    | cons next rest => exact ⟨htask.1, fun server hmem => htask.2 server (.tail _ hmem)⟩
  | resolve host hidle => exact h.setTask (from_resolve hnow host)
  | system result hpc => exact h.setTask trivial
  | @reHit d now snap host ns qtype rest bytes hpc hhit =>
    have htask := h.tasks d
    rw [hpc] at htask
    refine (h.look _ _).setTask ?_
    unfold Task.reHit
    split <;> exact from_reDone htask.1 (fun x hx => htask.2 x (.tail _ hx)) _ _
  | @reMiss d now snap host ns qtype rest id hpc hmiss =>
    have htask := h.tasks d
    rw [hpc] at htask
    refine (h.look _ _).setTask ?_
    unfold Task.reMiss
    split
    · exact from_reDone htask.1 (fun x hx => htask.2 x (.tail _ hx)) _ _
    · exact htask
  | @reReply d snap host ns qtype rest asked reply hpc =>
    have htask := h.tasks d
    rw [hpc] at htask
    have hreceive : Tracked (s.receive ⟨ns, asked, reply⟩) := ⟨h.tasks, h.entries⟩
    refine hreceive.setTask ?_
    unfold Task.reReply
    split
    · exact from_reDone htask.1 (fun x hx => htask.2 x (.tail _ hx)) _ _
    · exact ⟨⟨htask.1, htask.2 _ List.mem_cons_self⟩, fun x hx => htask.2 x (.tail _ hx)⟩
  | @reError d snap host ns qtype rest asked e hpc =>
    have htask := h.tasks d
    rw [hpc] at htask
    exact h.setTask (from_reDone htask.1 (fun x hx => htask.2 x (.tail _ hx)) _ _)
  | @store d a now hpc =>
    have htask := h.tasks d
    exact (h.store (from_storing htask hpc) (hok d a rfl hpc) now).setTask (from_stored htask)
  | @reload i file hrun hidle =>
    refine ⟨h.tasks, fun k item hitem => ?_⟩
    obtain ⟨a, ha, hfrom, httl, hneg, hgen⟩ := h.entries k item hitem
    refine ⟨a, ha, hfrom, httl, hneg, hgen.imp_right ?_⟩
    rintro ⟨j, hj⟩
    refine ⟨j, ?_⟩
    have hne : j ≠ i := by
      rintro rfl
      rw [hidle] at hj
      cases hj
    show Function.update s.reloads i _ j = _
    rw [Function.update_of_ne hne]
    exact hj
  | write hpc => exact h.write _
  | clear hpc => exact ⟨h.tasks, fun key item hitem => nomatch hitem⟩
  | stop => exact ⟨h.tasks, h.entries⟩

end Tracked

/-! ## Fresh entries -/

/-- Every entry was obtained from one of the present servers, under the present TTL
setting. -/
def Fresh (s : Sys) : Prop :=
  ∀ key item, s.cache key = some item → ∃ a, s.origin key = some a
    ∧ a.server ∈ s.state.servers ∧ a.snap.st.ttl = s.state.ttl
    ∧ a.snap.st.ttlNegative = s.state.ttlNegative ∧ item.ttl = s.state.ttl

/-- If no call stores an answer it asked for before the last reload, then between reloads
all entries are those of the present configuration. -/
theorem reload_leaves_fresh {st : State} {s : Sys}
    (h : Reaches Step StoresCurrent (Sys.init st) s) (hdone : ∀ i, s.reloads i ≠ .clearing) :
    Fresh s := by
  have hinit : Tracked (Sys.init st) := ⟨fun _ => trivial, fun key item hitem => nomatch hitem⟩
  have hs := h.invariant hinit fun t a u ht hok hstep => ht.step hok hstep
  intro key item hitem
  obtain ⟨a, ha, ⟨⟨-, hstate⟩, hserver⟩, httl, hneg, hgen⟩ := hs.entries key item hitem
  rcases hgen with hgen | ⟨i, hi⟩
  · rw [← hstate hgen]
    exact ⟨a, ha, hserver, rfl, rfl, httl⟩
  · exact absurd hi (hdone i)

/-! ### Two runs -/

/-- The configuration file of another server. -/
def otherFile : FileValues :=
  { servers := [⟨"198.51.100.1", "udp", ""⟩], domain := "", ttl := 60 * 10 ^ 9
    ttlNegative := false, prefer := "", srcIp := none }

/-- A query is sent to the server and answered; the configuration may be reloaded before
the answer is stored. -/
theorem asked_run {ok : Sys → Action → Prop} (hok : ∀ s act, (∀ d, act ≠ .store d) → ok s act) :
    ∃ s a, Reaches Step ok (Sys.init sampleState) s ∧ (s.tasks 0).storing = some a
      ∧ s.gen = 0 ∧ s.state = sampleState ∧ (∀ i, s.reloads i = .idle) ∧ s.stopped = false
      ∧ a.server = sampleServer ∧ a.call.Accepted ∧ a.snap.gen = 0 := by
  have hvalid : ∀ l ∈ [[97], [98]], 0 < (l : Dns.Label).length ∧ l.length < 64 := by decide
  have h0 : Reaches Step ok (Sys.init sampleState) (Sys.init sampleState) := .refl
  have h1 := h0.tail (hok _ _ fun _ => Action.noConfusion)
    (Step.exchange (d := 0) (addressPacket [[97], [98]]) rfl)
  rw [exchange_addressPacket hvalid] at h1
  have h2 := h1.tail (hok _ _ fun _ => Action.noConfusion)
    (Step.exMiss (d := 0) 0 (Sys.setTask_self _ _ _) rfl rfl)
  have h3 := h2.tail (hok _ _ fun _ => Action.noConfusion)
    (Step.exReply (d := 0) sampleReply (Sys.setTask_self _ _ _))
  exact ⟨_, _, h3, congrArg Task.storing (Sys.setTask_self _ _ _), rfl, rfl, fun _ => rfl, rfl,
    rfl, ⟨cacheKey_ne_empty _ _ _, rfl⟩, rfl⟩

/-- The answer is stored, and nothing has been reloaded. -/
theorem reload_leaves_fresh_stored : ∃ s, Reaches Step StoresCurrent (Sys.init sampleState) s
    ∧ (∃ key, s.cache key ≠ none) ∧ Fresh s := by
  obtain ⟨s, a, hs, hpc, hgen, -, hidle, -, -, hacc, hagen⟩ := @asked_run StoresCurrent
    fun s act hact d a hstore => absurd hstore (hact d)
  have hcur : StoresCurrent s (.store 0) := by
    intro d b hd hb
    cases hd
    rw [hpc] at hb
    cases hb
    exact .inl (hagen.trans hgen.symm)
  have hend := hs.tail hcur (Step.store 0 hpc)
  refine ⟨_, hend, ⟨a.key, ?_⟩, reload_leaves_fresh hend fun i hi => ?_⟩
  · show s.cache.apply 0 (.store a.call) a.call.key ≠ none
    rw [ResolverCache.store_accepted _ hacc, Function.update_self]
    exact Option.some_ne_none _
  · have hnone : s.reloads i = .clearing := hi
    rw [hidle i] at hnone
    cases hnone

/-- The configuration is reloaded while the query is at the server; the answer of a
server that is no longer configured is stored after that, and stays. -/
theorem reload_leaves_stale : ∃ s, Reaches Step anyStep (Sys.init sampleState) s ∧ s.gen = 1
    ∧ (∀ i, s.reloads i = .idle) ∧ ¬ Fresh s := by
  obtain ⟨s, a, hs, hpc, hgen, hstate, hidle, hrun, hserver, hacc, -⟩ := @asked_run anyStep
    fun _ _ _ => trivial
  have h1 := hs.tail trivial (Step.reload (i := 0) otherFile hrun (hidle 0))
  have hparsed : Function.update s.reloads 0 (.parsed otherFile) 0 = .parsed otherFile :=
    Function.update_self _ _ _
  have h2 := h1.tail trivial (Step.write (i := 0) hparsed)
  have hclearing : Function.update (Function.update s.reloads 0 (.parsed otherFile)) 0 .clearing 0
      = .clearing := Function.update_self _ _ _
  have h3 := h2.tail trivial (Step.clear (i := 0) hclearing)
  have h4 := h3.tail trivial (Step.store (d := 0) 0 hpc)
  refine ⟨_, h4, congrArg (· + 1) hgen, fun i => ?_, fun hfresh => ?_⟩
  · show Function.update (Function.update (Function.update s.reloads 0 _) 0 _) 0 _ i = _
    by_cases hi : i = 0
    · rw [hi, Function.update_self]
    · rw [Function.update_of_ne hi, Function.update_of_ne hi, Function.update_of_ne hi]
      exact hidle i
  · obtain ⟨b, hb, hmem, -⟩ := hfresh a.call.key (a.call.item 0) (by
      show ResolverCache.empty.apply 0 (.store a.call) a.call.key = _
      rw [ResolverCache.store_accepted _ hacc, Function.update_self])
    have horigin : (s.store a 0).origin a.key = some b := hb
    rw [Sys.origin_store s hacc, Function.update_self] at horigin
    cases horigin
    have hnow : a.server ∈ (s.state.reload otherFile).servers := hmem
    rw [hserver, hstate] at hnow
    exact absurd hnow (by decide)

end RtProxy.Resolver
