import RtProxy.Udp.Delivery

/-!
What is left in the table of a UDP listener when a connection has been dropped.
-/

namespace RtProxy
namespace Udp

open Net Transition

/-- When a connection is gone, its TTL task has ended and the loop is between iterations,
no entry of it is in the table. -/
def Reclaimed (s : Sys) : Prop :=
  ∀ k c, s.conns k = some c → c.phase = .gone → s.demux = .idle → s.watch k = .ended →
    ∀ src, s.peers src ≠ some ⟨k⟩

/-- A TTL task does not stop at the token of a connection whose entry is there, inserted
after the drop had left the table. -/
def Prompt (s : Sys) (a : Action) : Prop :=
  ∀ k, a = .watch k .stop → s.late k = true → ∀ src, s.peers src ≠ some ⟨k⟩

/-! ## The invariant -/

/-- The task will look at the table again. -/
def Watch.Running : Watch → Prop
  | start | looked _ | waiting _ | removing => True
  | _ => False

/-- The connection whose TTL task the loop is still to spawn. -/
def Demux.making : Demux → Option Nat
  | offered _ k | registering _ k | spawning k => some k
  | _ => none

structure Watched (s : Sys) : Prop where
  unborn : ∀ k, s.conns k = none → s.watch k = .none
  making : ∀ k, s.demux.making = some k → (s.conns k).isSome ∧ s.watch k = .none
  entries : ∀ src k, s.peers src = some ⟨k⟩ →
    s.demux = .spawning k ∨ (s.watch k).Running ∨ s.watch k = .ended ∧ s.late k = false
  left : ∀ src k c, s.peers src = some ⟨k⟩ → s.conns k = some c → c.phase.left = true →
    s.late k = true

theorem Watched.reclaimed {s : Sys} (h : Watched s) : Reclaimed s := by
  intro k c hc hgone hidle hended src hentry
  have hlate := h.left src k c hentry hc (by rw [hgone]; rfl)
  rcases h.entries src k hentry with hspawn | hrun | ⟨-, hprompt⟩
  · rw [hidle] at hspawn
    cases hspawn
  · rw [hended] at hrun
    exact hrun.elim
  · rw [hprompt] at hlate
    cases hlate

/-- No connection comes or goes, and none leaves the table in its drop. -/
def Stay (s t : Sys) : Prop :=
  ∀ k, (t.conns k).isSome = (s.conns k).isSome ∧
    ∀ c', t.conns k = some c' → c'.phase.left = true →
      ∃ c, s.conns k = some c ∧ c.phase.left = true

theorem Stay.of_eq {s t : Sys} (h : t.conns = s.conns) : Stay s t := by
  intro k
  rw [h]
  exact ⟨rfl, fun c hc hleft => ⟨c, hc, hleft⟩⟩

theorem Stay.setConn {s t : Sys} {k : Nat} {c : UdpServerConn} (c' : UdpServerConn) (hc : s.conns k = some c)
    (hleft : c'.phase.left = true → c.phase.left = true)
    (ht : t.conns = Function.update s.conns k (some c')) : Stay s t := by
  intro l
  rw [ht]
  by_cases hl : l = k
  · subst hl
    rw [Function.update_self, hc]
    refine ⟨rfl, fun e he hphase => ?_⟩
    cases he
    exact ⟨c, rfl, hleft hphase⟩
  · rw [Function.update_of_ne hl]
    exact ⟨rfl, fun e he hphase => ⟨e, he, hphase⟩⟩

theorem Stay.marks {s t : Sys} {k : Nat} {c : UdpServerConn} {rx : List Datagram} {closed : Bool}
    {phase : Phase} (hc : s.conns k = some c)
    (ht : t.conns
      = Function.update s.conns k (some { c with rx := rx, closed := closed, phase := phase }))
    (hphase : phase = c.phase ∨ phase.left = false) : Stay s t := by
  have hleft (hleft : phase.left = true) : c.phase.left = true := by
    rcases hphase with rfl | hfalse
    · exact hleft
    · rw [hfalse] at hleft
      cases hleft
  exact .setConn { c with rx := rx, closed := closed, phase := phase } hc hleft ht

theorem pollRead_phase (c : UdpServerConn) (room : Nat) (senders : Bool) (now : Nat) :
    (c.pollRead room senders now).1.phase = c.phase := by
  unfold UdpServerConn.pollRead
  by_cases hroom : room = 0
  · rw [if_pos hroom]
  rw [if_neg hroom]
  cases c.pending with
  | some p => rfl
  | none =>
    cases c.rx with
    | nil => cases senders <;> rfl
    | cons d rest =>
      by_cases hempty : d.payload = []
      · simp only [hempty, if_true]
      · simp only [hempty, if_false]
        rfl

theorem conn_left {now : Nat} {senders : Bool} {c c' : UdpServerConn} {a : ConnAction}
    (hstep : ConnStep now senders c a c') (h : c'.phase.left = true) : c.phase.left = true := by
  cases hstep with
  | poll room hphase =>
    rw [pollRead_phase] at h
    exact h
  | write hphase => exact h
  | release hphase =>
    rw [hphase]
    rfl
  | close | drop | cancel => cases h

/-- The entries of a connection stand under its peer. -/
theorem Routed.no_entry {s : Sys} (h : Routed s) {k : Nat} {c : UdpServerConn}
    (hc : s.conns k = some c) (src : SocketAddr) : (s.removePeer c.peer k).peers src ≠ some ⟨k⟩ := by
  intro hentry
  obtain ⟨hold, hnot⟩ := removePeer_eq_some hentry
  obtain ⟨e, he, hpeer⟩ := h.peers src ⟨k⟩ hold
  cases hc.symm.trans he
  exact hnot ⟨hpeer.symm, rfl⟩

namespace Watched

variable {s t : Sys}

/-- Steps away from the TTL tasks that insert nothing. -/
theorem frame (h : Watched s) (hpeers : ∀ src handle, t.peers src = some handle →
      s.peers src = some handle) (hwatch : t.watch = s.watch) (hlate : t.late = s.late)
    (hstay : Stay s t) (hmaking : ∀ k, t.demux.making = some k → s.demux.making = some k)
    (hspawning : ∀ k, s.demux = .spawning k → t.demux = .spawning k) : Watched t := by
  constructor
  case unborn =>
    intro k hk
    rw [hwatch]
    apply h.unborn
    have hsome := (hstay k).1
    rw [hk] at hsome
    exact Option.not_isSome_iff_eq_none.mp (Bool.eq_false_iff.mp hsome.symm)
  case making =>
    intro k hk
    rw [(hstay k).1, hwatch]
    exact h.making k (hmaking k hk)
  case entries =>
    intro src k hentry
    rw [hwatch, hlate]
    exact (h.entries src k (hpeers _ _ hentry)).imp_left (hspawning k)
  case left =>
    intro src k c' hentry hc' hleft
    rw [hlate]
    obtain ⟨c, hc, hold⟩ := (hstay k).2 c' hc' hleft
    exact h.left src k c (hpeers _ _ hentry) hc hold

/-- The same where the loop is not making a connection. -/
theorem aside (h : Watched s) (hpeers : ∀ src handle, t.peers src = some handle →
      s.peers src = some handle) (hwatch : t.watch = s.watch) (hlate : t.late = s.late)
    (hstay : Stay s t) (hmaking : t.demux.making = none) (hold : s.demux.making = none) :
    Watched t := by
  refine h.frame hpeers hwatch hlate hstay (fun k hk => ?_) fun k hk => ?_
  · rw [hmaking] at hk
    cases hk
  · rw [hk] at hold
    cases hold

/-- The same where the loop does not move. -/
theorem conns_stay (h : Watched s) (hpeers : ∀ src handle, t.peers src = some handle →
      s.peers src = some handle) (hwatch : t.watch = s.watch) (hlate : t.late = s.late)
    (hstay : Stay s t) (hdemux : t.demux = s.demux) : Watched t := by
  refine h.frame hpeers hwatch hlate hstay (fun k hk => ?_) fun k hk => ?_
  · rwa [hdemux] at hk
  · rw [hdemux]
    exact hk

theorem create (h : Watched s) (hr : Routed s) {d : Datagram} (phase : Phase)
    (hphase : phase.left = false) (hold : s.demux.making = none)
    (hpeers : t.peers = s.peers) (hwatch : t.watch = s.watch) (hlate : t.late = s.late)
    (hconns : t.conns = Function.update s.conns s.nextId (some (.new d s.now phase)))
    (hmaking : ∀ k, t.demux.making = some k → k = s.nextId) : Watched t := by
  have hnew : s.conns s.nextId = none := by
    cases hc : s.conns s.nextId with
    | none => rfl
    | some c => exact absurd (hr.conns _ c hc).id (Nat.lt_irrefl _)
  constructor
  case unborn =>
    intro k hk
    rw [hwatch]
    apply h.unborn
    rw [hconns] at hk
    by_cases hself : k = s.nextId
    · rw [hself]
      exact hnew
    · rwa [Function.update_of_ne hself] at hk
  case making =>
    intro k hk
    obtain rfl := hmaking k hk
    rw [hconns, Function.update_self, hwatch]
    exact ⟨rfl, h.unborn _ hnew⟩
  case entries =>
    intro src k hentry
    rw [hpeers] at hentry
    rw [hwatch, hlate]
    rcases h.entries src k hentry with hspawn | hrest
    · rw [hspawn] at hold
      cases hold
    · exact .inr hrest
  case left =>
    intro src k c hentry hc hleft
    rw [hpeers] at hentry
    rw [hlate]
    rw [hconns] at hc
    by_cases hself : k = s.nextId
    · subst hself
      rw [Function.update_self] at hc
      cases hc
      rw [show (UdpServerConn.new d s.now phase).phase = phase from rfl, hphase] at hleft
      cases hleft
    · rw [Function.update_of_ne hself] at hc
      exact h.left src k c hentry hc hleft

/-- An entry that is inserted late is marked. -/
theorem insert (h : Watched s) {src : SocketAddr} {k : Nat} {c : UdpServerConn}
    (hdemux : s.demux = .registering src k) (hc : s.conns k = some c) :
    Watched (s.insert src k c) := by
  have hmaking := h.making k (by rw [hdemux]; rfl)
  have back {src' : SocketAddr} {j : Nat} (hentry : (s.insert src k c).peers src' = some ⟨j⟩) :
      j = k ∨ s.peers src' = some ⟨j⟩ := by
    have hentry' : Function.update s.peers src (some ⟨k⟩) src' = some ⟨j⟩ := hentry
    by_cases hsrc : src' = src
    · rw [hsrc, Function.update_self] at hentry'
      cases hentry'
      exact .inl rfl
    · rw [Function.update_of_ne hsrc] at hentry'
      exact .inr hentry'
  have late {j : Nat} (hj : j ≠ k) : (s.insert src k c).late j = s.late j :=
    Function.update_of_ne hj _ _
  constructor
  case unborn => exact h.unborn
  case making =>
    intro j hj
    cases hj
    exact hmaking
  case entries =>
    intro src' j hentry
    by_cases hj : j = k
    · rw [hj]
      exact .inl rfl
    · refine .inr ?_
      rw [late hj]
      rcases h.entries src' j ((back hentry).resolve_left hj) with hspawn | hrest
      · rw [hdemux] at hspawn
        cases hspawn
      · exact hrest
  case left =>
    intro src' j e hentry he hleft
    by_cases hj : j = k
    · subst hj
      cases hc.symm.trans he
      exact (Function.update_self _ _ _).trans hleft
    · rw [late hj]
      exact h.left src' j e ((back hentry).resolve_left hj) he hleft

/-- The task of a connection moves; where its entry is there, the task goes on, or stops
and is not late. -/
theorem setWatch (h : Watched s) {k : Nat} {w : Watch} (hsome : (s.conns k).isSome)
    (hpeers : ∀ src handle, t.peers src = some handle → s.peers src = some handle)
    (hwatch : t.watch = Function.update s.watch k w) (hlate : t.late = s.late)
    (hstay : Stay s t) (hmaking : ∀ j, t.demux.making = some j → j ≠ k ∧ s.demux.making = some j)
    (hspawning : ∀ j, j ≠ k → s.demux = .spawning j → t.demux = .spawning j)
    (hentries : ∀ src, t.peers src = some ⟨k⟩ → w.Running ∨ w = .ended ∧ s.late k = false) :
    Watched t := by
  have other {j : Nat} (hj : j ≠ k) : t.watch j = s.watch j := by
    rw [hwatch, Function.update_of_ne hj]
  have hself : t.watch k = w := by rw [hwatch, Function.update_self]
  have hnone (j : Nat) (hj : t.conns j = none) : s.conns j = none := by
    have hsome := (hstay j).1
    rw [hj] at hsome
    exact Option.not_isSome_iff_eq_none.mp (Bool.eq_false_iff.mp hsome.symm)
  constructor
  case unborn =>
    intro j hj
    have hj' := hnone j hj
    have hne : j ≠ k := by
      rintro rfl
      rw [hj'] at hsome
      cases hsome
    rw [other hne]
    exact h.unborn j hj'
  case making =>
    intro j hj
    obtain ⟨hne, hj'⟩ := hmaking j hj
    rw [(hstay j).1, other hne]
    exact h.making j hj'
  case entries =>
    intro src j hentry
    rw [hlate]
    by_cases hj : j = k
    · subst hj
      rw [hself]
      exact .inr (hentries src hentry)
    · rw [other hj]
      exact (h.entries src j (hpeers _ _ hentry)).imp_left (hspawning j hj)
  case left =>
    intro src j c' hentry hc' hleft
    rw [hlate]
    obtain ⟨c, hc, hold⟩ := (hstay j).2 c' hc' hleft
    exact h.left src j c (hpeers _ _ hentry) hc hold

/-- A connection whose task runs is not being made. -/
theorem not_making (h : Watched s) {k : Nat} (hwatch : s.watch k ≠ .none) :
    ∀ j, s.demux.making = some j → j ≠ k ∧ s.demux.making = some j := by
  rintro j hj
  refine ⟨?_, hj⟩
  rintro rfl
  exact hwatch (h.making j hj).2

/-- A connection leaves the table in its drop. -/
theorem dropped (h : Watched s) (hr : Routed s) {k : Nat} {c : UdpServerConn}
    (hc : s.conns k = some c) :
    Watched ((s.removePeer c.peer k).setConn k { c with phase := .removed }) := by
  have hpeers (src : SocketAddr) (handle : PeerHandle)
      (hentry : (s.removePeer c.peer k).peers src = some handle) : s.peers src = some handle :=
    (removePeer_eq_some hentry).1
  have hisSome (j : Nat) :
      (Function.update s.conns k (some { c with phase := .removed }) j).isSome
        = (s.conns j).isSome := by
    by_cases hj : j = k
    · rw [hj, Function.update_self, hc]
      rfl
    · rw [Function.update_of_ne hj]
  constructor
  case unborn =>
    intro j hj
    apply h.unborn
    have hsome := hisSome j
    rw [show Function.update s.conns k (some { c with phase := .removed }) j = none from hj] at hsome
    exact Option.not_isSome_iff_eq_none.mp (Bool.eq_false_iff.mp hsome.symm)
  case making =>
    intro j hj
    exact ⟨(hisSome j).trans (h.making j hj).1, (h.making j hj).2⟩
  case entries =>
    intro src j hentry
    exact h.entries src j (hpeers src _ hentry)
  case left =>
    intro src j e hentry he hleft
    have hj : j ≠ k := by
      rintro rfl
      exact hr.no_entry hc src hentry
    have he' : Function.update s.conns k (some { c with phase := .removed }) j = some e := he
    rw [Function.update_of_ne hj] at he'
    exact h.left src j e (hpeers src _ hentry) he' hleft

theorem step {config : UdpListenConfig} {a : Action} (h : Watched s) (hr : Routed s)
    (hok : Prompt s a) (hstep : Step config s a t) : Watched t := by
  cases hstep with
  | recv src payload hdemux hlen =>
    exact h.aside (fun _ _ hentry => hentry) rfl rfl (.of_eq rfl) rfl (by rw [hdemux]; rfl)
  | recvError hdemux => exact h
  | known hdemux hpeer =>
    exact h.aside (fun _ _ hentry => hentry) rfl rfl (.of_eq rfl) rfl (by rw [hdemux]; rfl)
  | unknown hdemux hpeer =>
    exact h.aside (fun _ _ hentry => hentry) rfl rfl (.of_eq rfl) rfl (by rw [hdemux]; rfl)
  | send hdemux hc hsend =>
    obtain rfl := trySend_ok hsend
    exact h.aside (fun _ _ hentry => hentry) rfl rfl (.marks hc rfl (.inl rfl)) rfl (by rw [hdemux]; rfl)
  | sendFull hdemux hc hsend =>
    exact h.aside (fun _ _ hentry => hentry) rfl rfl (.of_eq rfl) rfl (by rw [hdemux]; rfl)
  | sendClosed hdemux hc hsend =>
    exact h.aside (fun _ _ hentry => hentry) rfl rfl (.of_eq rfl) rfl (by rw [hdemux]; rfl)
  | @evict d hdemux =>
    refine h.aside (fun src handle hentry => ?_) rfl rfl (.of_eq rfl) rfl (by rw [hdemux]; rfl)
    have hentry' : Function.update s.peers d.src none src = some handle := hentry
    by_cases hsrc : src = d.src
    · rw [hsrc, Function.update_self] at hentry'
      cases hentry'
    · rwa [Function.update_of_ne hsrc] at hentry'
  | offer hdemux hoffer =>
    refine h.create hr .queued rfl (by rw [hdemux]; rfl) rfl rfl rfl rfl fun k hk => ?_
    cases hk
    rfl
  | refused hdemux hoffer =>
    exact h.create hr .dropping rfl (by rw [hdemux]; rfl) rfl rfl rfl rfl
      fun k hk => nomatch hk
  | @refuse k e c hdemux hc hgone =>
    refine h.aside (fun _ _ hentry => hentry) rfl rfl (.of_eq rfl) ?_ (by rw [hdemux]; rfl)
    cases e <;> rfl
  | @first d k c hdemux hc =>
    refine h.frame (fun _ _ hentry => hentry) rfl rfl (.setConn _ hc (fun hleft => ?_) rfl)
      (fun j hj => ?_) fun j hj => ?_
    · cases hsend : c.trySend config.normalized.queueSize d with
      | ok c' =>
        rw [hsend, trySend_ok hsend] at hleft
        exact hleft
      | error e =>
        rw [hsend] at hleft
        exact hleft
    · rw [hdemux]
      exact hj
    · rw [hdemux] at hj
      cases hj
  | insert hdemux hc => exact h.insert hdemux hc
  | @spawn k hdemux =>
    have hmaking := h.making k (by rw [hdemux]; rfl)
    refine h.setWatch hmaking.1 (fun _ _ hentry => hentry) rfl rfl (.of_eq rfl)
      (fun j hj => nomatch hj) (fun j hj hspawn => ?_) fun _ _ => .inl trivial
    rw [hdemux] at hspawn
    cases hspawn
    exact absurd rfl hj
  | cancelled hdemux hcancel =>
    exact h.aside (fun _ _ hentry => hentry) rfl rfl (.of_eq rfl) rfl (by rw [hdemux]; rfl)
  | drain hdemux =>
    exact h.aside (fun _ _ hentry => nomatch hentry) rfl rfl (.of_eq rfl) rfl (by rw [hdemux]; rfl)
  | cancelHandle hdemux hhandle hc =>
    exact h.aside (fun _ _ hentry => hentry) rfl rfl (.marks hc rfl (.inl rfl)) rfl (by rw [hdemux]; rfl)
  | finish hdemux hnone =>
    exact h.aside (fun _ _ hentry => hentry) rfl rfl (.of_eq rfl) rfl (by rw [hdemux]; rfl)
  | accept hlisten hbacklog hc =>
    exact h.conns_stay (fun _ _ hentry => hentry) rfl rfl (.marks hc rfl (.inr rfl))
      rfl
  | closeListener => exact h.conns_stay (fun _ _ hentry => hentry) rfl rfl (.of_eq rfl) rfl
  | dropListener hcancel => exact h.conns_stay (fun _ _ hentry => hentry) rfl rfl (.of_eq rfl) rfl
  | discard hlisten hbacklog hc =>
    exact h.conns_stay (fun _ _ hentry => hentry) rfl rfl (.marks hc rfl (.inr rfl))
      rfl
  | conn hc hconn =>
    exact h.conns_stay (fun _ _ hentry => hentry) rfl rfl (.setConn _ hc (conn_left hconn) rfl) rfl
  | closed hunlocked hc hphase =>
    exact h.conns_stay (fun _ _ hentry => (removePeer_eq_some hentry).1) rfl rfl
      (.marks hc rfl (.inr rfl)) rfl
  | dropped hunlocked hc hphase => exact h.dropped hr hc
  | @watch k c a w hc hwatch =>
    have hsome : (s.conns k).isSome := by
      rw [hc]
      rfl
    have hne : s.watch k ≠ .none := by
      intro hnone
      rw [hnone] at hwatch
      cases hwatch
    refine h.setWatch hsome (fun _ _ hentry => hentry) rfl rfl (.of_eq rfl) (h.not_making hne)
      (fun j _ hj => hj) fun src hentry => ?_
    revert hwatch
    generalize s.watch k = v
    intro hwatch
    cases hwatch with
    | look | expired | wait | wake => exact .inl trivial
    | stop hclosed =>
      refine .inr ⟨rfl, eq_false_of_ne_true fun hlate => ?_⟩
      exact hok k rfl hlate src hentry
  | @expire k c hunlocked hc hwatch =>
    have hsome : (s.conns k).isSome := by
      rw [hc]
      rfl
    have hne : s.watch k ≠ .none := by
      rw [hwatch]
      exact Watch.noConfusion
    exact h.setWatch hsome (fun _ _ hentry => (removePeer_eq_some hentry).1) rfl rfl (.of_eq rfl)
      (h.not_making hne) (fun j _ hj => hj) fun src hentry => absurd hentry (hr.no_entry hc src)
  | @expired k c hc hwatch =>
    have hsome : (s.conns k).isSome := by
      rw [hc]
      rfl
    have hne : s.watch k ≠ .none := by
      rw [hwatch]
      exact Watch.noConfusion
    refine h.setWatch hsome (fun _ _ hentry => hentry) rfl rfl (.marks hc rfl (.inl rfl))
      (h.not_making hne) (fun j _ hj => hj) fun src hentry => ?_
    rcases h.entries src k hentry with hspawn | hrun | ⟨hended, -⟩
    · exact absurd rfl (h.not_making hne k (by rw [hspawn]; rfl)).1
    · rw [hwatch] at hrun
      exact hrun.elim
    · rw [hwatch] at hended
      cases hended
  | tick => exact h.conns_stay (fun _ _ hentry => hentry) rfl rfl (.of_eq rfl) rfl

theorem init : Watched Sys.init where
  unborn _ _ := rfl
  making _ hk := nomatch hk
  entries _ _ hentry := nomatch hentry
  left _ _ _ hentry := nomatch hentry

end Watched

/-- In a run in which no TTL task stops at the token while the connection's entry stands
there late, nothing stays in the table. -/
theorem listener_reclaims (config : UdpListenConfig) {s : Sys}
    (h : Reaches (Step config) Prompt Sys.init s) : Reclaimed s := by
  have hs : Routed s ∧ Watched s := by
    refine h.invariant (I := fun s => Routed s ∧ Watched s) ⟨Routed.init, Watched.init⟩ fun t a u ht hok hstep => ?_
    exact ⟨ht.1.step hstep, ht.2.step ht.1 hok hstep⟩
  exact hs.2.reclaimed

/-! ### Two runs -/

theorem tail_of_ne {s t : Sys} {a : Action} (h : Reaches (Step sampleConfig) Prompt Sys.init s)
    (hstep : Step sampleConfig s a t) (ha : ∀ k, a ≠ .watch k .stop) :
    Reaches (Step sampleConfig) Prompt Sys.init t :=
  h.tail (fun k hk => absurd hk (ha k)) hstep

/-- The connection is dropped when its entry is in the table. -/
theorem listener_reclaims_dropped : ∃ s c, Reaches (Step sampleConfig) Prompt Sys.init s
    ∧ s.conns 1 = some c ∧ c.phase = .gone ∧ s.demux = .idle ∧ s.watch 1 = .ended
    ∧ Reclaimed s := by
  have h0 : Reaches (Step sampleConfig) Prompt Sys.init Sys.init := .refl
  have h1 := tail_of_ne h0 (Step.recv sampleSrc [1] rfl (by decide)) nofun
  have h2 := tail_of_ne h1 (Step.unknown rfl rfl) nofun
  have h3 := tail_of_ne h2 (Step.offer rfl rfl) nofun
  have h4 := tail_of_ne h3 (Step.first rfl rfl) nofun
  have h5 := tail_of_ne h4 (Step.insert rfl rfl) nofun
  have h6 := tail_of_ne h5 (Step.spawn rfl) nofun
  have h7 := tail_of_ne h6 (Step.accept rfl rfl rfl) nofun
  have h8 := tail_of_ne h7 (Step.conn (k := 1) rfl (.drop rfl)) nofun
  have h9 := tail_of_ne h8 (Step.conn (k := 1) rfl (.cancel rfl)) nofun
  have h10 := tail_of_ne h9 (Step.dropped (k := 1) trivial rfl rfl) nofun
  have h11 := tail_of_ne h10 (Step.conn (k := 1) rfl (.release rfl)) nofun
  have h12 := tail_of_ne h11 (Step.watch (k := 1) rfl .look) nofun
  have h13 := tail_of_ne h12 (Step.watch (k := 1) rfl (.wait (by decide))) nofun
  have h14 := h13.tail (a := .watch 1 .stop) (fun k hk hlate => by cases hk; cases hlate)
    (Step.watch (k := 1) rfl (.stop rfl))
  exact ⟨_, _, h14, rfl, rfl, rfl, rfl, listener_reclaims sampleConfig h14⟩

/-- The connection is dropped between its offer and the insertion of its entry. -/
theorem listener_leaves_entry : ∃ s, Reaches (Step sampleConfig) anyStep Sys.init s
    ∧ ¬ Reclaimed s := by
  have h0 : Reaches (Step sampleConfig) anyStep Sys.init Sys.init := .refl
  have h1 := h0.tail trivial (Step.recv sampleSrc [1] rfl (by decide))
  have h2 := h1.tail trivial (Step.unknown rfl rfl)
  have h3 := h2.tail trivial (Step.offer rfl rfl)
  have h4 := h3.tail trivial (Step.accept rfl rfl rfl)
  have h5 := h4.tail trivial (Step.conn (k := 1) rfl (.drop rfl))
  have h6 := h5.tail trivial (Step.conn (k := 1) rfl (.cancel rfl))
  have h7 := h6.tail trivial (Step.dropped (k := 1) trivial rfl rfl)
  have h8 := h7.tail trivial (Step.conn (k := 1) rfl (.release rfl))
  have h9 := h8.tail trivial (Step.first rfl rfl)
  have h10 := h9.tail trivial (Step.insert rfl rfl)
  have h11 := h10.tail trivial (Step.spawn rfl)
  have h12 := h11.tail trivial (Step.watch (k := 1) rfl .look)
  have h13 := h12.tail trivial (Step.watch (k := 1) rfl (.wait (by decide)))
  have h14 := h13.tail trivial (Step.watch (k := 1) rfl (.stop rfl))
  exact ⟨_, h14, fun hall => hall 1 _ rfl rfl rfl rfl sampleSrc rfl⟩

end Udp
end RtProxy
