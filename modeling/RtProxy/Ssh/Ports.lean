import RtProxy.Ssh.Forward

/-!
The ports that a session of the SSH forwarder leaves bound (`ssh.rs`).

A port is given up when its loop sees its token cancelled.  The tokens are filed by what the
client named the port, and a second port of one name throws out the token of the first.
-/

namespace RtProxy
namespace Ssh

open Transition

/-- The machine does not bind an address on which a loop still listens. -/
def Exclusive (s : ForwardSession) : Action → Prop
  | .request (.tcpipForward _ _) (.bound addr) =>
    ∀ p ∈ s.ports, p.stopped = false → p.localAddr ≠ addr
  | _ => True

/-- A later port has the name of the `k`-th and another address. -/
def Renamed (ports : List Port) (k : Nat) (p : Port) : Prop :=
  ∃ j q, k < j ∧ ports[j]? = some q ∧ q.key = p.key ∧ q.localAddr ≠ p.localAddr

/-! ## What a step does to the ports -/

/-- The part of the state that is about the ports. -/
def ForwardSession.table (s : ForwardSession) :
    List Port × (AList fun _ : String × UInt32 => Nat) × List Nat × Bool :=
  (s.ports, s.forwards, s.displaced, s.closed)

def newPort (address : String) (port : UInt32) (addr : Net.SocketAddr) : Port :=
  ⟨(address, givenPort port addr), addr, false, false⟩

inductive Turn (s : ForwardSession) : Action → ForwardSession → Prop
  | stay {a : Action} {t : ForwardSession} (ht : t.table = s.table) : Turn s a t
  | file {address : String} {port : UInt32} {addr : Net.SocketAddr} {t : ForwardSession}
      (hopen : s.closed = false) (ht : t.table = (s.file (newPort address port addr)).table) :
      Turn s (.request (.tcpipForward address port) (.bound addr)) t
  | cancel {a : Action} {key : String × UInt32} {t : ForwardSession} (hopen : s.closed = false)
      (ht : t.table = (s.cancel key).table) : Turn s a t
  | drop {a : Action} {t : ForwardSession} (ht : t.table = s.drop.table) : Turn s a t
  | stop {a : Action} {k : Nat} {t : ForwardSession} (ht : t.table = (s.stopPort k).table) :
      Turn s a t

section

variable {env : Env} {h : SshForwardHandler} {s t : ForwardSession}

theorem turn_tcpipForward (hopen : s.closed = false) (address : String) (port : UInt32)
    (bind : Bind) : Turn s (.request (.tcpipForward address port) bind) (tcpipForward h s address port bind) := by
  unfold tcpipForward
  dsimp only
  split_ifs
  · cases bind with
    | refused | unnamed => exact .stay rfl
    | bound addr => exact .file hopen rfl
  · exact .stay rfl

theorem turn_serve (hopen : s.closed = false) (r : Request) (bind : Bind) :
    Turn s (.request r bind) (serve h s r bind) := by
  cases r with
  | password user password =>
    refine .stay ?_
    show (authPassword h s user password).table = _
    unfold authPassword
    split_ifs <;> rfl
  | publickey user fingerprint =>
    refine .stay ?_
    show (authPublickey h s user fingerprint).table = _
    unfold authPublickey
    split_ifs <;> rfl
  | directTcpip host port =>
    refine .stay ?_
    show (channelOpenDirectTcpip h s host port).table = _
    unfold channelOpenDirectTcpip
    dsimp only
    split_ifs <;> rfl
  | tcpipForward address port =>
    rw [serve]
    exact turn_tcpipForward hopen address port bind
  | cancelTcpipForward address port => exact .cancel hopen rfl

theorem turn_of_step {a : Action} (hstep : Step env h s a t) : Turn s a t := by
  cases hstep with
  | request hopen => exact turn_serve hopen _ _
  | dial | accept => exact .stay rfl
  | acceptFails | stop => exact .stop rfl
  | close => exact .drop rfl

end

/-! ## The invariant -/

structure Filed (s : ForwardSession) : Prop where
  filed : ∀ key k, s.forwards.lookup key = some k →
    ∃ p, s.ports[k]? = some p ∧ p.key = key ∧ p.cancelled = false
  held : ∀ k p, s.ports[k]? = some p →
    p.cancelled = true ∨ s.forwards.lookup p.key = some k ∨ k ∈ s.displaced
  displaced : ∀ k ∈ s.displaced, (∀ key, s.forwards.lookup key ≠ some k) ∧
    ∃ p, s.ports[k]? = some p ∧ p.cancelled = false ∧ (p.stopped = false → Renamed s.ports k p)
  closed : s.closed = true → s.forwards = ∅

namespace Filed

variable {s t : ForwardSession}

theorem congr (hs : Filed s) (ht : t.table = s.table) : Filed t := by
  simp only [ForwardSession.table, Prod.mk.injEq] at ht
  obtain ⟨hports, hforwards, hdisplaced, hclosed⟩ := ht
  constructor
  · rw [hports, hforwards]
    exact hs.filed
  · rw [hports, hforwards, hdisplaced]
    exact hs.held
  · rw [hports, hforwards, hdisplaced]
    exact hs.displaced
  · rw [hclosed, hforwards]
    exact hs.closed

/-- A key is filed once, so that a port is filed under its own name only. -/
theorem key_eq (hs : Filed s) {key : String × UInt32} {k : Nat} {p : Port}
    (hfiled : s.forwards.lookup key = some k) (hp : s.ports[k]? = some p) : p.key = key := by
  obtain ⟨q, hq, hkey, -⟩ := hs.filed key k hfiled
  cases hp.symm.trans hq
  exact hkey

end Filed

theorem lookup_insert {forwards : AList fun _ : String × UInt32 => Nat} {key key' : String × UInt32}
    {k k' : Nat} : (forwards.insert key k).lookup key' = some k' ↔
      key' = key ∧ k' = k ∨ key' ≠ key ∧ forwards.lookup key' = some k' := by
  by_cases hkey : key' = key
  · subst hkey
    rw [AList.lookup_insert]
    simp [eq_comm]
  · rw [AList.lookup_insert_ne hkey]
    simp [hkey]

theorem lookup_erase {forwards : AList fun _ : String × UInt32 => Nat} {key key' : String × UInt32}
    {k : Nat} : (forwards.erase key).lookup key' = some k ↔
      key' ≠ key ∧ forwards.lookup key' = some k := by
  by_cases hkey : key' = key
  · subst hkey
    rw [AList.lookup_erase]
    simp
  · rw [AList.lookup_erase_ne hkey]
    simp [hkey]

theorem mem_filed {forwards : AList fun _ : String × UInt32 => Nat} {k : Nat} :
    k ∈ forwards.entries.map (·.2) ↔ ∃ key, forwards.lookup key = some k := by
  simp only [List.mem_map]
  constructor
  · rintro ⟨⟨key, k⟩, hmem, rfl⟩
    exact ⟨key, AList.mem_lookup_iff.mpr hmem⟩
  · rintro ⟨key, hkey⟩
    exact ⟨⟨key, k⟩, AList.mem_lookup_iff.mp hkey, rfl⟩

/-! ## Steps -/

/-- What becomes of a port in a step that cancels its token if `gone`. -/
structure Port.Becomes (p q : Port) (gone : Prop) : Prop where
  key : q.key = p.key
  localAddr : q.localAddr = p.localAddr
  stopped : q.stopped = false → p.stopped = false
  cancelled : q.cancelled = true ↔ p.cancelled = true ∨ gone

theorem Port.Becomes.stays {p q : Port} {gone : Prop} (h : p.Becomes q gone)
    (hp : p.cancelled = false) (hgone : ¬ gone) : q.cancelled = false := by
  rw [← Bool.not_eq_true, h.cancelled, hp]
  simp [hgone]

theorem Port.becomes_cancel (p : Port) (c : Prop) [Decidable c] :
    p.Becomes (if c then { p with cancelled := true } else p) c := by
  split_ifs with hc
  · exact ⟨rfl, rfl, id, by simp [hc]⟩
  · exact ⟨rfl, rfl, id, by simp [hc]⟩

theorem Port.becomes_stop (p : Port) (c : Prop) [Decidable c] :
    p.Becomes (if c then { p with stopped := true } else p) False := by
  split_ifs
  · exact ⟨rfl, rfl, fun hrun => absurd hrun (by simp), by simp⟩
  · exact ⟨rfl, rfl, id, by simp⟩

theorem getElem?_stopPort (s : ForwardSession) (k j : Nat) :
    (s.stopPort k).ports[j]? =
      s.ports[j]?.map fun p => if k = j then { p with stopped := true } else p := by
  show (s.ports.modify k _)[j]? = _
  rw [List.getElem?_modify]
  rfl

namespace Filed

variable {s : ForwardSession}

/-- A port is bound and its token filed. -/
theorem file (hs : Filed s) {p : Port} (hcancelled : p.cancelled = false)
    (hopen : s.closed = false)
    (hexcl : ∀ q ∈ s.ports, q.stopped = false → q.localAddr ≠ p.localAddr) : Filed (s.file p) := by
  have hold {k : Nat} {q : Port} (hq : s.ports[k]? = some q) : (s.ports ++ [p])[k]? = some q := by
    rw [List.getElem?_append_left (List.getElem?_eq_some_iff.mp hq).1, hq]
  have hlast : (s.ports ++ [p])[s.ports.length]? = some p := List.getElem?_concat_length
  have hlt {k : Nat} {q : Port} (hq : s.ports[k]? = some q) : k < s.ports.length :=
    (List.getElem?_eq_some_iff.mp hq).1
  constructor
  case filed =>
    intro key k hk
    rcases lookup_insert.mp hk with ⟨rfl, rfl⟩ | ⟨hkey, hk⟩
    · exact ⟨p, hlast, rfl, hcancelled⟩
    · obtain ⟨q, hq, hq'⟩ := hs.filed key k hk
      exact ⟨q, hold hq, hq'⟩
  case held =>
    intro k q hq
    show _ ∨ (s.forwards.insert p.key s.ports.length).lookup q.key = some k ∨
      k ∈ s.displaced ++ (s.forwards.lookup p.key).toList
    rw [lookup_insert, List.mem_append, Option.mem_toList]
    rcases Nat.lt_or_ge k s.ports.length with hk | hk
    · rw [show (s.file p).ports = s.ports ++ [p] from rfl, List.getElem?_append_left hk] at hq
      rcases hs.held k q hq with hc | hf | hd
      · exact .inl hc
      · by_cases hkey : q.key = p.key
        · exact .inr (.inr (.inr (hkey ▸ hf)))
        · exact .inr (.inl (.inr ⟨hkey, hf⟩))
      · exact .inr (.inr (.inl hd))
    · obtain ⟨hlen, -⟩ := List.getElem?_eq_some_iff.mp hq
      have hk' : k = s.ports.length := by
        simp only [ForwardSession.file, List.length_append, List.length_singleton] at hlen
        omega
      subst hk'
      cases hlast.symm.trans hq
      exact .inr (.inl (.inl ⟨rfl, rfl⟩))
  case displaced =>
    intro k hk
    rcases List.mem_append.mp hk with hk | hk
    · obtain ⟨hnot, q, hq, hqc, hren⟩ := hs.displaced k hk
      refine ⟨fun key hkey => ?_, q, hold hq, hqc, fun hrun => ?_⟩
      · rcases lookup_insert.mp hkey with ⟨-, rfl⟩ | ⟨-, hkey⟩
        · exact absurd (hlt hq) (Nat.lt_irrefl _)
        · exact hnot key hkey
      · obtain ⟨j, r, hj, hr, hr'⟩ := hren hrun
        exact ⟨j, r, hj, hold hr, hr'⟩
    · have hk : s.forwards.lookup p.key = some k := Option.mem_toList.mp hk
      obtain ⟨q, hq, hkey, hqc⟩ := hs.filed p.key k hk
      refine ⟨fun key hkey' => ?_, q, hold hq, hqc, fun hrun => ?_⟩
      · rcases lookup_insert.mp hkey' with ⟨-, rfl⟩ | ⟨hne, hkey'⟩
        · exact absurd (hlt hq) (Nat.lt_irrefl _)
        · exact hne ((hs.key_eq hkey' hq).symm.trans hkey)
      · refine ⟨s.ports.length, p, hlt hq, hlast, hkey.symm, ?_⟩
        exact (hexcl q (List.mem_of_getElem? hq) hrun).symm
  case closed =>
    intro hclosed
    rw [show (s.file p).closed = s.closed from rfl, hopen] at hclosed
    cases hclosed

/-- Loops stop, and tokens that are filed are cancelled while their entries go. -/
theorem update (hs : Filed s) {t : ForwardSession} {f : Nat → Port → Port} {gone : Nat → Prop}
    (hports : ∀ k, t.ports[k]? = s.ports[k]?.map (f k))
    (hf : ∀ k (p : Port), p.Becomes (f k p) (gone k))
    (hgone : ∀ k, gone k → ∃ key, s.forwards.lookup key = some k)
    (hforwards : ∀ key k,
      t.forwards.lookup key = some k ↔ s.forwards.lookup key = some k ∧ ¬ gone k)
    (hdisplaced : t.displaced = s.displaced) (hclosed : t.closed = true → t.forwards = ∅) :
    Filed t := by
  have hport {k : Nat} {p : Port} (hp : s.ports[k]? = some p) : t.ports[k]? = some (f k p) := by
    rw [hports, hp, Option.map_some]
  constructor
  case filed =>
    intro key k hk
    obtain ⟨hk, hnot⟩ := (hforwards key k).mp hk
    obtain ⟨p, hp, hkey, hpc⟩ := hs.filed key k hk
    exact ⟨f k p, hport hp, (hf k p).key.trans hkey, (hf k p).stays hpc hnot⟩
  case held =>
    intro k q hq
    rw [hports] at hq
    obtain ⟨p, hp, rfl⟩ := Option.map_eq_some_iff.mp hq
    rw [(hf k p).cancelled, (hf k p).key, hforwards, hdisplaced]
    by_cases hk : gone k
    · exact .inl (.inr hk)
    · rcases hs.held k p hp with hc | hfiled | hd
      · exact .inl (.inl hc)
      · exact .inr (.inl ⟨hfiled, hk⟩)
      · exact .inr (.inr hd)
  case displaced =>
    intro k hk
    rw [hdisplaced] at hk
    obtain ⟨hnot, p, hp, hpc, hren⟩ := hs.displaced k hk
    refine ⟨fun key hkey => hnot key ((hforwards key k).mp hkey).1, f k p, hport hp,
      (hf k p).stays hpc fun hg => (hgone k hg).elim hnot, fun hrun => ?_⟩
    obtain ⟨j, q, hj, hq, hkey, haddr⟩ := hren ((hf k p).stopped hrun)
    refine ⟨j, f j q, hj, hport hq, ?_, ?_⟩
    · rw [(hf j q).key, (hf k p).key, hkey]
    · rw [(hf j q).localAddr, (hf k p).localAddr]
      exact haddr
  case closed => exact hclosed

theorem cancel (hs : Filed s) (hopen : s.closed = false) (key : String × UInt32) :
    Filed (s.cancel key) := by
  refine hs.update (fun k => List.getElem?_mapIdx)
    (fun k p => Port.becomes_cancel p (s.forwards.lookup key = some k)) (fun k hk => ⟨key, hk⟩)
    (fun key' k => ?_) rfl fun hclosed => ?_
  · show (s.forwards.erase key).lookup key' = some k ↔ _
    rw [lookup_erase]
    constructor
    · rintro ⟨hne, hk⟩
      refine ⟨hk, fun hk' => hne ?_⟩
      obtain ⟨p, hp, hkey, -⟩ := hs.filed key' k hk
      exact hkey.symm.trans (hs.key_eq hk' hp)
    · rintro ⟨hk, hnot⟩
      refine ⟨fun hkey => hnot ?_, hk⟩
      rw [← hkey]
      exact hk
  · rw [show (s.cancel key).closed = s.closed from rfl, hopen] at hclosed
    cases hclosed

theorem drop (hs : Filed s) : Filed s.drop := by
  refine hs.update (fun k => List.getElem?_mapIdx)
    (fun k p => Port.becomes_cancel p (k ∈ s.forwards.entries.map (·.2))) (fun k => mem_filed.mp)
    (fun key k => ?_) rfl fun _ => rfl
  constructor
  · intro hk
    rw [show s.drop.forwards = ∅ from rfl, AList.lookup_empty] at hk
    cases hk
  · rintro ⟨hk, hnot⟩
    exact absurd (mem_filed.mpr ⟨key, hk⟩) hnot

theorem stopPort (hs : Filed s) (k : Nat) : Filed (s.stopPort k) := by
  refine hs.update (getElem?_stopPort s k) (fun j p => Port.becomes_stop p (k = j))
    (fun _ hj => hj.elim) (fun key j => ?_) rfl hs.closed
  rw [not_false_eq_true, and_true]
  rfl

theorem step (hs : Filed s) {a : Action} {t : ForwardSession} (hexcl : Exclusive s a)
    (hturn : Turn s a t) : Filed t := by
  cases hturn with
  | stay ht => exact hs.congr ht
  | @file address port addr _ hopen ht =>
    exact (hs.file (p := newPort address port addr) rfl hopen hexcl).congr ht
  | cancel hopen ht => exact (hs.cancel hopen _).congr ht
  | drop ht => exact hs.drop.congr ht
  | stop ht => exact (hs.stopPort _).congr ht

end Filed

theorem filed_init : Filed init where
  filed key k hk := by
    rw [show init.forwards = ∅ from rfl, AList.lookup_empty] at hk
    cases hk
  held k p hp := by
    rw [show init.ports = [] from rfl, List.getElem?_nil] at hp
    cases hp
  displaced _ hk := absurd hk List.not_mem_nil
  closed _ := rfl

section

variable {env : Env} {h : SshForwardHandler} {s t : ForwardSession}

theorem filed_of_reaches (hrun : Reaches (Step env h) Exclusive init s) : Filed s :=
  hrun.invariant filed_init fun _ _ _ hs hexcl hstep => hs.step hexcl (turn_of_step hstep)

/-- A token that was thrown out stays so. -/
theorem displaced_of_turn {a : Action} (hturn : Turn s a t) : s.displaced ⊆ t.displaced := by
  cases hturn with
  | stay ht | cancel _ ht | drop ht | stop ht =>
    rw [show t.displaced = s.displaced from congrArg (·.2.2.1) ht]
    exact fun _ => id
  | file _ ht =>
    rw [show t.displaced = s.displaced ++ _ from congrArg (·.2.2.1) ht]
    exact List.subset_append_left _ _

theorem displaced_of_reaches {ok : ForwardSession → Action → Prop}
    (hrun : Reaches (Step env h) ok s t) : s.displaced ⊆ t.displaced :=
  hrun.invariant (I := fun t => s.displaced ⊆ t.displaced) (List.Subset.refl _)
    fun _ _ _ hsub _ hstep => List.Subset.trans hsub (displaced_of_turn (turn_of_step hstep))

/-- When the session has ended, the token of a port is cancelled unless a later port threw
it out.  If the port still listens then, the later one has the same name and another
address, and no step that follows cancels the token. -/
theorem port_left_iff (hrun : Reaches (Step env h) Exclusive init s) (hclosed : s.closed = true)
    {k : Nat} {p : Port} (hp : s.ports[k]? = some p) :
    (p.cancelled = false ↔ k ∈ s.displaced) ∧
      (p.cancelled = false → (p.stopped = false → Renamed s.ports k p) ∧
        ∀ t, Reaches (Step env h) Exclusive s t → ∃ q, t.ports[k]? = some q ∧ q.cancelled = false) := by
  have hs := filed_of_reaches hrun
  have hleft : p.cancelled = false ↔ k ∈ s.displaced := by
    constructor
    · intro hpc
      rcases hs.held k p hp with hc | hfiled | hd
      · rw [hpc] at hc
        cases hc
      · rw [hs.closed hclosed, AList.lookup_empty] at hfiled
        cases hfiled
      · exact hd
    · intro hd
      obtain ⟨-, q, hq, hqc, -⟩ := hs.displaced k hd
      cases hp.symm.trans hq
      exact hqc
  refine ⟨hleft, fun hpc => ⟨?_, fun t ht => ?_⟩⟩
  · obtain ⟨-, q, hq, -, hren⟩ := hs.displaced k (hleft.mp hpc)
    cases hp.symm.trans hq
    exact hren
  · have hd := displaced_of_reaches ht (hleft.mp hpc)
    obtain ⟨-, q, hq, hqc, -⟩ := (filed_of_reaches (hrun.trans ht)).displaced k hd
    exact ⟨q, hq, hqc⟩

end

/-! ## Names of one address -/

/-- A name stands for one address, and the port that is asked for is the one that is bound. -/
def Literal (ipOf : String → Net.IpAddr) : Action → Prop
  | .request (.tcpipForward address port) (.bound addr) =>
    addr.ip = ipOf address ∧ (port ≠ 0 → addr.port.toUInt32 = port)
  | _ => True

def Port.Literal (ipOf : String → Net.IpAddr) (p : Port) : Prop :=
  p.localAddr.ip = ipOf p.key.1 ∧ p.localAddr.port.toUInt32 = p.key.2

section

variable {env : Env} {h : SshForwardHandler} {s t : ForwardSession} {ipOf : String → Net.IpAddr}

theorem literal_newPort {address : String} {port : UInt32} {addr : Net.SocketAddr}
    (hlit : Literal ipOf (.request (.tcpipForward address port) (.bound addr))) :
    (newPort address port addr).Literal ipOf := by
  refine ⟨hlit.1, ?_⟩
  show addr.port.toUInt32 = givenPort port addr
  unfold givenPort
  split_ifs with hzero
  · rfl
  · exact hlit.2 hzero

theorem literal_of_becomes {ports : List Port} {f : Nat → Port → Port} {gone : Nat → Prop}
    (hlit : ∀ p ∈ s.ports, p.Literal ipOf) (hports : ∀ k, ports[k]? = s.ports[k]?.map (f k))
    (hf : ∀ k (p : Port), p.Becomes (f k p) (gone k)) : ∀ p ∈ ports, p.Literal ipOf := by
  intro q hq
  obtain ⟨k, hk⟩ := List.mem_iff_getElem?.mp hq
  rw [hports] at hk
  obtain ⟨p, hp, rfl⟩ := Option.map_eq_some_iff.mp hk
  unfold Port.Literal
  rw [(hf k p).key, (hf k p).localAddr]
  exact hlit p (List.mem_of_getElem? hp)

theorem literal_of_turn {a : Action} (hlit : ∀ p ∈ s.ports, p.Literal ipOf) (ha : Literal ipOf a)
    (hturn : Turn s a t) : ∀ p ∈ t.ports, p.Literal ipOf := by
  cases hturn with
  | stay ht =>
    rw [show t.ports = s.ports from congrArg (·.1) ht]
    exact hlit
  | file _ ht =>
    rw [show t.ports = s.ports ++ [_] from congrArg (·.1) ht]
    intro p hp
    rcases List.mem_append.mp hp with hold | hnew
    · exact hlit p hold
    · obtain rfl := List.mem_singleton.mp hnew
      exact literal_newPort ha
  | cancel _ ht | drop ht =>
    rw [show t.ports = s.ports.mapIdx _ from congrArg (·.1) ht]
    exact literal_of_becomes hlit (fun _ => List.getElem?_mapIdx) fun _ p => Port.becomes_cancel p _
  | stop ht =>
    rw [show t.ports = (s.stopPort _).ports from congrArg (·.1) ht]
    exact literal_of_becomes hlit (getElem?_stopPort s _) fun _ p => Port.becomes_stop p _

/-- Where every name stands for one address, a session that ends leaves no port behind. -/
theorem ports_reclaimed
    (hrun : Reaches (Step env h) (fun s a => Exclusive s a ∧ Literal ipOf a) init s)
    (hclosed : s.closed = true) {p : Port} (hp : p ∈ s.ports) (hopen : p.stopped = false) :
    p.cancelled = true := by
  have hlit : ∀ p ∈ s.ports, p.Literal ipOf :=
    hrun.invariant (I := fun s => ∀ p ∈ s.ports, p.Literal ipOf)
      (fun _ hp => absurd hp List.not_mem_nil)
      fun _ _ _ hlit hok hstep => literal_of_turn hlit hok.2 (turn_of_step hstep)
  obtain ⟨k, hk⟩ := List.mem_iff_getElem?.mp hp
  by_contra hpc
  rw [Bool.not_eq_true] at hpc
  have hexcl := hrun.mono fun _ _ hok => hok.1
  obtain ⟨j, q, -, hq, hkey, haddr⟩ := ((port_left_iff hexcl hclosed hk).2 hpc).1 hopen
  obtain ⟨hip, hport⟩ := hlit p hp
  obtain ⟨hip', hport'⟩ := hlit q (List.mem_of_getElem? hq)
  refine haddr ?_
  rw [hkey, ← hip] at hip'
  rw [hkey, ← hport, UInt16.toUInt32_inj] at hport'
  calc q.localAddr = ⟨q.localAddr.ip, q.localAddr.port⟩ := rfl
    _ = ⟨p.localAddr.ip, p.localAddr.port⟩ := by rw [hip', hport']

end

/-! ## A port that is bound twice -/

/-- `localhost` stands for two addresses. -/
def firstLocal : Net.SocketAddr := ⟨.v4 ⟨127, 0, 0, 1⟩, 8080⟩

def secondLocal : Net.SocketAddr := ⟨.v4 ⟨127, 0, 0, 2⟩, 8080⟩

def localhost : Request := .tcpipForward "localhost" 8080

def bobBinds : ForwardSession := serve bobs bobIn localhost (.bound firstLocal)

def bobRebinds : ForwardSession := serve bobs bobBinds localhost (.bound secondLocal)

def bobLeaves : ForwardSession := bobRebinds.drop

def leftPort : Port := ⟨("localhost", 8080), firstLocal, false, false⟩

theorem port_left_iff_bob :
    bobLeaves.closed = true ∧ bobLeaves.ports[0]? = some leftPort ∧ 0 ∈ bobLeaves.displaced ∧
      Renamed bobLeaves.ports 0 leftPort ∧
      ∀ t, Reaches (Step (.calm .blank) bobs) Exclusive bobLeaves t →
        ∃ q, t.ports[0]? = some q ∧ q.cancelled = false := by
  have hin : Reaches (Step (.calm .blank) bobs) Exclusive init bobIn :=
    .tail (a := .request (.password "bob" "secret") .refused) .refl trivial (.request rfl)
  have hbinds : Reaches (Step (.calm .blank) bobs) Exclusive init bobBinds :=
    hin.tail (a := .request localhost (.bound firstLocal))
      (show ∀ p ∈ bobIn.ports, p.stopped = false → p.localAddr ≠ firstLocal by decide)
      (.request (by decide))
  have hrebinds : Reaches (Step (.calm .blank) bobs) Exclusive init bobRebinds :=
    hbinds.tail (a := .request localhost (.bound secondLocal))
      (show ∀ p ∈ bobBinds.ports, p.stopped = false → p.localAddr ≠ secondLocal by decide)
      (.request (by decide))
  have hleaves : Reaches (Step (.calm .blank) bobs) Exclusive init bobLeaves :=
    hrebinds.tail (a := .close) trivial (.close (by decide))
  obtain ⟨hiff, hleft⟩ := port_left_iff hleaves (k := 0) (p := leftPort) (by decide) (by decide)
  obtain ⟨hrenamed, hforever⟩ := hleft rfl
  exact ⟨by decide, by decide, hiff.mp rfl, hrenamed rfl, hforever⟩

end Ssh
end RtProxy
