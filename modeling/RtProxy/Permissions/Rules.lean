import RtProxy.Handler.Socks5
import RtProxy.Permissions.Globs
import RtProxy.Relay.Request

/-!
What the rules of a whitelist or a blacklist decide (`Can` in `permissions.rs`).

A rule is read from its text here, without sets and ranges: it names actions and hosts by
patterns and ports by bounds in any order.  The checks read the host and the port off the
address as every dialer does that splits it later.
-/

namespace RtProxy

open Text

/-! ## The text of a rule -/

/-- The text of a port or of a range means the port; a range has its bounds in any order. -/
def MeansPort (s : String) (port : UInt16) : Prop :=
  if s = "*" then True
  else
    match splitOnce s '-' with
    | some (a, b) => ∃ x y, parseI64 a = some x ∧ parseI64 b = some y ∧
      min x y ≤ port.toNat ∧ (port.toNat : Int) ≤ max x y
    | none => parseI64 s = some (port.toNat : Int)

/-- The rule means the action, the host and the port. -/
def MeansRule (rule action host : String) (port : UInt16) : Prop :=
  ∃ actions hosts ports, split rule ':' = [actions, hosts, ports] ∧
    (∃ pattern ∈ split actions ',', Globbed pattern action) ∧
    (∃ pattern ∈ split hosts ',', Globbed pattern host) ∧
    ∃ range ∈ split ports ',', MeansPort (trim range) port

/-- One of the rules of the text does. -/
def Means (rules action host : String) (port : UInt16) : Prop :=
  rules ≠ "" ∧ ∃ rule ∈ split rules ' ', MeansRule rule action host port

/-! ## Parsing keeps the meaning -/

/-- A property that each result shares with its source holds of some source if and only if
of some result. -/
theorem any_of_mapM {α β ε : Type} {f : α → Except ε β} {q : β → Bool} {Q : α → Prop}
    (hq : ∀ x y, f x = .ok y → (q y = true ↔ Q x)) {xs : List α} {ys : List β}
    (h : xs.mapM f = .ok ys) : ys.any q = true ↔ ∃ x ∈ xs, Q x := by
  induction xs generalizing ys with
  | nil =>
    cases h
    simp
  | cons x xs ih =>
    rw [List.mapM_cons] at h
    cases hx : f x with
    | error e =>
      rw [hx] at h
      cases h
    | ok y =>
      cases hxs : xs.mapM f with
      | error e =>
        rw [hx, hxs] at h
        cases h
      | ok ys' =>
        rw [hx, hxs] at h
        cases h
        rw [List.any_cons, Bool.or_eq_true, hq x y hx, ih hxs]
        simp

/-- Clamping the bounds takes no port away and adds none. -/
theorem PortRange.contains_iff {s : String} {r : PortRange} (h : PortRange.parse s = .ok r)
    (port : UInt16) : r.contains port = true ↔ MeansPort s port := by
  have hlt : port.toNat < 65536 := port.toNat_lt
  unfold PortRange.parse at h
  unfold PortRange.contains MeansPort
  rw [decide_eq_true_eq]
  split_ifs at h ⊢
  · cases h
    simp only [iff_true]
    omega
  · cases hcut : splitOnce s '-' with
    | none =>
      rw [hcut] at h
      simp only at h ⊢
      cases hport : parseI64 s with
      | none =>
        rw [hport] at h
        cases h
      | some x =>
        rw [hport] at h
        simp only at h
        split_ifs at h
        cases h
        simp only [Option.some.injEq]
        omega
    | some ab =>
      rw [hcut] at h
      simp only at h ⊢
      cases hx : parseI64 ab.1 with
      | none =>
        rw [hx] at h
        cases h
      | some x =>
        cases hy : parseI64 ab.2 with
        | none =>
          rw [hx, hy] at h
          cases h
        | some y =>
          rw [hx, hy] at h
          cases h
          simp only [Option.some.injEq, exists_eq_left', exists_and_left]
          omega

theorem PortSet.contains_iff {s : String} {ports : PortSet} (h : PortSet.parse s = .ok ports)
    (port : UInt16) : ports.contains port = true ↔ ∃ range ∈ split s ',', MeansPort (trim range) port := by
  unfold PortSet.parse at h
  split_ifs at h
  exact any_of_mapM (fun _ _ hr => PortRange.contains_iff hr port) h

theorem StringSet.contains_iff {s : String} {set : StringSet} (h : StringSet.parse s = .ok set)
    (subj : String) : set.contains subj = true ↔ ∃ pattern ∈ split s ',', Globbed pattern subj := by
  unfold StringSet.parse at h
  split_ifs at h
  cases h
  rw [StringSet.contains, List.any_eq_true]
  simp only [goGlob_iff]

theorem Permission.matches_iff {s : String} {p : Permission} (h : Permission.parse s = .ok p)
    (action host : String) (port : UInt16) :
    (p.actions.contains action && p.hosts.contains host && p.ports.contains port) = true ↔
      MeansRule s action host port := by
  unfold Permission.parse at h
  split at h
  · rename_i actions hosts ports hsplit
    cases ha : StringSet.parse actions with
    | error e =>
      rw [ha] at h
      cases h
    | ok as =>
      cases hh : StringSet.parse hosts with
      | error e =>
        rw [ha, hh] at h
        cases h
      | ok hs =>
        cases hp : PortSet.parse ports with
        | error e =>
          rw [ha, hh, hp] at h
          cases h
        | ok ps =>
          rw [ha, hh, hp] at h
          cases h
          rw [Bool.and_eq_true, Bool.and_eq_true, StringSet.contains_iff ha,
            StringSet.contains_iff hh, PortSet.contains_iff hp, and_assoc]
          constructor
          · exact fun hm => ⟨actions, hosts, ports, hsplit, hm⟩
          · rintro ⟨_, _, _, heq, hm⟩
            rw [hsplit] at heq
            cases heq
            exact hm
  · cases h

theorem Permissions.can_iff {s : String} {ps : Permissions} (h : Permissions.parse s = .ok ps)
    (action host : String) (port : UInt16) :
    ps.can action host port = true ↔ Means s action host port := by
  unfold Permissions.parse at h
  unfold Means
  split_ifs at h with hempty
  · cases h
    exact iff_of_false Bool.false_ne_true fun hm => hm.1 hempty
  · rw [Permissions.can, any_of_mapM (fun _ _ hp => Permission.matches_iff hp action host port) h]
    exact ⟨fun hm => ⟨hempty, hm⟩, And.right⟩

/-! ## The address -/

/-- The address is the host and the port; a host with colons stands in brackets. -/
def HostPort (addr host : String) (port : UInt16) : Prop :=
  ('[' ∉ host.toList ∧ ']' ∉ host.toList) ∧
    ∃ p n, parseUnsigned (2 ^ 16) p = some n ∧ port = UInt16.ofNat n ∧
      (addr = s!"[{host}]:{p}" ∨ ':' ∉ host.toList ∧ addr = s!"{host}:{p}")

/-- An address without a colon is checked with the port of HTTP. -/
def ported (addr : String) : String := if contains addr ':' then addr else s!"{addr}:80"

/-- The rules that a text was parsed into; there may be neither. -/
def Parsed : Option String → Option Permissions → Prop
  | none, none => True
  | some s, some ps => Permissions.parse s = .ok ps
  | _, _ => False

theorem can_iff (action addr : String) (whitelist blacklist : Option Permissions) :
    Can action addr whitelist blacklist = true ↔ ∃ host port, Address (ported addr) host port ∧
      (∀ ps, whitelist = some ps → ps.can action host port = true) ∧
      ∀ ps, blacklist = some ps → ps.can action host port = false := by
  unfold Can
  rw [← ported]
  cases hsplit : Permissions.splitHostPort (ported addr) with
  | error e =>
    refine iff_of_false Bool.false_ne_true ?_
    rintro ⟨host, port, ⟨p, n, hok, -⟩, -⟩
    rw [hsplit] at hok
    cases hok
  | ok x =>
    obtain ⟨host, p⟩ := x
    simp only
    cases hn : parseUnsigned (2 ^ 16) p with
    | none =>
      refine iff_of_false Bool.false_ne_true ?_
      rintro ⟨host', port, ⟨p', n, hok, hn', -⟩, -⟩
      rw [hsplit] at hok
      cases hok
      rw [hn] at hn'
      cases hn'
    | some n =>
      have haddr : Address (ported addr) host (UInt16.ofNat n) := ⟨p, n, hsplit, hn, rfl⟩
      have hunique : (∃ host' port, Address (ported addr) host' port ∧
            (∀ ps, whitelist = some ps → ps.can action host' port = true) ∧
            ∀ ps, blacklist = some ps → ps.can action host' port = false) ↔
          (∀ ps, whitelist = some ps → ps.can action host (UInt16.ofNat n) = true) ∧
            ∀ ps, blacklist = some ps → ps.can action host (UInt16.ofNat n) = false := by
        constructor
        · rintro ⟨host', port', haddr', h⟩
          obtain ⟨rfl, rfl⟩ := haddr.unique haddr'
          exact h
        · exact fun h => ⟨host, _, haddr, h⟩
      rw [hunique]
      cases whitelist <;> cases blacklist <;> simp

/-- Rules that were parsed decide what their text means. -/
theorem Parsed.can_iff {text : Option String} {rules : Option Permissions} (h : Parsed text rules)
    (action host : String) (port : UInt16) (b : Bool) :
    (∀ ps, rules = some ps → ps.can action host port = b) ↔
      ∀ t, text = some t → (b = true ↔ Means t action host port) := by
  cases text with
  | none =>
    cases rules with
    | none => simp
    | some ps => cases h
  | some t =>
    cases rules with
    | none => cases h
    | some ps =>
      have hcan := Permissions.can_iff h action host port
      simp only [Option.some.injEq, forall_eq', ← hcan]
      cases b <;> cases ps.can action host port <;> simp

/-- The checks let an address through exactly if it is a host and a port that the rules mean,
and every dialer splits what they let through into this host and this port. -/
theorem can_decides {wtext btext : Option String} {whitelist blacklist : Option Permissions}
    (hw : Parsed wtext whitelist) (hb : Parsed btext blacklist) (action addr : String) :
    (Can action addr whitelist blacklist = true ↔
      ∃ host port, HostPort (ported addr) host port ∧
        (∀ t, wtext = some t → Means t action host port) ∧
        ∀ t, btext = some t → ¬ Means t action host port) ∧
    (Can action addr whitelist blacklist = true → ':' ∈ addr.toList →
      ∃ host port, HostPort addr host port ∧
        (∀ t, wtext = some t → Means t action host port) ∧
        (∀ t, btext = some t → ¬ Means t action host port) ∧
        splitHostPort addr = .ok (host, port) ∧ Relay.Splits addr host port ∧
        Socks5.parseAddress addr = .ok (host, port)) := by
  have hcan : Can action addr whitelist blacklist = true ↔
      ∃ host port, HostPort (ported addr) host port ∧
        (∀ t, wtext = some t → Means t action host port) ∧
        ∀ t, btext = some t → ¬ Means t action host port := by
    simp only [RtProxy.can_iff, hw.can_iff, hb.can_iff, address_iff, HostPort, true_iff,
      Bool.false_eq_true, false_iff]
  refine ⟨hcan, fun h hcolon => ?_⟩
  obtain ⟨host, port, haddr, hwhite, hblack⟩ := hcan.mp h
  have hported : ported addr = addr := if_pos (decide_eq_true hcolon)
  rw [hported] at haddr
  have hchain := splitHostPort_of_address (address_iff.mpr haddr)
  refine ⟨host, port, haddr, hwhite, hblack, hchain, Relay.splits_iff.mpr hchain, ?_⟩
  obtain ⟨p, n, hsplit, hn, rfl⟩ := address_iff.mpr haddr
  unfold Socks5.parseAddress
  rw [hsplit]
  simp only [hn]

/-- A host of a domain, on a port of a range whose bounds are swapped. -/
theorem can_decides_domain :
    ∃ host port, HostPort "a.example.com:443" host port ∧
      (∀ t, some "tcp:*.example.com:80,1000-400" = some t → Means t "tcp" host port) ∧
      (∀ t, none = some t → ¬ Means t "tcp" host port) ∧
      splitHostPort "a.example.com:443" = .ok (host, port) ∧
      Relay.Splits "a.example.com:443" host port ∧
      Socks5.parseAddress "a.example.com:443" = .ok (host, port) :=
  (@can_decides (some "tcp:*.example.com:80,1000-400") none
    (some [⟨["tcp"], ["*.example.com"], [⟨80, 80⟩, ⟨400, 1000⟩]⟩]) none
    (by show Permissions.parse _ = _; decide) trivial "tcp" "a.example.com:443").2
    (by decide) (by decide)

end RtProxy
