import RtProxy.Chain.Dial
import RtProxy.Lib.NetText
import RtProxy.Permissions

/-!
How an address splits into a host and a port.

Each splitting function is described by the addresses it accepts.  An address is
`host:port`, or `[host]:port` where the host has a colon.
-/

namespace RtProxy

open Text

/-- The port as it is printed. -/
abbrev portText (port : UInt16) : String := toString port.toNat

theorem toList_plain (host port : String) :
    (s!"{host}:{port}").toList = host.toList ++ ':' :: port.toList := by
  show (host ++ ":" ++ port).toList = _
  rw [String.toList_append, String.toList_append, List.append_assoc]
  rfl

/-- The port of HTTP, written out. -/
theorem plain_http (host : String) {port : String} (h : port = "80") :
    s!"{host}:80" = s!"{host}:{port}" := by
  apply String.toList_inj.mp
  rw [toList_plain, h, String.toList_append]
  rfl

theorem toList_bracketed (host port : String) :
    (s!"[{host}]:{port}").toList = '[' :: (host.toList ++ ']' :: ':' :: port.toList) := by
  show ("[" ++ host ++ "]:" ++ port).toList = _
  rw [String.toList_append, String.toList_append, String.toList_append, List.append_assoc,
    List.append_assoc]
  rfl

/-- A name in brackets. -/
abbrev brackets (name : String) : String := s!"[{name}]"

theorem toList_brackets (name : String) :
    (s!"[{name}]").toList = '[' :: (name.toList ++ [']']) := by
  show ("[" ++ name ++ "]").toList = _
  rw [String.toList_append, String.toList_append, List.append_assoc]
  rfl

/-- A bracketed address is a name in brackets and a port. -/
theorem bracketed_eq_plain (host port : String) :
    (s!"[{host}]:{port}" : String) = s!"{brackets host}:{port}" := by
  apply String.toList_inj.mp
  rw [toList_bracketed, toList_plain, toList_brackets]
  simp

theorem parseUnsigned_portText (port : UInt16) :
    parseUnsigned (2 ^ 16) (portText port) = some port.toNat :=
  parseUnsigned_toDigits port.toNat_lt

/-- A port that is read has none of the characters that separate it. -/
theorem not_mem_of_parseUnsigned {bound n : Nat} {s : String}
    (h : parseUnsigned bound s = some n) :
    ':' ∉ s.toList ∧ '[' ∉ s.toList ∧ ']' ∉ s.toList := by
  have hchar (c : Char) (hne : ¬ (c = '+' ∨ (digit? c).isSome)) : c ∉ s.toList :=
    fun hc => hne (chars_of_parseUnsigned h hc)
  exact ⟨hchar _ (by decide), hchar _ (by decide), hchar _ (by decide)⟩

/-- An address has one last colon. -/
theorem plain_inj {a b p q : List Char} (hp : ':' ∉ p) (hq : ':' ∉ q)
    (h : a ++ ':' :: p = b ++ ':' :: q) : a = b ∧ p = q := by
  have hcut := cutLast_append a hp
  rw [h, cutLast_append b hq] at hcut
  cases hcut
  exact ⟨rfl, rfl⟩

/-! ## Access rules -/

/-- The host and the port of an address have no bracket, and a host with a colon stands
in brackets. -/
theorem Permissions.splitHostPort_eq_ok {addr host port : String} :
    Permissions.splitHostPort addr = .ok (host, port) ↔
      ('[' ∉ host.toList ∧ ']' ∉ host.toList)
        ∧ (':' ∉ port.toList ∧ '[' ∉ port.toList ∧ ']' ∉ port.toList)
        ∧ (addr = s!"[{host}]:{port}" ∨ ':' ∉ host.toList ∧ addr = s!"{host}:{port}") := by
  constructor
  · intro h
    unfold Permissions.splitHostPort at h
    split at h
    · cases h
    rename_i before p hlast
    obtain ⟨heq, hport⟩ := eq_of_cutLast hlast
    split at h
    · rename_i tail htail
      split at h
      · cases h
      rename_i inner after hfirst
      obtain ⟨rfl, hinner⟩ := eq_of_cutFirst hfirst
      split_ifs at h with hafter hlen hopen hclose
      cases h
      rw [htail] at heq
      -- the last colon follows the bracket
      have hlen' : ('[' :: (inner ++ [']'])).length = before.length := by
        rw [List.length_cons, List.length_append]
        exact hlen
      have hsplit : '[' :: (inner ++ [']']) ++ after = before ++ ':' :: p := by
        rw [← heq]
        simp
      obtain ⟨-, rfl⟩ := List.append_inj hsplit hlen'
      simp only [List.mem_append, List.mem_cons, not_or] at hopen hclose
      refine ⟨⟨?_, ?_⟩, ⟨?_, ?_, ?_⟩, .inl ?_⟩
      · simpa using hopen.1
      · simpa using hinner
      · simpa using hport
      · simpa using hopen.2.2.2
      · simpa using hclose.2
      · apply String.toList_inj.mp
        rw [toList_bracketed, htail, String.toList_ofList, String.toList_ofList]
    · rename_i cs hcs
      split_ifs at h with hcolon hopen hclose
      cases h
      rw [heq, List.mem_append, List.mem_cons, not_or, not_or] at hopen hclose
      refine ⟨⟨?_, ?_⟩, ⟨?_, ?_, ?_⟩, .inr ⟨?_, ?_⟩⟩
      · simpa using hopen.1
      · simpa using hclose.1
      · simpa using hport
      · simpa using hopen.2.2
      · simpa using hclose.2.2
      · simpa using hcolon
      · apply String.toList_inj.mp
        rw [toList_plain, heq, String.toList_ofList, String.toList_ofList]
  · rintro ⟨⟨hopen, hclose⟩, ⟨hcolon, hpopen, hpclose⟩, rfl | ⟨hplain, rfl⟩⟩
    · have hlast : cutLast ':' ('[' :: (host.toList ++ ']' :: ':' :: port.toList))
          = some ('[' :: (host.toList ++ [']']), port.toList) :=
        cutLast_eq_some.mpr ⟨by simp, hcolon⟩
      have hfirst := cutFirst_append hclose (':' :: port.toList)
      unfold Permissions.splitHostPort
      simp only [toList_bracketed, hlast, hfirst]
      rw [if_neg (List.cons_ne_nil _ _), if_pos (by simp), if_neg (by simp [hopen, hpopen]),
        if_neg (by simp [hpclose]), String.ofList_toList, String.ofList_toList]
    · have hlast : cutLast ':' (s!"{host}:{port}").toList = some (host.toList, port.toList) := by
        rw [toList_plain, cutLast_eq_some]
        exact ⟨rfl, hcolon⟩
      unfold Permissions.splitHostPort
      simp only [hlast]
      split
      · rename_i tail htail
        rw [toList_plain] at htail
        cases hh : host.toList with
        | nil =>
          rw [hh] at htail
          cases htail
        | cons c cs =>
          rw [hh] at htail
          cases htail
          rw [hh] at hopen
          exact absurd List.mem_cons_self hopen
      · rw [if_neg hplain, toList_plain, if_neg (by simp [hopen, hpopen]),
          if_neg (by simp [hclose, hpclose]), String.ofList_toList, String.ofList_toList]

/-- The address is one of the host and the port. -/
def Address (addr host : String) (port : UInt16) : Prop :=
  ∃ p n, Permissions.splitHostPort addr = .ok (host, p) ∧ parseUnsigned (2 ^ 16) p = some n
    ∧ port = UInt16.ofNat n

theorem address_iff {addr host : String} {port : UInt16} :
    Address addr host port ↔ ('[' ∉ host.toList ∧ ']' ∉ host.toList)
      ∧ ∃ p n, parseUnsigned (2 ^ 16) p = some n ∧ port = UInt16.ofNat n
        ∧ (addr = s!"[{host}]:{p}" ∨ ':' ∉ host.toList ∧ addr = s!"{host}:{p}") := by
  constructor
  · rintro ⟨p, n, hsplit, hn, hport⟩
    obtain ⟨hhost, -, hform⟩ := Permissions.splitHostPort_eq_ok.mp hsplit
    exact ⟨hhost, p, n, hn, hport, hform⟩
  · rintro ⟨hhost, p, n, hn, hport, hform⟩
    exact ⟨p, n, Permissions.splitHostPort_eq_ok.mpr ⟨hhost, not_mem_of_parseUnsigned hn, hform⟩,
      hn, hport⟩

/-- A name with a port is an address of the name, or of the host that the name has in
brackets. -/
theorem address_plain {name host : String} {port : UInt16} :
    Address s!"{name}:{portText port}" host port ↔ ('[' ∉ host.toList ∧ ']' ∉ host.toList)
      ∧ (name = s!"[{host}]" ∨ ':' ∉ host.toList ∧ name = host) := by
  have hport := parseUnsigned_portText port
  have hname {x y p : String} {n : Nat} (hn : parseUnsigned (2 ^ 16) p = some n)
      (heq : (s!"{x}:{portText port}" : String) = s!"{y}:{p}") : x = y := by
    have hl := congrArg String.toList heq
    rw [toList_plain, toList_plain] at hl
    exact String.toList_inj.mp
      (plain_inj (not_mem_of_parseUnsigned hport).1 (not_mem_of_parseUnsigned hn).1 hl).1
  rw [address_iff]
  constructor
  · rintro ⟨hhost, p, n, hn, -, heq | ⟨hcolon, heq⟩⟩
    · rw [bracketed_eq_plain] at heq
      exact ⟨hhost, .inl (hname hn heq)⟩
    · exact ⟨hhost, .inr ⟨hcolon, hname hn heq⟩⟩
  · rintro ⟨hhost, rfl | ⟨hcolon, rfl⟩⟩
    · refine ⟨hhost, portText port, port.toNat, hport, UInt16.ofNat_toNat.symm, .inl ?_⟩
      exact (bracketed_eq_plain host (portText port)).symm
    · exact ⟨hhost, portText port, port.toNat, hport, UInt16.ofNat_toNat.symm, .inr ⟨hcolon, rfl⟩⟩

theorem Address.unique {addr host host' : String} {port port' : UInt16}
    (h : Address addr host port) (h' : Address addr host' port') : host = host' ∧ port = port' := by
  obtain ⟨p, n, hsplit, hn, rfl⟩ := h
  obtain ⟨p', n', hsplit', hn', rfl⟩ := h'
  rw [hsplit] at hsplit'
  cases hsplit'
  rw [hn] at hn'
  cases hn'
  exact ⟨rfl, rfl⟩

/-! ## The chain -/

/-- A bracketed host ends at the first bracket; a plain one does not begin with a
bracket. -/
theorem splitHostPort_eq_ok {addr host : String} {port : UInt16} :
    splitHostPort addr = .ok (host, port) ↔
      ∃ p n, parseUnsigned (2 ^ 16) p = some n ∧ port = UInt16.ofNat n
        ∧ (']' ∉ host.toList ∧ addr = s!"[{host}]:{p}"
          ∨ host.toList.head? ≠ some '[' ∧ addr = s!"{host}:{p}") := by
  constructor
  · intro h
    unfold splitHostPort at h
    simp only at h
    split at h
    · cases h
    rename_i hs ps hparts
    split at h
    · cases h
    rename_i n hn
    cases h
    refine ⟨String.ofList ps, n, hn, rfl, ?_⟩
    split at hparts
    · rename_i rest hrest
      split at hparts
      · cases hparts
      · rename_i inner p hfirst
        cases hparts
        obtain ⟨rfl, hinner⟩ := eq_of_cutFirst hfirst
        refine .inl ⟨by simpa using hinner, ?_⟩
        apply String.toList_inj.mp
        rw [toList_bracketed, hrest, String.toList_ofList, String.toList_ofList]
      · cases hparts
    · rename_i cs hcs
      split at hparts
      · cases hparts
      · rename_i x hlast
        cases hparts
        obtain ⟨heq, -⟩ := eq_of_cutLast hlast
        refine .inr ⟨?_, ?_⟩
        · intro hhead
          rw [String.toList_ofList] at hhead
          cases hs with
          | nil => cases hhead
          | cons c hs =>
            cases hhead
            exact hcs _ heq
        · apply String.toList_inj.mp
          rw [toList_plain, heq, String.toList_ofList, String.toList_ofList]
  · rintro ⟨p, n, hn, rfl, ⟨hclose, rfl⟩ | ⟨hhead, rfl⟩⟩
    · have hfirst := cutFirst_append hclose (':' :: p.toList)
      unfold splitHostPort
      simp only [toList_bracketed, hfirst, String.ofList_toList, hn]
    · have hlast : cutLast ':' (host.toList ++ ':' :: p.toList) = some (host.toList, p.toList) :=
        cutLast_append _ (not_mem_of_parseUnsigned hn).1
      have hno (rest : List Char) : host.toList ++ ':' :: p.toList ≠ '[' :: rest := by
        cases hh : host.toList with
        | nil => exact fun h => nomatch h
        | cons c cs =>
          rintro heq
          cases heq
          rw [hh] at hhead
          exact hhead rfl
      unfold splitHostPort
      simp only [toList_plain]
      split
      · rename_i e hparts
        split at hparts
        · rename_i hcut
          rw [hlast] at hcut
          cases hcut
        · cases hparts
      · rename_i hs ps hparts
        split at hparts
        · cases hparts
        · rename_i x hcut
          rw [hlast] at hcut
          cases hcut
          cases hparts
          simp only [String.ofList_toList, hn]

/-- The chain splits an address into its host and its port. -/
theorem splitHostPort_of_address {addr host : String} {port : UInt16}
    (h : Address addr host port) : splitHostPort addr = .ok (host, port) := by
  obtain ⟨⟨hopen, hclose⟩, p, n, hn, hport, hform⟩ := address_iff.mp h
  apply splitHostPort_eq_ok.mpr
  refine ⟨p, n, hn, hport, ?_⟩
  rcases hform with heq | ⟨-, heq⟩
  · exact .inl ⟨hclose, heq⟩
  · refine .inr ⟨fun hhead => hopen ?_, heq⟩
    exact List.mem_of_mem_head? hhead

/-- The chain splits a name with a port into the two, unless the name has brackets, which it
loses. -/
theorem splitHostPort_plain {name host : String} {port q : UInt16} :
    splitHostPort s!"{name}:{portText q}" = .ok (host, port) ↔ port = q
      ∧ (']' ∉ host.toList ∧ name = s!"[{host}]" ∨ host.toList.head? ≠ some '[' ∧ name = host) := by
  have hport := parseUnsigned_portText q
  have hname {x y p : String} {n : Nat} (hn : parseUnsigned (2 ^ 16) p = some n)
      (heq : (s!"{x}:{portText q}" : String) = s!"{y}:{p}") :
      x = y ∧ UInt16.ofNat n = q := by
    have hl := congrArg String.toList heq
    rw [toList_plain, toList_plain] at hl
    obtain ⟨hx, hp⟩ := plain_inj (not_mem_of_parseUnsigned hport).1 (not_mem_of_parseUnsigned hn).1 hl
    rw [← String.toList_inj.mp hp, hport] at hn
    cases hn
    exact ⟨String.toList_inj.mp hx, UInt16.ofNat_toNat⟩
  rw [splitHostPort_eq_ok]
  constructor
  · rintro ⟨p, n, hn, rfl, ⟨hclose, heq⟩ | ⟨hhead, heq⟩⟩
    · rw [bracketed_eq_plain] at heq
      obtain ⟨rfl, hn'⟩ := hname hn heq
      exact ⟨hn', .inl ⟨hclose, rfl⟩⟩
    · obtain ⟨rfl, hn'⟩ := hname hn heq
      exact ⟨hn', .inr ⟨hhead, rfl⟩⟩
  · rintro ⟨rfl, ⟨hclose, rfl⟩ | ⟨hhead, rfl⟩⟩
    · refine ⟨portText port, port.toNat, hport, UInt16.ofNat_toNat.symm, .inl ⟨hclose, ?_⟩⟩
      exact (bracketed_eq_plain host (portText port)).symm
    · exact ⟨portText port, port.toNat, hport, UInt16.ofNat_toNat.symm, .inr ⟨hhead, rfl⟩⟩

/-- A shorter name is not split into the host. -/
theorem splitHostPort_ne {name host : String} (h : name.toList.length < host.toList.length)
    (port q : UInt16) : splitHostPort s!"{name}:{portText q}" ≠ .ok (host, port) := by
  intro hsplit
  rcases (splitHostPort_plain.mp hsplit).2 with ⟨-, rfl⟩ | ⟨-, rfl⟩
  · rw [toList_brackets, List.length_cons, List.length_append] at h
    omega
  · exact Nat.lt_irrefl _ h

end RtProxy
