import RtProxy.Lib.Slices
import RtProxy.Targets

/-!
Splitting an address at byte offsets (`split_host_port` in `permissions.rs`).

The source looks for the last colon and the first bracket and slices the address at what
it finds.  Every offset is between two characters, so it never panics, and what is left is
the grammar of the addresses.
-/

namespace RtProxy
namespace Permissions

open Text

/-- The checks for brackets that are left over, from `j` and from `k` on. -/
def withoutBrackets (addr : String) (host : List Char) (i j k : Nat) :
    Except Panic (Except AddrError (String × String)) := do
  if '[' ∈ (← sliceFrom addr.toList j) then return .error (.unexpectedLBracket addr)
  if ']' ∈ (← sliceFrom addr.toList k) then return .error (.unexpectedRBracket addr)
  return .ok (String.ofList host, String.ofList (← sliceFrom addr.toList (i + 1)))

/-- `split_host_port` as it slices; `i` is the place of the last colon. -/
def splitHostPortAt (addr : String) : Except Panic (Except AddrError (String × String)) :=
  match rfind ':' addr.toList with
  | none => return .error (.missingPort addr)
  | some i => do
    if (← byteAt addr.toList 0) = 0x5B then
      match find ']' addr.toList with
      | none => return .error (.missingRBracket addr)
      | some e =>
        if e + 1 = width addr.toList then return .error (.missingPort addr)
        else if e + 1 = i then
          withoutBrackets addr (← slice addr.toList 1 e) i 1 (e + 1)
        else if (← byteAt addr.toList (e + 1)) = 0x3A then return .error (.tooManyColons addr)
        else return .error (.missingPort addr)
    else
      let host ← sliceTo addr.toList i
      if ':' ∈ host then return .error (.tooManyColons addr)
      else withoutBrackets addr host i 0 0

/-! ## The offsets -/

/-- Two fronts of a text that take as many bytes have as many characters. -/
theorem width_eq_iff {a b c d : List Char} (h : a ++ b = c ++ d) :
    width a = width c ↔ a.length = c.length := by
  constructor
  · intro hw
    rcases List.append_eq_append_iff.mp h with ⟨r, rfl, -⟩ | ⟨r, rfl, -⟩
    · cases r with
      | nil => rw [List.append_nil]
      | cons x r =>
        have hpos := width_pos x r
        rw [width_append] at hw
        omega
    · cases r with
      | nil => rw [List.append_nil]
      | cons x r =>
        have hpos := width_pos x r
        rw [width_append] at hw
        omega
  · intro hlen
    rw [(List.append_inj h hlen).1]

theorem withoutBrackets_eq {addr : String} {host b p q x y z : List Char}
    (hj : addr.toList = x ++ b) (hk : addr.toList = y ++ q) (hi : addr.toList = z ++ ':' :: p) :
    withoutBrackets addr host (width z) (width x) (width y) =
      .ok (if '[' ∈ b then .error (.unexpectedLBracket addr)
        else if ']' ∈ q then .error (.unexpectedRBracket addr)
        else .ok (String.ofList host, String.ofList p)) := by
  have hj' : sliceFrom addr.toList (width x) = .ok b := by rw [hj, sliceFrom_append]
  have hk' : sliceFrom addr.toList (width y) = .ok q := by rw [hk, sliceFrom_append]
  have hi' : sliceFrom addr.toList (width z + 1) = .ok p := by
    have hz : width z + 1 = width (z ++ [':']) := by
      rw [width_append]
      rfl
    rw [hz, hi, ← List.singleton_append, ← List.append_assoc, sliceFrom_append]
  unfold withoutBrackets
  simp only [hj', hk', hi', Checked.ok_bind]
  split_ifs <;> rfl

/-! ## The grammar -/

/-- An address that begins with a bracket. -/
theorem splitHostPortAt_bracket {addr : String} {tail before port : List Char}
    (htext : addr.toList = '[' :: tail) (hlast : cutLast ':' addr.toList = some (before, port)) :
    splitHostPortAt addr = .ok (splitHostPort addr) := by
  obtain ⟨hcs, -⟩ := eq_of_cutLast hlast
  obtain ⟨x, hx, hbracket⟩ := byteAt_eq_iff (d := '[') (y := 0x5B) (by decide) rfl [] '[' tail
  have hx' : byteAt addr.toList 0 = .ok 0x5B := by
    rw [htext, ← hbracket.mpr rfl]
    exact hx
  have hfind : cutFirst ']' addr.toList = (cutFirst ']' tail).map fun x => ('[' :: x.1, x.2) := by
    rw [htext, cutFirst, if_neg (by decide)]
  unfold splitHostPort
  rw [hlast, htext]
  unfold splitHostPortAt
  rw [rfind_of_cut hlast]
  simp only [hx', Checked.ok_bind, if_true]
  cases hfirst : cutFirst ']' tail with
  | none =>
    rw [find, hfind, hfirst]
    rfl
  | some y =>
    obtain ⟨host, after⟩ := y
    obtain ⟨rfl, -⟩ := eq_of_cutFirst hfirst
    rw [hfirst] at hfind
    rw [find_of_cut hfind]
    simp only
    -- the place behind the bracket
    have hend : width ('[' :: host) + 1 = width ('[' :: (host ++ [']'])) := by
      rw [width_cons, width_cons, width_append]
      rfl
    have hwhole : addr.toList = '[' :: (host ++ [']']) ++ after := by
      rw [htext]
      simp
    have hwidth : width addr.toList = width ('[' :: (host ++ [']'])) + width after := by
      rw [hwhole, width_append]
    have hplace := width_eq_iff (hwhole.symm.trans hcs)
    rw [List.length_cons, List.length_append] at hplace
    rw [hend, hwidth]
    cases after with
    | nil =>
      rw [width_nil, Nat.add_zero, if_pos rfl, if_pos rfl]
      rfl
    | cons d after =>
      have hpos := width_pos d after
      have hslice : slice addr.toList 1 (width ('[' :: host)) = .ok host := by
        rw [htext]
        exact slice_append ['['] host (']' :: d :: after)
      obtain ⟨y, hy, hcolon⟩ :=
        byteAt_eq_iff (d := ':') (y := 0x3A) (by decide) rfl ('[' :: (host ++ [']'])) d after
      have hy' : byteAt addr.toList (width ('[' :: (host ++ [']']))) = .ok y := by
        rw [hwhole]
        exact hy
      rw [if_neg (by omega), if_neg (List.cons_ne_nil _ _), hy', hslice]
      by_cases hlen : host.length + 2 = before.length
      · rw [if_pos (hplace.mpr hlen), if_pos hlen]
        exact withoutBrackets_eq (x := ['[']) (b := host ++ ']' :: d :: after)
          (y := '[' :: (host ++ [']'])) htext hwhole hcs
      · have hhead : (d :: after).head? = some ':' ↔ y = 0x3A := by
          rw [List.head?_cons, Option.some_inj, hcolon]
        rw [if_neg fun h => hlen (hplace.mp h), if_neg hlen, Checked.ok_bind]
        by_cases hd : y = 0x3A
        · rw [if_pos hd, if_pos (hhead.mpr hd)]
          rfl
        · rw [if_neg hd, if_neg fun h => hd (hhead.mp h)]
          rfl

/-- An address that does not. -/
theorem splitHostPortAt_plain {addr : String} {c : Char} {tail before port : List Char}
    (hc : c ≠ '[') (htext : addr.toList = c :: tail)
    (hlast : cutLast ':' addr.toList = some (before, port)) :
    splitHostPortAt addr = .ok (splitHostPort addr) := by
  obtain ⟨hcs, -⟩ := eq_of_cutLast hlast
  obtain ⟨x, hx, hbracket⟩ := byteAt_eq_iff (d := '[') (y := 0x5B) (by decide) rfl [] c tail
  have hx' : byteAt addr.toList 0 = .ok x := by
    rw [htext]
    exact hx
  have hne : ¬ x = 0x5B := fun h => hc (hbracket.mp h)
  have hto : sliceTo addr.toList (width before) = .ok before := by rw [hcs, sliceTo_append]
  have hchar : splitHostPort addr =
      if ':' ∈ before then .error (.tooManyColons addr)
      else if '[' ∈ addr.toList then .error (.unexpectedLBracket addr)
      else if ']' ∈ addr.toList then .error (.unexpectedRBracket addr)
      else .ok (String.ofList before, String.ofList port) := by
    unfold splitHostPort
    rw [hlast]
    simp only
    split
    · rename_i tail' h
      rw [htext] at h
      cases h
      exact absurd rfl hc
    · rfl
  rw [hchar]
  unfold splitHostPortAt
  rw [rfind_of_cut hlast]
  simp only [hx', hto, Checked.ok_bind, if_neg hne]
  by_cases hcolon : ':' ∈ before
  · rw [if_pos hcolon, if_pos hcolon]
    rfl
  · rw [if_neg hcolon, if_neg hcolon]
    exact withoutBrackets_eq (x := []) (y := []) rfl rfl hcs

/-- The address splits as it does between characters, and no offset is inside of one. -/
theorem splitHostPortAt_eq (addr : String) : splitHostPortAt addr = .ok (splitHostPort addr) := by
  cases hlast : cutLast ':' addr.toList with
  | none =>
    unfold splitHostPortAt splitHostPort
    rw [rfind, hlast]
    rfl
  | some x =>
    obtain ⟨before, port⟩ := x
    cases htext : addr.toList with
    | nil =>
      rw [htext] at hlast
      cases hlast
    | cons c tail =>
      by_cases hc : c = '['
      · subst hc
        exact splitHostPortAt_bracket htext hlast
      · exact splitHostPortAt_plain hc htext hlast

/-- A split address is `host:port`, or `[host]:port` in which the host may have colons, and
splitting never panics. -/
theorem split_host_port_grammar (addr host port : String) :
    (∃ r, splitHostPortAt addr = .ok r) ∧
      (splitHostPortAt addr = .ok (.ok (host, port)) ↔
        (addr = s!"{host}:{port}" ∧ (':' ∉ host.toList ∧ '[' ∉ host.toList ∧ ']' ∉ host.toList) ∧
            ('[' ∉ port.toList ∧ ']' ∉ port.toList) ∧ ':' ∉ port.toList) ∨
          (addr = s!"[{host}]:{port}" ∧ ('[' ∉ host.toList ∧ ']' ∉ host.toList) ∧
            ('[' ∉ port.toList ∧ ']' ∉ port.toList) ∧ ':' ∉ port.toList)) := by
  rw [splitHostPortAt_eq]
  refine ⟨⟨_, rfl⟩, ?_⟩
  rw [Except.ok.injEq, splitHostPort_eq_ok]
  constructor
  · rintro ⟨⟨hopen, hclose⟩, ⟨hcolon, hport⟩, rfl | ⟨hplain, rfl⟩⟩
    · exact .inr ⟨rfl, ⟨hopen, hclose⟩, hport, hcolon⟩
    · exact .inl ⟨rfl, ⟨hplain, hopen, hclose⟩, hport, hcolon⟩
  · rintro (⟨rfl, ⟨hplain, hhost⟩, hport, hcolon⟩ | ⟨rfl, hhost, hport, hcolon⟩)
    · exact ⟨hhost, ⟨hcolon, hport⟩, .inr ⟨hplain, rfl⟩⟩
    · exact ⟨hhost, ⟨hcolon, hport⟩, .inl rfl⟩

example : splitHostPortAt "[fe80::1%eth0]:22" = .ok (.ok ("fe80::1%eth0", "22")) := by decide

end Permissions
end RtProxy
