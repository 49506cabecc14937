/-
What IP addresses look like as text.

An IPv4 address has one text, so a string that parses is the text of what it parses
to.  The text of an address has no brackets, and that of an IPv6 address has a colon.
-/
import RtProxy.Lib.Cut
import RtProxy.Lib.Net

namespace Net

open Text

namespace Ipv4Addr

theorem eq_of_octet? {cs : List Char} {x : UInt8} (h : octet? cs = some x) :
    cs = Nat.toDigits 10 x.toNat := by
  unfold octet? at h
  split at h
  · cases h
  · rename_i hz
    split_ifs at h
    split at h
    · rename_i n hn
      split_ifs at h with hlt
      cases h
      rw [UInt8.toNat_ofNat_of_lt' hlt]
      exact eq_toDigits_of_decimal? hn fun c rest heq => hz c rest heq
    · cases h

theorem toList_text (ip : Ipv4Addr) :
    ip.text.toList = Nat.toDigits 10 ip.a.toNat ++ '.' :: (Nat.toDigits 10 ip.b.toNat ++
      '.' :: (Nat.toDigits 10 ip.c.toNat ++ '.' :: Nat.toDigits 10 ip.d.toNat)) := by
  have hdot : (toString ".").toList = ['.'] := rfl
  simp [text, hdot]

theorem text_of_parse {s : String} {ip : Ipv4Addr} (h : parse s = some ip) : ip.text = s := by
  have hpieces := intercalate_pieces '.' s.toList
  unfold parse ofPieces at h
  split at h
  · rename_i a b c d heq
    obtain ⟨x, hx, h⟩ := Option.bind_eq_some_iff.mp h
    obtain ⟨y, hy, h⟩ := Option.bind_eq_some_iff.mp h
    obtain ⟨z, hz, h⟩ := Option.bind_eq_some_iff.mp h
    obtain ⟨w, hw, h⟩ := Option.bind_eq_some_iff.mp h
    cases h
    apply String.toList_inj.mp
    rw [toList_text, ← hpieces, heq, eq_of_octet? hx, eq_of_octet? hy, eq_of_octet? hz,
      eq_of_octet? hw]
    simp [List.intercalate]
  · cases h

theorem mem_text {ip : Ipv4Addr} {c : Char} (h : c ∈ ip.text.toList) :
    (digit? c).isSome ∨ c = '.' := by
  have hdigits (n : Nat) (hc : c ∈ Nat.toDigits 10 n) : (digit? c).isSome :=
    isSome_digit?_of_decimal? (decimal?_toDigits n) c hc
  rw [toList_text] at h
  simp only [List.mem_append, List.mem_cons] at h
  rcases h with h | h | h | h | h | h | h
  · exact .inl (hdigits _ h)
  · exact .inr h
  · exact .inl (hdigits _ h)
  · exact .inr h
  · exact .inl (hdigits _ h)
  · exact .inr h
  · exact .inl (hdigits _ h)

end Ipv4Addr

namespace Ipv6Addr

/-- The characters that the text of an address may have. -/
def Textual (c : Char) : Prop := (hexDigit? c).isSome ∨ c = ':' ∨ c = '.'

theorem textual_of_digit {c : Char} (h : (digit? c).isSome) : Textual c := by
  left
  unfold digit? at h
  split_ifs at h with hc
  · rw [hexDigit?, if_pos hc]
    rfl
  · exact absurd h (by decide)

theorem textual_of_mem_toDigits {n : Nat} {c : Char} (h : c ∈ Nat.toDigits 16 n) : Textual c := by
  have hdigit : ∀ k < 16, (hexDigit? k.digitChar).isSome := by decide
  induction n using Nat.strongRecOn with
  | _ n ih =>
    rw [Nat.toDigits_eq_if (by decide)] at h
    split_ifs at h with hn
    · rw [List.mem_singleton.mp h]
      exact .inl (hdigit n hn)
    · rcases List.mem_append.mp h with h | h
      · exact ih (n / 16) (by omega) h
      · rw [List.mem_singleton.mp h]
        exact .inl (hdigit _ (Nat.mod_lt _ (by decide)))

theorem joined_cons_cons (s t : UInt16) (l : List UInt16) :
    (joined (s :: t :: l)).toList = (hexText s).toList ++ ':' :: (joined (t :: l)).toList := by
  rw [joined, List.map_cons, List.map_cons, String.intercalate_cons_cons, String.toList_append,
    String.toList_append, List.append_assoc]
  rfl

theorem mem_joined {l : List UInt16} {c : Char} (h : c ∈ (joined l).toList) : Textual c := by
  have hhex (s : UInt16) (hc : c ∈ (hexText s).toList) : Textual c := by
    rw [hexText, String.toList_ofList] at hc
    exact textual_of_mem_toDigits hc
  induction l with
  | nil => exact absurd h List.not_mem_nil
  | cons s l ih =>
    cases l with
    | nil =>
      rw [joined, List.map_cons, List.map_nil, String.intercalate_singleton] at h
      exact hhex s h
    | cons t l =>
      rw [joined_cons_cons] at h
      rcases List.mem_append.mp h with h | h
      · exact hhex s h
      · rcases List.mem_cons.mp h with h | h
        · exact .inr (.inl h)
        · exact ih h

theorem mem_text {ip : Ipv6Addr} {c : Char} (h : c ∈ ip.text.toList) : Textual c := by
  unfold text at h
  split at h
  · have hfront : ("::ffff:" : String).toList.all (fun c => (hexDigit? c).isSome || c == ':') := by
      decide
    rw [String.toList_append] at h
    rcases List.mem_append.mp h with h | h
    · have hc := List.all_eq_true.mp hfront c h
      rw [Bool.or_eq_true, beq_iff_eq] at hc
      exact hc.imp_right .inl
    · exact (Ipv4Addr.mem_text h).elim textual_of_digit fun hdot => .inr (.inr hdot)
  · simp only at h
    split_ifs at h
    · simp only [String.toList_append, List.mem_append] at h
      rcases h with (h | h) | h
      · exact mem_joined h
      · have hcolon : ("::" : String).toList = [':', ':'] := rfl
        rw [hcolon] at h
        right
        left
        simpa using h
      · exact mem_joined h
    · exact mem_joined h

theorem colon_mem_text (ip : Ipv6Addr) : ':' ∈ ip.text.toList := by
  obtain ⟨segments, eight⟩ := ip
  unfold text
  split
  · have hfront : ':' ∈ ("::ffff:" : String).toList := by decide
    rw [String.toList_append]
    exact List.mem_append_left _ hfront
  · simp only
    split_ifs
    · simp only [String.toList_append, List.mem_append]
      exact .inl (.inr (by decide))
    · match segments, eight with
      | s :: t :: l, _ =>
        rw [joined_cons_cons]
        exact List.mem_append_right _ List.mem_cons_self

/-- What is read of a text before the rest of it, which has only the characters of an
address. -/
def Reads (cs rest : List Char) : Prop := ∃ front, cs = front ++ rest ∧ ∀ c ∈ front, Textual c

theorem Reads.refl (cs : List Char) : Reads cs cs :=
  ⟨[], rfl, fun _ h => absurd h List.not_mem_nil⟩

theorem Reads.trans {as bs cs : List Char} (h : Reads as bs) (h' : Reads bs cs) : Reads as cs := by
  obtain ⟨front, rfl, hfront⟩ := h
  obtain ⟨mid, rfl, hmid⟩ := h'
  exact ⟨front ++ mid, (List.append_assoc _ _ _).symm,
    fun c hc => (List.mem_append.mp hc).elim (hfront c) (hmid c)⟩

theorem Reads.cons {c : Char} (h : Textual c) (cs : List Char) : Reads (c :: cs) cs :=
  ⟨[c], rfl, fun _ hc => List.mem_singleton.mp hc ▸ h⟩

theorem Reads.suffix {cs rest : List Char} (h : Reads cs rest) : rest <:+ cs := by
  obtain ⟨front, rfl, -⟩ := h
  exact List.suffix_append _ _

theorem reads_group? {k n : Nat} {cs rest : List Char} {g : UInt16}
    (h : group? k n cs = some (g, rest)) : Reads cs rest := by
  induction cs generalizing k n with
  | nil =>
    rw [group?] at h
    split_ifs at h
    cases h
    exact .refl _
  | cons c cs ih =>
    rw [group?] at h
    split at h
    · rename_i d hd
      split_ifs at h
      have hc : Textual c := .inl (by rw [hd]; rfl)
      exact (Reads.cons hc cs).trans (ih h)
    · split_ifs at h
      cases h
      exact .refl _

theorem reads_embedded? {cs rest : List Char} {ip : Ipv4Addr}
    (h : embedded? cs = some (ip, rest)) : Reads cs rest := by
  unfold embedded? at h
  simp only at h
  split at h
  · cases h
    refine ⟨_, (List.take_append_drop (List.takeWhile (fun c => (digit? c).isSome || c = '.') cs).length
      cs).symm, fun c hc => ?_⟩
    rw [← List.prefix_iff_eq_take.mp (List.takeWhile_prefix _)] at hc
    have hp := List.all_eq_true.mp List.all_takeWhile c hc
    rw [Bool.or_eq_true, decide_eq_true_iff] at hp
    exact hp.elim textual_of_digit fun hdot => .inr (.inr hdot)
  · cases h

theorem reads_afterSep {i : Nat} {cs rest : List Char} (h : afterSep i cs = some rest) :
    Reads cs rest := by
  unfold afterSep at h
  split_ifs at h
  · cases h
    exact .refl _
  · split at h
    · cases h
      exact .cons (.inr (.inl rfl)) _
    · cases h

theorem reads_readGroups (left i : Nat) (cs : List Char) :
    Reads cs (readGroups left i cs).2.2 := by
  induction left generalizing i cs with
  | zero => exact .refl cs
  | succ left ih =>
    rw [readGroups]
    cases hsep : afterSep i cs with
    | none => exact .refl cs
    | some rest =>
      have hfirst := reads_afterSep hsep
      simp only
      split
      · rename_i ip tail hip
        split_ifs at hip
        exact hfirst.trans (reads_embedded? hip)
      · split
        · exact .refl cs
        · rename_i g tail hg
          exact hfirst.trans ((reads_group? hg).trans (ih (i + 1) tail))

/-- A literal has only the characters of an address. -/
theorem textual_of_parse {s : String} {ip : Ipv6Addr} (h : parse s = some ip) :
    ∀ c ∈ s.toList, Textual c := by
  have hall {cs : List Char} (hr : Reads cs []) : ∀ c ∈ cs, Textual c := by
    obtain ⟨front, rfl, hfront⟩ := hr
    rw [List.append_nil]
    exact hfront
  have hfront := reads_readGroups 8 0 s.toList
  unfold parse at h
  generalize readGroups 8 0 s.toList = r at h hfront
  obtain ⟨front, v4, rest⟩ := r
  simp only at h hfront
  split_ifs at h with hfull hrest
  · rw [hrest] at hfront
    exact hall hfront
  · split at h
    · rename_i rest
      have hback := reads_readGroups (7 - front.length) 0 rest
      generalize readGroups (7 - front.length) 0 rest = r at h hback
      obtain ⟨back, v4', rest'⟩ := r
      simp only at h hback
      split_ifs at h with hrest'
      rw [hrest'] at hback
      have hcolon : Textual ':' := .inr (.inl rfl)
      exact hall (hfront.trans ((Reads.cons hcolon _).trans ((Reads.cons hcolon _).trans hback)))
    · cases h

/-- Without a colon there is at most one group, or one IPv4 address. -/
theorem readGroups_no_colon {cs : List Char} (h : ':' ∉ cs) (left i : Nat) :
    (readGroups left i cs).1.length ≤ 2 := by
  cases left with
  | zero => exact Nat.zero_le 2
  | succ left =>
    rw [readGroups]
    cases hsep : afterSep i cs with
    | none => exact Nat.zero_le 2
    | some rest =>
      have hrest : rest = cs := by
        unfold afterSep at hsep
        split_ifs at hsep
        · exact (Option.some.inj hsep).symm
        · split at hsep
          · exact absurd List.mem_cons_self h
          · cases hsep
      rw [hrest]
      simp only
      split
      · rename_i ip tail hip
        split_ifs at hip
        exact Nat.le_refl 2
      · split
        · exact Nat.zero_le 2
        · rename_i g tail hg
          have hno : ':' ∉ tail := fun hmem => h ((reads_group? hg).suffix.mem hmem)
          -- the next group would have to begin with a colon
          have hnext : readGroups left (i + 1) tail = ([], false, tail) := by
            cases left with
            | zero => rfl
            | succ left =>
              have hsep' : afterSep (i + 1) tail = none := by
                unfold afterSep
                rw [if_neg (Nat.succ_ne_zero i)]
                split
                · exact absurd List.mem_cons_self hno
                · rfl
              rw [readGroups, hsep']
          rw [hnext]
          exact Nat.le_succ 1

/-- An IPv6 literal has a colon. -/
theorem colon_mem_of_parse {s : String} {ip : Ipv6Addr} (h : parse s = some ip) :
    ':' ∈ s.toList := by
  by_contra hno
  have hlen := readGroups_no_colon hno 8 0
  have hsuffix := (reads_readGroups 8 0 s.toList).suffix
  unfold parse at h
  generalize readGroups 8 0 s.toList = r at h hlen hsuffix
  obtain ⟨front, v4, rest⟩ := r
  simp only at h hlen hsuffix
  split_ifs at h with hfull
  · omega
  · split at h
    · exact hno (hsuffix.mem List.mem_cons_self)
    · cases h

/-- A bracket begins no address. -/
theorem parse_bracket {s : String} {rest : List Char} (h : s.toList = '[' :: rest) :
    parse s = none := by
  rw [parse, h]
  rfl

end Ipv6Addr

/-- An IPv4 literal has a dot. -/
theorem Ipv4Addr.dot_mem_of_parse {s : String} {ip : Ipv4Addr} (h : parse s = some ip) :
    '.' ∈ s.toList := by
  by_contra hno
  rw [parse, Text.pieces_eq_self hno] at h
  cases h

/-- A name without dots and colons is no literal. -/
theorem IpAddr.parse_eq_none {s : String} (hdot : '.' ∉ s.toList) (hcolon : ':' ∉ s.toList) :
    parse s = none := by
  have h4 : Ipv4Addr.parse s = none :=
    Option.eq_none_iff_forall_ne_some.mpr fun _ hip => hdot (Ipv4Addr.dot_mem_of_parse hip)
  have h6 : Ipv6Addr.parse s = none :=
    Option.eq_none_iff_forall_ne_some.mpr fun _ hip => hcolon (Ipv6Addr.colon_mem_of_parse hip)
  rw [parse, h4, h6]
  rfl

theorem IpAddr.parse_bracket {s : String} {rest : List Char} (h : s.toList = '[' :: rest) :
    parse s = none := by
  have h4 : Ipv4Addr.parse s = none := by
    cases hip : Ipv4Addr.parse s with
    | none => rfl
    | some ip =>
      have htext := Ipv4Addr.text_of_parse hip
      have hmem : '[' ∈ ip.text.toList := by
        rw [htext, h]
        exact List.mem_cons_self
      exact absurd (Ipv4Addr.mem_text hmem) (by decide)
  rw [parse, h4, Ipv6Addr.parse_bracket h]
  rfl

theorem IpAddr.mem_text {ip : IpAddr} {c : Char} (h : c ∈ ip.text.toList) :
    Ipv6Addr.Textual c := by
  cases ip with
  | v4 ip =>
    rcases Ipv4Addr.mem_text h with h | h
    · exact Ipv6Addr.textual_of_digit h
    · exact .inr (.inr h)
  | v6 ip => exact Ipv6Addr.mem_text h

/-- A colon is no part of an IPv4 literal. -/
theorem Ipv4Addr.parse_of_colon {s : String} (h : ':' ∈ s.toList) : parse s = none := by
  cases hip : parse s with
  | none => rfl
  | some ip =>
    rw [← text_of_parse hip] at h
    exact absurd (mem_text h) (by decide)

theorem IpAddr.parse_of_v6 {s : String} {ip : Ipv6Addr} (h : Ipv6Addr.parse s = some ip) :
    parse s = some (.v6 ip) := by
  rw [parse, Ipv4Addr.parse_of_colon (Ipv6Addr.colon_mem_of_parse h), h]
  rfl

theorem IpAddr.textual_of_parse {s : String} {ip : IpAddr} (h : parse s = some ip) :
    ∀ c ∈ s.toList, Ipv6Addr.Textual c := by
  intro c hc
  unfold parse at h
  split at h
  · rename_i v4 h4
    rw [← Ipv4Addr.text_of_parse h4] at hc
    have hmem : c ∈ (IpAddr.v4 v4).text.toList := hc
    exact IpAddr.mem_text hmem
  · obtain ⟨v6, h6, -⟩ := Option.map_eq_some_iff.mp h
    exact Ipv6Addr.textual_of_parse h6 c hc

/-- The text of an address has no brackets. -/
theorem IpAddr.not_mem_text (ip : IpAddr) : '[' ∉ ip.text.toList ∧ ']' ∉ ip.text.toList := by
  have h (c : Char) (hc : ¬ Ipv6Addr.Textual c) : c ∉ ip.text.toList := fun hm => hc (mem_text hm)
  exact ⟨h _ (by unfold Ipv6Addr.Textual; decide), h _ (by unfold Ipv6Addr.Textual; decide)⟩

end Net
