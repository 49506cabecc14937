import RtProxy.Lib.GoDuration
import RtProxy.Lib.Trim

/-!
Durations in configuration files and in the parameters of a node (`auth.rs`, `node.rs`).

Two functions read the durations of Go.  One takes the unit it knows off the text, the other
takes all that stands before the next digit for a unit.  Times are nanoseconds; the
arithmetic of `f64` is a parameter, and only which texts it reads as numbers is known of it.
-/

namespace RtProxy

open GoDuration

/-! ## Floating point -/

/-- What is used of `f64`. -/
class Float64 (F : Type) where
  parse : String → Option F
  ofNat : Nat → F
  add : F → F → F
  mul : F → F → F
  isFinite : F → Bool
  /-- less than zero -/
  isNegative : F → Bool
  /-- greater than zero -/
  isPositive : F → Bool
  /-- `as u64` -/
  toU64 : F → Nat

/-- Digits are a number, and so they are with one dot. -/
class LawfulFloat64 (F : Type) [Float64 F] : Prop where
  parse_isSome (num : List Char) (h : ∀ c ∈ num, numeric c = true) :
    (Float64.parse (F := F) (String.ofList num)).isSome = true ↔ IsNumber num

variable (F : Type) [Float64 F]

/-- The nanoseconds of a unit. -/
def nanos : List (List Char × Nat) :=
  [(['n', 's'], 1), (['u', 's'], 1000), (['\u00B5', 's'], 1000), (['\u03BC', 's'], 1000),
    (['m', 's'], 10 ^ 6), (['s'], 10 ^ 9), (['m'], 60 * 10 ^ 9), (['h'], 3600 * 10 ^ 9)]

/-- The sign is off, and whether it was a minus. -/
def sign : List Char → Bool × List Char
  | '-' :: rest => (true, rest)
  | '+' :: rest => (false, rest)
  | rest => (false, rest)

/-! ## `auth.rs` -/

/-- The first of the units that the text begins with, and the text behind it. -/
def goUnit (rest : List Char) : Option (Nat × List Char) :=
  nanos.findSome? fun (unit, n) =>
    if unit.isPrefixOf rest then some (n, rest.drop unit.length) else none

/-- The loop of `parse_go_duration`. -/
def parseGoLoop : Nat → List Char → F → Option F
  | _, [], total => some total
  | 0, _ :: _, _ => none
  | budget + 1, c :: cs, total =>
    let num := (c :: cs).takeWhile numeric
    if num = [] then none
    else if num = ['.'] ∨ 1 < num.count '.' then none
    else do
      let value ← Float64.parse (String.ofList num)
      let (unit, rest) ← goUnit ((c :: cs).dropWhile numeric)
      parseGoLoop budget rest (Float64.add total (Float64.mul value (Float64.ofNat unit)))

/-- The text that is left has a first character, so the loop sees a unit or fails. -/
def parseGoDuration (s : String) : Option Nat :=
  let (neg, rest) := sign s.toList
  if rest = ['0'] then some 0
  else if rest = [] then none
  else do
    let total ← parseGoLoop F rest.length rest (Float64.ofNat 0)
    if neg ∧ Float64.isPositive total = true then none else some (Float64.toU64 total)

/-! ## `node.rs` -/

/-- The loop of `parse_duration`. -/
def parseDurationLoop : Nat → List Char → Nat → Option Nat
  | _, [], total => some total
  | 0, _ :: _, _ => none
  | budget + 1, c :: cs, total =>
    let num := (c :: cs).takeWhile numeric
    let rest := (c :: cs).dropWhile numeric
    if num = [] then none
    else do
      let value ← Float64.parse (F := F) (String.ofList num)
      let unit := rest.takeWhile fun c => !c.isDigit
      if unit = [] then none
      else
        let perUnit ← nanos.lookup unit
        let n := Float64.mul value (Float64.ofNat perUnit)
        if Float64.isFinite n = false ∨ Float64.isNegative n = true then none
        else -- what is longer than a `Duration` can be is not told apart
          parseDurationLoop budget (rest.dropWhile fun c => !c.isDigit)
            (total + Float64.toU64 n)

/-- A bare number is one of seconds. -/
def parseDuration (s : String) : Option Nat :=
  let s := Text.trim s
  if s = "" then none
  else
    match Text.parseUnsigned (2 ^ 64) s with
    | some secs => some (secs * 10 ^ 9)
    | none =>
      let (negative, rest) := sign s.toList
      if rest = ['0'] then some 0
      else if rest = [] then none
      else do
        let total ← parseDurationLoop F rest.length rest 0
        some (if negative then 0 else total)

/-! ## Units -/

theorem nanos_units : nanos.map Prod.fst = units := rfl

/-- Every unit has its nanoseconds, and nothing else has. -/
theorem nanos_isSome {unit : List Char} : (nanos.lookup unit).isSome = true ↔ unit ∈ units := by
  rw [List.lookup_isSome_iff, ← nanos_units, List.mem_map]
  simp only [beq_iff_eq]
  exact ⟨fun ⟨x, hx, h⟩ => ⟨x, hx, h.symm⟩, fun ⟨x, hx, h⟩ => ⟨x, hx, h.symm⟩⟩

/-- What is taken off a text is a unit. -/
theorem unit_of_goUnit {cs more : List Char} {n : Nat} (h : goUnit cs = some (n, more)) :
    ∃ unit ∈ units, cs = unit ++ more := by
  obtain ⟨⟨unit, n'⟩, hmem, hunit⟩ := List.exists_of_findSome?_eq_some h
  simp only at hunit
  split_ifs at hunit with hprefix
  cases hunit
  refine ⟨unit, nanos_units ▸ List.mem_map.mpr ⟨_, hmem, rfl⟩, ?_⟩
  exact (List.prefix_iff_eq_append.mp (List.isPrefixOf_iff_prefix.mp hprefix)).symm

/-- A unit is taken off whole, where a number or nothing follows. -/
theorem goUnit_append {unit more : List Char} (hunit : unit ∈ units)
    (hmore : ∀ c ∈ more.head?, numeric c = true) : ∃ n, goUnit (unit ++ more) = some (n, more) := by
  have hs : ∀ rest, more ≠ 's' :: rest := by
    rintro rest rfl
    exact absurd (hmore 's' rfl) (by decide)
  simp only [units, List.mem_cons, List.not_mem_nil, or_false] at hunit
  rcases hunit with rfl | rfl | rfl | rfl | rfl | rfl | rfl | rfl
  all_goals cases more with
    | nil => exact ⟨_, rfl⟩
    | cons c more =>
      have hc : c ≠ 's' := fun h => hs more (by rw [h])
      simp [goUnit, nanos, hc.symm]

/-! ## The loops -/

section

variable {F} [LawfulFloat64 F] {num : List Char}

/-- A run of the characters of a number that is one. -/
theorem isNumber_of_parse {cs : List Char} {value : F}
    (h : Float64.parse (String.ofList (cs.takeWhile numeric)) = some value) :
    IsNumber (cs.takeWhile numeric) := by
  rw [← LawfulFloat64.parse_isSome (F := F) _ fun c hc => List.mem_takeWhile_imp hc, h]
  rfl

theorem parse_of_isNumber (h : IsNumber num) :
    ∃ value : F, Float64.parse (String.ofList num) = some value :=
  Option.isSome_iff_exists.mp ((LawfulFloat64.parse_isSome num h.1).mpr h)

theorem ne_dot_of_isNumber (h : IsNumber num) : ¬ (num = ['.'] ∨ 1 < num.count '.') := by
  obtain ⟨-, hdots, c, hc, hdigit⟩ := h
  rintro (rfl | hmany)
  · obtain rfl := List.mem_singleton.mp hc
    exact absurd hdigit (by decide)
  · exact absurd hdots (Nat.not_le.mpr hmany)

/-- One turn of the loop of `parse_go_duration` takes an item off. -/
theorem parseGoLoop_item {it : Item} (hit : IsItem it) {more : List Char}
    (hmore : ∀ c ∈ more.head?, numeric c = true) (budget : Nat) (total : F) :
    ∃ total', parseGoLoop F (budget + 1) (it.1 ++ (it.2 ++ more)) total =
      parseGoLoop F budget more total' := by
  obtain ⟨hnum, hunit⟩ := hit
  obtain ⟨htake, hdrop⟩ := span_number hnum hunit more
  obtain ⟨value, hvalue⟩ := parse_of_isNumber (F := F) hnum
  obtain ⟨n, hn⟩ := goUnit_append hunit hmore
  cases htext : it.1 ++ (it.2 ++ more) with
  | nil => exact absurd (List.append_eq_nil_iff.mp htext).1 hnum.ne_nil
  | cons c cs =>
    rw [htext] at htake hdrop
    rw [parseGoLoop]
    simp only [htake, hdrop, if_neg hnum.ne_nil, if_neg (ne_dot_of_isNumber hnum), hvalue, hn,
      Option.bind_eq_bind, Option.bind_some]
    exact ⟨_, rfl⟩

/-- The loop of `parse_go_duration` takes items, and nothing but items. -/
theorem parseGoLoop_isSome {budget : Nat} {cs : List Char} (hlen : cs.length ≤ budget) (total : F) :
    (parseGoLoop F budget cs total).isSome = true ↔ ∃ items, Spells cs items := by
  induction budget generalizing cs total with
  | zero =>
    obtain rfl := List.length_eq_zero_iff.mp (Nat.le_zero.mp hlen)
    exact iff_of_true rfl ⟨[], spells_nil.mpr rfl⟩
  | succ budget ih =>
    constructor
    · intro h
      cases cs with
      | nil => exact ⟨[], spells_nil.mpr rfl⟩
      | cons c cs =>
        rw [parseGoLoop] at h
        simp only at h
        split_ifs at h with hnil hdot
        · cases h
        · cases h
        · obtain ⟨total', hloop⟩ := Option.isSome_iff_exists.mp h
          obtain ⟨value, hvalue, hloop⟩ := Option.bind_eq_some_iff.mp hloop
          obtain ⟨⟨n, more⟩, hunit, hloop⟩ := Option.bind_eq_some_iff.mp hloop
          obtain ⟨unit, hmem, hrest⟩ := unit_of_goUnit hunit
          have hnum := isNumber_of_parse hvalue
          have htext : c :: cs = (c :: cs).takeWhile numeric ++ (unit ++ more) := by
            rw [← hrest, List.takeWhile_append_dropWhile]
          have hshort : more.length ≤ budget := by
            have hlength := congrArg List.length htext
            have hpos := List.length_pos_iff.mpr hnum.ne_nil
            simp only [List.length_append] at hlength
            omega
          obtain ⟨items, hitems⟩ := (ih hshort _).mp (by rw [hloop]; rfl)
          exact ⟨(_, unit) :: items, spells_cons.mpr ⟨⟨hnum, hmem⟩, more, htext, hitems⟩⟩
    · rintro ⟨items, hitems⟩
      cases items with
      | nil =>
        rw [spells_nil.mp hitems]
        rfl
      | cons it items =>
        obtain ⟨hit, more, rfl, hmore⟩ := spells_cons.mp hitems
        obtain ⟨total', hloop⟩ := parseGoLoop_item hit hmore.head_numeric budget total
        have hpos := List.length_pos_iff.mpr hit.1.ne_nil
        rw [List.length_append, List.length_append] at hlen
        rw [hloop]
        exact (ih (by omega) total').mpr ⟨items, hmore⟩

/-- The items of a text have values that count. -/
def InRange (F : Type) [Float64 F] (it : Item) : Prop :=
  ∀ (value : F) (n : Nat), Float64.parse (String.ofList it.1) = some value →
    nanos.lookup it.2 = some n →
      Float64.isFinite (Float64.mul value (Float64.ofNat n)) = true ∧
        Float64.isNegative (Float64.mul value (Float64.ofNat n)) = false

/-- One turn of the loop of `parse_duration` takes an item off, if a digit follows it. -/
theorem parseDurationLoop_item {it : Item} (hit : IsItem it) (hrange : InRange F it)
    {more : List Char} (hmore : ∀ c ∈ more.head?, c.isDigit = true) (budget total : Nat) :
    ∃ total', parseDurationLoop F (budget + 1) (it.1 ++ (it.2 ++ more)) total =
      parseDurationLoop F budget more total' := by
  obtain ⟨hnum, hunit⟩ := hit
  obtain ⟨htake, hdrop⟩ := span_number hnum hunit more
  obtain ⟨value, hvalue⟩ := parse_of_isNumber (F := F) hnum
  obtain ⟨n, hn⟩ := Option.isSome_iff_exists.mp (nanos_isSome.mpr hunit)
  obtain ⟨hfinite, hpositive⟩ := hrange value n hvalue hn
  obtain ⟨htakeUnit, hdropUnit⟩ := span_append (p := fun c => !c.isDigit)
    (fun c hc => by rw [not_isDigit_of_not_numeric (not_numeric_of_unit _ hunit c hc)]; rfl)
    (fun c hc => by rw [hmore c hc]; rfl)
  cases htext : it.1 ++ (it.2 ++ more) with
  | nil => exact absurd (List.append_eq_nil_iff.mp htext).1 hnum.ne_nil
  | cons c cs =>
    rw [htext] at htake hdrop
    rw [parseDurationLoop]
    simp only [htake, hdrop, htakeUnit, hdropUnit, if_neg hnum.ne_nil,
      if_neg (unit_ne_nil _ hunit), hvalue, hn, hfinite, hpositive, Option.bind_eq_bind,
      Option.bind_some, Bool.true_eq_false, Bool.false_eq_true, or_self, if_false]
    exact ⟨_, rfl⟩

/-- The loop of `parse_duration` takes items, but the first only may begin with a dot. -/
theorem parseDurationLoop_isSome {budget : Nat} {cs : List Char} (hlen : cs.length ≤ budget)
    (hrange : ∀ items, Spells cs items → ∀ it ∈ items, InRange F it) (total : Nat) :
    (parseDurationLoop F budget cs total).isSome = true ↔
      ∃ items, Spells cs items ∧ ∀ it ∈ items.tail, LeadsWithDigit it := by
  induction budget generalizing cs total with
  | zero =>
    obtain rfl := List.length_eq_zero_iff.mp (Nat.le_zero.mp hlen)
    exact iff_of_true rfl ⟨[], spells_nil.mpr rfl, List.forall_mem_nil _⟩
  | succ budget ih =>
    constructor
    · intro h
      cases cs with
      | nil => exact ⟨[], spells_nil.mpr rfl, List.forall_mem_nil _⟩
      | cons c cs =>
        have hnil : (c :: cs).takeWhile numeric ≠ [] := by
          intro hnil
          rw [parseDurationLoop] at h
          simp only [if_pos hnil] at h
          cases h
        rw [parseDurationLoop] at h
        simp only [if_neg hnil] at h
        obtain ⟨total', hloop⟩ := Option.isSome_iff_exists.mp h
        obtain ⟨value, hvalue, hloop⟩ := Option.bind_eq_some_iff.mp hloop
        split_ifs at hloop with hunit
        obtain ⟨n, hn, hloop⟩ := Option.bind_eq_some_iff.mp hloop
        split_ifs at hloop with hbad
        have hnum := isNumber_of_parse hvalue
        have hmem := nanos_isSome.mp (Option.isSome_iff_exists.mpr ⟨n, hn⟩)
        have htext := List.takeWhile_append_dropWhile (p := numeric) (l := c :: cs)
        rw [← List.takeWhile_append_dropWhile (p := fun c => !c.isDigit)
          (l := (c :: cs).dropWhile numeric)] at htext
        generalize hmore : ((c :: cs).dropWhile numeric).dropWhile (fun c => !c.isDigit) = more
          at htext hloop
        have hshort : more.length ≤ budget := by
          have hlength := congrArg List.length htext
          have hpos := List.length_pos_iff.mpr hnum.ne_nil
          simp only [List.length_append] at hlength
          omega
        have hspells {items : List Item} (hitems : Spells more items) :
            Spells (c :: cs) ((_, _) :: items) :=
          spells_cons.mpr ⟨⟨hnum, hmem⟩, more, htext.symm, hitems⟩
        obtain ⟨items, hitems, hdigits⟩ := (ih hshort
          (fun items hitems it hit => hrange _ (hspells hitems) it (List.mem_cons_of_mem _ hit))
          _).mp (Option.isSome_iff_exists.mpr ⟨_, hloop⟩)
        refine ⟨_, hspells hitems, fun it hit => ?_⟩
        have hdigit : ∀ c ∈ more.head?, c.isDigit = true := by
          intro c hc
          rw [← hmore] at hc
          simpa using head?_dropWhile hc
        rcases mem_head?_or_tail hit with hfirst | hlater
        · exact hitems.leads_iff.mp hdigit it hfirst
        · exact hdigits it hlater
    · rintro ⟨items, hitems, hdigits⟩
      cases items with
      | nil =>
        rw [spells_nil.mp hitems]
        rfl
      | cons it items =>
        obtain ⟨hit, more, rfl, hmore⟩ := spells_cons.mp hitems
        have hdigit : ∀ c ∈ more.head?, c.isDigit = true :=
          hmore.leads_iff.mpr fun it' hfirst => hdigits it' (List.mem_of_mem_head? hfirst)
        obtain ⟨total', hloop⟩ := parseDurationLoop_item hit
          (hrange _ hitems it List.mem_cons_self) hdigit budget total
        have hpos := List.length_pos_iff.mpr hit.1.ne_nil
        rw [List.length_append, List.length_append] at hlen
        rw [hloop]
        exact (ih (by omega) (fun items' hitems' it' hit' =>
          hrange (it :: items') (spells_cons.mpr ⟨hit, more, rfl, hitems'⟩) it'
            (List.mem_cons_of_mem _ hit')) total').mpr
          ⟨items, hmore, fun it' hlater => hdigits it' (List.mem_of_mem_tail hlater)⟩

end

/-! ## Texts -/

section

variable {F} [LawfulFloat64 F] {s : String}

theorem sign_eq {cs : List Char} (h : ∀ rest, cs ≠ '-' :: rest) : sign cs = (false, unsign cs) := by
  unfold sign
  split
  · exact absurd rfl (h _)
  · rfl
  · rename_i hplus
    rw [unsign]
    exact hplus

/-- `parse_go_duration` accepts the durations of Go. -/
theorem parseGoDuration_isSome (h : ∀ rest, s.toList ≠ '-' :: rest) :
    (parseGoDuration F s).isSome = true ↔ Accepts s.toList := by
  unfold parseGoDuration Accepts
  rw [sign_eq h]
  generalize unsign s.toList = rest
  simp only
  by_cases hzero : rest = ['0']
  · rw [if_pos hzero]
    exact iff_of_true rfl (.inl hzero)
  by_cases hnil : rest = []
  · rw [if_neg hzero, if_pos hnil]
    refine iff_of_false Bool.false_ne_true ?_
    rintro (hzero' | ⟨items, hne, hitems⟩)
    · exact hzero hzero'
    · exact hne (hitems.unique (spells_nil.mpr hnil))
  · have hloop := parseGoLoop_isSome (F := F) (Nat.le_refl rest.length) (Float64.ofNat 0)
    rw [if_neg hzero, if_neg hnil, or_iff_right hzero]
    have hitems : (∃ items, items ≠ [] ∧ Spells rest items) ↔ ∃ items, Spells rest items :=
      ⟨fun ⟨items, _, hitems⟩ => ⟨items, hitems⟩, fun ⟨items, hitems⟩ =>
        ⟨items, fun hempty => hnil (spells_nil.mp (hempty ▸ hitems)), hitems⟩⟩
    rw [hitems, ← hloop]
    cases parseGoLoop F rest.length rest (Float64.ofNat 0) with
    | none => rfl
    | some total => simp

theorem digit?_of_unit : ∀ unit ∈ units, ∀ c ∈ unit, Text.digit? c = none := by decide

/-- A number with a plus sign that fits sixty-four bits. -/
def PlusInteger (cs : List Char) : Prop :=
  ∃ digits n, cs = '+' :: digits ∧ digits ≠ ['0'] ∧ Text.decimal? digits = some n ∧ n < 2 ^ 64

/-- What is read as a number of seconds is no duration of Go. -/
theorem not_accepts_of_digits {cs : List Char} {n : Nat} (hne : cs ≠ ['0'])
    (h : Text.decimal? cs = some n) : ¬ Accepts ('+' :: cs) := by
  rintro (hzero | ⟨items, hitems, hspells⟩)
  · exact hne hzero
  · cases items with
    | nil => exact hitems rfl
    | cons it items =>
      obtain ⟨⟨-, hunit⟩, more, htext, -⟩ := spells_cons.mp hspells
      obtain ⟨c, hc⟩ := List.exists_mem_of_ne_nil _ (unit_ne_nil _ hunit)
      have hmem : c ∈ cs := by
        rw [show cs = _ from htext]
        exact List.mem_append_right _ (List.mem_append_left _ hc)
      have hdigit := Text.isSome_digit?_of_decimal? h c hmem
      rw [digit?_of_unit _ hunit c hc] at hdigit
      cases hdigit

/-- A number of seconds is one with a plus sign, if it is not bare. -/
theorem plusInteger_of_parseUnsigned (hbare : Text.decimal? s.toList = none) :
    (∃ n, Text.parseUnsigned (2 ^ 64) s = some n) ↔
      ∃ digits n, s.toList = '+' :: digits ∧ Text.decimal? digits = some n ∧ n < 2 ^ 64 := by
  unfold Text.parseUnsigned
  split
  · rename_i digits hplus
    simp only [hplus, List.cons.injEq, true_and]
    constructor
    · rintro ⟨n, h⟩
      split at h
      · rename_i m hm
        split_ifs at h with hlt
        exact ⟨digits, m, rfl, hm, hlt⟩
      · cases h
    · rintro ⟨_, n, rfl, hn, hlt⟩
      rw [hn]
      exact ⟨n, if_pos hlt⟩
  · rename_i hplus
    simp only [hbare]
    refine iff_of_false (fun ⟨n, h⟩ => nomatch h) ?_
    rintro ⟨digits, n, h, -⟩
    exact hplus digits h

/-- `parse_duration` accepts numbers with a plus sign, and the durations of Go in which the
first number only may begin with its dot. -/
theorem parseDuration_isSome (hsign : ∀ rest, s.toList ≠ '-' :: rest) (htrim : Text.trim s = s)
    (hbare : Text.decimal? s.toList = none)
    (hrange : ∀ items, Spells (unsign s.toList) items → ∀ it ∈ items, InRange F it) :
    (parseDuration F s).isSome = true ↔
      PlusInteger s.toList ∨ Accepts s.toList ∧ ¬ DotBehindUnit s.toList := by
  have hplus := plusInteger_of_parseUnsigned hbare
  rw [accepts_and_not_dot]
  unfold parseDuration
  simp only [htrim]
  by_cases hempty : s = ""
  · subst hempty
    refine iff_of_false Bool.false_ne_true ?_
    rintro (⟨digits, n, h, -⟩ | hzero | ⟨items, hne, hitems, -⟩)
    · cases h
    · cases hzero
    · exact hne (hitems.unique (spells_nil.mpr rfl))
  rw [if_neg hempty]
  cases hsecs : Text.parseUnsigned (2 ^ 64) s with
  | some secs =>
    obtain ⟨digits, n, htext, hn, hlt⟩ := hplus.mp ⟨secs, hsecs⟩
    refine iff_of_true rfl ?_
    by_cases hzero : digits = ['0']
    · exact .inr (.inl (by rw [htext, hzero]; rfl))
    · exact .inl ⟨digits, n, htext, hzero, hn, hlt⟩
  | none =>
    have hinteger : ¬ PlusInteger s.toList := by
      rintro ⟨digits, n, htext, -, hn, hlt⟩
      obtain ⟨m, hm⟩ := hplus.mpr ⟨digits, n, htext, hn, hlt⟩
      rw [hsecs] at hm
      cases hm
    rw [or_iff_right hinteger, sign_eq hsign]
    generalize unsign s.toList = rest at hrange
    simp only
    by_cases hzero : rest = ['0']
    · rw [if_pos hzero]
      exact iff_of_true rfl (.inl hzero)
    by_cases hnil : rest = []
    · rw [if_neg hzero, if_pos hnil]
      refine iff_of_false Bool.false_ne_true ?_
      rintro (hzero' | ⟨items, hne, hitems, -⟩)
      · exact hzero hzero'
      · exact hne (hitems.unique (spells_nil.mpr hnil))
    · have hloop := parseDurationLoop_isSome (F := F) (Nat.le_refl rest.length) hrange 0
      rw [if_neg hzero, if_neg hnil, or_iff_right hzero]
      have hitems : (∃ items, items ≠ [] ∧ Spells rest items ∧ ∀ it ∈ items.tail, LeadsWithDigit it) ↔
          ∃ items, Spells rest items ∧ ∀ it ∈ items.tail, LeadsWithDigit it :=
        ⟨fun ⟨items, _, hitems⟩ => ⟨items, hitems⟩, fun ⟨items, hitems⟩ =>
          ⟨items, fun hempty => hnil (spells_nil.mp (hempty ▸ hitems.1)), hitems⟩⟩
      rw [hitems, ← hloop]
      cases parseDurationLoop F rest.length rest 0 with
      | none => rfl
      | some total => rfl

/-- Both functions accept the durations of Go and nothing else, exactly if the text is not a
number with a plus sign, and no number behind a unit begins with its dot. -/
theorem durations_agree_iff (F : Type) [Float64 F] [LawfulFloat64 F] (s : String)
    (hsign : ∀ rest, s.toList ≠ '-' :: rest) (htrim : Text.trim s = s)
    (hbare : Text.decimal? s.toList = none)
    (hrange : ∀ items, Spells (unsign s.toList) items → ∀ it ∈ items, InRange F it) :
    (((parseGoDuration F s).isSome = true ↔ Accepts s.toList) ∧
        ((parseDuration F s).isSome = true ↔ Accepts s.toList)) ↔
      ¬ PlusInteger s.toList ∧ ¬ (Accepts s.toList ∧ DotBehindUnit s.toList) := by
  have hgo := parseGoDuration_isSome (F := F) hsign
  have hnode := parseDuration_isSome hsign htrim hbare hrange
  have hdigits : PlusInteger s.toList → ¬ Accepts s.toList := by
    rintro ⟨digits, n, htext, hne, hn, -⟩
    rw [htext]
    exact not_accepts_of_digits hne hn
  rw [and_iff_right hgo, hnode]
  constructor
  · intro h
    have hplus : ¬ PlusInteger s.toList := fun hplus => hdigits hplus (h.mp (.inl hplus))
    exact ⟨hplus, fun hdot => ((h.mpr hdot.1).resolve_left hplus).2 hdot.2⟩
  · rintro ⟨hplus, hdot⟩
    rw [or_iff_right hplus]
    exact ⟨And.left, fun h => ⟨h, fun hbehind => hdot ⟨h, hbehind⟩⟩⟩

end

/-! ### Exact numbers -/

/-- A decimal fraction. -/
structure Decimal where
  mantissa : Nat
  places : Nat
deriving Repr, DecidableEq

namespace Decimal

def parse (s : String) : Option Decimal :=
  if IsNumber s.toList then
    some ⟨(s.toList.filter Char.isDigit).foldl (fun n c => 10 * n + (c.toNat - 48)) 0,
      (s.toList.dropWhile (· ≠ '.')).length - 1⟩
  else none

def add (a b : Decimal) : Decimal :=
  ⟨a.mantissa * 10 ^ b.places + b.mantissa * 10 ^ a.places, a.places + b.places⟩

def mul (a b : Decimal) : Decimal := ⟨a.mantissa * b.mantissa, a.places + b.places⟩

instance : Float64 Decimal where
  parse := parse
  ofNat n := ⟨n, 0⟩
  add := add
  mul := mul
  isFinite _ := true
  isNegative _ := false
  isPositive a := decide (0 < a.mantissa)
  toU64 a := min (a.mantissa / 10 ^ a.places) (2 ^ 64 - 1)

instance : LawfulFloat64 Decimal where
  parse_isSome num _ := by
    show (parse (String.ofList num)).isSome = true ↔ _
    unfold parse
    rw [String.toList_ofList]
    split_ifs with h
    · exact iff_of_true rfl h
    · exact iff_of_false Bool.false_ne_true h

end Decimal

theorem durations_agree_ninety_minutes :
    ((parseGoDuration Decimal "1h30m").isSome = true ↔ Accepts "1h30m".toList) ∧
      ((parseDuration Decimal "1h30m").isSome = true ↔ Accepts "1h30m".toList) := by
  refine (durations_agree_iff Decimal "1h30m" (fun rest h => ?_) (by decide) (by decide)
    fun items _ it _ value n _ _ => ⟨rfl, rfl⟩).mpr ⟨?_, fun h => ?_⟩
  · exact absurd (List.cons.inj h).1 (by decide)
  · rintro ⟨digits, n, htext, -⟩
    exact absurd (List.cons.inj htext).1 (by decide)
  · exact absurd h.2.mem (by decide)

/-- An hour and half a minute is no duration for a node, and a signed number is one. -/
theorem durations_disagree :
    Accepts "1h.5m".toList ∧ parseGoDuration Decimal "1h.5m" = some (3630 * 10 ^ 9) ∧
      parseDuration Decimal "1h.5m" = none ∧
      ¬ Accepts "+5".toList ∧ parseGoDuration Decimal "+5" = none ∧
      parseDuration Decimal "+5" = some (5 * 10 ^ 9) := by
  have hspells : Spells "1h.5m".toList [(['1'], ['h']), (['.', '5'], ['m'])] :=
    ⟨by decide, rfl⟩
  exact ⟨.inr ⟨_, List.cons_ne_nil _ _, hspells⟩, by decide, by decide,
    not_accepts_of_digits (n := 5) (by decide) (by decide), by decide, by decide⟩

end RtProxy
