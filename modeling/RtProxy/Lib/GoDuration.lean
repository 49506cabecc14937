/-
The durations of Go's `time.ParseDuration`.

A duration is one item after another, a decimal number and a unit each.  The characters of
a number stand in no unit, so the items of a text can be told apart, and in one way only.
-/
import Mathlib.Data.List.TakeWhile

namespace GoDuration

attribute [local instance (1100)] List.decidableBAll List.decidableBEx

/-- The characters of a number. -/
def numeric (c : Char) : Bool := c.isDigit || c = '.'

/-- Decimal digits, with a dot among them or without one. -/
def IsNumber (num : List Char) : Prop :=
  (∀ c ∈ num, numeric c = true) ∧ num.count '.' ≤ 1 ∧ ∃ c ∈ num, c.isDigit = true

instance (num : List Char) : Decidable (IsNumber num) := inferInstanceAs (Decidable (_ ∧ _ ∧ _))

/-- Both letters that are written for micro are there. -/
def units : List (List Char) :=
  [['n', 's'], ['u', 's'], ['\u00B5', 's'], ['\u03BC', 's'], ['m', 's'], ['s'], ['m'], ['h']]

/-- A number and its unit. -/
abbrev Item := List Char × List Char

def IsItem (it : Item) : Prop := IsNumber it.1 ∧ it.2 ∈ units

instance (it : Item) : Decidable (IsItem it) := inferInstanceAs (Decidable (_ ∧ _))

/-- The text is that of the items. -/
def Spells (cs : List Char) (items : List Item) : Prop :=
  (∀ it ∈ items, IsItem it) ∧ cs = items.flatMap fun it => it.1 ++ it.2

/-- The text behind a plus sign. -/
def unsign : List Char → List Char
  | '+' :: rest => rest
  | cs => cs

/-- Zero, or one item at least, with a plus sign or without one. -/
def Accepts (cs : List Char) : Prop :=
  unsign cs = ['0'] ∨ ∃ items, items ≠ [] ∧ Spells (unsign cs) items

/-! ## Numbers and units -/

section

variable {num unit cs : List Char} {it : Item} {items items' : List Item}

theorem IsNumber.ne_nil (h : IsNumber num) : num ≠ [] := by
  obtain ⟨-, -, c, hc, -⟩ := h
  exact List.ne_nil_of_mem hc

theorem not_numeric_of_unit : ∀ unit ∈ units, ∀ c ∈ unit, numeric c = false := by decide

theorem unit_ne_nil : ∀ unit ∈ units, unit ≠ [] := by decide

theorem not_isDigit_of_not_numeric {c : Char} (h : numeric c = false) : c.isDigit = false :=
  (Bool.or_eq_false_iff.mp h).1

/-! ## The first item -/

theorem mem_of_mem_head?_append {c : Char} {a b : List Char} (ha : a ≠ [])
    (h : c ∈ (a ++ b).head?) : c ∈ a := by
  rw [List.head?_append, Option.or_of_isSome (List.isSome_head?.mpr ha)] at h
  exact List.mem_of_mem_head? h

theorem spells_nil : Spells cs [] ↔ cs = [] := by simp [Spells]

theorem spells_cons : Spells cs (it :: items) ↔
    IsItem it ∧ ∃ more, cs = it.1 ++ (it.2 ++ more) ∧ Spells more items := by
  simp only [Spells, List.forall_mem_cons, List.flatMap_cons, List.append_assoc]
  constructor
  · rintro ⟨⟨hit, hitems⟩, rfl⟩
    exact ⟨hit, _, rfl, hitems, rfl⟩
  · rintro ⟨hit, more, rfl, hitems, rfl⟩
    exact ⟨⟨hit, hitems⟩, rfl⟩

/-- A text of items begins with a number. -/
theorem Spells.head_numeric (h : Spells cs items) : ∀ c ∈ cs.head?, numeric c = true := by
  intro c hc
  cases items with
  | nil =>
    rw [spells_nil.mp h] at hc
    cases hc
  | cons it items =>
    obtain ⟨⟨hnum, -⟩, more, rfl, -⟩ := spells_cons.mp h
    exact hnum.1 c (mem_of_mem_head?_append hnum.ne_nil hc)

/-- A run of characters ends where the first other one stands. -/
theorem span_append {p : Char → Bool} {a b : List Char} (ha : ∀ c ∈ a, p c = true)
    (hb : ∀ c ∈ b.head?, p c = false) :
    (a ++ b).takeWhile p = a ∧ (a ++ b).dropWhile p = b := by
  rw [List.takeWhile_append_of_pos ha, List.dropWhile_append_of_pos ha]
  cases b with
  | nil => simp
  | cons c b => simp [hb c rfl]

theorem span_number (hnum : IsNumber num) (hunit : unit ∈ units) (more : List Char) :
    (num ++ (unit ++ more)).takeWhile numeric = num ∧
      (num ++ (unit ++ more)).dropWhile numeric = unit ++ more := by
  refine span_append hnum.1 fun c hc => ?_
  exact not_numeric_of_unit unit hunit c (mem_of_mem_head?_append (unit_ne_nil unit hunit) hc)

theorem span_unit (hunit : unit ∈ units) {more : List Char}
    (hmore : ∀ c ∈ more.head?, numeric c = true) :
    (unit ++ more).takeWhile (fun c => !numeric c) = unit ∧
      (unit ++ more).dropWhile (fun c => !numeric c) = more := by
  refine span_append (fun c hc => ?_) fun c hc => ?_
  · rw [not_numeric_of_unit unit hunit c hc]
    rfl
  · rw [hmore c hc]
    rfl

/-- The items of a text can be told apart in one way only. -/
theorem Spells.unique (h : Spells cs items) (h' : Spells cs items') : items = items' := by
  induction items generalizing cs items' with
  | nil =>
    cases items' with
    | nil => rfl
    | cons it' items' =>
      obtain ⟨⟨hnum, -⟩, more, hcs, -⟩ := spells_cons.mp h'
      rw [spells_nil.mp h, eq_comm, List.append_eq_nil_iff] at hcs
      exact absurd hcs.1 hnum.ne_nil
  | cons it items ih =>
    obtain ⟨⟨hnum, hunit⟩, more, rfl, hmore⟩ := spells_cons.mp h
    cases items' with
    | nil => exact absurd (List.append_eq_nil_iff.mp (spells_nil.mp h')).1 hnum.ne_nil
    | cons it' items' =>
      obtain ⟨⟨hnum', hunit'⟩, more', hcs, hmore'⟩ := spells_cons.mp h'
      obtain ⟨htake, hdrop⟩ := span_number hnum hunit more
      obtain ⟨htake', hdrop'⟩ := span_number hnum' hunit' more'
      rw [hcs, htake'] at htake
      rw [hcs, hdrop'] at hdrop
      obtain ⟨hfirst, hrest⟩ := span_unit hunit hmore.head_numeric
      obtain ⟨hfirst', hrest'⟩ := span_unit hunit' hmore'.head_numeric
      rw [← hdrop, hfirst'] at hfirst
      rw [← hdrop, hrest'] at hrest
      rw [hrest] at hmore'
      rw [ih hmore hmore', Prod.ext htake.symm hfirst.symm]

/-! ## Leading digits -/

/-- The number does not begin with its dot. -/
def LeadsWithDigit (it : Item) : Prop := it.1.head? ≠ some '.'

theorem head?_dropWhile {p : Char → Bool} {cs : List Char} {c : Char}
    (h : c ∈ (cs.dropWhile p).head?) : p c = false := by
  have hhead := List.head?_dropWhile_not p cs
  rwa [Option.mem_def.mp h] at hhead

theorem mem_head?_or_tail {it : Item} {items : List Item} (h : it ∈ items) :
    it ∈ items.head? ∨ it ∈ items.tail := by
  cases items with
  | nil => cases h
  | cons first more => exact (List.mem_cons.mp h).imp (fun h => congrArg some h.symm) id

/-- The text of items begins with a digit if the first of them does. -/
theorem Spells.leads_iff {cs : List Char} {items : List Item} (h : Spells cs items) :
    (∀ c ∈ cs.head?, c.isDigit = true) ↔ ∀ it ∈ items.head?, LeadsWithDigit it := by
  cases items with
  | nil =>
    rw [spells_nil.mp h]
    exact iff_of_true (fun c hc => nomatch hc) (fun it hit => nomatch hit)
  | cons it items =>
    obtain ⟨⟨hnum, -⟩, more, rfl, -⟩ := spells_cons.mp h
    cases hfirst : it.1 with
    | nil => exact absurd hfirst hnum.ne_nil
    | cons c cs =>
      have hc : numeric c = true := hnum.1 c (hfirst ▸ List.mem_cons_self)
      constructor
      · rintro hdigit it' hit' hdot
        cases hit'
        rw [hfirst] at hdot
        cases hdot
        exact absurd (hdigit '.' rfl) (by decide)
      · rintro hlead c' hc'
        cases hc'
        refine (Bool.or_eq_true_iff.mp hc).resolve_right fun hdot => hlead it rfl ?_
        rw [hfirst, of_decide_eq_true hdot]
        rfl

/-- An item has two characters at least. -/
theorem not_spells_zero : ¬ Spells ['0'] (it :: items) := by
  intro h
  obtain ⟨⟨hnum, hunit⟩, more, htext, -⟩ := spells_cons.mp h
  have hlength := congrArg List.length htext
  have hpos := List.length_pos_iff.mpr hnum.ne_nil
  have hpos' := List.length_pos_iff.mpr (unit_ne_nil _ hunit)
  simp only [List.length_append, List.length_singleton] at hlength
  omega

/-- Some number behind a unit begins with its dot. -/
def DotBehindUnit (cs : List Char) : Prop :=
  ∃ items, Spells (unsign cs) items ∧ ∃ it ∈ items.tail, ¬ LeadsWithDigit it

theorem DotBehindUnit.mem {cs : List Char} (h : DotBehindUnit cs) : '.' ∈ unsign cs := by
  obtain ⟨items, hitems, it, hit, hlead⟩ := h
  have hdot : '.' ∈ it.1 := List.mem_of_mem_head? (not_not.mp hlead)
  rw [hitems.2]
  exact List.mem_flatMap.mpr ⟨it, List.mem_of_mem_tail hit, List.mem_append_left _ hdot⟩

/-- What is accepted where only the first number may begin with its dot. -/
theorem accepts_and_not_dot {cs : List Char} : Accepts cs ∧ ¬ DotBehindUnit cs ↔
    unsign cs = ['0'] ∨
      ∃ items, items ≠ [] ∧ Spells (unsign cs) items ∧ ∀ it ∈ items.tail, LeadsWithDigit it := by
  unfold Accepts DotBehindUnit
  constructor
  · rintro ⟨hzero | ⟨items, hne, hitems⟩, hdot⟩
    · exact .inl hzero
    · refine .inr ⟨items, hne, hitems, fun it hit => ?_⟩
      by_contra hlead
      exact hdot ⟨items, hitems, it, hit, hlead⟩
  · rintro (hzero | ⟨items, hne, hitems, hleads⟩)
    · refine ⟨.inl hzero, fun ⟨items, hitems, it, hit, _⟩ => ?_⟩
      cases items with
      | nil => cases hit
      | cons first more => exact not_spells_zero (hzero ▸ hitems)
    · refine ⟨.inr ⟨items, hne, hitems⟩, fun ⟨items', hitems', it, hit, hlead⟩ => ?_⟩
      rw [hitems'.unique hitems] at hit
      exact hlead (hleads it hit)

end

end GoDuration
