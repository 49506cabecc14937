/-
Patterns with gaps.

A pattern is a list of parts, and any string may stand between two of them.  A text matches
if it is the parts in order with strings between them, so that no two of them overlap.
-/
import Mathlib.Data.List.Infix

namespace Glob

variable {α : Type}

/-- The text is the first part, and then each further part behind a string of its own. -/
def Matches (first : List α) (parts : List (List α)) (text : List α) : Prop :=
  ∃ gaps, gaps.length = parts.length ∧
    text = first ++ (List.zipWith (· ++ ·) gaps parts).flatten

/-- The parts stand in the text one behind the other, and `rest` ends it behind them. -/
def Reaches : List (List α) → List α → List α → Prop
  | [], text, rest => rest <:+ text
  | part :: parts, text, rest => ∃ gap left, text = gap ++ part ++ left ∧ Reaches parts left rest

/-- A longer text leaves more to the left of the parts. -/
theorem Reaches.mono {parts : List (List α)} {text text' rest : List α}
    (h : Reaches parts text rest) (hle : text <:+ text') : Reaches parts text' rest := by
  cases parts with
  | nil => exact h.trans hle
  | cons part parts =>
    obtain ⟨gap, left, rfl, hleft⟩ := h
    obtain ⟨more, rfl⟩ := hle
    refine ⟨more ++ gap, left, ?_, hleft⟩
    simp only [List.append_assoc]

/-- The last part has to end the text. -/
theorem reaches_iff {parts : List (List α)} {last text : List α} :
    Reaches parts text last ↔ ∃ gaps, gaps.length = (parts ++ [last]).length ∧
      text = (List.zipWith (· ++ ·) gaps (parts ++ [last])).flatten := by
  induction parts generalizing text with
  | nil =>
    constructor
    · rintro ⟨gap, rfl⟩
      exact ⟨[gap], rfl, by simp⟩
    · rintro ⟨gaps, hlen, rfl⟩
      obtain ⟨gap, rfl⟩ := List.length_eq_one_iff.mp hlen
      exact ⟨gap, by simp⟩
  | cons part parts ih =>
    constructor
    · rintro ⟨gap, left, rfl, hleft⟩
      obtain ⟨gaps, hlen, rfl⟩ := ih.mp hleft
      exact ⟨gap :: gaps, by simpa using hlen, by simp⟩
    · rintro ⟨gaps, hlen, rfl⟩
      cases gaps with
      | nil => cases hlen
      | cons gap gaps =>
        refine ⟨gap, _, ?_, ih.mpr ⟨gaps, by simpa using hlen, rfl⟩⟩
        simp

theorem matches_iff {first last : List α} {parts : List (List α)} {text : List α} :
    Matches first (parts ++ [last]) text ↔ ∃ left, text = first ++ left ∧ Reaches parts left last := by
  constructor
  · rintro ⟨gaps, hlen, rfl⟩
    exact ⟨_, rfl, reaches_iff.mpr ⟨gaps, hlen, rfl⟩⟩
  · rintro ⟨left, rfl, h⟩
    obtain ⟨gaps, hlen, rfl⟩ := reaches_iff.mp h
    exact ⟨gaps, hlen, rfl⟩

/-- Without gaps the text is the first part. -/
theorem matches_nil {first text : List α} : Matches first [] text ↔ text = first := by
  constructor
  · rintro ⟨gaps, hlen, rfl⟩
    simp
  · rintro rfl
    exact ⟨[], rfl, by simp⟩

end Glob
