/-
  WorkforceRisk.Lib.Signed — boolean queries whose negations go down to their clauses.

  A search turns the operators of what it negates, and what it searches may meet neither a
  clause nor its negation: a clause is asked with a sign, and the two are apart. `Holds` is
  the meaning of a formula under a sign. A way of a formula is one choice of what is asked
  of the clauses: all of a conjunction, one side of a disjunction.

  Proved: a formula holds where one of its ways does (`holds_iff_way`).
-/

import Mathlib.Data.List.Basic

namespace WorkforceRisk.Lib

inductive Formula (α : Type) where
  | clause (a : α)
  | not (f : Formula α)
  | and (f g : Formula α)
  | or (f g : Formula α)

namespace Formula

variable {α : Type}

/-- What a formula says, or what its negation does. -/
def Holds (asked : α → Bool → Prop) : Bool → Formula α → Prop
  | sign, clause a => asked a sign
  | sign, not f => f.Holds asked (!sign)
  | true, and f g => f.Holds asked true ∧ g.Holds asked true
  | false, and f g => f.Holds asked false ∨ g.Holds asked false
  | true, or f g => f.Holds asked true ∨ g.Holds asked true
  | false, or f g => f.Holds asked false ∧ g.Holds asked false

abbrev Way (α : Type) := List (α × Bool)

/-- A way of each. -/
def both (first second : List (Way α)) : List (Way α) := first.flatMap fun way => second.map (way ++ ·)

def ways : Bool → Formula α → List (Way α)
  | sign, clause a => [[(a, sign)]]
  | sign, not f => f.ways (!sign)
  | true, and f g => both (f.ways true) (g.ways true)
  | false, and f g => f.ways false ++ g.ways false
  | true, or f g => f.ways true ++ g.ways true
  | false, or f g => both (f.ways false) (g.ways false)

/-- All that a way asks holds. -/
def Met (asked : α → Bool → Prop) (way : Way α) : Prop := ∀ literal ∈ way, asked literal.1 literal.2

variable {asked : α → Bool → Prop}

theorem exists_met_append {first second : List (Way α)} : (∃ way ∈ first ++ second, Met asked way) ↔
    (∃ way ∈ first, Met asked way) ∨ ∃ way ∈ second, Met asked way := by
  simp only [List.mem_append, or_and_right, exists_or]

theorem exists_met_both {first second : List (Way α)} : (∃ way ∈ both first second, Met asked way) ↔
    (∃ way ∈ first, Met asked way) ∧ ∃ way ∈ second, Met asked way := by
  constructor
  · rintro ⟨way, hway, hmet⟩
    obtain ⟨v, hv, hin⟩ := List.mem_flatMap.mp hway
    obtain ⟨w, hw, rfl⟩ := List.mem_map.mp hin
    exact ⟨⟨v, hv, fun l hl => hmet l (List.mem_append_left _ hl)⟩, w, hw, fun l hl => hmet l (List.mem_append_right _ hl)⟩
  · rintro ⟨⟨v, hv, hvmet⟩, w, hw, hwmet⟩
    refine ⟨v ++ w, List.mem_flatMap.mpr ⟨v, hv, List.mem_map.mpr ⟨w, hw, rfl⟩⟩, fun l hl => ?_⟩
    rcases List.mem_append.mp hl with hl | hl
    · exact hvmet l hl
    · exact hwmet l hl

theorem holds_iff_way {f : Formula α} : ∀ {sign : Bool}, f.Holds asked sign ↔ ∃ way ∈ f.ways sign, Met asked way := by
  induction f with
  | clause a =>
    intro sign
    constructor
    · intro h
      exact ⟨[(a, sign)], List.mem_singleton_self _, fun l hl => by rw [List.mem_singleton.mp hl]; exact h⟩
    · rintro ⟨way, hway, hmet⟩
      rw [List.mem_singleton.mp hway] at hmet
      exact hmet _ List.mem_cons_self
  | not f ih =>
    intro sign
    exact ih
  | and f g ihf ihg =>
    intro sign
    cases sign with
    | true => rw [Holds, ways, exists_met_both, ihf, ihg]
    | false => rw [Holds, ways, exists_met_append, ihf, ihg]
  | or f g ihf ihg =>
    intro sign
    cases sign with
    | true => rw [Holds, ways, exists_met_append, ihf, ihg]
    | false => rw [Holds, ways, exists_met_both, ihf, ihg]

end Formula

end WorkforceRisk.Lib
