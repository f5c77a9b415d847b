/-
  WorkforceRisk.Lib.Selection — choosing among items that exclude each other, first come
  first served.

  `accept` goes through a list once and keeps an item unless it clashes with one kept
  before. A selection keeps items of which no two clash, and leaves none out but for a
  clash with a kept one that comes before it (`IsSelection`).

  Proved: `accept` keeps a selection (`isSelection_accept`), and no other is one
  (`mem_accept_iff`).
-/

import Mathlib.Data.List.Induction

namespace WorkforceRisk.Lib

variable {α β : Type}

structure IsSelection (clash : α → α → Bool) (items accepted : List α) : Prop where
  subset : ∀ a ∈ accepted, a ∈ items
  apart : ∀ a ∈ accepted, ∀ b ∈ accepted, clash a b = true → a = b
  /-- What is left out gave way to one before it. -/
  gaveWay : ∀ before m after, items = before ++ m :: after → m ∉ accepted →
    ∃ a ∈ before, a ∈ accepted ∧ clash m a = true

/-- Each item is kept unless it clashes with one kept before. -/
def accept (clash : α → α → Bool) (items : List α) : List α :=
  items.foldl (fun accepted m => if accepted.any fun a => clash m a then accepted else accepted ++ [m]) []

section
variable {clash : α → α → Bool} {items more accepted : List α} {m : α}

theorem accept_snoc (items : List α) (m : α) : accept clash (items ++ [m]) =
    if (accept clash items).any (clash m) then accept clash items else accept clash items ++ [m] := by
  rw [accept, List.foldl_append]
  rfl

theorem accept_subset (h : m ∈ accept clash items) : m ∈ items := by
  induction items using List.reverseRecOn with
  | nil => cases h
  | append_singleton items a ih =>
    rw [accept_snoc] at h
    split at h
    · exact List.mem_append_left _ (ih h)
    · rcases List.mem_append.mp h with h | h
      · exact List.mem_append_left _ (ih h)
      · exact List.mem_append_right _ h

/-- What is kept stays. -/
theorem accept_stays (items more : List α) : accept clash items <+: accept clash (items ++ more) := by
  induction more using List.reverseRecOn with
  | nil => exact (List.append_nil items).symm ▸ List.prefix_refl _
  | append_singleton more m ih =>
    rw [← List.append_assoc, accept_snoc]
    split
    · exact ih
    · exact ih.trans (List.prefix_append _ _)

/-- No two that are kept clash. -/
theorem accept_apart (hsymm : ∀ a b, clash a b = clash b a) :
    ∀ a ∈ accept clash items, ∀ b ∈ accept clash items, clash a b = true → a = b := by
  induction items using List.reverseRecOn with
  | nil => exact fun a ha => by cases ha
  | append_singleton items m ih =>
    rw [accept_snoc]
    split
    · exact ih
    · rename_i hfree
      have hm : ∀ a ∈ accept clash items, clash m a ≠ true := fun a ha hclash =>
        hfree (List.any_eq_true.mpr ⟨a, ha, hclash⟩)
      intro a ha b hb hclash
      rcases List.mem_append.mp ha with ha | ha <;> rcases List.mem_append.mp hb with hb | hb
      · exact ih a ha b hb hclash
      · exact absurd (hsymm a m ▸ List.mem_singleton.mp hb ▸ hclash) (hm a ha)
      · exact absurd (List.mem_singleton.mp ha ▸ hclash) (hm b hb)
      · rw [List.mem_singleton.mp ha, List.mem_singleton.mp hb]

theorem isSelection_accept (hsymm : ∀ a b, clash a b = clash b a) : IsSelection clash items (accept clash items) := by
  refine ⟨fun a => accept_subset, accept_apart hsymm, fun before m after hsplit hout => ?_⟩
  have hitems : items = (before ++ [m]) ++ after := by rw [hsplit, List.append_assoc]; rfl
  have hstays : ∀ a ∈ accept clash (before ++ [m]), a ∈ accept clash items := by
    rw [hitems]
    exact fun a ha => (accept_stays _ _).subset ha
  rw [accept_snoc] at hstays
  split at hstays
  · rename_i hclash
    obtain ⟨a, ha, hma⟩ := List.any_eq_true.mp hclash
    exact ⟨a, accept_subset ha, hstays a ha, hma⟩
  · exact absurd (hstays m (by simp)) hout

/-- A selection is what is kept. -/
theorem mem_accept_iff (h : IsSelection clash items accepted) : m ∈ accept clash items ↔ m ∈ accepted := by
  have hloop : ∀ done rest : List α, items = done ++ rest →
      ∀ m, m ∈ accept clash done ↔ m ∈ done ∧ m ∈ accepted := by
    intro done
    induction done using List.reverseRecOn with
    | nil =>
      intro rest hsplit m
      exact iff_of_false List.not_mem_nil fun h => List.not_mem_nil h.1
    | append_singleton done a ih =>
      intro rest hsplit m
      have hcut : items = done ++ a :: rest := by rw [hsplit, List.append_assoc]; rfl
      have ih := ih (a :: rest) hcut
      rw [accept_snoc, List.mem_append, List.mem_singleton]
      split
      · rename_i hclash
        obtain ⟨b, hb, hab⟩ := List.any_eq_true.mp hclash
        rw [ih]
        refine ⟨fun hm => ⟨Or.inl hm.1, hm.2⟩, fun hm => ⟨?_, hm.2⟩⟩
        rcases hm.1 with hdone | rfl
        · exact hdone
        · exact h.apart m hm.2 b ((ih b).mp hb).2 hab ▸ ((ih b).mp hb).1
      · rename_i hfree
        rw [List.mem_append, List.mem_singleton, ih, or_and_right]
        refine or_congr_right ⟨fun hm => ⟨hm, ?_⟩, fun hm => hm.1⟩
        subst hm
        by_contra hout
        obtain ⟨b, hb, hin, hclash⟩ := h.gaveWay done m rest hcut hout
        exact hfree (List.any_eq_true.mpr ⟨b, (ih b).mpr ⟨hb, hin⟩, hclash⟩)
  rw [hloop items [] (List.append_nil _).symm]
  exact and_iff_right_of_imp (h.subset m)

/-- Items may be kept by what is told of them. -/
theorem accept_map {clash : β → β → Bool} (f : α → β) (items : List α) :
    accept clash (items.map f) = (accept (fun a b => clash (f a) (f b)) items).map f := by
  induction items using List.reverseRecOn with
  | nil => rfl
  | append_singleton items m ih =>
    rw [List.map_append, List.map_singleton, accept_snoc, accept_snoc, ih, List.any_map]
    have hany : List.any (accept (fun a b => clash (f a) (f b)) items) (clash (f m) ∘ f) =
        List.any (accept (fun a b => clash (f a) (f b)) items) fun a => clash (f m) (f a) := rfl
    rw [hany]
    split
    · rfl
    · rw [List.map_append, List.map_singleton]

end

end WorkforceRisk.Lib
