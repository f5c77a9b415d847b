/-
  WorkforceRisk.Lib.Raising — what a computation may raise.

  `Raises P r` says that what `r` raises, if it does, is `P`. It goes through a bind exactly
  if it does on both sides (`raises_bind_iff`), and through a `mapM` exactly if it does at
  every item that comes after ones that give a value (`raises_mapM_iff`).
-/

import WorkforceRisk.Lib.Transactions

namespace WorkforceRisk.Lib

variable {ε α β : Type} {P : ε → Prop}

def Raises (P : ε → Prop) (r : Except ε α) : Prop := ∀ e, r = .error e → P e

@[simp] theorem raises_ok (a : α) : Raises P (.ok a : Except ε α) := by
  intro e h
  cases h

@[simp] theorem raises_pure (a : α) : Raises P (pure a : Except ε α) := raises_ok a

@[simp] theorem raises_error {e : ε} : Raises P (.error e : Except ε α) ↔ P e := by
  constructor
  · intro h
    exact h e rfl
  · rintro h e' ⟨⟩
    exact h

theorem raises_bind_iff {x : Except ε α} {f : α → Except ε β} :
    Raises P (x >>= f) ↔ Raises P x ∧ ∀ a, x = .ok a → Raises P (f a) := by
  cases x with
  | error e => exact raises_error.trans ⟨fun h => ⟨raises_error.mpr h, fun a ha => (by cases ha)⟩,
      fun h => raises_error.mp h.1⟩
  | ok a =>
    constructor
    · intro h
      exact ⟨raises_ok a, fun b hb => by cases hb; exact h⟩
    · rintro ⟨-, h⟩
      exact h a rfl

theorem Raises.bind {x : Except ε α} {f : α → Except ε β} (hx : Raises P x) (hf : ∀ a, x = .ok a → Raises P (f a)) :
    Raises P (x >>= f) := raises_bind_iff.mpr ⟨hx, hf⟩

theorem raises_map_iff {x : Except ε α} {f : α → β} : Raises P (x.map f) ↔ Raises P x := by
  cases x with
  | error e => exact raises_error.trans raises_error.symm
  | ok a => exact iff_of_true (raises_ok _) (raises_ok a)

theorem raises_mapM_iff {f : α → Except ε β} {l : List α} : Raises P (l.mapM f) ↔
    ∀ before a after, l = before ++ a :: after → (∀ b ∈ before, ∃ c, f b = .ok c) → Raises P (f a) := by
  constructor
  · intro h before a after hl hbefore e he
    exact h e (mapM_error_iff.mpr ⟨before, a, after, hl, hbefore, he⟩)
  · intro h e he
    obtain ⟨before, a, after, hl, hbefore, ha⟩ := mapM_error_iff.mp he
    exact h before a after hl hbefore e ha

theorem Raises.mapM {f : α → Except ε β} {l : List α} (h : ∀ a ∈ l, Raises P (f a)) : Raises P (l.mapM f) := by
  rw [raises_mapM_iff]
  rintro before a after rfl -
  exact h a (List.mem_append_right _ List.mem_cons_self)

end WorkforceRisk.Lib
