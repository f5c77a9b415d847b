/-
  WorkforceRisk.Lib.Grouping — items grouped by a key that some have not.

  The keys are listed once each, in the order they first appear. Proved (`sum_groups`):
  the groups' sizes and the number of items without a key add up to the number of items.
-/

import Mathlib.Algebra.BigOperators.Group.List.Lemmas
import Mathlib.Algebra.GroupWithZero.Nat
import Mathlib.Data.List.Dedup
import Mathlib.Data.List.Nodup

namespace WorkforceRisk.Lib

section
variable {α κ : Type} [BEq κ] [LawfulBEq κ]

theorem nodup_eraseDups : ∀ l : List κ, l.eraseDups.Nodup
  | [] => List.nodup_nil
  | k :: l => by
    rw [List.eraseDups_cons]
    have hlt : (l.filter fun other => !other == k).length < l.length + 1 :=
      Nat.lt_succ_of_le (List.length_filter_le _ _)
    refine List.nodup_cons.mpr ⟨fun h => ?_, nodup_eraseDups _⟩
    have hne := (List.mem_filter.mp (List.mem_eraseDups.mp h)).2
    simp at hne
termination_by l => l.length

/-- Each key occurs once for every item that has it. -/
theorem count_filterMap (f : α → Option κ) (l : List α) (k : κ) :
    (l.filterMap f).count k = (l.filter fun a => f a == some k).length := by
  induction l with
  | nil => rfl
  | cons a l ih =>
    cases hf : f a with
    | none => rw [List.filterMap_cons_none hf, ih, List.filter_cons_of_neg (by simp [hf])]
    | some other =>
      rw [List.filterMap_cons_some hf, List.count_cons, ih]
      cases hk : other == k with
      | false => rw [List.filter_cons_of_neg (by simpa [hf] using hk)]; rfl
      | true => rw [List.filter_cons_of_pos (by simpa [hf] using hk)]; rfl

end

theorem sum_groups {α κ : Type} [DecidableEq κ] (f : α → Option κ) (l : List α) :
    ((l.filterMap f).eraseDups.map fun k => (l.filter fun a => f a == some k).length).sum +
      l.countP (fun a => (f a).isNone) = l.length := by
  have hkeys : (l.filterMap f).eraseDups.Perm (l.filterMap f).dedup :=
    (List.perm_ext_iff_of_nodup (nodup_eraseDups _) (List.nodup_dedup _)).mpr fun k => by
      rw [List.mem_eraseDups, List.mem_dedup]
  have hwith : ((l.filterMap f).eraseDups.map fun k => (l.filter fun a => f a == some k).length).sum =
      (l.filterMap f).length := by
    simp only [← count_filterMap]
    rw [(hkeys.map _).sum_eq]
    exact List.sum_map_count_dedup_eq_length _
  rw [hwith, List.length_filterMap_eq_countP, List.length_eq_countP_add_countP (fun a => (f a).isSome) (l := l)]
  refine congrArg _ (List.countP_congr fun a _ => ?_)
  cases f a <;> simp

end WorkforceRisk.Lib
