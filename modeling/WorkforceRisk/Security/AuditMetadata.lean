/-
  WorkforceRisk.Security.AuditMetadata — what the audit endpoint shows of stored values
  (services/agent-api/src/agent_api/routes/audit.py `safe_metadata`).

  An entry whose key has a forbidden term in it, in any case, is left out with all that is
  under it; every other entry is kept and its value looked through, and so are the items of
  lists. Proved (`safe_metadata_scrubs`): the result is the value without those entries and
  nothing else (`Pruned`, which one value alone is), no object in it at any depth has such a
  key (`Clean`), and looking through it again leaves it as it is.
-/

import WorkforceRisk.Evidence.Derivation

namespace WorkforceRisk.Security

open Persistence Evidence

/-- `FORBIDDEN_METADATA_KEYS`. -/
def forbiddenMetadataKeys : List String := ["token", "secret", "password", "credential", "authorization"]

/-! ## Values without some of their entries -/

/-- A value is in another, at any depth. -/
inductive Within (value : Json) : Json → Prop
  | self : Within value value
  | item {x : Json} {xs : List Json} : x ∈ xs → Within value x → Within value (.arr xs)
  | entry {key : String} {x : Json} {members : List (String × Json)} : (key, x) ∈ members → Within value x →
      Within value (.obj members)

/-- No object in a value has a key of a kind. -/
def Clean (p : String → Prop) (value : Json) : Prop :=
  ∀ members, Within (.obj members) value → ∀ entry ∈ members, ¬ p entry.1

mutual

/-- A value, and it without its entries under keys of a kind. -/
inductive Pruned (p : String → Prop) : Json → Json → Prop
  | null : Pruned p .null .null
  | bool (b : Bool) : Pruned p (.bool b) (.bool b)
  | num (n : Rat) : Pruned p (.num n) (.num n)
  | str (s : String) : Pruned p (.str s) (.str s)
  | arr {xs ys : List Json} : PrunedItems p xs ys → Pruned p (.arr xs) (.arr ys)
  | obj {members kept : List (String × Json)} : PrunedEntries p members kept → Pruned p (.obj members) (.obj kept)

inductive PrunedItems (p : String → Prop) : List Json → List Json → Prop
  | nil : PrunedItems p [] []
  | cons {x y : Json} {xs ys : List Json} : Pruned p x y → PrunedItems p xs ys → PrunedItems p (x :: xs) (y :: ys)

inductive PrunedEntries (p : String → Prop) : List (String × Json) → List (String × Json) → Prop
  | nil : PrunedEntries p [] []
  | drop {key : String} {x : Json} {members kept : List (String × Json)} : p key → PrunedEntries p members kept →
      PrunedEntries p ((key, x) :: members) kept
  | keep {key : String} {x y : Json} {members kept : List (String × Json)} : ¬ p key → Pruned p x y →
      PrunedEntries p members kept → PrunedEntries p ((key, x) :: members) ((key, y) :: kept)

end

section
variable {p : String → Prop}

theorem clean_arr {xs : List Json} : Clean p (.arr xs) ↔ ∀ x ∈ xs, Clean p x := by
  constructor
  · intro h x hx members hwithin
    exact h members (.item hx hwithin)
  · intro h members hwithin
    cases hwithin with
    | item hx hwithin => exact h _ hx members hwithin

theorem clean_obj {members : List (String × Json)} :
    Clean p (.obj members) ↔ ∀ entry ∈ members, ¬ p entry.1 ∧ Clean p entry.2 := by
  constructor
  · intro h entry hentry
    exact ⟨h members .self entry hentry, fun inner hwithin => h inner (.entry hentry hwithin)⟩
  · intro h inner hwithin entry hentry
    cases hwithin with
    | self => exact (h entry hentry).1
    | entry hin hwithin => exact (h _ hin).2 inner hwithin entry hentry

end

variable [LowerCase]

/-- `any(term in key.lower() for term in FORBIDDEN_METADATA_KEYS)` -/
def isForbidden (key : String) : Bool := forbiddenMetadataKeys.any fun term => contains (LowerCase.lower key) term

mutual

def safeMetadata : Json → Json
  | .obj members => .obj (safeMembers members)
  | .arr xs => .arr (safeItems xs)
  | value => value

def safeMembers : List (String × Json) → List (String × Json)
  | [] => []
  | (key, item) :: members =>
    if isForbidden key then safeMembers members else (key, safeMetadata item) :: safeMembers members

def safeItems : List Json → List Json
  | [] => []
  | item :: items => safeMetadata item :: safeItems items

end

/-- The key has a forbidden term in it, in any case. -/
def Forbidden (key : String) : Prop := ∃ term ∈ forbiddenMetadataKeys, contains (LowerCase.lower key) term = true

theorem isForbidden_iff {key : String} : isForbidden key = true ↔ Forbidden key := List.any_eq_true

/-! ## Only the forbidden entries go -/

mutual

theorem pruned_safeMetadata : ∀ value, Pruned Forbidden value (safeMetadata value)
  | .null => .null
  | .bool b => .bool b
  | .num n => .num n
  | .str s => .str s
  | .arr xs => .arr (pruned_safeItems xs)
  | .obj members => .obj (pruned_safeMembers members)

theorem pruned_safeItems : ∀ items, PrunedItems Forbidden items (safeItems items)
  | [] => .nil
  | item :: items => .cons (pruned_safeMetadata item) (pruned_safeItems items)

theorem pruned_safeMembers : ∀ members, PrunedEntries Forbidden members (safeMembers members)
  | [] => .nil
  | (key, item) :: members => by
    rw [safeMembers]
    by_cases h : isForbidden key = true
    · rw [if_pos h]
      exact .drop (isForbidden_iff.mp h) (pruned_safeMembers members)
    · rw [if_neg h]
      exact .keep (mt isForbidden_iff.mpr h) (pruned_safeMetadata item) (pruned_safeMembers members)

end

mutual

/-- One value alone is another without its forbidden entries. -/
theorem eq_of_pruned : ∀ {value result : Json}, Pruned Forbidden value result → result = safeMetadata value
  | _, _, .null => rfl
  | _, _, .bool _ => rfl
  | _, _, .num _ => rfl
  | _, _, .str _ => rfl
  | _, _, .arr h => congrArg Json.arr (eq_of_prunedItems h)
  | _, _, .obj h => congrArg Json.obj (eq_of_prunedEntries h)

theorem eq_of_prunedItems : ∀ {items result : List Json}, PrunedItems Forbidden items result → result = safeItems items
  | _, _, .nil => rfl
  | _, _, .cons h hs => by rw [safeItems, eq_of_pruned h, eq_of_prunedItems hs]

theorem eq_of_prunedEntries : ∀ {members result : List (String × Json)}, PrunedEntries Forbidden members result →
    result = safeMembers members
  | _, _, .nil => rfl
  | _, _, .drop hkey hs => by rw [safeMembers, if_pos (isForbidden_iff.mpr hkey), eq_of_prunedEntries hs]
  | _, _, .keep hkey h hs => by
    rw [safeMembers, if_neg (mt isForbidden_iff.mp hkey), eq_of_pruned h, eq_of_prunedEntries hs]

end

/-! ## Nothing forbidden is left -/

mutual

theorem clean_safeMetadata : ∀ value, Clean Forbidden (safeMetadata value)
  | .null => fun _ hwithin => nomatch hwithin
  | .bool _ => fun _ hwithin => nomatch hwithin
  | .num _ => fun _ hwithin => nomatch hwithin
  | .str _ => fun _ hwithin => nomatch hwithin
  | .arr xs => clean_arr.mpr (clean_safeItems xs)
  | .obj members => clean_obj.mpr (clean_safeMembers members)

theorem clean_safeItems : ∀ items, ∀ x ∈ safeItems items, Clean Forbidden x
  | [], _, hx => nomatch hx
  | item :: items, x, hx => by
    rcases List.mem_cons.mp hx with rfl | hx
    · exact clean_safeMetadata item
    · exact clean_safeItems items x hx

theorem clean_safeMembers : ∀ members, ∀ entry ∈ safeMembers members, ¬ Forbidden entry.1 ∧ Clean Forbidden entry.2
  | [], _, hentry => nomatch hentry
  | (key, item) :: members, entry, hentry => by
    rw [safeMembers] at hentry
    split at hentry
    · exact clean_safeMembers members entry hentry
    · rename_i hkey
      rcases List.mem_cons.mp hentry with rfl | hentry
      · exact ⟨mt isForbidden_iff.mpr hkey, clean_safeMetadata item⟩
      · exact clean_safeMembers members entry hentry

end

mutual

/-- A clean value stays as it is. -/
theorem safeMetadata_of_clean : ∀ value, Clean Forbidden value → safeMetadata value = value
  | .null, _ => rfl
  | .bool _, _ => rfl
  | .num _, _ => rfl
  | .str _, _ => rfl
  | .arr xs, h => congrArg Json.arr (safeItems_of_clean xs (clean_arr.mp h))
  | .obj members, h => congrArg Json.obj (safeMembers_of_clean members (clean_obj.mp h))

theorem safeItems_of_clean : ∀ items, (∀ x ∈ items, Clean Forbidden x) → safeItems items = items
  | [], _ => rfl
  | item :: items, h => by
    obtain ⟨hitem, hitems⟩ := List.forall_mem_cons.mp h
    rw [safeItems, safeMetadata_of_clean item hitem, safeItems_of_clean items hitems]

theorem safeMembers_of_clean : ∀ members, (∀ entry ∈ members, ¬ Forbidden entry.1 ∧ Clean Forbidden entry.2) →
    safeMembers members = members
  | [], _ => rfl
  | (key, item) :: members, h => by
    obtain ⟨⟨hkey, hitem⟩, hmembers⟩ := List.forall_mem_cons.mp h
    rw [safeMembers, if_neg (mt isForbidden_iff.mp hkey), safeMetadata_of_clean item hitem,
      safeMembers_of_clean members hmembers]

end

/-- What is shown of a value is the value without the entries under forbidden keys and nothing
    else, no object in it has such a key, and it is shown as itself. -/
theorem safe_metadata_scrubs (value : Json) :
    (∀ result, Pruned Forbidden value result ↔ result = safeMetadata value) ∧
      Clean Forbidden (safeMetadata value) ∧ safeMetadata (safeMetadata value) = safeMetadata value := by
  have hclean := clean_safeMetadata value
  refine ⟨fun result => ⟨eq_of_pruned, ?_⟩, hclean, safeMetadata_of_clean _ hclean⟩
  rintro rfl
  exact pruned_safeMetadata value

example : letI : LowerCase := ⟨String.toLower⟩
    safeMetadata (.arr [.obj [("Api-TOKEN", .str "x"), ("note", .obj [("mySecrets", .null), ("n", .num 1)])]]) =
      .arr [.obj [("note", .obj [("n", .num 1)])]] := by decide +kernel

end WorkforceRisk.Security
