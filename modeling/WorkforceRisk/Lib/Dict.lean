/-
  WorkforceRisk.Lib.Dict — Python's `dict`: entries in the order of their keys' first
  assignment, each key once.

  `set` is `d[k] = v`, `update` `d.update(e)`, `keep` a comprehension over `d.items()` with
  an `if`, `ofPairs` one over pairs, `same` is `d == e`. What `get?` reads after each is
  `get?_set`, `get?_update`, `get?_keep` and `get?_ofPairs`; the keys are distinct, so that
  what is read does not depend on the order, and dicts are the same when every key reads
  the same (`same_iff`).
-/

import Mathlib.Data.List.Nodup

namespace WorkforceRisk.Lib

structure Dict (κ α : Type) where
  entries : List (κ × α)
  distinct : (entries.map Prod.fst).Nodup

namespace Dict

variable {κ α : Type}

def empty : Dict κ α := ⟨[], .nil⟩

def length (d : Dict κ α) : Nat := d.entries.length

theorem keep_distinct {entries : List (κ × α)} (h : (entries.map Prod.fst).Nodup) (p : κ → α → Bool) :
    ((entries.filter fun entry => p entry.1 entry.2).map Prod.fst).Nodup :=
  h.sublist (List.filter_sublist.map _)

def keep (d : Dict κ α) (p : κ → α → Bool) : Dict κ α :=
  ⟨d.entries.filter fun entry => p entry.1 entry.2, keep_distinct d.distinct p⟩

variable [DecidableEq κ]

def get? (d : Dict κ α) (k : κ) : Option α := d.entries.lookup k

/-- The entries with one key assigned. -/
def assign (k : κ) (v : α) : List (κ × α) → List (κ × α)
  | [] => [(k, v)]
  | entry :: entries => if entry.1 = k then (k, v) :: entries else entry :: assign k v entries

theorem mem_assign_keys {k k' : κ} {v : α} {entries : List (κ × α)} :
    k' ∈ (assign k v entries).map Prod.fst ↔ k' = k ∨ k' ∈ entries.map Prod.fst := by
  induction entries with
  | nil => simp [assign]
  | cons entry entries ih =>
    unfold assign
    split
    · rename_i h
      simp [h]
    · simp only [List.map_cons, List.mem_cons, ih]
      tauto

theorem assign_distinct {entries : List (κ × α)} (h : (entries.map Prod.fst).Nodup) (k : κ) (v : α) :
    ((assign k v entries).map Prod.fst).Nodup := by
  induction entries with
  | nil => exact List.nodup_singleton k
  | cons entry entries ih =>
    obtain ⟨hnew, hrest⟩ := List.nodup_cons.mp h
    unfold assign
    split
    · rename_i hk
      exact List.nodup_cons.mpr ⟨hk ▸ hnew, hrest⟩
    · rename_i hk
      refine List.nodup_cons.mpr ⟨fun hmem => ?_, ih hrest⟩
      rcases mem_assign_keys.mp hmem with he | hmem
      · exact hk he
      · exact hnew hmem

def set (d : Dict κ α) (k : κ) (v : α) : Dict κ α := ⟨assign k v d.entries, assign_distinct d.distinct k v⟩

theorem lookup_cons (k : κ) (entry : κ × α) (entries : List (κ × α)) :
    (entry :: entries).lookup k = if entry.1 = k then some entry.2 else entries.lookup k := by
  obtain ⟨k', v⟩ := entry
  rw [List.lookup_cons]
  by_cases h : k' = k
  · simp [h]
  · simp [h, beq_false_of_ne (Ne.symm h)]

theorem lookup_assign (k k' : κ) (v : α) (entries : List (κ × α)) :
    (assign k v entries).lookup k' = if k = k' then some v else entries.lookup k' := by
  induction entries with
  | nil => exact lookup_cons k' (k, v) []
  | cons entry entries ih =>
    unfold assign
    split
    · rename_i h
      rw [lookup_cons, lookup_cons, h]
      split <;> rfl
    · rename_i h
      rw [lookup_cons, lookup_cons, ih]
      by_cases hk : k = k'
      · rw [if_pos hk, if_neg (hk ▸ h), if_pos hk]
      · rw [if_neg hk, if_neg hk]

theorem get?_set (d : Dict κ α) (k k' : κ) (v : α) : (d.set k v).get? k' = if k = k' then some v else d.get? k' :=
  lookup_assign k k' v d.entries

@[simp] theorem get?_set_self (d : Dict κ α) (k : κ) (v : α) : (d.set k v).get? k = some v := by
  rw [get?_set, if_pos rfl]

theorem get?_set_ne (d : Dict κ α) {k k' : κ} (v : α) (h : k ≠ k') : (d.set k v).get? k' = d.get? k' := by
  rw [get?_set, if_neg h]

/-- Assigning what a key reads anyway changes nothing. -/
theorem set_of_get? {d : Dict κ α} {k : κ} {v : α} (h : d.get? k = some v) : d.set k v = d := by
  obtain ⟨entries, hdistinct⟩ := d
  have hassign : assign k v entries = entries := by
    unfold get? at h
    induction entries with
    | nil => cases h
    | cons entry entries ih =>
      obtain ⟨hnew, hrest⟩ := List.nodup_cons.mp hdistinct
      have h : (entry :: entries).lookup k = some v := h
      rw [lookup_cons] at h
      unfold assign
      split
      · rename_i hk
        rw [if_pos hk] at h
        cases h
        rw [← hk]
      · rename_i hk
        rw [if_neg hk] at h
        rw [ih hrest h]
  unfold set
  simp only [hassign]

theorem lookup_filter {entries : List (κ × α)} (h : (entries.map Prod.fst).Nodup) (p : κ → α → Bool) (k : κ) :
    (entries.filter fun entry => p entry.1 entry.2).lookup k = (entries.lookup k).filter (p k) := by
  induction entries with
  | nil => rfl
  | cons entry entries ih =>
    obtain ⟨hnew, hrest⟩ := List.nodup_cons.mp h
    -- A key that is dropped here is not read from what follows: there it does not occur.
    have hgone : entry.1 = k → (entries.filter fun entry => p entry.1 entry.2).lookup k = none := by
      intro hk
      refine List.lookup_eq_none_iff.mpr fun e he => ?_
      have hne : k ≠ e.1 := fun heq =>
        hnew (hk ▸ heq ▸ List.mem_map_of_mem (List.mem_of_mem_filter he))
      simpa using hne
    rw [lookup_cons, List.filter_cons]
    cases hp : p entry.1 entry.2 with
    | true =>
      rw [if_pos rfl, lookup_cons, ih hrest]
      split
      · rename_i hk
        rw [Option.filter_some, if_pos (hk ▸ hp)]
      · rfl
    | false =>
      rw [if_neg Bool.false_ne_true]
      split
      · rename_i hk
        rw [hgone hk, Option.filter_some, if_neg (by simp [← hk, hp])]
      · exact ih hrest

/-- A key is read from what a comprehension keeps exactly when its own entry is kept. -/
theorem get?_keep (d : Dict κ α) (p : κ → α → Bool) (k : κ) : (d.keep p).get? k = (d.get? k).filter (p k) :=
  lookup_filter d.distinct p k

/-- The key is one of the dict's. -/
theorem get?_isSome {d : Dict κ α} {k : κ} : (d.get? k).isSome = true ↔ k ∈ d.entries.map Prod.fst := by
  unfold get?
  induction d.entries with
  | nil => simp
  | cons entry entries ih =>
    rw [lookup_cons, List.map_cons, List.mem_cons, ← ih]
    split
    · rename_i h
      simp [h]
    · rename_i h
      simp [Ne.symm h]

theorem mem_entries {d : Dict κ α} {k : κ} {v : α} : (k, v) ∈ d.entries ↔ d.get? k = some v := by
  obtain ⟨entries, h⟩ := d
  unfold get?
  induction entries with
  | nil => simp
  | cons entry entries ih =>
    obtain ⟨hnew, hrest⟩ := List.nodup_cons.mp h
    have ih : (k, v) ∈ entries ↔ entries.lookup k = some v := ih hrest
    show _ ↔ (entry :: entries).lookup k = some v
    rw [lookup_cons, List.mem_cons, ih]
    split
    · rename_i hk
      have hgone : entries.lookup k ≠ some v := by
        intro hlookup
        exact hnew (hk ▸ List.mem_map_of_mem (ih.mpr hlookup))
      simp only [hgone, or_false, Option.some.injEq]
      exact ⟨fun he => by rw [← he], fun hv => by rw [← hk, ← hv]⟩
    · rename_i hk
      exact ⟨fun hor => hor.resolve_left fun he => hk (by rw [← he]), Or.inr⟩

def update (d e : Dict κ α) : Dict κ α := e.entries.foldl (fun d entry => d.set entry.1 entry.2) d

theorem get?_foldl_set {k : κ} : ∀ {entries : List (κ × α)} {d : Dict κ α}, (entries.map Prod.fst).Nodup →
    (entries.foldl (fun d entry => d.set entry.1 entry.2) d).get? k = (entries.lookup k).or (d.get? k) := by
  intro entries
  induction entries with
  | nil => intro d _; rfl
  | cons entry entries ih =>
    intro d h
    obtain ⟨hnew, hrest⟩ := List.nodup_cons.mp h
    rw [List.foldl_cons, ih hrest, lookup_cons, get?_set]
    split
    · rename_i hk
      have hgone : entries.lookup k = none := by
        refine List.lookup_eq_none_iff.mpr fun e he => ?_
        have hne : k ≠ e.1 := fun heq => hnew (hk ▸ heq ▸ List.mem_map_of_mem he)
        simpa using hne
      rw [hgone]
      rfl
    · rfl

/-- What is assigned last is read. -/
theorem get?_update (d e : Dict κ α) (k : κ) : (d.update e).get? k = (e.get? k).or (d.get? k) :=
  get?_foldl_set e.distinct

/-- A comprehension over pairs. -/
def ofPairs (pairs : List (κ × α)) : Dict κ α := pairs.foldl (fun d pair => d.set pair.1 pair.2) empty

theorem get?_foldl (pairs : List (κ × α)) (k : κ) : ∀ d : Dict κ α,
    (pairs.foldl (fun d pair => d.set pair.1 pair.2) d).get? k = (pairs.reverse.lookup k).or (d.get? k) := by
  induction pairs with
  | nil => intro d; rfl
  | cons pair pairs ih =>
    intro d
    rw [List.foldl_cons, ih, get?_set, List.reverse_cons, List.lookup_append, lookup_cons]
    cases pairs.reverse.lookup k with
    | some v => rfl
    | none =>
      by_cases hk : pair.1 = k
      · simp [hk]
      · simp [hk]

/-- Of the pairs with a key the last one is read. -/
theorem get?_ofPairs (pairs : List (κ × α)) (k : κ) : (ofPairs pairs).get? k = pairs.reverse.lookup k := by
  rw [ofPairs, get?_foldl]
  exact Option.or_none

/-! ## Equality -/

/-- Every key of the one reads the same in the other. -/
def within [DecidableEq α] (d e : Dict κ α) : Bool := d.entries.all fun entry => e.get? entry.1 == some entry.2

def same [DecidableEq α] (d e : Dict κ α) : Bool := d.within e && e.within d

theorem within_iff [DecidableEq α] {d e : Dict κ α} :
    d.within e = true ↔ ∀ k v, d.get? k = some v → e.get? k = some v := by
  unfold within
  rw [List.all_eq_true]
  constructor
  · intro h k v hk
    simpa using h (k, v) (mem_entries.mpr hk)
  · intro h entry hentry
    simpa using h entry.1 entry.2 (mem_entries.mp hentry)

theorem same_iff [DecidableEq α] {d e : Dict κ α} : d.same e = true ↔ ∀ k, d.get? k = e.get? k := by
  unfold same
  rw [Bool.and_eq_true, within_iff, within_iff]
  constructor
  · intro h k
    cases hd : d.get? k with
    | some v => exact (h.1 k v hd).symm
    | none =>
      cases he : e.get? k with
      | none => rfl
      | some v =>
        rw [h.2 k v he] at hd
        cases hd
  · intro h
    exact ⟨fun k v hk => by rw [← h k]; exact hk, fun k v hk => by rw [h k]; exact hk⟩

end Dict

end WorkforceRisk.Lib
