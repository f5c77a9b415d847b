/-
  WorkforceRisk.Lib.HashChain — chains of records that each carry the hash of the one
  before.

  A `HashChain` says how a record of type `ε` shows its number, the hash before it, its
  own hash, and the digest its own hash is to be. `verifyFrom n h` walks a list and checks
  that the numbers run from `n`, that each record points to the hash before it (the
  first to `h`), and that each hash is the digest.

  A chain is verified part by part (`verifyFrom_append`), so it goes on being one with a
  record that continues it (`verifyFrom_snoc`), and every prefix of it is one. When
  digests are collision free, a hash of a verified chain says which of its records a
  record is (`seen_of_hash`), and lists that show the same are verified alike
  (`verifyFrom_congr`).
-/

import Mathlib.Data.List.Basic

namespace WorkforceRisk.Lib

structure HashChain (ε η : Type) where
  number : ε → Nat
  previous : ε → Option η
  hash : ε → η
  /-- What the hash is recomputed to. -/
  digest : ε → η

namespace HashChain

variable {ε η : Type} [DecidableEq η] (C : HashChain ε η)

def verifyFrom : Nat → Option η → List ε → Bool
  | _, _, [] => true
  | n, h, e :: l =>
    if C.number e ≠ n ∨ C.previous e ≠ h then false
    else if C.digest e ≠ C.hash e then false
    else verifyFrom (n + 1) (some (C.hash e)) l

/-- The hash a record after `l` points to. -/
def lastHash (h : Option η) (l : List ε) : Option η := l.foldl (fun _ e => some (C.hash e)) h

variable {C} {n : Nat} {h : Option η} {e : ε} {l l' : List ε}

theorem verifyFrom_cons : C.verifyFrom n h (e :: l) = true ↔
    (C.number e = n ∧ C.previous e = h ∧ C.digest e = C.hash e) ∧ C.verifyFrom (n + 1) (some (C.hash e)) l = true := by
  simp only [verifyFrom]
  split
  · rename_i hne
    exact ⟨fun hf => (by cases hf), fun hf => absurd hne (by simp [hf.1.1, hf.1.2.1])⟩
  rename_i heq
  simp only [ne_eq, not_or, Decidable.not_not] at heq
  split
  · rename_i hd
    exact ⟨fun hf => (by cases hf), fun hf => absurd hf.1.2.2 hd⟩
  · rename_i hd
    exact ⟨fun hf => ⟨⟨heq.1, heq.2, Decidable.not_not.mp hd⟩, hf⟩, fun hf => hf.2⟩

theorem verifyFrom_append : C.verifyFrom n h (l ++ l') = true ↔
    C.verifyFrom n h l = true ∧ C.verifyFrom (n + l.length) (C.lastHash h l) l' = true := by
  induction l generalizing n h with
  | nil => simp [verifyFrom, lastHash]
  | cons e l ih =>
    rw [List.cons_append, verifyFrom_cons, verifyFrom_cons, ih, List.length_cons,
      show n + (l.length + 1) = n + 1 + l.length by omega]
    exact and_assoc.symm

/-- A record continues a chain when it points to its end and carries its own digest. -/
theorem verifyFrom_snoc : C.verifyFrom n h (l ++ [e]) = true ↔ C.verifyFrom n h l = true ∧
    C.number e = n + l.length ∧ C.previous e = C.lastHash h l ∧ C.digest e = C.hash e := by
  rw [verifyFrom_append, verifyFrom_cons]
  simp [verifyFrom]

theorem verifyFrom_prefix (hv : C.verifyFrom n h l' = true) (hp : l <+: l') : C.verifyFrom n h l = true := by
  obtain ⟨t, rfl⟩ := hp
  exact (verifyFrom_append.mp hv).1

theorem verifyFrom_numbers (hv : C.verifyFrom n h l = true) : l.map C.number = List.range' n l.length := by
  induction l generalizing n h with
  | nil => rfl
  | cons e l ih =>
    obtain ⟨⟨hn, _⟩, hv⟩ := verifyFrom_cons.mp hv
    rw [List.map_cons, hn, ih hv, List.length_cons, List.range'_succ]

theorem verifyFrom_digest (hv : C.verifyFrom n h l = true) (he : e ∈ l) : C.digest e = C.hash e := by
  induction l generalizing n h with
  | nil => cases he
  | cons a l ih =>
    obtain ⟨⟨_, _, hd⟩, hv⟩ := verifyFrom_cons.mp hv
    rcases List.mem_cons.mp he with rfl | he
    · exact hd
    · exact ih hv he

theorem number_ge (hv : C.verifyFrom n h l = true) (he : e ∈ l) : n ≤ C.number e := by
  have hmem : C.number e ∈ List.range' n l.length := verifyFrom_numbers hv ▸ List.mem_map_of_mem he
  exact (List.mem_range'_1.mp hmem).1

/-- The number of the record after `l`. -/
theorem number_after (hv : C.verifyFrom n h (l ++ e :: l') = true) : C.number e = n + l.length :=
  (verifyFrom_cons.mp (verifyFrom_append.mp hv).2).1.1

theorem pairwise_number (hv : C.verifyFrom n h l = true) : l.Pairwise fun a b => C.number a < C.number b := by
  have hp : (l.map C.number).Pairwise (· < ·) := by
    rw [verifyFrom_numbers hv]
    exact List.pairwise_lt_range'
  exact List.pairwise_map.mp hp

omit [DecidableEq η] in
theorem lastHash_eq : C.lastHash h l = (l.getLast?.map C.hash).or h := by
  rcases List.eq_nil_or_concat l with rfl | ⟨l, e, rfl⟩
  · rfl
  · simp [lastHash]

/-! ## Collision-free digests -/

section
variable {κ : Type} {key : ε → κ}

/-- What `verifyFrom` looks at: the hashed content, and the hash. -/
def seen (C : HashChain ε η) (key : ε → κ) (e : ε) : κ × η := (key e, C.hash e)

variable (hdigest : ∀ a b, C.digest a = C.digest b ↔ key a = key b)

include hdigest

/-- In a verified chain a hash says which record it is of. -/
theorem seen_of_hash {a : ε} (hv : C.verifyFrom n h l = true) (ha : a ∈ l) (hd : C.digest e = C.hash e)
    (hh : C.hash a = C.hash e) : C.seen key e = C.seen key a := by
  have hkey : key e = key a := (hdigest e a).mp (by rw [hd, verifyFrom_digest hv ha, hh])
  rw [seen, seen, hkey, hh]

variable (hshow : ∀ a b, key a = key b → C.number a = C.number b ∧ C.previous a = C.previous b)

include hshow

theorem verifyFrom_congr (hs : l.map (C.seen key) = l'.map (C.seen key)) :
    C.verifyFrom n h l = true ↔ C.verifyFrom n h l' = true := by
  induction l generalizing n h l' with
  | nil =>
    cases l' with
    | nil => rfl
    | cons e' l' => cases hs
  | cons e l ih =>
    cases l' with
    | nil => cases hs
    | cons e' l' =>
      obtain ⟨hseen, hs⟩ := List.cons.inj hs
      obtain ⟨hkey, hhash⟩ : key e = key e' ∧ C.hash e = C.hash e' := Prod.mk.inj hseen
      rw [verifyFrom_cons, verifyFrom_cons, ih hs, (hshow _ _ hkey).1, (hshow _ _ hkey).2, hhash, (hdigest e e').mpr hkey]

end

end HashChain

end WorkforceRisk.Lib
