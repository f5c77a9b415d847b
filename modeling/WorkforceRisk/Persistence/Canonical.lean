/-
  WorkforceRisk.Persistence.Canonical — what `json.dumps(value, sort_keys=True)` shows.

  Two values have one canonical text when they are equal up to the order of the members
  of their objects (`Json.sorted`). `Sha256.Ideal` says that of the digests: SHA-256 of
  the canonical text as an injective function of the sorted value. It can be met:
  `Sha256.coded` gives each sorted value a text of its own (`code_inj`).
-/

import Mathlib.Data.List.Sort
import WorkforceRisk.Persistence.Values

namespace WorkforceRisk.Persistence

/-! ## Sorted keys -/

def sortMembers (members : List (String × Json)) : List (String × Json) :=
  members.insertionSort fun a b => a.1 ≤ b.1

mutual

def Json.sorted : Json → Json
  | .arr xs => .arr (Json.sortedItems xs)
  | .obj members => .obj (sortMembers (Json.sortedMembers members))
  | v => v

def Json.sortedItems : List Json → List Json
  | [] => []
  | x :: xs => x.sorted :: Json.sortedItems xs

def Json.sortedMembers : List (String × Json) → List (String × Json)
  | [] => []
  | (key, x) :: members => (key, x.sorted) :: Json.sortedMembers members

end

/-- SHA-256 of the canonical text, taken to be injective. -/
structure Sha256.Ideal [Sha256] (digest : Json → String) : Prop where
  canonical_eq : ∀ value, Sha256.canonical value = digest value.sorted
  injective : ∀ a b, digest a = digest b → a = b

theorem Sha256.Ideal.canonical_inj [Sha256] {digest : Json → String} (h : Sha256.Ideal digest) {a b : Json} :
    Sha256.canonical a = Sha256.canonical b ↔ a.sorted = b.sorted := by
  rw [h.canonical_eq, h.canonical_eq]
  exact ⟨h.injective _ _, congrArg digest⟩

/-- Members written under sorted keys stay as they are. -/
theorem sortMembers_of_keys {members : List (String × Json)} (h : (members.map Prod.fst).Pairwise (· ≤ ·)) :
    sortMembers members = members := List.Pairwise.insertionSort_eq (List.pairwise_map.mp h)

/-- Two objects with the same keys in the same order are told apart by their members. -/
theorem sortMembers_inj {a b : List (String × Json)} (hk : a.map Prod.fst = b.map Prod.fst)
    (hn : (a.map Prod.fst).Nodup) : sortMembers a = sortMembers b ↔ a = b := by
  refine ⟨fun h => ?_, congrArg sortMembers⟩
  have hperm : a.Perm b := by
    have ha := List.perm_insertionSort (fun a b : String × Json => a.1 ≤ b.1) a
    rw [show a.insertionSort _ = _ from h] at ha
    exact ha.symm.trans (List.perm_insertionSort _ b)
  clear h
  induction a generalizing b with
  | nil => exact hperm.nil_eq
  | cons x a ih =>
    cases b with
    | nil => cases hk
    | cons y b =>
      obtain ⟨-, hkeys⟩ := List.cons.inj hk
      obtain ⟨hx, hrest⟩ := List.nodup_cons.mp hn
      have hmem : x ∈ y :: b := hperm.mem_iff.mp List.mem_cons_self
      rcases List.mem_cons.mp hmem with rfl | hmem
      · exact congrArg (x :: ·) (ih hkeys hrest hperm.cons_inv)
      · exact absurd (by rw [hkeys]; exact List.mem_map_of_mem hmem) hx

/-! ## What sorting keeps apart -/

namespace Json

/-- An optional value of a kind that has no members is told by its text. -/
theorem sorted_opt {α : Type} {json : α → Json} (hs : ∀ a, (json a).sorted = json a) (hn : ∀ a, json a ≠ .null)
    (hj : Function.Injective json) {x y : Option α} :
    (Json.opt json x).sorted = (Json.opt json y).sorted ↔ x = y := by
  cases x with
  | none =>
    cases y with
    | none => simp
    | some b => simp [Json.opt, hs, sorted, (hn b).symm]
  | some a =>
    cases y with
    | none => simp [Json.opt, hs, sorted, hn a]
    | some b => simp [Json.opt, hs, hj.eq_iff]

/-- A value that may be missing, by its text. -/
theorem sorted_optText {α : Type} {text : α → String} (ht : Function.Injective text) {x y : Option α} :
    (Json.opt (fun a => str (text a)) x).sorted = (Json.opt (fun a => str (text a)) y).sorted ↔ x = y :=
  sorted_opt (fun a => (rfl : (str (text a)).sorted = str (text a))) (fun _ => Json.noConfusion)
    fun _ _ h => ht (Json.str.inj h)

theorem sorted_optStr {x y : Option String} : (Json.opt str x).sorted = (Json.opt str y).sorted ↔ x = y :=
  sorted_optText Function.injective_id

theorem sortedItems_str (xs : List String) : sortedItems (xs.map .str) = xs.map .str := by
  induction xs with
  | nil => rfl
  | cons x xs ih => simp [sortedItems, sorted, ih]

theorem sorted_strs {xs ys : List String} : (strs xs).sorted = (strs ys).sorted ↔ xs = ys := by
  rw [strs, strs, sorted, sorted, sortedItems_str, sortedItems_str, Json.arr.injEq]
  exact (List.map_injective_iff.mpr fun _ _ => Json.str.inj).eq_iff

end Json

/-! ## A text for each value -/

def unary (n : Nat) : List Char := List.replicate n 'i' ++ ['.']

def codeString (s : String) : List Char := unary s.toList.length ++ s.toList

def codeNumber (q : Rat) : List Char := (if q.num < 0 then 'm' else 'p') :: unary q.num.natAbs ++ unary q.den

mutual

def Json.code : Json → List Char
  | .null => ['n']
  | .bool b => ['b', if b then 't' else 'f']
  | .num q => 'q' :: codeNumber q
  | .str s => 's' :: codeString s
  | .arr xs => 'a' :: Json.codeItems xs
  | .obj members => 'o' :: Json.codeMembers members

def Json.codeItems : List Json → List Char
  | [] => ['.']
  | x :: xs => ',' :: (x.code ++ Json.codeItems xs)

def Json.codeMembers : List (String × Json) → List Char
  | [] => ['.']
  | (key, x) :: members => ',' :: (codeString key ++ x.code ++ Json.codeMembers members)

end

/-- No text starts another: what follows is told apart from it. -/
theorem unary_inj {m n : Nat} {r s : List Char} (h : unary m ++ r = unary n ++ s) : m = n ∧ r = s := by
  induction m generalizing n with
  | zero =>
    cases n with
    | zero => exact ⟨rfl, by simpa [unary] using h⟩
    | succ n => simp [unary, List.replicate_succ] at h
  | succ m ih =>
    cases n with
    | zero => simp [unary, List.replicate_succ] at h
    | succ n =>
      obtain ⟨rfl, hrs⟩ := ih (n := n) (by simpa [unary, List.replicate_succ] using h)
      exact ⟨rfl, hrs⟩

theorem codeString_inj {a b : String} {r s : List Char} (h : codeString a ++ r = codeString b ++ s) :
    a = b ∧ r = s := by
  rw [codeString, codeString, List.append_assoc, List.append_assoc] at h
  obtain ⟨hlen, h⟩ := unary_inj h
  obtain ⟨hchars, hrs⟩ := List.append_inj h hlen
  exact ⟨String.toList_inj.mp hchars, hrs⟩

theorem codeNumber_inj {a b : Rat} {r s : List Char} (h : codeNumber a ++ r = codeNumber b ++ s) : a = b ∧ r = s := by
  simp only [codeNumber, List.cons_append, List.append_assoc, List.cons.injEq] at h
  obtain ⟨hsign, h⟩ := h
  obtain ⟨habs, hrest⟩ := unary_inj h
  obtain ⟨hden, hrs⟩ := unary_inj hrest
  refine ⟨Rat.ext ?_ hden, hrs⟩
  split at hsign <;> split at hsign <;> first | omega | simp at hsign

mutual

theorem code_append_inj : ∀ {a b : Json} {r s : List Char}, a.code ++ r = b.code ++ s → a = b ∧ r = s
  | .null, b, r, s, h => by cases b <;> simp_all [Json.code]
  | .bool a, b, r, s, h => by
    cases b with
    | bool b => cases a <;> cases b <;> simp_all [Json.code]
    | _ => simp [Json.code] at h
  | .num a, b, r, s, h => by
    cases b with
    | num b =>
      obtain ⟨rfl, hrs⟩ := codeNumber_inj (List.cons.inj h).2
      exact ⟨rfl, hrs⟩
    | _ => simp [Json.code] at h
  | .str a, b, r, s, h => by
    cases b with
    | str b =>
      obtain ⟨rfl, hrs⟩ := codeString_inj (List.cons.inj h).2
      exact ⟨rfl, hrs⟩
    | _ => simp [Json.code] at h
  | .arr xs, b, r, s, h => by
    cases b with
    | arr ys =>
      obtain ⟨rfl, hrs⟩ := codeItems_append_inj (List.cons.inj h).2
      exact ⟨rfl, hrs⟩
    | _ => simp [Json.code] at h
  | .obj xs, b, r, s, h => by
    cases b with
    | obj ys =>
      obtain ⟨rfl, hrs⟩ := codeMembers_append_inj (List.cons.inj h).2
      exact ⟨rfl, hrs⟩
    | _ => simp [Json.code] at h

theorem codeItems_append_inj : ∀ {xs ys : List Json} {r s : List Char},
    Json.codeItems xs ++ r = Json.codeItems ys ++ s → xs = ys ∧ r = s
  | [], ys, r, s, h => by cases ys <;> simp_all [Json.codeItems]
  | x :: xs, ys, r, s, h => by
    cases ys with
    | nil => simp [Json.codeItems] at h
    | cons y ys =>
      simp only [Json.codeItems, List.cons_append, List.append_assoc, List.cons.injEq, true_and] at h
      obtain ⟨rfl, hrest⟩ := code_append_inj h
      obtain ⟨rfl, hrs⟩ := codeItems_append_inj hrest
      exact ⟨rfl, hrs⟩

theorem codeMembers_append_inj : ∀ {xs ys : List (String × Json)} {r s : List Char},
    Json.codeMembers xs ++ r = Json.codeMembers ys ++ s → xs = ys ∧ r = s
  | [], ys, r, s, h => by cases ys <;> simp_all [Json.codeMembers]
  | (key, x) :: xs, ys, r, s, h => by
    cases ys with
    | nil => simp [Json.codeMembers] at h
    | cons y ys =>
      obtain ⟨key', y⟩ := y
      simp only [Json.codeMembers, List.cons_append, List.append_assoc, List.cons.injEq, true_and] at h
      obtain ⟨rfl, hvalue⟩ := codeString_inj h
      obtain ⟨rfl, hrest⟩ := code_append_inj hvalue
      obtain ⟨rfl, hrs⟩ := codeMembers_append_inj hrest
      exact ⟨rfl, hrs⟩

end

def Json.codeText (value : Json) : String := String.ofList value.code

theorem code_inj (a b : Json) (h : a.codeText = b.codeText) : a = b :=
  (code_append_inj (by rw [String.ofList_injective h] : a.code ++ [] = b.code ++ [])).1

/-- Every sorted value its own digest. -/
@[reducible] def Sha256.coded : Sha256 :=
  { Sha256.transparent with canonical := fun value => value.sorted.codeText }

theorem Sha256.coded_ideal : letI := Sha256.coded; Sha256.Ideal Json.codeText :=
  letI := Sha256.coded
  ⟨fun _ => rfl, code_inj⟩

end WorkforceRisk.Persistence
