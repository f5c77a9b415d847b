/-
  WorkforceRisk.Lib.Ordering — `ORDER BY` as a stable sort.

  Rows that the order leaves tied stay as the relation has them, so that a total preorder
  with ranks in it can say any order the database may give. The first rows of a sort are
  those related to all that come after them, and sorting commutes with selecting.
-/

import Mathlib.Data.List.Sort
import Mathlib.Data.Prod.Lex

namespace WorkforceRisk.Lib

section
variable {α : Type} {r : α → α → Prop} [DecidableRel r] [Std.Total r] [IsTrans α r] {l rest : List α} {a b c : α}

/-- The first of a sort is related to every item. -/
theorem sort_first (h : l.insertionSort r = a :: rest) (hc : c ∈ l) : r a c := by
  have hp := List.pairwise_insertionSort r l
  rw [h] at hp
  rw [← List.mem_insertionSort r, h] at hc
  rcases List.mem_cons.mp hc with rfl | hc
  · exact (Std.Total.total c c).elim id id
  · exact (List.pairwise_cons.mp hp).1 c hc

/-- The second is related to every item but the first. -/
theorem sort_second (h : l.insertionSort r = a :: b :: rest) (hc : c ∈ l) (hne : c ≠ a) : r b c := by
  have hp := List.pairwise_insertionSort r l
  rw [h] at hp
  rw [← List.mem_insertionSort r, h] at hc
  rcases List.mem_cons.mp ((List.mem_cons.mp hc).resolve_left hne) with rfl | hc
  · exact (Std.Total.total c c).elim id id
  · exact (List.pairwise_cons.mp (List.pairwise_cons.mp hp).2).1 c hc

omit [Std.Total r] in
theorem filter_orderedInsert (p : α → Bool) (a : α) (hl : l.Pairwise r) :
    (l.orderedInsert r a).filter p = if p a then (l.filter p).orderedInsert r a else l.filter p := by
  induction l with
  | nil => cases hp : p a <;> simp [hp]
  | cons b l ih =>
    obtain ⟨hb, hl⟩ := List.pairwise_cons.mp hl
    by_cases hab : r a b
    · rw [List.orderedInsert_cons_of_le r l hab]
      cases hp : p a with
      | false => simp [hp]
      | true =>
        rw [List.filter_cons_of_pos hp, if_pos rfl]
        -- what is kept of `b :: l` comes after `a` too
        have hall : ∀ c ∈ (b :: l).filter p, r a c := by
          intro c hc
          rcases List.mem_cons.mp (List.mem_filter.mp hc).1 with rfl | hc
          · exact hab
          · exact IsTrans.trans _ _ _ hab (hb c hc)
        cases hf : (b :: l).filter p with
        | nil => rfl
        | cons c rest =>
          rw [List.orderedInsert_cons_of_le]
          exact hall c (by rw [hf]; exact List.mem_cons_self)
    · rw [List.orderedInsert_of_not_le r l hab]
      cases hb' : p b with
      | false => rw [List.filter_cons_of_neg (by simp [hb']), List.filter_cons_of_neg (by simp [hb']), ih hl]
      | true =>
        rw [List.filter_cons_of_pos hb', List.filter_cons_of_pos hb', ih hl]
        split
        · rw [List.orderedInsert_of_not_le r _ hab]
        · rfl

/-- Sorting what is selected is selecting from what is sorted. -/
theorem filter_insertionSort (p : α → Bool) (l : List α) :
    (l.insertionSort r).filter p = (l.filter p).insertionSort r := by
  induction l with
  | nil => rfl
  | cons a l ih =>
    rw [List.insertionSort_cons, filter_orderedInsert p a (List.pairwise_insertionSort r l), ih]
    cases hp : p a with
    | true => rw [List.filter_cons_of_pos hp, List.insertionSort_cons, if_pos rfl]
    | false => rw [List.filter_cons_of_neg (by simp [hp]), if_neg Bool.false_ne_true]

omit [Std.Total r] in
/-- What is inserted comes after those it is not related to, and before the others. -/
theorem pairwise_orderedInsert_iff {R : α → α → Prop} (hl : l.Pairwise r) :
    (l.orderedInsert r a).Pairwise R ↔ (∀ b ∈ l, if r a b then R a b else R b a) ∧ l.Pairwise R := by
  induction l with
  | nil => simp
  | cons b l ih =>
    obtain ⟨hb, hl⟩ := List.pairwise_cons.mp hl
    by_cases hab : r a b
    · rw [List.orderedInsert_cons_of_le r l hab, List.pairwise_cons]
      refine and_congr_left fun _ => forall₂_congr fun c hc => ?_
      have hac : r a c := by
        rcases List.mem_cons.mp hc with rfl | hc
        · exact hab
        · exact IsTrans.trans _ _ _ hab (hb c hc)
      rw [if_pos hac]
    · rw [List.orderedInsert_of_not_le r l hab, List.pairwise_cons, List.pairwise_cons, ih hl, List.forall_mem_cons,
        if_neg hab]
      simp only [List.mem_orderedInsert, forall_eq_or_imp]
      exact ⟨fun h => ⟨⟨h.1.1, h.2.1⟩, h.1.2, h.2.2⟩, fun h => ⟨⟨h.1.1, h.2.1⟩, h.1.2, h.2.2⟩⟩

/-- What holds of a sort pair by pair, read off the pairs before they are sorted: those that
    are related keep their places, and the others change them. -/
theorem pairwise_insertionSort_iff {R : α → α → Prop} :
    (l.insertionSort r).Pairwise R ↔ l.Pairwise fun a b => if r a b then R a b else R b a := by
  induction l with
  | nil => simp
  | cons a l ih =>
    rw [List.insertionSort_cons, pairwise_orderedInsert_iff (List.pairwise_insertionSort r l), ih, List.pairwise_cons]
    simp only [List.mem_insertionSort]

/-- What is sorted by an order that leaves nothing tied tells the items, each as often as it occurs. -/
theorem insertionSort_eq_iff [Std.Antisymm r] {l l' : List α} :
    l.insertionSort r = l'.insertionSort r ↔ l.Perm l' := by
  constructor
  · intro h
    have hl := List.perm_insertionSort r l
    rw [h] at hl
    exact hl.symm.trans (List.perm_insertionSort r l')
  · intro h
    have hperm : (l.insertionSort r).Perm (l'.insertionSort r) :=
      (List.perm_insertionSort r l).trans (h.trans (List.perm_insertionSort r l').symm)
    exact hperm.eq_of_pairwise' (List.pairwise_insertionSort r l) (List.pairwise_insertionSort r l')

end

/-! ## By a key -/

section
variable {α β : Type} [LinearOrder β] {key : α → β} {l l' : List α}

/-- `sorted(l, key=key)`. -/
def sortOn (key : α → β) (l : List α) : List α := l.insertionSort fun a b => key a ≤ key b

theorem sortOn_perm (key : α → β) (l : List α) : (sortOn key l).Perm l := List.perm_insertionSort _ l

theorem sortOn_pairwise (key : α → β) (l : List α) : (sortOn key l).Pairwise fun a b => key a ≤ key b := by
  have htotal : Std.Total fun a b : α => key a ≤ key b := ⟨fun a b => le_total (key a) (key b)⟩
  have htrans : IsTrans α fun a b => key a ≤ key b := ⟨fun _ _ _ hab hbc => le_trans hab hbc⟩
  exact List.pairwise_insertionSort _ l

/-- Items that their keys tell apart are sorted alike in any order they come in. -/
theorem sortOn_eq_of_perm (h : l.Perm l') (hkey : ∀ a ∈ l, ∀ b ∈ l, key a = key b → a = b) :
    sortOn key l = sortOn key l' := by
  refine List.Perm.eq_of_pairwise ?_ (sortOn_pairwise key l) (sortOn_pairwise key l')
    ((sortOn_perm key l).trans (h.trans (sortOn_perm key l').symm))
  intro a b ha hb hab hba
  exact hkey a ((sortOn_perm key l).subset ha) b (h.symm.subset ((sortOn_perm key l').subset hb)) (le_antisymm hab hba)

/-- Of keys that begin with `not flag` those with the flag are first. -/
theorem flagged_of_le {p q : Bool} {x y : β} (h : toLex (!p, x) ≤ toLex (!q, y)) (hq : q = true) : p = true := by
  by_contra hno
  rw [Bool.not_eq_true] at hno
  rw [Prod.Lex.toLex_le_toLex, hq, hno] at h
  rcases h with h | h
  · exact absurd h (not_lt.mpr (Bool.le_true _))
  · exact Bool.noConfusion h.1

/-- And with one flag the rest of the keys is compared. -/
theorem le_of_flagged {p q : Bool} {x y : β} (h : toLex (!p, x) ≤ toLex (!q, y)) (hp : p = true) (hq : q = true) :
    x ≤ y := by
  rw [Prod.Lex.toLex_le_toLex, hp, hq] at h
  exact (h.resolve_left (lt_irrefl _)).2

/-! ## Newest first -/

/-- The answers of `ORDER BY key DESC LIMIT n`: rows of one key come in any order. -/
def IsNewest (key : α → β) (rows : List α) (n : Nat) (answer : List α) : Prop :=
  ∃ sorted : List α, sorted.Perm rows ∧ (sorted.Pairwise fun a b => key b ≤ key a) ∧ answer = sorted.take n

variable {rows answer : List α} {n : Nat}

theorem IsNewest.perm (h : IsNewest key rows n answer) (hn : rows.length ≤ n) : answer.Perm rows := by
  obtain ⟨sorted, hperm, _, rfl⟩ := h
  rwa [List.take_of_length_le (hperm.length_eq.trans_le hn)]

/-- What is selected of an answer is in order, the oldest last. -/
theorem IsNewest.oldest_last (h : IsNewest key rows n answer) (p : α → Bool) :
    (answer.filter p).reverse.Pairwise fun a b => key a ≤ key b := by
  obtain ⟨sorted, _, hsorted, rfl⟩ := h
  rw [List.pairwise_reverse]
  exact (hsorted.sublist (List.take_sublist n sorted)).filter p

/-- Rows that are selected in the order of distinct keys have one answer. -/
theorem IsNewest.selected (h : IsNewest key rows n answer) (hn : rows.length ≤ n) {p : α → Bool}
    (hp : (rows.filter p).Pairwise fun a b => key a < key b) : (answer.filter p).reverse = rows.filter p := by
  have hperm : (answer.filter p).reverse.Perm (rows.filter p) := (List.reverse_perm _).trans ((h.perm hn).filter p)
  have hkeys : ∀ a ∈ rows.filter p, ∀ b ∈ rows.filter p, key a = key b → a = b := fun a ha b hb =>
    List.Pairwise.forall_of_forall_of_flip (R := fun a b => key a = key b → a = b) (fun _ _ _ => rfl)
      (hp.imp fun hlt heq => absurd heq (ne_of_lt hlt)) (hp.imp fun hlt heq => absurd heq.symm (ne_of_lt hlt)) ha hb
  exact List.Perm.eq_of_pairwise (fun a b ha hb hab hba => hkeys a (hperm.subset ha) b hb (le_antisymm hab hba))
    (h.oldest_last p) (hp.imp le_of_lt) hperm

end

end WorkforceRisk.Lib
