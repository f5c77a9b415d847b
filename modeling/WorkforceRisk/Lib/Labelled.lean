/-
  WorkforceRisk.Lib.Labelled — numbered items with labels, and search before write.

  An item is added under a new number, or found by a label and labelled anew. `Put` is the
  write of the item a label stands for: of one that bears it, or, if none does, of a new
  one. `Exclusive L` says of the labels `L` that each is on one item at most and no item has
  two. A `Put` whose labels have of `L` only the one searched for keeps it (`Put.exclusive`)
  and changes the items of no other label (`Put.bears_iff`, `Put.keeps_item`); one whose
  label is on an item already adds none (`Put.numbers_eq`). `Puts` is one after another:
  in the end every label is on an item, with what was written for it (`Puts.bears_all`,
  `Puts.item_all`). Items may be taken away (`without`), which keeps what is exclusive
  (`Exclusive.without`).
-/

import Mathlib.Data.List.Nodup
import Mathlib.Data.List.Perm.Subperm
import Mathlib.Tactic.Choose

namespace WorkforceRisk.Lib

structure Labelled (ℓ : Type) where
  items : List (Nat × List ℓ)
  next : Nat
  below : ∀ item ∈ items, item.1 < next
  distinct : (items.map Prod.fst).Nodup

namespace Labelled

variable {ℓ : Type}

def empty : Labelled ℓ := ⟨[], 0, fun _ h => absurd h List.not_mem_nil, .nil⟩

def numbers (s : Labelled ℓ) : List Nat := s.items.map Prod.fst

theorem next_notMem (s : Labelled ℓ) : s.next ∉ s.numbers := by
  intro h
  obtain ⟨item, hitem, heq⟩ := List.mem_map.mp h
  exact Nat.lt_irrefl _ (heq ▸ s.below item hitem)

theorem add_distinct (s : Labelled ℓ) (labels : List ℓ) : ((s.items ++ [(s.next, labels)]).map Prod.fst).Nodup := by
  rw [List.map_append]
  exact s.distinct.append (List.nodup_singleton _) (List.disjoint_singleton.mpr s.next_notMem)

def add (s : Labelled ℓ) (labels : List ℓ) : Labelled ℓ where
  items := s.items ++ [(s.next, labels)]
  next := s.next + 1
  below item hitem := by
    rcases List.mem_append.mp hitem with hitem | hitem
    · exact Nat.lt_succ_of_lt (s.below item hitem)
    · rw [List.mem_singleton.mp hitem]
      exact Nat.lt_succ_self _
  distinct := s.add_distinct labels

def relabelItem (n : Nat) (labels : List ℓ) (item : Nat × List ℓ) : Nat × List ℓ :=
  (item.1, if item.1 = n then labels else item.2)

theorem map_relabelItem (n : Nat) (labels : List ℓ) (items : List (Nat × List ℓ)) :
    (items.map (relabelItem n labels)).map Prod.fst = items.map Prod.fst := by
  rw [List.map_map]
  rfl

def relabel (s : Labelled ℓ) (n : Nat) (labels : List ℓ) : Labelled ℓ where
  items := s.items.map (relabelItem n labels)
  next := s.next
  below item hitem := by
    obtain ⟨old, hold, rfl⟩ := List.mem_map.mp hitem
    exact s.below old hold
  distinct := by
    rw [map_relabelItem]
    exact s.distinct

@[simp] theorem numbers_add (s : Labelled ℓ) (labels : List ℓ) : (s.add labels).numbers = s.numbers ++ [s.next] :=
  List.map_append

@[simp] theorem numbers_relabel (s : Labelled ℓ) (n : Nat) (labels : List ℓ) : (s.relabel n labels).numbers = s.numbers :=
  map_relabelItem n labels s.items

/-- Without the items of some numbers. -/
def without (s : Labelled ℓ) (gone : Nat → Bool) : Labelled ℓ where
  items := s.items.filter fun item => !gone item.1
  next := s.next
  below item hitem := s.below item (List.mem_filter.mp hitem).1
  distinct := s.distinct.sublist (List.filter_sublist.map _)

theorem mem_without {s : Labelled ℓ} {gone : Nat → Bool} {item : Nat × List ℓ} :
    item ∈ (s.without gone).items ↔ item ∈ s.items ∧ gone item.1 = false := by
  simp [without]

theorem mem_numbers_without {s : Labelled ℓ} {gone : Nat → Bool} {n : Nat} :
    n ∈ (s.without gone).numbers ↔ n ∈ s.numbers ∧ gone n = false := by
  unfold numbers
  constructor
  · intro h
    obtain ⟨item, hitem, rfl⟩ := List.mem_map.mp h
    exact ⟨List.mem_map_of_mem (mem_without.mp hitem).1, (mem_without.mp hitem).2⟩
  · rintro ⟨h, hgone⟩
    obtain ⟨item, hitem, rfl⟩ := List.mem_map.mp h
    exact List.mem_map_of_mem (mem_without.mpr ⟨hitem, hgone⟩)

theorem without_without (s : Labelled ℓ) (gone more : Nat → Bool) :
    (s.without gone).without more = s.without fun n => gone n || more n := by
  unfold without
  congr 1
  rw [List.filter_filter]
  exact List.filter_congr fun item _ => by rw [Bool.not_or, Bool.and_comm]

/-- The items a label is on. -/
def Bears (s : Labelled ℓ) (l : ℓ) (n : Nat) : Prop := ∃ labels, (n, labels) ∈ s.items ∧ l ∈ labels

def search [DecidableEq ℓ] (s : Labelled ℓ) (l : ℓ) : List (Nat × List ℓ) := s.items.filter fun item => decide (l ∈ item.2)

theorem mem_search [DecidableEq ℓ] {s : Labelled ℓ} {l : ℓ} {item : Nat × List ℓ} :
    item ∈ s.search l ↔ item ∈ s.items ∧ l ∈ item.2 := by
  simp [search]

theorem search_nil_iff [DecidableEq ℓ] {s : Labelled ℓ} {l : ℓ} : s.search l = [] ↔ ∀ n, ¬ s.Bears l n := by
  rw [List.eq_nil_iff_forall_not_mem]
  constructor
  · rintro h n ⟨labels, hitem, hl⟩
    exact h (n, labels) (mem_search.mpr ⟨hitem, hl⟩)
  · intro h item hitem
    obtain ⟨hitem, hl⟩ := mem_search.mp hitem
    exact h item.1 ⟨item.2, hitem, hl⟩

/-- A number has one list of labels. -/
theorem labels_unique {s : Labelled ℓ} {n : Nat} {labels labels' : List ℓ} (h : (n, labels) ∈ s.items)
    (h' : (n, labels') ∈ s.items) : labels = labels' :=
  (Prod.mk.inj (List.inj_on_of_nodup_map s.distinct h h' rfl)).2

theorem mem_numbers_of_bears {s : Labelled ℓ} {l : ℓ} {n : Nat} (h : s.Bears l n) : n ∈ s.numbers := by
  obtain ⟨labels, hitem, -⟩ := h
  exact List.mem_map.mpr ⟨_, hitem, rfl⟩

theorem bears_add {s : Labelled ℓ} {labels : List ℓ} {l : ℓ} {n : Nat} :
    (s.add labels).Bears l n ↔ s.Bears l n ∨ n = s.next ∧ l ∈ labels := by
  constructor
  · rintro ⟨labels', hitem, hl⟩
    rcases List.mem_append.mp hitem with hitem | hitem
    · exact .inl ⟨labels', hitem, hl⟩
    · obtain ⟨rfl, rfl⟩ := Prod.mk.inj (List.mem_singleton.mp hitem)
      exact .inr ⟨rfl, hl⟩
  · rintro (⟨labels', hitem, hl⟩ | ⟨rfl, hl⟩)
    · exact ⟨labels', List.mem_append_left _ hitem, hl⟩
    · exact ⟨labels, List.mem_append_right _ (List.mem_singleton.mpr rfl), hl⟩

theorem mem_relabel {s : Labelled ℓ} {n m : Nat} {labels labels' : List ℓ} : (m, labels') ∈ (s.relabel n labels).items ↔
    if m = n then labels' = labels ∧ n ∈ s.numbers else (m, labels') ∈ s.items := by
  constructor
  · intro h
    obtain ⟨⟨k, old⟩, hitem, heq⟩ := List.mem_map.mp h
    obtain ⟨rfl, rfl⟩ := Prod.mk.inj heq
    by_cases hk : k = n
    · rw [if_pos hk]
      exact ⟨if_pos hk, List.mem_map.mpr ⟨_, hitem, hk⟩⟩
    · rw [if_neg hk]
      simpa only [if_neg hk] using hitem
  · intro h
    by_cases hm : m = n
    · rw [if_pos hm] at h
      obtain ⟨item, hitem, heq⟩ := List.mem_map.mp h.2
      refine List.mem_map.mpr ⟨item, hitem, ?_⟩
      rw [relabelItem, if_pos heq, heq, hm, h.1]
    · rw [if_neg hm] at h
      refine List.mem_map.mpr ⟨_, h, ?_⟩
      rw [relabelItem, if_neg hm]

theorem bears_relabel {s : Labelled ℓ} {n m : Nat} {labels : List ℓ} {l : ℓ} : (s.relabel n labels).Bears l m ↔
    if m = n then l ∈ labels ∧ n ∈ s.numbers else s.Bears l m := by
  unfold Bears
  simp only [mem_relabel]
  by_cases hm : m = n
  · simp only [if_pos hm]
    exact ⟨fun ⟨_, ⟨heq, hn⟩, hl⟩ => ⟨heq ▸ hl, hn⟩, fun ⟨hl, hn⟩ => ⟨labels, ⟨rfl, hn⟩, hl⟩⟩
  · simp only [if_neg hm]

/-! ## Search before write -/

/-- The item that a label stands for is written, and has this number. -/
inductive Put (l : ℓ) (labels : List ℓ) (s : Labelled ℓ) : Labelled ℓ → Nat → Prop
  | added (h : ∀ n, ¬ s.Bears l n) : Put l labels s (s.add labels) s.next
  | relabelled {n : Nat} (h : s.Bears l n) : Put l labels s (s.relabel n labels) n

/-- Each of these labels is on one item at most, and no item has two. -/
structure Exclusive (L : ℓ → Prop) (s : Labelled ℓ) : Prop where
  once : ∀ l m n, L l → s.Bears l m → s.Bears l n → m = n
  apart : ∀ l l' n, L l → L l' → s.Bears l n → s.Bears l' n → l = l'

theorem bears_without {s : Labelled ℓ} {gone : Nat → Bool} {l : ℓ} {n : Nat} :
    (s.without gone).Bears l n ↔ s.Bears l n ∧ gone n = false := by
  constructor
  · rintro ⟨labels, hitem, hl⟩
    obtain ⟨hitem, hgone⟩ := mem_without.mp hitem
    exact ⟨⟨labels, hitem, hl⟩, hgone⟩
  · rintro ⟨⟨labels, hitem, hl⟩, hgone⟩
    exact ⟨labels, mem_without.mpr ⟨hitem, hgone⟩, hl⟩

theorem Exclusive.without {L : ℓ → Prop} {s : Labelled ℓ} (h : s.Exclusive L) (gone : Nat → Bool) :
    (s.without gone).Exclusive L where
  once l m n hl hm hn := h.once l m n hl (bears_without.mp hm).1 (bears_without.mp hn).1
  apart l l' n hl hl' hn hn' := h.apart l l' n hl hl' (bears_without.mp hn).1 (bears_without.mp hn').1

namespace Put

variable {L : ℓ → Prop} {l : ℓ} {labels : List ℓ} {s s' : Labelled ℓ} {n : Nat}

theorem item_mem (h : Put l labels s s' n) : (n, labels) ∈ s'.items := by
  cases h with
  | added h => exact List.mem_append_right _ (List.mem_singleton.mpr rfl)
  | relabelled h => exact mem_relabel.mpr (by rw [if_pos rfl]; exact ⟨rfl, mem_numbers_of_bears h⟩)

theorem old_or_new (h : Put l labels s s' n) : s.Bears l n ∨ n = s.next := by
  cases h with
  | added h => exact .inr rfl
  | relabelled h => exact .inl h

/-- A label that is on an item already adds none. -/
theorem numbers_eq (h : Put l labels s s' n) {m : Nat} (hm : s.Bears l m) : s'.numbers = s.numbers := by
  cases h with
  | added h => exact absurd hm (h m)
  | relabelled h => exact numbers_relabel s n labels

variable (hlabels : ∀ l', L l' → (l' ∈ labels ↔ l' = l)) (hl : L l)
include hlabels hl

theorem bears_self (h : Put l labels s s' n) (hs : s.Exclusive L) (m : Nat) : s'.Bears l m ↔ m = n := by
  have hmem : l ∈ labels := (hlabels l hl).mpr rfl
  cases h with
  | added hnone =>
    rw [bears_add]
    exact ⟨fun h => h.elim (fun h => absurd h (hnone m)) And.left, fun h => .inr ⟨h, hmem⟩⟩
  | relabelled hbears =>
    rw [bears_relabel]
    by_cases hm : m = n
    · rw [if_pos hm]
      exact ⟨fun _ => hm, fun _ => ⟨hmem, mem_numbers_of_bears hbears⟩⟩
    · rw [if_neg hm]
      exact ⟨fun h => hs.once l m n hl h hbears, fun h => absurd h hm⟩

/-- The other labels stay where they are. -/
theorem bears_iff (h : Put l labels s s' n) (hs : s.Exclusive L) {l' : ℓ} (hl' : L l') (hne : l' ≠ l) (m : Nat) :
    s'.Bears l' m ↔ s.Bears l' m := by
  have hmem : l' ∉ labels := fun h => hne ((hlabels l' hl').mp h)
  cases h with
  | added hnone => simp only [bears_add, hmem, and_false, or_false]
  | relabelled hbears =>
    rw [bears_relabel]
    by_cases hm : m = n
    · simp only [if_pos hm, hmem, false_and, false_iff]
      exact fun h => hne (hs.apart l' l n hl' hl (hm ▸ h) hbears)
    · rw [if_neg hm]

theorem exclusive (h : Put l labels s s' n) (hs : s.Exclusive L) : s'.Exclusive L := by
  constructor
  · intro l' m k hl' hm hk
    by_cases hne : l' = l
    · rw [hne, h.bears_self hlabels hl hs] at hm hk
      rw [hm, hk]
    · rw [h.bears_iff hlabels hl hs hl' hne] at hm hk
      exact hs.once l' m k hl' hm hk
  · intro l₁ l₂ m h₁ h₂ hm₁ hm₂
    by_cases hm : m = n
    · -- The item that is written has the one label.
      obtain ⟨labels₁, hitem₁, hmem₁⟩ := hm₁
      obtain ⟨labels₂, hitem₂, hmem₂⟩ := hm₂
      rw [hm] at hitem₁ hitem₂
      rw [labels_unique hitem₁ h.item_mem, hlabels l₁ h₁] at hmem₁
      rw [labels_unique hitem₂ h.item_mem, hlabels l₂ h₂] at hmem₂
      rw [hmem₁, hmem₂]
    · have hother : ∀ {l'}, L l' → s'.Bears l' m → l' ≠ l := fun _ hb heq =>
        hm ((h.bears_self hlabels hl hs m).mp (heq ▸ hb))
      exact hs.apart l₁ l₂ m h₁ h₂ ((h.bears_iff hlabels hl hs h₁ (hother h₁ hm₁) m).mp hm₁)
        ((h.bears_iff hlabels hl hs h₂ (hother h₂ hm₂) m).mp hm₂)

omit hlabels in
/-- An item of another label stays as it is. -/
theorem keeps_item (h : Put l labels s s' n) (hs : s.Exclusive L) {l' : ℓ} (hl' : L l') (hne : l' ≠ l) {m : Nat}
    {labels' : List ℓ} (hitem : (m, labels') ∈ s.items) (hmem : l' ∈ labels') : (m, labels') ∈ s'.items := by
  cases h with
  | added hnone => exact List.mem_append_left _ hitem
  | relabelled hbears =>
    have hm : m ≠ n := fun heq => hne (hs.apart l' l m hl' hl ⟨labels', hitem, hmem⟩ (heq ▸ hbears))
    exact mem_relabel.mpr (by rw [if_neg hm]; exact hitem)

/-- An item of one of the labels keeps it. -/
theorem bears_mono (h : Put l labels s s' n) (hs : s.Exclusive L) {l' : ℓ} (hl' : L l') {m : Nat}
    (hm : s.Bears l' m) : s'.Bears l' m := by
  by_cases hne : l' = l
  · rw [hne] at hm ⊢
    refine (h.bears_self hlabels hl hs m).mpr ?_
    cases h with
    | added hnone => exact absurd hm (hnone m)
    | relabelled hbears => exact hs.once l m n hl hm hbears
  · exact (h.bears_iff hlabels hl hs hl' hne m).mpr hm

end Put

/-- Several items written, each for its label. -/
inductive Puts : List (ℓ × List ℓ) → Labelled ℓ → Labelled ℓ → Prop
  | nil (s : Labelled ℓ) : Puts [] s s
  | cons {l : ℓ} {labels : List ℓ} {entries : List (ℓ × List ℓ)} {s s' s'' : Labelled ℓ} {n : Nat}
      (first : Put l labels s s' n) (rest : Puts entries s' s'') : Puts ((l, labels) :: entries) s s''

/-- What is written for one of the labels `L` has no other of them. -/
def OneOf (L : ℓ → Prop) (entries : List (ℓ × List ℓ)) : Prop :=
  ∀ entry ∈ entries, L entry.1 ∧ ∀ l, L l → (l ∈ entry.2 ↔ l = entry.1)

theorem puts_append {entries more : List (ℓ × List ℓ)} {s s'' : Labelled ℓ} :
    Puts (entries ++ more) s s'' ↔ ∃ s', Puts entries s s' ∧ Puts more s' s'' := by
  constructor
  · intro h
    induction entries generalizing s with
    | nil => exact ⟨s, .nil s, h⟩
    | cons entry entries ih =>
      cases h with
      | cons first rest =>
        obtain ⟨s', hentries, hmore⟩ := ih rest
        exact ⟨s', .cons first hentries, hmore⟩
  · rintro ⟨s', hentries, hmore⟩
    induction hentries with
    | nil s => exact hmore
    | cons first _ ih => exact .cons first (ih hmore)

namespace Puts

variable {L : ℓ → Prop} {entries : List (ℓ × List ℓ)} {s s' : Labelled ℓ}

theorem exclusive (h : Puts entries s s') (hone : OneOf L entries) (hs : s.Exclusive L) : s'.Exclusive L := by
  induction h with
  | nil s => exact hs
  | cons first _ ih =>
    obtain ⟨hl, hlabels⟩ := hone _ List.mem_cons_self
    exact ih (fun entry hentry => hone entry (List.mem_cons_of_mem _ hentry)) (first.exclusive hlabels hl hs)

theorem bears_mono (h : Puts entries s s') (hone : OneOf L entries) (hs : s.Exclusive L) {l : ℓ} (hl : L l) {m : Nat}
    (hm : s.Bears l m) : s'.Bears l m := by
  induction h with
  | nil s => exact hm
  | cons first _ ih =>
    obtain ⟨hl', hlabels⟩ := hone _ List.mem_cons_self
    exact ih (fun entry hentry => hone entry (List.mem_cons_of_mem _ hentry)) (first.exclusive hlabels hl' hs)
      (first.bears_mono hlabels hl' hs hl hm)

/-- Every label is on an item in the end. -/
theorem bears_all (h : Puts entries s s') (hone : OneOf L entries) (hs : s.Exclusive L) :
    ∀ entry ∈ entries, ∃ n, s'.Bears entry.1 n := by
  induction h with
  | nil s => intro entry hentry; cases hentry
  | @cons l labels rest s₁ s₂ s₃ n first others ih =>
    obtain ⟨hl, hlabels⟩ := hone _ List.mem_cons_self
    have hrest : OneOf L rest := fun entry hentry => hone entry (List.mem_cons_of_mem _ hentry)
    intro entry hentry
    rcases List.mem_cons.mp hentry with rfl | hentry
    · have hbears : s₂.Bears l n := (first.bears_self hlabels hl hs n).mpr rfl
      exact ⟨n, others.bears_mono hrest (first.exclusive hlabels hl hs) hl hbears⟩
    · exact ih hrest (first.exclusive hlabels hl hs) entry hentry

/-- An item of a label that is not among them stays as it is. -/
theorem keeps_item (h : Puts entries s s') (hone : OneOf L entries) (hs : s.Exclusive L) {l : ℓ} (hl : L l)
    (hnot : l ∉ entries.map Prod.fst) {m : Nat} {labels : List ℓ} (hitem : (m, labels) ∈ s.items) (hmem : l ∈ labels) :
    (m, labels) ∈ s'.items := by
  induction h with
  | nil s => exact hitem
  | cons first _ ih =>
    obtain ⟨hl', hlabels⟩ := hone _ List.mem_cons_self
    rw [List.map_cons, List.mem_cons, not_or] at hnot
    exact ih (fun entry hentry => hone entry (List.mem_cons_of_mem _ hentry)) (first.exclusive hlabels hl' hs) hnot.2
      (first.keeps_item hl' hs hl hnot.1 hitem hmem)

/-- And each of them has what was written for it last; here for labels written once. -/
theorem item_all (h : Puts entries s s') (hone : OneOf L entries) (hs : s.Exclusive L)
    (hnodup : (entries.map Prod.fst).Nodup) : ∀ entry ∈ entries, ∃ n, (n, entry.2) ∈ s'.items := by
  induction h with
  | nil s => intro entry hentry; cases hentry
  | @cons l labels rest s₁ s₂ s₃ n first others ih =>
    obtain ⟨hl, hlabels⟩ := hone _ List.mem_cons_self
    obtain ⟨hnew, hnodup⟩ := List.nodup_cons.mp hnodup
    have hrest : OneOf L rest := fun entry hentry => hone entry (List.mem_cons_of_mem _ hentry)
    intro entry hentry
    rcases List.mem_cons.mp hentry with rfl | hentry
    · exact ⟨n, others.keeps_item hrest (first.exclusive hlabels hl hs) hl hnew first.item_mem
        ((hlabels l hl).mpr rfl)⟩
    · exact ih hrest (first.exclusive hlabels hl hs) hnodup entry hentry

/-- Where every label is on an item already, none is added. -/
theorem numbers_eq (h : Puts entries s s') (hone : OneOf L entries) (hs : s.Exclusive L)
    (hborne : ∀ entry ∈ entries, ∃ m, s.Bears entry.1 m) : s'.numbers = s.numbers := by
  induction h with
  | nil s => rfl
  | cons first _ ih =>
    obtain ⟨hl, hlabels⟩ := hone _ List.mem_cons_self
    obtain ⟨m, hm⟩ := hborne _ List.mem_cons_self
    rw [← first.numbers_eq hm]
    refine ih (fun entry hentry => hone entry (List.mem_cons_of_mem _ hentry)) (first.exclusive hlabels hl hs) ?_
    intro entry hentry
    obtain ⟨k, hk⟩ := hborne entry (List.mem_cons_of_mem _ hentry)
    exact ⟨k, first.bears_mono hlabels hl hs (hone entry (List.mem_cons_of_mem _ hentry)).1 hk⟩

/-- Nothing else is written. -/
theorem item_cases (h : Puts entries s s') {item : Nat × List ℓ} (hitem : item ∈ s'.items) :
    item ∈ s.items ∨ ∃ entry ∈ entries, entry.2 = item.2 := by
  induction h with
  | nil s => exact .inl hitem
  | @cons l written rest s₁ s₂ s₃ n first _ ih =>
    rcases ih hitem with hmid | ⟨entry, hentry, heq⟩
    · cases first with
      | added _ =>
        rcases List.mem_append.mp hmid with hold | hnew
        · exact .inl hold
        · exact .inr ⟨_, List.mem_cons_self, (Prod.mk.inj (List.mem_singleton.mp hnew)).2.symm⟩
      | relabelled _ =>
        rw [mem_relabel] at hmid
        split at hmid
        · exact .inr ⟨_, List.mem_cons_self, hmid.1.symm⟩
        · exact .inl hmid
    · exact .inr ⟨entry, List.mem_cons_of_mem _ hentry, heq⟩

end Puts

/-! ## Counting -/

section
variable {p : List ℓ → Bool}

/-- The items with such labels. -/
def count (s : Labelled ℓ) (p : List ℓ → Bool) : Nat := s.items.countP fun item => p item.2

theorem count_add {s : Labelled ℓ} {labels : List ℓ} (h : p labels = true) :
    (s.add labels).count p = s.count p + 1 := by
  unfold count add
  rw [List.countP_append, List.countP_singleton, if_pos h]

theorem count_relabel {s : Labelled ℓ} {n : Nat} {labels : List ℓ} {l : ℓ} (h : p labels = true)
    (hp : ∀ labels', l ∈ labels' → p labels' = true) (hbears : s.Bears l n) :
    (s.relabel n labels).count p = s.count p := by
  obtain ⟨old, hitem, hmem⟩ := hbears
  unfold count relabel
  rw [List.countP_map]
  refine List.countP_congr fun item hin => ?_
  simp only [Function.comp, relabelItem]
  split
  · rename_i heq
    have hold : item.2 = old := labels_unique (by rw [← heq]; exact hin) hitem
    rw [hold, h, hp old hmem]
  · rfl

/-- Each write adds at most one; where every write adds one, nothing written is overwritten. -/
theorem Puts.count_le {entries : List (ℓ × List ℓ)} {s s' : Labelled ℓ} (h : Puts entries s s')
    (hp : ∀ entry ∈ entries, p entry.2 = true ∧ ∀ labels, entry.1 ∈ labels → p labels = true) :
    s'.count p ≤ s.count p + entries.length ∧ (s'.count p = s.count p + entries.length →
      s.items ⊆ s'.items ∧ ∀ entry ∈ entries, ∃ n, (n, entry.2) ∈ s'.items) := by
  induction h with
  | nil s => exact ⟨Nat.le_refl _, fun _ => ⟨List.Subset.refl _, fun _ h => by cases h⟩⟩
  | @cons l labels rest s₁ s₂ s₃ n first others ih =>
    obtain ⟨hlabels, hl⟩ := hp _ List.mem_cons_self
    obtain ⟨hle, hall⟩ := ih fun entry hentry => hp entry (List.mem_cons_of_mem _ hentry)
    rw [List.length_cons]
    cases first with
    | added hnone =>
      rw [count_add hlabels] at hle hall
      refine ⟨by omega, fun heq => ?_⟩
      obtain ⟨hkept, hwritten⟩ := hall (by omega)
      refine ⟨fun item hitem => hkept (List.mem_append_left _ hitem), fun entry hentry => ?_⟩
      rcases List.mem_cons.mp hentry with rfl | hentry
      · exact ⟨s₁.next, hkept (List.mem_append_right _ (List.mem_singleton.mpr rfl))⟩
      · exact hwritten entry hentry
    | relabelled hbears =>
      rw [count_relabel hlabels hl hbears] at hle
      exact ⟨by omega, fun heq => by omega⟩

/-- Labels that are on an item each, no item with two, are no more than the items. -/
theorem length_le_count {labels : List ℓ} {s : Labelled ℓ} (hnodup : labels.Nodup)
    (hborne : ∀ l ∈ labels, ∃ n, s.Bears l n)
    (hapart : ∀ l ∈ labels, ∀ l' ∈ labels, ∀ n, s.Bears l n → s.Bears l' n → l = l')
    (hp : ∀ l ∈ labels, ∀ labels', l ∈ labels' → p labels' = true) : labels.length ≤ s.count p := by
  have hitems : ∀ l ∈ labels, ∃ item : Nat × List ℓ, item ∈ s.items ∧ l ∈ item.2 := by
    intro l hl
    obtain ⟨n, labels', hitem, hmem⟩ := hborne l hl
    exact ⟨(n, labels'), hitem, hmem⟩
  choose! item hitem using hitems
  have hinj : (labels.map item).Nodup := by
    refine List.Nodup.map_on (fun l hl l' hl' heq => ?_) hnodup
    refine hapart l hl l' hl' (item l).1 ⟨(item l).2, (hitem l hl).1, (hitem l hl).2⟩ ?_
    rw [heq]
    exact ⟨(item l').2, (hitem l' hl').1, (hitem l' hl').2⟩
  have hsubset : labels.map item ⊆ s.items.filter fun item => p item.2 := by
    intro found hfound
    obtain ⟨l, hl, rfl⟩ := List.mem_map.mp hfound
    exact List.mem_filter.mpr ⟨(hitem l hl).1, hp l hl _ (hitem l hl).2⟩
  have hlength := (hinj.subperm hsubset).length_le
  rw [List.length_map, ← List.countP_eq_length_filter] at hlength
  exact hlength

end

end Labelled

end WorkforceRisk.Lib
