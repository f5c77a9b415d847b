/-
  WorkforceRisk.Lib.Windows — half-open windows of a linear order, each item with its start
  and its finish.

  Two windows are apart when one finishes before the other starts. Looking at neighbours
  only, in the order of the starts, tells whether all are apart (`clear_iff`), since a
  window that is not empty carries the gap before it to the next one. Of windows that are
  apart at most one has a given time in it, whatever their order.
-/

import Mathlib.Data.List.Sort

namespace WorkforceRisk.Lib

section
variable {ω τ : Type} [LinearOrder τ] (start finish : ω → τ)

def Apart (a b : ω) : Prop := finish a ≤ start b ∨ finish b ≤ start a

/-- Each item starts no earlier than the one before it finishes. -/
def follows : List ω → Bool
  | a :: b :: l => decide (finish a ≤ start b) && follows (b :: l)
  | _ => true

/-- The windows in the order of their starts, each compared with the next. -/
def clear (l : List ω) : Bool := follows start finish (l.insertionSort fun a b => start a ≤ start b)

variable {start finish} {l : List ω}

theorem Apart.symm {a b : ω} (h : Apart start finish a b) : Apart start finish b a := Or.symm h

/-- What follows the first of a list follows all of it. -/
theorem follows_cons {a : ω} (h : follows start finish (a :: l) = true) (hl : ∀ b ∈ l, start b < finish b) :
    follows start finish l = true ∧ ∀ b ∈ l, finish a ≤ start b := by
  induction l generalizing a with
  | nil => exact ⟨rfl, fun b hb => (by cases hb)⟩
  | cons b l ih =>
    simp only [follows, Bool.and_eq_true, decide_eq_true_eq] at h
    obtain ⟨hab, hrest⟩ := h
    refine ⟨hrest, fun c hc => ?_⟩
    rcases List.mem_cons.mp hc with rfl | hc
    · exact hab
    · have hproper := hl b List.mem_cons_self
      have hbc := (ih hrest fun d hd => hl d (List.mem_cons_of_mem _ hd)).2 c hc
      exact le_trans (le_trans hab (le_of_lt hproper)) hbc

/-- In the order of the starts, windows are apart when each follows the one before. -/
theorem follows_iff (hl : ∀ a ∈ l, start a < finish a) (hs : l.Pairwise fun a b => start a ≤ start b) :
    follows start finish l = true ↔ l.Pairwise (Apart start finish) := by
  induction l with
  | nil => exact ⟨fun _ => .nil, fun _ => rfl⟩
  | cons a l ih =>
    have htail : ∀ b ∈ l, start b < finish b := fun b hb => hl b (List.mem_cons_of_mem _ hb)
    obtain ⟨ha, hs⟩ := List.pairwise_cons.mp hs
    constructor
    · intro h
      obtain ⟨hrest, hfirst⟩ := follows_cons h htail
      exact List.pairwise_cons.mpr ⟨fun b hb => .inl (hfirst b hb), (ih htail hs).mp hrest⟩
    · intro h
      obtain ⟨hfirst, hrest⟩ := List.pairwise_cons.mp h
      cases l with
      | nil => rfl
      | cons b l =>
        have hb := htail b List.mem_cons_self
        have hab := ha b List.mem_cons_self
        -- `b` starts after `a`, so it cannot finish before `a` starts
        have hab' : finish a ≤ start b := by
          rcases hfirst b List.mem_cons_self with h | h
          · exact h
          · exact absurd (lt_of_lt_of_le hb h) (not_lt.mpr hab)
        simp only [follows, Bool.and_eq_true, decide_eq_true_eq]
        exact ⟨hab', (ih htail hs).mpr hrest⟩

theorem clear_iff (hl : ∀ a ∈ l, start a < finish a) :
    clear start finish l = true ↔ l.Pairwise (Apart start finish) := by
  have hperm := List.perm_insertionSort (fun a b => start a ≤ start b) l
  have : Std.Total fun a b : ω => start a ≤ start b := ⟨fun a b => le_total _ _⟩
  have : IsTrans ω fun a b => start a ≤ start b := ⟨fun a b c => le_trans⟩
  unfold clear
  rw [follows_iff (fun a ha => hl a (hperm.mem_iff.mp ha)) (List.pairwise_insertionSort _ l)]
  exact hperm.pairwise_iff fun h => h.symm

/-! ## The time in a window -/

variable (start finish) in
/-- The time is in the window, whose finish is not. -/
def within (t : τ) (a : ω) : Bool := decide (start a ≤ t ∧ t < finish a)

theorem within_iff {t : τ} {a : ω} : within start finish t a = true ↔ start a ≤ t ∧ t < finish a := decide_eq_true_iff

/-- Windows that are not empty are apart when no time is in both. -/
theorem apart_iff {a b : ω} (ha : start a < finish a) (hb : start b < finish b) :
    Apart start finish a b ↔ ∀ t, ¬ (within start finish t a = true ∧ within start finish t b = true) := by
  constructor
  · intro h t ht
    obtain ⟨hta, htb⟩ := ht
    rw [within_iff] at hta htb
    rcases h with h | h
    · exact absurd (lt_of_lt_of_le hta.2 h) (not_lt.mpr htb.1)
    · exact absurd (lt_of_lt_of_le htb.2 h) (not_lt.mpr hta.1)
  · intro h
    by_contra hno
    obtain ⟨hab, hba⟩ := not_or.mp hno
    -- the later of the two starts is in both
    refine h (max (start a) (start b)) ⟨?_, ?_⟩
    · rw [within_iff]
      exact ⟨le_max_left _ _, max_lt ha (not_le.mp hab)⟩
    · rw [within_iff]
      exact ⟨le_max_right _ _, max_lt (not_le.mp hba) hb⟩

theorem countP_within_le (hl : ∀ a ∈ l, start a < finish a) (h : l.Pairwise (Apart start finish)) (t : τ) :
    l.countP (within start finish t) ≤ 1 := by
  induction l with
  | nil => simp
  | cons a l ih =>
    obtain ⟨ha, hrest⟩ := List.pairwise_cons.mp h
    obtain ⟨hproper, hpropers⟩ := List.forall_mem_cons.mp hl
    rw [List.countP_cons]
    cases hw : within start finish t a with
    | false => simpa using ih hpropers hrest
    | true =>
      have hnone : l.countP (within start finish t) = 0 := by
        rw [List.countP_eq_zero]
        intro b hb hwb
        exact (apart_iff hproper (hpropers b hb)).mp (ha b hb) t ⟨hw, hwb⟩
      simp [hnone]

end

/-- Where at most one item has the property, it is found in any order. -/
theorem find?_perm {α : Type} {p : α → Bool} {l l' : List α} (hp : l.Perm l') (h : l.countP p ≤ 1) :
    l.find? p = l'.find? p := by
  have hfilter := hp.filter p
  rw [← List.head?_filter, ← List.head?_filter]
  rw [List.countP_eq_length_filter] at h
  cases hl : l.filter p with
  | nil => rw [hl] at hfilter; rw [List.nil_perm.mp hfilter]
  | cons a rest =>
    rw [hl, List.length_cons] at h
    obtain rfl : rest = [] := List.length_eq_zero_iff.mp (by omega)
    rw [hl] at hfilter
    rw [List.singleton_perm.mp hfilter]

/-- With distinct keys at most one item has a key. -/
theorem countP_key_le {α κ : Type} [BEq κ] [LawfulBEq κ] {key : α → κ} {l : List α} (h : (l.map key).Nodup) (k : κ) :
    l.countP (key · == k) ≤ 1 := by
  calc l.countP (key · == k) = (l.map key).count k := by rw [List.count, List.countP_map]; rfl
    _ ≤ 1 := List.nodup_iff_count_le_one.mp h k

/-- The one item that has the property is the one that is found. -/
theorem find?_eq_of_mem {α : Type} {p : α → Bool} {l : List α} {a : α} (h : l.countP p ≤ 1) (ha : a ∈ l)
    (hp : p a = true) : l.find? p = some a := by
  obtain ⟨front, rest, rfl⟩ := List.append_of_mem ha
  rw [find?_perm List.perm_middle h, List.find?_cons_of_pos hp]

end WorkforceRisk.Lib
