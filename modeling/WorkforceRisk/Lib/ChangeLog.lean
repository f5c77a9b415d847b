/-
  WorkforceRisk.Lib.ChangeLog — states told by their changes.

  A state is a value for each field, and a change a field with its old value and its new
  one. Changes tell a step from one state to another if each is of that step and every
  field that differs is in one (`Tells`). `replay` makes the changes of a log one by one,
  each only where its field holds one of its two values.

  Proved: changes that tell a step lead from the one state to the other, in whatever order
  and however often each is told (`Tells.replays`). A log of several steps (`Leads`) leads
  from the first state to the last (`Leads.replays`); where each step has a time of its own,
  so does every other log of the same changes that is ordered by time
  (`Leads.replays_sorted`).
-/

import Mathlib.Data.List.Sort
import Mathlib.Logic.Function.Basic

namespace WorkforceRisk.Lib

structure Change (φ ν : Type) where
  field : φ
  old : ν
  new : ν
  deriving DecidableEq

section
variable {φ ν : Type} [DecidableEq φ] [DecidableEq ν]

/-- Make a change, where the field holds its old value, or its new one already. -/
def Change.apply (s : φ → ν) (c : Change φ ν) : Option (φ → ν) :=
  if s c.field = c.old ∨ s c.field = c.new then some (Function.update s c.field c.new) else none

def replay (s : φ → ν) (log : List (Change φ ν)) : Option (φ → ν) := log.foldlM Change.apply s

theorem replay_append (s : φ → ν) (log more : List (Change φ ν)) :
    replay s (log ++ more) = (replay s log).bind (replay · more) := List.foldlM_append

end

/-! ## One step -/

structure Tells {φ ν : Type} (log : List (Change φ ν)) (a b : φ → ν) : Prop where
  honest : ∀ c ∈ log, c.old = a c.field ∧ c.new = b c.field
  complete : ∀ f, a f ≠ b f → ∃ c ∈ log, c.field = f

section
variable {φ ν : Type} {log log' : List (Change φ ν)} {a b : φ → ν}

theorem Tells.nil_eq (h : Tells [] a b) : a = b := by
  funext f
  apply Classical.byContradiction
  intro hne
  obtain ⟨c, hc, _⟩ := h.complete f hne
  cases hc

/-- The order and the number of its changes do not matter. -/
theorem Tells.of_same (h : Tells log a b) (hs : ∀ c, c ∈ log' ↔ c ∈ log) : Tells log' a b where
  honest c hc := h.honest c ((hs c).mp hc)
  complete f hf := by
    obtain ⟨c, hc, hcf⟩ := h.complete f hf
    exact ⟨c, (hs c).mpr hc, hcf⟩

variable [DecidableEq φ] [DecidableEq ν]

/-- Honest changes move the fields they name, and are never refused on the way. -/
theorem replay_honest (h : ∀ c ∈ log, c.old = a c.field ∧ c.new = b c.field) :
    ∀ s : φ → ν, (∀ f, s f = a f ∨ s f = b f) →
      replay s log = some fun f => if f ∈ log.map Change.field then b f else s f := by
  induction log with
  | nil =>
    intro s _
    simp [replay]
  | cons c log ih =>
    intro s hs
    obtain ⟨hc, hlog⟩ := List.forall_mem_cons.mp h
    have hfits : s c.field = c.old ∨ s c.field = c.new := by
      rw [hc.1, hc.2]
      exact hs c.field
    have hnext : ∀ f, Function.update s c.field c.new f = a f ∨ Function.update s c.field c.new f = b f := by
      intro f
      by_cases e : f = c.field
      · subst e
        rw [Function.update_self, hc.2]
        exact Or.inr rfl
      · rw [Function.update_of_ne e]
        exact hs f
    have hreplay : replay s (c :: log) = replay (Function.update s c.field c.new) log := by
      show (c.apply s).bind (replay · log) = _
      rw [Change.apply, if_pos hfits, Option.bind_some]
    rw [hreplay, ih hlog _ hnext]
    congr 1
    funext f
    by_cases e : f = c.field
    · subst e
      simp [Function.update_self, hc.2]
    · simp [e]

theorem Tells.replays (h : Tells log a b) : replay a log = some b := by
  rw [replay_honest h.honest a fun f => Or.inl rfl]
  congr 1
  funext f
  by_cases hf : f ∈ log.map Change.field
  · rw [if_pos hf]
  · rw [if_neg hf]
    apply Classical.byContradiction
    intro hne
    obtain ⟨c, hc, rfl⟩ := h.complete f hne
    exact hf (List.mem_map_of_mem hc)

end

/-! ## Several steps -/

/-- The groups of entries tell a history from `a` to `b`, a step each. -/
inductive Leads {φ ν ε : Type} (change : ε → Change φ ν) : (φ → ν) → List (List ε) → (φ → ν) → Prop
  | nil (a : φ → ν) : Leads change a [] a
  | step {a b c : φ → ν} {group : List ε} {groups : List (List ε)} : Tells (group.map change) a b →
      Leads change b groups c → Leads change a (group :: groups) c

section
variable {φ ν ε τ : Type} {change : ε → Change φ ν} {a b c : φ → ν} {group : List ε} {groups : List (List ε)}

theorem Leads.snoc (h : Leads change a groups b) (ht : Tells (group.map change) b c) :
    Leads change a (groups ++ [group]) c := by
  induction h with
  | nil a => exact .step ht (.nil _)
  | step hg _ ih => exact .step hg (ih ht)

/-- What is in order by time is what comes up to a time, and then the rest. -/
theorem split_at_time [LinearOrder τ] {time : ε → τ} {log : List ε} (hs : log.Pairwise fun x y => time x ≤ time y)
    (t : τ) : log = log.filter (fun x => decide (time x ≤ t)) ++ log.filter (fun x => decide (t < time x)) := by
  induction log with
  | nil => rfl
  | cons x log ih =>
    obtain ⟨hx, hlog⟩ := List.pairwise_cons.mp hs
    by_cases h : time x ≤ t
    · rw [List.filter_cons_of_pos (by simpa using h), List.filter_cons_of_neg (by simpa using h), List.cons_append,
        ← ih hlog]
    · have hlate : ∀ y ∈ x :: log, t < time y := by
        intro y hy
        rcases List.mem_cons.mp hy with rfl | hy
        · exact not_le.mp h
        · exact lt_of_lt_of_le (not_le.mp h) (hx y hy)
      have hnone : (x :: log).filter (fun y => decide (time y ≤ t)) = [] := by
        rw [List.filter_eq_nil_iff]
        intro y hy
        simpa using hlate y hy
      have hall : (x :: log).filter (fun y => decide (t < time y)) = x :: log := by
        rw [List.filter_eq_self]
        intro y hy
        simpa using hlate y hy
      rw [hnone, hall, List.nil_append]

variable [DecidableEq φ] [DecidableEq ν]

theorem Leads.replays (h : Leads change a groups b) : replay a (groups.flatten.map change) = some b := by
  induction h with
  | nil a => rfl
  | step ht _ ih => rw [List.flatten_cons, List.map_append, replay_append, ht.replays, Option.bind_some, ih]

/-- The entries of a group have one time, which is before those of the groups after it. -/
def Timed [LinearOrder τ] (time : ε → τ) (groups : List (List ε)) : Prop :=
  (∀ group ∈ groups, ∀ x ∈ group, ∀ y ∈ group, time x = time y) ∧
    groups.Pairwise fun group later => ∀ x ∈ group, ∀ y ∈ later, time x < time y

theorem Leads.replays_sorted [LinearOrder τ] {time : ε → τ} (h : Leads change a groups b) (ht : Timed time groups) :
    ∀ {log : List ε}, log.Perm groups.flatten → (log.Pairwise fun x y => time x ≤ time y) →
      replay a (log.map change) = some b := by
  induction h with
  | nil a =>
    intro log hp _
    rw [List.perm_nil.mp hp]
    rfl
  | @step a b c group groups hg _ ih =>
    intro log hp hs
    obtain ⟨hsame, hlater⟩ := ht
    obtain ⟨hfirst, hrest⟩ := List.pairwise_cons.mp hlater
    have htimed : Timed time groups := ⟨fun g hg => hsame g (List.mem_cons_of_mem _ hg), hrest⟩
    cases group with
    | nil =>
      rw [Tells.nil_eq hg]
      exact ih htimed hp hs
    | cons x group =>
      -- up to the time of `x` there is its group, and after it the others
      have hat : ∀ y ∈ x :: group, time y ≤ time x := fun y hy =>
        le_of_eq (hsame _ List.mem_cons_self y hy x List.mem_cons_self)
      have hafter : ∀ y ∈ groups.flatten, time x < time y := by
        intro y hy
        obtain ⟨later, hlater, hy⟩ := List.mem_flatten.mp hy
        exact hfirst later hlater x List.mem_cons_self y hy
      have hupto : (log.filter fun y => decide (time y ≤ time x)).Perm (x :: group) := by
        refine (hp.filter _).trans (List.Perm.of_eq ?_)
        rw [List.flatten_cons, List.filter_append, List.filter_eq_self.mpr fun y hy => by simpa using hat y hy,
          List.filter_eq_nil_iff.mpr fun y hy => by simpa using hafter y hy, List.append_nil]
      have hothers : (log.filter fun y => decide (time x < time y)).Perm groups.flatten := by
        refine (hp.filter _).trans (List.Perm.of_eq ?_)
        rw [List.flatten_cons, List.filter_append, List.filter_eq_nil_iff.mpr fun y hy => by simpa using hat y hy,
          List.filter_eq_self.mpr fun y hy => by simpa using hafter y hy, List.nil_append]
      have htold : Tells ((log.filter fun y => decide (time y ≤ time x)).map change) a b :=
        hg.of_same fun c => (hupto.map change).mem_iff
      rw [split_at_time hs (time x), List.map_append, replay_append, htold.replays, Option.bind_some]
      exact ih htimed hothers (hs.filter _)

end

end WorkforceRisk.Lib
