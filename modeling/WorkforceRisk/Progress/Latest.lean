/-
  WorkforceRisk.Progress.Latest — which observation a task's current state holds.

  `record_observations` writes the observation it is given into the task's row, whatever
  the row holds: nothing compares `captured_at` with `last_observed_at`. So the state is
  the observation recorded last, and `last_observed_at` goes up along a run exactly when
  the task's observations are recorded in the order they were captured
  (`last_recorded_wins`).
-/

import Mathlib.Data.List.Induction
import WorkforceRisk.Progress.Uniqueness

namespace WorkforceRisk.Progress

open Lib Persistence

def Reading.capturedAt (r : Reading) : DateTime := r.observation.capturedAt.instant

/-- The row of a task is the one its last reading writes, if it was read at all. -/
def StateIs (db : Database) (issue : Issue) : Option Reading → Prop
  | none => currentState db issue = none
  | some r => ∃ c, currentState db issue = some c ∧ c.state = r.observation ∧ c.lastObservedAt = r.capturedAt

/-- The readings of a task were recorded in the order they were captured. -/
def InOrder (readings : List Reading) (issue : Issue) : Prop :=
  readings.Pairwise fun a b => a.issue = issue → b.issue = issue → a.capturedAt ≤ b.capturedAt

section
variable [Sha256]

theorem Represents.stateIs {before : List Reading} {db : Database} (h : Represents before db) (issue : Issue) :
    StateIs db issue (lastOf before issue) := by
  cases hl : lastOf before issue with
  | none => exact h.unseen issue hl
  | some p =>
    obtain ⟨c, hc, hcp⟩ := h.states issue p hl
    exact ⟨c, hc, hcp.state, hcp.lastObservedAt⟩

/-- The readings of the batches that commit, in the order they are recorded. -/
def recorded (batches : List Batch) : List Reading :=
  (Transaction.committed recordObservations .empty batches).flatMap Batch.readings

/-- `last_observed_at` of a task never goes back, from one state of the run to a later one. -/
def NeverDecreases (batches : List Batch) (issue : Issue) : Prop :=
  ∀ first next rest, recorded batches = first ++ next ++ rest → ∀ db db' c c',
    first.foldlM record .empty = .ok db → (first ++ next).foldlM record .empty = .ok db' →
    currentState db issue = some c → currentState db' issue = some c' → c.lastObservedAt ≤ c'.lastObservedAt

theorem represents_fold {readings : List Reading} {db : Database} (h : readings.foldlM record .empty = .ok db) :
    Represents readings db :=
  foldlM_keeps (fun _ _ _ _ h hr => record_keeps h hr) [] represents_empty h

/-- Every state of a run is there: a prefix of the recorded readings leaves one. -/
theorem exists_state {batches : List Batch} {first rest : List Reading} (h : recorded batches = first ++ rest) :
    ∃ db, first.foldlM record .empty = .ok db := by
  have hall := Transaction.foldlM_committed recordObservations_stepwise batches (s := .empty)
  rw [← recorded, h] at hall
  obtain ⟨db, hdb, _⟩ := foldlM_append_ok.mp hall
  exact ⟨db, hdb⟩

end

/-- In order, the last reading of a task is its latest. -/
theorem InOrder.le_last {readings : List Reading} {issue : Issue} (h : InOrder readings issue) {p : Reading}
    (hp : lastOf readings issue = some p) : ∀ a ∈ readings, a.issue = issue → a.capturedAt ≤ p.capturedAt := by
  induction readings using List.reverseRecOn with
  | nil => cases hp
  | append_singleton readings r ih =>
    obtain ⟨hrest, _, hr⟩ := List.pairwise_append.mp h
    intro a ha hi
    rw [lastOf_snoc] at hp
    by_cases hri : r.issue = issue
    · rw [if_pos hri] at hp
      cases hp
      rcases List.mem_append.mp ha with ha | ha
      · exact hr a ha p List.mem_cons_self hi hri
      · rw [List.mem_singleton.mp ha]
    · rw [if_neg hri] at hp
      rcases List.mem_append.mp ha with ha | ha
      · exact ih hrest hp a ha hi
      · rw [List.mem_singleton.mp ha] at hi
        exact absurd hi hri

section
variable [Sha256]

theorem neverDecreases_of_inOrder {batches : List Batch} {issue : Issue} (h : InOrder (recorded batches) issue) :
    NeverDecreases batches issue := by
  intro first next rest hrec db db' c c' hdb hdb' hc hc'
  rw [hrec] at h
  have hfirst := (represents_fold hdb).stateIs issue
  have hnext := (represents_fold hdb').stateIs issue
  cases hp : lastOf first issue with
  | none =>
    rw [hp, StateIs, hc] at hfirst
    cases hfirst
  | some p =>
    cases hq : lastOf (first ++ next) issue with
    | none =>
      rw [hq, StateIs, hc'] at hnext
      cases hnext
    | some q =>
      rw [hp] at hfirst
      rw [hq] at hnext
      obtain ⟨_, hcp, _, hcl⟩ := hfirst
      obtain ⟨_, hcq, _, hcl'⟩ := hnext
      rw [hc] at hcp
      rw [hc'] at hcq
      cases hcp
      cases hcq
      rw [hcl, hcl']
      obtain ⟨hmem, hi⟩ := lastOf_mem hp
      exact InOrder.le_last (List.pairwise_append.mp h).1 hq p (List.mem_append_left _ hmem) hi

theorem inOrder_of_neverDecreases {batches : List Batch} {issue : Issue} (h : NeverDecreases batches issue) :
    InOrder (recorded batches) issue := by
  rw [InOrder, List.pairwise_iff_forall_sublist]
  intro a b hab hia hib
  -- two readings of the task, and the states right after each
  obtain ⟨l, l', hl, ha, hb⟩ := List.cons_sublist_iff.mp hab
  obtain ⟨first, t, rfl⟩ := List.append_of_mem ha
  obtain ⟨u, rest, rfl⟩ := List.append_of_mem (List.singleton_sublist.mp hb)
  have hsplit : recorded batches = (first ++ [a]) ++ (t ++ u ++ [b]) ++ rest := by simp [hl]
  have hsplit' : recorded batches = (first ++ [a]) ++ ((t ++ u ++ [b]) ++ rest) := by simp [hl]
  obtain ⟨db, hdb⟩ := exists_state hsplit'
  obtain ⟨db', hdb'⟩ := exists_state hsplit
  have hfirst := (represents_fold hdb).stateIs issue
  have hnext := (represents_fold hdb').stateIs issue
  rw [lastOf_snoc, if_pos hia] at hfirst
  rw [← List.append_assoc (first ++ [a]), lastOf_snoc, if_pos hib] at hnext
  obtain ⟨c, hc, _, hca⟩ := hfirst
  obtain ⟨c', hc', _, hcb⟩ := hnext
  rw [← hca, ← hcb]
  exact h _ _ _ hsplit db db' c c' hdb hdb' hc hc'

/-- The task's state is the observation recorded last, and `last_observed_at` never goes
    back exactly when the observations are recorded in the order they were captured. -/
theorem last_recorded_wins (batches : List Batch) (issue : Issue) :
    StateIs (Transaction.after recordObservations .empty batches) issue (lastOf (recorded batches) issue) ∧
      (NeverDecreases batches issue ↔ InOrder (recorded batches) issue) ∧
      (InOrder (recorded batches) issue → ∀ p, lastOf (recorded batches) issue = some p →
        ∀ a ∈ recorded batches, a.issue = issue → a.capturedAt ≤ p.capturedAt) := by
  refine ⟨?_, ⟨inOrder_of_neverDecreases, neverDecreases_of_inOrder⟩, fun h p hp => h.le_last hp⟩
  have h := Transaction.after_keeps recordObservations_stepwise (fun _ _ _ _ h hr => record_keeps h hr)
    represents_empty batches
  exact h.stateIs issue

end

/-! ## An older observation recorded last -/

/-- Tuesday's observation is recorded before Monday's. -/
def sampleReversed : List Batch :=
  [ sampleBatch "Review" 1787644500000000 review_length,
    sampleBatch "Testing" 1787558100000000 testing_length ]

theorem older_observation_kept :
    letI := Sha256.transparent
    ¬ ∀ (batches : List Batch) (issue : Issue), (∀ r ∈ batches.flatMap Batch.readings, r.issue = issue) →
      ((batches.flatMap Batch.readings).map Reading.capturedAt).Nodup →
      (∀ c, currentState (Transaction.after recordObservations .empty batches) issue = some c →
        ∀ r ∈ batches.flatMap Batch.readings, r.capturedAt ≤ c.lastObservedAt) ∧ NeverDecreases batches issue := by
  let _ := Sha256.transparent
  intro h
  have hlast : (currentState (Transaction.after recordObservations .empty sampleReversed) ("dev", "WFD", "WFD-5")).map
      TaskCurrentState.lastObservedAt = some 1787558100000000 := by decide +kernel
  obtain ⟨c, hc, hat⟩ := Option.map_eq_some_iff.mp hlast
  have hle := (h sampleReversed ("dev", "WFD", "WFD-5") (by decide +kernel) (by decide +kernel)).1 c hc
    ⟨"dev", fun _ => hours 3, sampleObservation "Review" 1787644500000000 review_length⟩ (.head _)
  rw [hat] at hle
  revert hle
  decide

end WorkforceRisk.Progress
