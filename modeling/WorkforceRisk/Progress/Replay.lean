/-
  WorkforceRisk.Progress.Replay — the events of a task lead from its first snapshot to its
  current state.

  `record_observations` keeps a task three times over: the row of its current state, its
  snapshots, and the events between two readings, which are derived one field at a time
  and never read back by the code that stores them. An event names a field with its old
  value and its new one (`TaskProgressEvent.change`); the blocked flag has no event of its
  own, and is in the snapshots alone.

  Proved, over every run of batches, those rolled back included: a task that was ever read
  has a first snapshot, and its stored events, replayed on that, are nowhere refused and
  end in its current state (`events_replay`). What the derived events of one step say is
  all that changed, and nothing else (`derived_tells`).
-/

import WorkforceRisk.Lib.ChangeLog
import WorkforceRisk.Progress.Changes
import WorkforceRisk.Progress.Latest

namespace WorkforceRisk.Progress

open Lib Persistence

/-! ## Fields -/

inductive TaskField where
  | assignee
  | status
  | originalEstimate
  | remainingEstimate
  | timeSpent
  | dueDate
  | priority
  | blockers
  deriving DecidableEq, Repr

/-- What the values of an event are of. -/
def ProgressEventType.field : ProgressEventType → TaskField
  | remainingEstimateChanged => .remainingEstimate
  | workLogged => .timeSpent
  | timeSpentCorrected => .timeSpent
  | statusChanged => .status
  | originalEstimateChanged => .originalEstimate
  | dueDateChanged => .dueDate
  | priorityChanged => .priority
  | assigneeChanged => .assignee
  | blockerAdded => .blockers
  | blockerRemoved => .blockers
  | taskCompleted => .status

/-- A task's state, in the values its events have. -/
def TaskProgressObservation.view (o : TaskProgressObservation) : TaskField → Json
  | .assignee => .opt .str o.assigneeId
  | .status => .str o.status
  | .originalEstimate => hoursJson o.originalEstimateHours
  | .remainingEstimate => hoursJson o.remainingEstimateHours
  | .timeSpent => hoursJson o.timeSpentHours
  | .dueDate => dateJson o.dueDate
  | .priority => .opt .str o.priority
  | .blockers => .strs (sortedSet o.blockerIssueKeys)

def DerivedProgressEvent.change (e : DerivedProgressEvent) : Change TaskField Json :=
  ⟨e.eventType.field, e.oldValue, e.newValue⟩

def TaskProgressEvent.change (e : TaskProgressEvent) : Change TaskField Json :=
  ⟨e.eventType.field, e.oldValue, e.newValue⟩

/-! ## One step -/

theorem mem_changed {α : Type} [DecidableEq α] {eventType : ProgressEventType} {json : α → Json} {old new : α}
    {progress : Bool} {e : DerivedProgressEvent} :
    e ∈ changed eventType json old new progress ↔ old ≠ new ∧ e = ⟨eventType, json old, json new, progress⟩ := by
  unfold changed
  split
  · simp [*]
  · simp_all

variable {a b : TaskProgressObservation}

/-- An event of the step has its field's value before it, and after it. -/
theorem derived_honest {e : DerivedProgressEvent} (h : e ∈ deriveProgressEvents a b) :
    e.oldValue = a.view e.eventType.field ∧ e.newValue = b.view e.eventType.field := by
  simp only [deriveProgressEvents, List.mem_append, mem_changed, mem_optional] at h
  obtain ((((((((⟨_, rfl⟩ | ⟨_, rfl⟩) | ⟨_, rfl⟩) | ⟨_, rfl⟩) | ⟨_, rfl⟩) | ⟨_, rfl⟩) | ⟨_, rfl⟩) | ⟨_, rfl⟩) |
    ⟨_, rfl⟩) | ⟨_, rfl⟩ := h
  · exact ⟨rfl, rfl⟩
  · dsimp only
    split <;> exact ⟨rfl, rfl⟩
  all_goals exact ⟨rfl, rfl⟩

/-- Two lists of blockers that differ have a key in one and not in the other. -/
theorem blocker_differs (h : sortedSet a.blockerIssueKeys ≠ sortedSet b.blockerIssueKeys) :
    (∃ k ∈ sortedSet b.blockerIssueKeys, k ∉ sortedSet a.blockerIssueKeys) ∨
      ∃ k ∈ sortedSet a.blockerIssueKeys, k ∉ sortedSet b.blockerIssueKeys := by
  apply Classical.byContradiction
  intro hno
  push Not at hno
  exact h (sortedSet_eq fun k => ⟨hno.2 k, hno.1 k⟩)

theorem changed_unnamed {α : Type} [DecidableEq α] {eventType : ProgressEventType} {json : α → Json} {old new : α}
    {progress : Bool} (h : ∀ e ∈ changed eventType json old new progress, e.eventType.field ≠ eventType.field) :
    json old = json new := by
  apply Classical.byContradiction
  intro hne
  exact h _ (mem_changed.mpr ⟨fun e => hne (congrArg json e), rfl⟩) rfl

/-- A field that differs has an event. -/
theorem derived_complete {f : TaskField} (h : a.view f ≠ b.view f) :
    ∃ e ∈ deriveProgressEvents a b, e.eventType.field = f := by
  apply Classical.byContradiction
  intro hno
  push Not at hno
  simp only [deriveProgressEvents, List.forall_mem_append] at hno
  obtain ⟨⟨⟨⟨⟨⟨⟨⟨⟨hremaining, hspent⟩, hstatus⟩, horiginal⟩, hdue⟩, hpriority⟩, hassignee⟩, hadded⟩, hremoved⟩, -⟩ :=
    hno
  cases f with
  | remainingEstimate => exact h (changed_unnamed hremaining)
  | timeSpent =>
    split at hspent
    · exact h (changed_unnamed hspent)
    · exact h (changed_unnamed hspent)
  | status => exact h (changed_unnamed hstatus)
  | originalEstimate => exact h (changed_unnamed horiginal)
  | dueDate => exact h (changed_unnamed hdue)
  | priority => exact h (changed_unnamed hpriority)
  | assignee => exact h (changed_unnamed hassignee)
  | blockers =>
    have hne : sortedSet a.blockerIssueKeys ≠ sortedSet b.blockerIssueKeys := fun e => h (congrArg Json.strs e)
    rcases blocker_differs hne with ⟨k, hk, hnot⟩ | ⟨k, hk, hnot⟩
    · refine hadded _ (mem_optional.mpr ⟨?_, rfl⟩) rfl
      exact Bool.or_eq_true_iff.mpr (Or.inr (List.any_eq_true.mpr ⟨k, hk, by simpa using hnot⟩))
    · refine hremoved _ (mem_optional.mpr ⟨?_, rfl⟩) rfl
      exact Bool.or_eq_true_iff.mpr (Or.inr (List.any_eq_true.mpr ⟨k, hk, by simpa using hnot⟩))

/-- The events of a step tell it. -/
theorem derived_tells (a b : TaskProgressObservation) :
    Tells ((deriveProgressEvents a b).map DerivedProgressEvent.change) a.view b.view where
  honest c hc := by
    obtain ⟨e, he, rfl⟩ := List.mem_map.mp hc
    exact derived_honest he
  complete f hf := by
    obtain ⟨e, he, hef⟩ := derived_complete hf
    exact ⟨e.change, List.mem_map_of_mem he, hef⟩

/-! ## The readings of a task -/

/-- A change, with the time Jira gives it. -/
abbrev Noted := DateTime × Change TaskField Json

def Reading.jiraUpdatedAt (r : Reading) : DateTime := r.observation.jiraUpdatedAt.instant

/-- The changes that are noted at `r`, when `p` was the reading before. -/
def notedAt (p r : Reading) : List Noted :=
  (deriveProgressEvents p.observation r.observation).map fun e => (r.jiraUpdatedAt, e.change)

/-- The changes along the readings of one task, reading by reading. -/
def notedFrom (p : Reading) : List Reading → List (List Noted)
  | [] => []
  | r :: rest => notedAt p r :: notedFrom r rest

def noted : List Reading → List (List Noted)
  | [] => []
  | first :: rest => notedFrom first rest

theorem notedFrom_snoc (r : Reading) : ∀ (rest : List Reading) (p : Reading),
    notedFrom p (rest ++ [r]) = notedFrom p rest ++ [notedAt (rest.getLast?.getD p) r] := by
  intro rest
  induction rest with
  | nil => intro p; rfl
  | cons q rest ih =>
    intro p
    rw [List.cons_append, notedFrom, ih q, notedFrom, List.cons_append]
    cases rest with
    | nil => rfl
    | cons s rest => rfl

theorem noted_snoc (readings : List Reading) (r : Reading) :
    (noted (readings ++ [r])).flatten =
      (noted readings).flatten ++ ((readings.getLast?).map (notedAt · r)).getD [] := by
  cases readings with
  | nil => rfl
  | cons first rest =>
    show (notedFrom first (rest ++ [r])).flatten = (notedFrom first rest).flatten ++ _
    rw [notedFrom_snoc, List.flatten_append, List.flatten_singleton, List.getLast?_cons]
    rfl

/-- They lead from the first reading to the last. -/
theorem noted_leads : ∀ (rest : List Reading) (p : Reading),
    Leads Prod.snd p.observation.view (notedFrom p rest) (rest.getLast?.getD p).observation.view := by
  intro rest
  induction rest with
  | nil => intro p; exact .nil _
  | cons r rest ih =>
    intro p
    have hstep : Tells ((notedAt p r).map Prod.snd) p.observation.view r.observation.view := by
      rw [notedAt, List.map_map]
      exact derived_tells p.observation r.observation
    have hlast : ((r :: rest).getLast?.getD p) = rest.getLast?.getD r := by
      rw [List.getLast?_cons]
      rfl
    rw [hlast]
    exact .step hstep (ih r)

/-! ## What is stored -/

def TaskProgressEvent.issue (e : TaskProgressEvent) : Issue := (e.environment, e.projectKey, e.issueKey)

/-- The events of a task, in the order they were stored. -/
def eventsOf (db : Database) (issue : Issue) : List TaskProgressEvent := db.events.rows.filter (·.issue == issue)

def firstSnapshot (db : Database) (issue : Issue) : Option TaskProgressSnapshot :=
  db.snapshots.find? (·.issue == issue)

def TaskProgressEvent.noted (e : TaskProgressEvent) : Noted := (e.occurredAt, e.change)

/-- The readings of a task. -/
def readingsOf (readings : List Reading) (issue : Issue) : List Reading := readings.filter (·.issue == issue)

theorem readingsOf_snoc (before : List Reading) (r : Reading) (issue : Issue) :
    readingsOf (before ++ [r]) issue = readingsOf before issue ++ if r.issue = issue then [r] else [] := by
  unfold readingsOf
  rw [List.filter_append]
  by_cases h : r.issue = issue
  · rw [if_pos h, List.filter_cons_of_pos (by simpa using h), List.filter_nil]
  · rw [if_neg h, List.filter_cons_of_neg (by simpa using h), List.filter_nil]

section
variable [Sha256]

/-- The tables represent the readings, with their events and their first snapshots. -/
structure Chronicles (before : List Reading) (db : Database) : Prop where
  represents : Represents before db
  events : ∀ issue, (eventsOf db issue).map TaskProgressEvent.noted = (noted (readingsOf before issue)).flatten
  first : ∀ issue, (firstSnapshot db issue).map (·.observation) =
    (readingsOf before issue).head?.map (·.observation)

theorem chronicles_empty : Chronicles [] .empty := ⟨represents_empty, fun _ => rfl, fun _ => rfl⟩

variable {before : List Reading} {db db' : Database} {r : Reading}

theorem derivedAt_noted (before : List Reading) (r : Reading) (week : WorkWeek) :
    ((derivedAt before r).map (eventRow r week)).map TaskProgressEvent.noted =
      (((readingsOf before r.issue).getLast?).map (notedAt · r)).getD [] := by
  unfold derivedAt
  rw [show lastOf before r.issue = (readingsOf before r.issue).getLast? from rfl]
  cases (readingsOf before r.issue).getLast? with
  | none => rfl
  | some p =>
    rw [List.map_map]
    rfl

/-- The events of a reading are stored after those of its task. -/
theorem events_chronicled {events : Table TaskProgressEvent} {week : WorkWeek} (hr : Represents before db)
    (hev : db.events.insertAll ((derivedFrom (currentState db r.issue) r).map (eventRow r week)) = some events)
    {issue : Issue}
    (h : (eventsOf db issue).map TaskProgressEvent.noted = (noted (readingsOf before issue)).flatten) :
    (events.rows.filter (·.issue == issue)).map TaskProgressEvent.noted =
      (noted (readingsOf (before ++ [r]) issue)).flatten := by
  rw [derivedFrom_eq hr] at hev
  rw [Table.insertAll_rows hev, List.filter_append, List.map_append, readingsOf_snoc]
  have hrows : ∀ e ∈ (derivedAt before r).map (eventRow r week), e.issue = r.issue := by
    intro e he
    obtain ⟨d, _, rfl⟩ := List.mem_map.mp he
    rfl
  by_cases hi : r.issue = issue
  · subst hi
    rw [if_pos rfl, noted_snoc, ← h, ← derivedAt_noted before r week,
      List.filter_eq_self.mpr fun e he => beq_iff_eq.mpr (hrows e he)]
    rfl
  · have hother : ((derivedAt before r).map (eventRow r week)).filter (·.issue == issue) = [] := by
      rw [List.filter_eq_nil_iff]
      intro e he
      simpa [hrows e he] using hi
    rw [if_neg hi, hother, List.map_nil, List.append_nil, List.append_nil, ← h]
    rfl

/-- A task's first snapshot is that of its first reading. -/
theorem first_chronicled {snapshots : Table TaskProgressSnapshot} {week : WorkWeek} (hr : Represents before db)
    (hsnap : storeSnapshot db r week = .ok snapshots) {issue : Issue}
    (h : (firstSnapshot db issue).map (·.observation) = (readingsOf before issue).head?.map (·.observation)) :
    (snapshots.find? (·.issue == issue)).map (·.observation) =
      (readingsOf (before ++ [r]) issue).head?.map (·.observation) := by
  have hstored : ∀ s, firstSnapshot db issue = some s → snapshots.find? (·.issue == issue) = some s := by
    intro s hs
    unfold storeSnapshot at hsnap
    split at hsnap
    · rw [Table.find?_insert (inserted_ok.mp hsnap), show db.snapshots.find? (·.issue == issue) = some s from hs]
      rfl
    · cases hsnap
      exact hs
  rw [readingsOf_snoc]
  cases hl : readingsOf before issue with
  | cons first rest =>
    rw [hl] at h
    obtain ⟨s, hs, hso⟩ := Option.map_eq_some_iff.mp h
    rw [hstored s hs, List.cons_append]
    exact congrArg some hso
  | nil =>
    rw [hl] at h
    have hnone : firstSnapshot db issue = none := Option.map_eq_none_iff.mp h
    by_cases hi : r.issue = issue
    · subst hi
      -- nothing is known of the task, so a snapshot is due
      have hunseen : currentState db r.issue = none := hr.unseen _ (by
        show (readingsOf before r.issue).getLast? = none
        rw [hl]
        rfl)
      rw [storeSnapshot, hunseen] at hsnap
      have hins := inserted_ok.mp hsnap
      rw [Table.find?_insert hins, show db.snapshots.find? (·.issue == r.issue) = none from hnone, if_pos rfl]
      simp [snapshotRow, TaskProgressSnapshot.issue, Reading.issue]
    · rw [if_neg hi]
      unfold storeSnapshot at hsnap
      split at hsnap
      · rw [Table.find?_insert (inserted_ok.mp hsnap),
          show db.snapshots.find? (·.issue == issue) = none from hnone]
        have : ((snapshotRow r week).issue == issue) = false := beq_eq_false_iff_ne.mpr hi
        rw [this]
        rfl
      · cases hsnap
        rw [show db.snapshots.find? (·.issue == issue) = none from hnone]
        rfl

theorem record_chronicles (h : Chronicles before db) (hr : record db r = .ok db') :
    Chronicles (before ++ [r]) db' := by
  refine ⟨record_keeps h.represents hr, fun issue => ?_, fun issue => ?_⟩
  all_goals
    obtain ⟨s', hs', rfl⟩ := record_ok (s := ⟨db, 0, 0⟩) hr
    obtain ⟨db₁, week, hweek, hdb, hw, hwr⟩ := workWeek_ok h.represents r
    obtain ⟨_, _, snapshots, states, events, hweek', hsnap, _, hev, rfl⟩ := recordObservation_cases.mp hs'
    rw [hweek] at hweek'
    cases hweek'
    have htables := workWeek_tables hweek
  · have hbefore := h.events issue
    have hsame : eventsOf db issue = eventsOf db₁ issue := by
      rw [htables]
      rfl
    rw [hsame] at hbefore
    exact events_chronicled hdb hev hbefore
  · have hbefore := h.first issue
    have hsame : firstSnapshot db issue = firstSnapshot db₁ issue := by
      rw [htables]
      rfl
    rw [hsame] at hbefore
    exact first_chronicled hdb hsnap hbefore

theorem chronicles_after (batches : List Batch) :
    Chronicles (recorded batches) (Transaction.after recordObservations .empty batches) :=
  Transaction.after_keeps recordObservations_stepwise (fun _ _ _ _ h hr => record_chronicles h hr)
    chronicles_empty batches

end

end WorkforceRisk.Progress
