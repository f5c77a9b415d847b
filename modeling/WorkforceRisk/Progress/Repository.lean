/-
  WorkforceRisk.Progress.Repository — recording task progress
  (packages/persistence/src/workforce_persistence/progress_repository.py:
  `TaskProgressRepository`; the tables of models.py).

  `work_weeks`, `task_current_states`, `task_progress_snapshots` and
  `task_progress_events` carry their unique constraints. Of the ids the code draws only
  a week's is ever read, and it is new to its table. A stored state is the observation
  it dumps, a snapshot's evidence columns are one too.

  One call is one transaction: an insert that a constraint refuses rolls back every
  observation of its batch.
-/

import WorkforceRisk.Lib.Table
import WorkforceRisk.Lib.Transactions
import WorkforceRisk.Progress.Observation

namespace WorkforceRisk.Progress

open Lib Persistence

/-! ## Rows -/

structure WorkWeek where
  id : Uuid
  environment : String
  createdAt : DateTime
  projectKey : String
  weekStart : Date
  weekEnd : Date
  deriving DecidableEq

structure TaskCurrentState where
  environment : String
  createdAt : DateTime
  projectKey : String
  issueKey : String
  workWeekId : Uuid
  evidenceFingerprint : String
  lastObservedAt : DateTime
  jiraUpdatedAt : DateTime
  lastStructuredProgressAt : Option DateTime
  state : TaskProgressObservation

structure TaskProgressSnapshot where
  environment : String
  createdAt : DateTime
  workWeekId : Uuid
  observation : TaskProgressObservation
  source : String
  evidenceFingerprint : String

structure TaskProgressEvent where
  environment : String
  createdAt : DateTime
  workWeekId : Uuid
  projectKey : String
  issueKey : String
  employeeId : Option String
  eventType : ProgressEventType
  occurredAt : DateTime
  oldValue : Json
  newValue : Json
  source : String
  eventFingerprint : String
  deriving DecidableEq

/-- The environment, the project and the key of a task's issue. -/
abbrev Issue := String × String × String

def TaskCurrentState.issue (c : TaskCurrentState) : Issue := (c.environment, c.projectKey, c.issueKey)

/-- `uq_work_week_env_project_start`. -/
instance : Keyed WorkWeek := .byIdAnd WorkWeek.id fun w => (w.environment, w.projectKey, w.weekStart)

/-- `uq_task_current_env_project_issue`. -/
instance : Keyed TaskCurrentState := .byUnique TaskCurrentState.issue

def TaskProgressSnapshot.issue (s : TaskProgressSnapshot) : Issue :=
  (s.environment, s.observation.projectKey, s.observation.issueKey)

/-- `uq_task_snapshot_env_issue_week_fingerprint`. -/
instance : Keyed TaskProgressSnapshot := .byUnique fun s => (s.issue, s.workWeekId, s.evidenceFingerprint)

/-- `uq_task_progress_event_env_fingerprint`. -/
instance : Keyed TaskProgressEvent := .byUnique fun e => (e.environment, e.eventFingerprint)

structure Database where
  weeks : Table WorkWeek
  states : Table TaskCurrentState
  snapshots : Table TaskProgressSnapshot
  events : Table TaskProgressEvent

def Database.empty : Database := ⟨.empty, .empty, .empty, .empty⟩

/-! ## Recording -/

/-- An observation with the environment and the time zone of the call that records it. -/
structure Reading where
  environment : String
  zone : ZoneInfo
  observation : TaskProgressObservation

namespace Reading

def issue (r : Reading) : Issue := (r.environment, r.observation.projectKey, r.observation.issueKey)

def weekStart (r : Reading) : Date := (r.observation.capturedAt.dateIn r.zone).weekStart

/-- The digest an event derived at `r` is stored under. -/
def eventFingerprint [Sha256] (r : Reading) (event : DerivedProgressEvent) : String :=
  Sha256.material <| .obj
    [ ("environment", .str r.environment),
      ("event_type", .str event.eventType.value),
      ("issue_key", .str r.observation.issueKey),
      ("new", event.newValue),
      ("occurred_at", .str r.observation.jiraUpdatedAt.isoformat),
      ("old", event.oldValue) ]

end Reading

/-- The week a reading falls in, made when it is not there. -/
def workWeek (db : Database) (r : Reading) : Except Error (Database × WorkWeek) :=
  match db.weeks.find? fun w =>
      w.environment == r.environment && w.projectKey == r.observation.projectKey && w.weekStart == r.weekStart with
  | some existing => .ok (db, existing)
  | none =>
    let record : WorkWeek :=
      { id := db.weeks.fresh WorkWeek.id
        environment := r.environment
        createdAt := r.observation.capturedAt.instant
        projectKey := r.observation.projectKey
        weekStart := r.weekStart
        weekEnd := r.weekStart + 4 }
    do
      let weeks ← inserted "work_weeks" (db.weeks.insert record)
      .ok ({ db with weeks }, record)

theorem workWeek_tables {db db' : Database} {r : Reading} {week : WorkWeek} (h : workWeek db r = .ok (db', week)) :
    db' = { db with weeks := db'.weeks } := by
  unfold workWeek at h
  split at h
  · cases h
    rfl
  · obtain ⟨weeks, _, h⟩ := except_bind_ok.mp h
    cases h
    rfl

/-- `select(TaskCurrentState).where(...)` of the reading's task. -/
def currentState (db : Database) (issue : Issue) : Option TaskCurrentState := db.states.find? (·.issue == issue)

/-- The events between the stored observation of a task and a further one. -/
def derivedFrom (current : Option TaskCurrentState) (r : Reading) : List DerivedProgressEvent :=
  match current with
  | none => []
  | some c => deriveProgressEvents c.state r.observation

section
variable [Sha256]

def snapshotRow (r : Reading) (week : WorkWeek) : TaskProgressSnapshot :=
  { environment := r.environment
    createdAt := r.observation.capturedAt.instant
    workWeekId := week.id
    observation := r.observation
    source := "jira"
    evidenceFingerprint := r.observation.fingerprint }

def eventRow (r : Reading) (week : WorkWeek) (event : DerivedProgressEvent) : TaskProgressEvent :=
  { environment := r.environment
    createdAt := r.observation.capturedAt.instant
    workWeekId := week.id
    projectKey := r.observation.projectKey
    issueKey := r.observation.issueKey
    employeeId := r.observation.assigneeId
    eventType := event.eventType
    occurredAt := r.observation.jiraUpdatedAt.instant
    oldValue := event.oldValue
    newValue := event.newValue
    source := "jira"
    eventFingerprint := r.eventFingerprint event }

/-- The row of a task not seen before. -/
def newState (r : Reading) (week : WorkWeek) : TaskCurrentState :=
  { environment := r.environment
    createdAt := r.observation.capturedAt.instant
    projectKey := r.observation.projectKey
    issueKey := r.observation.issueKey
    workWeekId := week.id
    evidenceFingerprint := r.observation.fingerprint
    lastObservedAt := r.observation.capturedAt.instant
    jiraUpdatedAt := r.observation.jiraUpdatedAt.instant
    lastStructuredProgressAt := some r.observation.jiraUpdatedAt.instant
    state := r.observation }

/-- What a further reading makes of a task's row. -/
def observed (r : Reading) (week : WorkWeek) (progressed : Bool) (c : TaskCurrentState) : TaskCurrentState :=
  { c with
    workWeekId := week.id
    evidenceFingerprint := r.observation.fingerprint
    lastObservedAt := r.observation.capturedAt.instant
    jiraUpdatedAt := r.observation.jiraUpdatedAt.instant
    lastStructuredProgressAt :=
      if progressed then some r.observation.jiraUpdatedAt.instant else c.lastStructuredProgressAt
    state := r.observation }

@[simp] theorem newState_issue {r : Reading} {week : WorkWeek} : (newState r week).issue = r.issue := rfl

theorem observed_issue {r : Reading} {week : WorkWeek} {progressed : Bool} (c : TaskCurrentState) :
    (observed r week progressed c).issue = c.issue := rfl

/-- `state_changed or week_changed`. -/
def isChanged (current : Option TaskCurrentState) (r : Reading) (week : WorkWeek) : Bool :=
  match current with
  | none => true
  | some c => c.evidenceFingerprint != r.observation.fingerprint || c.workWeekId != week.id

def storeSnapshot (db : Database) (r : Reading) (week : WorkWeek) : Except Error (Table TaskProgressSnapshot) :=
  if isChanged (currentState db r.issue) r week then
    inserted "task_progress_snapshots" (db.snapshots.insert (snapshotRow r week))
  else .ok db.snapshots

def storeState (db : Database) (r : Reading) (week : WorkWeek) (progressed : Bool) :
    Except Error (Table TaskCurrentState) :=
  match currentState db r.issue with
  | none => inserted "task_current_states" (db.states.insert (newState r week))
  | some _ => .ok (db.states.update (·.issue == r.issue) (observed r week progressed) observed_issue)

/-- The state, and how many snapshots and events the call has made so far. -/
structure Session where
  db : Database
  snapshotsCreated : Nat
  eventsCreated : Nat

/-- The body of the loop over a call's observations. -/
def recordObservation (s : Session) (r : Reading) : Except Error Session := do
  let (db, week) ← workWeek s.db r
  let current := currentState db r.issue
  let derived := derivedFrom current r
  let snapshots ← storeSnapshot db r week
  let states ← storeState db r week (derived.any (·.structuredProgress))
  let events ← inserted "task_progress_events" (db.events.insertAll (derived.map (eventRow r week)))
  .ok
    { db := { db with snapshots, states, events }
      snapshotsCreated := s.snapshotsCreated + if isChanged current r week then 1 else 0
      eventsCreated := s.eventsCreated + derived.length }

/-- What recording an observation does when no constraint refuses it. -/
theorem recordObservation_cases {s s' : Session} {r : Reading} : recordObservation s r = .ok s' ↔
    ∃ db week snapshots states events, workWeek s.db r = .ok (db, week) ∧
      storeSnapshot db r week = .ok snapshots ∧
      storeState db r week ((derivedFrom (currentState db r.issue) r).any (·.structuredProgress)) = .ok states ∧
      db.events.insertAll ((derivedFrom (currentState db r.issue) r).map (eventRow r week)) = some events ∧
      s' =
        { db := { db with snapshots, states, events }
          snapshotsCreated := s.snapshotsCreated + if isChanged (currentState db r.issue) r week then 1 else 0
          eventsCreated := s.eventsCreated + (derivedFrom (currentState db r.issue) r).length } := by
  simp only [recordObservation, except_bind_ok, Prod.exists, inserted_ok]
  constructor
  · intro h'
    obtain ⟨db, week, hweek, snapshots, hsnap, states, hstate, events, hev, hs⟩ := h'
    cases hs
    exact ⟨db, week, snapshots, states, events, hweek, hsnap, hstate, hev, rfl⟩
  · intro h'
    obtain ⟨db, week, snapshots, states, events, hweek, hsnap, hstate, hev, rfl⟩ := h'
    exact ⟨db, week, hweek, snapshots, hsnap, states, hstate, events, hev, rfl⟩

structure ProgressPersistenceResult where
  observed : Nat
  snapshotsCreated : Nat
  eventsCreated : Nat
  deriving DecidableEq, Repr

/-- The arguments of one call of `record_observations`. -/
structure Batch where
  environment : String
  observations : List TaskProgressObservation
  zone : ZoneInfo

def Batch.readings (b : Batch) : List Reading := b.observations.map (⟨b.environment, b.zone, ·⟩)

def recordObservations (db : Database) (b : Batch) : Except Error (Database × ProgressPersistenceResult) := do
  let s ← b.readings.foldlM recordObservation ⟨db, 0, 0⟩
  .ok (s.db, ⟨b.observations.length, s.snapshotsCreated, s.eventsCreated⟩)

/-! ## What a call reports -/

/-- The counts of a session are the rows it has added to the tables of `db`. -/
structure Counts (db : Database) (s : Session) : Prop where
  snapshots : s.db.snapshots.rows.length = db.snapshots.rows.length + s.snapshotsCreated
  events : s.db.events.rows.length = db.events.rows.length + s.eventsCreated

theorem storeSnapshot_length {db : Database} {r : Reading} {week : WorkWeek} {t : Table TaskProgressSnapshot}
    (h : storeSnapshot db r week = .ok t) :
    t.rows.length = db.snapshots.rows.length + if isChanged (currentState db r.issue) r week then 1 else 0 := by
  unfold storeSnapshot at h
  split at h
  · rw [Table.insert_rows (inserted_ok.mp h), List.length_append, if_pos (by assumption)]
    rfl
  · cases h
    rw [if_neg (by assumption), Nat.add_zero]

theorem recordObservation_counts {db : Database} {s s' : Session} {r : Reading} (hc : Counts db s)
    (h : recordObservation s r = .ok s') : Counts db s' := by
  obtain ⟨db₁, week, snapshots, states, events, hw, hsnap, _, hev, rfl⟩ := recordObservation_cases.mp h
  have hdb := workWeek_tables hw
  constructor
  · show snapshots.rows.length = _
    rw [storeSnapshot_length hsnap, show db₁.snapshots = s.db.snapshots by rw [hdb], hc.snapshots, Nat.add_assoc]
  · show events.rows.length = _
    rw [Table.insertAll_rows hev, List.length_append, List.length_map, show db₁.events = s.db.events by rw [hdb],
      hc.events, Nat.add_assoc]

/-- A call that commits has observed its whole batch, and counts the rows it stored. -/
theorem recordObservations_counts {db db' : Database} {b : Batch} {result : ProgressPersistenceResult}
    (h : recordObservations db b = .ok (db', result)) : result.observed = b.observations.length ∧
      db'.snapshots.rows.length = db.snapshots.rows.length + result.snapshotsCreated ∧
      db'.events.rows.length = db.events.rows.length + result.eventsCreated := by
  obtain ⟨s, hs, h⟩ := except_bind_ok.mp h
  cases h
  have hc : Counts db s := foldlM_keeps (R := fun _ s => Counts db s)
    (fun _ _ _ _ hc h => recordObservation_counts hc h) [] ⟨rfl, rfl⟩ hs
  exact ⟨rfl, hc.snapshots, hc.events⟩

end

end WorkforceRisk.Progress
