/-
  WorkforceRisk.Progress.Loaded — the history a reader is given
  (packages/persistence/src/workforce_persistence/progress_repository.py:
  `load_history_records`; services/agent-api/src/agent_api/progress_history.py:
  `DatabaseProgressHistoryReader`).

  The newest events of a project up to the limit, and in what is left of it the newest
  snapshots. Nothing orders the events of one reading, which have one time; the database
  may give rows of one time in any order (`LoadsHistory`). Times are instants here, not
  their ISO texts.

  Proved: where the limit cuts nothing off, what is loaded is enough to rebuild the current
  state of every task whose readings came in order (`loaded_history_rebuilds`): the oldest
  snapshot and the events after it, oldest first (`rebuilt`).
-/

import Mathlib.Data.List.Flatten
import WorkforceRisk.Lib.Ordering
import WorkforceRisk.Progress.Replay

namespace WorkforceRisk.Progress

open Lib Persistence

/-! ## Records -/

structure ProgressEventRecord where
  issueKey : String
  employeeReference : Option String
  eventType : ProgressEventType
  occurredAt : DateTime
  oldValue : Json
  newValue : Json
  source : String

structure TaskSnapshotRecord where
  issueKey : String
  employeeReference : Option String
  capturedAt : DateTime
  jiraUpdatedAt : DateTime
  status : String
  originalEstimateHours : Option Hours
  remainingEstimateHours : Option Hours
  timeSpentHours : Option Hours
  dueDate : Option Date
  priority : Option String
  blocked : Bool
  blockerIssueKeys : List String
  source : String

inductive HistoryRecord where
  | progressEvent (record : ProgressEventRecord)
  | taskSnapshot (record : TaskSnapshotRecord)

def eventRecord (row : TaskProgressEvent) : ProgressEventRecord :=
  { issueKey := row.issueKey
    employeeReference := row.employeeId
    eventType := row.eventType
    occurredAt := row.occurredAt
    oldValue := row.oldValue
    newValue := row.newValue
    source := row.source }

def snapshotRecord (row : TaskProgressSnapshot) : TaskSnapshotRecord :=
  { issueKey := row.observation.issueKey
    employeeReference := row.observation.assigneeId
    capturedAt := row.observation.capturedAt.instant
    jiraUpdatedAt := row.observation.jiraUpdatedAt.instant
    status := row.observation.status
    originalEstimateHours := row.observation.originalEstimateHours
    remainingEstimateHours := row.observation.remainingEstimateHours
    timeSpentHours := row.observation.timeSpentHours
    dueDate := row.observation.dueDate
    priority := row.observation.priority
    blocked := row.observation.blocked
    blockerIssueKeys := row.observation.blockerIssueKeys
    source := row.source }

/-! ## Loading -/

/-- `max(1, min(limit, 500))`. -/
def boundedLimit (limit : Int) : Nat := (max 1 (min limit 500)).toNat

def TaskProgressSnapshot.capturedAt (s : TaskProgressSnapshot) : DateTime := s.observation.capturedAt.instant

def projectEvents (db : Database) (environment projectKey : String) : List TaskProgressEvent :=
  db.events.rows.filter fun e => e.environment == environment && e.projectKey == projectKey

def projectSnapshots (db : Database) (environment projectKey : String) : List TaskProgressSnapshot :=
  db.snapshots.rows.filter fun s => s.environment == environment && s.observation.projectKey == projectKey

/-- The answers of `load_history_records`. -/
def LoadsHistory (db : Database) (environment projectKey : String) (limit : Int) (records : List HistoryRecord) : Prop :=
  ∃ events snapshots,
    IsNewest TaskProgressEvent.occurredAt (projectEvents db environment projectKey) (boundedLimit limit) events ∧
    IsNewest TaskProgressSnapshot.capturedAt (projectSnapshots db environment projectKey)
      (boundedLimit limit - events.length) snapshots ∧
    records = events.map (.progressEvent <| eventRecord ·) ++ snapshots.map (.taskSnapshot <| snapshotRecord ·)

/-- The answer that leaves rows of one time as they were stored. -/
def loadHistoryRecords (db : Database) (environment projectKey : String) (limit : Int) : List HistoryRecord :=
  let events := (sortOn (fun e => OrderDual.toDual e.occurredAt) (projectEvents db environment projectKey)).take
    (boundedLimit limit)
  let remaining := boundedLimit limit - events.length
  let snapshots := (sortOn (fun s => OrderDual.toDual s.capturedAt) (projectSnapshots db environment projectKey)).take
    remaining
  events.map (.progressEvent <| eventRecord ·) ++ snapshots.map (.taskSnapshot <| snapshotRecord ·)

theorem sortOn_newest {α : Type} {key : α → DateTime} {rows : List α} {n : Nat} :
    IsNewest key rows n ((sortOn (fun a => OrderDual.toDual (key a)) rows).take n) :=
  ⟨_, sortOn_perm _ rows, sortOn_pairwise (fun a => OrderDual.toDual (key a)) rows, rfl⟩

theorem loadHistoryRecords_loads (db : Database) (environment projectKey : String) (limit : Int) :
    LoadsHistory db environment projectKey limit (loadHistoryRecords db environment projectKey limit) :=
  ⟨_, _, sortOn_newest, sortOn_newest, rfl⟩

/-! ## Rebuilding a task -/

def TaskSnapshotRecord.view (s : TaskSnapshotRecord) : TaskField → Json
  | .assignee => .opt .str s.employeeReference
  | .status => .str s.status
  | .originalEstimate => hoursJson s.originalEstimateHours
  | .remainingEstimate => hoursJson s.remainingEstimateHours
  | .timeSpent => hoursJson s.timeSpentHours
  | .dueDate => dateJson s.dueDate
  | .priority => .opt .str s.priority
  | .blockers => .strs (sortedSet s.blockerIssueKeys)

/-- What a record says changed on the task. -/
def HistoryRecord.change? (issueKey : String) : HistoryRecord → Option (Change TaskField Json)
  | .progressEvent e => if e.issueKey = issueKey then some ⟨e.eventType.field, e.oldValue, e.newValue⟩ else none
  | .taskSnapshot _ => none

/-- The state of the task a record shows. -/
def HistoryRecord.view? (issueKey : String) : HistoryRecord → Option (TaskField → Json)
  | .progressEvent _ => none
  | .taskSnapshot s => if s.issueKey = issueKey then some s.view else none

/-- The task's oldest snapshot, and on it the events from the oldest on. -/
def rebuilt (records : List HistoryRecord) (issueKey : String) : Option (TaskField → Json) :=
  (records.filterMap (·.view? issueKey)).getLast?.bind fun first =>
    replay first (records.filterMap (·.change? issueKey)).reverse

theorem filterMap_change (events : List TaskProgressEvent) (snapshots : List TaskProgressSnapshot) (issueKey : String) :
    (events.map (HistoryRecord.progressEvent <| eventRecord ·) ++
        snapshots.map (HistoryRecord.taskSnapshot <| snapshotRecord ·)).filterMap (·.change? issueKey) =
      (events.filter (·.issueKey == issueKey)).map TaskProgressEvent.change := by
  have hsnapshots : (snapshots.map (HistoryRecord.taskSnapshot <| snapshotRecord ·)).filterMap
      (·.change? issueKey) = [] := by
    rw [List.filterMap_eq_nil_iff]
    intro record hr
    obtain ⟨s, _, rfl⟩ := List.mem_map.mp hr
    rfl
  rw [List.filterMap_append, hsnapshots, List.append_nil]
  induction events with
  | nil => rfl
  | cons e events ih =>
    rw [List.map_cons, List.filterMap_cons, ih]
    by_cases h : e.issueKey = issueKey
    · rw [List.filter_cons_of_pos (by simpa using h)]
      simp [HistoryRecord.change?, eventRecord, h, TaskProgressEvent.change]
    · rw [List.filter_cons_of_neg (by simpa using h)]
      simp [HistoryRecord.change?, eventRecord, h]

theorem filterMap_view (events : List TaskProgressEvent) (snapshots : List TaskProgressSnapshot) (issueKey : String) :
    (events.map (HistoryRecord.progressEvent <| eventRecord ·) ++
        snapshots.map (HistoryRecord.taskSnapshot <| snapshotRecord ·)).filterMap (·.view? issueKey) =
      (snapshots.filter (·.observation.issueKey == issueKey)).map (·.observation.view) := by
  have hevents : (events.map (HistoryRecord.progressEvent <| eventRecord ·)).filterMap (·.view? issueKey) = [] := by
    rw [List.filterMap_eq_nil_iff]
    intro record hr
    obtain ⟨e, _, rfl⟩ := List.mem_map.mp hr
    rfl
  rw [List.filterMap_append, hevents, List.nil_append]
  induction snapshots with
  | nil => rfl
  | cons s snapshots ih =>
    have hview : (snapshotRecord s).view = s.observation.view := by
      funext f
      cases f <;> rfl
    rw [List.map_cons, List.filterMap_cons, ih]
    by_cases h : s.observation.issueKey = issueKey
    · rw [List.filter_cons_of_pos (by simpa using h)]
      simp [HistoryRecord.view?, snapshotRecord, h, ← hview]
    · rw [List.filter_cons_of_neg (by simpa using h)]
      simp [HistoryRecord.view?, snapshotRecord, h]

/-! ## Readings in order -/

/-- The readings of a task come as they were captured, and Jira gives its states times
    that never go back, and that no two states share. -/
def InTime (readings : List Reading) : Prop :=
  readings.Pairwise fun a b => a.capturedAt < b.capturedAt ∧ a.jiraUpdatedAt ≤ b.jiraUpdatedAt ∧
    (a.jiraUpdatedAt = b.jiraUpdatedAt → SameState a.observation b.observation)

theorem notedAt_time {p r : Reading} {x : Noted} (h : x ∈ notedAt p r) : x.1 = r.jiraUpdatedAt := by
  obtain ⟨e, _, rfl⟩ := List.mem_map.mp h
  rfl

/-- What is noted of a task comes after its state before. -/
theorem noted_later : ∀ {rest : List Reading} {p : Reading}, InTime (p :: rest) →
    ∀ group ∈ notedFrom p rest, ∀ x ∈ group, p.jiraUpdatedAt < x.1 := by
  intro rest
  induction rest with
  | nil => intro p _ group hg; cases hg
  | cons r rest ih =>
    intro p h group hg x hx
    obtain ⟨hp, hrest⟩ := List.pairwise_cons.mp h
    obtain ⟨_, hle, hsame⟩ := hp r List.mem_cons_self
    rcases List.mem_cons.mp hg with rfl | hg
    · rw [notedAt_time hx]
      refine lt_of_le_of_ne hle fun heq => ?_
      rw [notedAt, deriveProgressEvents_nil.mpr (hsame heq)] at hx
      cases hx
    · exact lt_of_le_of_lt hle (ih hrest group hg x hx)

theorem noted_timed :
    ∀ {rest : List Reading} {p : Reading}, InTime (p :: rest) → Timed Prod.fst (notedFrom p rest) := by
  intro rest
  induction rest with
  | nil =>
    intro p _
    exact ⟨fun group hg => (nomatch hg), List.Pairwise.nil⟩
  | cons r rest ih =>
    intro p h
    have hrest := (List.pairwise_cons.mp h).2
    obtain ⟨hsame, hlater⟩ := ih hrest
    refine ⟨fun group hg x hx y hy => ?_, List.pairwise_cons.mpr ⟨fun group hg x hx y hy => ?_, hlater⟩⟩
    · rcases List.mem_cons.mp hg with rfl | hg
      · rw [notedAt_time hx, notedAt_time hy]
      · exact hsame group hg x hx y hy
    · rw [notedAt_time hx]
      exact noted_later hrest group hg y hy

/-! ## The snapshots of a task -/

/-- The snapshots of a task, in the order they were stored. -/
def snapshotsOf (db : Database) (issue : Issue) : List TaskProgressSnapshot := db.snapshots.rows.filter (·.issue == issue)

theorem snapshotsOf_head (db : Database) (issue : Issue) : (snapshotsOf db issue).head? = firstSnapshot db issue :=
  List.head?_filter ..

section
variable [Sha256] {before : List Reading} {db db' : Database} {r : Reading}

/-- They are those of some of its readings. -/
def SnapshotsOf (before : List Reading) (db : Database) : Prop :=
  ∀ issue, ((snapshotsOf db issue).map (·.observation)).Sublist ((readingsOf before issue).map (·.observation))

theorem storeSnapshot_of {snapshots : Table TaskProgressSnapshot} {week : WorkWeek} (h : SnapshotsOf before db)
    (hsnap : storeSnapshot db r week = .ok snapshots) (issue : Issue) :
    ((snapshots.rows.filter (·.issue == issue)).map (·.observation)).Sublist
      ((readingsOf (before ++ [r]) issue).map (·.observation)) := by
  have hstill := h issue
  have hgrows : ((snapshotsOf db issue).map (·.observation)).Sublist
      ((readingsOf (before ++ [r]) issue).map (·.observation)) := by
    refine hstill.trans (List.Sublist.map _ ?_)
    rw [readingsOf_snoc]
    exact List.sublist_append_left _ _
  unfold storeSnapshot at hsnap
  split at hsnap
  · rw [Table.insert_rows (inserted_ok.mp hsnap), List.filter_append]
    by_cases hi : r.issue = issue
    · rw [readingsOf_snoc, if_pos hi, List.map_append, List.map_append]
      refine hstill.append ?_
      rw [List.filter_cons_of_pos (by exact beq_iff_eq.mpr hi)]
      exact List.Sublist.refl _
    · rw [List.filter_cons_of_neg (by exact fun he => hi (beq_iff_eq.mp he)), List.filter_nil, List.append_nil]
      exact hgrows
  · cases hsnap
    exact hgrows

theorem record_snapshots (h : Represents before db ∧ SnapshotsOf before db) (hr : record db r = .ok db') :
    Represents (before ++ [r]) db' ∧ SnapshotsOf (before ++ [r]) db' := by
  refine ⟨record_keeps h.1 hr, fun issue => ?_⟩
  obtain ⟨s', hs', rfl⟩ := record_ok (s := ⟨db, 0, 0⟩) hr
  obtain ⟨db₁, week, snapshots, states, events, hweek, hsnap, _, _, rfl⟩ := recordObservation_cases.mp hs'
  have hsame : SnapshotsOf before db₁ := by
    rw [workWeek_tables hweek]
    exact h.2
  exact storeSnapshot_of hsame hsnap issue

theorem snapshots_after (batches : List Batch) :
    SnapshotsOf (recorded batches) (Transaction.after recordObservations .empty batches) :=
  (Transaction.after_keeps (R := fun before db => Represents before db ∧ SnapshotsOf before db)
    recordObservations_stepwise (fun _ _ _ _ h hr => record_snapshots h hr)
    ⟨represents_empty, fun _ => List.Sublist.refl _⟩ batches).2

end

/-! ## What is loaded -/

theorem project_events_of (db : Database) (environment projectKey issueKey : String) :
    (projectEvents db environment projectKey).filter (·.issueKey == issueKey) =
      eventsOf db (environment, projectKey, issueKey) := by
  rw [projectEvents, List.filter_filter, eventsOf]
  refine List.filter_congr fun e _ => ?_
  rw [Bool.eq_iff_iff]
  simp only [TaskProgressEvent.issue, Bool.and_eq_true, beq_iff_eq, Prod.mk.injEq]
  tauto

theorem project_snapshots_of (db : Database) (environment projectKey issueKey : String) :
    (projectSnapshots db environment projectKey).filter (·.observation.issueKey == issueKey) =
      snapshotsOf db (environment, projectKey, issueKey) := by
  rw [projectSnapshots, List.filter_filter, snapshotsOf]
  refine List.filter_congr fun s _ => ?_
  rw [Bool.eq_iff_iff]
  simp only [TaskProgressSnapshot.issue, Bool.and_eq_true, beq_iff_eq, Prod.mk.injEq]
  tauto

section
variable [Sha256]

/-- An answer that has every snapshot has the first of a task as its oldest. -/
theorem oldest_view {batches : List Batch} {environment projectKey issueKey : String} {n : Nat}
    {snapshots : List TaskProgressSnapshot}
    (h : IsNewest TaskProgressSnapshot.capturedAt
      (projectSnapshots (Transaction.after recordObservations .empty batches) environment projectKey) n snapshots)
    (hn : (projectSnapshots (Transaction.after recordObservations .empty batches) environment projectKey).length ≤ n)
    (ht : InTime (readingsOf (recorded batches) (environment, projectKey, issueKey))) :
    ((snapshots.filter (·.observation.issueKey == issueKey)).map (·.observation.view)).getLast? =
      (firstSnapshot (Transaction.after recordObservations .empty batches) (environment, projectKey, issueKey)).map
        (·.observation.view) := by
  have hof := snapshots_after batches (environment, projectKey, issueKey)
  have hcaptured : ((readingsOf (recorded batches) (environment, projectKey, issueKey)).map (·.observation)).Pairwise
      fun a b => a.capturedAt.instant < b.capturedAt.instant := List.pairwise_map.mpr (ht.imp fun hab => hab.1)
  have hordered : (snapshotsOf (Transaction.after recordObservations .empty batches)
      (environment, projectKey, issueKey)).Pairwise fun a b => a.capturedAt < b.capturedAt := by
    have hsub := List.pairwise_map.mp (hcaptured.sublist hof)
    exact hsub
  rw [← project_snapshots_of] at hordered
  rw [← snapshotsOf_head, ← project_snapshots_of, ← h.selected hn hordered, List.head?_reverse, List.getLast?_map]

/-- The events that are loaded of a task, oldest first, lead from its first reading to its
    last. -/
theorem loaded_replays {batches : List Batch} {environment projectKey issueKey : String} {n : Nat}
    {events : List TaskProgressEvent} {first : Reading} {rest : List Reading}
    (h : IsNewest TaskProgressEvent.occurredAt
      (projectEvents (Transaction.after recordObservations .empty batches) environment projectKey) n events)
    (hn : (projectEvents (Transaction.after recordObservations .empty batches) environment projectKey).length ≤ n)
    (hl : readingsOf (recorded batches) (environment, projectKey, issueKey) = first :: rest)
    (ht : InTime (first :: rest)) :
    replay first.observation.view
        ((events.filter (·.issueKey == issueKey)).map TaskProgressEvent.change).reverse =
      some (rest.getLast?.getD first).observation.view := by
  have hnoted := (chronicles_after batches).events (environment, projectKey, issueKey)
  rw [hl, ← project_events_of] at hnoted
  have hperm : ((events.filter (·.issueKey == issueKey)).reverse.map TaskProgressEvent.noted).Perm
      (notedFrom first rest).flatten := by
    refine ((List.reverse_perm _).map _).trans ?_
    refine (((h.perm hn).filter _).map _).trans (List.Perm.of_eq ?_)
    exact hnoted
  have hsorted : ((events.filter (·.issueKey == issueKey)).reverse.map TaskProgressEvent.noted).Pairwise fun x y =>
      x.1 ≤ y.1 := List.pairwise_map.mpr (h.oldest_last _)
  have := (noted_leads rest first).replays_sorted (noted_timed ht) hperm hsorted
  rw [List.map_map] at this
  rw [← List.map_reverse]
  exact this

/-- After any run of batches, what is loaded of a project within the limit is enough to
    rebuild the current state of each of its tasks whose readings came in order. -/
theorem loaded_history_rebuilds {batches : List Batch} {environment projectKey issueKey : String} {limit : Int}
    {records : List HistoryRecord} {c : TaskCurrentState}
    (h : LoadsHistory (Transaction.after recordObservations .empty batches) environment projectKey limit records)
    (hfits : (projectEvents (Transaction.after recordObservations .empty batches) environment projectKey).length +
      (projectSnapshots (Transaction.after recordObservations .empty batches) environment projectKey).length ≤
        boundedLimit limit)
    (hc : currentState (Transaction.after recordObservations .empty batches) (environment, projectKey, issueKey) = some c)
    (ht : InTime (readingsOf (recorded batches) (environment, projectKey, issueKey))) :
    rebuilt records issueKey = some c.state.view := by
  obtain ⟨events, snapshots, hevents, hsnapshots, rfl⟩ := h
  have hall := hevents.perm (le_trans (Nat.le_add_right _ _) hfits)
  have hroom : (projectSnapshots (Transaction.after recordObservations .empty batches) environment projectKey).length ≤
      boundedLimit limit - events.length := by
    have := hall.length_eq
    omega
  have hchronicle := chronicles_after batches
  have hstate := hchronicle.represents.stateIs (environment, projectKey, issueKey)
  have hfirst := hchronicle.first (environment, projectKey, issueKey)
  rw [show lastOf (recorded batches) (environment, projectKey, issueKey) =
    (readingsOf (recorded batches) (environment, projectKey, issueKey)).getLast? from rfl] at hstate
  have holdest := oldest_view hsnapshots hroom ht
  cases hl : readingsOf (recorded batches) (environment, projectKey, issueKey) with
  | nil =>
    rw [hl] at hstate
    rw [show currentState _ _ = none from hstate] at hc
    cases hc
  | cons first rest =>
    rw [hl] at hfirst ht
    rw [hl, List.getLast?_cons] at hstate
    obtain ⟨c', hc', hstored, _⟩ := hstate
    rw [hc] at hc'
    cases hc'
    obtain ⟨s, hs, hso⟩ := Option.map_eq_some_iff.mp hfirst
    rw [hs] at holdest
    rw [rebuilt, filterMap_view, filterMap_change, holdest, hstored]
    show replay s.observation.view _ = _
    rw [show s.observation = first.observation from hso]
    exact loaded_replays hevents (le_trans (Nat.le_add_right _ _) hfits) hl ht

/-- Readings that were all in time are so whichever of them committed. -/
theorem inTime_recorded {batches : List Batch} (h : InTime (batches.flatMap Batch.readings)) (issue : Issue) :
    InTime (readingsOf (recorded batches) issue) := by
  have hsub : (recorded batches).Sublist (batches.flatMap Batch.readings) :=
    Transaction.committed_sublist.flatMap Batch.readings
  exact (h.sublist hsub).filter _

end

/-- A task in Testing on a Monday, and in Review on Tuesday. -/
def sampleMoves : List Batch :=
  [sampleBatch "Testing" 1787558100000000 testing_length, sampleBatch "Review" 1787644500000000 review_length]

theorem sampleMoves_inTime : InTime (sampleMoves.flatMap Batch.readings) := by
  exact List.pairwise_pair.mpr ⟨by decide, by decide, fun h => absurd h (by decide)⟩

theorem sample_rebuilds : letI := Sha256.transparent
    ∃ c, currentState (Transaction.after recordObservations .empty sampleMoves) ("dev", "WFD", "WFD-5") = some c ∧
      c.state.status = "Review" ∧
      rebuilt (loadHistoryRecords (Transaction.after recordObservations .empty sampleMoves) "dev" "WFD" 200) "WFD-5" =
        some c.state.view := by
  let _ := Sha256.transparent
  have run : (currentState (Transaction.after recordObservations .empty sampleMoves) ("dev", "WFD", "WFD-5")).map
      (·.state.status) = some "Review" := by decide +kernel
  obtain ⟨c, hc, hs⟩ := Option.map_eq_some_iff.mp run
  exact ⟨c, hc, hs, loaded_history_rebuilds (loadHistoryRecords_loads _ "dev" "WFD" 200) (by decide +kernel) hc
    (inTime_recorded sampleMoves_inTime _)⟩

end WorkforceRisk.Progress
