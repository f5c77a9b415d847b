/-
  WorkforceRisk.Progress.Uniqueness — which histories of batches the unique constraints
  let through.

  A snapshot is stored when the evidence differs from the task's last reading, an event
  when it lies between the last two; uniqueness is over the whole week, and over all
  events ever stored. So a task that comes back to an earlier state in one work week is
  refused, and so is an event derived twice from one `jira_updated_at`
  (`restamps_iff`); the refusal rolls back its batch (`batches_commit_iff`). A state read
  again at once is never refused, and stores nothing (`repeated_adds_nothing`).
-/

import WorkforceRisk.Progress.History

namespace WorkforceRisk.Progress

open Lib Persistence

section
variable [Sha256]

/-- One reading, in a call of its own. -/
def record (db : Database) (r : Reading) : Except Error Database := (recordObservation ⟨db, 0, 0⟩ r).map Session.db

theorem recordObservation_db (s : Session) (r : Reading) : (recordObservation s r).map Session.db = record s.db r := by
  unfold record recordObservation
  cases workWeek s.db r with
  | error e => rfl
  | ok p =>
    simp only [bind, Except.bind]
    cases storeSnapshot p.1 r p.2 with
    | error e => rfl
    | ok snapshots =>
      simp only
      split
      · rfl
      · split <;> rfl

/-- A call folds `record` over its observations. -/
theorem recordObservations_stepwise : Transaction.Stepwise recordObservations record Batch.readings := by
  intro db b
  rw [show db = Session.db ⟨db, 0, 0⟩ from rfl, ← foldlM_on_part Session.db recordObservation_db]
  unfold recordObservations
  cases b.readings.foldlM recordObservation ⟨db, 0, 0⟩ with
  | error e => rfl
  | ok s => rfl

variable {before : List Reading} {db db' : Database} {r : Reading}

theorem record_ok {s : Session} (h : record s.db r = .ok db') : ∃ s', recordObservation s r = .ok s' ∧ s'.db = db' := by
  rw [← recordObservation_db] at h
  cases hs : recordObservation s r with
  | error e => rw [hs] at h; cases h
  | ok s' =>
    rw [hs] at h
    cases h
    exact ⟨s', rfl, rfl⟩

theorem record_keeps (h : Represents before db) (hr : record db r = .ok db') : Represents (before ++ [r]) db' := by
  obtain ⟨s', hs', rfl⟩ := record_ok (s := ⟨db, 0, 0⟩) hr
  exact recordObservation_keeps h hs'

theorem record_ok_iff (h : Represents before db) :
    (∃ db', record db r = .ok db') ↔ ¬ Returns before r ∧ ¬ Restamps before r := by
  rw [← recordObservation_ok_iff (s := ⟨db, 0, 0⟩) h]
  constructor
  · intro h'
    obtain ⟨db', hr⟩ := h'
    obtain ⟨s', hs', _⟩ := record_ok (s := ⟨db, 0, 0⟩) hr
    exact ⟨s', hs'⟩
  · intro h'
    obtain ⟨s', hs'⟩ := h'
    exact ⟨s'.db, by rw [record, hs']; rfl⟩

theorem eventFingerprint_inj (hinj : Function.Injective Sha256.material) {a b : Reading} {e f : DerivedProgressEvent} :
    a.eventFingerprint e = b.eventFingerprint f ↔
      a.environment = b.environment ∧ a.observation.issueKey = b.observation.issueKey ∧
        a.observation.jiraUpdatedAt.isoformat = b.observation.jiraUpdatedAt.isoformat ∧
        e.eventType = f.eventType ∧ e.oldValue = f.oldValue ∧ e.newValue = f.newValue := by
  unfold Reading.eventFingerprint
  rw [hinj.eq_iff]
  simp only [Json.obj.injEq, Json.str.injEq, List.cons.injEq, Prod.mk.injEq, true_and, and_true,
    ProgressEventType.value_injective.eq_iff]
  -- the members of the material are in the order of their keys
  exact ⟨fun ⟨henv, htype, hkey, hnew, hat, hold⟩ => ⟨henv, hkey, hat, htype, hold, hnew⟩,
    fun ⟨henv, hkey, hat, htype, hold, hnew⟩ => ⟨henv, htype, hkey, hnew, hat, hold⟩⟩

/-- Collisions of the digest apart, an event is stamped twice when its issue's field makes
    the same change at two readings with one `jira_updated_at`. -/
theorem restamps_iff (hinj : Function.Injective Sha256.material) {now : Reading} :
    Restamps before now ↔ ∃ first a rest, before = first ++ a :: rest ∧ a.environment = now.environment ∧
      a.observation.issueKey = now.observation.issueKey ∧
      a.observation.jiraUpdatedAt.isoformat = now.observation.jiraUpdatedAt.isoformat ∧
      ∃ e ∈ derivedAt first a, ∃ f ∈ derivedAt before now,
        e.eventType = f.eventType ∧ e.oldValue = f.oldValue ∧ e.newValue = f.newValue := by
  have hnodup : (digestsAt before now).Nodup := by
    have htypes : ((derivedAt before now).map DerivedProgressEvent.eventType).Nodup := by
      unfold derivedAt
      split
      · exact List.nodup_nil
      · exact deriveProgressEvents_types _ _
    refine List.pairwise_map.mpr ((List.pairwise_map.mp htypes).imp fun hne heq => hne ?_)
    exact ((eventFingerprint_inj hinj).mp heq).2.2.2.1
  unfold Restamps Stamped
  rw [or_iff_right (not_not.mpr hnodup)]
  constructor
  · intro h
    obtain ⟨d, hd, first, a, rest, hsplit, henv, ha⟩ := h
    obtain ⟨f, hf, rfl⟩ := List.mem_map.mp hd
    obtain ⟨e, he, heq⟩ := List.mem_map.mp ha
    obtain ⟨_, hkey, hat, hsame⟩ := (eventFingerprint_inj hinj).mp heq
    exact ⟨first, a, rest, hsplit, henv, hkey, hat, e, he, f, hf, hsame⟩
  · intro h
    obtain ⟨first, a, rest, hsplit, henv, hkey, hat, e, he, f, hf, hsame⟩ := h
    refine ⟨_, List.mem_map_of_mem hf, first, a, rest, hsplit, henv, List.mem_map.mpr ⟨e, he, ?_⟩⟩
    exact (eventFingerprint_inj hinj).mpr ⟨henv, hkey, hat, hsame⟩

/-- The same state of a task, read again in its week, stores no snapshot and no event. -/
theorem repeated_adds_nothing (h : Represents before db) {p : Reading} (hp : lastOf before r.issue = some p)
    (hweek : p.weekStart = r.weekStart) (hobs : r.observation = { p.observation with
      capturedAt := r.observation.capturedAt, jiraUpdatedAt := r.observation.jiraUpdatedAt }) :
    ∃ db', record db r = .ok db' ∧ db'.snapshots = db.snapshots ∧ db'.events = db.events := by
  obtain ⟨db₁, week, hw, hdb, hmem, hr⟩ := workWeek_ok h r
  have hsame : p.SameEvidence r := by
    refine ⟨(lastOf_mem hp).2, hweek, ?_⟩
    rw [hobs]
    rfl
  have hnone : derivedFrom (currentState db₁ r.issue) r = [] := by
    rw [derivedFrom_eq hdb, derivedAt, hp, hobs]
    exact deriveProgressEvents_same _ _ _
  have hunchanged : storeSnapshot db₁ r week = .ok db₁.snapshots := by
    rw [storeSnapshot, if_neg]
    exact fun hch => (isChanged_iff hdb hmem hr).mp hch p hp hsame
  obtain ⟨states, hstates, _⟩ := storeState_ok db₁ week r false
  have hrec := recordObservation_cases (s := ⟨db, 0, 0⟩) |>.mpr
    ⟨db₁, week, db₁.snapshots, states, db₁.events, hw, hunchanged, by rw [hnone]; exact hstates,
      by rw [hnone]; rfl, rfl⟩
  refine ⟨_, by rw [record, hrec]; rfl, ?_, ?_⟩
  · rw [workWeek_tables hw]
  · rw [workWeek_tables hw]

/-- Every batch of a history commits exactly when no observation of it returns to an
    earlier state of its week and no event is stamped twice. -/
theorem batches_commit_iff (batches : List Batch) :
    Transaction.AllCommit recordObservations .empty batches ↔
      ∀ before now after, batches.flatMap Batch.readings = before ++ now :: after →
        ¬ Returns before now ∧ ¬ Restamps before now := by
  rw [Transaction.all_commit_iff recordObservations_stepwise]
  exact foldlM_ok_iff (fun _ _ _ _ h hr => record_keeps h hr) (fun _ _ _ h => record_ok_iff h) represents_empty

end

/-! ## A task back in an earlier state -/

def sampleObservation (status : String) (at_ : DateTime) (h : 1 ≤ status.length ∧ status.length ≤ 128) :
    TaskProgressObservation :=
  { projectKey := "WFD"
    issueKey := "WFD-5"
    assigneeId := some "jira-account-1"
    capturedAt := ⟨at_, 0⟩
    jiraUpdatedAt := ⟨at_, 0⟩
    status
    originalEstimateHours := none
    remainingEstimateHours := none
    timeSpentHours := none
    dueDate := none
    priority := none
    blocked := false
    blockerIssueKeys := []
    projectKey_ok := by decide
    issueKey_ok := by decide
    status_length := h }

def sampleBatch (status : String) (at_ : DateTime) (h : 1 ≤ status.length ∧ status.length ≤ 128) : Batch :=
  ⟨"dev", [sampleObservation status at_ h], fun _ => hours 3⟩

theorem testing_length : 1 ≤ "Testing".length ∧ "Testing".length ≤ 128 := by decide

theorem review_length : 1 ≤ "Review".length ∧ "Review".length ≤ 128 := by decide

/-- In Testing on a Monday, in Review on Tuesday, back in Testing on Wednesday. -/
def sampleReturn : List Batch :=
  [ sampleBatch "Testing" 1787558100000000 testing_length,
    sampleBatch "Review" 1787644500000000 review_length,
    sampleBatch "Testing" 1787730900000000 testing_length ]

/-- The third reading is lost: its snapshot has the key of the first. -/
theorem returning_task_refused :
    letI := Sha256.transparent
    ¬ ∀ batches : List Batch, Transaction.AllCommit recordObservations .empty batches := by
  let _ := Sha256.transparent
  intro h
  have hlost : .error (.integrityError "task_progress_snapshots") ∈
      Transaction.outcomes recordObservations .empty sampleReturn := by decide +kernel
  obtain ⟨_, hr⟩ := h sampleReturn _ hlost
  cases hr

end WorkforceRisk.Progress
