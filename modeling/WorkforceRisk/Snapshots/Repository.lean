/-
  WorkforceRisk.Snapshots.Repository — evidence stored with the results scored on it
  (packages/persistence/.../repositories.py: `SnapshotRepository.persist`).

  A call is one transaction. It looks for a snapshot under the identity of its evidence
  (environment, subject, fingerprint); only when there is none does it store the evidence
  and, under its id, the results. The fingerprint is that of the material evidence, so a
  later call with the same material and other results, or with the same results scored
  later, returns the first call's id and stores nothing
  (`rescored_evidence_loses_its_results`).

  A row of a result has no column for when it was scored. `StoredResult` keeps that beside
  the row, so that a row for one result is told from a row for the same result scored at
  another time; nothing that is computed reads it.

  Proved: after any calls, what is stored under an identity is what was stored there
  before, or else the results of the first call of them that committed with it
  (`contents_after`). So a call's results are stored under the id it returns exactly when
  nothing was, or each has the columns and the time of one that was (`results_stored_iff`).
-/

import WorkforceRisk.Lib.Transactions
import WorkforceRisk.Scans.Sink
import WorkforceRisk.Scoring.Common
import WorkforceRisk.Snapshots.Fingerprint

namespace WorkforceRisk.Snapshots

open Lib Persistence Risk
open Scans (RiskResultRecord)
open Scoring (ScoredResult)

inductive ScoreFamily where
  | employeeOverload
  | taskFit
  | projectDelivery
  deriving DecidableEq, Repr

def ScoreFamily.value : ScoreFamily → String
  | employeeOverload => "employee_overload"
  | taskFit => "task_fit"
  | projectDelivery => "project_delivery"

structure SnapshotRiskResult where
  scoreFamily : ScoreFamily
  result : ScoredResult

structure VersionedEvidenceSnapshot where
  evidence : EvidenceFingerprintInput
  riskResults : List SnapshotRiskResult

def VersionedEvidenceSnapshot.fingerprint [Sha256] (s : VersionedEvidenceSnapshot) : String := s.evidence.fingerprint

/-! ## Tables -/

/-- What `uq_evidence_snapshot_identity` is on. -/
structure Identity where
  environment : Environment
  subjectType : String
  subjectId : String
  fingerprint : String
  deriving DecidableEq

structure EvidenceSnapshot where
  id : Uuid
  environment : Environment
  createdAt : DateTime
  subjectType : String
  subjectId : String
  fingerprint : String
  evidence : List (String × Json)
  observedAt : DateTime
  deriving DecidableEq

def EvidenceSnapshot.identity (s : EvidenceSnapshot) : Identity :=
  ⟨s.environment, s.subjectType, s.subjectId, s.fingerprint⟩

instance : Keyed EvidenceSnapshot := .byIdAnd EvidenceSnapshot.id EvidenceSnapshot.identity

/-- A row of `risk_results`; and, in none of its columns, when the result it was added for was scored. -/
structure StoredResult where
  row : RiskResultRecord
  scoredAt : DateTime
  deriving DecidableEq

instance : Keyed StoredResult := .byUnique fun r => r.row.id

structure Database where
  snapshots : Table EvidenceSnapshot
  risks : Table StoredResult
  /-- The foreign key of `risk_results`. -/
  references : ∀ r ∈ risks.rows, ∃ s ∈ snapshots.rows, s.id = r.row.snapshotId

def Database.empty : Database := ⟨.empty, .empty, fun _ hr => absurd hr List.not_mem_nil⟩

/-- A snapshot, and the results that refer to it. -/
def Database.add (db : Database) (record : EvidenceSnapshot) (results : List StoredResult)
    (h : ∀ r ∈ results, r.row.snapshotId = record.id) : Except Error Database :=
  match hs : db.snapshots.insert record with
  | none => .error (.integrityError "evidence_snapshots")
  | some snapshots =>
    match hr : db.risks.insertAll results with
    | none => .error (.integrityError "risk_results")
    | some risks => .ok ⟨snapshots, risks, fun r hrow => by
        rw [Table.insertAll_rows hr] at hrow
        rcases List.mem_append.mp hrow with hrow | hrow
        · obtain ⟨s, hmem, hid⟩ := db.references r hrow
          exact ⟨s, (Table.mem_insert hs).mpr (.inl hmem), hid⟩
        · exact ⟨record, (Table.mem_insert hs).mpr (.inr rfl), (h r hrow).symm⟩⟩

/-! ## `persist` -/

/-- The arguments of a call, and what it draws: the snapshot's id, the ids of the results
    and the times of their rows. -/
structure Call where
  snapshot : VersionedEvidenceSnapshot
  subjectType : String
  serviceEnvironment : Option String
  id : Uuid
  createdAt : DateTime
  resultId : Nat → Uuid
  resultAt : Nat → DateTime

namespace Call

variable [Sha256]

def identity (c : Call) : Identity :=
  ⟨c.snapshot.evidence.environment, c.subjectType, c.snapshot.evidence.subjectId, c.snapshot.fingerprint⟩

def record (c : Call) : EvidenceSnapshot :=
  { id := c.id
    environment := c.snapshot.evidence.environment
    createdAt := c.createdAt
    subjectType := c.subjectType
    subjectId := c.snapshot.evidence.subjectId
    fingerprint := c.snapshot.fingerprint
    evidence := c.snapshot.evidence.canonicalMaterial ++
      [("evidence_timestamp", .str c.snapshot.evidence.evidenceTimestamp.isoformat)]
    observedAt := c.snapshot.evidence.evidenceTimestamp.instant }

omit [Sha256] in
def resultRecord (c : Call) (n : Nat) (r : SnapshotRiskResult) : RiskResultRecord :=
  { id := c.resultId n
    environment := c.snapshot.evidence.environment
    createdAt := c.resultAt n
    snapshotId := c.id
    scoreFamily := r.scoreFamily.value
    score := r.result.result.score
    level := r.result.result.level
    confidence := r.result.result.confidence
    scoringVersion := r.result.result.scoringModelVersion
    factors := r.result.result.factors
    thresholds := r.result.result.thresholds
    evidenceReferences := r.result.result.evidenceReferences
    missingEvidence := r.result.result.missingEvidence
    excludedEvidence := r.result.result.excludedEvidence }

omit [Sha256] in
def resultRecords (c : Call) : List StoredResult :=
  c.snapshot.riskResults.mapIdx fun n r => ⟨c.resultRecord n r, r.result.scoredAt.instant⟩

omit [Sha256] in
theorem resultRecords_refer (c : Call) : ∀ r ∈ c.resultRecords, r.row.snapshotId = c.id := by
  intro r hr
  obtain ⟨n, hn, rfl⟩ := List.mem_mapIdx.mp hr
  rfl

end Call

/-- A call, and what it leaves and returns. -/
def persist [Sha256] : Transaction Database Call Error Uuid := fun db c =>
  if c.serviceEnvironment.any (· != c.snapshot.evidence.environment.value) then
    .error (.valueError "snapshot environment mismatch")
  else match db.snapshots.find? (·.identity == c.identity) with
    | some existing => .ok (db, existing.id)
    | none => (db.add c.record c.resultRecords c.resultRecords_refer).map (·, c.id)

/-! ## What is stored of a result -/

/-- What tells a result: the columns it has, which is all of it but its subject, its
    environment and its times; and when it was scored. -/
structure ResultColumns where
  scoreFamily : String
  score : Option (Fin 101)
  level : Option RiskLevel
  confidence : ConfidenceLevel
  scoringVersion : String
  factors : List FactorContribution
  thresholds : List (String × Int)
  evidenceReferences : List String
  missingEvidence : List String
  excludedEvidence : List String
  scoredAt : DateTime
  deriving DecidableEq

def SnapshotRiskResult.columns (r : SnapshotRiskResult) : ResultColumns :=
  ⟨r.scoreFamily.value, r.result.result.score, r.result.result.level, r.result.result.confidence,
    r.result.result.scoringModelVersion, r.result.result.factors, r.result.result.thresholds,
    r.result.result.evidenceReferences, r.result.result.missingEvidence, r.result.result.excludedEvidence,
    r.result.scoredAt.instant⟩

def columnsOf (r : StoredResult) : ResultColumns :=
  ⟨r.row.scoreFamily, r.row.score, r.row.level, r.row.confidence, r.row.scoringVersion, r.row.factors,
    r.row.thresholds, r.row.evidenceReferences, r.row.missingEvidence, r.row.excludedEvidence, r.scoredAt⟩

def VersionedEvidenceSnapshot.columns (s : VersionedEvidenceSnapshot) : List ResultColumns :=
  s.riskResults.map SnapshotRiskResult.columns

/-- The results stored under an id. -/
def Database.resultsOf (db : Database) (id : Uuid) : List ResultColumns :=
  (db.risks.rows.filter (·.row.snapshotId == id)).map columnsOf

/-- The results stored under an identity, if evidence is. -/
def Database.contents (db : Database) (identity : Identity) : Option (List ResultColumns) :=
  (db.snapshots.find? (·.identity == identity)).map fun s => db.resultsOf s.id

/-- Every result of the snapshot is stored under the id. -/
def ResultsStored (db : Database) (id : Uuid) (s : VersionedEvidenceSnapshot) : Prop :=
  ∀ r ∈ s.riskResults, r.columns ∈ db.resultsOf id

instance (db : Database) (id : Uuid) (s : VersionedEvidenceSnapshot) : Decidable (ResultsStored db id s) :=
  inferInstanceAs (Decidable (∀ r ∈ _, _))

/-! ## What a call does -/

theorem add_ok {db db' : Database} {record : EvidenceSnapshot} {results : List StoredResult}
    {h : ∀ r ∈ results, r.row.snapshotId = record.id} (hadd : db.add record results h = .ok db') :
    db.snapshots.insert record = some db'.snapshots ∧ db.risks.insertAll results = some db'.risks := by
  unfold Database.add at hadd
  split at hadd
  · cases hadd
  · rename_i hs
    split at hadd
    · cases hadd
    · rename_i hr
      cases hadd
      exact ⟨hs, hr⟩

section
variable {db db' : Database} {c : Call} {id : Uuid}

theorem columns_resultRecords (c : Call) : c.resultRecords.map columnsOf = c.snapshot.columns := by
  unfold Call.resultRecords VersionedEvidenceSnapshot.columns
  refine List.ext_getElem (by simp) fun n _ _ => ?_
  simp [columnsOf, Call.resultRecord, SnapshotRiskResult.columns]

/-- The results stored under an id, after more were inserted. -/
theorem resultsOf_insertAll {results : List StoredResult} (h : db.risks.insertAll results = some db'.risks)
    (id : Uuid) : db'.resultsOf id = db.resultsOf id ++ (results.filter (·.row.snapshotId == id)).map columnsOf := by
  unfold Database.resultsOf
  rw [Table.insertAll_rows h, List.filter_append, List.map_append]

/-- Nothing refers to a snapshot that is not there. -/
theorem resultsOf_fresh {record : EvidenceSnapshot} {snapshots : Table EvidenceSnapshot}
    (h : db.snapshots.insert record = some snapshots) : db.resultsOf record.id = [] := by
  unfold Database.resultsOf
  rw [List.filter_eq_nil_iff.mpr, List.map_nil]
  intro r hr hid
  obtain ⟨s, hs, hsid⟩ := db.references r hr
  have hne := (not_clashes_byIdAnd.mp (Table.insert_fresh h s hs)).1
  exact hne (hsid.trans (by simpa using hid))

variable [Sha256]

theorem persist_cases (h : persist db c = .ok (db', id)) :
    (∃ s, db.snapshots.find? (·.identity == c.identity) = some s ∧ db' = db ∧ id = s.id) ∨
    (db.snapshots.find? (·.identity == c.identity) = none ∧ db.snapshots.insert c.record = some db'.snapshots ∧
      db.risks.insertAll c.resultRecords = some db'.risks ∧ id = c.id) := by
  unfold persist at h
  split at h
  · cases h
  · split at h
    · rename_i s hs
      cases h
      exact Or.inl ⟨s, hs, rfl, rfl⟩
    · rename_i hs
      cases hadd : db.add c.record c.resultRecords c.resultRecords_refer with
      | error e =>
        rw [hadd] at h
        cases h
      | ok added =>
        rw [hadd] at h
        cases h
        exact Or.inr ⟨hs, (add_ok hadd).1, (add_ok hadd).2, rfl⟩

/-- A call stores its results where nothing is stored, and changes nothing else. -/
theorem contents_persist (h : persist db c = .ok (db', id)) (identity : Identity) :
    db'.contents identity =
      (db.contents identity).or (if c.identity = identity then some c.snapshot.columns else none) := by
  obtain ⟨s, hs, rfl, -⟩ | ⟨hnone, hins, hall, -⟩ := persist_cases h
  · by_cases hk : c.identity = identity
    · have hsome : db'.contents identity = some (db'.resultsOf s.id) := by
        rw [Database.contents, ← hk, hs]
        rfl
      rw [hsome, Option.some_or]
    · rw [if_neg hk, Option.or_none]
  · unfold Database.contents
    rw [Table.find?_insert hins]
    by_cases hk : c.identity = identity
    · subst hk
      have hrecord : (c.record.identity == c.identity) = true := beq_self_eq_true _
      rw [hnone, hrecord, if_pos rfl, Option.none_or, if_pos rfl, Option.map_none, Option.none_or, Option.map_some,
        resultsOf_insertAll hall, resultsOf_fresh hins, List.nil_append, List.filter_eq_self.mpr, columns_resultRecords]
      intro r hr
      rw [c.resultRecords_refer r hr]
      exact beq_self_eq_true c.id
    · have hrecord : (c.record.identity == identity) = false := beq_false_of_ne hk
      rw [hrecord, if_neg hk, if_neg Bool.false_ne_true, Option.or_none, Option.or_none]
      refine Option.map_congr fun s hs => ?_
      -- the rows that were inserted refer to the new snapshot
      have hne : s.id ≠ c.id := (not_clashes_byIdAnd.mp (Table.insert_fresh hins s (Table.find?_mem hs))).1
      rw [resultsOf_insertAll hall, List.filter_eq_nil_iff.mpr, List.map_nil, List.append_nil]
      intro r hr hid
      exact hne ((by simpa using hid : r.row.snapshotId = s.id).symm.trans (c.resultRecords_refer r hr))

/-- The id a call returns is that of the evidence under its identity. -/
theorem contents_id (h : persist db c = .ok (db', id)) : db'.contents c.identity = some (db'.resultsOf id) := by
  obtain ⟨s, hs, rfl, rfl⟩ | ⟨hnone, hins, -, rfl⟩ := persist_cases h
  · rw [Database.contents, hs]
    rfl
  · have hrecord : (c.record.identity == c.identity) = true := beq_self_eq_true _
    rw [Database.contents, Table.find?_insert hins, hnone, hrecord]
    rfl

/-- After any calls an identity has what it had before, or the results of the first call
    with it that committed. -/
theorem contents_after (identity : Identity) (calls : List Call) : ∀ {db : Database},
    (Transaction.after persist db calls).contents identity = (db.contents identity).or
      (((Transaction.committed persist db calls).find? (·.identity == identity)).map (·.snapshot.columns)) := by
  induction calls with
  | nil => exact Option.or_none.symm
  | cons c calls ih =>
    intro db
    unfold Transaction.after Transaction.committed
    split
    · rename_i db' id hc
      rw [ih, contents_persist hc identity, Option.or_assoc]
      by_cases hk : c.identity = identity
      · rw [if_pos hk, List.find?_cons_of_pos (by simpa using hk), Option.some_or, Option.map_some]
      · rw [if_neg hk, List.find?_cons_of_neg (by simpa using hk), Option.none_or]
    · exact ih

/-- What is stored under an identity after calls on `db`. -/
def stored (db : Database) (calls : List Call) (identity : Identity) : Option (List ResultColumns) :=
  (db.contents identity).or
    (((Transaction.committed persist db calls).find? (·.identity == identity)).map (·.snapshot.columns))

/-- After any calls, the results of a call are stored under the id it returns exactly when
    none were stored under its identity, or each has the columns of one that was, and was
    scored when it was. -/
theorem results_stored_iff (start : Database) (calls : List Call) (c : Call) (db : Database) (id : Uuid)
    (h : persist (Transaction.after persist start calls) c = .ok (db, id)) :
    ResultsStored db id c.snapshot ↔ ∀ results ∈ stored start calls c.identity, ∀ r ∈ c.snapshot.riskResults,
      r.columns ∈ results := by
  have hstored := contents_id h
  rw [contents_persist h, if_pos rfl, contents_after] at hstored
  rw [ResultsStored, stored]
  cases hs : (start.contents c.identity).or (((Transaction.committed persist start calls).find?
      (·.identity == c.identity)).map (·.snapshot.columns)) with
  | none =>
    rw [hs, Option.none_or, Option.some.injEq] at hstored
    rw [← hstored]
    exact ⟨fun _ _ hr => (nomatch hr), fun _ _ => List.mem_map_of_mem⟩
  | some results =>
    rw [hs, Option.some_or, Option.some.injEq] at hstored
    rw [← hstored]
    exact ⟨fun hr _ hsome => Option.some.inj hsome ▸ hr, fun hr => hr results rfl⟩

end

/-- A call after others on nothing whose results are not stored under the id it returns. -/
def Loses [Sha256] (calls : List Call) (c : Call) : Prop :=
  ∃ db id, persist (Transaction.after persist .empty calls) c = .ok (db, id) ∧ ¬ ResultsStored db id c.snapshot

/-- The sample evidence, scored. -/
def sampleSnapshot (score : Fin 101) (level : RiskLevel) (scoredAt : DateTime) : VersionedEvidenceSnapshot where
  evidence := sampleEvidence (some 20689) ["WRD-8"] [] [] List.nodup_nil
  riskResults :=
    [ { scoreFamily := .taskFit
        result :=
          { result :=
              { subjectId := "WRD-10", environment := .dev, score := some score, level := some level, confidence := .high,
                scoringModelVersion := "task-fit-v1", factors := [],
                thresholds := [("low_max", 29), ("medium_max", 54), ("high_max", 74)],
                evidenceReferences := ["jira:WRD-10:status"], missingEvidence := [], excludedEvidence := [] }
            scoredAt := ⟨scoredAt, 0⟩
            evidenceTimestamp := ⟨0, 0⟩ } } ]

def sampleCall (score : Fin 101) (level : RiskLevel) (scoredAt : DateTime) (id : Uuid) (now : DateTime) : Call :=
  ⟨sampleSnapshot score level scoredAt, "task", some "dev", id, now, (id + · + 1), fun _ => now⟩

/-- The same result persisted again is there already. -/
theorem results_stored_again : letI := Sha256.transparent
    ∃ db, persist (Transaction.after persist .empty [sampleCall 65 .high 0 1 0]) (sampleCall 65 .high 0 10 60) =
      .ok (db, 1) ∧ ResultsStored db 1 (sampleSnapshot 65 .high 0) := by
  let _ := Sha256.transparent
  have hrun : (persist (Transaction.after persist .empty [sampleCall 65 .high 0 1 0])
      (sampleCall 65 .high 0 10 60)).toOption.any (·.2 == 1) = true := by decide +kernel
  obtain ⟨⟨db, id⟩, hok, hid⟩ := exists_ok_of_any hrun
  obtain rfl : id = 1 := by simpa using hid
  refine ⟨db, hok, (results_stored_iff .empty _ _ db 1 hok).mpr ?_⟩
  decide +kernel

theorem loses_of_run [Sha256] {calls : List Call} {c : Call}
    (h : (persist (Transaction.after persist .empty calls) c).toOption.any
      (fun r => !decide (ResultsStored r.1 r.2 c.snapshot)) = true) : Loses calls c := by
  obtain ⟨⟨db, id⟩, hok, hnot⟩ := exists_ok_of_any h
  exact ⟨db, id, hok, by simpa using hnot⟩

/-- Scored higher, or the same an hour later, the same evidence keeps its first result alone. -/
theorem rescored_evidence_loses_its_results : letI := Sha256.transparent
    Loses [sampleCall 65 .high 0 1 0] (sampleCall 80 .critical 0 10 60) ∧
      Loses [sampleCall 65 .high 0 1 0] (sampleCall 65 .high 3600000000 10 3600000060) := by
  let _ := Sha256.transparent
  exact ⟨loses_of_run (by decide +kernel), loses_of_run (by decide +kernel)⟩

end WorkforceRisk.Snapshots
