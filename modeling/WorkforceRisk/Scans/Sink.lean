/-
  WorkforceRisk.Scans.Sink — storing what a scan scored
  (services/agent-api/src/agent_api/scans/pipeline.py: `DatabaseScanResultSink.persist`).

  One call is one transaction: the evidence, stored once for a subject and a fingerprint;
  the risk result; and the subject's overload alert. The stored evidence is the input and
  the dossier it dumps. Ids that are drawn are new to their table.
-/

import WorkforceRisk.Alerts.Repository

namespace WorkforceRisk.Scans

open Lib Persistence Risk Alerts

structure EvidenceSnapshot where
  id : Uuid
  environment : Environment
  createdAt : DateTime
  subjectType : String
  subjectId : String
  fingerprint : String
  scoreInput : EmployeeOverloadInput
  riskEvidenceDossier : Option RiskEvidenceDossier
  observedAt : DateTime
  deriving DecidableEq

structure RiskResultRecord where
  id : Uuid
  environment : Environment
  createdAt : DateTime
  snapshotId : Uuid
  scoreFamily : String
  score : Option (Fin 101)
  level : Option RiskLevel
  confidence : ConfidenceLevel
  scoringVersion : String
  factors : List FactorContribution
  thresholds : List (String × Int)
  evidenceReferences : List String
  missingEvidence : List String
  excludedEvidence : List String
  deriving DecidableEq

/-- `uq_evidence_snapshot_identity`. -/
instance : Keyed EvidenceSnapshot := .byIdAnd EvidenceSnapshot.id fun s =>
  (s.environment, s.subjectType, s.subjectId, s.fingerprint)

instance : Keyed RiskResultRecord := .byUnique RiskResultRecord.id

structure Database where
  snapshots : Table EvidenceSnapshot
  risks : Table RiskResultRecord
  inbox : Inbox

def Database.empty : Database := ⟨.empty, .empty, .empty⟩

/-- The arguments of a call of `persist`, and its clock. -/
structure ScanResult where
  inputData : EmployeeOverloadInput
  result : RiskResult
  evidenceDossier : Option RiskEvidenceDossier
  correlationId : String
  now : DateTime

namespace ScanResult

/-- The day the alert of the result is for. -/
def scoringWindow (s : ScanResult) : String := s.inputData.evidenceTimestamp.date.isoformat

def ofEnvironment (environment : Environment) (s : ScanResult) : Prop :=
  s.inputData.environment = environment ∧ s.result.environment = environment

instance (environment : Environment) (s : ScanResult) : Decidable (s.ofEnvironment environment) :=
  inferInstanceAs (Decidable (_ ∧ _))

variable [Sha256]

def fingerprint (s : ScanResult) : String :=
  Sha256.dumped (s.inputData.dump :: (s.evidenceDossier.map RiskEvidenceDossier.dump).toList)

/-- What the sink reports to the inbox for a result of the level. -/
def report (s : ScanResult) (environment : Environment) (riskId : Uuid) (level : RiskLevel) : RecordRisk :=
  { environment
    subjectId := s.result.subjectId
    riskType := "overload"
    scoringWindow := s.scoringWindow
    riskResultId := riskId
    level
    evidenceFingerprint := s.fingerprint
    correlationId := s.correlationId
    now := s.now }

end ScanResult

section
variable [Sha256]

/-- The stored evidence of the result, stored now if it is not there. -/
def storeEvidence (environment : Environment) (snapshots : Table EvidenceSnapshot) (s : ScanResult) :
    Except Error (Table EvidenceSnapshot × Uuid) :=
  match snapshots.find? fun row => row.environment == environment && row.subjectType == "employee" &&
      row.subjectId == s.result.subjectId && row.fingerprint == s.fingerprint with
  | some snapshot => .ok (snapshots, snapshot.id)
  | none => do
    let snapshot : EvidenceSnapshot :=
      { id := snapshots.fresh EvidenceSnapshot.id
        environment
        createdAt := s.now
        subjectType := "employee"
        subjectId := s.result.subjectId
        fingerprint := s.fingerprint
        scoreInput := s.inputData
        riskEvidenceDossier := s.evidenceDossier
        observedAt := s.inputData.evidenceTimestamp.instant }
    let snapshots ← inserted "evidence_snapshots" (snapshots.insert snapshot)
    .ok (snapshots, snapshot.id)

def storeRisk (environment : Environment) (risks : Table RiskResultRecord) (snapshotId : Uuid) (s : ScanResult) :
    Except Error (Table RiskResultRecord × Uuid) := do
  let risk : RiskResultRecord :=
    { id := risks.fresh RiskResultRecord.id
      environment
      createdAt := s.now
      snapshotId
      scoreFamily := "employee_overload"
      score := s.result.score
      level := s.result.level
      confidence := s.result.confidence
      scoringVersion := s.result.scoringModelVersion
      factors := s.result.factors
      thresholds := s.result.thresholds
      evidenceReferences := s.result.evidenceReferences
      missingEvidence := s.result.missingEvidence
      excludedEvidence := s.result.excludedEvidence }
  let risks ← inserted "risk_results" (risks.insert risk)
  .ok (risks, risk.id)

/-- A low result resolves the subject's active alerts; then the level is recorded. -/
def reportRisk (environment : Environment) (inbox : Inbox) (riskId : Uuid) (s : ScanResult) :
    Except Error (Inbox × Option AlertRecordResult) :=
  match s.result.level with
  | none => .ok (inbox, none)
  | some level =>
    let inbox := if level = .low then (resolveActiveRisk inbox environment s.result.subjectId "overload").1 else inbox
    recordRisk inbox (s.report environment riskId level)

/-- The ids of the stored result and of its alert. -/
def persist (environment : Environment) (db : Database) (s : ScanResult) :
    Except Error (Database × (Uuid × Option Uuid)) :=
  if ¬ s.ofEnvironment environment then .error (.valueError "scan result environment mismatch")
  else do
    let (snapshots, snapshotId) ← storeEvidence environment db.snapshots s
    let (risks, riskId) ← storeRisk environment db.risks snapshotId s
    let (inbox, alert) ← reportRisk environment db.inbox riskId s
    .ok (⟨snapshots, risks, inbox⟩, (riskId, alert.map AlertRecordResult.alertId))

end

end WorkforceRisk.Scans
