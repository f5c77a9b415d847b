/-
  WorkforceRisk.Risk.Models — what a risk score is computed from and what it comes to
  (domain/workforce_risk/models.py), and the dossier of Jira facts kept beside it
  (services/agent-api/src/agent_api/risk_evidence.py).

  Numbers are exact and finite. Each `dump` is the model's `model_dump_json`, members in
  the order of the fields, without the field that says when the evidence was read: that
  is how the code hashes them.
-/

import Mathlib.Data.Rat.Defs
import WorkforceRisk.Persistence.Calendar

namespace WorkforceRisk.Risk

open Persistence

inductive RiskLevel where
  | low
  | medium
  | high
  | critical
  deriving DecidableEq, Repr

def RiskLevel.value : RiskLevel → String
  | low => "low"
  | medium => "medium"
  | high => "high"
  | critical => "critical"

inductive ConfidenceLevel where
  | high
  | medium
  | low
  | insufficientData
  deriving DecidableEq, Repr

/-- A `dict[str, tuple[str, ...]]`, in the order its keys were inserted. -/
abbrev EvidenceReferences := List (String × List String)

structure EmployeeOverloadInput where
  employeeId : String
  environment : Environment
  remainingEstimatedHours : Option {h : Rat // 0 ≤ h}
  availableCapacityHours : Option {h : Rat // 0 < h}
  overdueTasks : Option Nat
  blockedOrBlockingTasks : Option Nat
  urgentHighPriorityTasks : Option Nat
  dueSoonTasks : Option Nat
  activeTasks : Option Nat
  concurrentProjects : Option Nat
  staleTasks : Option Nat
  evidenceTimestamp : AwareDatetime
  evidenceReferences : EvidenceReferences
  deriving DecidableEq

def natJson : Option Nat → Json := .opt fun n => .num n

/-- `model_dump_json(exclude={"evidence_timestamp"})`. -/
def EmployeeOverloadInput.dump (i : EmployeeOverloadInput) : Json := .obj
  [ ("employee_id", .str i.employeeId),
    ("environment", .str i.environment.value),
    ("remaining_estimated_hours", .opt (fun h => .num h.1) i.remainingEstimatedHours),
    ("available_capacity_hours", .opt (fun h => .num h.1) i.availableCapacityHours),
    ("overdue_tasks", natJson i.overdueTasks),
    ("blocked_or_blocking_tasks", natJson i.blockedOrBlockingTasks),
    ("urgent_high_priority_tasks", natJson i.urgentHighPriorityTasks),
    ("due_soon_tasks", natJson i.dueSoonTasks),
    ("active_tasks", natJson i.activeTasks),
    ("concurrent_projects", natJson i.concurrentProjects),
    ("stale_tasks", natJson i.staleTasks),
    ("evidence_references", .obj (i.evidenceReferences.map fun (key, references) => (key, .strs references))) ]

inductive FactorDirection where
  | increasesRisk
  | inverseRisk
  | protective
  deriving DecidableEq, Repr

structure FactorContribution where
  name : String
  rawValue : Rat
  normalizedValue : Rat
  weight : Rat
  direction : FactorDirection
  contributionPoints : Rat
  evidenceReferences : List String
  normalizedValue_range : 0 ≤ normalizedValue ∧ normalizedValue ≤ 1
  weight_range : 0 ≤ weight ∧ weight ≤ 1
  deriving DecidableEq

structure RiskResult where
  subjectId : String
  environment : Environment
  /-- `Field(ge=0, le=100)`. -/
  score : Option (Fin 101)
  level : Option RiskLevel
  confidence : ConfidenceLevel
  scoringModelVersion : String
  factors : List FactorContribution
  thresholds : List (String × Int)
  evidenceReferences : List String
  missingEvidence : List String
  excludedEvidence : List String
  deriving DecidableEq

/-! ## The evidence dossier -/

structure TaskSituation where
  key : String
  summary : String
  status : String
  priority : Option String
  dueDate : Option Date
  remainingHours : Option Rat
  blockerCategory : Option String
  dependencies : List String
  lastActivityAt : AwareDatetime
  evidenceReferences : List String
  deriving DecidableEq

structure RiskEvidenceDossier where
  employeeId : String
  projectKey : String
  observedAt : AwareDatetime
  availableCapacityHours : Rat
  totalRemainingHours : Option Rat
  tasks : List TaskSituation
  overdueTaskKeys : List String
  dueSoonTaskKeys : List String
  blockedTaskKeys : List String
  missingEvidence : List String
  evidenceReferences : List String
  deriving DecidableEq

def TaskSituation.dump (t : TaskSituation) : Json := .obj
  [ ("key", .str t.key),
    ("summary", .str t.summary),
    ("status", .str t.status),
    ("priority", .opt .str t.priority),
    ("due_date", .opt (fun d => .str d.isoformat) t.dueDate),
    ("remaining_hours", .opt .num t.remainingHours),
    ("blocker_category", .opt .str t.blockerCategory),
    ("dependencies", .strs t.dependencies),
    ("last_activity_at", .str t.lastActivityAt.dumped),
    ("evidence_references", .strs t.evidenceReferences) ]

/-- `model_dump_json(exclude={"observed_at"})`. -/
def RiskEvidenceDossier.dump (d : RiskEvidenceDossier) : Json := .obj
  [ ("employee_id", .str d.employeeId),
    ("project_key", .str d.projectKey),
    ("available_capacity_hours", .num d.availableCapacityHours),
    ("total_remaining_hours", .opt .num d.totalRemainingHours),
    ("tasks", .arr (d.tasks.map TaskSituation.dump)),
    ("overdue_task_keys", .strs d.overdueTaskKeys),
    ("due_soon_task_keys", .strs d.dueSoonTaskKeys),
    ("blocked_task_keys", .strs d.blockedTaskKeys),
    ("missing_evidence", .strs d.missingEvidence),
    ("evidence_references", .strs d.evidenceReferences) ]

end WorkforceRisk.Risk
