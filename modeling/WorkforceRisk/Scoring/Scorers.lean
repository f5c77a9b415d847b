/-
  WorkforceRisk.Scoring.Scorers — the employee's overload and the normalized families
  (domain/workforce_risk/scoring/overload.py, family.py).

  An employee's overload is scored on hours and counts, capped; a family on values that
  are normalized already. The overload scorer caps a value and does not read the factor's
  direction; the family scorer turns a value around where the factor lowers the risk.
-/

import WorkforceRisk.Scoring.Common

namespace WorkforceRisk.Scoring

open Lib Persistence Risk

/-! ## Overload -/

/-- `FACTOR_INPUTS`. -/
def factorInputs : List (String × String) :=
  [ ("overdue_work", "overdue_tasks"),
    ("blocked_work", "blocked_or_blocking_tasks"),
    ("priority_load", "urgent_high_priority_tasks"),
    ("due_soon_load", "due_soon_tasks"),
    ("active_task_count", "active_tasks"),
    ("concurrent_projects", "concurrent_projects"),
    ("stale_work", "stale_tasks") ]

/-- The counts of an input, by their attributes. -/
def counts (i : EmployeeOverloadInput) : List (String × Option Nat) :=
  [ ("overdue_tasks", i.overdueTasks),
    ("blocked_or_blocking_tasks", i.blockedOrBlockingTasks),
    ("urgent_high_priority_tasks", i.urgentHighPriorityTasks),
    ("due_soon_tasks", i.dueSoonTasks),
    ("active_tasks", i.activeTasks),
    ("concurrent_projects", i.concurrentProjects),
    ("stale_tasks", i.staleTasks) ]

/-- `getattr(input_data, attribute)`. -/
def count (i : EmployeeOverloadInput) (name : String) : Option Nat :=
  ((counts i).find? (·.1 == name)).bind (·.2)

/-- `raw_values`. -/
def rawValues (i : EmployeeOverloadInput) (remaining capacity : Rat) : List (String × Option Rat) :=
  ("utilization", some (remaining / capacity)) ::
    factorInputs.map fun entry => (entry.1, (count i entry.2).map fun n : Nat => (n : Rat))

/-- `mapping.get(name)`, of a mapping some of whose values are `None`. -/
def valueOf (values : List (String × Option Rat)) (name : String) : Option Rat :=
  (values.find? (·.1 == name)).bind (·.2)

/-- `FACTOR_INPUTS.get(name, name)`. -/
def inputName (name : String) : String := ((factorInputs.find? (·.1 == name)).map (·.2)).getD name

def overloadConfidence (coverage : Rat) : ConfidenceLevel :=
  if 9 / 10 ≤ coverage then .high
  else if 3 / 4 ≤ coverage then .medium
  else if 3 / 5 ≤ coverage then .low
  else .insufficientData

def overloadScorer (i : EmployeeOverloadInput) (remaining capacity : Rat) : Scorer where
  value := valueOf (rawValues i remaining capacity)
  references := i.evidenceReferences
  normalized settings value := normalizeCapped value settings.normalizationCap
  label := inputName

def missingMandatory (i : EmployeeOverloadInput) : List String :=
  (if i.remainingEstimatedHours.isNone then ["remaining_estimated_hours"] else []) ++
    if i.availableCapacityHours.isNone then ["available_capacity_hours"] else []

def overloadHeader (i : EmployeeOverloadInput) (config : ScoringConfiguration) (scoredAt : AwareDatetime) : Header :=
  ⟨i.employeeId, i.environment, i.evidenceTimestamp, scoredAt, config.employeeOverload.version, config.thresholds⟩

def scoreEmployeeOverload (i : EmployeeOverloadInput) (config : ScoringConfiguration) (scoredAt : AwareDatetime) :
    Except Error ScoredResult :=
  if missingMandatory i ≠ [] then .ok ((overloadHeader i config scoredAt).insufficient (missingMandatory i) [])
  else if config.employeeOverload.maxEvidenceAgeHours < ageHours scoredAt i.evidenceTimestamp then
    .ok ((overloadHeader i config scoredAt).insufficient [] ["stale_evidence"])
  else match i.remainingEstimatedHours with
    | none => .error .assertionError
    | some remaining => match i.availableCapacityHours with
      | none => .error .assertionError
      | some capacity => (overloadScorer i remaining capacity).score (overloadHeader i config scoredAt)
          overloadConfidence config.employeeOverload.factors

/-! ## Normalized families -/

/-- The arguments of `score_normalized_family` that are not the configuration's. -/
structure FamilyInput where
  subjectId : String
  environment : Environment
  values : List (String × Option Rat)
  evidenceReferences : EvidenceReferences
  evidenceTimestamp : AwareDatetime

/-- Nearer to one is the riskier. -/
def riskValue (settings : FactorConfiguration) (value : Rat) : Rat :=
  match settings.direction with
  | .inverseRisk | .protective => 1 - value
  | .increasesRisk => value

def familyScorer (i : FamilyInput) : Scorer where
  value := valueOf i.values
  references := i.evidenceReferences
  normalized settings value := .ok (riskValue settings value)
  label := id

def familyHeader (i : FamilyInput) (config : ScoreFamilyConfiguration) (thresholds : List (String × Int))
    (scoredAt : AwareDatetime) : Header :=
  ⟨i.subjectId, i.environment, i.evidenceTimestamp, scoredAt, config.version, thresholds⟩

def scoreNormalizedFamily (i : FamilyInput) (config : ScoreFamilyConfiguration) (thresholds : List (String × Int))
    (scoredAt : AwareDatetime) : Except Error ScoredResult :=
  if config.maxEvidenceAgeHours < ageHours scoredAt i.evidenceTimestamp then
    .ok ((familyHeader i config thresholds scoredAt).insufficient [] ["stale_evidence"])
  else (familyScorer i).score (familyHeader i config thresholds scoredAt) confidenceForCoverage config.factors

end WorkforceRisk.Scoring
