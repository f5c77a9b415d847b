/-
  WorkforceRisk.Scenario.Definition — synthetic scenarios
  (scripts/jira/scenario.py, scripts/jira/guards.py).

  A `ScenarioDefinition` carries what its validators ask. A stored issue is a dict of the
  values `model_dump` writes, and a step's updates are such values too: `V` are the JSON
  values as Python compares them, `Values` the ways a field is written as one.
-/

import WorkforceRisk.Lib.Dict
import WorkforceRisk.Lib.Floats
import WorkforceRisk.Persistence.Values

namespace WorkforceRisk.Scenario

open Lib Persistence

/-- How JSON values are made. -/
class Values (V : Type) where
  null : V
  text : String → V
  integer : Int → V
  number : PyFloat → V
  bool : Bool → V
  texts : List String → V

/-- The pattern `^EMP-00[1-7]$`. -/
def isEmployeeId (s : String) : Bool :=
  s ∈ ["EMP-001", "EMP-002", "EMP-003", "EMP-004", "EMP-005", "EMP-006", "EMP-007"]

structure ScenarioProfile where
  employeeId : String
  role : String
  seniority : String
  skills : Dict String Int
  capacityHours : PyFloat
  allocation : PyFloat
  mentoringAvailable : Bool
  jiraAccountRef : Option String
  employeeId_ok : isEmployeeId employeeId = true
  capacityHours_ok : capacityHours.positive = true
  allocation_ok : allocation.positive = true ∧ allocation.atMostOne = true

structure ScenarioIssue where
  externalId : String
  summary : String
  workforceEmployeeId : String
  estimateHours : PyFloat
  remainingHours : PyFloat
  dueOffsetDays : Int
  priority : String
  difficulty : Int
  requiredSkills : List String
  dependencies : List String
  blockerCategory : Option String
  seniorPairingEmployeeId : Option String
  evidenceComplete : Bool
  workloadProfile : Option String
  labels : List String
  workforceEmployeeId_ok : isEmployeeId workforceEmployeeId = true
  estimateHours_ok : estimateHours.positive = true
  remainingHours_ok : remainingHours.nonnegative = true
  difficulty_ok : 1 ≤ difficulty ∧ difficulty ≤ 5
  seniorPairingEmployeeId_ok : seniorPairingEmployeeId.all isEmployeeId = true

structure ScenarioStep (V : Type) where
  name : String
  issueUpdates : Dict String (Dict String V)

/-- `label.startswith("workforce-employee:")` -/
def isEmployeeLabel (label : String) : Bool := decide ("workforce-employee:".toList <+: label.toList)

structure ScenarioDefinition (V : Type) where
  ownershipTag : String
  environment : String
  projectKey : String
  /-- The day's number. -/
  anchorDate : Int
  profiles : List ScenarioProfile
  issues : List ScenarioIssue
  steps : List (ScenarioStep V)
  profiles_all : ∀ id, id ∈ profiles.map (·.employeeId) ↔ isEmployeeId id = true
  accounts_two : (profiles.countP fun profile => profile.jiraAccountRef.isSome) = 2
  externalIds_unique : (issues.map (·.externalId)).Nodup
  tagged : ∀ issue ∈ issues, ownershipTag ∈ issue.labels
  employee_labels : ∀ issue ∈ issues,
    issue.labels.filter isEmployeeLabel = ["workforce-employee:" ++ issue.workforceEmployeeId]

/-- `validate_scenario_scope`. -/
def validateScenarioScope (environment projectKey : String) : Except Error Unit :=
  if environment != "dev" then .error (.permissionError "scenario environment must be exactly dev")
  else if projectKey != "WRD" then .error (.permissionError "scenario project must be exactly WRD")
  else .ok ()

variable {V : Type} [Values V]

open Values

/-- The fields of an issue, as `model_dump(mode="json")` names them. -/
def fieldNames : List String :=
  ["external_id", "summary", "workforce_employee_id", "estimate_hours", "remaining_hours", "due_offset_days",
    "priority", "difficulty", "required_skills", "dependencies", "blocker_category", "senior_pairing_employee_id",
    "evidence_complete", "workload_profile", "labels"]

theorem fieldNames_nodup : fieldNames.Nodup := by decide

def optionalText (value : Option String) : V := (value.map text).getD null

/-- `issue.model_dump(mode="json")`. -/
def modelDump (issue : ScenarioIssue) : Dict String V where
  entries :=
    [("external_id", text issue.externalId), ("summary", text issue.summary),
      ("workforce_employee_id", text issue.workforceEmployeeId), ("estimate_hours", number issue.estimateHours),
      ("remaining_hours", number issue.remainingHours), ("due_offset_days", integer issue.dueOffsetDays),
      ("priority", text issue.priority), ("difficulty", integer issue.difficulty),
      ("required_skills", texts issue.requiredSkills), ("dependencies", texts issue.dependencies),
      ("blocker_category", optionalText issue.blockerCategory),
      ("senior_pairing_employee_id", optionalText issue.seniorPairingEmployeeId),
      ("evidence_complete", bool issue.evidenceComplete), ("workload_profile", optionalText issue.workloadProfile),
      ("labels", texts issue.labels)]
  distinct := fieldNames_nodup

/-- The fields of a dumped issue are those of the model. -/
theorem modelDump_isSome (issue : ScenarioIssue) (field : String) :
    ((modelDump issue : Dict String V).get? field).isSome = true ↔ field ∈ fieldNames := Dict.get?_isSome

end WorkforceRisk.Scenario
