/-
  WorkforceRisk.Jira.Evidence — what Jira says of an issue
  (packages/contracts/src/workforce_contracts/jira.py).

  Of `JiraIssueEvidence` the fields that the dashboard, the task queries, the progress
  history and the risk dossier read. A float in a custom field is what `repr` says of it
  and whether it is zero.
-/

import WorkforceRisk.Persistence.Calendar

namespace WorkforceRisk.Jira

open Persistence

structure JiraAccountRef where
  accountId : String
  displayName : String
  accountId_ok : accountId ≠ ""
  displayName_ok : displayName ≠ ""

structure FloatValue where
  text : String
  zero : Bool
  text_ok : text ≠ ""

inductive FieldValue where
  | str (s : String)
  | int (n : Int)
  | float (x : FloatValue)
  | bool (b : Bool)
  | none

namespace FieldValue

/-- `bool(value)`. -/
def truthy : FieldValue → Bool
  | str s => s != ""
  | int n => n != 0
  | float x => !x.zero
  | bool b => b
  | none => false

/-- `str(value)`. -/
def text : FieldValue → String
  | str s => s
  | int n => toString n
  | float x => x.text
  | bool b => if b then "True" else "False"
  | none => "None"

theorem intText_ne (n : Int) : toString n ≠ "" := by
  cases n with
  | ofNat n => exact Nat.repr_ne_empty
  | negSucc n =>
    intro h
    have := congrArg String.toList h
    simp [toString, Int.repr] at this

/-- What is told of a value that counts is not empty. -/
theorem text_ne {value : FieldValue} (h : value.truthy = true) : value.text ≠ "" := by
  cases value with
  | str s => simpa [truthy, text] using h
  | int n => exact intText_ne n
  | float x => exact x.text_ok
  | bool b => cases b <;> decide
  | none => decide

end FieldValue

structure JiraCustomFieldValue where
  logicalName : String
  value : FieldValue

structure EvidenceRef where
  issueKey : String
  fieldId : String

structure JiraIssueLink where
  relationship : String
  issueKey : String

structure JiraIssueEvidence where
  evidenceTimestamp : AwareDatetime
  key : String
  summary : String
  status : String
  priority : Option String
  assignee : Option JiraAccountRef
  dueDate : Option Date
  originalEstimateSeconds : Option Int
  remainingEstimateSeconds : Option Int
  timeSpentSeconds : Option Nat
  workforceEmployeeId : Option String
  requiredSkills : List String
  activityTimestamp : AwareDatetime
  links : List JiraIssueLink
  customFields : List JiraCustomFieldValue
  evidenceReferences : List EvidenceRef

/-- `f"{link.relationship}: {link.issue_key}"`. -/
def JiraIssueLink.dependency (link : JiraIssueLink) : String := link.relationship ++ ": " ++ link.issueKey

/-- The account the issue is assigned to. -/
def JiraIssueEvidence.account (row : JiraIssueEvidence) : Option String := row.assignee.map (·.accountId)

/-- `seconds / 3600`. -/
def inHours (seconds : Int) : Rat := seconds / 3600

end WorkforceRisk.Jira
