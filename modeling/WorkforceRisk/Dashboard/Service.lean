/-
  WorkforceRisk.Dashboard.Service — the snapshot of a project
  (services/agent-api/src/agent_api/dashboard/service.py, models.py).

  `build` reads the rows of one Jira search, groups the active ones by their account, and
  sums up. A task keeps the account it is assigned to; an employee is labelled by the id
  of the account's profile, or by the account with a prefix when it has none. Scoring is
  another service and a parameter, as is the history that is recorded beside.

  Hours are exact; what floats print and round to is a parameter (`FloatText`). A build is
  taken to happen within one reading of its clocks.
-/

import Mathlib.Algebra.Order.Ring.Rat
import WorkforceRisk.Evidence.Text
import WorkforceRisk.Jira.Evidence
import WorkforceRisk.Lib.Transactions
import WorkforceRisk.Risk.Models

namespace WorkforceRisk.Dashboard

open Lib Persistence Historical Evidence Jira Risk

/-! ## Models -/

inductive Level where
  | low
  | medium
  | high
  | critical
  | insufficientData
  deriving DecidableEq, Repr

def Level.value : Level → String
  | low => "low"
  | medium => "medium"
  | high => "high"
  | critical => "critical"
  | insufficientData => "insufficient-data"

structure EmployeeSummary where
  employeeId : String
  displayName : String
  role : Option String
  skills : List String
  capacityHours : Option Rat
  remainingHours : Option Rat
  activeTasks : Nat
  score : Option Int
  level : Level
  topRisk : String
  deriving DecidableEq

structure TaskSummary where
  key : String
  summary : String
  status : String
  priority : Option String
  assigneeId : Option String
  assigneeName : Option String
  dueDate : Option Date
  originalHours : Option Rat
  remainingHours : Option Rat
  rawRemainingHours : Option Rat
  timeSpentHours : Option Rat
  jiraUpdatedAt : Option AwareDatetime
  dataQualityFindings : List String
  requiredSkills : List String
  blocker : Option String
  dependencies : List String
  jiraUrl : String
  deriving DecidableEq

structure ProjectSummary where
  key : String
  name : String
  totalTasks : Nat
  completedTasks : Nat
  activeTasks : Nat
  overdueTasks : Nat
  dueSoonTasks : Nat
  blockedTasks : Nat
  missingEstimateTasks : Nat
  completionPercent : Int

structure AlertSummary where
  subjectId : String
  severity : Level
  /-- `Field(ge=0, le=100)`. -/
  score : Fin 101
  reason : String

structure WorkloadDistribution where
  overloaded : Nat
  balanced : Nat
  insufficientData : Nat

structure DashboardSnapshot where
  correlationId : String
  evidenceTimestamp : AwareDatetime
  project : ProjectSummary
  employees : List EmployeeSummary
  tasks : List TaskSummary
  alerts : List AlertSummary
  workload : WorkloadDistribution
  missingEvidence : List String
  degraded : Bool
  missingSources : List String

/-- The dashboard's own profile of an employee. -/
structure WorkforceProfile where
  employeeId : String
  displayName : String
  role : Option String
  capacityHours : {h : Rat // 0 < h}
  skills : List String
  employeeId_ok : employeeId ≠ ""
  displayName_ok : displayName ≠ ""

/-! ## Rows -/

class FloatText where
  /-- `f"{x:g}"`. -/
  general : Rat → String
  /-- `round(x, 1)`. -/
  tenths : Rat → Rat
  /-- `round(x, 2)`. -/
  hundredths : Rat → Rat
  /-- `round(x)`. -/
  whole : Rat → Int

/-- `status.casefold() in {"done", "closed", "resolved"}`. -/
def isDoneStatus [Unicode] (status : String) : Bool := casefold status ∈ ["done", "closed", "resolved"]

/-- `DashboardService._blocker`. -/
def blockerOf (row : JiraIssueEvidence) : Option String :=
  (row.customFields.find? fun field => field.logicalName == "blocker_category" && field.value.truthy).map
    fun field => field.value.text

/-- `DashboardService._is_blocked`. -/
def isBlockedRow [Unicode] (row : JiraIssueEvidence) : Bool :=
  (blockerOf row).isSome || row.links.any fun link => strip (casefold link.relationship) == "is blocked by"

/-- `row.due_date is not None and row.due_date < today`. -/
def isOverdue (today : Date) (dueDate : Option Date) : Bool := dueDate.any fun due => due < today

/-- `today <= row.due_date <= today + timedelta(days=7)`. -/
def isDueSoon (today : Date) (dueDate : Option Date) : Bool := dueDate.any fun due => today ≤ due && due ≤ today + 7

theorem isOverdue_some {today due : Int} : isOverdue today (some due) = true ↔ due < today := by simp [isOverdue]

theorem isDueSoon_some {today due : Int} : isDueSoon today (some due) = true ↔ today ≤ due ∧ due ≤ today + 7 := by
  simp [isDueSoon]

structure Scored where
  score : Option Int
  level : Option Level

/-- What a build is given: the service's own parts, and its clocks. -/
structure DashboardService where
  scoring : EmployeeOverloadInput → String → Except Error Scored
  profiles : List (String × WorkforceProfile)
  /-- Without the slashes at its end. -/
  jiraSiteUrl : String
  environment : Environment
  today : Date
  now : DateTime
  /-- The projects that are configured, with their names. -/
  configured : List (String × String)
  /-- Whether recording the history of a build raises; `none` without a recorder. -/
  history : Option (List JiraIssueEvidence → Bool)

namespace DashboardService

variable (service : DashboardService)

/-- `self._profiles.get(account_id)`. -/
def profile (accountId : String) : Option WorkforceProfile :=
  (service.profiles.find? (·.1 == accountId)).map (·.2)

/-- The label of an account's employee. -/
def employeeId (accountId : String) : String :=
  match service.profile accountId with
  | some profile => profile.employeeId
  | none => "jira:" ++ accountId

/-- The hours that remain, if every row has an estimate. -/
def remainingOf (rows : List JiraIssueEvidence) : Option Rat :=
  if rows.all fun row => row.remainingEstimateSeconds.isSome then
    some (rows.map fun row => inHours (row.remainingEstimateSeconds.getD 0)).sum
  else none

section
variable [Unicode]

def task (row : JiraIssueEvidence) : TaskSummary :=
  let rawRemaining := row.remainingEstimateSeconds.map inHours
  let done := isDoneStatus row.status
  { key := row.key
    summary := row.summary
    status := row.status
    priority := row.priority
    assigneeId := row.account
    assigneeName := row.assignee.map (·.displayName)
    dueDate := row.dueDate
    originalHours := row.originalEstimateSeconds.map inHours
    remainingHours := if done then some 0 else rawRemaining
    rawRemainingHours := rawRemaining
    timeSpentHours := row.timeSpentSeconds.map fun seconds => inHours seconds
    jiraUpdatedAt := some row.activityTimestamp
    dataQualityFindings :=
      if done && rawRemaining.any (· != 0) then ["Completed task has a non-zero Jira remaining estimate."] else []
    requiredSkills := row.requiredSkills
    blocker := blockerOf row
    dependencies := row.links.map (·.dependency)
    jiraUrl := service.jiraSiteUrl ++ "/browse/" ++ row.key }

/-- What the blockers and links of a row say, for `_top_risk`. -/
def dependencyFacts (row : JiraIssueEvidence) : List String :=
  (match blockerOf row with
    | some blocker => [row.key ++ " has blocker " ++ blocker]
    | none => []) ++
  row.links.flatMap fun link =>
    let relationship := strip (casefold link.relationship)
    if relationship == "is blocked by" then [row.key ++ " is blocked by " ++ link.issueKey]
    else if relationship == "blocks" then [row.key ++ " blocks downstream task " ++ link.issueKey]
    else []

variable [FloatText]

def topRisk (rows : List JiraIssueEvidence) (profile : Option WorkforceProfile) : String :=
  let overdue := rows.countP fun row => isOverdue service.today row.dueDate
  let facts := rows.flatMap dependencyFacts
  let rest :=
    if overdue ≠ 0 then toString overdue ++ " active task(s) are overdue."
    else if facts ≠ [] then String.intercalate "; " facts ++ "."
    else "Current structured workload evidence is within configured capacity."
  match remainingOf rows with
  | none => "One or more active tasks is missing a remaining estimate."
  | some remaining => match profile with
    | some profile =>
      if profile.capacityHours.1 < remaining then
        FloatText.general remaining ++ "h remaining exceeds " ++ FloatText.general profile.capacityHours.1 ++
          "h capacity."
      else rest
    | none => rest

def evidenceReferences (profile : WorkforceProfile) (rows : List JiraIssueEvidence) : EvidenceReferences :=
  let of (suffix : String) := rows.map fun row => "jira:" ++ row.key ++ ":" ++ suffix
  let project := (rows.head?.map fun row => String.ofList (row.key.toList.takeWhile (· != '-'))).getD ""
  [ ("utilization", of "remaining_estimate" ++ ["profile:" ++ profile.employeeId ++ ":capacity"]),
    ("overdue_work", of "duedate"),
    ("blocked_work", of "blocker_and_links"),
    ("priority_load", of "priority"),
    ("due_soon_load", of "duedate"),
    ("active_task_count", of "status"),
    ("concurrent_projects", ["jira:" ++ project ++ ":project"]),
    ("stale_work", of "updated") ]

/-- The latest of the evidence timestamps, the first of them if several are. -/
def latestEvidence (rows : List JiraIssueEvidence) : Option AwareDatetime :=
  rows.foldl (fun latest row => match latest with
    | none => some row.evidenceTimestamp
    | some t => if t.instant < row.evidenceTimestamp.instant then some row.evidenceTimestamp else some t) none

omit [FloatText] in
/-- What the score of an employee is computed from; the model refuses negative hours. -/
def overloadInput (profile : WorkforceProfile) (remaining : Rat) (rows : List JiraIssueEvidence) :
    Except Error EmployeeOverloadInput :=
  if h : 0 ≤ remaining then .ok
    { employeeId := profile.employeeId
      environment := service.environment
      remainingEstimatedHours := some ⟨remaining, h⟩
      availableCapacityHours := some profile.capacityHours
      overdueTasks := some (rows.countP fun row => isOverdue service.today row.dueDate)
      blockedOrBlockingTasks := some (rows.countP fun row => (blockerOf row).isSome || !row.links.isEmpty)
      urgentHighPriorityTasks := some (rows.countP fun row => casefold (row.priority.getD "") ∈ ["high", "highest"])
      dueSoonTasks := some (rows.countP fun row => isDueSoon service.today row.dueDate)
      activeTasks := some rows.length
      concurrentProjects := some 1
      staleTasks := some (rows.countP fun row => 7 ≤ (service.now - row.activityTimestamp.instant) / 86400000000)
      evidenceTimestamp := (latestEvidence rows).getD ⟨service.now, 0⟩
      evidenceReferences := evidenceReferences profile rows }
  else .error (.validationError "remaining_estimated_hours" "Input should be greater than or equal to 0")

variable [Sha256]

/-- `_employee`: the summary of an account with these active rows. -/
def employee (accountId : String) (rows : List JiraIssueEvidence) (correlationId : String) :
    Except Error EmployeeSummary := do
  let profile := service.profile accountId
  let remaining := remainingOf rows
  let scored ← match profile, remaining with
    | some profile, some remaining => do
      let input ← service.overloadInput profile remaining rows
      service.scoring input (String.ofList (correlationId.toList.take 100) ++ ":score:" ++
        String.ofList ((Sha256.text profile.employeeId).toList.take 12))
    | _, _ => .ok ⟨none, none⟩
  .ok
    { employeeId := service.employeeId accountId
      displayName := ((rows.head?.bind (·.assignee)).map (·.displayName)).getD accountId
      role := profile.bind (·.role)
      skills := (profile.map (·.skills)).getD []
      capacityHours := profile.map (·.capacityHours.1)
      remainingHours := remaining.map FloatText.tenths
      activeTasks := rows.length
      score := scored.score
      level := scored.level.getD .insufficientData
      topRisk := service.topRisk rows profile }

end

end DashboardService

/-! ## The snapshot -/

section
variable [Unicode]

def activeRows (rows : List JiraIssueEvidence) : List JiraIssueEvidence := rows.filter fun row => !isDoneStatus row.status

/-- The rows of an account. -/
def rowsOf (accountId : String) (rows : List JiraIssueEvidence) : List JiraIssueEvidence :=
  rows.filter fun row => row.account == some accountId

/-- The accounts of the active rows, in the order they first appear. -/
def accountsOf (rows : List JiraIssueEvidence) : List String := ((activeRows rows).filterMap (·.account)).eraseDups

end

/-- The order of employees: by falling score, then by name. -/
def EmployeeSummary.rank (e : EmployeeSummary) : Int :=
  match e.score with
  | some score => if score = 0 then 1 else -score
  | none => 1

def EmployeeSummary.before (a b : EmployeeSummary) : Bool :=
  a.rank < b.rank || (a.rank == b.rank && a.displayName ≤ b.displayName)

/-- The alert of an employee at risk; the model refuses a score that is none or out of range. -/
def alertOf (e : EmployeeSummary) : Except Error AlertSummary :=
  match e.score with
  | some score =>
    if h : 0 ≤ score ∧ score ≤ 100 then .ok ⟨e.employeeId, e.level, ⟨score.toNat, by omega⟩, e.topRisk⟩
    else .error (.validationError "score" "Input should be between 0 and 100")
  | none => .error (.validationError "score" "Input should be a valid integer")

def DashboardService.build [Unicode] [FloatText] [Sha256] (service : DashboardService) (projectKey : String)
    (rows : List JiraIssueEvidence) (correlationId : String) : Except Error DashboardSnapshot := do
  match service.configured.find? (·.1 == projectKey) with
  | none => .error (.permissionError "project is not configured")
  | some (key, name) =>
    if rows.any fun row => !startsWith row.key (key ++ "-") then
      .error (.valueError "Jira returned evidence outside the requested project")
    else do
      let historyDegraded := service.history.any fun record => record rows
      let active := activeRows rows
      let summaries ← (accountsOf rows).mapM fun accountId =>
        service.employee accountId (rowsOf accountId active) correlationId
      let employees := summaries.insertionSort fun a b => a.before b
      let alerts ← (employees.filter fun e => e.level ∈ [Level.medium, .high, .critical]).mapM alertOf
      let missing := (active.filter fun row => row.remainingEstimateSeconds.isNone).map (·.key ++ ".remaining_estimate")
      let completed := rows.length - active.length
      .ok
        { correlationId := correlationId
          evidenceTimestamp := (DashboardService.latestEvidence rows).getD ⟨service.now, 0⟩
          project :=
            { key := key
              name := name
              totalTasks := rows.length
              completedTasks := completed
              activeTasks := active.length
              overdueTasks := active.countP fun row => isOverdue service.today row.dueDate
              dueSoonTasks := active.countP fun row => isDueSoon service.today row.dueDate
              blockedTasks := active.countP isBlockedRow
              missingEstimateTasks := missing.length
              completionPercent := if rows.isEmpty then 0 else FloatText.whole (100 * completed / rows.length) }
          employees := employees
          tasks := rows.map service.task
          alerts := alerts
          workload :=
            { overloaded := employees.countP fun e => e.level ∈ [Level.high, .critical]
              balanced := employees.countP fun e => e.level ∈ [Level.low, .medium]
              insufficientData := employees.countP fun e => e.level = .insufficientData }
          missingEvidence := missing
          degraded := historyDegraded
          missingSources := if historyDegraded then ["progress_history"] else [] }

/-- The day of the evidence: of the latest row, or of the build when there is none. -/
def DashboardService.evidenceDay (service : DashboardService) (rows : List JiraIssueEvidence) : Date :=
  ((DashboardService.latestEvidence rows).getD ⟨service.now, 0⟩).date

/-- What a snapshot has of the rows it is built from. -/
theorem build_ok [Unicode] [FloatText] [Sha256] {service : DashboardService} {projectKey correlationId : String}
    {rows : List JiraIssueEvidence} {snapshot : DashboardSnapshot}
    (h : service.build projectKey rows correlationId = .ok snapshot) :
    snapshot.tasks = rows.map service.task ∧ snapshot.evidenceTimestamp.date = service.evidenceDay rows ∧
      snapshot.project.completedTasks = rows.length - (activeRows rows).length ∧
      snapshot.project.overdueTasks = (activeRows rows).countP (fun row => isOverdue service.today row.dueDate) ∧
      snapshot.project.dueSoonTasks = (activeRows rows).countP (fun row => isDueSoon service.today row.dueDate) ∧
      ∃ summaries, (accountsOf rows).mapM (fun accountId =>
          service.employee accountId (rowsOf accountId (activeRows rows)) correlationId) = .ok summaries ∧
        snapshot.employees = summaries.insertionSort fun a b => a.before b := by
  unfold DashboardService.build at h
  split at h
  · cases h
  split at h
  · cases h
  obtain ⟨summaries, hs, h⟩ := except_bind_ok.mp h
  obtain ⟨alerts, _, h⟩ := except_bind_ok.mp h
  cases h
  exact ⟨rfl, rfl, rfl, rfl, rfl, summaries, hs, rfl⟩

/-! ## A row, for closed traces -/

/-- Floats that print nothing and round to themselves. -/
@[reducible] def FloatText.plain : FloatText := ⟨fun _ => "", id, id, Rat.floor⟩

/-- A service without profiles, whose scores are all missing. -/
def bareService : DashboardService :=
  ⟨fun _ _ => .ok ⟨none, none⟩, [], "https://jira", .dev, 100, 0, [("WFD", "Workforce Real Data")], none⟩

def sampleRow : JiraIssueEvidence where
  evidenceTimestamp := ⟨8640000000000, 0⟩
  key := "WFD-1"
  summary := "Ship the report"
  status := "In Progress"
  priority := none
  assignee := none
  dueDate := none
  originalEstimateSeconds := none
  remainingEstimateSeconds := none
  timeSpentSeconds := none
  workforceEmployeeId := none
  requiredSkills := []
  activityTimestamp := ⟨0, 0⟩
  links := []
  customFields := []
  evidenceReferences := []

/-- An employee with 40 hours of capacity and 10 left to do. -/
def sampleEmployee (employeeId displayName : String) : EmployeeSummary where
  employeeId := employeeId
  displayName := displayName
  role := none
  skills := []
  capacityHours := some 40
  remainingHours := some 10
  activeTasks := 1
  score := none
  level := .insufficientData
  topRisk := ""

def sampleSnapshot (employees : List EmployeeSummary) (tasks : List TaskSummary) : DashboardSnapshot where
  correlationId := "corr-1"
  evidenceTimestamp := ⟨8640000000000, 0⟩
  project := ⟨"WFD", "Workforce Real Data", tasks.length, 0, tasks.length, 0, 0, 0, 0, 0⟩
  employees := employees
  tasks := tasks
  alerts := []
  workload := ⟨0, 0, employees.length⟩
  missingEvidence := []
  degraded := false
  missingSources := []

end WorkforceRisk.Dashboard
