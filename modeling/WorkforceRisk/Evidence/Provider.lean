/-
  WorkforceRisk.Evidence.Provider — what an employee's score is computed from, and who
  computes it (services/agent-api/src/agent_api: dependencies.py, of risk_evidence.py the
  reads; services/workforce-risk-mcp/src/workforce_risk_mcp/tools/score_overload.py).

  `getEmployeeOverload` reads the one issue configured for an employee and makes counts of
  it, at least those of the issue's workload profile, and reads the dossier of all the
  employee's issues beside it. Jira answers anything or raises anything.

  The scorer keeps the correlation ids it has seen and refuses one that it saw before.
-/

import WorkforceRisk.Evidence.Blocked
import WorkforceRisk.Evidence.Collector
import WorkforceRisk.Jira.Scope
import WorkforceRisk.Scoring.Scorers

namespace WorkforceRisk.Evidence

open Lib Persistence Historical Risk Jira Dashboard DashboardService Scoring

/-! ## Jira -/

inductive WorkloadProfile where
  | balanced
  | stalled
  | high
  | critical
  | recovery
  deriving DecidableEq, Repr

structure ProfiledIssue extends JiraIssueEvidence where
  workloadProfile : Option WorkloadProfile

inductive JiraCall where
  | getIssue (issueKey correlationId : String)
  | searchIssues (jql projectKey correlationId : String)
  /-- `datetime.now(UTC)`. -/
  | now

abbrev JiraCall.Answer : JiraCall → Type
  | getIssue .. => Except Fault ProfiledIssue
  | searchIssues .. => Except Fault (List JiraIssueEvidence)
  | now => DateTime

abbrev JiraProc (α : Type) := Proc JiraCall JiraCall.Answer α

def JiraCall.ask (call : JiraCall) : JiraProc call.Answer := Proc.perform call

/-! ## Counts -/

/-- The counts of a workload: overdue, blocked, priority, due soon, active, projects, stale. -/
structure Workload where
  overdue : Nat
  blocked : Nat
  priority : Nat
  dueSoon : Nat
  active : Nat
  projects : Nat
  stale : Nat

def workloadCounts : Option WorkloadProfile → Workload
  | none => ⟨1, 1, 1, 1, 1, 1, 0⟩
  | some .balanced => ⟨0, 0, 0, 0, 1, 1, 0⟩
  | some .stalled => ⟨0, 0, 1, 1, 4, 2, 1⟩
  | some .high => ⟨2, 2, 3, 3, 8, 3, 2⟩
  | some .critical => ⟨4, 3, 4, 4, 10, 4, 3⟩
  | some .recovery => ⟨0, 0, 0, 1, 2, 1, 0⟩

/-- `blocker not in {None, "", "None"}`, of the first field of that name. -/
def fieldBlocks (issue : JiraIssueEvidence) : Bool :=
  match issue.customFields.find? (·.logicalName == "blocker_category") with
  | none => false
  | some field => match field.value with
    | .none => false
    | .str s => s ∉ ["", "None"]
    | _ => true

/-- The UTC date of an instant. -/
def utcDate (now : DateTime) : Date := (⟨now, 0⟩ : AwareDatetime).date

/-- The factors that the issue is evidence of. -/
def factorNames : List String :=
  ["utilization", "overdue_work", "blocked_work", "priority_load", "due_soon_load", "active_task_count",
    "concurrent_projects", "stale_work"]

structure EvidenceBundle where
  input : EmployeeOverloadInput
  evidenceDossier : Option RiskEvidenceDossier
  degraded : Bool := false

section
variable [LowerCase]

/-- The input of the scorer; the model refuses hours below zero, and a capacity of zero. -/
def overloadInput (environment : Environment) (employeeId : String) (capacity : Rat) (issue : ProfiledIssue)
    (now : DateTime) : Except Error EmployeeOverloadInput :=
  let workload := workloadCounts issue.workloadProfile
  let overdue := isOverdue (utcDate now) issue.dueDate && LowerCase.lower issue.status ∉ ["done", "closed", "resolved"]
  let urgent := issue.priority.any fun priority => LowerCase.lower priority ∈ ["high", "highest", "urgent"]
  let stale := decide (7 ≤ (now - issue.activityTimestamp.instant) / 86400000000)
  let references := issue.evidenceReferences.map fun r => "jira:" ++ r.issueKey ++ ":" ++ r.fieldId
  if hours : ∀ h ∈ issue.remainingEstimateSeconds.map inHours, 0 ≤ h then
    if capacity_pos : 0 < capacity then
      .ok
        { employeeId := employeeId
          environment := environment
          remainingEstimatedHours := (issue.remainingEstimateSeconds.map inHours).pmap Subtype.mk hours
          availableCapacityHours := some ⟨capacity, capacity_pos⟩
          overdueTasks := some (max overdue.toNat workload.overdue)
          blockedOrBlockingTasks := some (max (fieldBlocks issue.toJiraIssueEvidence).toNat workload.blocked)
          urgentHighPriorityTasks := some (max workload.priority urgent.toNat)
          dueSoonTasks := some (max (isDueSoon (utcDate now) issue.dueDate).toNat workload.dueSoon)
          activeTasks := some workload.active
          concurrentProjects := some workload.projects
          staleTasks := some (max stale.toNat workload.stale)
          evidenceTimestamp := issue.evidenceTimestamp
          evidenceReferences := factorNames.map fun name => (name, references) }
    else .error (.validationError "available_capacity_hours" "Input should be greater than 0")
  else .error (.validationError "remaining_estimated_hours" "Input should be greater than or equal to 0")

end

/-! ## The provider -/

structure SingleIssueJiraEvidenceProvider where
  issueKeys : List (String × String)
  capacity : List (String × Rat)
  environment : Environment

namespace SingleIssueJiraEvidenceProvider

variable [Unicode] [FloatText] (provider : SingleIssueJiraEvidenceProvider)

def getCurrentDossier (employeeId projectKey correlationId : String) : JiraProc (Except Fault RiskEvidenceDossier) :=
  if (provider.capacity.find? (·.1 == employeeId)).isNone then
    .ret (.error (.raised (.valueError "employee capacity is not configured")))
  else Proc.andThen (JiraCall.searchIssues (dossierJql projectKey employeeId) projectKey correlationId).ask fun rows =>
    JiraCall.now.ask.bind fun today => JiraCall.now.ask.bind fun now =>
      .ret ((currentDossier provider.capacity employeeId projectKey (utcDate today) now rows).mapError .raised)

def getEmployeeOverload [LowerCase] (employeeId projectKey correlationId : String) :
    JiraProc (Except Fault EvidenceBundle) :=
  match provider.issueKeys.lookup employeeId, provider.capacity.lookup employeeId with
  | some issueKey, some capacity =>
    if !startsWith issueKey (projectKey ++ "-") then
      .ret (.error (.raised (.valueError "employee issue is outside the requested project")))
    else Proc.bind (JiraCall.getIssue issueKey correlationId).ask fun
      | .error (.timeoutError _) => .ret (.error (.timeoutError "Jira MCP read timed out"))
      | .error fault => .ret (.error fault)
      | .ok issue => JiraCall.now.ask.bind fun now =>
        (provider.getCurrentDossier employeeId projectKey correlationId).andThen fun dossier =>
        .ret (((overloadInput provider.environment employeeId capacity issue now).map fun input =>
          { input := input, evidenceDossier := some dossier }).mapError .raised)
  | _, _ => .ret (.error (.raised (.valueError "employee Jira mapping is not configured")))

end SingleIssueJiraEvidenceProvider

/-! ## The scorer -/

structure ScoreOverloadRequest where
  environment : Environment
  correlationId : String
  deadlineAt : AwareDatetime
  scoredAt : AwareDatetime
  input : EmployeeOverloadInput

/-- `score_overload`, with the correlation ids that were seen before it and after it. -/
def scoreOverload (config : ScoringConfiguration) (serviceEnvironment : Environment) (correlations : List String)
    (request : ScoreOverloadRequest) : Except Fault ScoredResult × List String :=
  if request.correlationId.length < 1 then
    (.error (.raised (.validationError "correlation_id" "String should have at least 1 character")), correlations)
  else if 128 < request.correlationId.length then
    (.error (.raised (.validationError "correlation_id" "String should have at most 128 characters")), correlations)
  else if request.environment ≠ serviceEnvironment then
    (.error (.raised (.valueError "request environment mismatch")), correlations)
  else if request.deadlineAt.instant ≤ request.scoredAt.instant then
    (.error (.timeoutError "request deadline has expired"), correlations)
  else if request.correlationId ∈ correlations then
    (.error (.raised (.valueError "duplicate correlation ID")), correlations)
  else
    ((scoreEmployeeOverload request.input config request.scoredAt).mapError .raised, request.correlationId :: correlations)

/-! ## What is read for an employee -/

/-- What may be asked of Jira for an employee in a project: the issue configured for it there, and its own issues. -/
def ReadFor (provider : SingleIssueJiraEvidenceProvider) (employeeId projectKey correlationId : String) : JiraCall → Prop
  | .getIssue issueKey correlation => provider.issueKeys.lookup employeeId = some issueKey ∧
    startsWith issueKey (projectKey ++ "-") = true ∧ correlation = correlationId
  | .searchIssues jql project correlation =>
    jql = dossierJql projectKey employeeId ∧ project = projectKey ∧ correlation = correlationId
  | .now => True

/-- A bundle is about the employee, and its dossier about the employee's open issues in the project. -/
structure BundleFor (provider : SingleIssueJiraEvidenceProvider) [Unicode] (employeeId projectKey : String)
    (bundle : EvidenceBundle) : Prop where
  employee : bundle.input.employeeId = employeeId
  environment : bundle.input.environment = provider.environment
  whole : bundle.degraded = false
  dossier : ∃ dossier, bundle.evidenceDossier = some dossier ∧ dossier.employeeId = employeeId ∧
    dossier.projectKey = projectKey ∧
    ∀ task ∈ dossier.tasks, startsWith task.key (projectKey ++ "-") = true ∧ isDoneStatus task.status = false

section
variable [Unicode] [FloatText] [LowerCase] {provider : SingleIssueJiraEvidenceProvider}
  {employeeId projectKey correlationId : String}

omit [LowerCase] in
theorem currentDossier_ok {capacities : List (String × Rat)} {today : Date} {now : DateTime}
    {rows : List JiraIssueEvidence} {dossier : RiskEvidenceDossier}
    (h : currentDossier capacities employeeId projectKey today now rows = .ok dossier) :
    dossier.employeeId = employeeId ∧ dossier.projectKey = projectKey ∧
      ∀ task ∈ dossier.tasks, startsWith task.key (projectKey ++ "-") = true ∧ isDoneStatus task.status = false := by
  unfold currentDossier at h
  split at h
  · cases h
  · split at h
    · cases h
    · rename_i hproject
      cases h
      refine ⟨rfl, rfl, fun task htask => ?_⟩
      obtain ⟨row, hrow, rfl⟩ := List.mem_map.mp htask
      obtain ⟨hmem, hrelevant⟩ := List.mem_filter.mp hrow
      have hkey : startsWith row.key (projectKey ++ "-") = true := by
        by_contra hk
        exact hproject (List.any_eq_true.mpr ⟨row, hmem, by simpa using hk⟩)
      simp only [Bool.and_eq_true, Bool.not_eq_true'] at hrelevant
      exact ⟨hkey, hrelevant.2⟩

omit [Unicode] [FloatText] in
theorem overloadInput_ok {environment : Environment} {capacity : Rat} {issue : ProfiledIssue} {now : DateTime}
    {input : EmployeeOverloadInput} (h : overloadInput environment employeeId capacity issue now = .ok input) :
    input.employeeId = employeeId ∧ input.environment = environment := by
  unfold overloadInput at h
  dsimp only at h
  split at h
  · split at h
    · cases h
      exact ⟨rfl, rfl⟩
    · cases h
  · cases h

omit [LowerCase] in
theorem dossier_sat (t : List (Exchange JiraCall JiraCall.Answer)) :
    (provider.getCurrentDossier employeeId projectKey correlationId).Sat
      (Proc.recorded fun _ => ReadFor provider employeeId projectKey correlationId) t
      fun r _ => ∀ dossier, r = .ok dossier → dossier.employeeId = employeeId ∧ dossier.projectKey = projectKey ∧
        ∀ task ∈ dossier.tasks, startsWith task.key (projectKey ++ "-") = true ∧ isDoneStatus task.status = false := by
  unfold SingleIssueJiraEvidenceProvider.getCurrentDossier
  split
  · intro dossier h
    cases h
  apply Proc.sat_andThen
  refine Proc.sat_perform ⟨rfl, rfl, rfl⟩ fun answer => ?_
  cases answer with
  | error fault =>
    intro dossier h
    cases h
  | ok rows =>
    refine Proc.sat_bind (Proc.sat_perform trivial fun today => Proc.sat_bind (Proc.sat_perform trivial fun now => ?_))
    intro dossier h
    cases hc : currentDossier provider.capacity employeeId projectKey (utcDate today) now rows with
    | error error =>
      rw [hc] at h
      cases h
    | ok current =>
      rw [hc] at h
      cases h
      exact currentDossier_ok hc

/-- All of it is asked for the employee and in the project, and so is what comes of it. -/
theorem overload_sat : (provider.getEmployeeOverload employeeId projectKey correlationId).Sat
    (Proc.recorded fun _ => ReadFor provider employeeId projectKey correlationId) []
    fun r _ => ∀ bundle, r = .ok bundle → BundleFor provider employeeId projectKey bundle := by
  unfold SingleIssueJiraEvidenceProvider.getEmployeeOverload
  split
  · rename_i issueKey capacity hkey hcapacity
    split
    · intro bundle h
      cases h
    rename_i hproject
    refine Proc.sat_bind (Proc.sat_perform ⟨hkey, by simpa using hproject, rfl⟩ fun answer => ?_)
    cases answer with
    | error fault =>
      cases fault with
      | _ => intro bundle h; cases h
    | ok issue =>
      refine Proc.sat_bind (Proc.sat_perform trivial fun now => Proc.sat_andThen ((dossier_sat _).mono fun r t hr => ?_))
      cases r with
      | error fault =>
        intro bundle h
        cases h
      | ok dossier =>
        intro bundle h
        cases hi : overloadInput provider.environment employeeId capacity issue now with
        | error error =>
          rw [hi] at h
          cases h
        | ok input =>
          rw [hi] at h
          cases h
          obtain ⟨hemployee, henvironment⟩ := overloadInput_ok hi
          exact ⟨hemployee, henvironment, rfl, dossier, rfl, hr dossier rfl⟩
  · intro bundle h
    cases h

end

/-! ## What the scorer makes of it -/

/-- A score is of the correlation id for the first time, and uses it up. -/
theorem scoreOverload_ok {config : ScoringConfiguration} {serviceEnvironment : Environment} {correlations : List String}
    {request : ScoreOverloadRequest} {result : ScoredResult} {correlations' : List String}
    (h : scoreOverload config serviceEnvironment correlations request = (.ok result, correlations')) :
    request.correlationId ∉ correlations ∧ correlations' = request.correlationId :: correlations ∧
      scoreEmployeeOverload request.input config request.scoredAt = .ok result := by
  unfold scoreOverload at h
  repeat'
    split at h
    · cases h
  rename_i hnew
  obtain ⟨hscore, hused⟩ := Prod.mk.inj h
  refine ⟨hnew, hused.symm, ?_⟩
  cases hs : scoreEmployeeOverload request.input config request.scoredAt with
  | error error => rw [hs] at hscore; cases hscore
  | ok scored => rw [hs] at hscore; exact congrArg Except.ok (Except.ok.inj hscore)

theorem header_scored {header : Header} {tally : Tally} {confidence : ConfidenceLevel} {result : ScoredResult}
    (h : header.scored tally confidence = .ok result) : result.result.subjectId = header.subjectId := by
  obtain ⟨level, _, h⟩ := except_bind_ok.mp h
  split at h
  · cases h
    rfl
  · split at h
    · cases h
    · cases h

theorem score_subject {scorer : Scorer} {header : Header} {confidence : Rat → ConfidenceLevel} {factors : Factors}
    {result : ScoredResult} (h : scorer.score header confidence factors = .ok result) :
    result.result.subjectId = header.subjectId := by
  obtain ⟨tally, _, h⟩ := except_bind_ok.mp h
  split at h
  · cases h
    rfl
  · exact header_scored h

/-- A score is about the employee of its input. -/
theorem overload_subject {input : EmployeeOverloadInput} {config : ScoringConfiguration} {scoredAt : AwareDatetime}
    {result : ScoredResult} (h : scoreEmployeeOverload input config scoredAt = .ok result) :
    result.result.subjectId = input.employeeId := by
  unfold scoreEmployeeOverload at h
  split at h
  · cases h
    rfl
  split at h
  · cases h
    rfl
  split at h
  · cases h
  split at h
  · cases h
  · exact score_subject h

end WorkforceRisk.Evidence
