/-
  WorkforceRisk.Dashboard.Assignments — whose task is whose, from Jira's rows to the facts
  of an answer (services/agent-api/src/agent_api: dashboard/service.py `_employee`,
  `_task`, evidence/focus.py `build_answer_evidence`, `_employee_evidence`).

  A task keeps the account it is assigned to; an employee is labelled by the id of the
  account's profile, or by `jira:` and the account. The evidence joins the two as texts.

  Proved (`assignments_survive_iff`): each employee has the tasks of its account, and a
  selection by employees selects the tasks of their accounts, exactly when every account
  with an active row has a profile whose id is the account.
-/

import WorkforceRisk.Evidence.Focus

namespace WorkforceRisk.Dashboard

open Lib Persistence Historical Evidence Jira

/-- What a search answers: each issue once. -/
structure JiraSearch where
  rows : List JiraIssueEvidence
  distinct : (rows.map (·.key)).Nodup

section
variable [TextTables] [FloatText] [Sha256] (service : DashboardService) (rows : List JiraIssueEvidence)
  (correlationId : String)

/-- The employee of the snapshot that an account's active rows are summed up in. -/
def EmployeeOf (accountId : String) (e : EmployeeSummary) : Prop :=
  accountId ∈ accountsOf rows ∧ service.employee accountId (rowsOf accountId (activeRows rows)) correlationId = .ok e

/-- The task is assigned, by Jira account, to one of the employees. -/
def Theirs (employees : List EmployeeSummary) (task : TaskSummary) : Prop :=
  ∃ e ∈ employees, ∃ accountId, EmployeeOf service rows correlationId accountId e ∧ task.assigneeId = some accountId

structure AssignmentsSurvive (snapshot : DashboardSnapshot) : Prop where
  /-- An employee's evidence names the tasks of the account. -/
  taskKeys : ∀ accountId e, EmployeeOf service rows correlationId accountId e →
    (employeeEvidence snapshot e).taskKeys = (rowsOf accountId rows).map (·.key)
  /-- Where only employees are selected, the tasks are theirs. -/
  selected : ∀ question plan previous, chosenEmployees question snapshot plan ≠ [] →
    (chosenTasks question snapshot plan previous).selected = [] →
    ∀ task ∈ snapshot.tasks, task ∈ (select question snapshot plan previous).tasks.selected ↔
      Theirs service rows correlationId (chosenEmployees question snapshot plan) task
  /-- Where a task question selects both, the tasks kept are theirs. -/
  narrowed : ∀ question plan previous, chosenEmployees question snapshot plan ≠ [] →
    (chosenTasks question snapshot plan previous).selected ≠ [] → plan.scope = .task →
    explicitKeys (casefold question) plan previous = [] →
    ∀ task ∈ (chosenTasks question snapshot plan previous).selected,
      task ∈ (select question snapshot plan previous).tasks.selected ↔
        Theirs service rows correlationId (chosenEmployees question snapshot plan) task

end

/-- Every account with an active row has a profile, whose id is the account. -/
def LabelledByAccount [Unicode] (service : DashboardService) (rows : List JiraIssueEvidence) : Prop :=
  ∀ accountId ∈ accountsOf rows, (service.profile accountId).any fun profile => profile.employeeId == accountId

/-- Only a profile labels an account by itself. -/
theorem employeeId_eq_iff {service : DashboardService} {accountId : String} :
    service.employeeId accountId = accountId ↔
      ((service.profile accountId).any fun profile => profile.employeeId == accountId) = true := by
  unfold DashboardService.employeeId
  cases hp : service.profile accountId with
  | some profile => simp
  | none =>
    refine ⟨fun he => ?_, fun h => (by cases h)⟩
    have := congrArg String.length he
    simp [String.length_append] at this

/-! ## Accounts and employees -/

section
variable [Unicode] {service : DashboardService} {rows : List JiraIssueEvidence} {accountId : String}

theorem mem_activeRows {row : JiraIssueEvidence} :
    row ∈ activeRows rows ↔ row ∈ rows ∧ isDoneStatus row.status = false := by
  simp [activeRows]

theorem mem_accountsOf : accountId ∈ accountsOf rows ↔ ∃ row ∈ activeRows rows, row.account = some accountId := by
  simp [accountsOf, List.mem_eraseDups, List.mem_filterMap]

/-- The keys of the tasks with an account are those of its rows. -/
theorem keys_of_account : ((rows.map service.task).filter fun task => task.assigneeId == some accountId).map (·.key) =
    (rowsOf accountId rows).map (·.key) := by
  rw [List.filter_map, List.map_map]
  rfl

/-- One row's key tells its account. -/
theorem account_of_keys {label : String} (hdistinct : (rows.map (·.key)).Nodup) (ha : accountId ∈ accountsOf rows)
    (h : (rowsOf label rows).map (·.key) = (rowsOf accountId rows).map (·.key)) : label = accountId := by
  obtain ⟨row, hrow, haccount⟩ := mem_accountsOf.mp ha
  have hmem : row.key ∈ (rowsOf label rows).map (·.key) := by
    rw [h]
    exact List.mem_map_of_mem (List.mem_filter.mpr ⟨(mem_activeRows.mp hrow).1, by simpa using haccount⟩)
  obtain ⟨other, hother, hkey⟩ := List.mem_map.mp hmem
  obtain ⟨hotherRows, hlabel⟩ := List.mem_filter.mp hother
  have hsame : other = row := List.inj_on_of_nodup_map hdistinct hotherRows (mem_activeRows.mp hrow).1 hkey
  subst hsame
  rw [haccount] at hlabel
  exact (by simpa using hlabel : accountId = label).symm

end

section
variable [TextTables] [FloatText] [Sha256] {service : DashboardService} {rows : List JiraIssueEvidence}
  {correlationId accountId : String} {e : EmployeeSummary} {snapshot : DashboardSnapshot}

/-- How an account's employee is labelled, and over how many rows it is. -/
theorem employee_ok {own : List JiraIssueEvidence} (h : service.employee accountId own correlationId = .ok e) :
    e.employeeId = service.employeeId accountId ∧ e.activeTasks = own.length := by
  unfold DashboardService.employee at h
  dsimp only at h
  split at h
  · obtain ⟨_, _, h⟩ := except_bind_ok.mp h
    obtain ⟨_, _, h⟩ := except_bind_ok.mp h
    cases h
    exact ⟨rfl, rfl⟩
  · cases h
    exact ⟨rfl, rfl⟩

theorem EmployeeOf.employeeId_eq (h : EmployeeOf service rows correlationId accountId e) :
    e.employeeId = service.employeeId accountId := (employee_ok h.2).1

/-- The employees of a snapshot are those of its accounts. -/
theorem mem_employees {projectKey : String} (h : service.build projectKey rows correlationId = .ok snapshot) :
    e ∈ snapshot.employees ↔ ∃ accountId, EmployeeOf service rows correlationId accountId e := by
  obtain ⟨_, _, _, _, _, summaries, hs, he⟩ := build_ok h
  rw [he, List.mem_insertionSort, mem_mapM_ok hs]
  rfl

/-- Every account with an active row has its employee. -/
theorem exists_employee {projectKey : String} (h : service.build projectKey rows correlationId = .ok snapshot)
    (ha : accountId ∈ accountsOf rows) : ∃ e, EmployeeOf service rows correlationId accountId e := by
  obtain ⟨_, _, _, _, _, summaries, hs, _⟩ := build_ok h
  obtain ⟨e, he⟩ := mapM_ok_of_mem hs accountId ha
  exact ⟨e, ha, he⟩

omit [FloatText] [Sha256] in
theorem selectEmployees_subset {folded : String} {ids : List String} {all : Bool}
    (h : e ∈ selectEmployees snapshot folded ids all) : e ∈ snapshot.employees := by
  unfold selectEmployees at h
  dsimp only at h
  split at h
  · split at h
    · exact (List.mem_filter.mp h).1
    · exact h
  · split at h
    · exact h
    · exact (List.mem_filter.mp h).1

omit [FloatText] [Sha256] in
theorem chosenEmployees_subset {question : String} {plan : EvidencePlan}
    (h : e ∈ chosenEmployees question snapshot plan) :
    e ∈ snapshot.employees := selectEmployees_subset h

/-! ## The join -/

/-- Labelled by their accounts, employees have the tasks that are theirs. -/
theorem assignedTo_iff {projectKey : String} (h : service.build projectKey rows correlationId = .ok snapshot)
    (hlabel : LabelledByAccount service rows) {employees : List EmployeeSummary} {task : TaskSummary}
    (hsub : ∀ e ∈ employees, e ∈ snapshot.employees) :
    assignedTo employees task = true ↔ Theirs service rows correlationId employees task := by
  have hid : ∀ e accountId, EmployeeOf service rows correlationId accountId e → e.employeeId = accountId :=
    fun e accountId he => he.employeeId_eq.trans (employeeId_eq_iff.mpr (hlabel accountId he.1))
  constructor
  · intro hassigned
    obtain ⟨e, he, htask⟩ := List.any_eq_true.mp hassigned
    obtain ⟨accountId, hof⟩ := (mem_employees h).mp (hsub e he)
    rw [hid e accountId hof] at htask
    exact ⟨e, he, accountId, hof, by simpa using htask⟩
  · intro htheirs
    obtain ⟨e, he, accountId, hof, htask⟩ := htheirs
    exact List.any_eq_true.mpr ⟨e, he, by rw [hid e accountId hof]; simpa using htask⟩

theorem assignments_survive_iff {search : JiraSearch} {projectKey : String}
    (h : service.build projectKey search.rows correlationId = .ok snapshot) :
    AssignmentsSurvive service search.rows correlationId snapshot ↔ LabelledByAccount service search.rows := by
  obtain ⟨htasks, _⟩ := build_ok h
  constructor
  · intro hsurvive accountId ha
    obtain ⟨e, hof⟩ := exists_employee h ha
    refine employeeId_eq_iff.mp (account_of_keys search.distinct ha ?_)
    rw [← hsurvive.taskKeys accountId e hof, ← hof.employeeId_eq, ← keys_of_account, ← htasks]
    rfl
  · intro hlabel
    refine ⟨fun accountId e hof => ?_, fun question plan previous he ht task hmem => ?_,
      fun question plan previous he ht hscope hkeys task hmem => ?_⟩
    · rw [employeeEvidence, htasks, hof.employeeId_eq,
        employeeId_eq_iff.mpr (hlabel accountId hof.1), keys_of_account]
    · rw [select, ofEmployees_of_none he ht, TaskSelection.all, List.mem_filter,
        assignedTo_iff h hlabel fun e => chosenEmployees_subset]
      exact and_iff_right hmem
    · rw [select, ofEmployees_narrowed he ht hscope hkeys, List.mem_filter,
        assignedTo_iff h hlabel fun e => chosenEmployees_subset]
      exact and_iff_right hmem

end

/-! ## An account without a profile, and one that is its own profile -/

def assignedRow : JiraIssueEvidence := { sampleRow with assignee := some ⟨"acc-1", "Ada", by decide, by decide⟩ }

/-- The search that finds the one issue. -/
def oneIssue : JiraSearch := ⟨[assignedRow], by decide⟩

/-- An employee without a profile has no tasks in the evidence. -/
theorem an_unmapped_employee_has_no_tasks : letI := TextTables.ascii; letI := FloatText.plain; letI := Sha256.transparent
    ∃ snapshot, bareService.build "WFD" oneIssue.rows "corr-1" = .ok snapshot ∧
      ¬ AssignmentsSurvive bareService oneIssue.rows "corr-1" snapshot := by
  let _ := TextTables.ascii
  let _ := FloatText.plain
  let _ := Sha256.transparent
  refine ⟨_, rfl, fun h => ?_⟩
  have hkeys := h.taskKeys "acc-1" _ ⟨by decide, rfl⟩
  exact absurd hkeys (by decide)

/-- A service whose one profile has the account for an id. -/
def mappedService : DashboardService :=
  { bareService with profiles := [("acc-1", ⟨"acc-1", "Ada", none, ⟨40, by decide⟩, [], by decide, by decide⟩)] }

theorem mapped_assignments_survive : letI := TextTables.ascii; letI := FloatText.plain; letI := Sha256.transparent
    ∃ snapshot, mappedService.build "WFD" oneIssue.rows "corr-1" = .ok snapshot ∧
      AssignmentsSurvive mappedService oneIssue.rows "corr-1" snapshot := by
  let _ := TextTables.ascii
  let _ := FloatText.plain
  let _ := Sha256.transparent
  obtain ⟨snapshot, h⟩ : ∃ snapshot, mappedService.build "WFD" oneIssue.rows "corr-1" = .ok snapshot := ⟨_, rfl⟩
  exact ⟨snapshot, h, (assignments_survive_iff h).mpr (by unfold LabelledByAccount; decide)⟩

end WorkforceRisk.Dashboard
