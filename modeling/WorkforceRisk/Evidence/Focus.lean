/-
  WorkforceRisk.Evidence.Focus — the facts an answer must be built from
  (services/agent-api/src/agent_api/evidence/focus.py, models.py).

  From a question, a snapshot, the plan and the context of the last answer,
  `buildAnswerEvidence` selects tasks and employees, and says which of the tasks the
  answer is required to name. A name counts where `re` finds it with no word character
  on either side (`spans`).
-/

import WorkforceRisk.Dashboard.Service

namespace WorkforceRisk.Evidence

open Lib Persistence Historical Dashboard

/-! ## Plans -/

inductive EvidenceScope where
  | project
  | employee
  | task
  | mixed
  deriving DecidableEq, Repr

inductive EvidenceCategory where
  | jiraIssues
  | workforceProfiles
  | capacityAndWorkload
  | skillsAndSeniority
  | riskResults
  | dependenciesAndBlockers
  | deadlines
  | history
  | operations
  deriving DecidableEq, Repr

inductive EntityKind where
  | project
  | employee
  | task
  | risk
  | operation
  deriving DecidableEq, Repr

structure EvidenceEntity where
  kind : EntityKind
  identifier : String

structure EvidencePlan where
  scope : EvidenceScope
  entities : List EvidenceEntity
  evidenceCategories : List EvidenceCategory
  exhaustive : Bool

/-- The identifiers of the plan's entities of a kind. -/
def EvidencePlan.identifiers (plan : EvidencePlan) (kind : EntityKind) : List String :=
  (plan.entities.filter (·.kind == kind)).map (·.identifier)

structure TaskFact where
  key : String
  summary : String
  status : String
  assignee : Option String
  dueDate : Option Date
  remainingHours : Option Rat
  blocker : Option String
  dependencies : List String
  deriving DecidableEq

structure GroundedAnswerContext where
  intent : String
  previousQuestion : Option String
  issues : List TaskFact
  employeeIds : List String
  exhaustive : Bool

/-! ## Evidence -/

structure MissingData where
  category : EvidenceCategory
  reason : String
  entity : String
  requiredForClaim : Bool

structure CapacityEvidence where
  employeeId : Option String
  configuredCapacityHours : Rat
  workloadHours : Rat
  availableCapacityHours : Rat
  capacityHeadroomHours : Rat
  utilizationPercent : Rat

structure AnswerTaskEvidence where
  key : String
  summary : String
  status : String
  priority : String
  assignee : Option String
  dueDate : Option Date
  remainingHours : Option Rat
  blocker : Option String
  dependencies : List String
  blocked : Bool
  blocksDownstream : List String
  overdue : Bool
  dueSoon : Bool
  missingFields : List String

structure AnswerEmployeeEvidence where
  employeeId : String
  displayName : String
  role : Option String
  skills : List String
  capacityHours : Option Rat
  remainingHours : Option Rat
  availableCapacityHours : Option Rat
  activeTasks : Nat
  riskLevel : Level
  topRisk : String
  taskKeys : List String

structure AnswerEvidenceSet where
  questionFocus : String
  tasks : List AnswerTaskEvidence
  requiredTaskKeys : List String
  employees : List AnswerEmployeeEvidence
  exhaustive : Bool
  missingData : List MissingData

/-- `any(phrase in folded for phrase in phrases)`. -/
def mentionsAny (folded : String) (phrases : List String) : Bool := phrases.any (contains folded)

section
variable [Unicode]

def isDone (task : TaskSummary) : Bool :=
  casefold task.status ∈ ["done", "closed", "resolved", "complete", "completed"]

def isBlocked (task : TaskSummary) : Bool :=
  task.blocker.any (· != "") ||
    task.dependencies.any fun dependency => startsWith (casefold dependency) "is blocked by:"

def asksBlocked (folded : String) : Bool := mentionsAny folded ["blocked", "blocker"]

def refersToPrior (folded : String) : Bool := mentionsAny folded ["that task", "those tasks", "these tasks", "them"]

/-- What `split(":", 1)[1].strip()` leaves. -/
def afterColon (s : String) : String := strip (String.ofList ((s.toList.dropWhile (· != ':')).drop 1))

def taskEvidence (snapshot : DashboardSnapshot) (task : TaskSummary) : AnswerTaskEvidence :=
  let today := snapshot.evidenceTimestamp.date
  { key := task.key
    summary := task.summary
    status := task.status
    priority := match task.priority with
      | some priority => if priority = "" then "Unknown" else priority
      | none => "Unknown"
    assignee := task.assigneeName
    dueDate := task.dueDate
    remainingHours := task.remainingHours
    blocker := task.blocker
    dependencies := task.dependencies
    blocked := isBlocked task
    blocksDownstream :=
      (task.dependencies.filter fun dependency => startsWith (casefold dependency) "blocks:").map afterColon
    overdue := !isDone task && isOverdue today task.dueDate
    dueSoon := !isDone task && isDueSoon today task.dueDate
    missingFields :=
      (if task.priority.isNone then ["priority"] else []) ++ (if task.dueDate.isNone then ["due_date"] else []) ++
        if task.remainingHours.isNone then ["remaining_hours"] else [] }

end

def employeeEvidence (snapshot : DashboardSnapshot) (employee : EmployeeSummary) : AnswerEmployeeEvidence where
  employeeId := employee.employeeId
  displayName := employee.displayName
  role := employee.role
  skills := employee.skills
  capacityHours := employee.capacityHours
  remainingHours := employee.remainingHours
  availableCapacityHours := match employee.capacityHours, employee.remainingHours with
    | some capacity, some remaining => some (max (capacity - remaining) 0)
    | _, _ => none
  activeTasks := employee.activeTasks
  riskLevel := employee.level
  topRisk := employee.topRisk
  taskKeys := (snapshot.tasks.filter fun task => task.assigneeId == some employee.employeeId).map (·.key)

/-! ## Names in a question -/

section
variable [Unicode]

/-- `(?<!\w)name(?!\w)` right here. -/
def nameAt (name : List Char) (before : Option Char) (text : List Char) : Bool :=
  !before.any Unicode.isWord && name.isPrefixOf text && !(text.drop name.length).head?.any Unicode.isWord

/-- `finditer`: where the name is found, from `position` on and past the `skip` characters
    of a match before. -/
def spansFrom (name : List Char) (position : Nat) (before : Option Char) (skip : Nat) : List Char → List (Nat × Nat)
  | [] => if skip == 0 && nameAt name before [] then [(position, position + name.length)] else []
  | c :: text =>
    if skip == 0 && nameAt name before (c :: text) then
      (position, position + name.length) :: spansFrom name (position + 1) (some c) (name.length - 1) text
    else spansFrom name (position + 1) (some c) (skip - 1) text

def spans (name text : String) : List (Nat × Nat) := spansFrom name.toList 0 none 0 text.toList

/-- A found name: where it starts and ends, and whose it is. -/
structure NameMatch where
  start : Nat
  stop : Nat
  employeeId : String
  deriving DecidableEq

/-- Longer matches first, then those further left. -/
def NameMatch.before (a b : NameMatch) : Bool :=
  let lengthA := a.stop - a.start
  let lengthB := b.stop - b.start
  lengthB < lengthA || (lengthA == lengthB && a.start ≤ b.start)

/-- Of the matches, those that overlap none taken before. -/
def acceptMatches (matches' : List NameMatch) : List NameMatch :=
  matches'.foldl (fun accepted m =>
    if accepted.any fun a => m.start < a.stop && a.start < m.stop then accepted else accepted ++ [m]) []

def namedEmployees (employees : List EmployeeSummary) (folded : String) : List EmployeeSummary :=
  let directly := (employees.filter fun e => !(spans (casefold e.employeeId) folded).isEmpty).map (·.employeeId)
  let found := employees.flatMap fun e =>
    (spans (casefold e.displayName) folded).map fun (start, stop) => (⟨start, stop, e.employeeId⟩ : NameMatch)
  let accepted := (acceptMatches (found.insertionSort fun a b => a.before b)).map (·.employeeId)
  employees.filter fun e => e.employeeId ∈ directly ++ accepted

def selectEmployees (snapshot : DashboardSnapshot) (folded : String) (explicitIds : List String) (includeAll : Bool) :
    List EmployeeSummary :=
  if !explicitIds.isEmpty then
    let wanted := explicitIds.map casefold
    let matched := snapshot.employees.filter fun e =>
      casefold e.employeeId ∈ wanted || casefold e.displayName ∈ wanted
    if !matched.isEmpty || !includeAll then matched else snapshot.employees
  else
    let named := namedEmployees snapshot.employees folded
    if includeAll && named.isEmpty then snapshot.employees else named

/-! ## Deadlines -/

def priorityRank (priority : String) : Nat :=
  match priority with
  | "highest" | "critical" => 0
  | "high" => 1
  | "medium" => 2
  | "low" => 3
  | "lowest" => 4
  | _ => 5

/-- `_deadline_rank(a) <= _deadline_rank(b)`, of tasks that have a due date. -/
def deadlineBefore (today : Date) (a b : TaskSummary) : Bool :=
  let late (t : TaskSummary) : Nat := if isOverdue today t.dueDate then 0 else 1
  let stuck (t : TaskSummary) : Nat := if isBlocked t then 0 else 1
  let due (t : TaskSummary) : Date := t.dueDate.getD 0
  let urgent (t : TaskSummary) : Nat := priorityRank (casefold (t.priority.getD ""))
  let work (t : TaskSummary) : Rat := -(t.remainingHours.getD 0)
  if late a ≠ late b then late a < late b
  else if stuck a ≠ stuck b then stuck a < stuck b
  else if due a ≠ due b then due a < due b
  else if urgent a ≠ urgent b then urgent a < urgent b
  else if work a ≠ work b then work a < work b
  else a.key ≤ b.key

/-- The tasks that can be late, the most pressing first. -/
def datedTasks (snapshot : DashboardSnapshot) : List TaskSummary :=
  (snapshot.tasks.filter fun task => !isDone task && task.dueDate.isSome).insertionSort fun a b =>
    deadlineBefore snapshot.evidenceTimestamp.date a b

/-! ## Selecting -/

/-- The selected tasks, and those of them the answer must name. -/
structure TaskSelection where
  selected : List TaskSummary
  required : List TaskSummary

/-- All that are selected are required. -/
def TaskSelection.all (tasks : List TaskSummary) : TaskSelection := ⟨tasks, tasks⟩

def selectDeadlines (folded : String) (snapshot : DashboardSnapshot) : TaskSelection :=
  let dated := datedTasks snapshot
  let today := snapshot.evidenceTimestamp.date
  if mentionsAny folded ["most likely", "highest risk", "riskiest", "top "] then .all (dated.take 5)
  else if contains folded "overdue" then ⟨dated, dated.filter fun task => isOverdue today task.dueDate⟩
  else if contains folded "due soon" then ⟨dated, dated.filter fun task => isDueSoon today task.dueDate⟩
  else .all dated

/-- The task keys of the plan, or of the last answer when the question refers to it. -/
def explicitKeys (folded : String) (plan : EvidencePlan) (previous : Option GroundedAnswerContext) : List String :=
  let keys := plan.identifiers .task
  match previous with
  | some context => if keys.isEmpty && refersToPrior folded then context.issues.map (·.key) else keys
  | none => keys

/-- `task_by_key[key]`: the last task of that key. -/
def taskByKey (snapshot : DashboardSnapshot) (key : String) : Option TaskSummary :=
  snapshot.tasks.reverse.find? (·.key == key)

def selectTasks (folded : String) (snapshot : DashboardSnapshot) (plan : EvidencePlan) (keys : List String) :
    TaskSelection :=
  if !keys.isEmpty then .all (keys.filterMap (taskByKey snapshot))
  else if asksBlocked folded then .all (snapshot.tasks.filter isBlocked)
  else if contains folded "missing" && contains folded "estimate" then
    .all (snapshot.tasks.filter fun task => !isDone task && task.remainingHours.isNone)
  else if mentionsAny folded ["deadline", "due", "overdue"] then selectDeadlines folded snapshot
  else if plan.scope = .task then .all snapshot.tasks
  else .all []

/-- The employees the plan names; an exhaustive question for all employees is not narrowed. -/
def explicitEmployeeIds (folded : String) (plan : EvidencePlan) : List String :=
  if plan.exhaustive && mentionsAny folded
      ["which employees", "all employees", "employees are", "which people", "who is at risk"] then []
  else plan.identifiers .employee

/-- The task is assigned to one of the employees. -/
def assignedTo (employees : List EmployeeSummary) (task : TaskSummary) : Bool :=
  employees.any fun e => task.assigneeId == some e.employeeId

/-- The tasks once employees are selected: theirs if no task is, and of a task question only
    theirs. -/
def TaskSelection.ofEmployees (s : TaskSelection) (snapshot : DashboardSnapshot) (plan : EvidencePlan)
    (keys : List String) (employees : List EmployeeSummary) : TaskSelection :=
  if !employees.isEmpty && s.selected.isEmpty then .all (snapshot.tasks.filter (assignedTo employees))
  else if !employees.isEmpty && plan.scope == .task && keys.isEmpty then
    let selected := s.selected.filter (assignedTo employees)
    ⟨selected, selected.filter fun task => task.key ∈ s.required.map (·.key)⟩
  else s

section
variable {s : TaskSelection} {snapshot : DashboardSnapshot} {plan : EvidencePlan} {keys : List String}
  {employees : List EmployeeSummary}

omit [Unicode] in
/-- Employees alone select their tasks. -/
theorem ofEmployees_of_none (he : employees ≠ []) (hs : s.selected = []) :
    s.ofEmployees snapshot plan keys employees = .all (snapshot.tasks.filter (assignedTo employees)) := by
  rw [TaskSelection.ofEmployees, if_pos (by simp [he, hs])]

omit [Unicode] in
/-- A task question keeps of its tasks those of the employees. -/
theorem ofEmployees_narrowed (he : employees ≠ []) (hs : s.selected ≠ []) (hscope : plan.scope = .task)
    (hkeys : keys = []) : s.ofEmployees snapshot plan keys employees =
      ⟨s.selected.filter (assignedTo employees),
        (s.selected.filter (assignedTo employees)).filter fun task => task.key ∈ s.required.map (·.key)⟩ := by
  rw [TaskSelection.ofEmployees, if_neg (by simp [hs]), if_pos (by simp [he, hscope, hkeys])]

omit [Unicode] in
/-- Else the selection stays. -/
theorem ofEmployees_kept (h : employees = [] ∨ (s.selected ≠ [] ∧ (plan.scope ≠ .task ∨ keys ≠ []))) :
    s.ofEmployees snapshot plan keys employees = s := by
  rw [TaskSelection.ofEmployees]
  rcases h with he | ⟨hs, hscope⟩
  · rw [if_neg (by simp [he]), if_neg (by simp [he])]
  · rw [if_neg (by simp [hs]), if_neg (by
      simp only [Bool.and_eq_true, beq_iff_eq, List.isEmpty_iff, not_and]
      intro h hkeys
      exact hscope.elim (fun hne => hne h.2) fun hne => hne hkeys)]

end

/-- The employees once tasks are selected: if none is, those the tasks are assigned to. -/
def employeesOf (snapshot : DashboardSnapshot) (tasks : List TaskSummary) (employees : List EmployeeSummary) :
    List EmployeeSummary :=
  if !tasks.isEmpty && employees.isEmpty then
    snapshot.employees.filter fun e => e.employeeId != "" && tasks.any fun task => task.assigneeId == some e.employeeId
  else employees

/-- The employees that a question selects by itself. -/
def chosenEmployees (question : String) (snapshot : DashboardSnapshot) (plan : EvidencePlan) : List EmployeeSummary :=
  selectEmployees snapshot (casefold question) (explicitEmployeeIds (casefold question) plan)
    (plan.scope = .employee || plan.scope = .mixed)

/-- The tasks that a question selects before employees are looked at. -/
def chosenTasks (question : String) (snapshot : DashboardSnapshot) (plan : EvidencePlan)
    (previous : Option GroundedAnswerContext) : TaskSelection :=
  selectTasks (casefold question) snapshot plan (explicitKeys (casefold question) plan previous)

def focusedMissingData (tasks : List TaskSummary) (employees : List EmployeeSummary) (requested : List EvidenceCategory) :
    List MissingData :=
  (tasks.filter (·.remainingHours.isNone)).map
      (fun task => ⟨.jiraIssues, "remaining estimate is unavailable", "task:" ++ task.key, true⟩) ++
    employees.flatMap fun e =>
      (if e.capacityHours.all (· ≤ 0) then
        [⟨.capacityAndWorkload, "configured capacity is unavailable", "employee:" ++ e.employeeId, true⟩] else []) ++
      if EvidenceCategory.skillsAndSeniority ∈ requested && e.skills.isEmpty then
        [⟨.skillsAndSeniority, "documented skills are unavailable", "employee:" ++ e.employeeId, true⟩] else []

end

section
variable [TextTables]

/-- `required_tasks_are_in_evidence`. -/
def AnswerEvidenceSet.validate (evidence : AnswerEvidenceSet) : Except Error AnswerEvidenceSet :=
  let keys := evidence.tasks.map fun task => upper task.key
  let unknown := (evidence.requiredTaskKeys.map upper).filter fun key => key ∉ keys
  if unknown.isEmpty then .ok evidence
  else .error (.validationError "" ("required task keys must exist in task evidence: " ++
    String.intercalate ", " (unknown.dedup.insertionSort (· ≤ ·))))

/-- What is selected for a question, before it is turned into evidence. -/
structure Selection where
  tasks : TaskSelection
  employees : List EmployeeSummary

def select (question : String) (snapshot : DashboardSnapshot) (plan : EvidencePlan)
    (previous : Option GroundedAnswerContext) : Selection :=
  let employees := chosenEmployees question snapshot plan
  let tasks := (chosenTasks question snapshot plan previous).ofEmployees snapshot plan
    (explicitKeys (casefold question) plan previous) employees
  ⟨tasks, employeesOf snapshot tasks.selected employees⟩

/-- `MissingData`: an entity's name is bounded. -/
def validateMissing (missing : List MissingData) : Except Error (List MissingData) :=
  if missing.all fun item => item.entity.length ≤ 128 then .ok missing
  else .error (.validationError "entity" "String should have at most 128 characters")

def buildAnswerEvidence (question : String) (snapshot : DashboardSnapshot) (plan : EvidencePlan)
    (previous : Option GroundedAnswerContext) : Except Error AnswerEvidenceSet := do
  let selection := select question snapshot plan previous
  let missingData ← validateMissing
    (focusedMissingData selection.tasks.selected selection.employees plan.evidenceCategories)
  AnswerEvidenceSet.validate
    { questionFocus := question
      tasks := selection.tasks.selected.map (taskEvidence snapshot)
      requiredTaskKeys := selection.tasks.required.map (·.key)
      employees := selection.employees.map (employeeEvidence snapshot)
      exhaustive := plan.exhaustive
      missingData := missingData }

def AnswerTaskEvidence.fact (task : AnswerTaskEvidence) : TaskFact :=
  ⟨task.key, task.summary, task.status, task.assignee, task.dueDate, task.remainingHours, task.blocker,
    task.dependencies⟩

def answerContextFromEvidence (evidence : AnswerEvidenceSet) : GroundedAnswerContext :=
  let required := evidence.requiredTaskKeys.map upper
  let tasks := if !required.isEmpty then evidence.tasks.filter fun task => upper task.key ∈ required else evidence.tasks
  { intent := "focused_project_evidence"
    previousQuestion := some evidence.questionFocus
    issues := tasks.map (·.fact)
    employeeIds := evidence.employees.map (·.employeeId)
    exhaustive := evidence.exhaustive }

end

end WorkforceRisk.Evidence
