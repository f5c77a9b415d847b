/-
  WorkforceRisk.Tasks.Query — questions about tasks that Jira answers
  (services/agent-api/src/agent_api/task_queries.py).

  A question is read in five ways, of which the first that fits counts: it speaks of "that
  task" of the answer before, it names an issue, it has the phrase of a list, or it asks for
  what an employee has due tomorrow. What the tool then asks Jira (`Asked`) is one issue or
  one search, through the client that the whole service has; a run keeps what was asked
  beside the events of the client.
-/

import WorkforceRisk.Evidence.Blocked
import WorkforceRisk.Jira.Client

namespace WorkforceRisk.Tasks

open Lib Lib.Breaker Persistence Historical Evidence Dashboard
open WorkforceRisk.Jira (JiraEvidenceClient JiraIssueEvidence Reading ReadError)

inductive TaskQueryKind where
  | issueDueDate
  | issueStatus
  | issueAssignee
  | referencedTaskAssignee
  | employeeDueBy
  | doneTasks
  | missingEstimates
  | blockedTasks
  | overdueTasks
  | dueSoonTasks
  | ambiguousReferent
  deriving DecidableEq

def TaskQueryKind.value : TaskQueryKind → String
  | issueDueDate => "issue_due_date"
  | issueStatus => "issue_status"
  | issueAssignee => "issue_assignee"
  | referencedTaskAssignee => "referenced_task_assignee"
  | employeeDueBy => "employee_due_by"
  | doneTasks => "list_done_tasks"
  | missingEstimates => "missing_estimates"
  | blockedTasks => "blocked_tasks"
  | overdueTasks => "overdue_tasks"
  | dueSoonTasks => "due_soon_tasks"
  | ambiguousReferent => "ambiguous_referent"

structure TaskQuery where
  kind : TaskQueryKind
  projectKey : String
  issueKey : Option String
  employeeId : Option String
  dueBy : Option Date
  jql : Option String

structure TaskQueryResult where
  answer : String
  tasks : List TaskFact
  evidenceReferences : List String
  correlationId : String
  context : GroundedAnswerContext

structure EntityReferences where
  employeeId : Option String
  projectKey : String
  employeeId_ok : ∀ e ∈ employeeId, e.length ≤ 128
  projectKey_ok : isProjectKey projectKey = true

/-! ## Reading a question -/

def valueError {α : Type} (message : String) : Except Raised α := .error (.error (.valueError message))

/-- The predicates of the lists, by the phrase that asks for one. -/
def listQueries : List (String × TaskQueryKind × String) :=
  [("done", .doneTasks, "statusCategory = Done"),
    ("missing estimate", .missingEstimates, "statusCategory != Done AND remainingEstimate is EMPTY"),
    ("blocked", .blockedTasks, "statusCategory != Done"),
    ("overdue", .overdueTasks, "statusCategory != Done AND duedate < startOfDay()"),
    ("due soon", .dueSoonTasks, "statusCategory != Done AND duedate >= startOfDay() AND duedate <= 7d")]

/-- What all queries start with. -/
def projectQuery (projectKey rest : String) : String := "project = \"" ++ projectKey ++ "\" AND " ++ rest

def listJql (projectKey predicate : String) : String := projectQuery projectKey (predicate ++ " ORDER BY key ASC")

def employeeJql (projectKey employeeId : String) (dueBy : Date) : String :=
  projectQuery projectKey ("labels = \"workforce-employee:" ++ employeeId ++
    "\" AND labels != \"workforce-record:employee-profile\" AND duedate <= \"" ++ dueBy.isoformat ++
    "\" AND statusCategory != Done ORDER BY duedate ASC, key ASC")

/-- `date + timedelta(days=1)`. -/
def tomorrow (today : Date) : Except Raised Date :=
  if today + 1 ≤ 2932896 then .ok (today + 1) else .error (.overflowError "date value out of range")

section
variable [TextTables]

namespace Pattern

open Regex Evidence.Pattern

/-- `\b([A-Z][A-Z0-9]{1,19}-\d+)\b` -/
def namedIssue : Regex := seqs [edge, group 1 key, edge]

/-- `\bemployee\s+(\d{1,3})\b` -/
def numberedEmployee : Regex := seqs [edge, lit "employee", plus space, group 1 (repeated 1 3 digit), edge]

end Pattern

def captured (r : Regex) (text : String) : Option String :=
  (r.search text.toList).map fun found => String.ofList ((found.group 1).getD [])

/-- Whether a question speaks of the task of the answer before. -/
def refersBack (question : String) : Bool :=
  contains (casefold question) "that task" || contains (casefold question) "that issue"

def referencedTask (references : EntityReferences) (previous : Option GroundedAnswerContext) : Except Raised TaskQuery :=
  match (previous.map (·.issues)).getD [] with
  | [] => valueError "previous task context is required"
  | [prior] => .ok ⟨.referencedTaskAssignee, references.projectKey, some prior.key, none, none, none⟩
  | _ => .ok ⟨.ambiguousReferent, references.projectKey, none, none, none, none⟩

def issueKind (folded : String) : TaskQueryKind :=
  if contains folded "due" || contains folded "deadline" then .issueDueDate
  else if contains folded "who" || contains folded "assign" || contains folded "employee" then .issueAssignee
  else .issueStatus

def namedIssue (question : String) (references : EntityReferences) (issueKey : String) : Except Raised TaskQuery :=
  if startsWith issueKey (references.projectKey ++ "-") then
    .ok ⟨issueKind (casefold question), references.projectKey, some issueKey, none, none, none⟩
  else valueError "issue is outside the authorized project"

/-- The employee that a question numbers, or else the one it is asked in the context of. -/
def askedEmployee (question : String) (references : EntityReferences) : Except Raised String :=
  match captured Pattern.numberedEmployee (casefold question) with
  | some digits => match intOf digits with
    | some number =>
      if 1 ≤ number ∧ number < 8 then .ok ("EMP-" ++ padded 3 number)
      else valueError "employee is outside the configured workforce"
    | none => valueError "invalid literal for int() with base 10"
  | none => match references.employeeId with
    | some employeeId => .ok employeeId
    | none => valueError "employee is required for a deadline task query"

def employeeTasks (question : String) (references : EntityReferences) (today : Date) : Except Raised TaskQuery :=
  (askedEmployee question references).bind fun employeeId =>
    if contains (casefold question) "tomorrow" then
      (tomorrow today).map fun dueBy => ⟨.employeeDueBy, references.projectKey, none, some employeeId, some dueBy,
        some (employeeJql references.projectKey employeeId dueBy)⟩
    else valueError "only an explicit tomorrow deadline is supported"

/-- `parse_task_query`. -/
def parseTaskQuery (question : String) (references : EntityReferences) (today : Date)
    (previous : Option GroundedAnswerContext) : Except Raised TaskQuery :=
  if refersBack question then referencedTask references previous
  else match captured Pattern.namedIssue (upper question) with
    | some issueKey => namedIssue question references issueKey
    | none => match listQueries.find? fun list => contains (casefold question) list.1 with
      | some (_, kind, predicate) =>
        .ok ⟨kind, references.projectKey, none, none, none, some (listJql references.projectKey predicate)⟩
      | none => employeeTasks question references today

end

/-! ## Asking Jira -/

/-- What the tool asks Jira for. -/
inductive Asked where
  | nothing
  | issue (issueKey : String)
  | search (jql projectKey : String)

/-- What a query asks for, once what it asserts holds. -/
def TaskQuery.asks (query : TaskQuery) : Except Raised Asked :=
  match query.kind with
  | .ambiguousReferent => .ok .nothing
  | .issueDueDate | .issueStatus | .issueAssignee | .referencedTaskAssignee => match query.issueKey with
    | some issueKey => .ok (.issue issueKey)
    | none => .error (.error .assertionError)
  | .employeeDueBy => match query.jql, query.employeeId, query.dueBy with
    | some jql, some _, some _ => .ok (.search jql query.projectKey)
    | _, _, _ => .error (.error .assertionError)
  | _ => match query.jql with
    | some jql => .ok (.search jql query.projectKey)
    | none => .error (.error .assertionError)

/-- What Jira would answer. -/
structure Answers where
  issue : Reading JiraIssueEvidence
  search : Reading (List JiraIssueEvidence)

inductive Failure where
  | raised (error : Raised)
  | read (error : ReadError)

structure Read where
  events : List (Event Rat)
  circuit : Circuit Rat
  issues : Except Failure (List JiraIssueEvidence)

def Asked.read [TextTables] (client : JiraEvidenceClient) (circuit : Circuit Rat) (answers : Answers) : Asked → Read
  | nothing => ⟨[], circuit, .ok []⟩
  | issue issueKey =>
    let served := client.getIssue circuit issueKey answers.issue
    ⟨served.events, served.circuit, (served.result.map fun item => [item]).mapError .read⟩
  | search jql projectKey =>
    let served := client.searchIssues circuit jql projectKey answers.search
    ⟨served.events, served.circuit, served.result.mapError .read⟩

/-! ## Telling the answer -/

/-- `{', '.join(items[:-1])}{word}{items[-1]}`. -/
def joinedBy (word : String) (items : List String) : String :=
  ", ".intercalate items.dropLast ++ word ++ items.getLast?.getD ""

def listed : List String → String
  | [] => ""
  | [label] => ": " ++ label
  | labels => ": " ++ joinedBy " and " labels

def factLine (includeAssignee : Bool) (fact : TaskFact) : String :=
  fact.key ++ " — " ++ fact.summary ++ " — " ++ fact.status ++
    (if includeAssignee then " — assigned to " ++ (fact.assignee.filter (· ≠ "")).getD "Unassigned" else "") ++ "."

/-- `_format_list`. -/
def formatList (facts : List TaskFact) (empty : String) (includeAssignee : Bool) : String :=
  if facts.isEmpty then empty else "\n".intercalate (facts.map (factLine includeAssignee))

def dueDateAnswer (item : JiraIssueEvidence) : String :=
  match item.dueDate with
  | none => item.key ++ " has no due date."
  | some dueDate => item.key ++ " is due on " ++ dueDate.isoformat ++ "."

def assigneeAnswer (item : JiraIssueEvidence) : String :=
  (item.assignee.map (·.displayName)).getD "Unassigned" ++ " is assigned to " ++ item.key ++ ", " ++ item.summary ++
    ", which is currently " ++ item.status ++ "."

section
variable [TextTables]

def employeeAnswer (employeeId : String) (dueBy : Date) (issues : List JiraIssueEvidence) : Except Raised String :=
  let labels := issues.filterMap fun item => item.dueDate.map fun dueDate =>
    item.key ++ " (due " ++ dueDate.isoformat ++ ")"
  let number := if startsWith employeeId "EMP-" then String.ofList (employeeId.toList.drop 4) else employeeId
  match intOf number with
  | some number => .ok ("Employee " ++ toString number ++ " has " ++ toString issues.length ++ " unfinished " ++
      (if issues.length = 1 then "task" else "tasks") ++ " due by " ++ dueBy.isoformat ++ listed labels ++ ".")
  | none => valueError "invalid literal for int() with base 10"

/-- The issues that are kept of what Jira found. -/
def keptIssues (query : TaskQuery) (issues : List JiraIssueEvidence) : List JiraIssueEvidence :=
  match query.kind with
  | .employeeDueBy => issues.filter fun item => item.workforceEmployeeId == query.employeeId
  | .blockedTasks => issues.filter isBlockedItem
  | _ => issues

def answerOf (query : TaskQuery) (previous : Option GroundedAnswerContext) (issues : List JiraIssueEvidence) :
    Except Raised String :=
  match query.kind, issues with
  | .ambiguousReferent, _ => match previous with
    | some context => .ok ("Which task do you mean: " ++ joinedBy " or " (context.issues.map (·.key)) ++ "?")
    | none => .error (.error .assertionError)
  | .issueDueDate, item :: _ => .ok (dueDateAnswer item)
  | .issueStatus, item :: _ => .ok (item.key ++ ", " ++ item.summary ++ ", is currently " ++ item.status ++ ".")
  | .issueAssignee, item :: _ => .ok (assigneeAnswer item)
  | .referencedTaskAssignee, item :: _ => .ok (assigneeAnswer item)
  | .employeeDueBy, _ => employeeAnswer (query.employeeId.getD "") (query.dueBy.getD 0) issues
  | .doneTasks, _ => .ok (formatList (issues.map factOf) "No tasks are currently Done." true)
  | .missingEstimates, _ =>
    .ok (formatList (issues.map factOf) "No active tasks are missing a remaining estimate." false)
  | .blockedTasks, _ => .ok (formatList (issues.map factOf) "No tasks are currently blocked." false)
  | .overdueTasks, _ => .ok (formatList (issues.map factOf) "No active tasks are overdue." false)
  | _, _ => .ok (formatList (issues.map factOf) "No active tasks are due within seven days." false)

def citationFields : TaskQueryKind → List String
  | .issueDueDate => ["duedate"]
  | _ => ["summary", "status", "assignee"]

def resultOf (question correlationId : String) (query : TaskQuery) (previous : Option GroundedAnswerContext)
    (issues : List JiraIssueEvidence) : Except Raised TaskQueryResult :=
  (answerOf query previous issues).map fun answer =>
    { answer := answer
      tasks := issues.map factOf
      evidenceReferences := issues.flatMap fun item =>
        (citationFields query.kind).map fun field => "jira:" ++ item.key ++ ":" ++ field
      correlationId := correlationId
      context := ⟨query.kind.value, some question, issues.map factOf, [], false⟩ }

/-- What a run of the tool asked, what the client did for it, and what it returns. -/
structure QueryRun where
  asked : Asked
  events : List (Event Rat)
  circuit : Circuit Rat
  result : Except Failure TaskQueryResult

namespace JiraTaskQueryTool

/-- `JiraTaskQueryTool.query`. -/
def query (client : JiraEvidenceClient) (circuit : Circuit Rat) (answers : Answers) (today : Date)
    (question : String) (references : EntityReferences) (correlationId : String)
    (previous : Option GroundedAnswerContext) : QueryRun :=
  match parseTaskQuery question references today previous with
  | .error e => ⟨.nothing, [], circuit, .error (.raised e)⟩
  | .ok query => match query.asks with
    | .error e => ⟨.nothing, [], circuit, .error (.raised e)⟩
    | .ok asked =>
      let read := asked.read client circuit answers
      ⟨asked, read.events, read.circuit, read.issues.bind fun issues =>
        (resultOf question correlationId query previous (keptIssues query issues)).mapError .raised⟩

end JiraTaskQueryTool

end

end WorkforceRisk.Tasks
