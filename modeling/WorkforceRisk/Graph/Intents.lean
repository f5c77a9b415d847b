/-
  WorkforceRisk.Graph.Intents — what a question is taken to ask for, and whom it refers to
  (services/agent-api/src/agent_api: graph/intents.py, evidence/references.py).

  `classifyIntent` reads a question that is lowered and has its blanks collapsed, by the
  first rule that fits; issue keys are looked for in the question as it is, in capitals.
  Whatever asks for a change is unsupported, before any other rule is tried.

  `resolveConversationReferences` looks for "that task", "those employees" and the like,
  and takes their entities from the answer before; one that cannot be told is to be
  clarified.
-/

import WorkforceRisk.Evidence.Derivation
import WorkforceRisk.Evidence.Normalizer

namespace WorkforceRisk.Graph

open Lib Persistence Historical Evidence

inductive Intent where
  | explainProjectRisk
  | explainEmployeeOverload
  | evaluateTaskFit
  | explainHistory
  | reassignmentCandidates
  | whatIfSimulation
  | operationsDiagnosis
  | jiraTaskQuery
  | unsupported
  deriving DecidableEq, Repr

def Intent.value : Intent → String
  | explainProjectRisk => "explain_project_risk"
  | explainEmployeeOverload => "explain_employee_overload"
  | evaluateTaskFit => "evaluate_task_fit"
  | explainHistory => "explain_history"
  | reassignmentCandidates => "reassignment_candidates"
  | whatIfSimulation => "what_if_simulation"
  | operationsDiagnosis => "operations_diagnosis"
  | jiraTaskQuery => "jira_task_query"
  | unsupported => "unsupported"

namespace Pattern

open Regex Evidence.Pattern

section
variable [Unicode]

/-- `\b20\d{2}-\d{2}-\d{2}\b` -/
def isoDate : Regex :=
  seqs [edge, lit "20", repeated 2 2 digit, lit "-", repeated 2 2 digit, lit "-", repeated 2 2 digit, edge]

def monthNames : List String :=
  ["january", "february", "march", "april", "may", "june", "july", "august", "september", "october", "november",
    "december"]

/-- `\b(?:january|…|december)\s+\d{1,2}\b` -/
def monthDay : Regex :=
  seqs [edge, (monthNames.map lit).foldr alt (set fun _ => false), plus space, repeated 1 2 digit, edge]

def historicalDate : Regex := alt isoDate monthDay

/-- `\bwhich employees?\b` -/
def whichEmployees : Regex := seqs [edge, lit "which employee", opt (lit "s"), edge]

end

variable [TextTables]

/-- `\b(?:that|this|it)\s+(?:task|issue|risk|employee)?\b|\bit\b` -/
def singular : Regex := ignoreCase <|
  alt (seqs [edge, alt (lit "that") (alt (lit "this") (lit "it")), plus space,
      opt (alt (lit "task") (alt (lit "issue") (alt (lit "risk") (lit "employee")))), edge])
    (seqs [edge, lit "it", edge])

/-- `\b(?:those|these|them)\s*(?:tasks|issues|employees)?\b` -/
def plural : Regex := ignoreCase <|
  seqs [edge, alt (lit "those") (alt (lit "these") (lit "them")), many space,
    opt (alt (lit "tasks") (alt (lit "issues") (lit "employees"))), edge]

/-- `\b(?:those|these)\s+employees\b` -/
def pluralEmployee : Regex := ignoreCase <|
  seqs [edge, alt (lit "those") (lit "these"), plus space, lit "employees", edge]

/-- `\b(?:that|this)\s+employee\b` -/
def singularEmployee : Regex := ignoreCase <|
  seqs [edge, alt (lit "that") (lit "this"), plus space, lit "employee", edge]

end Pattern

variable [TextTables]

/-- `re.search(...) is not None`. -/
def found (r : Regex) (text : String) : Bool := (r.search text.toList).isSome

/-! ## Intents -/

/-- `" ".join(text.split())`. -/
def collapse (text : String) : String :=
  String.intercalate " " (((text.toList.splitOnP Unicode.isSpace).filter (· ≠ [])).map String.ofList)

/-- What asks for a change. -/
def asksForChange (text : String) : Bool := mentionsAny text ["approve", "execute", "change assignee"]

def asksForCandidates (text : String) : Bool :=
  contains text "candidate" || contains text "could take" || contains text "can take" ||
    (found Pattern.whichEmployees text && mentionsAny text ["assign", "reassign", "suitable", "best fit"])

/-- The rules, on the collapsed text and on whether the question names an issue, in their order. -/
def classifyText (text : String) (issueKey : Bool) (defaultScope : Option String) : Intent :=
  if asksForChange text then .unsupported
  else if found Pattern.historicalDate text && mentionsAny text ["risk", "overload", "improved", "situation"] then
    .explainHistory
  else if mentionsAny text ["tasks are done", "tasks have a missing estimate", "tasks are blocked", "work is blocked",
      "tasks are overdue", "tasks are due soon", "that task", "that issue"] ||
      (issueKey && mentionsAny text ["status", "assigned", "assignee", "who"]) then .jiraTaskQuery
  else if mentionsAny text ["improved", "improvement", "changed since"] then .explainHistory
  else if (contains text "due date" && issueKey) ||
      (contains text "task" && mentionsAny text ["due", "tomorrow"] &&
        mentionsAny text ["how many", "list", "what", "which"]) then .jiraTaskQuery
  else if mentionsAny text ["what if", "simulate"] then .whatIfSimulation
  else if asksForCandidates text then .reassignmentCandidates
  else if contains text "task" && mentionsAny text ["fit", "skill", "appropriate"] then .evaluateTaskFit
  else if mentionsAny text ["service", "pod", "deployment"] &&
      mentionsAny text ["unhealthy", "latency", "failed", "failure"] then .operationsDiagnosis
  else if mentionsAny text ["develop", "prevent", "recurrence", "history"] && defaultScope.isNone then .explainHistory
  else if contains text "project" && mentionsAny text ["risk", "late", "delay"] then .explainProjectRisk
  else if found Pattern.whichEmployees text && mentionsAny text ["risk", "overload"] then .explainProjectRisk
  else if contains text "employee" && mentionsAny text ["overload", "progress", "finish", "workload"] then
    .explainEmployeeOverload
  else if defaultScope == some "employee" && mentionsAny text ["employee", "risk", "score", "factor", "overdue",
      "blocked", "work", "task", "manager", "evidence", "result", "missing", "situation", "improved", "improvement",
      "urgent", "overload", "prevent"] then .explainEmployeeOverload
  else .explainProjectRisk

def classifyIntent [LowerCase] (question : String) (defaultScope : Option String) : Intent :=
  classifyText (collapse (LowerCase.lower question)) (found Evidence.Pattern.issueKey (upper question)) defaultScope

/-! ## References to the answer before -/

structure ResolvedConversationContext where
  entities : List EvidenceEntity
  needsClarification : Bool

/-- By the words of the question, of what the answer before was about. -/
def referredTo (question : String) (issues employees : List EvidenceEntity) : ResolvedConversationContext :=
  if found Pattern.pluralEmployee question then ⟨employees, false⟩
  else if found Pattern.singularEmployee question then ⟨employees, employees.length != 1⟩
  else if found Pattern.plural question then ⟨if issues.isEmpty then employees else issues, false⟩
  else if found Pattern.singular question then ⟨issues, issues.length != 1⟩
  else ⟨[], false⟩

def resolveConversationReferences (question : String) (previous : Option GroundedAnswerContext) :
    Except Error ResolvedConversationContext :=
  match previous with
  | none => .ok ⟨[], false⟩
  | some context => do
    let issues ← context.issues.mapM fun fact => evidenceEntity .task fact.key
    let employees ← context.employeeIds.mapM (evidenceEntity .employee)
    .ok (referredTo question issues employees)

end WorkforceRisk.Graph
