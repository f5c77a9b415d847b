/-
  WorkforceRisk.Llm.Validation — what the explanation provider is asked, what the model
  answers, and the checks between them (services/agent-api/src/agent_api/llm: schemas.py,
  and of bedrock.py everything but its loops).

  `primaryAttempt` is what an answer goes through on the first path, `recoveryAttempt` on
  the repair of one that failed. An answer in JSON is read by a parameter, `none` where
  the text is no JSON or no `ModelExplanation`.
-/

import WorkforceRisk.Evidence.Grounding

namespace WorkforceRisk.Llm

open Lib Persistence Historical Risk Dashboard Evidence Progress

structure TaskQueryResult where
  tasks : List TaskFact
  evidenceReferences : List String
  context : Option GroundedAnswerContext

structure ExplanationRequest where
  workflow : String
  question : String
  risk : Option RiskResult
  projectSnapshot : Option DashboardSnapshot
  taskQueryResult : Option TaskQueryResult
  evidenceDossier : Option RiskEvidenceDossier
  previousEvidenceDossier : Option RiskEvidenceDossier
  previousAnswerContext : Option GroundedAnswerContext
  universalEvidence : Option UniversalEvidenceBundle
  candidateIds : List String
  correlationId : String

structure Recommendation where
  action : String
  reason : String
  candidateId : Option String

structure ModelExplanation where
  answer : Option String
  summary : String
  rootCauses : List String
  recommendations : List Recommendation
  citations : List String
  score : Option Int
  riskLevel : Option String
  uncertainties : List String

inductive Source where
  | bedrock
  | deterministicFallback
  | jiraMcp
  deriving DecidableEq

structure ExplanationResponse extends ModelExplanation where
  source : Source
  correlationId : String

/-- Why an answer is not taken. -/
inductive Rejection where
  | grounding (error : GroundingValidationError)
  /-- `SemanticResponseError`. -/
  | semantic (message : String)
  /-- `json.JSONDecodeError` or `ValidationError`. -/
  | unreadable

namespace Rejection

def ofGrounding : Grounded → Except Rejection Unit := Except.mapError grounding

def require (ok : Bool) (message : String) : Except Rejection Unit := if ok then .ok () else .error (semantic message)

theorem ofGrounding_ok {g : Grounded} : ofGrounding g = .ok () ↔ g = .ok () := by
  cases g with
  | error e => exact ⟨fun h => (by cases h), fun h => (by cases h)⟩
  | ok u => exact ⟨fun _ => rfl, fun _ => rfl⟩

end Rejection

namespace ExplanationRequest

variable (request : ExplanationRequest)

def score : Option Int := (request.risk.bind (·.score)).map fun score => (score : Int)

def riskLevel : Option String := (request.risk.bind (·.level)).map (·.value)

/-- The evidence that answers the question itself. -/
def focused : Option AnswerEvidenceSet := request.universalEvidence.bind (·.answerEvidence)

/-- The snapshot issues and employees are validated against. -/
def validatedSnapshot : Option DashboardSnapshot :=
  (request.universalEvidence.bind (·.projectSnapshot)).or request.projectSnapshot

/-- `_validated_project_issue_keys`. -/
def validatedProjectIssueKeys : List String :=
  (request.validatedSnapshot.map fun snapshot => snapshot.tasks.map (·.key)).getD []

/-- `_validated_project_employee_ids`. -/
def validatedProjectEmployeeIds : List String :=
  (request.validatedSnapshot.map fun snapshot => snapshot.employees.map (·.employeeId)).getD []

/-- `_with_previous_context`: the facts, and those of the last answer about other issues. -/
def withPreviousContext (facts : List TaskFact) : List TaskFact :=
  match request.previousAnswerContext with
  | none => facts
  | some previous => previous.issues.foldl
      (fun known fact => if known.any (·.key == fact.key) then known else known ++ [fact]) (latestBy (·.key) facts)

/-- `_grounding_facts`. -/
def groundingFacts : List TaskFact :=
  match request.taskQueryResult, request.projectSnapshot, request.evidenceDossier with
  | some result, _, _ => request.withPreviousContext result.tasks
  | none, some snapshot, _ => request.withPreviousContext (snapshot.tasks.map fun task =>
      ⟨task.key, task.summary, task.status, task.assigneeName, task.dueDate, task.remainingHours, task.blocker,
        task.dependencies⟩)
  | none, none, some dossier => request.withPreviousContext (dossier.tasks.map fun task =>
      ⟨task.key, task.summary, task.status, none, task.dueDate, task.remainingHours, task.blockerCategory,
        task.dependencies⟩)
  | none, none, none => request.withPreviousContext []

end ExplanationRequest

/-! ## The model's answer -/

/-- The references a snapshot's tasks can be cited by. -/
def taskCitations (snapshot : Option DashboardSnapshot) : List String :=
  (snapshot.map fun snapshot => snapshot.tasks.flatMap fun task =>
    ["summary", "status", "priority", "duedate", "updated", "labels", "timeestimate", "issuelinks",
      "customfield_10042"].map fun field => "jira:" ++ task.key ++ ":" ++ field).getD []

/-- `_sanitize_subject_candidate`. -/
def sanitizeSubjectCandidate (request : ExplanationRequest) (result : ModelExplanation) : ModelExplanation :=
  match request.risk with
  | none =>
    { result with
      score := none
      riskLevel := none
      recommendations := result.recommendations.map fun r => { r with candidateId := none }
      citations := result.citations.filter fun citation => citation ∈ taskCitations request.projectSnapshot }
  | some risk =>
    { result with recommendations := result.recommendations.map fun r =>
        if r.candidateId == some risk.subjectId && risk.subjectId ∉ request.candidateIds then
          { r with candidateId := none }
        else r }

namespace Pattern

open Regex Evidence.Pattern

variable [TextTables]

/-- `\bname\b.{0,40}\bis at risk\b`, `.` a line end too. -/
def atRisk (name : String) : Regex := ignoreCase <|
  seqs [edge, lit name, edge, upTo (set fun _ => true) 40, edge, lit "is at risk", edge]

/-- `[.!?](?:\s|$)` -/
def sentenceStop : Regex :=
  seqs [oneOf ['.', '!', '?'], alt space (look fun _ rest => rest == [] || rest == ['\n'])]

/-- `\b\d+(?:\.\d+)?\s+(?:contribution\s+)?points?\b` -/
def points : Regex :=
  seqs [edge, decimal, plus space, opt (seqs [lit "contribution", plus space]), lit "point", opt (lit "s"), edge]

end Pattern

section
variable [TextTables]

/-- A factor's name, as it is and with blanks. -/
def factorTerms (factors : List FactorContribution) : List String :=
  factors.flatMap fun factor =>
    [casefold factor.name, casefold (String.ofList (factor.name.toList.map fun c => if c = '_' then ' ' else c))]

/-- The four factors that contribute least. -/
def lowestImpact (factors : List FactorContribution) : List FactorContribution :=
  (factors.insertionSort fun a b =>
    a.contributionPoints < b.contributionPoints ∨ a.contributionPoints = b.contributionPoints ∧ a.name ≤ b.name).take 4

/-- What an answer about a risk result is checked for. -/
def validateRiskAnswer (request : ExplanationRequest) (risk : RiskResult) (answer : String) : Except Rejection Unit := do
  Rejection.require (180 ≤ answer.length && 2 ≤ (Pattern.sentenceStop.findAll answer.toList).length)
    "model answer was not sufficiently detailed"
  Rejection.require (Pattern.points.search answer.toList).isNone "model exposed numeric factor contributions"
  match request.evidenceDossier with
  | none => .ok ()
  | some dossier =>
    let known := dossier.tasks.map (·.key) ++
      (request.previousEvidenceDossier.map fun previous => previous.tasks.map (·.key)).getD []
    let mentioned := issueKeys (upper answer)
    Rejection.require (mentioned.all (· ∈ known)) "model invented Jira task evidence"
    Rejection.require (dossier.tasks.isEmpty || !mentioned.isEmpty) "model omitted concrete Jira task evidence"
  let terms := factorTerms risk.factors
  Rejection.require (terms.isEmpty || mentionsAny (casefold answer) terms) "model answer did not mention supplied factors"
  Rejection.require (!contains (casefold answer) "other factors" ||
    mentionsAny (casefold answer) (factorTerms (lowestImpact risk.factors))) "model answer used vague factor wording"

/-- `_validate_result`. -/
def validateResult (request : ExplanationRequest) (result : ModelExplanation) : Except Rejection Unit := do
  Rejection.require (result.score == request.score && result.riskLevel == request.riskLevel)
    "model changed deterministic risk result"
  let allowed := (request.risk.map (·.evidenceReferences)).getD [] ++ taskCitations request.projectSnapshot ++
    (request.taskQueryResult.map (·.evidenceReferences)).getD [] ++
    (request.evidenceDossier.map (·.evidenceReferences)).getD [] ++
    (request.previousEvidenceDossier.map (·.evidenceReferences)).getD []
  Rejection.require (result.citations.all (· ∈ allowed)) "model cited unknown evidence"
  Rejection.require ((result.recommendations.filterMap (·.candidateId)).all (· ∈ request.candidateIds))
    "model invented reassignment candidate"
  let answer := strip (result.answer.getD "")
  Rejection.require (answer != "") "model returned an empty answer"
  match request.projectSnapshot with
  | none => .ok ()
  | some snapshot =>
    let mentioned := issueKeys (upper answer)
    Rejection.require (!mentionsAny (casefold request.question) ["deadline", "due date", "due tomorrow", "due soon"] ||
      (!mentioned.isEmpty && mentioned.all (· ∈ snapshot.tasks.map (·.key)))) "model omitted concrete Jira task evidence"
    for employee in snapshot.employees do
      Rejection.require (employee.level != .insufficientData ||
        ((Pattern.atRisk employee.displayName).search answer.toList).isNone) "model promoted insufficient employee risk"
  match request.risk with
  | none => .ok ()
  | some risk => validateRiskAnswer request risk answer

/-- `_model_result_from_text`. -/
def modelResultFromText (parse : String → Option ModelExplanation) (request : ExplanationRequest) (raw : String) :
    Except Rejection ModelExplanation :=
  let text := strip raw
  if text = "" then .error (.semantic "model returned an empty answer")
  else if startsWith text "\x7b" then (parse text).elim (.error .unreadable) .ok
  else .ok ⟨some text, text, [], [], [], request.score, request.riskLevel, []⟩

/-! ## The checks of an answer -/

/-- `_validate_supported_workforce_claims`. -/
def validateSupportedWorkforceClaims (request : ExplanationRequest) (answer : String) : Grounded := do
  let folded := casefold answer
  GroundingValidationError.require (!mentionsAny folded
      ["lowest-impact", "lowest impact", "overall risk is not higher", "risk is not higher because"])
    "answer introduced unsupported comparison"
  match request.projectSnapshot with
  | none => .ok ()
  | some snapshot =>
    GroundingValidationError.require (!contains folded "within capacity" || !snapshot.employees.any fun e =>
        match e.remainingHours, e.capacityHours with
        | some remaining, some capacity => capacity < remaining
        | _, _ => false)
      "answer contradicted supplied remaining-hours capacity evidence"

/-- `_validate_exhaustive_task_answer`. -/
def validateExhaustiveTaskAnswer (request : ExplanationRequest) (answer : String) : Grounded :=
  match request.taskQueryResult with
  | none => .ok ()
  | some result => match result.context with
    | none => .ok ()
    | some context =>
      if context.intent ∉ ["blocked_tasks", "done_tasks", "missing_estimates", "overdue_tasks", "due_soon_tasks"] then
        .ok ()
      else
        let missing := (result.tasks.map fun task => upper task.key).filter (· ∉ issueKeys (upper answer))
        GroundingValidationError.require missing.isEmpty ("answer omitted expected Jira issue(s): " ++ listed missing)

/-- `_validate_resolved_context_answer`. -/
def validateResolvedContextAnswer (request : ExplanationRequest) (answer : String) : Grounded :=
  match request.previousAnswerContext with
  | none => .ok ()
  | some previous =>
    if previous.issues.isEmpty || !mentionsAny (casefold request.question)
        ["this risk", "that task", "those tasks", "those employees", "this blocker", "that project"] then .ok ()
    else
      let missing := (previous.issues.map fun fact => upper fact.key).filter (· ∉ issueKeys (upper answer))
      GroundingValidationError.require missing.isEmpty ("follow-up omitted resolved Jira context: " ++ listed missing)

/-- `_dependency_issue_keys`. -/
def dependencyIssueKeys (facts : List TaskFact) : List String :=
  sortedSet (facts.flatMap fun fact => fact.dependencies.flatMap fun dependency => issueKeys (upper dependency))

/-- The Jira claims of an answer, on the request's grounding facts. -/
def validateRequestClaims (request : ExplanationRequest) (answer : String) : Grounded :=
  validateJiraClaims answer request.groundingFacts (dependencyIssueKeys request.groundingFacts)
    request.validatedProjectEmployeeIds

/-- What an answer has to pass of its focused evidence. -/
def validateFocused (request : ExplanationRequest) (answer : String) (focused : AnswerEvidenceSet) : Grounded := do
  validateFocusedClaims answer focused request.validatedProjectIssueKeys
  validateFocusedCompleteness answer focused
  validateInsufficiencyClaim answer focused

def validateAnswerEvidence (request : ExplanationRequest) (answer : String) : Option AnswerEvidenceSet → Grounded
  | none => .ok ()
  | some focused => validateFocused request answer focused

/-- What an answer has to pass of the request's universal evidence. -/
def validateUniversal (request : ExplanationRequest) (answer : String) : Option UniversalEvidenceBundle → Grounded
  | none => .ok ()
  | some bundle => do
    validateAnswerEvidence request answer bundle.answerEvidence
    validateUniversalClaims answer bundle
    validateUniversalCompleteness answer bundle

/-- What the first path makes of the text the model returned. -/
def primaryAttempt (parse : String → Option ModelExplanation) (request : ExplanationRequest) (raw : String) :
    Except Rejection ModelExplanation := do
  let parsed ← modelResultFromText parse request raw
  let result := sanitizeSubjectCandidate request parsed
  let answer := result.answer.getD ""
  validateResult request result
  Rejection.ofGrounding (validateSupportedWorkforceClaims request answer)
  Rejection.ofGrounding (validateExhaustiveTaskAnswer request answer)
  Rejection.ofGrounding (validateResolvedContextAnswer request answer)
  Rejection.ofGrounding (validateRequestClaims request answer)
  Rejection.ofGrounding (validateUniversal request answer request.universalEvidence)
  .ok result

/-- The recovery asks again for the focused evidence, if it says anything. -/
def useFocusedRecovery (request : ExplanationRequest) : Bool :=
  request.focused.any fun focused => !(focused.tasks.isEmpty && focused.employees.isEmpty)

/-- Why a repaired answer is not taken. -/
inductive RepairError where
  | grounding (error : GroundingValidationError)
  | osError (message : String)

/-- What an answer of the recovery has to pass. -/
def validateRecovered (request : ExplanationRequest) (text : String) : Grounded :=
  match request.universalEvidence, request.focused with
  | some bundle, some focused =>
    if useFocusedRecovery request then do
      validateFocused request text focused
      validateUniversalClaims text bundle
    else .ok ()
  | _, _ => .ok ()

/-- What the recovery makes of the text the model returned. -/
def recoveryAttempt (request : ExplanationRequest) (raw : String) : Except RepairError String :=
  let text := strip raw
  if text = "" then .error (.osError "Bedrock returned an empty conservative answer")
  else match validateRecovered request text with
    | .ok () => .ok text
    | .error error => .error (.grounding error)

end

end WorkforceRisk.Llm
