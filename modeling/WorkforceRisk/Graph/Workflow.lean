/-
  WorkforceRisk.Graph.Workflow — an investigation (services/agent-api/src/agent_api/graph:
  workflow.py, supervisor.py, and state.py).

  A question goes through a graph: the project is checked, the question classified, the
  evidence gathered and the answer explained. Where there is a project tool the evidence is
  planned and collected for every question; where there is none one tool is chosen by the
  intent, or the question is answered by what can be asked. The planner, the tools and the
  explainer answer anything or raise anything; what a node writes to a log is left out.
-/

import WorkforceRisk.Evidence.Planner
import WorkforceRisk.Graph.Handoffs
import WorkforceRisk.Llm.Validation

namespace WorkforceRisk.Graph

open Lib Persistence Historical Risk Dashboard Evidence

/-! ## The state -/

/-- What a question is answered from. -/
structure Gathered where
  risk : Option RiskResult := none
  projectSnapshot : Option DashboardSnapshot := none
  taskQueryResult : Option Tasks.TaskQueryResult := none
  evidenceDossier : Option RiskEvidenceDossier := none
  previousEvidenceDossier : Option RiskEvidenceDossier := none
  universalEvidence : Option CollectedEvidence := none

structure ExplanationRequest extends Gathered where
  workflow : String
  question : String
  previousAnswerContext : Option GroundedAnswerContext
  correlationId : String

/-- As the explanation provider reads it. -/
def ExplanationRequest.read (request : ExplanationRequest) : Llm.ExplanationRequest :=
  { workflow := request.workflow
    question := request.question
    risk := request.risk
    projectSnapshot := request.projectSnapshot
    taskQueryResult := request.taskQueryResult.map fun result =>
      ⟨result.tasks, result.evidenceReferences, some result.context⟩
    evidenceDossier := request.evidenceDossier
    previousEvidenceDossier := request.previousEvidenceDossier
    previousAnswerContext := request.previousAnswerContext
    universalEvidence := request.universalEvidence.map (·.toUniversalEvidenceBundle)
    candidateIds := []
    correlationId := request.correlationId }

structure GraphState extends Gathered where
  verifiedContext : VerifiedAgentContext
  question : String
  references : EntityReferences
  stepsUsed : Nat
  toolCallsUsed : Nat
  intent : Option Intent := none
  evidencePlan : Option EvidencePlan := none
  ambiguousReferences : Option (List EvidenceEntity) := none
  previousAnswerContext : Option GroundedAnswerContext
  explanation : Option Llm.ExplanationResponse := none
  capabilityGuidance : Option String := none

structure InvestigationResponse where
  correlationId : String
  intent : Intent
  risk : Option RiskResult
  explanation : Option Llm.ExplanationResponse
  capabilityGuidance : Option String
  stepsUsed : Nat
  toolCallsUsed : Nat
  answerContext : Option GroundedAnswerContext

/-! ## Calls -/

inductive Call where
  | planEvidence (question projectKey : String) (employeeId : Option String) (previous : Option GroundedAnswerContext)
      (correlationId : String)
  | read (call : ReadCall)
  | query (question : String) (references : EntityReferences) (correlationId : String)
      (previous : Option GroundedAnswerContext)
  | investigate (call : DomainCall)
  | getCurrentDossier (employeeId projectKey correlationId : String)
  | getAt (question employeeId projectKey correlationId : String)
  | explain (request : ExplanationRequest)

abbrev Call.Answer : Call → Type
  | planEvidence .. => Except Fault EvidencePlan
  | read call => call.Answer
  | query .. => Except Fault Tasks.TaskQueryResult
  | investigate _ => Except Fault RiskResult
  | getCurrentDossier .. => Except Fault RiskEvidenceDossier
  | getAt .. => Except Fault HistoricalRiskContext
  | explain _ => Except Fault Llm.ExplanationResponse

abbrev CallProc (α : Type) := Proc Call Call.Answer α

def Call.ask (call : Call) : CallProc call.Answer := Proc.perform call

/-- The calls that are counted. -/
def Call.isTool : Call → Bool
  | query .. | investigate _ | getCurrentDossier .. | getAt .. | read (.build ..) => true
  | planEvidence .. | read (.load ..) | explain _ => false

def Call.isExplain : Call → Bool
  | explain _ => true
  | _ => false

/-! ## The nodes -/

def receiveVerifiedContext (s : GraphState) : Except Fault GraphState :=
  if s.references.projectKey ∉ s.verifiedContext.authorizedProjectKeys then
    .error (.raised (.permissionError "project is outside verified authorization context"))
  else .ok { s with stepsUsed := s.stepsUsed + 1 }

def defaultScope (references : EntityReferences) : String :=
  if references.employeeId.isSome then "employee" else if references.taskId.isSome then "task" else "project"

def capabilityGuidance : String :=
  "I can explain employee, task-fit, and project risk; describe risk history; identify deterministic candidates; " ++
    "run a what-if simulation; or provide read-only operational diagnosis. Approval must use the " ++
    "dedicated structured approval control."

def capabilityResponse (s : GraphState) : GraphState :=
  { s with capabilityGuidance := some capabilityGuidance, stepsUsed := s.stepsUsed + 1 }

/-- `state[key]`. -/
def required {α : Type} (key : String) : Option α → Except Fault α
  | none => .error (.other "KeyError" ("'" ++ key ++ "'"))
  | some a => .ok a

def toolCallLimit : Fault := .raised (.runtimeError "investigation tool-call limit reached")

/-- `_UNSUPPORTED_TASK_QUERY_ERRORS`. -/
def unsupportedTaskQueryErrors : List String :=
  ["employee is required for a deadline task query", "Jira task queries require Jira evidence mode",
    "only an explicit tomorrow deadline is supported", "unsupported Jira task query question"]

/-- `_OPTIONAL_DOMAIN_EVIDENCE_ERRORS`. -/
def optionalDomainEvidenceErrors : List String :=
  ["the requested deterministic domain tool is unavailable", "employee_id is required for overload investigation"]

/-- A `ValueError` with one of those texts. -/
def saysOne (texts : List String) : Fault → Bool
  | .raised (.valueError text) => text ∈ texts
  | _ => false

/-- `UniversalEvidenceBundle(...)` with its defaults. -/
def missingBundle (correlationId projectKey : String) (item : MissingData) : CollectedEvidence :=
  { plan := conservativeReadPlan, answerEvidence := none, projectSnapshot := none, capacityAndWorkload := [],
    correlationId := correlationId, projectKey := projectKey, employeeWorkloadClassifications := .ofPairs [],
    taskDeliveryRisk := .ofPairs [], skills := .ofPairs [], seniority := .ofPairs [], rankedCandidates := [],
    candidateRanking := none, history := [], missingData := [item], sourceMetadata := [], ambiguousReferences := [] }

/-- `_missing_optional_evidence`. -/
def missingOptionalEvidence (s : GraphState) (category : EvidenceCategory) (reason : String) (attemptedToolCalls : Nat) :
    Except Fault GraphState :=
  ((validateMissing [⟨category, reason, s.references.projectKey, true⟩]).bind fun _ =>
    (missingBundle s.verifiedContext.correlationId s.references.projectKey
      ⟨category, reason, s.references.projectKey, true⟩).validate).mapError .raised |>.map fun bundle =>
  { s with universalEvidence := some bundle, stepsUsed := s.stepsUsed + 1,
           toolCallsUsed := s.toolCallsUsed + attemptedToolCalls }

/-- What `run` is asked. -/
structure Inquiry where
  verifiedContext : VerifiedAgentContext
  question : String
  references : EntityReferences
  previousAnswerContext : Option GroundedAnswerContext

def Inquiry.initial (inquiry : Inquiry) : GraphState :=
  { verifiedContext := inquiry.verifiedContext, question := inquiry.question, references := inquiry.references,
    stepsUsed := 0, toolCallsUsed := 0, previousAnswerContext := inquiry.previousAnswerContext }

structure InvestigationWorkflow where
  /-- The explainer can plan evidence. -/
  planner : Bool
  taskQueryTool : Bool
  dossierTool : Bool
  historicalTool : Bool
  projectTool : Bool
  progressHistoryReader : Bool
  maxSteps : Nat
  maxToolCalls : Nat

section
variable [TextTables] [LowerCase]

def classifySupportedIntent (s : GraphState) : GraphState :=
  { s with intent := some (classifyIntent s.question (some (defaultScope s.references))), stepsUsed := s.stepsUsed + 1 }

/-- The plan as it is followed, and the references of the question that are to be clarified. -/
def followed (question : String) (previous : Option GroundedAnswerContext) (plan : EvidencePlan) :
    Except Error (EvidencePlan × Option (List EvidenceEntity)) := do
  let resolved ← resolveConversationReferences question previous
  let typedPlan :=
    if !resolved.entities.isEmpty && plan.entities.isEmpty then { plan with entities := resolved.entities } else plan
  let typedPlan ← normalizeEvidencePlan question typedPlan previous
  .ok (typedPlan, if resolved.needsClarification then some resolved.entities else none)

/-- What `_plan_evidence` makes of the plan it got. -/
def withPlan (s : GraphState) (plan : EvidencePlan) : Except Error GraphState :=
  (followed s.question s.previousAnswerContext plan).map fun followed =>
    { s with evidencePlan := some followed.1, stepsUsed := s.stepsUsed + 1,
             ambiguousReferences := followed.2.or s.ambiguousReferences }

namespace InvestigationWorkflow

variable (workflow : InvestigationWorkflow)

def planEvidence (s : GraphState) : CallProc (Except Fault GraphState) :=
  let planned : CallProc (Except Fault EvidencePlan) :=
    if workflow.planner then
      (Call.planEvidence s.question s.references.projectKey s.references.employeeId s.previousAnswerContext
        s.verifiedContext.correlationId).ask
    else .ret (.ok conservativeReadPlan)
  planned.andThen fun plan => .ret ((withPlan s plan).mapError .raised)

/-- References that are to be clarified go with the evidence. -/
def withAmbiguous (ambiguous : Option (List EvidenceEntity)) (bundle : CollectedEvidence) : CollectedEvidence :=
  match ambiguous with
  | some (entity :: entities) => { bundle with ambiguousReferences := entity :: entities }
  | _ => bundle

def collectEvidence (s : GraphState) : CallProc (Except Fault GraphState) :=
  if !workflow.projectTool then .ret (.error (.raised (.runtimeError "required project evidence service is unavailable")))
  else if workflow.maxToolCalls ≤ s.toolCallsUsed then .ret (.error toolCallLimit)
  else match required "evidence_plan" s.evidencePlan with
    | .error fault => .ret (.error fault)
    | .ok plan =>
      Proc.andThen ((collect workflow.progressHistoryReader plan s.references.projectKey s.verifiedContext.correlationId
        s.references.employeeId s.question s.previousAnswerContext).through fun call => (Call.read call).ask) fun bundle =>
      .ret (.ok { s with universalEvidence := some (withAmbiguous s.ambiguousReferences bundle), projectSnapshot := bundle.projectSnapshot,
                         stepsUsed := s.stepsUsed + 1, toolCallsUsed := s.toolCallsUsed + 1 })

/-- The snapshot of the project, after so many calls of other tools. -/
def buildSnapshot (s : GraphState) (before : Nat) : CallProc (Except Fault GraphState) :=
  Proc.andThen (Call.read (.build s.references.projectKey s.verifiedContext.correlationId)).ask fun snapshot =>
    .ret (.ok { s with projectSnapshot := some snapshot, stepsUsed := s.stepsUsed + 1,
                       toolCallsUsed := s.toolCallsUsed + before + 1 })

def gatherProject (s : GraphState) : CallProc (Except Fault GraphState) :=
  if !workflow.projectTool then
    .ret (missingOptionalEvidence s .jiraIssues "Current project evidence is unavailable." 0)
  else buildSnapshot s 0

def gatherTasks (s : GraphState) : CallProc (Except Fault GraphState) :=
  if !workflow.taskQueryTool then
    .ret (missingOptionalEvidence s .jiraIssues "Current structured Jira task evidence is unavailable." 0)
  else Proc.bind (Call.query s.question s.references s.verifiedContext.correlationId s.previousAnswerContext).ask fun
    | .ok result => .ret (.ok { s with taskQueryResult := some result, stepsUsed := s.stepsUsed + 1,
                                       toolCallsUsed := s.toolCallsUsed + 1 })
    | .error fault =>
      if !saysOne unsupportedTaskQueryErrors fault then .ret (.error fault)
      else if !workflow.projectTool then
        .ret (missingOptionalEvidence s .jiraIssues "Current structured Jira task evidence is unavailable." 1)
      else if workflow.maxToolCalls ≤ s.toolCallsUsed + 1 then .ret (.error toolCallLimit)
      else buildSnapshot { s with intent := some .explainProjectRisk } 1

def gatherHistory (s : GraphState) : CallProc (Except Fault GraphState) :=
  match workflow.historicalTool, s.references.employeeId with
  | true, some employeeId =>
    Proc.andThen (Call.getAt s.question employeeId s.references.projectKey s.verifiedContext.correlationId).ask
      fun historical =>
      .ret (.ok { s with risk := some historical.risk.result, evidenceDossier := some historical.dossier,
                         previousEvidenceDossier := historical.previousDossier.or s.previousEvidenceDossier,
                         stepsUsed := s.stepsUsed + 1, toolCallsUsed := s.toolCallsUsed + 1 })
  | _, _ => .ret (missingOptionalEvidence s .history "Historical employee evidence is unavailable." 0)

/-- The dossier that goes with the risk of an employee. -/
def gatherDossier (intent : Intent) (s : GraphState) : CallProc (Except Fault GraphState) :=
  match intent, workflow.dossierTool, s.references.employeeId with
  | .explainEmployeeOverload, true, some employeeId =>
    if workflow.maxToolCalls ≤ s.toolCallsUsed then .ret (.error toolCallLimit)
    else Proc.andThen (Call.getCurrentDossier employeeId s.references.projectKey s.verifiedContext.correlationId).ask
      fun dossier => .ret (.ok { s with evidenceDossier := some dossier, toolCallsUsed := s.toolCallsUsed + 1 })
  | _, _, _ => .ret (.ok s)

def gatherRisk (intent : Intent) (s : GraphState) : CallProc (Except Fault GraphState) :=
  Proc.bind (Call.investigate ⟨intent, s.references, s.verifiedContext.correlationId⟩).ask fun
    | .ok risk => workflow.gatherDossier intent { s with risk := some risk, stepsUsed := s.stepsUsed + 1,
                                                         toolCallsUsed := s.toolCallsUsed + 1 }
    | .error fault =>
      if !saysOne optionalDomainEvidenceErrors fault then .ret (.error fault)
      else .ret (missingOptionalEvidence s .riskResults
        "The requested optional domain evidence is not available in the current evidence mode." 1)

def gather (s : GraphState) : CallProc (Except Fault GraphState) :=
  if workflow.maxToolCalls ≤ s.toolCallsUsed then .ret (.error toolCallLimit)
  else match required "intent" s.intent with
    | .error fault => .ret (.error fault)
    | .ok .explainProjectRisk => workflow.gatherProject s
    | .ok .jiraTaskQuery => workflow.gatherTasks s
    | .ok .explainHistory => workflow.gatherHistory s
    | .ok intent => workflow.gatherRisk intent s

def explain (s : GraphState) : CallProc (Except Fault GraphState) :=
  match required "intent" s.intent with
  | .error fault => .ret (.error fault)
  | .ok intent =>
    Proc.andThen (Call.explain { s.toGathered with
      workflow := intent.value, question := s.question, previousAnswerContext := s.previousAnswerContext,
      correlationId := s.verifiedContext.correlationId }).ask fun explanation =>
    .ret (.ok { s with explanation := some explanation, stepsUsed := s.stepsUsed + 1 })

/-! ## The graph -/

inductive Node where
  | receiveVerifiedContext
  | classify
  | planEvidence
  | collectEvidence
  | gather
  | explain
  | capability
  deriving DecidableEq

def node : Node → GraphState → CallProc (Except Fault GraphState)
  | .receiveVerifiedContext, s => .ret (Graph.receiveVerifiedContext s)
  | .classify, s => .ret (.ok (classifySupportedIntent s))
  | .planEvidence, s => workflow.planEvidence s
  | .collectEvidence, s => workflow.collectEvidence s
  | .gather, s => workflow.gather s
  | .explain, s => explain s
  | .capability, s => .ret (.ok (capabilityResponse s))

/-- `route_after_classification`, where there is no project tool. -/
def edge : Node → GraphState → Option Node
  | .receiveVerifiedContext, _ => some .classify
  | .classify, s =>
    if workflow.projectTool then some .planEvidence
    else if s.intent = some .unsupported then some .capability
    else some .gather
  | .planEvidence, _ => some .collectEvidence
  | .collectEvidence, _ => some .explain
  | .gather, _ => some .explain
  | .explain, _ => none
  | .capability, _ => none

def graph : StateGraph Node GraphState Fault Call Call.Answer where
  entry := .receiveVerifiedContext
  node := workflow.node
  edge := workflow.edge
  outOfSteps := .recursionError

/-! ## A run -/

/-- `answer_context`: of the task query, or else of the evidence. -/
def answerContext (gathered : Gathered) : Option GroundedAnswerContext :=
  match gathered.taskQueryResult with
  | some result => some result.context
  | none => (gathered.universalEvidence.bind (·.answerEvidence)).map answerContextFromEvidence

def respond (correlationId : String) (final : GraphState) : Except Fault InvestigationResponse :=
  (required "intent" final.intent).map fun intent =>
    { correlationId := correlationId, intent := intent, risk := final.risk, explanation := final.explanation,
      capabilityGuidance := final.capabilityGuidance, stepsUsed := final.stepsUsed, toolCallsUsed := final.toolCallsUsed,
      answerContext := answerContext final.toGathered }

/-- Its deadline is left out: a run that it ends is one that goes no further. -/
def run (runtime : StepLimit) (inquiry : Inquiry) : CallProc (Except Fault InvestigationResponse) :=
  if 1000 < inquiry.question.length then .ret (.error (.raised (.valueError "question exceeds size limit")))
  else (workflow.graph.invoke runtime workflow.maxSteps inquiry.initial).andThen fun final =>
    .ret (respond inquiry.verifiedContext.correlationId final)

end InvestigationWorkflow

end

end WorkforceRisk.Graph
