/-
  WorkforceRisk.Graph.Endpoint — a question that is posted
  (services/agent-api/src/agent_api: routes/investigations.py; of dependencies.py the
  evidence from fixtures).

  The caller is authenticated, or known from the cache of an outage; the workflow runs under
  what the caller is authorized for, its domain calls go through the specialists to the
  overload tool. Evidence comes from Jira or, without credentials, from fixtures. Profiles,
  Jira, the scorer, the readers and the explainer answer anything or raise anything.

  Proved: after any history of requests nothing is asked before the caller is authenticated
  for the project, which is configured; and all of it is about that project and what the
  question names (`asked_for_caller`). An answer is never without an explanation, and the
  assertion that there is one fails only on fixtures (`answered_with_explanation`).
-/

import WorkforceRisk.Auth.Investigator
import WorkforceRisk.Evidence.Provider
import WorkforceRisk.Graph.Investigations

namespace WorkforceRisk.Graph

open Lib Persistence Historical Risk Dashboard Evidence Contracts Scans Scoring Auth

/-! ## Where evidence comes from -/

inductive EvidenceMode where
  | jira (provider : SingleIssueJiraEvidenceProvider)
  | fixture

def EvidenceMode.isJira : EvidenceMode → Bool
  | jira _ => true
  | fixture => false

inductive PortCall where
  | loadWorkforceProfiles (projectKey : String)
  /-- A call of the workflow to a tool that is not modelled further here. -/
  | pass (call : Call)
  | jira (call : JiraCall)
  /-- The input in the file of that name. -/
  | readFixture (name : String)
  | now
  | score (input : EmployeeOverloadInput) (correlationId : String)

abbrev PortCall.Answer : PortCall → Type
  | loadWorkforceProfiles _ => Except Fault Unit
  | pass call => call.Answer
  | jira call => call.Answer
  | readFixture _ => Except Fault EmployeeOverloadInput
  | now => DateTime
  | score .. => Except Fault RiskResult

abbrev PortProc (α : Type) := Proc PortCall PortCall.Answer α

def PortCall.ask (call : PortCall) : PortProc call.Answer := Proc.perform call

def fixtureName (employeeId : String) : String :=
  if employeeId = "EMP-002" then "overloaded_employee.json" else "balanced_team.json"

section
variable [Unicode] [FloatText] [LowerCase]

def EvidenceMode.getEmployeeOverload (mode : EvidenceMode) (employeeId projectKey correlationId : String) :
    PortProc (Except Fault EvidenceBundle) :=
  match mode with
  | jira provider =>
    (provider.getEmployeeOverload employeeId projectKey correlationId).through fun call => (PortCall.jira call).ask
  | fixture => Proc.andThen (PortCall.readFixture (fixtureName employeeId)).ask fun input =>
    PortCall.now.ask.bind fun now => .ret (.ok
      { input := { input with employeeId := employeeId, evidenceTimestamp := ⟨now, 0⟩ }, evidenceDossier := none })

/-- `EmployeeOverloadTool.investigate`. -/
def overloadTool (mode : EvidenceMode) (call : DomainCall) : PortProc (Except Fault RiskResult) :=
  if call.intent ≠ .explainEmployeeOverload then
    .ret (.error (.raised (.valueError "the requested deterministic domain tool is unavailable")))
  else match call.references.employeeId with
    | none => .ret (.error (.raised (.valueError "employee_id is required for overload investigation")))
    | some employeeId =>
      (mode.getEmployeeOverload employeeId call.references.projectKey call.correlationId).andThen fun bundle =>
        (PortCall.score bundle.input call.correlationId).ask

def specialists : List BoundedSpecialistAgent :=
  [workforceAnalysisAgent, projectDeliveryAgent, reassignmentPlanningAgent, operationsDiagnosticAgent]

/-- How a call of the workflow is carried out. -/
def carry (mode : EvidenceMode) (context : VerifiedAgentContext) (runtime : StepLimit) :
    (call : Call) → PortProc call.Answer
  | .investigate call => (((⟨specialists, context⟩ : SpecialistRouter).investigate runtime call).through
      (overloadTool mode)).bind fun result => .ret result.1
  | .query question references correlationId previous => match mode with
    | .fixture => .ret (.error (.raised (.valueError "Jira task queries require Jira evidence mode")))
    | .jira _ => (PortCall.pass (.query question references correlationId previous)).ask
  | .getCurrentDossier employeeId projectKey correlationId => match mode with
    | .fixture => (PortCall.pass (.getCurrentDossier employeeId projectKey correlationId)).ask
    | .jira provider =>
      (provider.getCurrentDossier employeeId projectKey correlationId).through fun call => (PortCall.jira call).ask
  | .planEvidence question projectKey employeeId previous correlationId =>
    (PortCall.pass (.planEvidence question projectKey employeeId previous correlationId)).ask
  | .read call => (PortCall.pass (.read call)).ask
  | .getAt question employeeId projectKey correlationId =>
    (PortCall.pass (.getAt question employeeId projectKey correlationId)).ask
  | .explain request => (PortCall.pass (.explain request)).ask

end

/-! ## The endpoint -/

structure InvestigationRequest where
  question : String
  context : EntityReferences
  previousAnswerContext : Option GroundedAnswerContext
  question_ok : 1 ≤ question.length ∧ question.length ≤ 1000

/-- How a request ends that is not answered. -/
inductive Unanswered where
  | route (error : RouteError)
  /-- 503, with the code of the failure. -/
  | ungrounded (failureCode correlationId : String) (retryable : Bool)
  /-- `assert result.explanation is not None`. -/
  | unexplained
  | raised (fault : Fault)

/-- `isinstance(exc, OSError)`. -/
def isOSError : Fault → Bool
  | .osError _ | .timeoutError _ | .raised (.permissionError _) => true
  | _ => false

def retryableAssistantFailures : List String :=
  ["bedrock_timeout", "bedrock_throttling", "bedrock_service_unavailable", "bedrock_circuit_open"]

/-- `VerifiedAgentContext(...)` of a principal: its first error. -/
def verifiedContext (principal : IdentifiedPrincipal) (correlationId : String) : Except Error VerifiedAgentContext :=
  if principal.actorId.length < 1 then
    .error (.validationError "subject_reference" "String should have at least 1 character")
  else if 128 < principal.actorId.length then
    .error (.validationError "subject_reference" "String should have at most 128 characters")
  else if few : principal.projectScopes.length < 1 then
    .error (.validationError "authorized_project_keys" "Tuple should have at least 1 item after validation, not 0")
  else if many : 20 < principal.projectScopes.length then
    .error (.validationError "authorized_project_keys" 
      ("Tuple should have at most 20 items after validation, not " ++ toString principal.projectScopes.length))
  else if short : correlationId.length < 1 then
    .error (.validationError "correlation_id" "String should have at least 1 character")
  else if long : 128 < correlationId.length then
    .error (.validationError "correlation_id" "String should have at most 128 characters")
  else .ok ⟨principal.projectScopes, correlationId, ⟨Nat.le_of_not_lt few, Nat.le_of_not_lt many⟩,
    ⟨Nat.le_of_not_lt short, Nat.le_of_not_lt long⟩⟩

/-- What the endpoint is set up with. -/
structure Endpoint where
  mode : EvidenceMode
  /-- There is a database. -/
  database : Bool
  /-- The explainer can plan evidence. -/
  planner : Bool
  runtime : StepLimit
  /-- `classify_failure` of an exception and those it came of. -/
  classify : Fault → String

namespace Endpoint

variable (endpoint : Endpoint)

def workflow : InvestigationWorkflow where
  planner := endpoint.planner
  taskQueryTool := true
  dossierTool := endpoint.mode.isJira
  historicalTool := endpoint.database
  projectTool := endpoint.mode.isJira
  progressHistoryReader := endpoint.database
  maxSteps := 6
  maxToolCalls := 2

/-- The header's correlation id, or a new one. -/
def correlationId (header : Option String) (drawn : String) : String :=
  match header with
  | none => "corr-" ++ drawn
  | some text => if text = "" then "corr-" ++ drawn else text

def finish (correlationId : String) : Except Fault InvestigationResponse → Except Unanswered InvestigationResponse
  | .ok response => if response.explanation.isSome then .ok response else .error .unexplained
  | .error fault =>
    if isOSError fault then
      .error (.ungrounded (endpoint.classify fault) correlationId (endpoint.classify fault ∈ retryableAssistantFailures))
    else .error (.raised fault)

variable [TextTables] [FloatText] [LowerCase]

/-- The workflow, under the caller's authority. -/
def answer (payload : InvestigationRequest) (context : VerifiedAgentContext) :
    PortProc (Except Unanswered InvestigationResponse) :=
  ((endpoint.workflow.run endpoint.runtime ⟨context, payload.question, payload.context, payload.previousAnswerContext⟩).through
    (carry endpoint.mode context endpoint.runtime)).bind fun result => .ret (endpoint.finish context.correlationId result)

variable [Sha256] [KeyDigest] (settings : Settings)

/-- `POST /investigations`, after the requests that the process had before. -/
def investigate (past : List Auth.Call) (call : Auth.Call) (payload : InvestigationRequest) (header : Option String)
    (drawn : String) : PortProc (Except Unanswered InvestigationResponse) :=
  match answerTo settings past call with
  | .error error => .ret (.error (.route error))
  | .ok principal =>
    if payload.context.projectKey ≠ call.projectKey then .ret (.error (.route (.http 400 "project context mismatch")))
    else match verifiedContext principal (correlationId header drawn) with
      | .error error => .ret (.error (.raised (.raised error)))
      | .ok context =>
        if endpoint.mode.isJira then (PortCall.loadWorkforceProfiles call.projectKey).ask.bind fun
          | .error fault => .ret (.error (.raised fault))
          | .ok _ => endpoint.answer payload context
        else endpoint.answer payload context

end Endpoint

/-! ## Who is answered -/

section
variable [Unicode] [Sha256] [KeyDigest] {settings : Settings} {past : List Auth.Call} {call : Auth.Call}
  {principal : IdentifiedPrincipal}

omit [Sha256] in
theorem authenticate_scoped {pepper : String} {authorization : Option String} {records : List ApiKeyRecord}
    {environment projectKey : String} {allowedRoles : List ApplicationRole} {now : DateTime}
    (h : authenticate pepper authorization records environment projectKey allowedRoles now = .ok principal) :
    projectKey ∈ principal.projectScopes := by
  obtain ⟨_, record, _, _, _, hadmitted⟩ := authenticate_admitted h
  obtain ⟨_, _, _, hproject, _, hprincipal⟩ := admitRecord_ok_iff.mp hadmitted
  rw [hprincipal]
  exact hproject

omit [Sha256] [KeyDigest] in
/-- Whoever comes past the entrance asks for a project that is configured; who is answered there may read it. -/
theorem entrance_scoped (h : (∃ principal, entrance settings call = .answered (.ok principal)) ∨
      entrance settings call = .admitted) :
    (∃ keys, settings.configuredProjects = .ok keys ∧ call.projectKey ∈ keys) ∧
      ∀ principal, entrance settings call = .answered (.ok principal) → call.projectKey ∈ principal.projectScopes := by
  unfold entrance at h ⊢
  split
  · rename_i hkeys
    rw [hkeys] at h
    rcases h with ⟨principal, h⟩ | h
    · cases h
    · cases h
  rename_i keys hkeys
  simp only [hkeys] at h
  split
  · rename_i hkey
    simp only [hkey, not_false_eq_true, if_true] at h
    rcases h with ⟨principal, h⟩ | h
    · cases h
    · cases h
  rename_i hkey
  refine ⟨⟨keys, hkeys, not_not.mp hkey⟩, fun principal h => ?_⟩
  split at h
  · unfold Settings.anonymousReadPrincipal at h
    split at h
    · cases h
    · cases h
      exact List.mem_singleton_self _
  · split at h
    · cases h
    · cases h

/-- A caller is answered for the project that is asked for, and it is configured. -/
theorem answerTo_scoped (h : answerTo settings past call = .ok principal) :
    call.projectKey ∈ principal.projectScopes ∧
      ∃ keys, settings.configuredProjects = .ok keys ∧ call.projectKey ∈ keys := by
  unfold answerTo getInvestigator at h
  split at h
  · rename_i answer hin
    cases h
    obtain ⟨hconfigured, hscope⟩ := entrance_scoped (.inl ⟨principal, hin⟩)
    exact ⟨hscope principal hin, hconfigured⟩
  · rename_i hin
    obtain ⟨hconfigured, _⟩ := entrance_scoped (.inr hin)
    refine ⟨?_, hconfigured⟩
    split at h
    · rename_i hattempt
      cases h
      obtain ⟨rows, records, _, _, hauthenticated, _⟩ := attempt_ok hattempt
      exact authenticate_scoped hauthenticated
    · rename_i hattempt
      cases h
      obtain ⟨rows, records, _, _, hauthenticated, _⟩ := attempt_ok hattempt
      exact authenticate_scoped hauthenticated
    · cases h
    · split at h
      · rename_i hcached
        cases h
        unfold cachedPrincipal at hcached
        split at hcached
        · cases hcached
        · split at hcached
          · rename_i hlive
            cases hcached
            exact hlive.2.2.1
          · cases hcached
      · cases h

end

/-! ## What is asked for a caller -/

section
variable [TextTables] [FloatText] [LowerCase]

/-- The question is about the overload of the employee. -/
def Inquiry.Overload (inquiry : Inquiry) (employeeId : String) : Prop :=
  inquiry.intent = .explainEmployeeOverload ∧ inquiry.references.employeeId = some employeeId

/-- What is asked is meant by the inquiry. From Jira a plan and the project are read; no issue is read by itself, and
    nobody is scored by the overload tool. -/
def Meant (mode : EvidenceMode) (inquiry : Inquiry) : PortCall → Prop
  | .loadWorkforceProfiles projectKey => mode.isJira = true ∧ projectKey = inquiry.references.projectKey
  | .pass call => InvestigationWorkflow.About inquiry call ∧ (call.isExplain = false →
      (mode.isJira = true ↔ match call with
        | .planEvidence .. | .read _ => True
        | _ => False))
  | .jira _ => False
  | .readFixture name => mode.isJira = false ∧ ∃ employeeId, inquiry.Overload employeeId ∧ name = fixtureName employeeId
  | .now => mode.isJira = false
  | .score input correlationId => mode.isJira = false ∧ inquiry.Overload input.employeeId ∧
      correlationId = inquiry.verifiedContext.correlationId

variable {endpoint : Endpoint} {inquiry : Inquiry} {t : List (Exchange PortCall PortCall.Answer)}

/-- Without Jira the tool reads the employee's fixture, and scores that. -/
theorem overloadTool_sat (hmode : endpoint.mode.isJira = false) :
    (overloadTool endpoint.mode ⟨inquiry.intent, inquiry.references, inquiry.verifiedContext.correlationId⟩).Sat
      (Proc.recorded fun _ => Meant endpoint.mode inquiry) t fun _ _ => True := by
  unfold overloadTool
  split
  · trivial
  rename_i hintent
  dsimp only
  split
  · trivial
  rename_i employeeId hemployee
  have hoverload : inquiry.Overload employeeId := ⟨not_not.mp hintent, hemployee⟩
  cases hm : endpoint.mode with
  | jira provider =>
    rw [hm] at hmode
    cases hmode
  | fixture =>
    apply Proc.sat_andThen
    apply Proc.sat_andThen
    refine Proc.sat_perform ⟨rfl, employeeId, hoverload, rfl⟩ fun answer => ?_
    cases answer with
    | error fault => trivial
    | ok input =>
      refine Proc.sat_bind (Proc.sat_perform rfl fun now => ?_)
      exact Proc.sat_perform ⟨rfl, hoverload, rfl⟩ fun answer => trivial

instance (call : DomainCall) : Nonempty call.Answer := ⟨(.error .recursionError : Except Fault RiskResult)⟩

omit [TextTables] [FloatText] [LowerCase] in
/-- Whoever asks through the specialists, the tool is asked that and nothing else. -/
theorem domain_sat {router : SpecialistRouter} {runtime : StepLimit} {call : DomainCall}
    {tool : DomainCall → PortProc (Except Fault RiskResult)} {allowed : PortCall → Prop}
    (h : ∀ t, (tool call).Sat (Proc.recorded fun _ => allowed) t fun _ _ => True) :
    (((router.investigate runtime call).through tool).bind fun result => .ret result.1).Sat (Proc.recorded fun _ => allowed) t
      fun _ _ => True := by
  have hasked : (router.investigate runtime call).Sat (Proc.recorded fun _ asked => asked = call) [] fun _ _ => True :=
    ((investigate_sat router runtime call).mono fun _ _ h => ⟨h.same, trivial⟩).allowed_of_end
  apply Proc.sat_bind
  refine (Proc.sat_through (J := fun _ _ => True) ?_ hasked trivial).mono fun _ _ _ => trivial
  rintro _ t _ _ rfl
  exact h t

theorem carry_sat {asked : Asked} {call : Call}
    (h : InvestigationWorkflow.Allowed endpoint.workflow inquiry asked call) :
    (carry endpoint.mode inquiry.verifiedContext endpoint.runtime call).Sat (Proc.recorded fun _ => Meant endpoint.mode inquiry)
      t fun _ _ => True := by
  have htools := h.tools
  have habout := h.about
  have hworkflow : endpoint.workflow.projectTool = endpoint.mode.isJira := rfl
  rw [hworkflow] at htools
  cases call with
  | planEvidence question projectKey employeeId previous correlationId =>
    exact Proc.sat_perform ⟨habout, htools⟩ fun _ => trivial
  | read call => exact Proc.sat_perform ⟨habout, htools⟩ fun _ => trivial
  | getAt question employeeId projectKey correlationId => exact Proc.sat_perform ⟨habout, htools⟩ fun _ => trivial
  | explain request => exact Proc.sat_perform ⟨habout, fun hno => by cases hno⟩ fun _ => trivial
  | query question references correlationId previous =>
    have hmode : endpoint.mode.isJira = false := by simpa [Call.isExplain] using htools
    cases hm : endpoint.mode with
    | fixture => trivial
    | jira provider =>
      rw [hm] at hmode
      cases hmode
  | getCurrentDossier employeeId projectKey correlationId =>
    have hmode : endpoint.mode.isJira = false := by simpa [Call.isExplain] using htools
    cases hm : endpoint.mode with
    | fixture =>
      rw [hm] at htools
      exact Proc.sat_perform ⟨habout, htools⟩ fun _ => trivial
    | jira provider =>
      rw [hm] at hmode
      cases hmode
  | investigate domainCall =>
    have hmode : endpoint.mode.isJira = false := by simpa [Call.isExplain] using htools
    have hcall : domainCall = ⟨inquiry.intent, inquiry.references, inquiry.verifiedContext.correlationId⟩ := habout
    rw [carry]
    refine domain_sat fun t => ?_
    rw [hcall]
    exact overloadTool_sat hmode

/-! ## Requests -/

variable [Sha256] [KeyDigest]

/-- Asked for a caller who is authenticated for the project, and about what the request says. -/
def ForCaller (endpoint : Endpoint) (settings : Settings) (past : List Auth.Call) (call : Auth.Call)
    (payload : InvestigationRequest) (correlationId : String) (asked : PortCall) : Prop :=
  ∃ principal context, answerTo settings past call = .ok principal ∧ call.projectKey ∈ principal.projectScopes ∧
    (∃ keys, settings.configuredProjects = .ok keys ∧ call.projectKey ∈ keys) ∧
    payload.context.projectKey = call.projectKey ∧
    context.authorizedProjectKeys = principal.projectScopes ∧ context.correlationId = correlationId ∧
    Meant endpoint.mode ⟨context, payload.question, payload.context, payload.previousAnswerContext⟩ asked

/-- How a request may end: with an explanation, or where nobody was asked, or with what somebody raised. -/
def Ends (endpoint : Endpoint) (payload : InvestigationRequest) (correlationId : String) (nobody : Prop) :
    Except Unanswered InvestigationResponse → Prop
  | .ok response => response.explanation.isSome = true ∧ response.correlationId = correlationId ∧
      response.intent = classifyIntent payload.question (some (defaultScope payload.context)) ∧
      response.stepsUsed ≤ 6 ∧ response.toolCallsUsed ≤ 2
  | .error (.route _) => nobody
  | .error .unexplained => nobody ∧ endpoint.mode.isJira = false ∧
      classifyIntent payload.question (some (defaultScope payload.context)) = .unsupported
  | .error (.ungrounded _ correlation _) => correlation = correlationId
  | .error (.raised _) => True

variable {settings : Settings} {past : List Auth.Call} {call : Auth.Call} {payload : InvestigationRequest}
  {header : Option String} {drawn : String} {context : VerifiedAgentContext}

omit [TextTables] [FloatText] [LowerCase] [Sha256] [KeyDigest] in
theorem verifiedContext_ok {principal : IdentifiedPrincipal} {correlationId : String}
    (h : verifiedContext principal correlationId = .ok context) :
    context.authorizedProjectKeys = principal.projectScopes ∧ context.correlationId = correlationId := by
  unfold verifiedContext at h
  repeat'
    split at h
    · cases h
  cases h
  exact ⟨rfl, rfl⟩

omit [FloatText] [Sha256] [KeyDigest] in
theorem finish_ends {nobody : Prop} {asked : Asked} {result : Except Fault InvestigationResponse}
    (h : ∀ response, result = .ok response → InvestigationWorkflow.Reported endpoint.workflow
      ⟨context, payload.question, payload.context, payload.previousAnswerContext⟩ asked response)
    (hnobody : asked = [] → nobody) :
    Ends endpoint payload context.correlationId nobody (endpoint.finish context.correlationId result) ∧
      ∀ error, endpoint.finish context.correlationId result ≠ .error (.route error) := by
  unfold Endpoint.finish
  split
  · rename_i response
    have hr := h response rfl
    split
    · rename_i hexplained
      exact ⟨⟨hexplained, hr.correlationId, hr.intent, hr.stepsUsed, hr.toolCallsUsed.2⟩, fun error he => by cases he⟩
    · rename_i hunexplained
      obtain ⟨_, _, explanation, _, hexplanation, _⟩ | ⟨ht, _, _, _, _, hproject, hintent⟩ := hr.answer
      · rw [hexplanation] at hunexplained
        exact absurd rfl hunexplained
      · exact ⟨⟨hnobody ht, hproject, hintent⟩, fun error he => by cases he⟩
  · split
    · exact ⟨rfl, fun error he => by cases he⟩
    · exact ⟨trivial, fun error he => by cases he⟩

omit [Sha256] [KeyDigest] in
/-- The workflow under a context: nobody was asked where it asks nobody. -/
theorem answer_sat : (endpoint.answer payload context).Sat
    (Proc.recorded fun _ => Meant endpoint.mode ⟨context, payload.question, payload.context, payload.previousAnswerContext⟩) t
    fun r t' => Ends endpoint payload context.correlationId (t' = t) r ∧ ∀ error, r ≠ .error (.route error) := by
  unfold Endpoint.answer
  apply Proc.sat_bind
  refine (Proc.sat_through (J := fun g t' => g = [] → t' = t) ?_
    (InvestigationWorkflow.run_sat endpoint.workflow endpoint.runtime _) fun _ => rfl).mono fun result t' hresult => ?_
  · intro g t' asked _ hallowed
    exact (carry_sat hallowed).mono fun r _ _ hnil =>
      absurd hnil (List.append_ne_nil_of_right_ne_nil _ (List.cons_ne_nil _ _))
  · obtain ⟨asked, hreported, hnobody⟩ := hresult
    exact finish_ends hreported hnobody

theorem request_sat : (endpoint.investigate settings past call payload header drawn).Sat
    (Proc.recorded fun _ => ForCaller endpoint settings past call payload (Endpoint.correlationId header drawn)) []
    fun r t => Ends endpoint payload (Endpoint.correlationId header drawn) (t = []) r := by
  unfold Endpoint.investigate
  split
  · exact rfl
  rename_i principal hprincipal
  split
  · exact rfl
  rename_i hproject
  split
  · trivial
  rename_i context hcontext
  obtain ⟨hkeys, hcorrelation⟩ := verifiedContext_ok hcontext
  obtain ⟨hscope, hconfigured⟩ := answerTo_scoped hprincipal
  have hcaller : ∀ asked,
      Meant endpoint.mode ⟨context, payload.question, payload.context, payload.previousAnswerContext⟩ asked →
      ForCaller endpoint settings past call payload (Endpoint.correlationId header drawn) asked :=
    fun asked h => ⟨principal, context, hprincipal, hscope, hconfigured, not_not.mp hproject, hkeys, hcorrelation, h⟩
  rw [← hcorrelation] at hcaller ⊢
  have hanswer : ∀ t, (endpoint.answer payload context).Sat
      (Proc.recorded fun _ => ForCaller endpoint settings past call payload context.correlationId) t
      fun r t' => Ends endpoint payload context.correlationId (t' = t) r ∧ ∀ error, r ≠ .error (.route error) :=
    fun t => answer_sat.allow fun _ asked h => hcaller asked h
  split
  · rename_i hjira
    refine Proc.sat_bind (Proc.sat_perform (hcaller _ ⟨hjira, (not_not.mp hproject).symm⟩) fun loaded => ?_)
    cases loaded with
    | error fault => trivial
    | ok _ =>
      refine (hanswer _).mono fun r t hr => ?_
      -- what ends with nobody asked does not end so on Jira
      cases r with
      | ok response => exact hr.1
      | error unanswered =>
        cases unanswered with
        | route error => exact absurd rfl (hr.2 error)
        | ungrounded failureCode correlation retryable => exact hr.1
        | unexplained =>
          have := hr.1.2.1
          rw [hjira] at this
          cases this
        | raised fault => trivial
  · exact (hanswer []).mono fun _ _ h => h.1

/-- Whatever has been answered so far, nothing is asked but for a caller who is authenticated for the project, and about
    what the request says. -/
theorem asked_for_caller {p : PortProc (Except Unanswered InvestigationResponse)}
    (h : (endpoint.investigate settings past call payload header drawn).Runs t p)
    {before after : List (Exchange PortCall PortCall.Answer)} {x : Exchange PortCall PortCall.Answer}
    (ht : t = before ++ x :: after) :
    ForCaller endpoint settings past call payload (Endpoint.correlationId header drawn) x.asked :=
  request_sat.asked h before x after ht

/-- A request that is answered has an explanation; where there is none nobody was asked, and there is no Jira. -/
theorem answered_with_explanation {r : Except Unanswered InvestigationResponse}
    (h : (endpoint.investigate settings past call payload header drawn).Runs t (.ret r)) :
    Ends endpoint payload (Endpoint.correlationId header drawn) (t = []) r :=
  request_sat.returned h

end

/-! ## A question on fixtures -/

section
attribute [local instance] TextTables.ascii FloatText.plain LowerCase.ascii Sha256.transparent KeyDigest.transparent

def fixtureEndpoint : Endpoint := ⟨.fixture, false, false, everyStep, fun _ => "internal_exception"⟩

def openSettings : Settings := ⟨none, some "true", none, none, none, none⟩

def anonymousPost : Auth.Call := ⟨"POST", "/api/v1/investigations", "WFD", none, none, 0, 0⟩

theorem riskQuestion_ok : 1 ≤ "Project risk?".length ∧ "Project risk?".length ≤ 1000 := by decide

def riskRequest : InvestigationRequest := ⟨"Project risk?", sampleReferences, none, riskQuestion_ok⟩

theorem riskRequest_runs :
    (fixtureEndpoint.investigate openSettings [] anonymousPost riskRequest (some "corr-1") "0").Runs
      [⟨.pass (.explain riskMissing), .ok noEvidence⟩]
      (.ret (.ok ⟨"corr-1", .explainProjectRisk, none, some noEvidence, none, 4, 0, none⟩)) := .next _ (.done _)

theorem anonymous_asks : ForCaller fixtureEndpoint openSettings [] anonymousPost riskRequest "corr-1"
    (.pass (.explain riskMissing)) :=
  asked_for_caller riskRequest_runs (List.nil_append _).symm

theorem anonymous_is_answered : Ends fixtureEndpoint riskRequest "corr-1"
    ([(⟨.pass (.explain riskMissing), .ok noEvidence⟩ : Exchange PortCall PortCall.Answer)] = [])
    (.ok ⟨"corr-1", .explainProjectRisk, none, some noEvidence, none, 4, 0, none⟩) :=
  answered_with_explanation riskRequest_runs

end

end WorkforceRisk.Graph
