/-
  WorkforceRisk.Graph.Investigations — what an investigation may ask and what it answers
  (of Graph.Workflow).

  Whatever the planner, the tools and the explainer answer, and however far a run gets:
  nothing is asked for a project outside the caller's; everything is asked about the
  inquiry's own project, employee and question; the counted calls stay within their limit;
  the explainer is asked last, once, and of nothing that was not answered before
  (`asked_of_inquiry`). A run that ends well answers with what the explainer said or with
  what can be asked, and counts its calls as they were made (`answered_by_explainer`).
-/

import WorkforceRisk.Graph.Workflow
import WorkforceRisk.Llm.Bedrock

namespace WorkforceRisk.Graph

open Lib Persistence Historical Risk Dashboard Evidence

/-- What was asked and answered so far. -/
abbrev Asked := List (Exchange Call Call.Answer)

def Asked.tools (t : Asked) : Nat := t.countP (·.asked.isTool)

def GraphState.inquiry (s : GraphState) : Inquiry :=
  ⟨s.verifiedContext, s.question, s.references, s.previousAnswerContext⟩

/-- There is something to explain. -/
def Gathered.Present (gathered : Gathered) : Prop :=
  gathered.universalEvidence.isSome ∨ gathered.risk.isSome ∨ gathered.taskQueryResult.isSome

/-- The payload of the provider can be built. -/
theorem payload_of_present {request : ExplanationRequest} (h : request.toGathered.Present) :
    Llm.BedrockExplanationProvider.hasPayload request.read = true := by
  unfold Llm.BedrockExplanationProvider.hasPayload ExplanationRequest.read
  rcases h with h | h | h
  all_goals simp [h]

section
variable [TextTables] [LowerCase]

def Inquiry.intent (inquiry : Inquiry) : Intent :=
  classifyIntent inquiry.question (some (defaultScope inquiry.references))

namespace InvestigationWorkflow

variable (workflow : InvestigationWorkflow) (inquiry : Inquiry)

/-! ## What may be asked -/

/-- A call is about what the inquiry is about. -/
def About : Call → Prop
  | .planEvidence question projectKey employeeId previous correlationId =>
    question = inquiry.question ∧ projectKey = inquiry.references.projectKey ∧ employeeId = inquiry.references.employeeId ∧
      previous = inquiry.previousAnswerContext ∧ correlationId = inquiry.verifiedContext.correlationId
  | .read (.build projectKey correlationId) | .read (.load projectKey correlationId) =>
    projectKey = inquiry.references.projectKey ∧ correlationId = inquiry.verifiedContext.correlationId
  | .query question references correlationId previous =>
    question = inquiry.question ∧ references = inquiry.references ∧
      correlationId = inquiry.verifiedContext.correlationId ∧ previous = inquiry.previousAnswerContext
  | .investigate call => call = ⟨inquiry.intent, inquiry.references, inquiry.verifiedContext.correlationId⟩
  | .getCurrentDossier employeeId projectKey correlationId =>
    some employeeId = inquiry.references.employeeId ∧ projectKey = inquiry.references.projectKey ∧
      correlationId = inquiry.verifiedContext.correlationId
  | .getAt question employeeId projectKey correlationId =>
    question = inquiry.question ∧ some employeeId = inquiry.references.employeeId ∧
      projectKey = inquiry.references.projectKey ∧ correlationId = inquiry.verifiedContext.correlationId
  | .explain request =>
    request.workflow = inquiry.intent.value ∧ request.question = inquiry.question ∧
      request.previousAnswerContext = inquiry.previousAnswerContext ∧
      request.correlationId = inquiry.verifiedContext.correlationId

/-! ## Where the evidence comes from -/

/-- A plan that is followed is made of the planner's answer, or of the plan that reads everything. -/
def Planned (t : Asked) (plan : EvidencePlan) (ambiguous : Option (List EvidenceEntity)) : Prop :=
  ∃ proposed, followed inquiry.question inquiry.previousAnswerContext proposed = .ok (plan, ambiguous) ∧
    (proposed = conservativeReadPlan ∨ ∃ question projectKey employeeId previous correlationId,
      ⟨.planEvidence question projectKey employeeId previous correlationId, .ok proposed⟩ ∈ t)

/-- What the collector makes of a plan and of what was read. -/
def Assembled (t : Asked) (bundle : CollectedEvidence) : Prop :=
  ∃ plan ambiguous projectKey correlationId snapshot loaded collected, Planned inquiry t plan ambiguous ∧
    ⟨.read (.build projectKey correlationId), .ok snapshot⟩ ∈ t ∧
    (∀ answer ∈ loaded, ⟨.read (.load projectKey correlationId), answer⟩ ∈ t) ∧
    assemble plan projectKey correlationId inquiry.references.employeeId inquiry.question inquiry.previousAnswerContext
      snapshot loaded = .ok collected ∧
    bundle = withAmbiguous ambiguous collected

/-- All of it was answered, put together of answers, or a record that something is missing. -/
structure Sourced (t : Asked) (gathered : Gathered) : Prop where
  risk : ∀ risk ∈ gathered.risk, (∃ call, ⟨.investigate call, .ok risk⟩ ∈ t) ∨
    ∃ question employeeId projectKey correlationId historical,
      ⟨.getAt question employeeId projectKey correlationId, .ok historical⟩ ∈ t ∧ historical.risk.result = risk
  projectSnapshot : ∀ snapshot ∈ gathered.projectSnapshot, ∃ projectKey correlationId,
    ⟨.read (.build projectKey correlationId), .ok snapshot⟩ ∈ t
  taskQueryResult : ∀ result ∈ gathered.taskQueryResult, ∃ question references correlationId previous,
    ⟨.query question references correlationId previous, .ok result⟩ ∈ t
  evidenceDossier : ∀ dossier ∈ gathered.evidenceDossier,
    (∃ employeeId projectKey correlationId, ⟨.getCurrentDossier employeeId projectKey correlationId, .ok dossier⟩ ∈ t) ∨
    ∃ question employeeId projectKey correlationId historical,
      ⟨.getAt question employeeId projectKey correlationId, .ok historical⟩ ∈ t ∧ historical.dossier = dossier
  previousEvidenceDossier : ∀ dossier ∈ gathered.previousEvidenceDossier,
    ∃ question employeeId projectKey correlationId historical,
      ⟨.getAt question employeeId projectKey correlationId, .ok historical⟩ ∈ t ∧
      historical.previousDossier = some dossier
  universalEvidence : ∀ bundle ∈ gathered.universalEvidence, Assembled inquiry t bundle ∨
    ∃ category reason, bundle = missingBundle inquiry.verifiedContext.correlationId inquiry.references.projectKey
      ⟨category, reason, inquiry.references.projectKey, true⟩

/-- Without a project tool: what the intent chooses. A dossier goes with the risk that was answered before. -/
def Chosen (t : Asked) : Call → Prop
  | .planEvidence .. | .read _ => False
  | .query .. => inquiry.intent = .jiraTaskQuery ∧ workflow.taskQueryTool = true
  | .getAt .. => inquiry.intent = .explainHistory ∧ workflow.historicalTool = true
  | .investigate _ => inquiry.intent ∉ [.explainProjectRisk, .jiraTaskQuery, .explainHistory, .unsupported]
  | .getCurrentDossier .. => inquiry.intent = .explainEmployeeOverload ∧ workflow.dossierTool = true ∧
      ∃ call risk, t = [⟨.investigate call, .ok risk⟩]
  | .explain _ => inquiry.intent ≠ .unsupported

/-- What may be asked next. -/
structure Allowed (t : Asked) (call : Call) : Prop where
  short : inquiry.question.length ≤ 1000
  authorized : inquiry.references.projectKey ∈ inquiry.verifiedContext.authorizedProjectKeys
  about : About inquiry call
  budget : call.isTool = true → t.tools < workflow.maxToolCalls
  /-- Nothing is asked once the explainer was. -/
  last : ∀ x ∈ t, x.asked.isExplain = false
  /-- The explainer is shown what was gathered, and never nothing: the provider can build its payload. -/
  explained : ∀ request, call = .explain request →
    Sourced inquiry t request.toGathered ∧ Llm.BedrockExplanationProvider.hasPayload request.read = true
  /-- With a project tool the planner and the readers of the collector are asked, and nobody else but the explainer. -/
  tools : call.isExplain = false → (workflow.projectTool = true ↔ match call with
    | .planEvidence .. | .read _ => True
    | _ => False)
  chosen : workflow.projectTool = false → Chosen workflow inquiry t call

/-! ## What holds between the nodes -/

/-- What is known on the way into each node besides what is kept everywhere. -/
def Ready (s : GraphState) (t : Asked) : Node → Prop
  | .receiveVerifiedContext => t = [] ∧ s.toGathered = {} ∧ s.ambiguousReferences = none
  | .classify => t = [] ∧ s.toGathered = {} ∧ s.ambiguousReferences = none
  | .planEvidence => t = [] ∧ s.toGathered = {} ∧ s.ambiguousReferences = none ∧ workflow.projectTool = true
  | .collectEvidence => s.toGathered = {} ∧ workflow.projectTool = true ∧
    ∃ plan, s.evidencePlan = some plan ∧ Planned inquiry t plan s.ambiguousReferences
  | .gather => t = [] ∧ s.toGathered = {} ∧ workflow.projectTool = false ∧ inquiry.intent ≠ .unsupported
  | .explain => s.toGathered.Present ∧ (workflow.projectTool = false → inquiry.intent ≠ .unsupported)
  | .capability => t = [] ∧ s.toGathered = {} ∧ workflow.projectTool = false ∧ inquiry.intent = .unsupported

/-- What is kept: of so many steps, those taken and those left; the calls, as they are counted. -/
structure Kept (steps left : Nat) (s : GraphState) (t : Asked) : Prop where
  same : s.inquiry = inquiry
  short : inquiry.question.length ≤ 1000
  steps : s.stepsUsed + left = steps
  counted : s.toolCallsUsed = t.tools
  budget : t.tools ≤ workflow.maxToolCalls
  last : ∀ x ∈ t, x.asked.isExplain = false
  sourced : Sourced inquiry t s.toGathered
  unanswered : s.explanation = none ∧ s.capabilityGuidance = none

structure Entered (steps left : Nat) (v : Node) (s : GraphState) (t : Asked) : Prop extends
    Kept workflow inquiry steps left s t where
  authorized : v ≠ .receiveVerifiedContext → inquiry.references.projectKey ∈ inquiry.verifiedContext.authorizedProjectKeys
  intent : v ≠ .receiveVerifiedContext → v ≠ .classify → s.intent = some inquiry.intent
  ready : Ready workflow inquiry s t v

/-- An answer: what the explainer said of what was gathered, or what can be asked. -/
def Answer (s : GraphState) (t : Asked) : Prop :=
  (∃ before request explanation, t = before ++ [⟨.explain request, .ok explanation⟩] ∧
    s.explanation = some explanation ∧ s.capabilityGuidance = none ∧ request.toGathered = s.toGathered) ∨
  t = [] ∧ s.explanation = none ∧ s.capabilityGuidance = some capabilityGuidance ∧ s.toGathered = {} ∧
    workflow.projectTool = false ∧ inquiry.intent = .unsupported

structure Ended (steps : Nat) (s : GraphState) (t : Asked) : Prop where
  same : s.inquiry = inquiry
  steps : s.stepsUsed ≤ steps
  counted : s.toolCallsUsed = t.tools
  budget : t.tools ≤ workflow.maxToolCalls
  intent : s.intent = some inquiry.intent
  answer : Answer workflow inquiry s t

/-- What a node leaves: an exception, the way into the next node, or the end. -/
def Leaves (steps left : Nat) (v : Node) (r : Except Fault GraphState) (t : Asked) : Prop :=
  match r with
  | .error _ => True
  | .ok s => match workflow.edge v s with
    | none => Ended workflow inquiry steps s t
    | some w => Entered workflow inquiry steps left w s t

variable {workflow inquiry} {t t' : Asked}

/-! ## Steps -/

omit [LowerCase] in
theorem Planned.mono {plan : EvidencePlan} {ambiguous : Option (List EvidenceEntity)} (h : ∀ x ∈ t, x ∈ t')
    (hp : Planned inquiry t plan ambiguous) : Planned inquiry t' plan ambiguous := by
  obtain ⟨proposed, hfollowed, hproposed | ⟨_, _, _, _, _, hin⟩⟩ := hp
  · exact ⟨proposed, hfollowed, .inl hproposed⟩
  · exact ⟨proposed, hfollowed, .inr ⟨_, _, _, _, _, h _ hin⟩⟩

theorem Assembled.mono {bundle : CollectedEvidence} (h : ∀ x ∈ t, x ∈ t') (ha : Assembled inquiry t bundle) :
    Assembled inquiry t' bundle := by
  obtain ⟨plan, ambiguous, projectKey, correlationId, snapshot, loaded, collected, hplan, hbuild, hload, hrest⟩ := ha
  exact ⟨plan, ambiguous, projectKey, correlationId, snapshot, loaded, collected, hplan.mono h, h _ hbuild,
    fun answer ha => h _ (hload answer ha), hrest⟩

theorem Sourced.mono {gathered : Gathered} (h : ∀ x ∈ t, x ∈ t') (hs : Sourced inquiry t gathered) :
    Sourced inquiry t' gathered where
  risk risk hr := by
    obtain ⟨call, hin⟩ | ⟨_, _, _, _, _, hin, he⟩ := hs.risk risk hr
    · exact .inl ⟨call, h _ hin⟩
    · exact .inr ⟨_, _, _, _, _, h _ hin, he⟩
  projectSnapshot snapshot hr := by
    obtain ⟨_, _, hin⟩ := hs.projectSnapshot snapshot hr
    exact ⟨_, _, h _ hin⟩
  taskQueryResult result hr := by
    obtain ⟨_, _, _, _, hin⟩ := hs.taskQueryResult result hr
    exact ⟨_, _, _, _, h _ hin⟩
  evidenceDossier dossier hr := by
    obtain ⟨_, _, _, hin⟩ | ⟨_, _, _, _, _, hin, he⟩ := hs.evidenceDossier dossier hr
    · exact .inl ⟨_, _, _, h _ hin⟩
    · exact .inr ⟨_, _, _, _, _, h _ hin, he⟩
  previousEvidenceDossier dossier hr := by
    obtain ⟨_, _, _, _, _, hin, he⟩ := hs.previousEvidenceDossier dossier hr
    exact ⟨_, _, _, _, _, h _ hin, he⟩
  universalEvidence bundle hr := (hs.universalEvidence bundle hr).imp_left fun ha => ha.mono h

theorem sourced_nothing : Sourced inquiry t {} where
  risk _ hr := by cases hr
  projectSnapshot _ hr := by cases hr
  taskQueryResult _ hr := by cases hr
  evidenceDossier _ hr := by cases hr
  previousEvidenceDossier _ hr := by cases hr
  universalEvidence _ hr := by cases hr

theorem sourced_bundle {snapshot : Option DashboardSnapshot} {bundle : CollectedEvidence}
    (hsnapshot : ∀ built ∈ snapshot, ∃ projectKey correlationId,
      (⟨.read (.build projectKey correlationId), .ok built⟩ : Exchange Call Call.Answer) ∈ t)
    (hbundle : Assembled inquiry t bundle ∨ ∃ category reason, bundle =
      missingBundle inquiry.verifiedContext.correlationId inquiry.references.projectKey
        ⟨category, reason, inquiry.references.projectKey, true⟩) :
    Sourced inquiry t { projectSnapshot := snapshot, universalEvidence := some bundle } where
  risk _ hr := by cases hr
  projectSnapshot := hsnapshot
  taskQueryResult _ hr := by cases hr
  evidenceDossier _ hr := by cases hr
  previousEvidenceDossier _ hr := by cases hr
  universalEvidence _ hr := by
    obtain rfl := Option.some.inj hr
    exact hbundle

omit [TextTables] [LowerCase] in
theorem tools_concat (t : Asked) (x : Exchange Call Call.Answer) :
    Asked.tools (t ++ [x]) = t.tools + if x.asked.isTool = true then 1 else 0 := by
  rw [Asked.tools, List.countP_append, List.countP_singleton]
  rfl

omit [TextTables] [LowerCase] in
theorem last_concat {x : Exchange Call Call.Answer} (h : ∀ x ∈ t, x.asked.isExplain = false)
    (hx : x.asked.isExplain = false) : ∀ y ∈ t ++ [x], y.asked.isExplain = false := by
  intro y hy
  rcases List.mem_append.mp hy with hy | hy
  · exact h y hy
  · rw [List.mem_singleton.mp hy]
    exact hx

theorem sat_ask {call : Call} {Q : call.Answer → Asked → Prop} (ha : Allowed workflow inquiry t call)
    (hq : ∀ answer, Q answer (t ++ [⟨call, answer⟩])) :
    call.ask.Sat (Proc.recorded (Allowed workflow inquiry)) t Q := Proc.sat_perform ha hq

variable {steps left : Nat} {s : GraphState}

theorem receive_leaves (h : Entered workflow inquiry steps (left + 1) .receiveVerifiedContext s t) :
    Leaves workflow inquiry steps left .receiveVerifiedContext (Graph.receiveVerifiedContext s) t := by
  unfold Graph.receiveVerifiedContext
  split
  · trivial
  · rename_i hproject
    have hsame := h.same
    have hsteps := h.steps
    exact
      { same := h.same
        short := h.short
        steps := by show s.stepsUsed + 1 + left = steps; omega
        counted := h.counted
        budget := h.budget
        last := h.last
        sourced := h.sourced
        unanswered := h.unanswered
        authorized := fun _ => by
          rw [← hsame]
          exact not_not.mp hproject
        intent := fun _ hc => absurd rfl hc
        ready := h.ready }

theorem classify_leaves (h : Entered workflow inquiry steps (left + 1) .classify s t) :
    Leaves workflow inquiry steps left .classify (.ok (classifySupportedIntent s)) t := by
  have hsteps := h.steps
  obtain ⟨ht, hnothing, hambiguous⟩ := h.ready
  have hintent : (classifySupportedIntent s).intent = some inquiry.intent := by
    rw [← h.same]
    rfl
  have hkept : Kept workflow inquiry steps left (classifySupportedIntent s) t :=
    { same := h.same
      short := h.short
      steps := by show s.stepsUsed + 1 + left = steps; omega
      counted := h.counted
      budget := h.budget
      last := h.last
      sourced := h.sourced
      unanswered := h.unanswered }
  have hauthorized := h.authorized nofun
  unfold Leaves edge
  dsimp only
  split
  · rename_i hedge
    split at hedge
    · cases hedge
    · split at hedge
      · cases hedge
      · cases hedge
  · rename_i w hedge
    split at hedge
    · rename_i hproject
      obtain rfl := Option.some.inj hedge
      exact ⟨hkept, fun _ => hauthorized, fun _ _ => hintent, ht, hnothing, hambiguous, hproject⟩
    · rename_i hproject
      rw [Bool.not_eq_true] at hproject
      split at hedge
      · rename_i hunsupported
        obtain rfl := Option.some.inj hedge
        rw [hintent] at hunsupported
        exact ⟨hkept, fun _ => hauthorized, fun _ _ => hintent, ht, hnothing, hproject, Option.some.inj hunsupported⟩
      · rename_i hsupported
        obtain rfl := Option.some.inj hedge
        rw [hintent] at hsupported
        exact ⟨hkept, fun _ => hauthorized, fun _ _ => hintent, ht, hnothing, hproject,
          fun hunsupported => hsupported (congrArg some hunsupported)⟩

theorem capability_leaves (h : Entered workflow inquiry steps (left + 1) .capability s t) :
    Leaves workflow inquiry steps left .capability (.ok (capabilityResponse s)) t := by
  have hsteps := h.steps
  obtain ⟨ht, hnothing, hproject, hunsupported⟩ := h.ready
  exact
    { same := h.same
      steps := by show s.stepsUsed + 1 ≤ steps; omega
      counted := h.counted
      budget := h.budget
      intent := h.intent nofun nofun
      answer := .inr ⟨ht, h.unanswered.1, rfl, hnothing, hproject, hunsupported⟩ }

theorem plan_sat (h : Entered workflow inquiry steps (left + 1) .planEvidence s t) :
    (workflow.planEvidence s).Sat (Proc.recorded (Allowed workflow inquiry)) t
      (Leaves workflow inquiry steps left .planEvidence) := by
  have hsteps := h.steps
  have hsame := h.same
  obtain ⟨rfl, hnothing, hambiguous, hproject⟩ := h.ready
  -- the plan is followed, wherever it came from
  have hleaves : ∀ t' proposed, (proposed = conservativeReadPlan ∨ ∃ question projectKey employeeId previous correlationId,
        ⟨.planEvidence question projectKey employeeId previous correlationId, .ok proposed⟩ ∈ t') →
      Asked.tools t' = 0 → (∀ x ∈ t', x.asked.isExplain = false) →
      Leaves workflow inquiry steps left .planEvidence ((withPlan s proposed).mapError .raised) t' := by
    intro t' proposed hproposed htools hlast
    unfold withPlan
    cases hfollowed : followed s.question s.previousAnswerContext proposed with
    | error error => trivial
    | ok plan =>
      exact
        { same := h.same
          short := h.short
          steps := by show s.stepsUsed + 1 + left = steps; omega
          counted := by rw [htools]; exact h.counted
          budget := by rw [htools]; exact Nat.zero_le _
          last := hlast
          sourced := by
            show Sourced inquiry t' s.toGathered
            rw [hnothing]
            exact sourced_nothing
          unanswered := h.unanswered
          authorized := fun _ => h.authorized nofun
          intent := fun _ _ => h.intent nofun nofun
          ready := by
            refine ⟨hnothing, hproject, plan.1, rfl, proposed, ?_, hproposed⟩
            show followed inquiry.question inquiry.previousAnswerContext proposed =
              .ok (plan.1, plan.2.or s.ambiguousReferences)
            rw [hambiguous, Option.or_none, ← hsame]
            exact hfollowed }
  unfold planEvidence
  apply Proc.sat_andThen
  by_cases hplanner : workflow.planner = true
  · rw [if_pos hplanner]
    refine sat_ask ?_ fun answer => ?_
    · exact
        { short := h.short
          authorized := h.authorized nofun
          about := by rw [← hsame]; exact ⟨rfl, rfl, rfl, rfl, rfl⟩
          budget := nofun
          last := h.last
          explained := fun _ he => by cases he
          tools := fun _ => iff_of_true hproject trivial
          chosen := fun hno => by
            rw [hproject] at hno
            cases hno }
    · cases answer with
      | error fault => trivial
      | ok proposed => exact hleaves _ proposed (.inr ⟨_, _, _, _, _, List.mem_singleton_self _⟩) rfl (last_concat h.last rfl)
  · rw [if_neg hplanner]
    exact hleaves [] conservativeReadPlan (.inl rfl) rfl h.last

/-! ## The collector -/

/-- A bundle that passes its checks has the snapshot it was assembled from. -/
theorem assemble_snapshot {plan : EvidencePlan} {projectKey correlationId question : String} {selected : Option String}
    {previous : Option GroundedAnswerContext} {snapshot : DashboardSnapshot} {loaded : Option (Except Fault (List Json))}
    {bundle : CollectedEvidence}
    (h : assemble plan projectKey correlationId selected question previous snapshot loaded = .ok bundle) :
    bundle.projectSnapshot = some snapshot := by
  obtain ⟨missing, -, h⟩ := except_bind_ok.mp h
  obtain ⟨ranking, -, h⟩ := except_bind_ok.mp h
  obtain ⟨answerEvidence, -, h⟩ := except_bind_ok.mp h
  unfold CollectedEvidence.validate at h
  split at h
  · cases h
  · split at h
    · cases h
    · split at h
      · cases h
      · rw [← Except.ok.inj h]
        rfl

theorem collect_reads (reader : Bool) (plan : EvidencePlan) (projectKey correlationId : String) (selected : Option String)
    (question : String) (previous : Option GroundedAnswerContext) :
    (collect reader plan projectKey correlationId selected question previous).Sat
      (Proc.recorded fun g e => match e with
        | .build project correlation => project = projectKey ∧ correlation = correlationId ∧ g = []
        | .load project correlation => project = projectKey ∧ correlation = correlationId) []
      fun r g => ∀ bundle, r = .ok bundle → ∃ snapshot loaded,
        g = ⟨.build projectKey correlationId, .ok snapshot⟩ ::
          (loaded.map fun answer => (⟨.load projectKey correlationId, answer⟩ : Exchange _ _)).toList ∧
        assemble plan projectKey correlationId selected question previous snapshot loaded = .ok bundle := by
  have hassembled : ∀ snapshot loaded bundle,
      (assemble plan projectKey correlationId selected question previous snapshot loaded).mapError Fault.raised = .ok bundle →
      assemble plan projectKey correlationId selected question previous snapshot loaded = .ok bundle := by
    intro snapshot loaded bundle h
    cases ha : assemble plan projectKey correlationId selected question previous snapshot loaded with
    | error error => rw [ha] at h; cases h
    | ok collected => rw [ha] at h; exact congrArg Except.ok (Except.ok.inj h)
  apply Proc.sat_andThen
  refine Proc.sat_perform ⟨rfl, rfl, rfl⟩ fun answer => ?_
  cases answer with
  | error fault =>
    intro bundle h
    cases h
  | ok snapshot =>
    dsimp only
    split
    · apply Proc.sat_bind
      exact Proc.sat_perform ⟨rfl, rfl⟩ fun loaded bundle h => ⟨snapshot, some loaded, rfl, hassembled _ _ _ h⟩
    · exact fun bundle h => ⟨snapshot, none, rfl, hassembled _ _ _ h⟩

/-- An exchange of the collector, as the workflow's. -/
def lift (x : Exchange ReadCall ReadCall.Answer) : Exchange Call Call.Answer := ⟨.read x.asked, x.answered⟩

omit [TextTables] [LowerCase] in
theorem last_lift (h : ∀ x ∈ t, x.asked.isExplain = false) (g : List (Exchange ReadCall ReadCall.Answer)) :
    ∀ x ∈ t ++ g.map lift, x.asked.isExplain = false := by
  intro x hx
  rcases List.mem_append.mp hx with hx | hx
  · exact h x hx
  · obtain ⟨y, -, rfl⟩ := List.mem_map.mp hx
    rfl

omit [TextTables] [LowerCase] in
/-- A collection counts as one call. -/
theorem tools_lift (t : Asked) (projectKey correlationId : String) (snapshot : DashboardSnapshot)
    (loaded : Option (Except Fault (List Json))) :
    Asked.tools (t ++ (⟨.build projectKey correlationId, .ok snapshot⟩ ::
      (loaded.map fun answer => (⟨.load projectKey correlationId, answer⟩ : Exchange _ _)).toList).map lift) = t.tools + 1 := by
  rw [Asked.tools, List.countP_append]
  cases loaded with
  | none => rfl
  | some answer => rfl

theorem collect_sat (h : Entered workflow inquiry steps (left + 1) .collectEvidence s t) :
    (workflow.collectEvidence s).Sat (Proc.recorded (Allowed workflow inquiry)) t
      (Leaves workflow inquiry steps left .collectEvidence) := by
  have hsteps := h.steps
  have hsame := h.same
  obtain ⟨hnothing, hproject, plan, hplan, hplanned⟩ := h.ready
  unfold collectEvidence
  rw [if_neg (by rw [hproject]; nofun)]
  by_cases hlimit : workflow.maxToolCalls ≤ s.toolCallsUsed
  · rw [if_pos hlimit]
    trivial
  rw [if_neg hlimit, hplan]
  rw [h.counted] at hlimit
  apply Proc.sat_andThen
  refine Proc.Sat.mono ?_ (Proc.sat_through (J := fun g t' => t' = t ++ g.map lift) ?_
    (collect_reads workflow.progressHistoryReader plan s.references.projectKey s.verifiedContext.correlationId
      s.references.employeeId s.question s.previousAnswerContext) (List.append_nil t).symm)
  · intro r t' hr
    obtain ⟨g, hg, rfl⟩ := hr
    cases r with
    | error fault => trivial
    | ok bundle =>
      obtain ⟨snapshot, loaded, rfl, hassembled⟩ := hg bundle rfl
      have hbuilt : (⟨.read (.build s.references.projectKey s.verifiedContext.correlationId), .ok snapshot⟩ :
          Exchange Call Call.Answer) ∈ t ++ (⟨.build s.references.projectKey s.verifiedContext.correlationId, .ok snapshot⟩ ::
            (loaded.map fun answer => (⟨.load s.references.projectKey s.verifiedContext.correlationId, answer⟩ :
              Exchange _ _)).toList).map lift :=
        List.mem_append_right _ List.mem_cons_self
      exact
        { same := h.same
          short := h.short
          steps := by show s.stepsUsed + 1 + left = steps; omega
          counted := by
            rw [tools_lift]
            exact congrArg (· + 1) h.counted
          budget := by rw [tools_lift]; omega
          last := last_lift h.last _
          sourced := by
            show Sourced inquiry _ { s.toGathered with
              projectSnapshot := bundle.projectSnapshot
              universalEvidence := some (withAmbiguous s.ambiguousReferences bundle) }
            rw [hnothing, assemble_snapshot hassembled]
            refine sourced_bundle ?_ (.inl ⟨plan, s.ambiguousReferences, _, _, snapshot, loaded, bundle,
              hplanned.mono fun x hx => List.mem_append_left _ hx, hbuilt, ?_, ?_, rfl⟩)
            · intro other hother
              obtain rfl := Option.some.inj hother
              exact ⟨_, _, hbuilt⟩
            · intro answer hanswer
              obtain rfl := Option.mem_def.mp hanswer
              exact List.mem_append_right _ (List.mem_cons_of_mem _ (List.mem_singleton_self _))
            · rw [← hsame]
              exact hassembled
          unanswered := h.unanswered
          authorized := fun _ => h.authorized nofun
          intent := fun _ _ => h.intent nofun nofun
          ready := ⟨.inl rfl, fun hno => by
            rw [hproject] at hno
            cases hno⟩ }
  · intro g t' e hg hallowed
    subst hg
    refine sat_ask ?_ fun answer => ?_
    · exact
        { short := h.short
          authorized := h.authorized nofun
          about := by
            rw [← hsame]
            cases e with
            | build projectKey correlationId => exact ⟨hallowed.1, hallowed.2.1⟩
            | load projectKey correlationId => exact hallowed
          budget := by
            intro htool
            cases e with
            | build projectKey correlationId =>
              rw [hallowed.2.2, List.map_nil, List.append_nil]
              omega
            | load projectKey correlationId => cases htool
          last := last_lift h.last g
          explained := fun _ he => by cases he
          tools := fun _ => iff_of_true hproject trivial
          chosen := fun hno => by
            rw [hproject] at hno
            cases hno }
    · rw [Proc.recorded_next, List.map_append, ← List.append_assoc]
      rfl

/-! ## One tool by the intent -/

omit [TextTables] [LowerCase] in
theorem missing_ok {category : EvidenceCategory} {reason : String} {attempted : Nat} {s' : GraphState}
    (h : missingOptionalEvidence s category reason attempted = .ok s') :
    s' = { s with
      universalEvidence := some (missingBundle s.verifiedContext.correlationId s.references.projectKey
        ⟨category, reason, s.references.projectKey, true⟩)
      stepsUsed := s.stepsUsed + 1
      toolCallsUsed := s.toolCallsUsed + attempted } := by
  unfold missingOptionalEvidence at h
  cases hmissing : validateMissing [⟨category, reason, s.references.projectKey, true⟩] with
  | error error => rw [hmissing] at h; cases h
  | ok _ =>
    rw [hmissing] at h
    simp only [Except.bind] at h
    unfold CollectedEvidence.validate at h
    split at h
    · cases h
    · split at h
      · cases h
      · split at h
        · cases h
        · exact (Except.ok.inj h).symm

/-- What a node after which something is explained leaves where it gathered something. -/
theorem gathered_leaves {t' : Asked} {s' : GraphState} (h : Entered workflow inquiry steps (left + 1) .gather s t)
    (hsame : s'.inquiry = s.inquiry) (hintent : s'.intent = s.intent) (hsteps : s'.stepsUsed = s.stepsUsed + 1)
    (hunanswered : s'.explanation = s.explanation ∧ s'.capabilityGuidance = s.capabilityGuidance)
    (hcounted : s'.toolCallsUsed = t'.tools) (hbudget : t'.tools ≤ workflow.maxToolCalls)
    (hlast : ∀ x ∈ t', x.asked.isExplain = false) (hsourced : Sourced inquiry t' s'.toGathered)
    (hpresent : s'.toGathered.Present) : Leaves workflow inquiry steps left .gather (.ok s') t' :=
  { same := hsame.trans h.same
    short := h.short
    steps := by
      have := h.steps
      omega
    counted := hcounted
    budget := hbudget
    last := hlast
    sourced := hsourced
    unanswered := ⟨hunanswered.1.trans h.unanswered.1, hunanswered.2.trans h.unanswered.2⟩
    authorized := fun _ => h.authorized nofun
    intent := fun _ _ => hintent.trans (h.intent nofun nofun)
    ready := ⟨hpresent, fun _ => h.ready.2.2.2⟩ }

theorem missing_leaves {t' : Asked} (h : Entered workflow inquiry steps (left + 1) .gather s t)
    (category : EvidenceCategory) (reason : String) {attempted : Nat} (ht : t'.tools = attempted)
    (hbudget : attempted ≤ workflow.maxToolCalls) (hlast : ∀ x ∈ t', x.asked.isExplain = false) :
    Leaves workflow inquiry steps left .gather (missingOptionalEvidence s category reason attempted) t' := by
  cases hmissing : missingOptionalEvidence s category reason attempted with
  | error fault => trivial
  | ok s' =>
    obtain ⟨rfl, hnothing, -, -⟩ := h.ready
    obtain rfl := missing_ok hmissing
    have hsame := h.same
    refine gathered_leaves h rfl rfl rfl ⟨rfl, rfl⟩ ?_ (ht ▸ hbudget) hlast ?_ (.inl rfl)
    · show s.toolCallsUsed + attempted = t'.tools
      rw [h.counted, ht]
      exact Nat.zero_add _
    · show Sourced inquiry t' { s.toGathered with
        universalEvidence := some (missingBundle s.verifiedContext.correlationId s.references.projectKey
          ⟨category, reason, s.references.projectKey, true⟩) }
      rw [hnothing]
      refine sourced_bundle (fun _ hr => by cases hr) (.inr ⟨category, reason, ?_⟩)
      rw [← hsame]
      rfl

/-- Any tool may be asked first, where there is no project tool. -/
theorem first_allowed {call : Call} (h : Entered workflow inquiry steps (left + 1) .gather s [])
    (hlimit : ¬ workflow.maxToolCalls ≤ s.toolCallsUsed) (habout : About inquiry call)
    (hcall : call.isExplain = false) (hchosen : Chosen workflow inquiry [] call) : Allowed workflow inquiry [] call where
  short := h.short
  authorized := h.authorized nofun
  about := habout
  budget _ := by
    rw [h.counted] at hlimit
    exact Nat.lt_of_not_le hlimit
  last := h.last
  explained request he := by
    rw [he] at hcall
    cases hcall
  tools _ := by
    have hproject : workflow.projectTool = false := h.ready.2.2.1
    rw [hproject]
    cases call with
    | planEvidence => cases hchosen
    | read => cases hchosen
    | _ => exact iff_of_false nofun id
  chosen _ := hchosen

section
variable (h : Entered workflow inquiry steps (left + 1) .gather s [])
  (hlimit : ¬ workflow.maxToolCalls ≤ s.toolCallsUsed)

include h hlimit

theorem one_call : 1 ≤ workflow.maxToolCalls := by
  have := h.counted
  have hzero : s.toolCallsUsed = 0 := this
  omega

theorem tasks_sat (hintent : inquiry.intent = .jiraTaskQuery) :
    (workflow.gatherTasks s).Sat (Proc.recorded (Allowed workflow inquiry)) []
      (Leaves workflow inquiry steps left .gather) := by
  have hsame := h.same
  obtain ⟨-, hnothing, hproject, -⟩ := h.ready
  have hone := one_call h hlimit
  unfold gatherTasks
  split
  · exact missing_leaves h _ _ rfl (Nat.zero_le _) h.last
  rename_i htool
  rw [Bool.not_eq_true, Bool.not_eq_false'] at htool
  apply Proc.sat_bind
  refine sat_ask (first_allowed h hlimit (by rw [← hsame]; exact ⟨rfl, rfl, rfl, rfl⟩) rfl ⟨hintent, htool⟩)
    fun answer => ?_
  cases answer with
  | ok result =>
    refine gathered_leaves h rfl rfl rfl ⟨rfl, rfl⟩ (congrArg (· + 1) h.counted) hone (last_concat h.last rfl) ?_
      (.inr (.inr rfl))
    show Sourced inquiry _ { s.toGathered with taskQueryResult := some result }
    rw [hnothing]
    exact
      { sourced_nothing with
        taskQueryResult := fun other hr => by
          obtain rfl := Option.some.inj hr
          exact ⟨_, _, _, _, List.mem_singleton_self _⟩ }
  | error fault =>
    dsimp only
    split
    · trivial
    rw [if_pos (by rw [hproject]; rfl)]
    exact missing_leaves h _ _ rfl hone (last_concat h.last rfl)

theorem history_sat (hintent : inquiry.intent = .explainHistory) :
    (workflow.gatherHistory s).Sat (Proc.recorded (Allowed workflow inquiry)) []
      (Leaves workflow inquiry steps left .gather) := by
  have hsame := h.same
  obtain ⟨-, hnothing, hproject, -⟩ := h.ready
  have hone := one_call h hlimit
  unfold gatherHistory
  split
  · rename_i employeeId htool hemployee
    apply Proc.sat_andThen
    refine sat_ask (first_allowed h hlimit (by rw [← hsame]; exact ⟨rfl, hemployee.symm, rfl, rfl⟩) rfl
      ⟨hintent, htool⟩) fun answer => ?_
    cases answer with
    | error fault => trivial
    | ok historical =>
      refine gathered_leaves h rfl rfl rfl ⟨rfl, rfl⟩ (congrArg (· + 1) h.counted) hone (last_concat h.last rfl) ?_
        (.inr (.inl rfl))
      show Sourced inquiry _ { s.toGathered with
        risk := some historical.risk.result
        evidenceDossier := some historical.dossier
        previousEvidenceDossier := historical.previousDossier.or s.previousEvidenceDossier }
      have hprevious : s.previousEvidenceDossier = none := by
        show s.toGathered.previousEvidenceDossier = none
        rw [hnothing]
      rw [hprevious, hnothing, Option.or_none]
      exact
        { sourced_nothing with
          risk := fun risk hr => by
            obtain rfl := Option.some.inj hr
            exact .inr ⟨_, _, _, _, historical, List.mem_singleton_self _, rfl⟩
          evidenceDossier := fun dossier hr => by
            obtain rfl := Option.some.inj hr
            exact .inr ⟨_, _, _, _, historical, List.mem_singleton_self _, rfl⟩
          previousEvidenceDossier := fun dossier hr => ⟨_, _, _, _, historical, List.mem_singleton_self _, hr⟩ }
  · exact missing_leaves h _ _ rfl (Nat.zero_le _) h.last

theorem risk_sat {intent : Intent} (hintent : s.intent = some intent)
    (hrest : intent ∉ [.explainProjectRisk, .jiraTaskQuery, .explainHistory, .unsupported]) : (workflow.gatherRisk intent s).Sat
    (Proc.recorded (Allowed workflow inquiry)) [] (Leaves workflow inquiry steps left .gather) := by
  have hsame := h.same
  obtain ⟨-, hnothing, hproject, -⟩ := h.ready
  have hone := one_call h hlimit
  have hsameIntent : intent = inquiry.intent := Option.some.inj (hintent.symm.trans (h.intent nofun nofun))
  have habout : About inquiry (.investigate ⟨intent, s.references, s.verifiedContext.correlationId⟩) := by
    rw [hsameIntent, ← hsame]
    rfl
  unfold gatherRisk
  apply Proc.sat_bind
  refine sat_ask (first_allowed h hlimit habout rfl (by rw [hsameIntent] at hrest; exact hrest)) fun answer => ?_
  cases answer with
  | error fault =>
    dsimp only
    split
    · trivial
    · exact missing_leaves h _ _ rfl hone (last_concat h.last rfl)
  | ok risk =>
    have hrisk : ∀ t, (∀ x ∈ [(⟨.investigate ⟨intent, s.references, s.verifiedContext.correlationId⟩, .ok risk⟩ :
        Exchange Call Call.Answer)], x ∈ t) → Sourced inquiry t { risk := some risk } := fun t ht =>
      { sourced_nothing with
        risk := fun other hr => by
          obtain rfl := Option.some.inj hr
          exact .inl ⟨_, ht _ (List.mem_singleton_self _)⟩ }
    dsimp only
    unfold gatherDossier
    split
    · rename_i employeeId hdossier hemployee
      by_cases hsecond : workflow.maxToolCalls ≤ s.toolCallsUsed + 1
      · rw [if_pos hsecond]
        trivial
      rw [if_neg hsecond]
      rw [h.counted] at hsecond
      have htwo : 2 ≤ workflow.maxToolCalls := by
        have hzero : Asked.tools [] = 0 := rfl
        omega
      apply Proc.sat_andThen
      refine sat_ask ?_ fun answer => ?_
      · exact
          { short := h.short
            authorized := h.authorized nofun
            about := by rw [← hsame]; exact ⟨hemployee.symm, rfl, rfl⟩
            budget := fun _ => htwo
            last := last_concat h.last rfl
            explained := fun _ he => by cases he
            tools := fun _ => iff_of_false (by rw [hproject]; nofun) id
            chosen := fun _ => ⟨hsameIntent.symm, hdossier, _, risk, rfl⟩ }
      · cases answer with
        | error fault => trivial
        | ok dossier =>
          refine gathered_leaves h rfl rfl rfl ⟨rfl, rfl⟩ (congrArg (· + 2) h.counted) htwo
            (last_concat (last_concat h.last rfl) rfl) ?_ (.inr (.inl rfl))
          show Sourced inquiry _ { s.toGathered with risk := some risk, evidenceDossier := some dossier }
          rw [hnothing]
          exact
            { hrisk _ fun x hx => List.mem_append_left _ hx with
              evidenceDossier := fun other hr => by
                obtain rfl := Option.some.inj hr
                exact .inl ⟨_, _, _, List.mem_append_right _ (List.mem_singleton_self _)⟩ }
    · refine gathered_leaves h rfl rfl rfl ⟨rfl, rfl⟩ (congrArg (· + 1) h.counted) hone (last_concat h.last rfl) ?_
        (.inr (.inl rfl))
      show Sourced inquiry _ { s.toGathered with risk := some risk }
      rw [hnothing]
      exact hrisk _ fun x hx => hx

end

theorem gather_sat (h : Entered workflow inquiry steps (left + 1) .gather s t) :
    (workflow.gather s).Sat (Proc.recorded (Allowed workflow inquiry)) t (Leaves workflow inquiry steps left .gather) := by
  obtain ⟨rfl, -, hproject, hsupported⟩ := h.ready
  have hintent := h.intent nofun nofun
  unfold gather
  by_cases hlimit : workflow.maxToolCalls ≤ s.toolCallsUsed
  · rw [if_pos hlimit]
    trivial
  rw [if_neg hlimit]
  split
  · trivial
  · unfold gatherProject
    rw [if_pos (by rw [hproject]; rfl)]
    exact missing_leaves h _ _ rfl (Nat.zero_le _) h.last
  · rename_i hrequired
    rw [hintent] at hrequired
    exact tasks_sat h hlimit (Except.ok.inj hrequired)
  · rename_i hrequired
    rw [hintent] at hrequired
    exact history_sat h hlimit (Except.ok.inj hrequired)
  · rename_i intent hproject' htasks hhistory hrequired
    rw [hintent] at hrequired
    obtain rfl := Except.ok.inj hrequired
    refine risk_sat h hlimit hintent ?_
    simp only [List.mem_cons, List.not_mem_nil, or_false, not_or]
    exact ⟨hproject', htasks, hhistory, hsupported⟩

theorem explain_sat (h : Entered workflow inquiry steps (left + 1) .explain s t) :
    (explain s).Sat (Proc.recorded (Allowed workflow inquiry)) t (Leaves workflow inquiry steps left .explain) := by
  have hsteps := h.steps
  have hsame := h.same
  have hintent := h.intent nofun nofun
  unfold explain
  rw [hintent]
  apply Proc.sat_andThen
  refine sat_ask ?_ fun answer => ?_
  · exact
      { short := h.short
        authorized := h.authorized nofun
        about := by
          refine ⟨rfl, ?_⟩
          rw [← hsame]
          exact ⟨rfl, rfl, rfl⟩
        budget := nofun
        last := h.last
        explained := fun request he => by
          obtain rfl := Call.explain.inj he
          exact ⟨h.sourced, payload_of_present h.ready.1⟩
        tools := nofun
        chosen := h.ready.2 }
  · cases answer with
    | error fault => trivial
    | ok explanation =>
      exact
        { same := h.same
          steps := by show s.stepsUsed + 1 ≤ steps; omega
          counted := by
            rw [tools_concat]
            exact h.counted
          budget := by
            rw [tools_concat]
            exact h.budget
          intent := rfl
          answer := .inl ⟨t, _, explanation, rfl, rfl, h.unanswered.2, rfl⟩ }

/-! ## Runs -/

/-- A response: it counts the calls that were made, and says what the explainer said last, or what can be asked. -/
structure Reported (workflow : InvestigationWorkflow) (inquiry : Inquiry) (t : Asked) (response : InvestigationResponse) :
    Prop where
  correlationId : response.correlationId = inquiry.verifiedContext.correlationId
  intent : response.intent = inquiry.intent
  stepsUsed : response.stepsUsed ≤ workflow.maxSteps
  toolCallsUsed : response.toolCallsUsed = t.tools ∧ response.toolCallsUsed ≤ workflow.maxToolCalls
  answer : (∃ before request explanation, t = before ++ [⟨.explain request, .ok explanation⟩] ∧
      response.explanation = some explanation ∧ response.capabilityGuidance = none ∧ response.risk = request.risk ∧
      response.answerContext = answerContext request.toGathered) ∨
    t = [] ∧ response.explanation = none ∧ response.capabilityGuidance = some capabilityGuidance ∧ response.risk = none ∧
      response.answerContext = none ∧ workflow.projectTool = false ∧ inquiry.intent = .unsupported

/-- The graph alone. -/
theorem graph_sat (runtime : StepLimit) (hshort : inquiry.question.length ≤ 1000) :
    (workflow.graph.invoke runtime workflow.maxSteps inquiry.initial).Sat (Proc.recorded (Allowed workflow inquiry)) []
      fun r t => ∀ s, r = .ok s → Ended workflow inquiry (runtime.superSteps workflow.maxSteps) s t := by
  refine StateGraph.sat_invoke
    (I := Entered workflow inquiry (runtime.superSteps workflow.maxSteps)) ?_ (fun v s t _ s' he => by cases he) ?_
  · intro left v s t h
    have hleaves : (workflow.node v s).Sat (Proc.recorded (Allowed workflow inquiry)) t
        (Leaves workflow inquiry (runtime.superSteps workflow.maxSteps) left v) := by
      cases v with
      | receiveVerifiedContext => exact receive_leaves h
      | classify => exact classify_leaves h
      | planEvidence => exact plan_sat h
      | collectEvidence => exact collect_sat h
      | gather => exact gather_sat h
      | explain => exact explain_sat h
      | capability => exact capability_leaves h
    refine Proc.Sat.mono (fun r t' hr => ?_) hleaves
    cases r with
    | error fault => exact fun s' he => by cases he
    | ok s' =>
      unfold Leaves at hr
      have hgraph : workflow.graph.edge v s' = workflow.edge v s' := rfl
      simp only [hgraph]
      cases hedge : workflow.edge v s' with
      | none =>
        simp only [hedge] at hr
        exact fun s'' he => Except.ok.inj he ▸ hr
      | some w =>
        simp only [hedge] at hr
        exact hr
  · exact
      { same := rfl
        short := hshort
        steps := Nat.zero_add _
        counted := rfl
        budget := Nat.zero_le _
        last := fun x hx => by cases hx
        sourced := sourced_nothing
        unanswered := ⟨rfl, rfl⟩
        authorized := fun hv => absurd rfl hv
        intent := fun hv => absurd rfl hv
        ready := ⟨rfl, rfl, rfl⟩ }

theorem reported_of_ended {response : InvestigationResponse} (h : Ended workflow inquiry steps s t)
    (hsteps : steps ≤ workflow.maxSteps)
    (hresponse : respond inquiry.verifiedContext.correlationId s = .ok response) :
    Reported workflow inquiry t response := by
  unfold respond at hresponse
  rw [h.intent] at hresponse
  simp only [required, Except.map, Except.ok.injEq] at hresponse
  subst hresponse
  exact
    { correlationId := rfl
      intent := by dsimp only
      stepsUsed := h.steps.trans hsteps
      toolCallsUsed := ⟨h.counted, h.counted.trans_le h.budget⟩
      answer := by
        obtain ⟨before, request, explanation, ht, hexplanation, hguidance, hgathered⟩ |
          ⟨ht, hexplanation, hguidance, hnothing, hproject, hintent⟩ := h.answer
        · refine .inl ⟨before, request, explanation, ht, hexplanation, hguidance, ?_, ?_⟩
          · show s.toGathered.risk = request.risk
            rw [hgathered]
          · rw [hgathered]
        · refine .inr ⟨ht, hexplanation, hguidance, ?_, ?_, hproject, hintent⟩
          · show s.toGathered.risk = none
            rw [hnothing]
          · show answerContext s.toGathered = none
            rw [hnothing]
            rfl }

theorem run_sat (workflow : InvestigationWorkflow) (runtime : StepLimit) (inquiry : Inquiry) :
    (workflow.run runtime inquiry).Sat (Proc.recorded (Allowed workflow inquiry)) []
      fun r t => ∀ response, r = .ok response → Reported workflow inquiry t response := by
  unfold run
  split
  · intro response hresponse
    cases hresponse
  · rename_i hshort
    apply Proc.sat_andThen
    refine Proc.Sat.mono (fun r t hr => ?_) (graph_sat runtime (Nat.le_of_not_lt hshort))
    cases r with
    | error fault =>
      intro response hresponse
      cases hresponse
    | ok s =>
      exact fun response hresponse => reported_of_ended (hr s rfl) (runtime.superSteps_le workflow.maxSteps) hresponse

/-- Whatever has been answered, what is asked next is about the inquiry, in its project, within the limit of the calls,
    and of the explainer only what was answered. -/
theorem asked_of_inquiry {runtime : StepLimit} {p : CallProc (Except Fault InvestigationResponse)}
    (h : (workflow.run runtime inquiry).Runs t p) {before after : Asked} {x : Exchange Call Call.Answer}
    (ht : t = before ++ x :: after) : Allowed workflow inquiry before x.asked :=
  (run_sat workflow runtime inquiry).asked h before x after ht

/-- What a run returns says what it did: its calls are counted as they were made, and its answer is what the explainer
    said of the evidence it was shown, or what can be asked where nothing was. -/
theorem answered_by_explainer {runtime : StepLimit} {response : InvestigationResponse}
    (h : (workflow.run runtime inquiry).Runs t (.ret (.ok response))) : Reported workflow inquiry t response :=
  (run_sat workflow runtime inquiry).returned h response rfl

end InvestigationWorkflow

end

/-! ## Questions without a project tool -/

section

attribute [local instance] TextTables.ascii LowerCase.ascii

open InvestigationWorkflow

/-- Nobody to ask but the explainer. -/
def explainerOnly : InvestigationWorkflow := ⟨false, false, false, false, false, false, 6, 2⟩

def riskInquiry : Inquiry := ⟨sampleContext, "Project risk?", sampleReferences, none⟩

def riskMissing : ExplanationRequest where
  universalEvidence := some (missingBundle "corr-1" "WFD"
    ⟨.jiraIssues, "Current project evidence is unavailable.", "WFD", true⟩)
  workflow := "explain_project_risk"
  question := "Project risk?"
  previousAnswerContext := none
  correlationId := "corr-1"

def noEvidence : Llm.ExplanationResponse where
  answer := none
  summary := "There is no evidence of the project."
  rootCauses := []
  recommendations := []
  citations := []
  score := none
  riskLevel := none
  uncertainties := []
  source := .bedrock
  correlationId := "corr-1"

theorem riskInquiry_runs : (explainerOnly.run everyStep riskInquiry).Runs [⟨.explain riskMissing, .ok noEvidence⟩]
    (.ret (.ok ⟨"corr-1", .explainProjectRisk, none, some noEvidence, none, 4, 0, none⟩)) := .next _ (.done _)

theorem missing_is_explained : Reported explainerOnly riskInquiry [⟨.explain riskMissing, .ok noEvidence⟩]
    ⟨"corr-1", .explainProjectRisk, none, some noEvidence, none, 4, 0, none⟩ :=
  answered_by_explainer riskInquiry_runs

/-- The tool of a domain and the dossiers, and two calls. -/
def withDossiers : InvestigationWorkflow := ⟨false, false, true, false, false, false, 6, 2⟩

theorem employee_ok : ∀ id ∈ some "EMP-1", id.length ≤ 128 := by decide

def overloadInquiry : Inquiry :=
  ⟨sampleContext, "Is the employee overloaded?", { sampleReferences with employeeId := some "EMP-1", employeeId_ok := employee_ok },
    none⟩

def overloadCall : DomainCall := ⟨.explainEmployeeOverload, overloadInquiry.references, "corr-1"⟩

def highRisk : RiskResult where
  subjectId := "EMP-1"
  environment := .dev
  score := some ⟨65, by decide⟩
  level := some .high
  confidence := .high
  scoringModelVersion := "risk-v1"
  factors := []
  thresholds := []
  evidenceReferences := ["jira:WFD-1"]
  missingEvidence := []
  excludedEvidence := []

theorem overloadInquiry_runs : (withDossiers.run everyStep overloadInquiry).Runs
    [⟨.investigate overloadCall, .ok highRisk⟩, ⟨.getCurrentDossier "EMP-1" "WFD" "corr-1", .error .recursionError⟩]
    (.ret (.error .recursionError)) := .next _ (.next _ (.done _))

/-- The dossier of the employee is asked for once the risk is known, as the second call of two. -/
theorem dossier_is_asked : Allowed withDossiers overloadInquiry [⟨.investigate overloadCall, .ok highRisk⟩]
    (.getCurrentDossier "EMP-1" "WFD" "corr-1") :=
  asked_of_inquiry overloadInquiry_runs (List.singleton_append).symm

end

end WorkforceRisk.Graph
