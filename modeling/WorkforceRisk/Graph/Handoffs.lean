/-
  WorkforceRisk.Graph.Handoffs — specialists a question is handed to
  (services/agent-api/src/agent_api/graph: handoffs.py, agents/, and of state.py what is
  handed on).

  A specialist is a graph of two nodes: the handoff is checked, then the domain tool is
  called. `SpecialistRouter.investigate` hands the question to the first specialist for its
  intent, and calls the tool itself where there is none, or where that one is unavailable
  and the intent prepares no write. What the tool answers is any result or any exception.

  Proved (`investigate_hands_on`): the tool is asked for what the router was asked for and
  nothing else, a second time only where it answered that a specialist is unavailable, and
  never outside the projects of the context by a specialist; what is returned is what it
  answered last; the trace has one entry for each handoff that came to an end.
-/

import WorkforceRisk.Evidence.Collector
import WorkforceRisk.Graph.Intents
import WorkforceRisk.Tasks.Query

namespace WorkforceRisk.Graph

open Lib Persistence Risk Evidence

structure VerifiedAgentContext where
  authorizedProjectKeys : List String
  correlationId : String
  projects_ok : 1 ≤ authorizedProjectKeys.length ∧ authorizedProjectKeys.length ≤ 20
  correlationId_ok : 1 ≤ correlationId.length ∧ correlationId.length ≤ 128

/-- Of the references, what routing and the tools read. -/
structure EntityReferences extends Tasks.EntityReferences where
  taskId : Option String
  taskId_ok : ∀ id ∈ taskId, id.length ≤ 128

/-! ## The domain tool -/

/-- `DomainTool.investigate`. -/
structure DomainCall where
  intent : Intent
  references : EntityReferences
  correlationId : String

def DomainCall.Answer (_ : DomainCall) : Type := Except Fault RiskResult

abbrev DomainProc (α : Type) := Proc DomainCall DomainCall.Answer α

def DomainCall.ask (call : DomainCall) : DomainProc (Except Fault RiskResult) := Proc.perform call

/-! ## Specialists -/

structure AgentHandoff where
  specialist : String
  intent : Intent
  context : VerifiedAgentContext
  references : EntityReferences
  correlationId : String

structure BoundedSpecialistAgent where
  name : String
  intents : List Intent
  available : Bool

inductive SpecialistNode where
  | validateHandoff
  | callDomainTool

structure SpecialistState where
  handoff : AgentHandoff
  result : Option RiskResult

namespace BoundedSpecialistAgent

variable (agent : BoundedSpecialistAgent)

def supports (intent : Intent) : Bool := intent ∈ agent.intents

/-- `_validate_handoff`. -/
def validateHandoff (handoff : AgentHandoff) : Except Fault Unit :=
  if !agent.available then .error (.specialistUnavailable (agent.name ++ " is unavailable"))
  else if handoff.specialist ≠ agent.name ∨ handoff.intent ∉ agent.intents then
    .error (.raised (.valueError "specialist handoff mismatch"))
  else if handoff.references.projectKey ∉ handoff.context.authorizedProjectKeys then
    .error (.raised (.permissionError "specialist project scope mismatch"))
  else .ok ()

def node : SpecialistNode → SpecialistState → DomainProc (Except Fault SpecialistState)
  | .validateHandoff, s => .ret ((agent.validateHandoff s.handoff).map fun _ => s)
  | .callDomainTool, s =>
    (DomainCall.ask ⟨s.handoff.intent, s.handoff.references, s.handoff.correlationId⟩).andThen fun result =>
      .ret (.ok { s with result := some result })

def graph : StateGraph SpecialistNode SpecialistState Fault DomainCall DomainCall.Answer where
  entry := .validateHandoff
  node := agent.node
  edge
    | .validateHandoff, _ => some .callDomainTool
    | .callDomainTool, _ => none
  outOfSteps := .recursionError

def run (runtime : StepLimit) (handoff : AgentHandoff) : DomainProc (Except Fault RiskResult) :=
  (agent.graph.invoke runtime 4 ⟨handoff, none⟩).andThen fun s => match s.result with
    | some result => .ret (.ok result)
    | none => .ret (.error (.other "KeyError" "'result'"))

end BoundedSpecialistAgent

def workforceAnalysisAgent : BoundedSpecialistAgent :=
  ⟨"workforce_analysis", [.explainEmployeeOverload, .evaluateTaskFit], true⟩

def projectDeliveryAgent : BoundedSpecialistAgent := ⟨"project_delivery", [.explainProjectRisk, .explainHistory], true⟩

def reassignmentPlanningAgent : BoundedSpecialistAgent :=
  ⟨"reassignment_planning", [.reassignmentCandidates, .whatIfSimulation], true⟩

def operationsDiagnosticAgent : BoundedSpecialistAgent := ⟨"operations_diagnostic", [.operationsDiagnosis], true⟩

/-! ## The router -/

inductive HandoffStatus where
  | completed
  | fallback
  | unavailable
  deriving DecidableEq, Repr

structure HandoffTrace where
  specialist : String
  intent : Intent
  correlationId : String
  status : HandoffStatus
  deriving DecidableEq

/-- `WRITE_ORIENTED_PREPARATION`. -/
def writeOriented (intent : Intent) : Bool := intent ∈ [Intent.reassignmentCandidates, Intent.whatIfSimulation]

structure SpecialistRouter where
  specialists : List BoundedSpecialistAgent
  context : VerifiedAgentContext

namespace SpecialistRouter

variable (router : SpecialistRouter)

def specialist (intent : Intent) : Option BoundedSpecialistAgent := router.specialists.find? (·.supports intent)

/-- `except SpecialistUnavailable`: the tool itself is asked, unless the intent prepares a write. -/
def withoutSpecialist (name : String) (call : DomainCall) (message : String) :
    DomainProc (Except Fault RiskResult × List HandoffTrace) :=
  if writeOriented call.intent then
    .ret (.error (.specialistUnavailable message), [⟨name, call.intent, call.correlationId, .unavailable⟩])
  else call.ask.bind fun
    | .ok result => .ret (.ok result, [⟨name, call.intent, call.correlationId, .fallback⟩])
    | .error fault => .ret (.error fault, [])

/-- The result, and what the call appends to the trace. -/
def investigate (runtime : StepLimit) (call : DomainCall) : DomainProc (Except Fault RiskResult × List HandoffTrace) :=
  match router.specialist call.intent with
  | none => call.ask.bind fun result => .ret (result, [])
  | some specialist =>
    (specialist.run runtime
      ⟨specialist.name, call.intent, router.context, call.references, call.correlationId⟩).bind fun
      | .ok result => .ret (.ok result, [⟨specialist.name, call.intent, call.correlationId, .completed⟩])
      | .error (.specialistUnavailable message) => withoutSpecialist specialist.name call message
      | .error fault => .ret (.error fault, [])

end SpecialistRouter

/-! ## A handoff -/

/-- What the specialist makes of a handoff: it is refused, or the tool is called once and its answer returned. -/
inductive Handled (agent : BoundedSpecialistAgent) (handoff : AgentHandoff)
    (t₀ : List (Exchange DomainCall DomainCall.Answer)) :
    Except Fault RiskResult → List (Exchange DomainCall DomainCall.Answer) → Prop
  | refused {fault : Fault} (h : agent.validateHandoff handoff = .error fault) : Handled agent handoff t₀ (.error fault) t₀
  | stopped : Handled agent handoff t₀ (.error .recursionError) t₀
  | answered (h : agent.validateHandoff handoff = .ok ()) (answer : Except Fault RiskResult) :
      Handled agent handoff t₀ answer (t₀ ++ [⟨⟨handoff.intent, handoff.references, handoff.correlationId⟩, answer⟩])

theorem run_sat (agent : BoundedSpecialistAgent) (runtime : StepLimit) (handoff : AgentHandoff)
    (t₀ : List (Exchange DomainCall DomainCall.Answer)) :
    (agent.run runtime handoff).Sat (Proc.recorded fun _ _ => True) t₀ (Handled agent handoff t₀) := by
  apply Proc.sat_andThen
  refine StateGraph.sat_invoke (I := fun _ v s t => s.handoff = handoff ∧ t = t₀ ∧
    (v = .callDomainTool → agent.validateHandoff handoff = .ok ())) ?_ ?_ ⟨rfl, rfl, nofun⟩
  · intro left v s t hI
    obtain ⟨hs, rfl, hv⟩ := hI
    cases v with
    | validateHandoff =>
      have hnode : agent.graph.node .validateHandoff s = .ret ((agent.validateHandoff handoff).map fun _ => s) := by
        rw [← hs]
        rfl
      rw [hnode]
      cases hc : agent.validateHandoff handoff with
      | error fault => exact .refused hc
      | ok _ => exact ⟨hs, rfl, fun _ => rfl⟩
    | callDomainTool =>
      apply Proc.sat_andThen
      refine Proc.sat_perform trivial fun answer => ?_
      rw [hs]
      cases answer with
      | error fault => exact .answered (hv rfl) (.error fault)
      | ok result => exact .answered (hv rfl) (.ok result)
  · intro v s t hI
    rw [hI.2.1]
    exact .stopped

theorem available_of_ok {agent : BoundedSpecialistAgent} {handoff : AgentHandoff}
    (h : agent.validateHandoff handoff = .ok ()) :
    agent.available = true ∧ handoff.references.projectKey ∈ handoff.context.authorizedProjectKeys := by
  unfold BoundedSpecialistAgent.validateHandoff at h
  split at h
  · cases h
  · rename_i ha
    split at h
    · cases h
    · split at h
      · cases h
      · rename_i hp
        exact ⟨by simpa using ha, by simpa using hp⟩

/-- A handoff is refused as unavailable by the specialists that are, and by no others. -/
theorem refused_cases {agent : BoundedSpecialistAgent} {handoff : AgentHandoff} {fault : Fault}
    (h : agent.validateHandoff handoff = .error fault) :
    (agent.available = false ∧ ∃ message, fault = .specialistUnavailable message) ∨
      (agent.available = true ∧ ∃ error, fault = .raised error) := by
  unfold BoundedSpecialistAgent.validateHandoff at h
  split at h
  · rename_i ha
    exact .inl ⟨by simpa using ha, _, (Except.error.inj h).symm⟩
  · rename_i ha
    refine .inr ⟨by simpa using ha, ?_⟩
    split at h
    · exact ⟨_, (Except.error.inj h).symm⟩
    · split at h
      · exact ⟨_, (Except.error.inj h).symm⟩
      · cases h

/-! ## Every call of the router -/

section
variable {router : SpecialistRouter} {call : DomainCall} {specialist : BoundedSpecialistAgent}
  {t : List (Exchange DomainCall DomainCall.Answer)} {result : Except Fault RiskResult}

/-- The tool said, when first asked, that a specialist is unavailable. -/
def AnsweredUnavailable (t : List (Exchange DomainCall DomainCall.Answer)) : Prop :=
  ∃ x message, t.head? = some x ∧ x.answered = .error (.specialistUnavailable message)

structure HandedOn (router : SpecialistRouter) (call : DomainCall) (t : List (Exchange DomainCall DomainCall.Answer))
    (result : Except Fault RiskResult) (trace : List HandoffTrace) : Prop where
  /-- Nothing else is asked for. -/
  same : ∀ x ∈ t, x.asked = call
  once : t.length ≤ 1 ∨ t.length = 2 ∧ AnsweredUnavailable t ∧ writeOriented call.intent = false
  /-- A specialist that is available asks inside the context's projects only. -/
  inScope : ∀ specialist, router.specialist call.intent = some specialist → specialist.available = true → t ≠ [] →
    call.references.projectKey ∈ router.context.authorizedProjectKeys
  /-- No write is prepared past the specialist for it. -/
  noDetour : ∀ specialist, router.specialist call.intent = some specialist → specialist.available = false →
    writeOriented call.intent = true → t = [] ∧ result.isOk = false ∧ ∀ entry ∈ trace, entry.status = .unavailable
  /-- What is returned is what the tool answered last. -/
  answered : ∀ risk, result = .ok risk → ∃ x, t.getLast? = some x ∧ x.answered = .ok risk
  traced : ∀ entry ∈ trace, (router.specialist call.intent).map (·.name) = some entry.specialist ∧
    entry.intent = call.intent ∧ entry.correlationId = call.correlationId
  /-- An entry is written when a specialist's handoff came to an end, and when it found nobody to prepare a write. -/
  ended : trace.length ≤ 1 ∧ (trace ≠ [] ↔ (router.specialist call.intent).isSome = true ∧ (result.isOk = true ∨
    (∃ message, result = .error (.specialistUnavailable message)) ∧ writeOriented call.intent = true))

/-- A handoff that has come to an end, with the status it is traced by, if it is. -/
theorem handedOn_of (status : Option HandoffStatus) (hs : router.specialist call.intent = some specialist)
    (hsame : ∀ x ∈ t, x.asked = call)
    (honce : t.length ≤ 1 ∨ t.length = 2 ∧ AnsweredUnavailable t ∧ writeOriented call.intent = false)
    (hscope : specialist.available = true → t ≠ [] → call.references.projectKey ∈ router.context.authorizedProjectKeys)
    (hdetour : specialist.available = false → writeOriented call.intent = true →
      t = [] ∧ result.isOk = false ∧ ∀ s ∈ status, s = .unavailable)
    (hanswered : ∀ risk, result = .ok risk → ∃ x, t.getLast? = some x ∧ x.answered = .ok risk)
    (hended : status.isSome = true ↔ result.isOk = true ∨
      (∃ message, result = .error (.specialistUnavailable message)) ∧ writeOriented call.intent = true) :
    HandedOn router call t result
      (status.map fun status => (⟨specialist.name, call.intent, call.correlationId, status⟩ : HandoffTrace)).toList := by
  have hone : ∀ other, router.specialist call.intent = some other → other = specialist := by
    intro other h
    rw [hs] at h
    exact (Option.some.inj h).symm
  constructor
  · exact hsame
  · exact honce
  · intro other h
    rw [hone other h]
    exact hscope
  · intro other h ha hw
    rw [hone other h] at ha
    obtain ⟨ht, hr, hstatus⟩ := hdetour ha hw
    refine ⟨ht, hr, fun entry hentry => ?_⟩
    cases status with
    | none => cases hentry
    | some status =>
      rw [List.mem_singleton.mp hentry]
      exact hstatus status rfl
  · exact hanswered
  · intro entry h
    cases status with
    | none => cases h
    | some status =>
      rw [List.mem_singleton.mp h, hs]
      exact ⟨rfl, rfl, rfl⟩
  · cases status with
    | none => exact ⟨Nat.zero_le 1, by simpa [hs] using hended⟩
    | some status => exact ⟨Nat.le_refl 1, by simpa [hs] using hended⟩

/-- Without its specialist the call ends at once, or the tool is asked once more. -/
theorem withoutSpecialist_sat {message : String} (hs : router.specialist call.intent = some specialist)
    (hsame : ∀ x ∈ t, x.asked = call) (honce : t = [] ∨ t.length = 1 ∧ AnsweredUnavailable t)
    (hscope : specialist.available = true → call.references.projectKey ∈ router.context.authorizedProjectKeys)
    (hdetour : specialist.available = false → t = []) :
    (SpecialistRouter.withoutSpecialist specialist.name call message).Sat (Proc.recorded fun _ _ => True) t fun a t' =>
      HandedOn router call t' a.1 a.2 := by
  have hlength : t.length ≤ 1 := by
    rcases honce with rfl | h
    · exact Nat.zero_le 1
    · exact Nat.le_of_eq h.1
  unfold SpecialistRouter.withoutSpecialist
  by_cases hw : writeOriented call.intent = true
  · rw [if_pos hw]
    exact handedOn_of (some .unavailable) hs hsame (.inl hlength) (fun ha _ => hscope ha)
      (fun ha _ => ⟨hdetour ha, rfl, fun s h => (Option.some.inj h).symm⟩) (fun risk h => by cases h)
      (iff_of_true rfl (.inr ⟨⟨message, rfl⟩, hw⟩))
  · rw [if_neg hw]
    apply Proc.sat_bind
    refine Proc.sat_perform trivial fun answer => ?_
    have hsame' : ∀ x ∈ t ++ [(⟨call, answer⟩ : Exchange DomainCall DomainCall.Answer)], x.asked = call := by
      intro x hx
      rcases List.mem_append.mp hx with hx | hx
      · exact hsame x hx
      · rw [List.mem_singleton.mp hx]
    have honce' : (t ++ [(⟨call, answer⟩ : Exchange DomainCall DomainCall.Answer)]).length ≤ 1 ∨
        (t ++ [(⟨call, answer⟩ : Exchange DomainCall DomainCall.Answer)]).length = 2 ∧
          AnsweredUnavailable (t ++ [⟨call, answer⟩]) ∧ writeOriented call.intent = false := by
      rcases honce with rfl | h
      · exact .inl (Nat.le_refl 1)
      · obtain ⟨hl, x, m, hx, hm⟩ := h
        refine .inr ⟨by simp [hl], ⟨x, m, ?_, hm⟩, by simpa using hw⟩
        rw [List.head?_append, hx]
        rfl
    cases answer with
    | ok risk =>
      refine handedOn_of (some .fallback) hs hsame' honce' (fun ha _ => hscope ha)
        (fun _ h => absurd h hw) (fun risk' h => ⟨_, List.getLast?_concat, h⟩) (iff_of_true rfl (.inl rfl))
    | error fault =>
      refine handedOn_of none hs hsame' honce' (fun ha _ => hscope ha)
        (fun _ h => absurd h hw) (fun risk' h => by cases h) (iff_of_false nofun fun h => ?_)
      rcases h with h | h
      · cases h
      · exact hw h.2

theorem investigate_sat (router : SpecialistRouter) (runtime : StepLimit) (call : DomainCall) :
    (router.investigate runtime call).Sat (Proc.recorded fun _ _ => True) [] fun a t => HandedOn router call t a.1 a.2 := by
  have hcalled : ∀ answer, ∀ x ∈ [(⟨call, answer⟩ : Exchange DomainCall DomainCall.Answer)], x.asked = call := by
    intro answer x hx
    rw [List.mem_singleton.mp hx]
  unfold SpecialistRouter.investigate
  cases hs : router.specialist call.intent with
  | none =>
    apply Proc.sat_bind
    refine Proc.sat_perform trivial fun answer => ?_
    refine ⟨hcalled answer, .inl (Nat.le_refl 1), ?_, ?_, fun risk h => ⟨_, rfl, h⟩, fun entry h => (by cases h),
      Nat.zero_le 1, by simp [hs]⟩
    · intro specialist h
      rw [hs] at h
      cases h
    · intro specialist h
      rw [hs] at h
      cases h
  | some specialist =>
    apply Proc.sat_bind
    refine (run_sat specialist runtime _ []).mono fun r t hr => ?_
    have hnone : ∀ fault : Fault, (∀ message, fault ≠ .specialistUnavailable message) →
        ¬ ((Except.error fault : Except Fault RiskResult).isOk = true ∨
          (∃ message, (Except.error fault : Except Fault RiskResult) = .error (.specialistUnavailable message)) ∧
            writeOriented call.intent = true) := by
      intro fault hne h
      rcases h with h | h
      · cases h
      · obtain ⟨⟨message, h⟩, _⟩ := h
        exact hne message (Except.error.inj h)
    cases hr with
    | @refused fault hv =>
      rcases refused_cases hv with hun | hother
      · obtain ⟨ha, message, rfl⟩ := hun
        exact withoutSpecialist_sat hs (fun x hx => by cases hx) (.inl rfl) (fun h => by rw [ha] at h; cases h)
          fun _ => rfl
      · obtain ⟨ha, error, rfl⟩ := hother
        exact handedOn_of none hs (fun x hx => by cases hx) (.inl (Nat.zero_le 1))
          (fun _ h => absurd rfl h) (fun h => by rw [ha] at h; cases h) (fun risk h => by cases h)
          (iff_of_false nofun (hnone _ fun message h => by cases h))
    | stopped =>
      exact handedOn_of none hs (fun x hx => by cases hx) (.inl (Nat.zero_le 1)) (fun _ h => absurd rfl h)
        (fun _ _ => ⟨rfl, rfl, fun s h => by cases h⟩) (fun risk h => by cases h)
        (iff_of_false nofun (hnone _ fun message h => by cases h))
    | answered hv answer =>
      obtain ⟨ha, hproject⟩ := available_of_ok hv
      have hnot : specialist.available = false → False := by
        intro h
        rw [ha] at h
        cases h
      cases r with
      | ok risk =>
        exact handedOn_of (some .completed) hs (hcalled _) (.inl (Nat.le_refl 1)) (fun _ _ => hproject)
          (fun h => (hnot h).elim) (fun risk' h => ⟨_, rfl, h⟩) (iff_of_true rfl (.inl rfl))
      | error fault =>
        by_cases hf : ∃ message, fault = .specialistUnavailable message
        · obtain ⟨message, rfl⟩ := hf
          exact withoutSpecialist_sat hs (hcalled _) (.inr ⟨rfl, _, message, rfl, rfl⟩) (fun _ => hproject)
            fun h => (hnot h).elim
        · have hne : ∀ message, fault ≠ .specialistUnavailable message := fun message h => hf ⟨message, h⟩
          have hdone : HandedOn router call [⟨call, .error fault⟩] (.error fault) [] :=
            handedOn_of none hs (hcalled _) (.inl (Nat.le_refl 1)) (fun _ _ => hproject)
              (fun h => (hnot h).elim) (fun risk h => by cases h) (iff_of_false nofun (hnone _ hne))
          cases fault with
          | specialistUnavailable message => exact absurd rfl (hne message)
          | raised error => exact hdone
          | timeoutError message => exact hdone
          | osError message => exact hdone
          | recursionError => exact hdone
          | other type message => exact hdone

/-- Whatever the tool answers and whoever is available, a call of the router that has
    returned was handed on as it should. -/
theorem investigate_hands_on {runtime : StepLimit} {trace : List HandoffTrace}
    (h : (router.investigate runtime call).Runs t (.ret (result, trace))) : HandedOn router call t result trace :=
  (investigate_sat router runtime call).returned h

end

/-! ## A planner that is away -/

theorem sampleProjects_ok : 1 ≤ ["WFD"].length ∧ ["WFD"].length ≤ 20 := by decide

theorem sampleCorrelation_ok : 1 ≤ "corr-1".length ∧ "corr-1".length ≤ 128 := by decide

theorem sampleKey_ok : isProjectKey "WFD" = true := by decide

theorem noId_ok : ∀ id ∈ (none : Option String), id.length ≤ 128 := nofun

def sampleContext : VerifiedAgentContext where
  authorizedProjectKeys := ["WFD"]
  correlationId := "corr-1"
  projects_ok := sampleProjects_ok
  correlationId_ok := sampleCorrelation_ok

def sampleReferences : EntityReferences where
  employeeId := none
  projectKey := "WFD"
  employeeId_ok := noId_ok
  projectKey_ok := sampleKey_ok
  taskId := none
  taskId_ok := noId_ok

/-- All steps the limit allows. -/
def everyStep : StepLimit := ⟨id, Nat.le_refl⟩

def plannerAway : SpecialistRouter :=
  ⟨[workforceAnalysisAgent, ⟨"reassignment_planning", [.reassignmentCandidates, .whatIfSimulation], false⟩], sampleContext⟩

/-- Candidates are not looked for without the planner: the tool is not asked, and the trace says so. -/
theorem planner_away_prepares_nothing : ∃ result trace,
    (plannerAway.investigate everyStep ⟨.reassignmentCandidates, sampleReferences, "corr-1"⟩).Runs [] (.ret (result, trace)) ∧
      HandedOn plannerAway ⟨.reassignmentCandidates, sampleReferences, "corr-1"⟩ [] result trace ∧
      trace.map (·.status) = [.unavailable] := by
  have hrun : (plannerAway.investigate everyStep ⟨.reassignmentCandidates, sampleReferences, "corr-1"⟩).Runs []
      (.ret (.error (.specialistUnavailable "reassignment_planning is unavailable"),
        [⟨"reassignment_planning", .reassignmentCandidates, "corr-1", .unavailable⟩])) := .done _
  exact ⟨_, _, hrun, investigate_hands_on hrun, rfl⟩

end WorkforceRisk.Graph
