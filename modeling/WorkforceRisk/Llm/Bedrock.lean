/-
  WorkforceRisk.Llm.Bedrock — the explanation provider
  (services/agent-api/src/agent_api/llm/bedrock.py `BedrockExplanationProvider`).

  `explain` asks the model on a first path, whose answers go through every check; where
  one of them was refused it asks again on a recovery, which checks less. What the model
  replies comes off a tape, with the clock before and after; no reply depends on the
  payload, so that a tape is any sequence of outputs, timeouts and errors. The answer of
  the deterministic fallback is a parameter.

  Proved (`unflagged_grounded_iff`): an answer that is not flagged passes the checks of the
  first path, on exactly the tapes on which the recovery from focused evidence ends with
  none that fails a check it leaves out.
-/

import WorkforceRisk.Lib.Retry
import WorkforceRisk.Llm.Validation

namespace WorkforceRisk.Llm

open Lib Persistence Historical Risk Dashboard Evidence

inductive Outcome where
  | text (raw : String)
  /-- A `TimeoutError` or an `OSError`: its type and what it says. -/
  | unavailable (type message : String)
  | raised

structure Reply where
  startedAt : Rat
  endedAt : Rat
  outcome : Outcome

structure Circuit where
  failures : Nat
  openedAt : Option Rat

inductive Failure where
  | osError (message : String)
  | valueError (message : String)
  | assertionError
  /-- Any other exception of an invocation. -/
  | other

inductive Ending where
  | returned (response : ExplanationResponse)
  | raised (failure : Failure)
  /-- The tape ran out. -/
  | waiting

/-- What a call leaves of the circuit and of the tape. -/
structure Run where
  circuit : Circuit
  rest : List Reply
  ending : Ending

structure BedrockExplanationProvider where
  fallback : ExplanationRequest → RiskResult → ModelExplanation
  parse : String → Option ModelExplanation
  allowFallback : Bool
  maxAttempts : {n : Nat // 1 ≤ n}
  persistentRetry : Bool
  failureThreshold : {n : Nat // 1 ≤ n}
  resetSeconds : Rat

/-- What the first path has come to. -/
structure Attempts where
  circuit : Circuit
  semanticFailure : Bool
  lastError : Option (String × String)

namespace BedrockExplanationProvider

variable (provider : BedrockExplanationProvider)

/-- `_record_failure`. -/
def recordFailure (circuit : Circuit) (now : Rat) : Circuit :=
  let failures := circuit.failures + 1
  ⟨failures, if provider.failureThreshold.1 ≤ failures then some now else circuit.openedAt⟩

/-- `_circuit_is_open`; one that has been open long enough is closed. -/
def circuitIsOpen (circuit : Circuit) (now : Rat) : Bool × Circuit :=
  match circuit.openedAt with
  | none => (false, circuit)
  | some openedAt => if now - openedAt < provider.resetSeconds then (true, circuit) else (false, ⟨0, none⟩)

/-- `DeterministicFallbackProvider.explain`. -/
def explainByFallback (request : ExplanationRequest) : Ending :=
  match request.risk with
  | none => .raised (.valueError "deterministic fallback requires a risk result")
  | some risk => .returned { provider.fallback request risk with
      source := .deterministicFallback, correlationId := request.correlationId }

/-- The model has something to be told of: `build_model_payload` asserts it. -/
def hasPayload (request : ExplanationRequest) : Bool :=
  request.universalEvidence.isSome || request.risk.isSome || request.taskQueryResult.isSome ||
    request.projectSnapshot.isSome

/-- What happens before the model is asked: the circuit, or how the call ends. -/
def gate (circuit : Circuit) (request : ExplanationRequest) (now : Rat) : Except Run Circuit :=
  if provider.allowFallback && request.risk.any fun risk => risk.score.isNone || risk.level.isNone then
    .error ⟨circuit, [], provider.explainByFallback request⟩
  else if request.workflow == "explain_history" && request.previousEvidenceDossier.isNone &&
      request.universalEvidence.isNone && provider.allowFallback then
    .error ⟨circuit, [], provider.explainByFallback request⟩
  else
    match provider.circuitIsOpen circuit now with
    | (true, circuit) =>
      if provider.allowFallback && request.risk.isSome then .error ⟨circuit, [], provider.explainByFallback request⟩
      else .error ⟨circuit, [], .raised (.osError "Bedrock explanation circuit is open")⟩
    | (false, circuit) =>
      if hasPayload request then .ok circuit else .error ⟨circuit, [], .raised .assertionError⟩

section
variable [TextTables]

/-- One attempt of the first path. -/
def primaryStep (request : ExplanationRequest) (_attempt : Nat) (s : Attempts) (reply : Reply) :
    Next Attempts (Circuit × Ending) :=
  match reply.outcome with
  | .text raw => match primaryAttempt provider.parse request raw with
    | .ok result => .done ({ s.circuit with failures := 0 },
        .returned { result with source := .bedrock, correlationId := request.correlationId })
    | .error _ => .again { s with semanticFailure := true }
  | .unavailable type message =>
    .again ⟨provider.recordFailure s.circuit reply.endedAt, s.semanticFailure, some (type, message)⟩
  | .raised => .done (s.circuit, .raised .other)

/-- An answer of the recovery, with what it is flagged by. -/
def recovered (request : ExplanationRequest) (text : String) (uncertainties : List String) : ExplanationResponse where
  answer := some text
  summary := text
  rootCauses := []
  recommendations := []
  citations := []
  score := none
  riskLevel := none
  uncertainties := uncertainties
  source := .bedrock
  correlationId := request.correlationId

/-- One attempt of the recovery. -/
def recoveryStep (request : ExplanationRequest) (attempt : Nat) (circuit : Circuit) (reply : Reply) :
    Next Circuit (Circuit × Ending) :=
  match reply.outcome with
  | .text raw => match recoveryAttempt request raw with
    | .ok text => .done ({ circuit with failures := 0 }, .returned (recovered request text
        (if useFocusedRecovery request then [] else ["evidence could not be validated"])))
    | .error (.grounding _) =>
      if provider.maxAttempts.1 ≤ attempt + 1 then
        .done ({ circuit with failures := 0 },
          .returned (recovered request (strip raw) ["grounding validation exhausted"]))
      else .again circuit
    | .error (.osError _) => .again (provider.recordFailure circuit reply.endedAt)
  | .unavailable _ _ => .again (provider.recordFailure circuit reply.endedAt)
  | .raised => .done (circuit, .raised .other)

/-- An attempt is left on the first path. -/
def primaryLeft (attempt : Nat) : Bool := attempt < provider.maxAttempts.1

/-- An attempt is left in the recovery. -/
def recoveryLeft (attempt : Nat) : Bool := provider.persistentRetry || attempt < provider.maxAttempts.1

/-- `_conservative_bedrock_answer`. -/
def conservativeBedrockAnswer (request : ExplanationRequest) (circuit : Circuit) (tape : List Reply) : Run :=
  match retry provider.recoveryLeft (provider.recoveryStep request) 0 circuit tape with
  | .done (circuit, ending) rest => ⟨circuit, rest, ending⟩
  | .exhausted circuit rest => ⟨circuit, rest, .raised (.osError "Bedrock conservative response unavailable")⟩
  | .waiting circuit => ⟨circuit, [], .waiting⟩

/-- What follows a first path that ended without an answer. -/
def afterAttempts (request : ExplanationRequest) (s : Attempts) (tape : List Reply) : Run :=
  if s.semanticFailure || provider.persistentRetry then provider.conservativeBedrockAnswer request s.circuit tape
  else if provider.allowFallback && request.risk.isSome then ⟨s.circuit, tape, provider.explainByFallback request⟩
  else ⟨s.circuit, tape, .raised (.osError ("Bedrock explanation invocation failed" ++
    (s.lastError.map fun (type, message) => ": " ++ type ++ ": " ++ message).getD ""))⟩

def explain (circuit : Circuit) (request : ExplanationRequest) (now : Rat) (tape : List Reply) : Run :=
  match provider.gate circuit request now with
  | .error run => { run with rest := tape }
  | .ok circuit => match retry provider.primaryLeft (provider.primaryStep request) 0 ⟨circuit, false, none⟩ tape with
    | .done (circuit, ending) rest => ⟨circuit, rest, ending⟩
    | .exhausted s rest => provider.afterAttempts request s rest
    | .waiting s => ⟨s.circuit, [], .waiting⟩

end

end BedrockExplanationProvider

/-! ## Grounded answers -/

section
variable [TextTables]

/-- The four checks the recovery leaves out. -/
structure PassesSkipped (request : ExplanationRequest) (answer : String) : Prop where
  jiraClaims : validateRequestClaims request answer = .ok ()
  supported : validateSupportedWorkforceClaims request answer = .ok ()
  exhaustiveTasks : validateExhaustiveTaskAnswer request answer = .ok ()
  resolvedContext : validateResolvedContextAnswer request answer = .ok ()

/-- The checks the first path makes of an answer. -/
structure PassesChecks (request : ExplanationRequest) (answer : String) : Prop
    extends PassesSkipped request answer where
  focused : ∀ evidence, request.focused = some evidence →
    validateFocusedClaims answer evidence request.validatedProjectIssueKeys = .ok () ∧
      validateFocusedCompleteness answer evidence = .ok () ∧ validateInsufficiencyClaim answer evidence = .ok ()
  universal : ∀ bundle, request.universalEvidence = some bundle →
    validateUniversalClaims answer bundle = .ok () ∧ validateUniversalCompleteness answer bundle = .ok ()

/-- If the run returns an answer of the model's that is not flagged, it passes the checks. -/
def UnflaggedGrounded (request : ExplanationRequest) (run : Run) : Prop :=
  ∀ response, run.ending = .returned response → response.source = .bedrock → response.uncertainties = [] →
    PassesChecks request (response.answer.getD "")

/-- The reply is a text that the first path refuses. -/
def Rejected (provider : BedrockExplanationProvider) (request : ExplanationRequest) (reply : Reply) : Prop :=
  ∃ raw rejection, reply.outcome = .text raw ∧ primaryAttempt provider.parse request raw = .error rejection

def Unavailable (reply : Reply) : Prop := ∃ type message, reply.outcome = .unavailable type message

/-- The reply is one the recovery asks again after, as its attempt of that number. -/
def Retried (provider : BedrockExplanationProvider) (request : ExplanationRequest) (attempt : Nat) (reply : Reply) :
    Prop :=
  Unavailable reply ∨ ∃ raw error, reply.outcome = .text raw ∧ recoveryAttempt request raw = .error error ∧
    match error with
    | .osError _ => True
    | .grounding _ => attempt + 1 < provider.maxAttempts.1

/-- On this tape the recovery from focused evidence accepts this text: the model is asked,
    refused answers use up the first path, others that are refused leave an attempt of the
    recovery, and then comes one that it accepts. -/
structure RecoversWith (provider : BedrockExplanationProvider) (circuit : Circuit) (request : ExplanationRequest)
    (now : Rat) (tape : List Reply) (text : String) : Prop where
  asked : ∃ circuit', provider.gate circuit request now = .ok circuit'
  focused : useFocusedRecovery request = true
  accepted : ∃ first repairs reply rest raw, tape = first ++ (repairs ++ reply :: rest) ∧
    first.length = provider.maxAttempts.1 ∧ (∀ r ∈ first, Rejected provider request r ∨ Unavailable r) ∧
    (provider.persistentRetry = true ∨ ∃ r ∈ first, Rejected provider request r) ∧
    (∀ before r after, repairs = before ++ r :: after → Retried provider request before.length r) ∧
    (provider.persistentRetry = true ∨ repairs.length < provider.maxAttempts.1) ∧
    reply.outcome = .text raw ∧ recoveryAttempt request raw = .ok text

variable {provider : BedrockExplanationProvider} {circuit : Circuit} {request : ExplanationRequest} {now : Rat}
  {tape : List Reply}

/-! ## What the two paths check -/

theorem validateFocused_ok {answer : String} {evidence : AnswerEvidenceSet}
    (h : validateFocused request answer evidence = .ok ()) :
    validateFocusedClaims answer evidence request.validatedProjectIssueKeys = .ok () ∧
      validateFocusedCompleteness answer evidence = .ok () ∧ validateInsufficiencyClaim answer evidence = .ok () := by
  obtain ⟨_, hclaims, h⟩ := except_bind_ok.mp h
  obtain ⟨_, hcomplete, hsufficient⟩ := except_bind_ok.mp h
  exact ⟨hclaims, hcomplete, hsufficient⟩

/-- An answer the first path takes has passed everything. -/
theorem primaryAttempt_ok {parse : String → Option ModelExplanation} {raw : String} {result : ModelExplanation}
    (h : primaryAttempt parse request raw = .ok result) : PassesChecks request (result.answer.getD "") := by
  obtain ⟨parsed, _, h⟩ := except_bind_ok.mp h
  obtain ⟨_, _, h⟩ := except_bind_ok.mp h
  obtain ⟨_, hsupported, h⟩ := except_bind_ok.mp h
  obtain ⟨_, hexhaustive, h⟩ := except_bind_ok.mp h
  obtain ⟨_, hresolved, h⟩ := except_bind_ok.mp h
  obtain ⟨_, hjira, h⟩ := except_bind_ok.mp h
  obtain ⟨_, huniversal, h⟩ := except_bind_ok.mp h
  cases h
  rw [Rejection.ofGrounding_ok] at hsupported hexhaustive hresolved hjira huniversal
  refine ⟨⟨hjira, hsupported, hexhaustive, hresolved⟩, fun evidence hevidence => ?_, fun bundle hbundle => ?_⟩
  · obtain ⟨bundle, hbundle, hanswer⟩ := Option.bind_eq_some_iff.mp hevidence
    rw [hbundle] at huniversal
    obtain ⟨_, hfocused, _⟩ := except_bind_ok.mp huniversal
    rw [hanswer] at hfocused
    exact validateFocused_ok hfocused
  · rw [hbundle] at huniversal
    obtain ⟨_, _, huniversal⟩ := except_bind_ok.mp huniversal
    obtain ⟨_, hclaims, hcomplete⟩ := except_bind_ok.mp huniversal
    exact ⟨hclaims, hcomplete⟩

omit [TextTables] in
/-- Focused evidence is the evidence of the request's bundle. -/
theorem focused_of_recovery (h : useFocusedRecovery request = true) : ∃ bundle evidence,
    request.universalEvidence = some bundle ∧ bundle.answerEvidence = some evidence ∧
      request.focused = some evidence := by
  obtain ⟨evidence, hevidence, _⟩ := (Option.any_eq_true _ _).mp h
  obtain ⟨bundle, hbundle, hanswer⟩ := Option.bind_eq_some_iff.mp hevidence
  exact ⟨bundle, evidence, hbundle, hanswer, hevidence⟩

/-- What the recovery takes of focused evidence passes all but what it leaves out. -/
theorem recoveryAttempt_ok {raw text : String} (hfocused : useFocusedRecovery request = true)
    (h : recoveryAttempt request raw = .ok text) : PassesChecks request text ↔ PassesSkipped request text := by
  refine ⟨fun hpasses => hpasses.toPassesSkipped, fun hskipped => ?_⟩
  obtain ⟨bundle, evidence, hbundle, hanswer, hevidence⟩ := focused_of_recovery hfocused
  have hrecovered : validateRecovered request text = .ok () := by
    unfold recoveryAttempt at h
    dsimp only at h
    split at h
    · cases h
    · split at h
      · rename_i hok
        cases h
        exact hok
      · cases h
  rw [validateRecovered, hbundle, hevidence] at hrecovered
  dsimp only at hrecovered
  rw [if_pos hfocused] at hrecovered
  obtain ⟨_, hclaims, huniversal⟩ := except_bind_ok.mp hrecovered
  refine ⟨hskipped, fun other hother => ?_, fun other hother => ?_⟩
  · rw [hevidence] at hother
    cases hother
    exact validateFocused_ok hclaims
  · rw [hbundle] at hother
    cases hother
    refine ⟨huniversal, ?_⟩
    rw [validateUniversalCompleteness, hanswer]
    exact (validateFocused_ok hclaims).2.1

/-! ## What the loops ask again after -/

/-- What one attempt of the first path comes to. -/
theorem primaryStep_cases (attempt : Nat) (s : Attempts) (reply : Reply) :
    (∃ raw result, reply.outcome = .text raw ∧ primaryAttempt provider.parse request raw = .ok result ∧
      provider.primaryStep request attempt s reply = .done ({ s.circuit with failures := 0 },
        .returned { result with source := .bedrock, correlationId := request.correlationId })) ∨
    (Rejected provider request reply ∧
      provider.primaryStep request attempt s reply = .again { s with semanticFailure := true }) ∨
    (Unavailable reply ∧ ∃ circuit lastError,
      provider.primaryStep request attempt s reply = .again ⟨circuit, s.semanticFailure, lastError⟩) ∨
    (reply.outcome = .raised ∧
      provider.primaryStep request attempt s reply = .done (s.circuit, .raised .other)) := by
  unfold BedrockExplanationProvider.primaryStep Rejected Unavailable
  cases hreply : reply.outcome with
  | text raw =>
    cases hattempt : primaryAttempt provider.parse request raw with
    | ok result => simp [hattempt]
    | error rejection => simp [hattempt]
  | unavailable type message => simp
  | raised => simp

/-- A reply that is refused is a text. -/
theorem Rejected.available {reply : Reply} (h : Rejected provider request reply) : ¬ Unavailable reply := by
  intro hunavailable
  obtain ⟨raw, _, hraw, _⟩ := h
  obtain ⟨type, message, hout⟩ := hunavailable
  rw [hraw] at hout
  cases hout

theorem primaryStep_again {attempt : Nat} {s : Attempts} {reply : Reply} :
    (∃ s', provider.primaryStep request attempt s reply = .again s') ↔
      Rejected provider request reply ∨ Unavailable reply := by
  rcases @primaryStep_cases _ provider request attempt s reply with hdone | hagain | hagain | hdone
  · obtain ⟨raw, result, hraw, hok, hstep⟩ := hdone
    simp [hstep, Rejected, Unavailable, hraw, hok]
  · simp [hagain.2, hagain.1]
  · obtain ⟨hunavailable, _, _, hstep⟩ := hagain
    simp [hstep, hunavailable]
  · simp [hdone.2, Rejected, Unavailable, hdone.1]

/-- The first path remembers whether an answer was refused. -/
theorem primaryStep_semantic {attempt : Nat} {s s' : Attempts} {reply : Reply}
    (h : provider.primaryStep request attempt s reply = .again s') :
    s'.semanticFailure = true ↔ s.semanticFailure = true ∨ Rejected provider request reply := by
  rcases @primaryStep_cases _ provider request attempt s reply with hdone | hagain | hagain | hdone
  · obtain ⟨_, _, _, _, hstep⟩ := hdone
    rw [hstep] at h
    cases h
  · rw [hagain.2] at h
    cases h
    simp [hagain.1]
  · obtain ⟨hunavailable, _, _, hstep⟩ := hagain
    rw [hstep] at h
    cases h
    exact (or_iff_left fun hrejected => hrejected.available hunavailable).symm
  · rw [hdone.2] at h
    cases h

theorem recoveryStep_again {attempt : Nat} {c : Circuit} {reply : Reply} :
    (∃ c', provider.recoveryStep request attempt c reply = .again c') ↔ Retried provider request attempt reply := by
  unfold BedrockExplanationProvider.recoveryStep Retried Unavailable
  cases hreply : reply.outcome with
  | text raw =>
    cases hattempt : recoveryAttempt request raw with
    | ok result => simp [hattempt]
    | error error =>
      cases error with
      | osError message => simp [hattempt]
      | grounding error =>
        by_cases hlast : provider.maxAttempts.1 ≤ attempt + 1
        · simp [hattempt, hlast]
        · simp [hattempt, hlast, Nat.not_le.mp hlast]
  | unavailable type message => simp
  | raised => simp

/-- The answers the first path asks again after. -/
theorem primary_refused_iff {first : List Reply} {s : Attempts} :
    (∃ j s', Refused provider.primaryLeft (provider.primaryStep request) 0 s first j s') ↔
      ∀ before r after, first = before ++ r :: after →
        provider.primaryLeft (0 + before.length) = true ∧ (Rejected provider request r ∨ Unavailable r) := by
  have hagain : ∀ i s r, (∃ s', provider.primaryStep request i s r = .again s') ↔
      (fun _ r => Rejected provider request r ∨ Unavailable r) i r := fun _ _ _ => primaryStep_again
  exact exists_refused_iff hagain

/-- The answers the recovery asks again after. -/
theorem recovery_refused_iff {repairs : List Reply} {c : Circuit} :
    (∃ j c', Refused provider.recoveryLeft (provider.recoveryStep request) 0 c repairs j c') ↔
      ∀ before r after, repairs = before ++ r :: after →
        provider.recoveryLeft (0 + before.length) = true ∧ Retried provider request (0 + before.length) r := by
  have hagain : ∀ i c r, (∃ c', provider.recoveryStep request i c r = .again c') ↔
      Retried provider request i r := fun _ _ _ => recoveryStep_again
  exact exists_refused_iff hagain

omit [TextTables] in
theorem primaryLeft_iff {j : Nat} : provider.primaryLeft j = true ↔ j < provider.maxAttempts.1 := decide_eq_true_iff

omit [TextTables] in
theorem recoveryLeft_iff {j : Nat} :
    provider.recoveryLeft j = true ↔ provider.persistentRetry = true ∨ j < provider.maxAttempts.1 := by
  rw [BedrockExplanationProvider.recoveryLeft, Bool.or_eq_true, decide_eq_true_eq]

/-- The first path asks through answers it refuses, up to as many as there are attempts. -/
theorem primary_goes_on {first : List Reply} (s : Attempts) (hlength : first.length ≤ provider.maxAttempts.1)
    (hrefused : ∀ r ∈ first, Rejected provider request r ∨ Unavailable r) :
    ∃ s', Refused provider.primaryLeft (provider.primaryStep request) 0 s first first.length s' := by
  obtain ⟨j, s', h⟩ := (@primary_refused_iff _ provider request first s).mpr fun before r after hsplit => by
    refine ⟨primaryLeft_iff.mpr ?_, hrefused r (by simp [hsplit])⟩
    rw [hsplit, List.length_append, List.length_cons] at hlength
    omega
  have hj : j = first.length := by simpa using h.count
  exact ⟨s', hj ▸ h⟩

/-- The recovery asks through answers it retries, and once more. -/
theorem recovery_goes_on {repairs : List Reply} (c : Circuit)
    (hretried : ∀ before r after, repairs = before ++ r :: after → Retried provider request before.length r)
    (hleft : provider.persistentRetry = true ∨ repairs.length < provider.maxAttempts.1) :
    provider.recoveryLeft repairs.length = true ∧
      ∃ c', Refused provider.recoveryLeft (provider.recoveryStep request) 0 c repairs repairs.length c' := by
  obtain ⟨j, c', h⟩ := (@recovery_refused_iff _ provider request repairs c).mpr fun before r after hsplit => by
    rw [Nat.zero_add]
    refine ⟨recoveryLeft_iff.mpr (hleft.imp_right fun hlt => ?_), hretried before r after hsplit⟩
    rw [hsplit, List.length_append] at hlt
    omega
  have hj : j = repairs.length := by simpa using h.count
  exact ⟨recoveryLeft_iff.mpr hleft, c', hj ▸ h⟩

/-- And only through such. -/
theorem recovery_went_on {repairs : List Reply} {j : Nat} {c c' : Circuit}
    (h : Refused provider.recoveryLeft (provider.recoveryStep request) 0 c repairs j c')
    (hmore : provider.recoveryLeft j = true) :
    (∀ before r after, repairs = before ++ r :: after → Retried provider request before.length r) ∧
      (provider.persistentRetry = true ∨ repairs.length < provider.maxAttempts.1) := by
  have hj : j = repairs.length := by simpa using h.count
  subst hj
  refine ⟨fun before r after hsplit => ?_, recoveryLeft_iff.mp hmore⟩
  simpa using (recovery_refused_iff.mp ⟨_, c', h⟩ before r after hsplit).2

/-! ## How a run ends -/

omit [TextTables] in
/-- What ends a run before the model is asked is no answer of the model's. -/
theorem gate_source {run : Run} {response : ExplanationResponse} (h : provider.gate circuit request now = .error run)
    (hending : run.ending = .returned response) : response.source ≠ .bedrock := by
  have hfallback : ∀ r, provider.explainByFallback request = .returned r → r.source ≠ .bedrock := by
    intro r hr
    unfold BedrockExplanationProvider.explainByFallback at hr
    split at hr
    · cases hr
    · cases hr
      exact fun h => (by cases h)
  unfold BedrockExplanationProvider.gate at h
  split at h
  · cases h
    exact hfallback response hending
  · split at h
    · cases h
      exact hfallback response hending
    · split at h
      · split at h
        · cases h
          exact hfallback response hending
        · cases h
          cases hending
      · split at h
        · cases h
        · cases h
          cases hending

theorem refused_semantic {first : List Reply} {i j : Nat} {s s' : Attempts}
    (h : Refused provider.primaryLeft (provider.primaryStep request) i s first j s') :
    s'.semanticFailure = true ↔ s.semanticFailure = true ∨ ∃ r ∈ first, Rejected provider request r := by
  induction h with
  | none i s => simp
  | cons _ hagain _ ih =>
    rw [ih, primaryStep_semantic hagain]
    simp only [List.mem_cons, exists_eq_or_imp, or_assoc]

/-- A first path that ends without an answer, and what it remembers. -/
theorem primary_exhausted {rest : List Reply} {s : Attempts}
    (h : retry provider.primaryLeft (provider.primaryStep request) 0 ⟨circuit, false, none⟩ tape = .exhausted s rest) :
    ∃ first, tape = first ++ rest ∧ first.length = provider.maxAttempts.1 ∧
      (∀ r ∈ first, Rejected provider request r ∨ Unavailable r) ∧
      (s.semanticFailure = true ↔ ∃ r ∈ first, Rejected provider request r) := by
  obtain ⟨first, j, htape, hrefused, hmore⟩ := retry_exhausted_iff.mp h
  have hj : j = first.length := by simpa using hrefused.count
  have hge : ¬ j < provider.maxAttempts.1 := by
    rw [← primaryLeft_iff, hmore]
    exact Bool.false_ne_true
  have hle : ¬ provider.maxAttempts.1 < j := fun hlt =>
    lt_irrefl _ (primaryLeft_iff.mp (hrefused.made (Nat.zero_le _) hlt))
  refine ⟨first, htape, by omega, fun r hr => ?_, by simpa using refused_semantic hrefused⟩
  obtain ⟨before, after, hsplit⟩ := List.append_of_mem hr
  exact (primary_refused_iff.mp ⟨j, s, hrefused⟩ before r after hsplit).2

/-- Answers that are refused, as many as there are attempts, end the first path. -/
theorem primary_exhausts {first rest : List Reply} (hlength : first.length = provider.maxAttempts.1)
    (hrefused : ∀ r ∈ first, Rejected provider request r ∨ Unavailable r) : ∃ s : Attempts,
    retry provider.primaryLeft (provider.primaryStep request) 0 ⟨circuit, false, none⟩ (first ++ rest) =
      .exhausted s rest ∧ (s.semanticFailure = true ↔ ∃ r ∈ first, Rejected provider request r) := by
  obtain ⟨s, h⟩ := primary_goes_on ⟨circuit, false, none⟩ hlength.le hrefused
  refine ⟨s, retry_exhausted_iff.mpr ⟨first, _, rfl, h, ?_⟩, by simpa using refused_semantic h⟩
  rw [← Bool.not_eq_true, primaryLeft_iff]
  omega

/-- What the recovery returns without a flag is a text it accepts of focused evidence. -/
theorem recoveryStep_unflagged {attempt : Nat} {c c' : Circuit} {reply : Reply} {response : ExplanationResponse}
    (h : provider.recoveryStep request attempt c reply = .done (c', .returned response))
    (hflag : response.uncertainties = []) : useFocusedRecovery request = true ∧ ∃ raw text,
      reply.outcome = .text raw ∧ recoveryAttempt request raw = .ok text ∧ response.answer = some text := by
  unfold BedrockExplanationProvider.recoveryStep at h
  cases hreply : reply.outcome with
  | text raw =>
    rw [hreply] at h
    dsimp only at h
    cases hattempt : recoveryAttempt request raw with
    | ok text =>
      rw [hattempt] at h
      cases h
      cases hfocused : useFocusedRecovery request with
      | true => exact ⟨rfl, raw, text, rfl, hattempt, rfl⟩
      | false =>
        rw [BedrockExplanationProvider.recovered, hfocused] at hflag
        cases hflag
    | error error =>
      rw [hattempt] at h
      cases error with
      | osError message => cases h
      | grounding error =>
        dsimp only at h
        split at h
        · cases h
          cases hflag
        · cases h
  | unavailable type message =>
    rw [hreply] at h
    cases h
  | raised =>
    rw [hreply] at h
    cases h

/-- A recovery that returns an answer without a flag has come to a text it accepts. -/
theorem recovery_unflagged {c : Circuit} {response : ExplanationResponse}
    (h : (provider.conservativeBedrockAnswer request c tape).ending = .returned response)
    (hflag : response.uncertainties = []) : useFocusedRecovery request = true ∧
      ∃ repairs reply rest raw text, tape = repairs ++ reply :: rest ∧
        (∀ before r after, repairs = before ++ r :: after → Retried provider request before.length r) ∧
        (provider.persistentRetry = true ∨ repairs.length < provider.maxAttempts.1) ∧
        reply.outcome = .text raw ∧ recoveryAttempt request raw = .ok text ∧ response.answer = some text := by
  unfold BedrockExplanationProvider.conservativeBedrockAnswer at h
  split at h
  · rename_i c' ending rest hdone
    cases h
    obtain ⟨repairs, reply, j, s, htape, hrefused, hmore, hstep⟩ := retry_done_iff.mp hdone
    obtain ⟨hfocused, raw, text, hraw, hattempt, hanswer⟩ := recoveryStep_unflagged hstep hflag
    obtain ⟨hretried, hleft⟩ := recovery_went_on hrefused hmore
    exact ⟨hfocused, repairs, reply, rest, raw, text, htape, hretried, hleft, hraw, hattempt, hanswer⟩
  · cases h
  · cases h

/-- On a tape with such a text the recovery returns it. -/
theorem recovery_returns {c : Circuit} {repairs rest : List Reply} {reply : Reply} {raw text : String}
    (hfocused : useFocusedRecovery request = true)
    (hretried : ∀ before r after, repairs = before ++ r :: after → Retried provider request before.length r)
    (hleft : provider.persistentRetry = true ∨ repairs.length < provider.maxAttempts.1)
    (hraw : reply.outcome = .text raw) (hattempt : recoveryAttempt request raw = .ok text) :
    (provider.conservativeBedrockAnswer request c (repairs ++ reply :: rest)).ending =
      .returned (BedrockExplanationProvider.recovered request text []) := by
  obtain ⟨hmore, s, h⟩ := recovery_goes_on c hretried hleft
  have hstep : provider.recoveryStep request repairs.length s reply =
      .done ({ s with failures := 0 }, .returned (BedrockExplanationProvider.recovered request text [])) := by
    unfold BedrockExplanationProvider.recoveryStep
    rw [hraw]
    dsimp only
    rw [hattempt]
    dsimp only
    rw [if_pos hfocused]
  unfold BedrockExplanationProvider.conservativeBedrockAnswer
  rw [retry_refused h, retry, if_pos hmore, hstep]

/-- What the first path returns has passed its checks. -/
theorem primaryStep_returned {attempt : Nat} {s : Attempts} {c : Circuit} {reply : Reply}
    {response : ExplanationResponse} (h : provider.primaryStep request attempt s reply = .done (c, .returned response)) :
    PassesChecks request (response.answer.getD "") := by
  rcases @primaryStep_cases _ provider request attempt s reply with hdone | hagain | hagain | hdone
  · obtain ⟨_, _, _, hattempt, hstep⟩ := hdone
    rw [hstep] at h
    cases h
    exact primaryAttempt_ok hattempt
  · rw [hagain.2] at h
    cases h
  · obtain ⟨_, _, _, hstep⟩ := hagain
    rw [hstep] at h
    cases h
  · rw [hdone.2] at h
    cases h

/-- What follows the first path returns without a flag only what the recovery accepts. -/
theorem afterAttempts_unflagged {s : Attempts} {response : ExplanationResponse}
    (h : (provider.afterAttempts request s tape).ending = .returned response) (hsource : response.source = .bedrock) :
    (s.semanticFailure = true ∨ provider.persistentRetry = true) ∧
      (provider.conservativeBedrockAnswer request s.circuit tape).ending = .returned response := by
  unfold BedrockExplanationProvider.afterAttempts at h
  split at h
  · rename_i hrecover
    exact ⟨by simpa using hrecover, h⟩
  · split at h
    · unfold BedrockExplanationProvider.explainByFallback at h
      dsimp only at h
      split at h
      · cases h
      · cases h
        cases hsource
    · cases h

theorem unflagged_grounded_iff :
    UnflaggedGrounded request (provider.explain circuit request now tape) ↔
      ∀ text, RecoversWith provider circuit request now tape text → PassesSkipped request text := by
  constructor
  · intro hgrounded text hrecovers
    obtain ⟨circuit', hgate⟩ := hrecovers.asked
    obtain ⟨first, repairs, reply, rest, raw, rfl, hlength, hrefused, henter, hretried, hleft, hraw, hattempt⟩ :=
      hrecovers.accepted
    obtain ⟨s, hexhausted, hsemantic⟩ := @primary_exhausts _ provider circuit' request first
      (repairs ++ reply :: rest) hlength hrefused
    have hrun : (provider.explain circuit request now (first ++ (repairs ++ reply :: rest))).ending =
        .returned (BedrockExplanationProvider.recovered request text []) := by
      have hrecover : (s.semanticFailure || provider.persistentRetry) = true := by
        rw [Bool.or_eq_true, hsemantic]
        exact henter.symm
      unfold BedrockExplanationProvider.explain
      rw [hgate]
      dsimp only
      rw [hexhausted]
      dsimp only
      rw [BedrockExplanationProvider.afterAttempts, if_pos hrecover]
      exact recovery_returns hrecovers.focused hretried hleft hraw hattempt
    exact (recoveryAttempt_ok hrecovers.focused hattempt).mp (hgrounded _ hrun rfl rfl)
  · intro hskipped response hreturned hsource hflag
    unfold BedrockExplanationProvider.explain at hreturned
    cases hgate : provider.gate circuit request now with
    | error run =>
      rw [hgate] at hreturned
      exact absurd hsource (gate_source hgate hreturned)
    | ok circuit' =>
      rw [hgate] at hreturned
      dsimp only at hreturned
      split at hreturned
      · rename_i c ending rest hdone
        cases hreturned
        obtain ⟨_, _, _, _, _, _, _, hstep⟩ := retry_done_iff.mp hdone
        exact primaryStep_returned hstep
      · rename_i s rest hexhausted
        obtain ⟨first, htape, hlength, hrefused, hsemantic⟩ := primary_exhausted hexhausted
        obtain ⟨henter, hreturned⟩ := afterAttempts_unflagged hreturned hsource
        obtain ⟨hfocused, repairs, reply, rest', raw, text, hrest, hretried, hleft, hraw, hattempt, hanswer⟩ :=
          recovery_unflagged hreturned hflag
        rw [hanswer]
        refine (recoveryAttempt_ok hfocused hattempt).mpr (hskipped text ⟨⟨circuit', hgate⟩, hfocused, ?_⟩)
        exact ⟨first, repairs, reply, rest', raw, by rw [htape, hrest], hlength, hrefused,
          henter.symm.imp_right hsemantic.mp, hretried, hleft, hraw, hattempt⟩
      · cases hreturned

end

/-! ## A comparison nothing supports -/

def oneTask : AnswerTaskEvidence where
  key := "WFD-1"
  summary := "Ship the report"
  status := "In Progress"
  priority := "High"
  assignee := none
  dueDate := none
  remainingHours := none
  blocker := none
  dependencies := []
  blocked := false
  blocksDownstream := []
  overdue := false
  dueSoon := false
  missingFields := []

/-- A question for the one task, asked without a risk result. -/
def taskRequest : ExplanationRequest where
  workflow := "general_evidence_question"
  question := "Which task is next?"
  risk := none
  projectSnapshot := none
  taskQueryResult := none
  evidenceDossier := none
  previousEvidenceDossier := none
  previousAnswerContext := none
  universalEvidence := some ⟨⟨.task, [], [.jiraIssues], false⟩,
    some ⟨"Which task is next?", [oneTask], ["WFD-1"], [], false, []⟩, none, []⟩
  candidateIds := []
  correlationId := "corr-1"

/-- A provider that asks once on each path. -/
def onceProvider : BedrockExplanationProvider :=
  ⟨fun _ _ => ⟨none, "", [], [], [], none, none, []⟩, fun _ => none, true, ⟨1, Nat.zero_lt_one⟩, false,
    ⟨3, by decide⟩, 30⟩

/-- The model gives the same answer twice. -/
def sameAnswer (raw : String) : List Reply := [⟨0, 1, .text raw⟩, ⟨1, 2, .text raw⟩]

/-- What the first path refuses the recovery returns. -/
theorem recovery_returns_a_comparison : letI := TextTables.ascii
    ¬ UnflaggedGrounded taskRequest
      (onceProvider.explain ⟨0, none⟩ taskRequest 0 (sameAnswer "It is lowest impact.")) := by
  let _ := TextTables.ascii
  intro h
  have hchecks := h (BedrockExplanationProvider.recovered taskRequest "It is lowest impact." []) (by rfl) rfl rfl
  exact absurd hchecks.supported (by decide)

end WorkforceRisk.Llm
