/-
  WorkforceRisk.Llm.Circuit — the circuit of the explanation provider over many calls
  (services/agent-api/src/agent_api/llm/bedrock.py `_record_failure`, `_circuit_is_open`).

  The circuit is looked at once, when a call begins. A failure within a call that reaches
  the threshold opens it, and the call goes on asking: on the first path while it has
  attempts left, and in the recovery, which without end asks again where retries are
  persistent. The events of a call are its reset, its invocations with their failures,
  and its success; what they tell of the circuit is what the call leaves (`explain_circuit`).

  Proved (`never_called_open_iff`): in a run no invocation starts while the circuit is open
  exactly if every call of it holds back: an attempt after the failure that reaches the
  threshold starts once the reset time has passed. `two_timeouts_call_open` is a call that
  does not.
-/

import Mathlib.Algebra.Order.Ring.Rat
import Mathlib.Tactic.NormNum
import WorkforceRisk.Lib.Breaker
import WorkforceRisk.Llm.Bedrock

namespace WorkforceRisk.Llm

open Lib Lib.Breaker Evidence

/-- A call of `explain`: when it comes, and what the model would reply. -/
structure Call where
  request : ExplanationRequest
  now : Rat
  replies : List Reply

namespace BedrockExplanationProvider

variable (provider : BedrockExplanationProvider) [TextTables]

/-- The replies a call takes: those of the first path, and those of the recovery. -/
def asked (circuit : Circuit) (request : ExplanationRequest) (now : Rat) (tape : List Reply) : List Reply :=
  match provider.gate circuit request now with
  | .error _ => []
  | .ok circuit =>
    taken provider.primaryLeft (provider.primaryStep request) 0 ⟨circuit, false, none⟩ tape ++
      match retry provider.primaryLeft (provider.primaryStep request) 0 ⟨circuit, false, none⟩ tape with
      | .exhausted s rest => if s.semanticFailure || provider.persistentRetry then
          taken provider.recoveryLeft (provider.recoveryStep request) 0 s.circuit rest else []
      | _ => []

/-- Whether the reply to a call's `n`-th attempt is recorded as a failure: a timeout or an
    error of the connection, and in the recovery an empty answer. -/
def fails (n : Nat) (reply : Reply) : Bool :=
  match reply.outcome with
  | .text raw => decide (provider.maxAttempts.1 ≤ n) && strip raw == ""
  | .unavailable _ _ => true
  | .raised => false

/-- A call's attempts from the `n`-th on. -/
def attemptEvents : Nat → List Reply → List (Event Rat)
  | _, [] => []
  | n, reply :: replies => .called reply.startedAt ::
      ((if provider.fails n reply then [.failed reply.endedAt] else []) ++ attemptEvents (n + 1) replies)

/-- The reset of a circuit that a call finds open long enough. -/
def resetEvents (circuit : Circuit) (request : ExplanationRequest) (now : Rat) : List (Event Rat) :=
  if provider.allowFallback && request.risk.any fun risk => risk.score.isNone || risk.level.isNone then []
  else if request.workflow == "explain_history" && request.previousEvidenceDossier.isNone &&
      request.universalEvidence.isNone && provider.allowFallback then []
  else match circuit.openedAt with
    | none => []
    | some openedAt => if now - openedAt < provider.resetSeconds then [] else [.reset now]

/-- An answer of the model's is a success. -/
def successEvents : Ending → List (Event Rat)
  | .returned response => match response.source with
    | .bedrock => [.succeeded]
    | _ => []
  | _ => []

/-- What happens at the circuit in a call. -/
def callEvents (circuit : Circuit) (call : Call) : List (Event Rat) :=
  provider.resetEvents circuit call.request call.now ++
    (provider.attemptEvents 0 (provider.asked circuit call.request call.now call.replies) ++
      successEvents (provider.explain circuit call.request call.now call.replies).ending)

/-- The circuit after a call. -/
def after (circuit : Circuit) (call : Call) : Circuit :=
  (provider.explain circuit call.request call.now call.replies).circuit

def traceFrom : Circuit → List Call → List (Event Rat)
  | _, [] => []
  | circuit, call :: calls => provider.callEvents circuit call ++ traceFrom (provider.after circuit call) calls

/-- What happens at the circuit of a new provider. -/
def trace (calls : List Call) : List (Event Rat) := provider.traceFrom ⟨0, none⟩ calls

/-- Having got these replies the call makes another attempt: each was refused, and another is
    left on the first path, or in the recovery it has come to. -/
def GoesOn (request : ExplanationRequest) (replies : List Reply) : Prop :=
  (replies.length < provider.maxAttempts.1 ∧ ∀ r ∈ replies, Rejected provider request r ∨ Unavailable r) ∨
  ∃ first repairs, replies = first ++ repairs ∧ first.length = provider.maxAttempts.1 ∧
    (∀ r ∈ first, Rejected provider request r ∨ Unavailable r) ∧
    (provider.persistentRetry = true ∨ ∃ r ∈ first, Rejected provider request r) ∧
    (∀ before r after, repairs = before ++ r :: after → Retried provider request before.length r) ∧
    (provider.persistentRetry = true ∨ repairs.length < provider.maxAttempts.1)

/-- How many of the replies from the `n`-th on are recorded as failures. -/
def failed : Nat → List Reply → Nat
  | _, [] => 0
  | n, reply :: replies => (if provider.fails n reply then 1 else 0) + failed (n + 1) replies

/-- A call that goes on after the failure that makes the circuit's count reach the threshold
    lets the reset time pass first. -/
def HoldsBack (circuit : Circuit) (call : Call) : Prop :=
  ∀ circuit', provider.gate circuit call.request call.now = .ok circuit' →
    ∀ before reply next later, call.replies = before ++ reply :: next :: later →
      provider.GoesOn call.request (before ++ [reply]) → provider.fails before.length reply = true →
        circuit'.failures + provider.failed 0 before + 1 = provider.failureThreshold.1 →
          provider.resetSeconds ≤ next.startedAt - reply.endedAt

end BedrockExplanationProvider

section
variable [TextTables] {provider : BedrockExplanationProvider} {circuit : Circuit} {request : ExplanationRequest}
  {now : Rat} {tape : List Reply}

/-! ## What the events tell of the circuit -/

/-- What an event makes of the circuit. -/
def note (provider : BedrockExplanationProvider) (circuit : Circuit) : Event Rat → Circuit
  | .failed now => provider.recordFailure circuit now
  | .succeeded => { circuit with failures := 0 }
  | .reset _ => ⟨0, none⟩
  | .called _ => circuit
  | .opened _ => circuit

/-- What a reply makes of it. -/
def noteReply (provider : BedrockExplanationProvider) (n : Nat) (circuit : Circuit) (reply : Reply) : Circuit :=
  if provider.fails n reply then provider.recordFailure circuit reply.endedAt else circuit

theorem note_cons (n : Nat) (reply : Reply) (replies : List Reply) :
    (provider.attemptEvents n (reply :: replies)).foldl (note provider) circuit =
      (provider.attemptEvents (n + 1) replies).foldl (note provider) (noteReply provider n circuit reply) := by
  rw [BedrockExplanationProvider.attemptEvents, List.foldl_cons, List.foldl_append, noteReply]
  cases provider.fails n reply <;> rfl

theorem attemptEvents_append (first repairs : List Reply) : ∀ n : Nat, provider.attemptEvents n (first ++ repairs) =
    provider.attemptEvents n first ++ provider.attemptEvents (n + first.length) repairs := by
  induction first with
  | nil => intro n; rfl
  | cons reply first ih =>
    intro n
    rw [List.cons_append, BedrockExplanationProvider.attemptEvents, BedrockExplanationProvider.attemptEvents, ih,
      List.length_cons, show n + (first.length + 1) = n + 1 + first.length by omega, List.cons_append,
      List.append_assoc]

theorem primaryStep_note {i : Nat} {s s' : Attempts} {reply : Reply} (hi : i < provider.maxAttempts.1)
    (h : provider.primaryStep request i s reply = .again s') : s'.circuit = noteReply provider i s.circuit reply := by
  unfold BedrockExplanationProvider.primaryStep at h
  unfold noteReply BedrockExplanationProvider.fails
  cases hreply : reply.outcome with
  | text raw =>
    rw [hreply] at h
    dsimp only at h
    split at h
    · cases h
    · cases h
      simp [Nat.not_le.mpr hi]
  | unavailable type message =>
    rw [hreply] at h
    cases h
    rfl
  | raised =>
    rw [hreply] at h
    cases h

theorem primary_note {i j : Nat} {s s' : Attempts} {first : List Reply}
    (h : Refused provider.primaryLeft (provider.primaryStep request) i s first j s') :
    s'.circuit = (provider.attemptEvents i first).foldl (note provider) s.circuit := by
  induction h with
  | none i s => rfl
  | cons hmore hagain _ ih =>
    rw [note_cons, ← primaryStep_note (primaryLeft_iff.mp hmore) hagain]
    exact ih

/-- The recovery refuses a text for its being empty, or for a check. -/
theorem recoveryAttempt_osError {raw message : String} (h : recoveryAttempt request raw = .error (.osError message)) :
    strip raw = "" := by
  unfold recoveryAttempt at h
  dsimp only at h
  split at h
  · assumption
  · split at h
    · cases h
    · cases h

theorem recoveryAttempt_nonempty {raw : String}
    (h : ∀ message, recoveryAttempt request raw ≠ .error (.osError message)) : strip raw ≠ "" := by
  intro hempty
  refine h "Bedrock returned an empty conservative answer" ?_
  unfold recoveryAttempt
  dsimp only
  rw [if_pos hempty]

theorem fails_text {n : Nat} {reply : Reply} {raw : String} (hreply : reply.outcome = .text raw)
    (h : ∀ message, recoveryAttempt request raw ≠ .error (.osError message)) : provider.fails n reply = false := by
  unfold BedrockExplanationProvider.fails
  rw [hreply]
  simp [recoveryAttempt_nonempty h]

theorem recoveryStep_note {i : Nat} {c c' : Circuit} {reply : Reply}
    (h : provider.recoveryStep request i c reply = .again c') :
    c' = noteReply provider (provider.maxAttempts.1 + i) c reply := by
  unfold BedrockExplanationProvider.recoveryStep at h
  cases hreply : reply.outcome with
  | text raw =>
    rw [hreply] at h
    dsimp only at h
    cases hattempt : recoveryAttempt request raw with
    | ok text =>
      rw [hattempt] at h
      cases h
    | error error =>
      rw [hattempt] at h
      cases error with
      | osError message =>
        cases h
        rw [noteReply, BedrockExplanationProvider.fails, hreply]
        simp [recoveryAttempt_osError hattempt]
      | grounding error =>
        dsimp only at h
        split at h
        · cases h
        · cases h
          rw [noteReply, fails_text hreply fun message => by rw [hattempt]; simp]
          rfl
  | unavailable type message =>
    rw [hreply] at h
    cases h
    rw [noteReply, BedrockExplanationProvider.fails, hreply]
    rfl
  | raised =>
    rw [hreply] at h
    cases h

theorem recovery_note {i j : Nat} {c c' : Circuit} {repairs : List Reply}
    (h : Refused provider.recoveryLeft (provider.recoveryStep request) i c repairs j c') :
    c' = (provider.attemptEvents (provider.maxAttempts.1 + i) repairs).foldl (note provider) c := by
  induction h with
  | none i s => rfl
  | cons hmore hagain _ ih =>
    rw [note_cons, ← recoveryStep_note hagain]
    exact ih

/-- An attempt that ends the first path leaves the circuit, without failures if it ends well. -/
theorem primaryStep_done {i : Nat} {s : Attempts} {c : Circuit} {ending : Ending} {reply : Reply}
    (hi : i < provider.maxAttempts.1) (h : provider.primaryStep request i s reply = .done (c, ending)) :
    c = (provider.attemptEvents i [reply] ++ BedrockExplanationProvider.successEvents ending).foldl (note provider)
      s.circuit := by
  rw [List.foldl_append, note_cons]
  unfold noteReply BedrockExplanationProvider.fails
  unfold BedrockExplanationProvider.primaryStep at h
  cases hreply : reply.outcome with
  | text raw =>
    rw [hreply] at h
    dsimp only at h
    split at h
    · cases h
      simp [Nat.not_le.mpr hi, BedrockExplanationProvider.successEvents, BedrockExplanationProvider.attemptEvents, note]
    · cases h
  | unavailable type message =>
    rw [hreply] at h
    cases h
  | raised =>
    rw [hreply] at h
    cases h
    rfl

theorem recoveryStep_done {i : Nat} {c c' : Circuit} {ending : Ending} {reply : Reply}
    (h : provider.recoveryStep request i c reply = .done (c', ending)) :
    c' = (provider.attemptEvents (provider.maxAttempts.1 + i) [reply] ++
      BedrockExplanationProvider.successEvents ending).foldl (note provider) c := by
  rw [List.foldl_append, note_cons, noteReply]
  unfold BedrockExplanationProvider.recoveryStep at h
  cases hreply : reply.outcome with
  | text raw =>
    rw [hreply] at h
    dsimp only at h
    cases hattempt : recoveryAttempt request raw with
    | ok text =>
      rw [hattempt] at h
      cases h
      rw [fails_text hreply fun message => by rw [hattempt]; simp]
      rfl
    | error error =>
      rw [hattempt] at h
      cases error with
      | osError message => cases h
      | grounding error =>
        dsimp only at h
        split at h
        · cases h
          rw [fails_text hreply fun message => by rw [hattempt]; simp]
          rfl
        · cases h
  | unavailable type message =>
    rw [hreply] at h
    cases h
  | raised =>
    rw [hreply] at h
    cases h
    rw [BedrockExplanationProvider.fails, hreply]
    rfl

/-- What the recovery leaves of the circuit. -/
theorem recovery_circuit (c : Circuit) :
    (provider.conservativeBedrockAnswer request c tape).circuit =
      (provider.attemptEvents provider.maxAttempts.1
          (taken provider.recoveryLeft (provider.recoveryStep request) 0 c tape) ++
        BedrockExplanationProvider.successEvents (provider.conservativeBedrockAnswer request c tape).ending).foldl
          (note provider) c := by
  unfold BedrockExplanationProvider.conservativeBedrockAnswer
  cases hretry : retry provider.recoveryLeft (provider.recoveryStep request) 0 c tape with
  | done b rest =>
    obtain ⟨c', ending⟩ := b
    obtain ⟨repairs, reply, j, s, htaken, hrefused, -, hdone⟩ := taken_of_done hretry
    have hj : j = repairs.length := by simpa using hrefused.count
    have hc := recoveryStep_done hdone
    rw [recovery_note hrefused, ← List.foldl_append, ← List.append_assoc, Nat.add_zero] at hc
    dsimp only
    rw [htaken, attemptEvents_append, ← hj]
    exact hc
  | waiting c' =>
    obtain ⟨j, hrefused⟩ := taken_of_waiting hretry
    have hc := recovery_note hrefused
    rw [Nat.add_zero] at hc
    rw [List.foldl_append, ← hc]
    rfl
  | exhausted c' rest =>
    obtain ⟨j, hrefused, -⟩ := taken_of_exhausted hretry
    have hc := recovery_note hrefused
    rw [Nat.add_zero] at hc
    rw [List.foldl_append, ← hc]
    rfl

omit [TextTables] in
/-- A fallback is no success of the model's. -/
theorem fallback_events : BedrockExplanationProvider.successEvents (provider.explainByFallback request) = [] := by
  unfold BedrockExplanationProvider.explainByFallback
  cases request.risk with
  | none => rfl
  | some risk => rfl

/-- What a call that was let through leaves of the circuit. -/
theorem let_through_circuit {circuit' : Circuit} (hgate : provider.gate circuit request now = .ok circuit') :
    (provider.explain circuit request now tape).circuit =
      (provider.attemptEvents 0 (provider.asked circuit request now tape) ++
        BedrockExplanationProvider.successEvents (provider.explain circuit request now tape).ending).foldl
          (note provider) circuit' := by
  unfold BedrockExplanationProvider.explain BedrockExplanationProvider.asked
  rw [hgate]
  dsimp only
  cases hretry : retry provider.primaryLeft (provider.primaryStep request) 0 ⟨circuit', false, none⟩ tape with
  | done b rest =>
    obtain ⟨c, ending⟩ := b
    obtain ⟨first, reply, j, s, htaken, hrefused, hmore, hdone⟩ := taken_of_done hretry
    have hj : j = first.length := by simpa using hrefused.count
    have hc := primaryStep_done (primaryLeft_iff.mp hmore) hdone
    rw [primary_note hrefused, ← List.foldl_append, ← List.append_assoc] at hc
    dsimp only
    rw [List.append_nil, htaken, attemptEvents_append, Nat.zero_add, ← hj]
    exact hc
  | waiting s =>
    obtain ⟨j, hrefused⟩ := taken_of_waiting hretry
    dsimp only
    rw [List.append_nil, List.foldl_append, ← primary_note hrefused]
    rfl
  | exhausted s rest =>
    obtain ⟨j, hrefused, hmore⟩ := taken_of_exhausted hretry
    obtain ⟨first, htape, hlength, -, -⟩ := primary_exhausted hretry
    have htaken := taken_rest provider.primaryLeft (provider.primaryStep request) tape 0 ⟨circuit', false, none⟩
    rw [hretry] at htaken
    have hfirst := List.append_cancel_right (htaken.trans htape)
    have hcircuit := primary_note hrefused
    rw [hfirst] at hcircuit ⊢
    dsimp only at hcircuit ⊢
    unfold BedrockExplanationProvider.afterAttempts
    rw [attemptEvents_append, Nat.zero_add, hlength]
    cases hrecover : s.semanticFailure || provider.persistentRetry with
    | true =>
      rw [if_pos rfl, if_pos rfl, List.append_assoc]
      refine (recovery_circuit s.circuit).trans (Eq.trans ?_ List.foldl_append.symm)
      rw [← hcircuit]
    | false =>
      rw [if_neg Bool.false_ne_true, if_neg Bool.false_ne_true]
      split
      · rw [fallback_events]
        simpa [BedrockExplanationProvider.attemptEvents] using hcircuit
      · simpa [BedrockExplanationProvider.attemptEvents, BedrockExplanationProvider.successEvents] using hcircuit

/-! ## What a call takes off the tape -/

/-- What a call takes is the start of the tape. -/
theorem asked_prefix : provider.asked circuit request now tape <+: tape := by
  unfold BedrockExplanationProvider.asked
  cases provider.gate circuit request now with
  | error run => exact List.nil_prefix
  | ok circuit' =>
    have htape := taken_rest provider.primaryLeft (provider.primaryStep request) tape 0 ⟨circuit', false, none⟩
    dsimp only
    cases hretry : retry provider.primaryLeft (provider.primaryStep request) 0 ⟨circuit', false, none⟩ tape with
    | exhausted s rest =>
      rw [hretry] at htape
      dsimp only
      split
      · have hrest := taken_rest provider.recoveryLeft (provider.recoveryStep request) rest 0 s.circuit
        refine ⟨(retry provider.recoveryLeft (provider.recoveryStep request) 0 s.circuit rest).rest, ?_⟩
        rw [List.append_assoc, hrest]
        exact htape
      · rw [List.append_nil]
        exact ⟨_, htape⟩
    | done b rest =>
      rw [List.append_nil]
      exact ⟨_, htape⟩
    | waiting s =>
      rw [List.append_nil]
      exact ⟨_, htape⟩

theorem left_of_refused {pre : List Reply} {j : Nat} {s s' : Attempts}
    (h : Refused provider.primaryLeft (provider.primaryStep request) 0 s pre j s')
    (hmore : provider.primaryLeft j = true) :
    pre.length < provider.maxAttempts.1 ∧ ∀ r ∈ pre, Rejected provider request r ∨ Unavailable r := by
  have hj : j = pre.length := by simpa using h.count
  refine ⟨hj ▸ primaryLeft_iff.mp hmore, fun r hr => ?_⟩
  obtain ⟨before, after, hsplit⟩ := List.append_of_mem hr
  exact (primary_refused_iff.mp ⟨j, s', h⟩ before r after hsplit).2

/-- A call makes an attempt exactly after the replies it goes on after. -/
theorem asked_iff {circuit' : Circuit} (hgate : provider.gate circuit request now = .ok circuit')
    {pre rest : List Reply} {reply : Reply} :
    pre ++ [reply] <+: provider.asked circuit request now (pre ++ reply :: rest) ↔ provider.GoesOn request pre := by
  unfold BedrockExplanationProvider.asked
  rw [hgate]
  dsimp only
  constructor
  · intro h
    cases hretry : retry provider.primaryLeft (provider.primaryStep request) 0 ⟨circuit', false, none⟩
        (pre ++ reply :: rest) with
    | exhausted s left =>
      rw [hretry] at h
      dsimp only at h
      obtain ⟨first, htape, hlength, hrefused, hsemantic⟩ := primary_exhausted hretry
      have htaken := taken_rest provider.primaryLeft (provider.primaryStep request) (pre ++ reply :: rest) 0
        ⟨circuit', false, none⟩
      rw [hretry] at htaken
      rw [List.append_cancel_right (htaken.trans htape)] at h
      -- Either the first path is not over, or it has got all of its replies.
      by_cases hshort : pre.length < provider.maxAttempts.1
      · refine .inl ⟨hshort, fun r hr => hrefused r ?_⟩
        have hpre : pre <+: first := List.prefix_of_prefix_length_le ⟨reply :: rest, htape⟩ ⟨left, rfl⟩ (by omega)
        exact hpre.subset hr
      · obtain ⟨repairs, hrepairs⟩ : first <+: pre :=
          List.prefix_of_prefix_length_le ⟨left, rfl⟩ ⟨reply :: rest, htape⟩ (by omega)
        subst hrepairs
        rw [List.append_assoc, List.prefix_append_right_inj] at h
        rw [List.append_assoc] at htape
        obtain rfl := List.append_cancel_left htape
        split at h
        · rename_i hrecover
          obtain ⟨j, c, hrecovery, hmore⟩ := mem_taken_iff.mp h
          obtain ⟨hretried, hleft⟩ := recovery_went_on hrecovery hmore
          rw [Bool.or_eq_true, hsemantic] at hrecover
          exact .inr ⟨first, repairs, rfl, hlength, hrefused, hrecover.symm, hretried, hleft⟩
        · exact absurd (List.prefix_nil.mp h) (by simp)
    | done b left =>
      rw [hretry, List.append_nil] at h
      obtain ⟨j, s, hrefused, hmore⟩ := mem_taken_iff.mp h
      exact .inl (left_of_refused hrefused hmore)
    | waiting s =>
      rw [hretry, List.append_nil] at h
      obtain ⟨j, s, hrefused, hmore⟩ := mem_taken_iff.mp h
      exact .inl (left_of_refused hrefused hmore)
  · intro h
    rcases h with hfirst | hrecovery
    · obtain ⟨hlength, hrefused⟩ := hfirst
      obtain ⟨s, hpre⟩ := primary_goes_on ⟨circuit', false, none⟩ hlength.le hrefused
      exact (mem_taken_iff.mpr ⟨_, s, hpre, primaryLeft_iff.mpr hlength⟩).trans (List.prefix_append _ _)
    · obtain ⟨first, repairs, rfl, hlength, hrefused, henter, hretried, hleft⟩ := hrecovery
      obtain ⟨s, hexhausted, hsemantic⟩ := @primary_exhausts _ provider circuit' request first
        (repairs ++ reply :: rest) hlength hrefused
      have hrecover : (s.semanticFailure || provider.persistentRetry) = true := by
        rw [Bool.or_eq_true, hsemantic]
        exact henter.symm
      obtain ⟨hmore, c, hpre⟩ := recovery_goes_on s.circuit hretried hleft
      have htaken := taken_rest provider.primaryLeft (provider.primaryStep request)
        (first ++ (repairs ++ reply :: rest)) 0 ⟨circuit', false, none⟩
      rw [hexhausted] at htaken
      rw [List.append_assoc, List.append_assoc, List.append_cancel_right htaken, hexhausted]
      dsimp only
      rw [if_pos hrecover, List.prefix_append_right_inj]
      exact mem_taken_iff.mpr ⟨_, c, hpre, hmore⟩

/-! ## The circuit and the failures that opened it -/

omit [TextTables] in
/-- The gate leaves the circuit or resets it. What it lets through finds the circuit closed, and
what it ends is no success. -/
theorem gate_circuit (provider : BedrockExplanationProvider) (circuit : Circuit) (request : ExplanationRequest)
    (now : Rat) : match provider.gate circuit request now with
    | .ok circuit' => circuit' = (provider.resetEvents circuit request now).foldl (note provider) circuit ∧
        circuit'.openedAt = none
    | .error run => run.circuit = (provider.resetEvents circuit request now).foldl (note provider) circuit ∧
        BedrockExplanationProvider.successEvents run.ending = [] := by
  unfold BedrockExplanationProvider.gate BedrockExplanationProvider.resetEvents
  by_cases hrisk : (provider.allowFallback && request.risk.any fun risk => risk.score.isNone || risk.level.isNone) = true
  · rw [if_pos hrisk, if_pos hrisk]
    exact ⟨rfl, fallback_events⟩
  rw [if_neg hrisk, if_neg hrisk]
  by_cases hhistory : (request.workflow == "explain_history" && request.previousEvidenceDossier.isNone &&
      request.universalEvidence.isNone && provider.allowFallback) = true
  · rw [if_pos hhistory, if_pos hhistory]
    exact ⟨rfl, fallback_events⟩
  rw [if_neg hhistory, if_neg hhistory]
  unfold BedrockExplanationProvider.circuitIsOpen
  -- A closed circuit, one that stays open, and one that is reset.
  cases hopened : circuit.openedAt with
  | none =>
    dsimp only
    by_cases hpayload : BedrockExplanationProvider.hasPayload request = true
    · rw [if_pos hpayload]
      exact ⟨rfl, hopened⟩
    · rw [if_neg hpayload]
      exact ⟨rfl, rfl⟩
  | some openedAt =>
    dsimp only
    by_cases hlate : now - openedAt < provider.resetSeconds
    · rw [if_pos hlate, if_pos hlate]
      dsimp only
      by_cases hfallback : (provider.allowFallback && request.risk.isSome) = true
      · rw [if_pos hfallback]
        exact ⟨rfl, fallback_events⟩
      · rw [if_neg hfallback]
        exact ⟨rfl, rfl⟩
    · rw [if_neg hlate, if_neg hlate]
      dsimp only
      by_cases hpayload : BedrockExplanationProvider.hasPayload request = true
      · rw [if_pos hpayload]
        exact ⟨rfl, rfl⟩
      · rw [if_neg hpayload]
        exact ⟨rfl, rfl⟩

omit [TextTables] in
theorem gate_ok {circuit' : Circuit} (hgate : provider.gate circuit request now = .ok circuit') :
    circuit' = (provider.resetEvents circuit request now).foldl (note provider) circuit ∧ circuit'.openedAt = none := by
  have h := gate_circuit provider circuit request now
  rwa [hgate] at h

omit [TextTables] in
theorem gate_error {run : Run} (hgate : provider.gate circuit request now = .error run) :
    run.circuit = (provider.resetEvents circuit request now).foldl (note provider) circuit ∧
      BedrockExplanationProvider.successEvents run.ending = [] := by
  have h := gate_circuit provider circuit request now
  rwa [hgate] at h

/-- What the events of a call tell of the circuit is what the call leaves. -/
theorem explain_circuit (circuit : Circuit) (call : Call) :
    provider.after circuit call = (provider.callEvents circuit call).foldl (note provider) circuit := by
  unfold BedrockExplanationProvider.after BedrockExplanationProvider.callEvents
  rw [List.foldl_append]
  cases hgate : provider.gate circuit call.request call.now with
  | error run =>
    obtain ⟨hcircuit, hsuccess⟩ := gate_error hgate
    unfold BedrockExplanationProvider.explain BedrockExplanationProvider.asked
    rw [hgate, ← hcircuit]
    dsimp only
    rw [hsuccess]
    rfl
  | ok circuit' =>
    rw [← (gate_ok hgate).1]
    exact let_through_circuit hgate

/-- The circuit as the failures since the last success or reset have it. -/
structure Agrees (provider : BedrockExplanationProvider) (s : Nat × Option Rat) (circuit : Circuit) : Prop where
  count : s.1 = circuit.failures
  closed : circuit.openedAt = none → circuit.failures < provider.failureThreshold.1 ∧ s.2 = none

omit [TextTables] in
theorem Agrees.step {s : Nat × Option Rat} (h : Agrees provider s circuit) (e : Event Rat) :
    Agrees provider (reachStep provider.failureThreshold.1 s e) (note provider circuit e) := by
  obtain ⟨hcount, hclosed⟩ := h
  cases e with
  | called at_ => exact ⟨hcount, hclosed⟩
  | opened at_ => exact ⟨hcount, hclosed⟩
  | succeeded => exact ⟨rfl, fun _ => ⟨provider.failureThreshold.2, rfl⟩⟩
  | reset at_ => exact ⟨rfl, fun _ => ⟨provider.failureThreshold.2, rfl⟩⟩
  | failed at_ =>
    refine ⟨congrArg (· + 1) hcount, fun hnone => ?_⟩
    simp only [note, BedrockExplanationProvider.recordFailure, reachStep, hcount] at hnone ⊢
    by_cases hreached : provider.failureThreshold.1 ≤ circuit.failures + 1
    · rw [if_pos hreached] at hnone
      cases hnone
    · rw [if_neg hreached] at hnone
      rw [if_neg (by omega)]
      exact ⟨by omega, (hclosed hnone).2⟩

omit [TextTables] in
theorem Agrees.run {events : List (Event Rat)} : ∀ {s : Nat × Option Rat} {circuit : Circuit},
    Agrees provider s circuit →
      Agrees provider (events.foldl (reachStep provider.failureThreshold.1) s)
        (events.foldl (note provider) circuit) := by
  induction events with
  | nil => exact fun h => h
  | cons e events ih => exact fun h => ih (h.step e)

/-! ## The calls that hold back -/

/-- Once the threshold is reached, all further attempts have to wait. -/
theorem keepsOff_reached {since : Rat} {replies : List Reply} : ∀ {n count : Nat},
    provider.failureThreshold.1 ≤ count →
      (KeepsOff provider.failureThreshold.1 provider.resetSeconds (count, some since)
          (provider.attemptEvents n replies) ↔ ∀ r ∈ replies, provider.resetSeconds ≤ r.startedAt - since) := by
  induction replies with
  | nil => exact fun _ => ⟨fun _ r hr => (by cases hr), fun _ => trivial⟩
  | cons reply replies ih =>
    intro n count hcount
    rw [BedrockExplanationProvider.attemptEvents, KeepsOff, List.forall_mem_cons]
    have hhere : (∀ now, Event.called reply.startedAt = .called now → ∀ since' : Rat, some since = some since' →
        provider.resetSeconds ≤ now - since') ↔ provider.resetSeconds ≤ reply.startedAt - since := by
      constructor
      · exact fun h => h _ rfl _ rfl
      · intro h now he since' hs
        cases he
        cases hs
        exact h
    refine and_congr hhere ?_
    show KeepsOff _ _ (count, some since) _ ↔ _
    cases provider.fails n reply with
    | false => exact ih hcount
    | true =>
      rw [keepsOff_append, if_pos rfl]
      have hstep : [Event.failed reply.endedAt].foldl (reachStep provider.failureThreshold.1) (count, some since) =
          (count + 1, some since) := by
        simp [reachStep]
        omega
      rw [hstep, ih (by omega)]
      exact and_iff_right ⟨fun _ he => (by cases he), trivial⟩

omit [TextTables] in
/-- Two neighbours of a list that has a first: the first and the second, or two of the rest. -/
theorem forall_neighbours_cons {α : Type} {a : α} {l : List α} {P : List α → α → α → Prop} :
    (∀ before b c later, a :: l = before ++ b :: c :: later → P before b c) ↔
      (∀ c later, l = c :: later → P [] a c) ∧
        ∀ before b c later, l = before ++ b :: c :: later → P (a :: before) b c := by
  constructor
  · intro h
    exact ⟨fun c later hl => h [] a c later (by rw [hl]; rfl),
      fun before b c later hl => h (a :: before) b c later (by rw [hl]; rfl)⟩
  · intro h before b c later hl
    cases before with
    | nil =>
      obtain ⟨rfl, hrest⟩ := List.cons.inj hl
      exact h.1 c later hrest
    | cons a' before =>
      obtain ⟨rfl, hrest⟩ := List.cons.inj hl
      exact h.2 before b c later hrest

/-- The attempts of a call that began below the threshold: the one that follows the failure
    that reaches it has to wait. -/
theorem keepsOff_below {replies : List Reply} : ∀ {n count : Nat}, count < provider.failureThreshold.1 →
    replies.Pairwise (fun a b => a.startedAt ≤ b.startedAt) →
      (KeepsOff provider.failureThreshold.1 provider.resetSeconds (count, none) (provider.attemptEvents n replies) ↔
        ∀ before reply next later, replies = before ++ reply :: next :: later →
          provider.fails (n + before.length) reply = true →
            count + provider.failed n before + 1 = provider.failureThreshold.1 →
              provider.resetSeconds ≤ next.startedAt - reply.endedAt) := by
  induction replies with
  | nil => exact fun _ _ => ⟨fun _ before reply next later h => by simp at h, fun _ => trivial⟩
  | cons first replies ih =>
    intro n count hcount hclock
    obtain ⟨hnext, hclock⟩ := List.pairwise_cons.mp hclock
    rw [BedrockExplanationProvider.attemptEvents, KeepsOff, forall_neighbours_cons,
      and_iff_right (fun _ _ _ hsince => by cases hsince)]
    show KeepsOff _ _ (count, none) _ ↔ _
    cases hfails : provider.fails n first with
    | false =>
      rw [if_neg Bool.false_ne_true, List.nil_append]
      refine (ih hcount hclock).trans (Iff.trans ?_ (and_iff_right fun _ _ _ h => (by cases h)).symm)
      refine forall_congr' fun before => forall_congr' fun reply => forall_congr' fun next =>
        forall_congr' fun later => ?_
      rw [List.length_cons, show n + (before.length + 1) = n + 1 + before.length by omega,
        BedrockExplanationProvider.failed, hfails, if_neg Bool.false_ne_true, Nat.zero_add]
    | true =>
      have hstep : [Event.failed first.endedAt].foldl (reachStep provider.failureThreshold.1) (count, none) =
          (count + 1, if count + 1 = provider.failureThreshold.1 then some first.endedAt else none) := rfl
      rw [if_pos rfl, keepsOff_append, hstep, and_iff_right ⟨fun _ he => (by cases he), trivial⟩]
      by_cases hreached : count + 1 = provider.failureThreshold.1
      · rw [if_pos hreached, keepsOff_reached hreached.ge]
        constructor
        · intro h
          refine ⟨fun next later hl _ _ => h next (by simp [hl]), fun before reply next later _ _ hcount' => ?_⟩
          rw [BedrockExplanationProvider.failed, hfails, if_pos rfl] at hcount'
          omega
        · intro h r hr
          cases hl : replies with
          | nil =>
            rw [hl] at hr
            cases hr
          | cons next later =>
            have hnow := h.1 next later hl rfl hreached
            rw [hl] at hr hclock
            rcases List.mem_cons.mp hr with rfl | hr
            · exact hnow
            · exact hnow.trans (sub_le_sub_right ((List.pairwise_cons.mp hclock).1 r hr) _)
      · rw [if_neg hreached]
        refine (ih (by omega) hclock).trans (Iff.trans ?_ (and_iff_right fun _ _ _ _ h => absurd h hreached).symm)
        refine forall_congr' fun before => forall_congr' fun reply => forall_congr' fun next =>
        forall_congr' fun later => ?_
        rw [List.length_cons, show n + (before.length + 1) = n + 1 + before.length by omega,
          BedrockExplanationProvider.failed, hfails, if_pos rfl,
          show count + (1 + provider.failed (n + 1) before) = count + 1 + provider.failed (n + 1) before by omega]

omit [TextTables] in
theorem keepsOff_of_no_call {events : List (Event Rat)} (h : ∀ e ∈ events, ∀ at_, e ≠ .called at_) :
    ∀ {s : Nat × Option Rat}, KeepsOff provider.failureThreshold.1 provider.resetSeconds s events := by
  induction events with
  | nil => exact fun {_} => trivial
  | cons e events ih =>
    intro s
    exact ⟨fun at_ he => absurd he (h e List.mem_cons_self at_), ih fun e' he' => h e' (List.mem_cons_of_mem _ he')⟩

omit [TextTables] in
theorem resetEvents_no_call : ∀ e ∈ provider.resetEvents circuit request now, ∀ at_, e ≠ .called at_ := by
  intro e he at_ hcalled
  unfold BedrockExplanationProvider.resetEvents at he
  split at he
  · cases he
  · split at he
    · cases he
    · split at he
      · cases he
      · split at he
        · cases he
        · rw [List.mem_singleton.mp he] at hcalled
          cases hcalled

omit [TextTables] in
theorem successEvents_no_call (ending : Ending) :
    ∀ e ∈ BedrockExplanationProvider.successEvents ending, ∀ at_, e ≠ .called at_ := by
  intro e he at_ hcalled
  unfold BedrockExplanationProvider.successEvents at he
  split at he
  · split at he
    · rw [List.mem_singleton.mp he] at hcalled
      cases hcalled
    · cases he
  · cases he

/-- A call keeps off an open circuit exactly if it holds back. -/
theorem call_keepsOff_iff {s : Nat × Option Rat} (hagrees : Agrees provider s circuit) (call : Call)
    (hclock : call.replies.Pairwise fun a b => a.startedAt ≤ b.startedAt) :
    KeepsOff provider.failureThreshold.1 provider.resetSeconds s (provider.callEvents circuit call) ↔
      provider.HoldsBack circuit call := by
  unfold BedrockExplanationProvider.callEvents
  rw [keepsOff_append, keepsOff_append, and_iff_right (keepsOff_of_no_call resetEvents_no_call),
    and_iff_left (keepsOff_of_no_call (successEvents_no_call _))]
  cases hgate : provider.gate circuit call.request call.now with
  | error run =>
    have hnone : provider.asked circuit call.request call.now call.replies = [] := by
      unfold BedrockExplanationProvider.asked
      rw [hgate]
    rw [hnone]
    refine ⟨fun _ circuit' h => ?_, fun _ => trivial⟩
    rw [hgate] at h
    cases h
  | ok circuit' =>
    have hreset : Agrees provider ((provider.resetEvents circuit call.request call.now).foldl
        (reachStep provider.failureThreshold.1) s) circuit' := by
      rw [(gate_ok hgate).1]
      exact hagrees.run
    obtain ⟨hbelow, hnone⟩ := hreset.closed (gate_ok hgate).2
    have hstart : (provider.resetEvents circuit call.request call.now).foldl
        (reachStep provider.failureThreshold.1) s = (circuit'.failures, none) := Prod.ext hreset.count hnone
    have hprefix : provider.asked circuit call.request call.now call.replies <+: call.replies := asked_prefix
    rw [hstart, keepsOff_below hbelow (hclock.sublist hprefix.sublist)]
    constructor
    · intro h c hc before reply next later hreplies hgoes hfails hcount
      rw [hgate] at hc
      cases hc
      have hreplies' : call.replies = (before ++ [reply]) ++ next :: later := by rw [hreplies]; simp
      rw [hreplies'] at h
      obtain ⟨rest, hasked⟩ := (asked_iff hgate).mpr hgoes
      refine h before reply next rest ?_ (by rwa [Nat.zero_add]) hcount
      rw [← hasked]
      simp
    · intro h before reply next later hasked hfails hcount
      obtain ⟨rest, hreplies⟩ := hprefix
      have hsplit : call.replies = (before ++ [reply]) ++ next :: (later ++ rest) := by
        rw [← hreplies, hasked]
        simp
      refine h circuit' hgate before reply next (later ++ rest) (by rw [hsplit]; simp) ?_
        (by rwa [Nat.zero_add] at hfails) hcount
      have hgoes : (before ++ [reply]) ++ [next] <+: provider.asked circuit call.request call.now
          ((before ++ [reply]) ++ next :: (later ++ rest)) := by
        rw [← hsplit, hasked]
        exact ⟨later, by simp⟩
      exact (asked_iff hgate).mp hgoes

theorem trace_keepsOff_iff {calls : List Call}
    (hclock : ∀ call ∈ calls, call.replies.Pairwise fun a b => a.startedAt ≤ b.startedAt) :
    ∀ {s : Nat × Option Rat} {circuit : Circuit}, Agrees provider s circuit →
      (KeepsOff provider.failureThreshold.1 provider.resetSeconds s (provider.traceFrom circuit calls) ↔
        ∀ earlier call later, calls = earlier ++ call :: later →
          provider.HoldsBack (earlier.foldl provider.after circuit) call) := by
  induction calls with
  | nil => exact fun _ => ⟨fun _ earlier call later h => by simp at h, fun _ => trivial⟩
  | cons call calls ih =>
    intro s circuit hagrees
    have hnext : Agrees provider ((provider.callEvents circuit call).foldl
        (reachStep provider.failureThreshold.1) s) (provider.after circuit call) := by
      rw [explain_circuit]
      exact hagrees.run
    rw [BedrockExplanationProvider.traceFrom, keepsOff_append,
      call_keepsOff_iff hagrees call (hclock call List.mem_cons_self),
      ih (fun c hc => hclock c (List.mem_cons_of_mem _ hc)) hnext]
    constructor
    · intro h earlier c later hsplit
      cases earlier with
      | nil =>
        obtain ⟨rfl, -⟩ := List.cons.inj hsplit
        exact h.1
      | cons first earlier =>
        obtain ⟨rfl, hrest⟩ := List.cons.inj hsplit
        exact h.2 earlier c later hrest
    · intro h
      exact ⟨h [] call calls rfl, fun earlier c later hsplit => h (call :: earlier) c later (by rw [hsplit]; rfl)⟩

/-- In a run no invocation starts while the circuit is open exactly if every call holds back. -/
theorem never_called_open_iff (provider : BedrockExplanationProvider) (calls : List Call)
    (hclock : ∀ call ∈ calls, call.replies.Pairwise fun a b => a.startedAt ≤ b.startedAt) :
    NeverCalledOpen provider.failureThreshold.1 provider.resetSeconds (provider.trace calls) ↔
      ∀ earlier call later, calls = earlier ++ call :: later →
        provider.HoldsBack (earlier.foldl provider.after ⟨0, none⟩) call := by
  have hfresh : Agrees provider (0, none) ⟨0, none⟩ := ⟨rfl, fun _ => ⟨provider.failureThreshold.2, rfl⟩⟩
  rw [neverCalledOpen_iff]
  exact trace_keepsOff_iff hclock hfresh

end

/-! ## Calls that hold back, and one that does not -/

/-- A provider whose first failure opens the circuit, and that asks once. -/
def oneTryProvider : BedrockExplanationProvider :=
  { onceProvider with failureThreshold := ⟨1, Nat.zero_lt_one⟩ }

/-- The model times out. -/
def oneTimeout (now : Rat) : Call := ⟨taskRequest, now, [⟨now, now + 8, .unavailable "TimeoutError" ""⟩]⟩

theorem never_called_open_one_try : letI := TextTables.ascii
    NeverCalledOpen 1 30 (oneTryProvider.trace [oneTimeout 0, oneTimeout 9, oneTimeout 60]) := by
  let _ := TextTables.ascii
  have hclock : ∀ call ∈ [oneTimeout 0, oneTimeout 9, oneTimeout 60],
      call.replies.Pairwise fun a b => a.startedAt ≤ b.startedAt := by
    intro call hcall
    simp only [List.mem_cons, List.not_mem_nil, or_false] at hcall
    rcases hcall with rfl | rfl | rfl <;> exact List.pairwise_singleton _ _
  refine (never_called_open_iff oneTryProvider _ hclock).mpr fun earlier call later hcalls => ?_
  have hmem : call ∈ [oneTimeout 0, oneTimeout 9, oneTimeout 60] := by simp [hcalls]
  have hone : call.replies.length = 1 := by
    simp only [List.mem_cons, List.not_mem_nil, or_false] at hmem
    rcases hmem with rfl | rfl | rfl <;> rfl
  -- A call that asks once has no attempt after a failure.
  intro _ _ before reply next rest hreplies
  have hlength := congrArg List.length hreplies
  rw [hone, List.length_append, List.length_cons, List.length_cons] at hlength
  omega

/-- A provider whose first failure opens the circuit, and that asks twice. -/
def twiceProvider : BedrockExplanationProvider :=
  { onceProvider with maxAttempts := ⟨2, Nat.zero_lt_two⟩, failureThreshold := ⟨1, Nat.zero_lt_one⟩ }

/-- The model times out, and times out again. -/
def twoTimeouts : Call :=
  ⟨taskRequest, 0, [⟨0, 8, .unavailable "TimeoutError" ""⟩, ⟨9, 17, .unavailable "TimeoutError" ""⟩]⟩

theorem two_timeouts_call_open : letI := TextTables.ascii
    ¬ NeverCalledOpen 1 30 (twiceProvider.trace [twoTimeouts]) := by
  let _ := TextTables.ascii
  intro h
  have htrace : twiceProvider.trace [twoTimeouts] =
      [.called 0, .failed 8] ++ .called 9 :: [.failed 17] := by rfl
  have hwaits : (30 : Rat) ≤ 9 - 8 := h [.called 0, .failed 8] 9 [.failed 17] htrace 8 rfl
  norm_num at hwaits

end WorkforceRisk.Llm
