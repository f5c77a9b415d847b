/-
  WorkforceRisk.Proposals.State — the life of a reassignment proposal
  (domain/workforce_risk/proposals/state.py).

  A terminal state has no transition out of it (`terminal_no_transition`), and the states
  in which a write to Jira may be under way or done are reached only through `executing`.
-/

import WorkforceRisk.Persistence.Values

namespace WorkforceRisk.Proposals

open Persistence

inductive ProposalState where
  | pending
  | approved
  | executing
  | executedVerified
  | executionFailed
  | uncertain
  | rejected
  | expired
  | stale
  deriving DecidableEq, Repr

namespace ProposalState

def value : ProposalState → String
  | pending => "pending"
  | approved => "approved"
  | executing => "executing"
  | executedVerified => "executed_verified"
  | executionFailed => "execution_failed"
  | uncertain => "uncertain"
  | rejected => "rejected"
  | expired => "expired"
  | stale => "stale"

/-- `TERMINAL_STATES`. -/
def terminalStates : List ProposalState := [executedVerified, executionFailed, rejected, expired, stale]

/-- `ALLOWED_TRANSITIONS.get(current, set())`. -/
def allowedTransitions : ProposalState → List ProposalState
  | pending => [executing, rejected, expired, stale]
  | executing => [executedVerified, executionFailed, uncertain, stale]
  | uncertain => [executedVerified, executionFailed]
  | _ => []

theorem terminal_no_transition {s : ProposalState} (h : s ∈ terminalStates) : allowedTransitions s = [] := by
  revert h
  cases s <;> decide

end ProposalState

open ProposalState (allowedTransitions)

def illegalTransition (current target : ProposalState) : Error :=
  .valueError ("illegal proposal transition: " ++ current.value ++ " -> " ++ target.value)

def validateTransition (current target : ProposalState) : Except Error Unit :=
  if target ∈ allowedTransitions current then .ok () else .error (illegalTransition current target)

/-- A message with another first letter is another error. -/
theorem illegalTransition_ne {current target : ProposalState} {message : String}
    (h : message.toList.head? ≠ some 'i') : Error.valueError message ≠ illegalTransition current target := by
  intro e
  apply h
  rw [Error.valueError.inj e]
  simp [String.toList_append]

theorem validateTransition_ok {current target : ProposalState} :
    validateTransition current target = .ok () ↔ target ∈ allowedTransitions current := by
  unfold validateTransition
  split
  · exact ⟨fun _ => ‹_›, fun _ => rfl⟩
  · exact ⟨fun h => (nomatch h), fun h => absurd h ‹_›⟩

end WorkforceRisk.Proposals
