/-
  WorkforceRisk.Proposals.Records — the values proposals are made from and the rows they
  are stored in (domain/workforce_risk/proposals/models.py, execution.py,
  reconciliation.py; packages/persistence/src/workforce_persistence/models.py).

  A command or a simulation carries the proof of what its model validates, so one that
  pydantic refuses cannot be built. A stored simulation's row is its id and the
  simulation: `SimulationRepository` writes every column from one and reads one back.
  A row's `result` payload keeps the keys the code reads; a key that is not there reads
  as `none`.
-/

import WorkforceRisk.Lib.Table
import WorkforceRisk.Persistence.Audit
import WorkforceRisk.Persistence.Outbox
import WorkforceRisk.Proposals.State
import WorkforceRisk.Risk.Models

namespace WorkforceRisk.Proposals

open Lib Persistence

/-! ## Commands -/

structure StoredSimulation where
  simulationId : String
  environment : Environment
  projectKey : String
  taskId : String
  currentAssigneeId : String
  proposedAssigneeId : String
  candidateIds : List String
  confidence : Risk.ConfidenceLevel
  evidenceFingerprint : String
  scoringModelVersions : List String
  simulatedAt : DateTime
  safePayload : Json
  projectKey_ok : isProjectKey projectKey = true
  fingerprint_length : evidenceFingerprint.length = 64
  changesAssignee : currentAssigneeId ≠ proposedAssigneeId
  candidate : proposedAssigneeId ∈ candidateIds
  confident : confidence = .medium ∨ confidence = .high
  deriving DecidableEq

/-- `Field(min_length=8, max_length=128)` of the idempotency keys. -/
def isIdempotencyKey (s : String) : Prop := 8 ≤ s.length ∧ s.length ≤ 128

instance (s : String) : Decidable (isIdempotencyKey s) := inferInstanceAs (Decidable (_ ∧ _))

structure ProposalCreateCommand where
  simulation : StoredSimulation
  idempotencyKey : String
  expiresAt : DateTime
  requestedAt : DateTime
  key_ok : isIdempotencyKey idempotencyKey
  expiryAhead : requestedAt < expiresAt

inductive Decision where
  | approve
  | reject
  deriving DecidableEq, Repr

structure ProposalDecisionCommand where
  proposalId : Uuid
  expectedVersion : Nat
  decision : Decision
  idempotencyKey : String
  currentEvidenceFingerprint : String
  decidedAt : DateTime
  version_ok : 1 ≤ expectedVersion
  key_ok : isIdempotencyKey idempotencyKey
  fingerprint_length : currentEvidenceFingerprint.length = 64

inductive ActorRole where
  | manager
  | administrator
  deriving DecidableEq, Repr

def ActorRole.value : ActorRole → String
  | .manager => "manager"
  | .administrator => "administrator"

structure ProposalActor where
  actorId : String
  role : ActorRole
  environment : Environment
  projectScopes : List String
  correlationId : String

def isExpired (expiresAt now : DateTime) : Bool := decide (expiresAt ≤ now)

structure ExecutionClaim where
  executionId : Uuid
  proposalId : Uuid
  environment : Environment
  projectKey : String
  issueKey : String
  expectedAssigneeId : String
  proposedAssigneeId : String
  idempotencyKey : String
  correlationId : String
  deriving DecidableEq

structure ExecutionResult where
  executionId : Uuid
  proposalId : Uuid
  state : ProposalState
  correlationId : String
  observedAssigneeId : Option String
  safeErrorCode : Option String
  deriving DecidableEq

structure ReconciliationClaim where
  executionId : Uuid
  proposalId : Uuid
  issueKey : String
  expectedAssigneeId : String
  proposedAssigneeId : String
  correlationId : String
  writeAttempted : Bool
  deriving DecidableEq

/-! ## Rows -/

structure ReassignmentSimulation where
  id : Uuid
  simulation : StoredSimulation

instance : Keyed ReassignmentSimulation :=
  .byIdAnd (·.id) fun r => (r.simulation.environment, r.simulation.simulationId)

structure ReassignmentProposal where
  id : Uuid
  environment : Environment
  createdAt : DateTime
  simulationId : String
  projectKey : String
  taskKey : String
  expectedAssignee : String
  proposedAssignee : String
  state : ProposalState
  idempotencyKey : String
  evidenceFingerprint : String
  confidence : Risk.ConfidenceLevel
  scoringVersions : List String
  simulationPayload : Json
  requestedBy : String
  expiresAt : DateTime
  version : Nat

instance : Keyed ReassignmentProposal := .byIdAnd (·.id) fun p => (p.environment, p.idempotencyKey)

structure ApprovalDecision where
  id : Uuid
  environment : Environment
  createdAt : DateTime
  proposalId : Uuid
  actorId : String
  decision : Decision
  correlationId : String
  idempotencyKey : String
  deriving DecidableEq

instance : Keyed ApprovalDecision := .byIdAnd (·.id) fun d => (d.environment, d.idempotencyKey)

structure ResultPayload where
  observedAssigneeId : Option String
  safeErrorCode : Option String
  writeAttempted : Bool
  deriving DecidableEq

structure ProposalExecution where
  id : Uuid
  environment : Environment
  createdAt : DateTime
  proposalId : Uuid
  state : ProposalState
  externalCorrelationId : Option String
  result : Option ResultPayload
  writeAttempted : Bool
  leaseOwner : Option String
  leasedAt : Option DateTime
  deriving DecidableEq

instance : Keyed ProposalExecution := .byIdAnd (·.id) fun e => (e.environment, e.proposalId)

structure Db where
  simulations : Table ReassignmentSimulation
  proposals : Table ReassignmentProposal
  decisions : Table ApprovalDecision
  executions : Table ProposalExecution
  audit : Table AuditEvent
  outbox : Table OutboxEvent

/-- What a transaction draws: the ids of the rows it adds, its clock, and the executions
    other transactions hold locks on. -/
structure Draws where
  rowId : Uuid
  auditId : Uuid
  outboxId : Uuid
  now : DateTime
  locked : List Uuid

def Db.empty : Db := ⟨.empty, .empty, .empty, .empty, .empty, .empty⟩

/-- The proposal in state `s`, its version `n` further. -/
def ReassignmentProposal.moved (s : ProposalState) (n : Nat) (p : ReassignmentProposal) : ReassignmentProposal :=
  { p with state := s, version := p.version + n }

theorem ReassignmentProposal.moved_key {s : ProposalState} {n : Nat} (p : ReassignmentProposal) :
    Keyed.key (p.moved s n) = Keyed.key p := rfl

theorem ReassignmentProposal.next_key (s : ProposalState) (p : ReassignmentProposal) :
    Keyed.key (p.moved s 1) = Keyed.key p := p.moved_key

/-! ## What the constraints give -/

theorem proposal_eq_of_id {db : Db} {p q : ReassignmentProposal} (hp : p ∈ db.proposals.rows)
    (hq : q ∈ db.proposals.rows) (h : p.id = q.id) : p = q :=
  db.proposals.eq_of_clashes hp hq (clashes_byIdAnd.mpr (Or.inl h))

theorem execution_eq_of_id {db : Db} {e f : ProposalExecution} (he : e ∈ db.executions.rows)
    (hf : f ∈ db.executions.rows) (h : e.id = f.id) : e = f :=
  db.executions.eq_of_clashes he hf (clashes_byIdAnd.mpr (Or.inl h))

/-- A proposal has one execution in an environment. -/
theorem execution_eq_of_proposal {db : Db} {e f : ProposalExecution} (he : e ∈ db.executions.rows)
    (hf : f ∈ db.executions.rows) (hn : e.environment = f.environment) (h : e.proposalId = f.proposalId) : e = f :=
  db.executions.eq_of_clashes he hf (clashes_byIdAnd.mpr (Or.inr (by rw [hn, h])))

end WorkforceRisk.Proposals
