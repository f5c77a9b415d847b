/-
  WorkforceRisk.Proposals.Operations — the repositories and stores as one system.

  A world is the database with the log of what has happened, newest first: each committed
  transaction with its result and the databases before and after, and each call of a Jira
  tool. A transaction runs on the current database, with its lookups without a lock on
  any earlier one (`asOf`). A claim is given to a store only after that store's `prepare`
  or lease has issued it, with the outcomes the services can produce (`Issued`); nothing
  else restricts the order of the steps of `Reach`.

  `Effect` says once what a transaction can do to proposals, executions and decisions;
  `run_effect` is that every operation does one of these.
-/

import WorkforceRisk.Jira.Mutation
import WorkforceRisk.Proposals.ExecutionStore
import WorkforceRisk.Proposals.Repository

namespace WorkforceRisk.Proposals

open Lib Persistence Jira DatabaseExecutionStore

inductive Op where
  | persistSimulation (simulation : StoredSimulation)
  | create (command : ProposalCreateCommand) (actor : ProposalActor)
  | createFromStoredSimulation (simulationId idempotencyKey : String) (expiresAt requestedAt : DateTime)
      (actor : ProposalActor)
  | decide (command : ProposalDecisionCommand) (actor : ProposalActor)
  | getAuthorized (proposalId : Uuid) (actor : ProposalActor)
  | prepare (environment : Environment) (proposalId : Uuid) (correlationId : String)
  | markWriteAttempted (environment : Environment) (claim : ExecutionClaim)
  | finalize (environment : Environment) (claim : ExecutionClaim) (result : ExecutionResult)
  | leaseAbandoned (store : DatabaseReconciliationStore) (workerId : String) (limit : Nat)
  | leaseProposal (store : DatabaseReconciliationStore) (proposalId : Uuid) (workerId : String)
  | resolve (store : DatabaseReconciliationStore) (claim : ReconciliationClaim) (state : ProposalState)
      (evidence : ResultPayload)

namespace Op

@[reducible] def Result : Op → Type
  | persistSimulation .. => StoredSimulation
  | create .. => StoredProposal
  | createFromStoredSimulation .. => StoredProposal
  | decide .. => StoredProposal
  | getAuthorized .. => Option StoredProposal
  | prepare .. => Prepared
  | markWriteAttempted .. => Unit
  | finalize .. => ExecutionResult
  | leaseAbandoned .. => List ReconciliationClaim
  | leaseProposal .. => Option ReconciliationClaim
  | resolve .. => Unit

/-- The execution, the proposal and the state an outcome is stored for. -/
def settles : Op → Option (Uuid × Uuid × ProposalState)
  | finalize _ claim result => some (claim.executionId, claim.proposalId, result.state)
  | resolve _ claim state _ => some (claim.executionId, claim.proposalId, state)
  | _ => none

variable [Sha256]

def run (draws : Draws) (seen db : Db) : (op : Op) → Except Error (op.Result × Db)
  | persistSimulation simulation => SimulationRepository.persist draws simulation seen db
  | create command actor => ProposalRepository.create draws command actor seen db
  | createFromStoredSimulation simulationId key expiresAt requestedAt actor =>
    ProposalRepository.createFromStoredSimulation draws simulationId key expiresAt requestedAt actor seen db
  | decide command actor => ProposalRepository.decide draws command actor seen db
  | getAuthorized proposalId actor => .ok (ProposalRepository.getAuthorized proposalId actor db, db)
  | prepare environment proposalId correlationId =>
    DatabaseExecutionStore.prepare environment draws proposalId correlationId seen db
  | markWriteAttempted environment claim => DatabaseExecutionStore.markWriteAttempted environment claim db
  | finalize environment claim result => DatabaseExecutionStore.finalize environment draws claim result db
  | leaseAbandoned store workerId limit => .ok (store.leaseAbandoned draws workerId limit db)
  | leaseProposal store proposalId workerId => .ok (store.leaseProposal draws proposalId workerId db)
  | resolve store claim state evidence => store.resolve draws claim state evidence db

end Op

/-! ## What a transaction can do -/

/-- An outcome in state `s` changes no key of an execution's row, and not whether a write
    has been attempted. -/
structure Outcome (s : ProposalState) (change : ProposalExecution → ProposalExecution) : Prop where
  key : ∀ e, Keyed.key (change e) = Keyed.key e
  state : ∀ e, (change e).state = s
  writeAttempted : ∀ e, (change e).writeAttempted = e.writeAttempted

inductive Effect : Op → Db → Db → Prop where
  | quiet {op : Op} {db db' : Db} : db'.proposals = db.proposals → db'.executions = db.executions →
      db'.decisions = db.decisions → Effect op db db'
  | created {op : Op} {db db' : Db} {p : ReassignmentProposal} : db.proposals.insert p = some db'.proposals →
      p.state = .pending → db'.executions = db.executions → db'.decisions = db.decisions → Effect op db db'
  | decided {draws : Draws} {command : ProposalDecisionCommand} {actor : ProposalActor} {db db' : Db}
      {p : ReassignmentProposal} : p ∈ db.proposals.rows → p.id = command.proposalId →
      p.environment = actor.environment → p.projectKey ∈ actor.projectScopes → p.state = .pending →
      db'.proposals = db.proposals.update (·.id == p.id)
        (·.moved (ProposalRepository.decisionTarget p command) 2) (fun _ => rfl) →
      db'.executions = db.executions →
      db.decisions.insert (ProposalRepository.newDecision draws command actor p) = some db'.decisions →
      Effect (.decide command actor) db db'
  | prepared {environment : Environment} {draws : Draws} {correlationId : String} {db db' : Db}
      {p : ReassignmentProposal} : p ∈ db.proposals.rows → p.environment = environment → p.state = .executing →
      db'.proposals = db.proposals →
      db.executions.insert (newExecution environment draws p correlationId) = some db'.executions →
      db'.decisions = db.decisions → Effect (.prepare environment p.id correlationId) db db'
  | attempted {environment : Environment} {claim : ExecutionClaim} {db db' : Db} {e : ProposalExecution} :
      e ∈ db.executions.rows → e.id = claim.executionId → e.environment = environment → e.state = .executing →
      db'.proposals = db.proposals →
      db'.executions = db.executions.update (·.id == e.id) DatabaseExecutionStore.attempted (fun _ => rfl) →
      db'.decisions = db.decisions → Effect (.markWriteAttempted environment claim) db db'
  | leased {op : Op} {db db' : Db} (ids : List Uuid) (workerId : String) (now : DateTime) : op.settles = none →
      db'.proposals = db.proposals →
      db'.executions = db.executions.update (fun e => ids.contains e.id)
        (DatabaseReconciliationStore.leased workerId now) (fun _ => rfl) →
      db'.decisions = db.decisions → Effect op db db'
  | settled {op : Op} {db db' : Db} {e : ProposalExecution} {p : ReassignmentProposal} {s : ProposalState}
      {change : ProposalExecution → ProposalExecution} (hc : Outcome s change) : e ∈ db.executions.rows →
      p ∈ db.proposals.rows → op.settles = some (e.id, p.id, s) →
      DatabaseReconciliationStore.isActive e.state = true → s ∈ p.state.allowedTransitions →
      db'.proposals = db.proposals.update (·.id == p.id) (·.moved s 1) ReassignmentProposal.moved_key →
      db'.executions = db.executions.update (·.id == e.id) change hc.key →
      db'.decisions = db.decisions → Effect op db db'

section
variable [Sha256] {draws : Draws} {seen db db' : Db}

theorem create_effect {op : Op} {command : ProposalCreateCommand} {actor : ProposalActor} {v : StoredProposal}
    (h : ProposalRepository.create draws command actor seen db = .ok (v, db')) : Effect op db db' := by
  obtain ⟨_, _, ⟨_, _, _, rfl⟩ | ⟨_, _, _, _, hi, rfl⟩⟩ := ProposalRepository.create_cases h
  · exact .quiet rfl rfl rfl
  · exact .created hi rfl rfl rfl

theorem run_effect (op : Op) {r : op.Result} (h : op.run draws seen db = .ok (r, db')) : Effect op db db' := by
  cases op with
  | persistSimulation simulation =>
    obtain ⟨_, rfl | ⟨_, _, rfl⟩⟩ := SimulationRepository.persist_cases h
    · exact .quiet rfl rfl rfl
    · exact .quiet rfl rfl rfl
  | create command actor => exact create_effect h
  | createFromStoredSimulation simulationId key expiresAt requestedAt actor =>
    obtain ⟨_, _, _, _, h⟩ := ProposalRepository.createFromStoredSimulation_cases h
    exact create_effect h
  | decide command actor =>
    obtain ⟨_, _, _, _, _, _, rfl⟩ | ⟨_, p, hp, hid, henv, hscope, _, hs, _, _, _, hd, rfl⟩ :=
      ProposalRepository.decide_cases h
    · exact .quiet rfl rfl rfl
    · exact .decided hp hid henv hscope hs rfl rfl hd
  | getAuthorized proposalId actor =>
    cases h
    exact .quiet rfl rfl rfl
  | prepare environment proposalId correlationId =>
    obtain ⟨_, _, _, rfl⟩ | ⟨_, p, hp, rfl, henv, hs, _, _, _, hi, _, rfl⟩ := prepare_cases h
    · exact .quiet rfl rfl rfl
    · exact .prepared hp henv hs rfl hi rfl
  | markWriteAttempted environment claim =>
    obtain ⟨e, he, hid, henv, hs, rfl⟩ := markWriteAttempted_cases h
    exact .attempted he hid henv hs rfl rfl rfl
  | finalize environment claim result =>
    obtain ⟨e, he, p, hp, hid, _, hpid, ⟨_, rfl⟩ | ⟨hs, ht, _, _, rfl⟩⟩ := finalize_cases h
    · exact .quiet rfl rfl rfl
    · have hc : Outcome result.state (finalized result) := ⟨fun _ => rfl, fun _ => rfl, fun _ => rfl⟩
      refine .settled hc he hp ?_ (by rw [hs]; rfl) ht rfl rfl rfl
      rw [Op.settles, hid, hpid]
  | leaseAbandoned store workerId limit =>
    cases h
    exact .leased _ _ _ rfl rfl rfl rfl
  | leaseProposal store proposalId workerId =>
    have h := Except.ok.inj h
    obtain hn | ⟨claim, _, _, hl⟩ := DatabaseReconciliationStore.leaseProposal_cases store draws proposalId workerId db
    · cases hn.symm.trans h
      exact .quiet rfl rfl rfl
    · cases hl.symm.trans h
      exact .leased _ _ _ rfl rfl rfl rfl
  | resolve store claim state evidence =>
    obtain ⟨e, he, p, hp, hid, _, hpid, ⟨_, rfl⟩ | ⟨_, ha, ht, _, _, rfl⟩⟩ :=
      DatabaseReconciliationStore.resolve_cases h
    · exact .quiet rfl rfl rfl
    · have hc : Outcome state (DatabaseReconciliationStore.reconciled state evidence) :=
        ⟨fun _ => rfl, fun _ => rfl, fun _ => rfl⟩
      refine .settled hc he hp ?_ ha ht rfl rfl rfl
      rw [Op.settles, hid, hpid]

end

/-! ## Worlds -/

/-- A committed transaction, and the call that made it, if a service's did. -/
structure Event where
  call : Option Nat
  op : Op
  result : op.Result
  before : Db
  after : Db

namespace Event

/-- The claim `prepare` issued. -/
def claim? (event : Event) : Option ExecutionClaim :=
  match event.op, event.result with
  | .prepare .., .claim c => some c
  | _, _ => none

/-- The claims a lease issued. -/
def leases (event : Event) : List ReconciliationClaim :=
  match event.op, event.result with
  | .leaseAbandoned .., claims => claims
  | .leaseProposal .., claim => claim.toList
  | _, _ => []

/-- The execution and the proposal of each claim issued. -/
def issued (event : Event) : List (Uuid × Uuid) :=
  event.claim?.toList.map (fun c => (c.executionId, c.proposalId)) ++
    event.leases.map fun c => (c.executionId, c.proposalId)

end Event

inductive Entry where
  | committed (event : Event)
  | called (call : Nat) (tool : ToolCall) (proposalId : Option Uuid)

structure World where
  db : Db
  log : List Entry

namespace World

def init : World := ⟨.empty, []⟩

def events (w : World) : List Event :=
  w.log.filterMap fun
    | .committed event => some event
    | .called .. => none

/-- The database `n` commits ago. -/
def asOf (w : World) : Nat → Db
  | 0 => w.db
  | n + 1 => ((w.events[n]?).map (·.before)).getD w.db

/-- The databases of the run. -/
def history (w : World) : List Db := w.db :: w.events.map (·.before)

def commit (w : World) (call : Option Nat) (op : Op) (r : op.Result) (db : Db) : World :=
  ⟨db, .committed ⟨call, op, r, w.db, db⟩ :: w.log⟩

def called (w : World) (call : Nat) (tool : ToolCall) (proposalId : Option Uuid) : World :=
  ⟨w.db, .called call tool proposalId :: w.log⟩

@[simp] theorem commit_events (w : World) (call : Option Nat) (op : Op) (r : op.Result) (db : Db) :
    (w.commit call op r db).events = ⟨call, op, r, w.db, db⟩ :: w.events := rfl

theorem commit_grows (w : World) (call : Option Nat) (op : Op) (r : op.Result) (db : Db) :
    ∀ event ∈ w.events, event ∈ (w.commit call op r db).events := fun _ he => List.mem_cons_of_mem _ he

@[simp] theorem commit_history (w : World) (call : Option Nat) (op : Op) (r : op.Result) (db : Db) :
    (w.commit call op r db).history = db :: w.history := rfl

theorem db_mem_history (w : World) : w.db ∈ w.history := List.mem_cons_self

theorem asOf_mem_history (w : World) (n : Nat) : w.asOf n ∈ w.history := by
  cases n with
  | zero => exact w.db_mem_history
  | succ n =>
    simp only [asOf]
    cases he : w.events[n]? with
    | none => exact w.db_mem_history
    | some event => exact List.mem_cons_of_mem _ (List.mem_map_of_mem (List.mem_of_getElem? he))

end World

/-- The states of a receipt's outcomes. -/
def outcomeStates : List ProposalState := [.executedVerified, .executionFailed, .uncertain, .stale]

/-- The states a reconciliation concludes. -/
def reconciledStates : List ProposalState := [.executedVerified, .executionFailed, .uncertain]

/-- A claim comes from the log, and what is done with it is what the services do. -/
def Op.Issued (w : World) : Op → Prop
  | .markWriteAttempted _ claim => ∃ event ∈ w.events, event.claim? = some claim
  | .finalize _ claim result => (∃ event ∈ w.events, event.claim? = some claim) ∧ result.state ∈ outcomeStates
  | .resolve _ claim state _ => (∃ event ∈ w.events, claim ∈ event.leases) ∧ state ∈ reconciledStates
  | _ => True

instance (w : World) : (op : Op) → Decidable (op.Issued w)
  | .markWriteAttempted _ claim => inferInstanceAs (Decidable (∃ event ∈ w.events, event.claim? = some claim))
  | .finalize .. => inferInstanceAs (Decidable (_ ∧ _))
  | .resolve .. => inferInstanceAs (Decidable (_ ∧ _))
  | .persistSimulation _ | .create .. | .createFromStoredSimulation .. | .decide .. | .getAuthorized .. | .prepare .. |
    .leaseAbandoned .. | .leaseProposal .. => isTrue trivial

theorem issued_of_settles {w : World} {op : Op} {executionId proposalId : Uuid} {s : ProposalState}
    (h : op.Issued w) (hs : op.settles = some (executionId, proposalId, s)) :
    ∃ event ∈ w.events, (executionId, proposalId) ∈ event.issued := by
  cases op with
  | finalize environment claim result =>
    cases hs
    obtain ⟨⟨event, he, hc⟩, _⟩ := h
    exact ⟨event, he, List.mem_append_left _
      (List.mem_map.mpr ⟨claim, by rw [hc]; exact List.mem_singleton_self _, rfl⟩)⟩
  | resolve store claim state evidence =>
    cases hs
    obtain ⟨⟨event, he, hc⟩, _⟩ := h
    exact ⟨event, he, List.mem_append_right _ (List.mem_map.mpr ⟨claim, hc, rfl⟩)⟩
  | _ => cases hs

variable [Sha256]

/-- The worlds of the runs from an empty database. -/
inductive Reach : World → Prop where
  | init : Reach .init
  | commit {w : World} {op : Op} {draws : Draws} {n : Nat} {r : op.Result} {db : Db} (call : Option Nat) : Reach w →
      op.Issued w → op.run draws (w.asOf n) w.db = .ok (r, db) → Reach (w.commit call op r db)
  | called {w : World} (call : Nat) (tool : ToolCall) (proposalId : Option Uuid) : Reach w →
      Reach (w.called call tool proposalId)

/-- A transaction of a run: what it draws, and how many commits ago it looked. -/
structure Step where
  op : Op
  draws : Draws
  seen : Nat := 0

def World.step (w : World) (s : Step) : Option World :=
  if s.op.Issued w then
    match s.op.run s.draws (w.asOf s.seen) w.db with
    | .ok (r, db) => some (w.commit none s.op r db)
    | .error _ => none
  else none

def World.run : World → List Step → Option World
  | w, [] => some w
  | w, s :: steps => (w.step s).bind (·.run steps)

theorem step_reach {w w' : World} {s : Step} (h : Reach w) (hs : w.step s = some w') : Reach w' := by
  unfold World.step at hs
  split at hs
  · rename_i hi
    split at hs
    · rename_i hr
      cases hs
      exact .commit none h hi hr
    · cases hs
  · cases hs

theorem run_reach {steps : List Step} : ∀ {w w' : World}, Reach w → w.run steps = some w' → Reach w' := by
  induction steps with
  | nil =>
    intro w w' h hr
    cases hr
    exact h
  | cons s steps ih =>
    intro w w' h hr
    obtain ⟨w₁, h₁, h₂⟩ := Option.bind_eq_some_iff.mp hr
    exact ih (step_reach h h₁) h₂

/-! ## A sample run -/

/-- Sixty-four letters. -/
def sampleFingerprint : String := "aaaaaaaaaaaaaaaaaaaaaaaaaaaaaaaaaaaaaaaaaaaaaaaaaaaaaaaaaaaaaaaa"

def sampleSimulation : StoredSimulation where
  simulationId := "simulation-1"
  environment := .dev
  projectKey := "DEV"
  taskId := "DEV-1"
  currentAssigneeId := "ana"
  proposedAssigneeId := "ben"
  candidateIds := ["ben"]
  confidence := .high
  evidenceFingerprint := sampleFingerprint
  scoringModelVersions := ["v1"]
  simulatedAt := 0
  safePayload := .obj []
  projectKey_ok := by decide
  fingerprint_length := by decide
  changesAssignee := by decide
  candidate := by decide
  confident := by decide

def sampleActor : ProposalActor := ⟨"manager-1", .manager, .dev, ["DEV"], "correlation-1"⟩

def sampleCreate : ProposalCreateCommand where
  simulation := sampleSimulation
  idempotencyKey := "create-1"
  expiresAt := 1000
  requestedAt := 0
  key_ok := by decide
  expiryAhead := by decide

/-- A decision on the proposal with id 1. -/
def sampleDecide : ProposalDecisionCommand where
  proposalId := 1
  expectedVersion := 1
  decision := .approve
  idempotencyKey := "decide-1"
  currentEvidenceFingerprint := sampleFingerprint
  decidedAt := 10
  version_ok := by decide
  key_ok := by decide
  fingerprint_length := by decide

/-- Every id drawn is `n`. -/
def sampleDraws (n : Nat) (now : DateTime) : Draws := ⟨n, n, n, now, []⟩

/-- The proposal with id 1 is created and approved. -/
def sampleApproval : List Step :=
  [{ op := .create sampleCreate sampleActor, draws := sampleDraws 1 0 },
    { op := .decide sampleDecide sampleActor, draws := sampleDraws 2 10 }]

def sampleClaim : ExecutionClaim :=
  { executionId := 3, proposalId := 1, environment := .dev, projectKey := "DEV", issueKey := "DEV-1",
    expectedAssigneeId := "ana", proposedAssigneeId := "ben", idempotencyKey := "execute-1",
    correlationId := "correlation-2" }

/-- The execution with id 3 is prepared and marked, and its outcome is not known. -/
def sampleExecution : List Step :=
  [{ op := .prepare .dev 1 "correlation-2", draws := sampleDraws 3 20 },
    { op := .markWriteAttempted .dev sampleClaim, draws := sampleDraws 0 21 },
    { op := .finalize .dev sampleClaim ⟨3, 1, .uncertain, "correlation-2", none, some "jira_write_outcome_unknown"⟩,
      draws := sampleDraws 4 22 }]

end WorkforceRisk.Proposals
