/-
  WorkforceRisk.Proposals.ExecutionStore — `DatabaseExecutionStore` and
  `DatabaseReconciliationStore`
  (packages/persistence/src/workforce_persistence/execution_repository.py).

  Short transactions around the Jira calls of an execution. A proposal has one execution
  in an environment: `prepare` looks for it without a lock (`seen`), and when none is
  there inserts one, which the unique constraint refuses to the loser of a race.
  `finalize` and `resolve` store the same thing (`settle`) under different guards: the
  execution's state, the proposal's state one version on, an audit event, and for an
  uncertain outcome an outbox event.

  Proved: what each operation that returns has done (`prepare_cases` to `resolve_cases`),
  and that only an illegal transition of the proposal found makes `finalize` and
  `resolve` raise one (`finalize_illegal`, `resolve_illegal`).
-/

import Mathlib.Data.List.Sort
import WorkforceRisk.Proposals.Records

namespace WorkforceRisk.Proposals

open Lib Persistence

/-- `text or "unknown"`. -/
def orUnknown : Option String → String
  | none => "unknown"
  | some text => if text = "" then "unknown" else text

def executionOf (db : Db) (environment : Environment) (proposalId : Uuid) : Option ProposalExecution :=
  db.executions.find? fun e => e.environment == environment && e.proposalId == proposalId

def executionById (db : Db) (environment : Environment) (executionId : Uuid) : Option ProposalExecution :=
  db.executions.find? fun e => e.id == executionId && e.environment == environment

def proposalById (db : Db) (proposalId : Uuid) : Option ReassignmentProposal := db.proposals.find? (·.id == proposalId)

theorem executionOf_some {db : Db} {environment : Environment} {proposalId : Uuid} {e : ProposalExecution}
    (h : executionOf db environment proposalId = some e) :
    e ∈ db.executions.rows ∧ e.environment = environment ∧ e.proposalId = proposalId :=
  ⟨Table.find?_mem h, by simpa using Table.find?_holds h⟩

theorem executionById_some {db : Db} {environment : Environment} {executionId : Uuid} {e : ProposalExecution}
    (h : executionById db environment executionId = some e) :
    e ∈ db.executions.rows ∧ e.id = executionId ∧ e.environment = environment :=
  ⟨Table.find?_mem h, by simpa using Table.find?_holds h⟩

theorem proposalById_some {db : Db} {proposalId : Uuid} {p : ReassignmentProposal}
    (h : proposalById db proposalId = some p) : p ∈ db.proposals.rows ∧ p.id = proposalId :=
  ⟨Table.find?_mem h, by simpa using Table.find?_holds h⟩

theorem executionOf_of_mem {db : Db} {e : ProposalExecution} (he : e ∈ db.executions.rows) :
    executionOf db e.environment e.proposalId = some e := by
  refine Table.find?_eq_some_of_mem he (by simp) fun a ha => ?_
  simp only [Bool.and_eq_true, beq_iff_eq] at ha
  exact clashes_byIdAnd.mpr (Or.inr (by rw [ha.1, ha.2]))

theorem proposalById_of_mem {db : Db} {p : ReassignmentProposal} (hp : p ∈ db.proposals.rows) :
    proposalById db p.id = some p :=
  Table.find?_eq_some_of_mem hp (by simp) fun a ha => clashes_byIdAnd.mpr (Or.inl (by simpa using ha))

def ResultPayload.json (payload : ResultPayload) : Json :=
  .obj [("observed_assignee_id", .opt .str payload.observedAssigneeId),
    ("safe_error_code", .opt .str payload.safeErrorCode),
    ("write_attempted", .bool payload.writeAttempted)]

/-- The service's own audit entries. -/
def serviceEntry (actionType actorId : String) (proposalId : Uuid) (issueKey correlationId : String)
    (priorState : Option ProposalState) (newState : ProposalState) (safeMetadata : Option Json) : AuditEntry :=
  { actionType := actionType
    actorType := "service"
    actorId := actorId
    subjectIds := [uuidText proposalId, issueKey]
    correlationId := correlationId
    priorState := priorState.map fun s => .obj [("state", .str s.value)]
    newState := some (.obj [("state", .str newState.value)])
    safeMetadata := safeMetadata }

/-! ## What finalize and resolve store -/

section
variable [Sha256]

def settle (environment : Environment) (draws : Draws) (executionId proposalId : Uuid) (issueKey correlationId : String)
    (state : ProposalState) (entry : AuditEntry) (change : ProposalExecution → ProposalExecution)
    (hc : ∀ e, Keyed.key (change e) = Keyed.key e) (db : Db) : Except Error Db :=
  match AuditRepository.append db.audit environment entry draws.auditId draws.now with
  | .error e => .error e
  | .ok audit =>
    let db' := { db with
      executions := db.executions.update (·.id == executionId) change hc
      proposals := db.proposals.update (·.id == proposalId) (·.moved state 1) (ReassignmentProposal.next_key state)
      audit := audit }
    if state = .uncertain then
      let payload := .obj [("correlation_id", .str correlationId), ("issue_key", .str issueKey),
        ("proposal_id", .str (uuidText proposalId))]
      match OutboxRepository.append db.outbox environment ("uncertain-execution:" ++ uuidText executionId)
          "manager.uncertain_reassignment" payload draws.now draws.outboxId with
      | .error e => .error e
      | .ok (outbox, _) => .ok { db' with outbox := outbox }
    else .ok db'

section
variable {environment : Environment} {draws : Draws} {executionId proposalId : Uuid} {issueKey correlationId : String}
  {state : ProposalState} {entry : AuditEntry} {change : ProposalExecution → ProposalExecution}
  {hc : ∀ e, Keyed.key (change e) = Keyed.key e} {db db' : Db}

theorem settle_cases
    (h : settle environment draws executionId proposalId issueKey correlationId state entry change hc db = .ok db') :
    ∃ audit outbox, db' = { db with
      executions := db.executions.update (·.id == executionId) change hc
      proposals := db.proposals.update (·.id == proposalId) (·.moved state 1) (ReassignmentProposal.next_key state)
      audit := audit
      outbox := outbox } := by
  unfold settle at h
  split at h
  · cases h
  rename_i audit ha
  simp only at h
  split at h
  · split at h
    · cases h
    rename_i outbox event ho
    cases h
    exact ⟨audit, outbox, rfl⟩
  · cases h
    exact ⟨audit, db.outbox, rfl⟩

theorem settle_error {e : Error}
    (h : settle environment draws executionId proposalId issueKey correlationId state entry change hc db = .error e) :
    ∃ table, e = .integrityError table := by
  unfold settle at h
  split at h
  · rename_i e' ha
    cases h
    unfold AuditRepository.append at ha
    split at ha <;> cases ha
    exact ⟨_, rfl⟩
  simp only at h
  split at h
  · split at h
    · rename_i e' ho
      cases h
      unfold OutboxRepository.append at ho
      split at ho
      · cases ho
      · simp only at ho
        split at ho <;> cases ho
        exact ⟨_, rfl⟩
    · cases h
  · cases h

/-- Where the transition is legal, settling it does not say that it is not. -/
theorem settle_ne_illegal {a b : ProposalState} :
    settle environment draws executionId proposalId issueKey correlationId state entry change hc db ≠
      .error (illegalTransition a b) := by
  intro h
  obtain ⟨table, hintegrity⟩ := settle_error h
  cases hintegrity

end
end

/-! ## DatabaseExecutionStore -/

inductive Prepared where
  | claim (c : ExecutionClaim)
  | result (r : ExecutionResult)
  deriving DecidableEq

namespace DatabaseExecutionStore

def result (record : ProposalExecution) : ExecutionResult :=
  { executionId := record.id
    proposalId := record.proposalId
    state := record.state
    correlationId := orUnknown record.externalCorrelationId
    observedAssigneeId := record.result.bind (·.observedAssigneeId)
    safeErrorCode := record.result.bind (·.safeErrorCode) }

def newExecution (environment : Environment) (draws : Draws) (proposal : ReassignmentProposal)
    (correlationId : String) : ProposalExecution :=
  { id := draws.rowId
    environment := environment
    createdAt := draws.now
    proposalId := proposal.id
    state := .executing
    externalCorrelationId := some correlationId
    result := some ⟨none, none, false⟩
    writeAttempted := false
    leaseOwner := none
    leasedAt := none }

def newClaim (environment : Environment) (draws : Draws) (proposal : ReassignmentProposal) (correlationId : String) :
    ExecutionClaim :=
  { executionId := draws.rowId
    proposalId := proposal.id
    environment := environment
    projectKey := proposal.projectKey
    issueKey := proposal.taskKey
    expectedAssigneeId := proposal.expectedAssignee
    proposedAssigneeId := proposal.proposedAssignee
    idempotencyKey := "execute-" ++ uuidText proposal.id
    correlationId := correlationId }

def attempted (e : ProposalExecution) : ProposalExecution :=
  { e with writeAttempted := true, result := some ⟨none, none, true⟩ }

def markWriteAttempted (environment : Environment) (claim : ExecutionClaim) (db : Db) : Except Error (Unit × Db) :=
  match executionById db environment claim.executionId with
  | none => .error (.valueError "execution is not active")
  | some execution =>
    if execution.state ≠ .executing then .error (.valueError "execution is not active")
    else .ok ((), { db with executions := db.executions.update (·.id == execution.id) attempted fun _ => rfl })

/-- The row after an outcome. -/
def finalized (result : ExecutionResult) (e : ProposalExecution) : ProposalExecution :=
  { e with
      state := result.state
      result := some ⟨result.observedAssigneeId, result.safeErrorCode, e.writeAttempted⟩ }

def startedEntry (proposal : ReassignmentProposal) (correlationId : String) : AuditEntry :=
  serviceEntry "proposal.execution_started" "workforce-risk-mcp" proposal.id proposal.taskKey correlationId none
    .executing
    none

variable [Sha256]

def prepare (environment : Environment) (draws : Draws) (proposalId : Uuid) (correlationId : String) (seen db : Db) :
    Except Error (Prepared × Db) :=
  match executionOf seen environment proposalId with
  | some existing => .ok (.result (result existing), db)
  | none =>
    match db.proposals.find? (fun p => p.id == proposalId && p.environment == environment) with
    | none => .error (.valueError "proposal not found")
    | some proposal =>
      if proposal.state ≠ .executing then .error (.valueError "proposal is not executing")
      else
        match db.executions.insert (newExecution environment draws proposal correlationId) with
        | none => .error (.integrityError "proposal_executions")
        | some executions =>
          match AuditRepository.append db.audit environment (startedEntry proposal correlationId) draws.auditId
              draws.now with
          | .error e => .error e
          | .ok audit => .ok (.claim (newClaim environment draws proposal correlationId),
              { db with executions := executions, audit := audit })

def finalize (environment : Environment) (draws : Draws) (claim : ExecutionClaim) (result : ExecutionResult) (db : Db) :
    Except Error (ExecutionResult × Db) :=
  match executionById db environment claim.executionId, proposalById db claim.proposalId with
  | some execution, some proposal =>
    if execution.state ≠ .executing then .ok (DatabaseExecutionStore.result execution, db)
    else
      match validateTransition proposal.state result.state with
      | .error e => .error e
      | .ok () =>
        let safeResult : ResultPayload := ⟨result.observedAssigneeId, result.safeErrorCode, execution.writeAttempted⟩
        match settle environment draws execution.id proposal.id claim.issueKey claim.correlationId result.state
            (serviceEntry ("proposal." ++ result.state.value) "workforce-risk-mcp" claim.proposalId claim.issueKey
              claim.correlationId (some .executing) result.state (some safeResult.json))
            (finalized result) (fun _ => rfl) db with
        | .error e => .error e
        | .ok db' => .ok (result, db')
  | _, _ => .error (.valueError "execution state not found")

theorem prepare_cases {environment : Environment} {draws : Draws} {proposalId : Uuid} {correlationId : String}
    {seen db db' : Db} {r : Prepared} (h : prepare environment draws proposalId correlationId seen db = .ok (r, db')) :
    (∃ e, executionOf seen environment proposalId = some e ∧ r = .result (result e) ∧ db' = db) ∨
    (executionOf seen environment proposalId = none ∧
      ∃ p ∈ db.proposals.rows, p.id = proposalId ∧ p.environment = environment ∧ p.state = .executing ∧
        r = .claim (newClaim environment draws p correlationId) ∧
        ∃ executions audit, db.executions.insert (newExecution environment draws p correlationId) = some executions ∧
          AuditRepository.append db.audit environment (startedEntry p correlationId) draws.auditId draws.now =
            .ok audit ∧
          db' = { db with executions := executions, audit := audit }) := by
  unfold prepare at h
  split at h
  · rename_i e he
    cases h
    exact Or.inl ⟨e, he, rfl, rfl⟩
  rename_i hn
  split at h
  · cases h
  rename_i p hp
  split at h
  · cases h
  rename_i hs
  split at h
  · cases h
  rename_i executions hi
  split at h
  · cases h
  rename_i audit ha
  cases h
  have hkey : p.id = proposalId ∧ p.environment = environment := by simpa using Table.find?_holds hp
  exact Or.inr ⟨hn, p, Table.find?_mem hp, hkey.1, hkey.2, Classical.not_not.mp hs, rfl, executions, audit, hi, ha, rfl⟩

/-- An executing proposal without an execution is prepared, unless an id or a hash collides. -/
theorem prepare_of_executing {environment : Environment} {correlationId : String} {db : Db} {p : ReassignmentProposal}
    (draws : Draws) (seen : Db) (hp : p ∈ db.proposals.rows) (henv : p.environment = environment)
    (hs : p.state = .executing) (hseen : executionOf seen environment p.id = none)
    (hnone : executionOf db environment p.id = none) (hid : ∀ e ∈ db.executions.rows, e.id ≠ draws.rowId)
    (haudit : ∀ e ∈ db.audit.rows,
      clashes e (AuditRepository.next db.audit environment (startedEntry p correlationId) draws.auditId draws.now) =
        false) :
    ∃ executions audit, db.executions.insert (newExecution environment draws p correlationId) = some executions ∧
      prepare environment draws p.id correlationId seen db =
        .ok (.claim (newClaim environment draws p correlationId),
          { db with executions := executions, audit := audit }) := by
  have hfresh : ∀ e ∈ db.executions.rows, clashes e (newExecution environment draws p correlationId) = false := by
    refine fun e he => not_clashes_byIdAnd.mpr ⟨hid e he, fun heq => ?_⟩
    obtain ⟨h₁, h₂⟩ : e.environment = environment ∧ e.proposalId = p.id := Prod.mk.inj heq
    have := Table.find?_none hnone e he
    simp [h₁, h₂] at this
  obtain ⟨executions, hi⟩ := Table.insert_of_fresh hfresh
  obtain ⟨audit, ha⟩ := AuditRepository.append_of_fresh haudit
  have hfind : db.proposals.find? (fun q => q.id == p.id && q.environment == environment) = some p :=
    Table.find?_eq_some_of_mem hp (by simp [henv]) fun q hq => clashes_byIdAnd.mpr (Or.inl (by simp at hq; exact hq.1))
  refine ⟨executions, audit, hi, ?_⟩
  unfold prepare
  simp only [hseen, hfind, hs, hi, ha, ne_eq, not_true_eq_false, if_false]

omit [Sha256] in
theorem markWriteAttempted_cases {environment : Environment} {claim : ExecutionClaim} {db db' : Db} {u : Unit}
    (h : markWriteAttempted environment claim db = .ok (u, db')) :
    ∃ e ∈ db.executions.rows, e.id = claim.executionId ∧ e.environment = environment ∧ e.state = .executing ∧
      db' = { db with executions := db.executions.update (·.id == e.id) attempted fun _ => rfl } := by
  unfold markWriteAttempted at h
  split at h
  · cases h
  rename_i e he
  split at h
  · cases h
  rename_i hs
  cases h
  obtain ⟨hm, hid, henv⟩ := executionById_some he
  exact ⟨e, hm, hid, henv, Classical.not_not.mp hs, rfl⟩

theorem finalize_cases {environment : Environment} {draws : Draws} {claim : ExecutionClaim} {result r : ExecutionResult}
    {db db' : Db} (h : finalize environment draws claim result db = .ok (r, db')) :
    ∃ e ∈ db.executions.rows, ∃ p ∈ db.proposals.rows, e.id = claim.executionId ∧ e.environment = environment ∧
      p.id = claim.proposalId ∧
      ((e.state ≠ .executing ∧ db' = db) ∨
        (e.state = .executing ∧ result.state ∈ p.state.allowedTransitions ∧ ∃ audit outbox, db' = { db with
          executions := db.executions.update (·.id == e.id) (finalized result) fun _ => rfl
          proposals := db.proposals.update (·.id == p.id) (·.moved result.state 1) ReassignmentProposal.moved_key
          audit := audit
          outbox := outbox })) := by
  unfold finalize at h
  split at h
  · rename_i e p he hp
    obtain ⟨hem, hid, henv⟩ := executionById_some he
    obtain ⟨hpm, hpid⟩ := proposalById_some hp
    refine ⟨e, hem, p, hpm, hid, henv, hpid, ?_⟩
    split at h
    · rename_i hs
      cases h
      exact Or.inl ⟨hs, rfl⟩
    · rename_i hs
      split at h
      · cases h
      · rename_i hv
        simp only at h
        split at h
        · cases h
        rename_i hset
        cases h
        exact Or.inr ⟨Classical.not_not.mp hs, validateTransition_ok.mp hv, settle_cases hset⟩
  · cases h

theorem finalize_illegal {environment : Environment} {draws : Draws} {claim : ExecutionClaim} {result : ExecutionResult}
    {db : Db} {a b : ProposalState} (h : finalize environment draws claim result db = .error (illegalTransition a b)) :
    ∃ e ∈ db.executions.rows, ∃ p ∈ db.proposals.rows, e.id = claim.executionId ∧ e.environment = environment ∧
      p.id = claim.proposalId ∧ e.state = .executing ∧ result.state ∉ p.state.allowedTransitions := by
  unfold finalize at h
  split at h
  · rename_i e p he hp
    obtain ⟨hem, hid, henv⟩ := executionById_some he
    obtain ⟨hpm, hpid⟩ := proposalById_some hp
    refine ⟨e, hem, p, hpm, hid, henv, hpid, ?_⟩
    split at h
    · cases h
    · rename_i hs
      refine ⟨Classical.not_not.mp hs, fun hv => ?_⟩
      rw [validateTransition_ok.mpr hv] at h
      simp only at h
      split at h
      · rename_i hset
        cases h
        exact settle_ne_illegal hset
      · cases h
  · exact absurd (Except.error.inj h) (illegalTransition_ne (by decide))

end DatabaseExecutionStore

/-! ## DatabaseReconciliationStore -/

structure DatabaseReconciliationStore where
  environment : Environment
  abandonedAfter : Duration := minutes 2
  leaseDuration : Duration := minutes 1

namespace DatabaseReconciliationStore

variable (store : DatabaseReconciliationStore)

def isActive (s : ProposalState) : Bool := s == .executing || s == .uncertain

/-- An active execution old enough, under no lease that still holds, that no other
    transaction has locked. -/
def isAbandoned (draws : Draws) (e : ProposalExecution) : Bool :=
  e.environment == store.environment && isActive e.state && decide (e.createdAt ≤ draws.now - store.abandonedAfter) &&
    (match e.leasedAt with
      | none => true
      | some leasedAt => decide (leasedAt < draws.now - store.leaseDuration)) &&
    !draws.locked.contains e.id

/-- The join with the proposal. -/
def joined (db : Db) (e : ProposalExecution) : Option (ProposalExecution × ReassignmentProposal) :=
  (proposalById db e.proposalId).map (e, ·)

def claimOf (row : ProposalExecution × ReassignmentProposal) : ReconciliationClaim :=
  { executionId := row.1.id
    proposalId := row.2.id
    issueKey := row.2.taskKey
    expectedAssigneeId := row.2.expectedAssignee
    proposedAssigneeId := row.2.proposedAssignee
    correlationId := orUnknown row.1.externalCorrelationId
    writeAttempted := row.1.writeAttempted }

def leased (workerId : String) (now : DateTime) (e : ProposalExecution) : ProposalExecution :=
  { e with leaseOwner := some workerId, leasedAt := some now }

def abandoned (draws : Draws) (limit : Nat) (db : Db) : List (ProposalExecution × ReassignmentProposal) :=
  (((db.executions.rows.filter (store.isAbandoned draws)).filterMap (joined db)).insertionSort
    fun a b => a.1.createdAt ≤ b.1.createdAt).take limit

def lease (ids : List Uuid) (workerId : String) (now : DateTime) (db : Db) : Db :=
  { db with executions := db.executions.update (fun e => ids.contains e.id) (leased workerId now) fun _ => rfl }

def leaseAbandoned (draws : Draws) (workerId : String) (limit : Nat) (db : Db) : List ReconciliationClaim × Db :=
  let rows := store.abandoned draws limit db
  (rows.map claimOf, lease (rows.map (·.1.id)) workerId draws.now db)

def leaseProposal (draws : Draws) (proposalId : Uuid) (workerId : String) (db : Db) :
    Option ReconciliationClaim × Db :=
  match (executionOf db store.environment proposalId).filter (·.state == .uncertain) with
  | none => (none, db)
  | some execution =>
    match joined db execution with
    | none => (none, db)
    | some row => (some (claimOf row), lease [execution.id] workerId draws.now db)

/-- The row after a reconciliation: the evidence, and no lease. -/
def reconciled (state : ProposalState) (evidence : ResultPayload) (e : ProposalExecution) : ProposalExecution :=
  { e with state := state, result := some evidence, leaseOwner := none, leasedAt := none }

/-- A claim is made of an active execution and its proposal. -/
def ClaimOf (db : Db) (claim : ReconciliationClaim) : Prop :=
  ∃ e ∈ db.executions.rows, ∃ p ∈ db.proposals.rows, e.environment = store.environment ∧ isActive e.state = true ∧
    e.proposalId = p.id ∧ claim = claimOf (e, p)

variable {store}

theorem joined_some {db : Db} {e e' : ProposalExecution} {p : ReassignmentProposal} (h : joined db e = some (e', p)) :
    e' = e ∧ p ∈ db.proposals.rows ∧ p.id = e.proposalId := by
  obtain ⟨q, hq, heq⟩ := Option.map_eq_some_iff.mp h
  cases heq
  exact ⟨rfl, proposalById_some hq⟩

theorem leaseAbandoned_claims {draws : Draws} {workerId : String} {limit : Nat} {db : Db} {claim : ReconciliationClaim}
    (h : claim ∈ (store.leaseAbandoned draws workerId limit db).1) : store.ClaimOf db claim := by
  obtain ⟨⟨e, p⟩, hrow, rfl⟩ := List.mem_map.mp h
  have hrow := (List.perm_insertionSort _ _).mem_iff.mp (List.mem_of_mem_take hrow)
  obtain ⟨e', he', hj⟩ := List.mem_filterMap.mp hrow
  obtain ⟨rfl, hp, hid⟩ := joined_some hj
  obtain ⟨hm, ha⟩ := List.mem_filter.mp he'
  simp only [isAbandoned, Bool.and_eq_true, beq_iff_eq] at ha
  exact ⟨e, hm, p, hp, ha.1.1.1.1, ha.1.1.1.2, hid.symm, rfl⟩

theorem leaseProposal_cases (store : DatabaseReconciliationStore) (draws : Draws) (proposalId : Uuid)
    (workerId : String) (db : Db) :
    store.leaseProposal draws proposalId workerId db = (none, db) ∨
    ∃ claim, store.ClaimOf db claim ∧ claim.proposalId = proposalId ∧
      store.leaseProposal draws proposalId workerId db =
        (some claim, lease [claim.executionId] workerId draws.now db) := by
  unfold leaseProposal
  split
  · exact Or.inl rfl
  rename_i e he
  obtain ⟨hf, hs⟩ := Option.filter_eq_some_iff.mp he
  obtain ⟨hm, henv, hpid⟩ := executionOf_some hf
  split
  · exact Or.inl rfl
  rename_i row hj
  obtain ⟨e', p⟩ := row
  obtain ⟨rfl, hp, hid⟩ := joined_some hj
  refine Or.inr ⟨claimOf (e', p), ⟨e', hm, p, hp, henv, ?_, hid.symm, rfl⟩, hid.trans hpid, rfl⟩
  simp only [isActive, hs, Bool.or_true]

theorem leaseProposal_none {draws : Draws} {workerId : String} {proposalId : Uuid} {db : Db}
    (h : ∀ e ∈ db.executions.rows, e.environment = store.environment → e.proposalId = proposalId →
      e.state ≠ .uncertain) :
    store.leaseProposal draws proposalId workerId db = (none, db) := by
  unfold leaseProposal
  split
  · rfl
  · rename_i e he
    obtain ⟨hf, hs⟩ := Option.filter_eq_some_iff.mp he
    obtain ⟨hm, henv, hpid⟩ := executionOf_some hf
    exact absurd (by simpa using hs) (h e hm henv hpid)

/-- An uncertain execution is leased. -/
theorem leaseProposal_of_uncertain (draws : Draws) (workerId : String) {db : Db} {e : ProposalExecution}
    {p : ReassignmentProposal} (he : e ∈ db.executions.rows) (hp : p ∈ db.proposals.rows)
    (henv : e.environment = store.environment) (hid : e.proposalId = p.id) (hs : e.state = .uncertain) :
    store.leaseProposal draws p.id workerId db = (some (claimOf (e, p)), lease [e.id] workerId draws.now db) := by
  have hf : executionOf db store.environment p.id = some e := by
    rw [← henv, ← hid]
    exact executionOf_of_mem he
  have hj : joined db e = some (e, p) := by
    unfold joined
    rw [hid, proposalById_of_mem hp]
    rfl
  unfold leaseProposal
  simp only [hf, Option.filter, hs, beq_self_eq_true, if_true, hj]

variable [Sha256] (store)

def resolve (draws : Draws) (claim : ReconciliationClaim) (state : ProposalState) (evidence : ResultPayload) (db : Db) :
    Except Error (Unit × Db) :=
  match executionById db store.environment claim.executionId, proposalById db claim.proposalId with
  | some execution, some proposal =>
    if execution.state = state then .ok ((), db)
    else if !isActive execution.state then .ok ((), db)
    else
      match validateTransition proposal.state state with
      | .error e => .error e
      | .ok () =>
        match settle store.environment draws execution.id proposal.id claim.issueKey claim.correlationId state
            (serviceEntry ("proposal.reconciled_" ++ state.value) "reconciliation-worker" claim.proposalId
              claim.issueKey claim.correlationId (some execution.state) state (some evidence.json))
            (reconciled state evidence) (fun _ => rfl) db with
        | .error e => .error e
        | .ok db' => .ok ((), db')
  | _, _ => .error (.valueError "reconciliation state not found")

variable {store}

theorem resolve_cases {draws : Draws} {claim : ReconciliationClaim} {state : ProposalState} {evidence : ResultPayload}
    {db db' : Db} {u : Unit} (h : store.resolve draws claim state evidence db = .ok (u, db')) :
    ∃ e ∈ db.executions.rows, ∃ p ∈ db.proposals.rows, e.id = claim.executionId ∧ e.environment = store.environment ∧
      p.id = claim.proposalId ∧
      (((e.state = state ∨ isActive e.state = false) ∧ db' = db) ∨
        (e.state ≠ state ∧ isActive e.state = true ∧ state ∈ p.state.allowedTransitions ∧
          ∃ audit outbox, db' = { db with
            executions := db.executions.update (·.id == e.id) (reconciled state evidence) fun _ => rfl
            proposals := db.proposals.update (·.id == p.id) (·.moved state 1) ReassignmentProposal.moved_key
            audit := audit
            outbox := outbox })) := by
  unfold resolve at h
  split at h
  · rename_i e p he hp
    obtain ⟨hem, hid, henv⟩ := executionById_some he
    obtain ⟨hpm, hpid⟩ := proposalById_some hp
    refine ⟨e, hem, p, hpm, hid, henv, hpid, ?_⟩
    split at h
    · rename_i hs
      cases h
      exact Or.inl ⟨Or.inl hs, rfl⟩
    rename_i hs
    split at h
    · rename_i ha
      cases h
      exact Or.inl ⟨Or.inr (by simpa using ha), rfl⟩
    rename_i ha
    split at h
    · cases h
    rename_i hv
    split at h
    · cases h
    rename_i hset
    cases h
    exact Or.inr ⟨hs, by simpa using ha, validateTransition_ok.mp hv, settle_cases hset⟩
  · cases h

theorem resolve_illegal {draws : Draws} {claim : ReconciliationClaim} {state : ProposalState}
    {evidence : ResultPayload} {db : Db} {a b : ProposalState}
    (h : store.resolve draws claim state evidence db = .error (illegalTransition a b)) :
    ∃ e ∈ db.executions.rows, ∃ p ∈ db.proposals.rows, e.id = claim.executionId ∧ e.environment = store.environment ∧
      p.id = claim.proposalId ∧ e.state ≠ state ∧ isActive e.state = true ∧ state ∉ p.state.allowedTransitions := by
  unfold resolve at h
  split at h
  · rename_i e p he hp
    obtain ⟨hem, hid, henv⟩ := executionById_some he
    obtain ⟨hpm, hpid⟩ := proposalById_some hp
    refine ⟨e, hem, p, hpm, hid, henv, hpid, ?_⟩
    split at h
    · cases h
    rename_i hs
    split at h
    · cases h
    rename_i ha
    refine ⟨hs, by simpa using ha, fun hv => ?_⟩
    rw [validateTransition_ok.mpr hv] at h
    simp only at h
    split at h
    · rename_i hset
      cases h
      exact settle_ne_illegal hset
    · cases h
  · exact absurd (Except.error.inj h) (illegalTransition_ne (by decide))

end DatabaseReconciliationStore

end WorkforceRisk.Proposals
