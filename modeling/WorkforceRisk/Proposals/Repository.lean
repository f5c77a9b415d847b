/-
  WorkforceRisk.Proposals.Repository — simulations, and proposals until they are decided
  (packages/persistence/src/workforce_persistence/simulation_repository.py,
  proposal_repository.py).

  Every operation is one transaction. What it reads under a lock and what it inserts or
  updates meets the database as it is at the commit, `db`; a lookup without a lock may
  have read an earlier commit, `seen`. With `seen = db` the transaction ran alone.

  Proved: what each operation that returns has done (`persist_cases`, `create_cases`,
  `createFromStoredSimulation_cases`, `decide_cases`).
-/

import WorkforceRisk.Proposals.Records

namespace WorkforceRisk.Proposals

open Lib Persistence

/-! ## SimulationRepository -/

namespace SimulationRepository

def get (db : Db) (environment : Environment) (simulationId : String) : Option StoredSimulation :=
  (db.simulations.find? fun r =>
    r.simulation.environment == environment && r.simulation.simulationId == simulationId).map (·.simulation)

def persist (draws : Draws) (simulation : StoredSimulation) (seen db : Db) : Except Error (StoredSimulation × Db) :=
  match get seen simulation.environment simulation.simulationId with
  | some existing =>
    if existing ≠ simulation then .error (.valueError "simulation ID already has different immutable data")
    else .ok (existing, db)
  | none =>
    match db.simulations.insert ⟨draws.rowId, simulation⟩ with
    | some simulations => .ok (simulation, { db with simulations := simulations })
    | none => .error (.integrityError "reassignment_simulations")

/-- Persisting returns the simulation given; it adds at most its row. -/
theorem persist_cases {draws : Draws} {simulation v : StoredSimulation} {seen db db' : Db}
    (h : persist draws simulation seen db = .ok (v, db')) :
    v = simulation ∧ (db' = db ∨ ∃ simulations, db.simulations.insert ⟨draws.rowId, simulation⟩ = some simulations ∧
      db' = { db with simulations := simulations }) := by
  unfold persist at h
  split at h
  · split at h
    · cases h
    · rename_i hne
      cases h
      exact ⟨Classical.not_not.mp hne, Or.inl rfl⟩
  · split at h
    · rename_i simulations hi
      cases h
      exact ⟨rfl, Or.inr ⟨simulations, hi, rfl⟩⟩
    · cases h

end SimulationRepository

/-! ## ProposalRepository -/

structure StoredProposal where
  proposalId : Uuid
  state : ProposalState
  version : Nat
  taskId : String
  currentAssigneeId : String
  proposedAssigneeId : String
  evidenceFingerprint : String
  expiresAt : DateTime
  projectKey : String
  confidence : Risk.ConfidenceLevel
  scoringVersions : List String
  simulationPayload : Json

namespace ProposalRepository

/-! ## Lookups -/

def view (record : ReassignmentProposal) : StoredProposal :=
  { proposalId := record.id
    state := record.state
    version := record.version
    taskId := record.taskKey
    currentAssigneeId := record.expectedAssignee
    proposedAssigneeId := record.proposedAssignee
    evidenceFingerprint := record.evidenceFingerprint
    expiresAt := record.expiresAt
    projectKey := record.projectKey
    confidence := record.confidence
    scoringVersions := record.scoringVersions
    simulationPayload := record.simulationPayload }

def getAuthorized (proposalId : Uuid) (actor : ProposalActor) (db : Db) : Option StoredProposal :=
  match db.proposals.find? (fun p => p.id == proposalId && p.environment == actor.environment) with
  | none => none
  | some record => if record.projectKey ∉ actor.projectScopes then none else some (view record)

/-- The proposal stored in the environment under the key. -/
def stored (db : Db) (environment : Environment) (key : String) : Option ReassignmentProposal :=
  db.proposals.find? fun p => p.environment == environment && p.idempotencyKey == key

def duplicate (db : Db) (environment : Environment) (key : String) : Option ApprovalDecision :=
  db.decisions.find? fun d => d.environment == environment && d.idempotencyKey == key

theorem stored_some {db : Db} {environment : Environment} {key : String} {p : ReassignmentProposal}
    (h : stored db environment key = some p) :
    p ∈ db.proposals.rows ∧ p.environment = environment ∧ p.idempotencyKey = key := by
  have hp := Table.find?_holds h
  simp only [Bool.and_eq_true, beq_iff_eq] at hp
  exact ⟨Table.find?_mem h, hp⟩

theorem stored_of_mem {db : Db} {p : ReassignmentProposal} (hp : p ∈ db.proposals.rows) :
    stored db p.environment p.idempotencyKey = some p := by
  refine Table.find?_eq_some_of_mem hp (by simp) fun a ha => ?_
  simp only [Bool.and_eq_true, beq_iff_eq] at ha
  exact clashes_byIdAnd.mpr (Or.inr (by rw [ha.1, ha.2]))

theorem duplicate_some {db : Db} {environment : Environment} {key : String} {d : ApprovalDecision}
    (h : duplicate db environment key = some d) :
    d ∈ db.decisions.rows ∧ d.environment = environment ∧ d.idempotencyKey = key := by
  have hp := Table.find?_holds h
  simp only [Bool.and_eq_true, beq_iff_eq] at hp
  exact ⟨Table.find?_mem h, hp⟩

theorem duplicate_of_mem {db : Db} {d : ApprovalDecision} (hd : d ∈ db.decisions.rows) :
    duplicate db d.environment d.idempotencyKey = some d := by
  refine Table.find?_eq_some_of_mem hd (by simp) fun a ha => ?_
  simp only [Bool.and_eq_true, beq_iff_eq] at ha
  exact clashes_byIdAnd.mpr (Or.inr (by rw [ha.1, ha.2]))

theorem find_proposal {db : Db} {p : ReassignmentProposal} (hp : p ∈ db.proposals.rows) :
    db.proposals.find? (·.id == p.id) = some p :=
  Table.find?_eq_some_of_mem hp (by simp) fun a ha => clashes_byIdAnd.mpr (Or.inl (by simpa using ha))

theorem getAuthorized_some {proposalId : Uuid} {actor : ProposalActor} {db : Db} {v : StoredProposal}
    (h : getAuthorized proposalId actor db = some v) :
    ∃ p ∈ db.proposals.rows, p.id = proposalId ∧ p.environment = actor.environment ∧
      p.projectKey ∈ actor.projectScopes ∧ v = view p := by
  unfold getAuthorized at h
  split at h
  · cases h
  rename_i p hp
  split at h
  · cases h
  rename_i hscope
  cases h
  have hkey : p.id = proposalId ∧ p.environment = actor.environment := by simpa using Table.find?_holds hp
  exact ⟨p, Table.find?_mem hp, hkey.1, hkey.2, Classical.not_not.mp hscope, rfl⟩

/-! ## What create and decide store -/

def newRecord (draws : Draws) (command : ProposalCreateCommand) (actor : ProposalActor) : ReassignmentProposal :=
  { id := draws.rowId
    environment := actor.environment
    createdAt := command.requestedAt
    simulationId := command.simulation.simulationId
    projectKey := command.simulation.projectKey
    taskKey := command.simulation.taskId
    expectedAssignee := command.simulation.currentAssigneeId
    proposedAssignee := command.simulation.proposedAssigneeId
    state := .pending
    idempotencyKey := command.idempotencyKey
    evidenceFingerprint := command.simulation.evidenceFingerprint
    confidence := command.simulation.confidence
    scoringVersions := command.simulation.scoringModelVersions
    simulationPayload := command.simulation.safePayload
    requestedBy := actor.actorId
    expiresAt := command.expiresAt
    version := 1 }

def createdEntry (record : ReassignmentProposal) (simulation : StoredSimulation) (actor : ProposalActor) : AuditEntry :=
  { actionType := "proposal.created"
    actorType := actor.role.value
    actorId := actor.actorId
    subjectIds := [uuidText record.id, simulation.taskId]
    correlationId := actor.correlationId
    priorState := none
    newState := some (.obj [("state", .str ProposalState.pending.value), ("version", .num 1)])
    safeMetadata := some (.obj [("scoring_versions", .strs simulation.scoringModelVersions),
      ("simulation_id", .str simulation.simulationId)]) }

/-- `ProposalCreateCommand(...)`, which checks its fields before the expiry. -/
def commandOf (simulation : StoredSimulation) (idempotencyKey : String) (expiresAt requestedAt : DateTime) :
    Except Error ProposalCreateCommand :=
  if hk : isIdempotencyKey idempotencyKey then
    if he : requestedAt < expiresAt then .ok ⟨simulation, idempotencyKey, expiresAt, requestedAt, hk, he⟩
    else .error (.validationError "" "Value error, proposal expiry must be in the future")
  else if idempotencyKey.length < 8 then
    .error (.validationError "idempotency_key" "String should have at least 8 characters")
  else .error (.validationError "idempotency_key" "String should have at most 128 characters")

def decisionTarget (record : ReassignmentProposal) (command : ProposalDecisionCommand) : ProposalState :=
  if isExpired record.expiresAt command.decidedAt then .expired
  else if record.evidenceFingerprint ≠ command.currentEvidenceFingerprint then .stale
  else if command.decision = .reject then .rejected
  else .executing

def newDecision (draws : Draws) (command : ProposalDecisionCommand) (actor : ProposalActor)
    (record : ReassignmentProposal) : ApprovalDecision :=
  { id := draws.rowId
    environment := actor.environment
    createdAt := command.decidedAt
    proposalId := record.id
    actorId := actor.actorId
    decision := command.decision
    correlationId := actor.correlationId
    idempotencyKey := command.idempotencyKey }

def decidedEntry (current target : ProposalState) (record : ReassignmentProposal) (actor : ProposalActor) :
    AuditEntry :=
  { actionType := "proposal." ++ target.value
    actorType := actor.role.value
    actorId := actor.actorId
    subjectIds := [uuidText record.id, record.taskKey]
    correlationId := actor.correlationId
    priorState := some (.obj [("state", .str current.value), ("version", .num record.version)])
    newState := some (.obj [("state", .str target.value), ("version", .num (record.version + 1))])
    safeMetadata := none }

theorem decisionTarget_allowed (record : ReassignmentProposal) (command : ProposalDecisionCommand) :
    decisionTarget record command ∈ ProposalState.allowedTransitions .pending := by
  unfold decisionTarget
  split
  · decide
  · split
    · decide
    · split <;> decide

theorem decisionTarget_executing {record : ReassignmentProposal} {command : ProposalDecisionCommand} :
    decisionTarget record command = .executing ↔ command.decidedAt < record.expiresAt ∧
      record.evidenceFingerprint = command.currentEvidenceFingerprint ∧ command.decision = .approve := by
  unfold decisionTarget isExpired
  cases command.decision <;> grind

/-- The two updates of a transition take the one row that `record` is two versions on. -/
theorem update_twice {db : Db} {record : ReassignmentProposal} {target : ProposalState} {version : Nat}
    (hr : record ∈ db.proposals.rows) (hv : record.version = version) (hs : record.state = .pending) :
    (db.proposals.update (fun p => p.id == record.id && p.version == version && p.state == .pending)
        (·.moved target 1) ReassignmentProposal.moved_key).update (·.id == record.id) (·.moved target 1)
        ReassignmentProposal.moved_key =
      db.proposals.update (·.id == record.id) (·.moved target 2) ReassignmentProposal.moved_key := by
  apply Table.ext
  show (db.proposals.rows.map _).map _ = db.proposals.rows.map _
  rw [List.map_map]
  refine List.map_congr_left fun p hp => ?_
  by_cases e : p.id = record.id
  · have : p = record := proposal_eq_of_id hp hr e
    subst this
    simp [Table.change, hv, hs, ReassignmentProposal.moved]
  · simp [Table.change, e]

/-! ## The transactions -/

variable [Sha256]

def create (draws : Draws) (command : ProposalCreateCommand) (actor : ProposalActor) (seen db : Db) :
    Except Error (StoredProposal × Db) :=
  if actor.environment ≠ command.simulation.environment then
    .error (.permissionError "proposal environment mismatch")
  else if command.simulation.projectKey ∉ actor.projectScopes then
    .error (.permissionError "proposal project scope mismatch")
  else
    match stored seen actor.environment command.idempotencyKey with
    | some existing => .ok (view existing, db)
    | none =>
      let record := newRecord draws command actor
      match db.proposals.insert record with
      | none => .error (.integrityError "reassignment_proposals")
      | some proposals =>
        match AuditRepository.append db.audit actor.environment (createdEntry record command.simulation actor)
            draws.auditId draws.now with
        | .error e => .error e
        | .ok audit => .ok (view record, { db with proposals := proposals, audit := audit })

theorem create_hit {command : ProposalCreateCommand} {actor : ProposalActor} {seen : Db} {p : ReassignmentProposal}
    (henv : actor.environment = command.simulation.environment)
    (hscope : command.simulation.projectKey ∈ actor.projectScopes)
    (hp : stored seen actor.environment command.idempotencyKey = some p) (draws : Draws) (db : Db) :
    create draws command actor seen db = .ok (view p, db) := by
  unfold create
  rw [if_neg (Classical.not_not.mpr henv), if_neg (Classical.not_not.mpr hscope), hp]

/-- Creating returns the proposal stored under the key, or stores a new one. -/
theorem create_cases {draws : Draws} {command : ProposalCreateCommand} {actor : ProposalActor} {seen db db' : Db}
    {v : StoredProposal} (h : create draws command actor seen db = .ok (v, db')) :
    actor.environment = command.simulation.environment ∧ command.simulation.projectKey ∈ actor.projectScopes ∧
    ((∃ p, stored seen actor.environment command.idempotencyKey = some p ∧ v = view p ∧ db' = db) ∨
      (stored seen actor.environment command.idempotencyKey = none ∧ v = view (newRecord draws command actor) ∧
        ∃ proposals audit, db.proposals.insert (newRecord draws command actor) = some proposals ∧
          db' = { db with proposals := proposals, audit := audit })) := by
  unfold create at h
  split at h
  · cases h
  rename_i henv
  split at h
  · cases h
  rename_i hscope
  refine ⟨Classical.not_not.mp henv, Classical.not_not.mp hscope, ?_⟩
  split at h
  · rename_i p hp
    cases h
    exact Or.inl ⟨p, hp, rfl, rfl⟩
  · rename_i hn
    simp only at h
    split at h
    · cases h
    rename_i proposals hi
    split at h
    · cases h
    rename_i audit ha
    cases h
    exact Or.inr ⟨hn, rfl, proposals, audit, hi, rfl⟩

def createFromStoredSimulation (draws : Draws) (simulationId idempotencyKey : String) (expiresAt requestedAt : DateTime)
    (actor : ProposalActor) (seen db : Db) : Except Error (StoredProposal × Db) :=
  match SimulationRepository.get seen actor.environment simulationId with
  | none => .error (.valueError "stored simulation not found")
  | some simulation =>
    match commandOf simulation idempotencyKey expiresAt requestedAt with
    | .error e => .error e
    | .ok command => create draws command actor seen db

theorem createFromStoredSimulation_cases {draws : Draws} {simulationId key : String} {expiresAt requestedAt : DateTime}
    {actor : ProposalActor} {seen db db' : Db} {v : StoredProposal}
    (h : createFromStoredSimulation draws simulationId key expiresAt requestedAt actor seen db = .ok (v, db')) :
    ∃ simulation command, SimulationRepository.get seen actor.environment simulationId = some simulation ∧
      commandOf simulation key expiresAt requestedAt = .ok command ∧
      create draws command actor seen db = .ok (v, db') := by
  unfold createFromStoredSimulation at h
  split at h
  · cases h
  rename_i simulation hs
  split at h
  · cases h
  rename_i command hc
  exact ⟨simulation, command, hs, hc, h⟩

/-- The transition of a pending proposal: a compare-and-swap, the decision, its audit event. -/
def transition (draws : Draws) (command : ProposalDecisionCommand) (actor : ProposalActor)
    (record : ReassignmentProposal) (target : ProposalState) (db : Db) : Except Error (StoredProposal × Db) :=
  let pending := fun p : ReassignmentProposal =>
    p.id == record.id && p.version == command.expectedVersion && p.state == .pending
  if db.proposals.count pending ≠ 1 then .error (.valueError "proposal concurrent transition conflict")
  else
    let proposals := db.proposals.update pending (·.moved target 1) (ReassignmentProposal.next_key target)
    match db.decisions.insert (newDecision draws command actor record) with
    | none => .error (.integrityError "approval_decisions")
    | some decisions =>
      -- the session applies its UPDATE to the record it holds, so `record.version` is the
      -- new one here, and `record.version += 1` takes it one further
      match AuditRepository.append db.audit actor.environment
          (decidedEntry record.state target (record.moved target 1) actor) draws.auditId draws.now with
      | .error e => .error e
      | .ok audit => .ok (view ((record.moved target 1).moved target 1),
          { db with
              proposals :=
                proposals.update (·.id == record.id) (·.moved target 1) (ReassignmentProposal.next_key target)
              decisions := decisions
              audit := audit })

theorem transition_cases {draws : Draws} {command : ProposalDecisionCommand} {actor : ProposalActor}
    {record : ReassignmentProposal} {target : ProposalState} {db db' : Db} {v : StoredProposal}
    (hr : record ∈ db.proposals.rows) (hv : record.version = command.expectedVersion) (hs : record.state = .pending)
    (h : transition draws command actor record target db = .ok (v, db')) :
    v = view (record.moved target 2) ∧
    ∃ decisions audit, db.decisions.insert (newDecision draws command actor record) = some decisions ∧
      db' = { db with
        proposals := db.proposals.update (·.id == record.id) (·.moved target 2) ReassignmentProposal.moved_key
        decisions := decisions
        audit := audit } := by
  unfold transition at h
  simp only at h
  split at h
  · cases h
  split at h
  · cases h
  rename_i decisions hd
  split at h
  · cases h
  rename_i audit ha
  cases h
  refine ⟨rfl, decisions, audit, hd, ?_⟩
  rw [update_twice hr hv hs]

def decide (draws : Draws) (command : ProposalDecisionCommand) (actor : ProposalActor) (seen db : Db) :
    Except Error (StoredProposal × Db) :=
  match duplicate seen actor.environment command.idempotencyKey with
  | some d =>
    match db.proposals.find? (·.id == d.proposalId) with
    | none => .error .assertionError
    | some record => .ok (view record, db)
  | none =>
    match db.proposals.find? (fun p => p.id == command.proposalId && p.environment == actor.environment) with
    | none => .error (.permissionError "proposal not found in authorized scope")
    | some record =>
      if record.projectKey ∉ actor.projectScopes then
        .error (.permissionError "proposal not found in authorized scope")
      else if record.version ≠ command.expectedVersion then .error (.valueError "proposal version conflict")
      else if record.state ≠ .pending then .error (.valueError "proposal is not pending")
      else
        match validateTransition record.state (decisionTarget record command) with
        | .error e => .error e
        | .ok () => transition draws command actor record (decisionTarget record command) db

theorem decide_hit {command : ProposalDecisionCommand} {actor : ProposalActor} {seen db : Db} {d : ApprovalDecision}
    {p : ReassignmentProposal} (hd : duplicate seen actor.environment command.idempotencyKey = some d)
    (hp : p ∈ db.proposals.rows) (hid : p.id = d.proposalId) (draws : Draws) :
    decide draws command actor seen db = .ok (view p, db) := by
  have hf := find_proposal hp
  rw [hid] at hf
  unfold decide
  simp only [hd, hf]

/-- Deciding returns the proposal of the decision stored under the key, or decides the
    pending proposal the command names. -/
theorem decide_cases {draws : Draws} {command : ProposalDecisionCommand} {actor : ProposalActor} {seen db db' : Db}
    {v : StoredProposal} (h : decide draws command actor seen db = .ok (v, db')) :
    (∃ d p, duplicate seen actor.environment command.idempotencyKey = some d ∧ p ∈ db.proposals.rows ∧
      p.id = d.proposalId ∧ v = view p ∧ db' = db) ∨
    (duplicate seen actor.environment command.idempotencyKey = none ∧
      ∃ p ∈ db.proposals.rows, p.id = command.proposalId ∧ p.environment = actor.environment ∧
        p.projectKey ∈ actor.projectScopes ∧ p.version = command.expectedVersion ∧ p.state = .pending ∧
        v = view (p.moved (decisionTarget p command) 2) ∧
        ∃ decisions audit, db.decisions.insert (newDecision draws command actor p) = some decisions ∧
          db' = { db with
            proposals := db.proposals.update (·.id == p.id) (·.moved (decisionTarget p command) 2) fun _ => rfl,
            decisions := decisions, audit := audit }) := by
  unfold decide at h
  split at h
  · rename_i d hd
    split at h
    · cases h
    rename_i p hp
    cases h
    exact Or.inl ⟨d, p, hd, Table.find?_mem hp, by simpa using Table.find?_holds hp, rfl, rfl⟩
  rename_i hn
  split at h
  · cases h
  rename_i p hp
  split at h
  · cases h
  rename_i hscope
  split at h
  · cases h
  rename_i hver
  split at h
  · cases h
  rename_i hpend
  split at h
  · cases h
  have hmem := Table.find?_mem hp
  have hkey : p.id = command.proposalId ∧ p.environment = actor.environment := by simpa using Table.find?_holds hp
  have hv := Classical.not_not.mp hver
  have hs := Classical.not_not.mp hpend
  obtain ⟨rfl, decisions, audit, hd, rfl⟩ := transition_cases hmem hv hs h
  exact Or.inr ⟨hn, p, hmem, hkey.1, hkey.2, Classical.not_not.mp hscope, hv, hs, rfl, decisions, audit, hd, rfl⟩

end ProposalRepository

end WorkforceRisk.Proposals
