/-
  WorkforceRisk.Proposals.Versions — the version a decision leaves.

  `decide` raises the version in the database by one, and the session writes the new one
  into the record it holds; the record's version is then raised again, which is stored at
  the commit. In between, the audit event takes the record's version for the one before
  the decision. `finalize` and `resolve` raise the version once.

  Proved: every decision that goes through is two versions on and audited one version
  late, so none advances by exactly one (`decide_skips_version`).
-/

import WorkforceRisk.Lib.Transactions
import WorkforceRisk.Proposals.Operations

namespace WorkforceRisk.Proposals

open Lib Persistence ProposalRepository

/-- What an audit event says of a proposal. -/
def versionedState (state : ProposalState) (version : Nat) : Json :=
  .obj [("state", .str state.value), ("version", .num version)]

/-- The decision returns, stores and audits one version more than it expected. -/
structure AdvancesByOne (command : ProposalDecisionCommand) (v : StoredProposal) (db db' : Db) : Prop where
  returned : v.version = command.expectedVersion + 1
  stored : ∃ p ∈ db'.proposals.rows, p.id = command.proposalId ∧ p.version = command.expectedVersion + 1
  audited : ∃ event, db'.audit.rows = db.audit.rows ++ [event] ∧
    (∃ state, event.priorState = some (versionedState state command.expectedVersion)) ∧
    ∃ state, event.newState = some (versionedState state (command.expectedVersion + 1))

theorem decidedEntry_newState (current target : ProposalState) (record : ReassignmentProposal) (actor : ProposalActor) :
    (decidedEntry current target record actor).newState = some (versionedState target (record.version + 1)) := by
  simp [decidedEntry, versionedState]

variable [Sha256] {draws : Draws} {command : ProposalDecisionCommand} {actor : ProposalActor} {seen db db' : Db}
  {v : StoredProposal}

theorem transition_audit {record : ReassignmentProposal} {target : ProposalState}
    (h : transition draws command actor record target db = .ok (v, db')) :
    AuditRepository.append db.audit actor.environment (decidedEntry record.state target (record.moved target 1) actor)
      draws.auditId draws.now = .ok db'.audit := by
  unfold transition at h
  simp only at h
  split at h
  · cases h
  split at h
  · cases h
  split at h
  · cases h
  rename_i audit ha
  cases h
  exact ha

theorem decide_audit (hn : duplicate seen actor.environment command.idempotencyKey = none)
    (h : decide draws command actor seen db = .ok (v, db')) :
    ∃ p ∈ db.proposals.rows, p.id = command.proposalId ∧ p.version = command.expectedVersion ∧
      AuditRepository.append db.audit actor.environment
        (decidedEntry p.state (decisionTarget p command) (p.moved (decisionTarget p command) 1) actor) draws.auditId
        draws.now = .ok db'.audit := by
  unfold ProposalRepository.decide at h
  simp only [hn] at h
  split at h
  · cases h
  rename_i p hp
  split at h
  · cases h
  split at h
  · cases h
  rename_i hver
  split at h
  · cases h
  split at h
  · cases h
  have hkey : p.id = command.proposalId ∧ p.environment = actor.environment := by simpa using Table.find?_holds hp
  exact ⟨p, Table.find?_mem hp, hkey.1, Classical.not_not.mp hver, transition_audit h⟩

/-- A decision that goes through returns and stores the version after the next, and audits
    the next as the one before it. So it never advances by one. -/
theorem decide_skips_version (hn : duplicate seen actor.environment command.idempotencyKey = none)
    (h : decide draws command actor seen db = .ok (v, db')) :
    v.version = command.expectedVersion + 2 ∧
    (∀ p ∈ db'.proposals.rows, p.id = command.proposalId → p.version = command.expectedVersion + 2) ∧
    (∃ event, db'.audit.rows = db.audit.rows ++ [event] ∧
      (∃ state, event.priorState = some (versionedState state (command.expectedVersion + 1))) ∧
      ∃ state, event.newState = some (versionedState state (command.expectedVersion + 2))) ∧
    ¬ AdvancesByOne command v db db' := by
  obtain ⟨_, _, hdup, _⟩ | ⟨_, p, hp, hid, _, _, hver, _, rfl, decisions, audit, _, hdb⟩ := decide_cases h
  · rw [hn] at hdup
    cases hdup
  have hreturned : (view (p.moved (decisionTarget p command) 2)).version = command.expectedVersion + 2 := by
    show p.version + 2 = _
    rw [hver]
  have hstored : ∀ q ∈ db'.proposals.rows, q.id = command.proposalId → q.version = command.expectedVersion + 2 := by
    intro q hq hqid
    have hmoved : p.moved (decisionTarget p command) 2 ∈ db'.proposals.rows := by
      rw [hdb]
      exact List.mem_map.mpr ⟨p, hp, Table.change_pos (beq_self_eq_true _)⟩
    rw [proposal_eq_of_id hq hmoved (hqid.trans hid.symm)]
    exact hreturned
  have haudited : ∃ event, db'.audit.rows = db.audit.rows ++ [event] ∧
      (∃ state, event.priorState = some (versionedState state (command.expectedVersion + 1))) ∧
      ∃ state, event.newState = some (versionedState state (command.expectedVersion + 2)) := by
    obtain ⟨q, hq, hqid, hqver, ha⟩ := decide_audit hn h
    refine ⟨_, AuditRepository.append_rows ha, ⟨q.state, ?_⟩, ⟨decisionTarget q command, ?_⟩⟩
    · rw [← hqver]
      rfl
    · rw [← hqver]
      exact decidedEntry_newState q.state (decisionTarget q command) (q.moved (decisionTarget q command) 1) actor
  refine ⟨hreturned, hstored, haudited, fun hone => ?_⟩
  have := hone.returned
  omega

omit [Sha256] in
/-- The sample proposal, at version 1, is approved and goes on at version 3. -/
theorem sample_decided : letI := Sha256.transparent
    ∃ (db db' : Db) (v : StoredProposal), ProposalRepository.decide (sampleDraws 2 10) sampleDecide sampleActor .empty
      db = .ok (v, db') ∧ v.version = 3 := by
  let _ := Sha256.transparent
  have hrun : (ProposalRepository.create (sampleDraws 1 0) sampleCreate sampleActor .empty .empty).toOption.any
      (fun created => (ProposalRepository.decide (sampleDraws 2 10) sampleDecide sampleActor .empty
        created.2).toOption.any fun decided => decided.1.version == 3) = true := by decide
  obtain ⟨created, -, hrun⟩ := exists_ok_of_any hrun
  obtain ⟨decided, hdecide, hthree⟩ := exists_ok_of_any hrun
  exact ⟨created.2, decided.2, decided.1, hdecide, by simpa using hthree⟩

omit [Sha256] in
theorem decide_skips_version_sample : letI := Sha256.transparent
    ∃ db db' v, ProposalRepository.decide (sampleDraws 2 10) sampleDecide sampleActor .empty db = .ok (v, db') ∧
      ¬ AdvancesByOne sampleDecide v db db' := by
  let _ := Sha256.transparent
  obtain ⟨db, db', v, hdecide, -⟩ := sample_decided
  have hnew : duplicate .empty sampleActor.environment sampleDecide.idempotencyKey = none := by decide
  exact ⟨db, db', v, hdecide, (decide_skips_version hnew hdecide).2.2.2⟩

omit [Sha256] in
theorem version_skipped : letI := Sha256.transparent
    ¬ ∀ (draws : Draws) (command : ProposalDecisionCommand) (actor : ProposalActor) (seen db db' : Db)
      (v : StoredProposal), duplicate seen actor.environment command.idempotencyKey = none →
      ProposalRepository.decide draws command actor seen db = .ok (v, db') → AdvancesByOne command v db db' := by
  let _ := Sha256.transparent
  intro h
  obtain ⟨db, db', v, hdecide, hthree⟩ := sample_decided
  have hnew : duplicate .empty sampleActor.environment sampleDecide.idempotencyKey = none := by decide
  have hone := (h _ _ _ _ _ _ _ hnew hdecide).returned
  rw [hthree] at hone
  cases hone

end WorkforceRisk.Proposals
