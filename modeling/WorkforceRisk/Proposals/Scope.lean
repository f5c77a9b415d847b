/-
  WorkforceRisk.Proposals.Scope — whose proposals an operation returns.

  Four operations return a `StoredProposal`, each to an actor. `get_authorized` checks
  the row's project. `create` and `decide` check it only where they go on to write: when
  the idempotency key is already stored, they return the proposal it is stored for, of
  whatever project of the environment (`foreign_proposal_returned`).

  Proved: an operation returns only proposals in the actor's environment and scopes,
  exactly when its key is not stored for a proposal outside them
  (`returned_in_scope_iff`). The environment is always the actor's.
-/

import WorkforceRisk.Proposals.Approval

namespace WorkforceRisk.Proposals

open Lib Persistence ProposalRepository

namespace Op

def actor? : Op → Option ProposalActor
  | create _ actor => some actor
  | createFromStoredSimulation _ _ _ _ actor => some actor
  | decide _ actor => some actor
  | getAuthorized _ actor => some actor
  | _ => none

/-- The proposal a result shows its actor. -/
def returned : (op : Op) → op.Result → Option StoredProposal
  | create .., v => some v
  | createFromStoredSimulation .., v => some v
  | decide .., v => some v
  | getAuthorized .., v => v
  | _, _ => none

end Op

/-- `v` is a proposal of the actor's environment and scopes. -/
def InScope (db : Db) (actor : ProposalActor) (v : StoredProposal) : Prop :=
  ∃ p ∈ db.proposals.rows, p.id = v.proposalId ∧ p.environment = actor.environment ∧ p.projectKey ∈ actor.projectScopes

/-- The create key is stored for a proposal outside the actor's scopes. -/
def ForeignKey (seen : Db) (command : ProposalCreateCommand) (actor : ProposalActor) : Prop :=
  actor.environment = command.simulation.environment ∧ command.simulation.projectKey ∈ actor.projectScopes ∧
  ∃ p ∈ seen.proposals.rows, p.environment = actor.environment ∧ p.idempotencyKey = command.idempotencyKey ∧
    p.projectKey ∉ actor.projectScopes

instance (seen : Db) (command : ProposalCreateCommand) (actor : ProposalActor) :
    Decidable (ForeignKey seen command actor) := inferInstanceAs (Decidable (_ ∧ _ ∧ _))

/-- The operation's idempotency key is stored for a proposal outside the actor's scopes. -/
def Op.HitsForeign [Sha256] (seen db : Db) : Op → Prop
  | .create command actor => ForeignKey seen command actor
  | .createFromStoredSimulation simulationId key expiresAt requestedAt actor =>
    ∃ simulation command, SimulationRepository.get seen actor.environment simulationId = some simulation ∧
      commandOf simulation key expiresAt requestedAt = .ok command ∧ ForeignKey seen command actor
  | .decide command actor =>
    ∃ d ∈ seen.decisions.rows, d.environment = actor.environment ∧ d.idempotencyKey = command.idempotencyKey ∧
      ∃ p ∈ db.proposals.rows, p.id = d.proposalId ∧ p.projectKey ∉ actor.projectScopes
  | _ => False

theorem getAuthorized_scope {proposalId : Uuid} {actor : ProposalActor} {db : Db} {v : StoredProposal}
    (h : getAuthorized proposalId actor db = some v) : InScope db actor v := by
  obtain ⟨p, hp, _, henv, hscope, rfl⟩ := getAuthorized_some h
  exact ⟨p, hp, rfl, henv, hscope⟩

section
variable [Sha256]

theorem create_foreign {w : World} (h : Reach w) {n : Nat} {command : ProposalCreateCommand} {actor : ProposalActor}
    (hf : ForeignKey (w.asOf n) command actor) (draws : Draws) :
    ∃ v, create draws command actor (w.asOf n) w.db = .ok (v, w.db) ∧ ¬ InScope w.db actor v := by
  obtain ⟨henv, hscope, p, hp, hpe, hpk, hout⟩ := hf
  have hit : stored (w.asOf n) actor.environment command.idempotencyKey = some p := by
    rw [← hpe, ← hpk]
    exact stored_of_mem hp
  refine ⟨view p, create_hit henv hscope hit draws w.db, fun ⟨q, hq, hqid, _, hin⟩ => hout ?_⟩
  -- the row under the returned id continues the one outside the scopes
  obtain ⟨p', hp', hc⟩ := h.proposal_since (w.asOf_mem_history n) hp
  have : q = p' := proposal_eq_of_id hq hp' (hqid.trans hc.id_eq.symm)
  rw [this, hc] at hin
  exact hin

theorem create_scope {w : World} (h : Reach w) {n : Nat} {command : ProposalCreateCommand} {actor : ProposalActor}
    (hf : ¬ ForeignKey (w.asOf n) command actor) {draws : Draws} {v : StoredProposal} {db : Db}
    (hr : create draws command actor (w.asOf n) w.db = .ok (v, db)) : InScope db actor v := by
  obtain ⟨henv, hscope, ⟨p, hp, rfl, rfl⟩ | ⟨_, rfl, proposals, audit, hin, rfl⟩⟩ := create_cases hr
  · obtain ⟨hm, hpe, hpk⟩ := stored_some hp
    have hin : p.projectKey ∈ actor.projectScopes :=
      Classical.byContradiction fun hout => hf ⟨henv, hscope, p, hm, hpe, hpk, hout⟩
    obtain ⟨p', hp', hc⟩ := h.proposal_since (w.asOf_mem_history n) hm
    exact ⟨p', hp', hc.id_eq, by rw [hc]; exact hpe, by rw [hc]; exact hin⟩
  · exact ⟨_, (Table.mem_insert hin).mpr (Or.inr rfl), rfl, rfl, hscope⟩

theorem decide_foreign {w : World} {n : Nat} {command : ProposalDecisionCommand} {actor : ProposalActor}
    (hf : (Op.decide command actor).HitsForeign (w.asOf n) w.db) (draws : Draws) :
    ∃ v, ProposalRepository.decide draws command actor (w.asOf n) w.db = .ok (v, w.db) ∧ ¬ InScope w.db actor v := by
  obtain ⟨d, hd, hde, hdk, p, hp, hpid, hout⟩ := hf
  have hit : duplicate (w.asOf n) actor.environment command.idempotencyKey = some d := by
    rw [← hde, ← hdk]
    exact duplicate_of_mem hd
  refine ⟨view p, decide_hit hit hp hpid draws, fun ⟨q, hq, hqid, _, hin⟩ => hout ?_⟩
  rw [← proposal_eq_of_id hq hp hqid]
  exact hin

theorem decide_scope {w : World} (h : Reach w) {n : Nat} {command : ProposalDecisionCommand} {actor : ProposalActor}
    (hf : ¬ (Op.decide command actor).HitsForeign (w.asOf n) w.db) {draws : Draws} {v : StoredProposal} {db : Db}
    (hr : ProposalRepository.decide draws command actor (w.asOf n) w.db = .ok (v, db)) : InScope db actor v := by
  obtain ⟨d, p, hd, hp, hpid, rfl, rfl⟩ | ⟨_, p, hp, _, henv, hscope, _, _, rfl, _, _, _, rfl⟩ := decide_cases hr
  · obtain ⟨hm, hde, hdk⟩ := duplicate_some hd
    have hin : p.projectKey ∈ actor.projectScopes :=
      Classical.byContradiction fun hout => hf ⟨d, hm, hde, hdk, p, hp, hpid, hout⟩
    -- the stored decision is about a proposal of its own environment
    obtain ⟨q, hq, hqid, hqe, _⟩ := (approval_inv h).decided d (h.decision_since (w.asOf_mem_history n) hm)
    have hqp : q = p := proposal_eq_of_id hq hp (hqid.trans hpid.symm)
    exact ⟨p, hp, rfl, by rw [← hqp, hqe, hde], hin⟩
  · refine ⟨p.moved (decisionTarget p command) 2, ?_, rfl, henv, hscope⟩
    show _ ∈ (w.db.proposals.update (·.id == p.id) (·.moved (decisionTarget p command) 2) fun _ => rfl).rows
    exact Table.mem_update_pos hp (beq_self_eq_true _)

/-- In a reachable database an operation returns only proposals in its actor's
    environment and scopes if and only if its idempotency key is not stored for a
    proposal outside the scopes. -/
theorem returned_in_scope_iff {w : World} (h : Reach w) (n : Nat) {op : Op} {actor : ProposalActor}
    (ha : op.actor? = some actor) :
    (∀ (draws : Draws) (r : op.Result) (db : Db) (v : StoredProposal),
      op.run draws (w.asOf n) w.db = .ok (r, db) → op.returned r = some v → InScope db actor v) ↔
    ¬ op.HitsForeign (w.asOf n) w.db := by
  cases op with
  | create command a =>
    cases ha
    constructor
    · intro hall hf
      obtain ⟨v, hr, hout⟩ := create_foreign h hf (sampleDraws 0 0)
      exact hout (hall _ v w.db v hr rfl)
    · intro hf draws r db v hr hv
      cases hv
      exact create_scope h hf hr
  | createFromStoredSimulation simulationId key expiresAt requestedAt a =>
    cases ha
    constructor
    · intro hall h'
      obtain ⟨simulation, command, hs, hc, hf⟩ := h'
      obtain ⟨v, hr, hout⟩ := create_foreign h hf (sampleDraws 0 0)
      refine hout (hall (sampleDraws 0 0) v w.db v ?_ rfl)
      show createFromStoredSimulation _ _ _ _ _ _ _ _ = _
      unfold createFromStoredSimulation
      simp only [hs, hc, hr]
    · intro hf draws r db v hr hv
      cases hv
      obtain ⟨simulation, command, hs, hc, hr⟩ := createFromStoredSimulation_cases hr
      exact create_scope h (fun hk => hf ⟨simulation, command, hs, hc, hk⟩) hr
  | decide command a =>
    cases ha
    constructor
    · intro hall hf
      obtain ⟨v, hr, hout⟩ := decide_foreign hf (sampleDraws 0 0)
      exact hout (hall _ v w.db v hr rfl)
    · intro hf draws r db v hr hv
      cases hv
      exact decide_scope h hf hr
  | getAuthorized proposalId a =>
    cases ha
    refine ⟨fun _ hf => hf, fun _ draws r db v hr hv => ?_⟩
    cases hr
    exact getAuthorized_scope hv
  | _ => cases ha

end

/-- The manager of the sample proposal's project is shown it again. -/
theorem returned_in_scope_sample : letI := Sha256.transparent
    ∃ w, World.init.run sampleApproval = some w ∧ ∀ (draws : Draws) (v : StoredProposal) (db : Db),
      (Op.create sampleCreate sampleActor).run draws w.db w.db = .ok (v, db) → InScope db sampleActor v := by
  let _ := Sha256.transparent
  have run : (World.init.run sampleApproval).map (fun w => decide (ForeignKey w.db sampleCreate sampleActor)) =
      some false := by decide
  obtain ⟨w, hw, hf⟩ := Option.map_eq_some_iff.mp run
  have hk : ¬ ForeignKey w.db sampleCreate sampleActor := of_decide_eq_false hf
  have ha : (Op.create sampleCreate sampleActor).actor? = some sampleActor := rfl
  exact ⟨w, hw, fun draws v db hr => (returned_in_scope_iff (run_reach .init hw) 0 ha).mpr hk draws v db v hr rfl⟩

/-- A simulation in another project, -/
def otherSimulation : StoredSimulation :=
  { sampleSimulation with
    simulationId := "simulation-2", projectKey := "OPS", taskId := "OPS-7", projectKey_ok := by decide }

/-- its manager, and a command under the sample's key. -/
def otherActor : ProposalActor := ⟨"manager-2", .manager, .dev, ["OPS"], "correlation-5"⟩

def otherCreate : ProposalCreateCommand := { sampleCreate with simulation := otherSimulation }

/-- Creating under a key another project has used returns that project's proposal. -/
theorem foreign_proposal_returned : letI := Sha256.transparent
    ¬ ∀ w, Reach w → ∀ (op : Op) (actor : ProposalActor), op.actor? = some actor →
      ∀ (draws : Draws) (r : op.Result) (db : Db) (v : StoredProposal), op.run draws w.db w.db = .ok (r, db) →
        op.returned r = some v → InScope db actor v := by
  let _ := Sha256.transparent
  intro h
  have run : (World.init.run sampleApproval).map (fun w => decide (ForeignKey w.db otherCreate otherActor)) =
      some true := by decide
  obtain ⟨w, hw, hf⟩ := Option.map_eq_some_iff.mp run
  obtain ⟨v, hr, hout⟩ := create_foreign (n := 0) (run_reach .init hw) (of_decide_eq_true hf) (sampleDraws 9 30)
  exact hout (h w (run_reach .init hw) (.create otherCreate otherActor) otherActor rfl _ v w.db v hr rfl)

end WorkforceRisk.Proposals
