/-
  WorkforceRisk.Proposals.Idempotency — what an idempotency key stands for.

  A key that is stored answers every later command under it: `create` and `decide` look it
  up by environment and key, and compare nothing else. So a replay returns what the first
  use returned and writes nothing, and a key used again for another simulation, proposal
  or decision is answered with success for the first one (`reused_key_answered`).

  Proved: a command is answered only with what it names, and repeated without effect,
  exactly when its key is not stored for something else (`key_bound_iff`).
-/

import WorkforceRisk.Proposals.Scope

namespace WorkforceRisk.Proposals

open Lib Persistence ProposalRepository

def Op.isCommand : Op → Bool
  | .create .. | .decide .. => true
  | _ => false

/-- `v` is the proposal the command names: made from its simulation, or decided as it says. -/
def Names (db : Db) : Op → StoredProposal → Prop
  | .create command _, v =>
    ∃ p ∈ db.proposals.rows, p.id = v.proposalId ∧ p.simulationId = command.simulation.simulationId
  | .decide command _, v =>
    v.proposalId = command.proposalId ∧
      ∃ d ∈ db.decisions.rows, d.proposalId = command.proposalId ∧ d.decision = command.decision
  | _, _ => True

/-- The second command is the first again, by an actor who may give it. -/
def Repeats : Op → Op → Prop
  | .create command actor, .create command' actor' =>
    command' = command ∧ actor'.environment = actor.environment ∧ command.simulation.projectKey ∈ actor'.projectScopes
  | .decide command actor, .decide command' actor' => command' = command ∧ actor'.environment = actor.environment
  | _, _ => False

/-- The command's key is stored for something else than it names. -/
def KeyReused (seen : Db) : Op → Prop
  | .create command actor =>
    actor.environment = command.simulation.environment ∧ command.simulation.projectKey ∈ actor.projectScopes ∧
    ∃ p ∈ seen.proposals.rows, p.environment = actor.environment ∧ p.idempotencyKey = command.idempotencyKey ∧
      p.simulationId ≠ command.simulation.simulationId
  | .decide command actor =>
    ∃ d ∈ seen.decisions.rows, d.environment = actor.environment ∧ d.idempotencyKey = command.idempotencyKey ∧
      ¬ (d.proposalId = command.proposalId ∧ d.decision = command.decision)
  | _ => False

instance (seen : Db) (command : ProposalCreateCommand) (actor : ProposalActor) :
    Decidable (KeyReused seen (.create command actor)) := inferInstanceAs (Decidable (_ ∧ _ ∧ _))

section
variable [Sha256]

/-- Every success of the command is the proposal it names. -/
def AnswersNamed (w : World) (n : Nat) (op : Op) : Prop :=
  ∀ (draws : Draws) (r : op.Result) (db : Db) (v : StoredProposal),
    op.run draws (w.asOf n) w.db = .ok (r, db) → op.returned r = some v → Names db op v

/-- Repeating a committed command returns its proposal again and changes nothing. -/
def ReplaysStored (w : World) (n : Nat) (op : Op) : Prop :=
  ∀ event ∈ w.events.drop n, Repeats event.op op → ∀ v, event.op.returned event.result = some v →
    ∀ draws : Draws, ∃ r v', op.run draws (w.asOf n) w.db = .ok (r, w.db) ∧ op.returned r = some v' ∧
      v'.proposalId = v.proposalId

theorem create_answers {w : World} (h : Reach w) (n : Nat) (command : ProposalCreateCommand) (actor : ProposalActor) :
    AnswersNamed w n (.create command actor) ↔ ¬ KeyReused (w.asOf n) (.create command actor) := by
  constructor
  · intro hall h'
    obtain ⟨henv, hscope, p, hp, hpe, hpk, hne⟩ := h'
    have hit : stored (w.asOf n) actor.environment command.idempotencyKey = some p := by
      rw [← hpe, ← hpk]
      exact stored_of_mem hp
    obtain ⟨q, hq, hqid, hqs⟩ := hall (sampleDraws 0 0) (view p) w.db (view p) (create_hit henv hscope hit _ _) rfl
    obtain ⟨p', hp', hc⟩ := h.proposal_since (w.asOf_mem_history n) hp
    rw [proposal_eq_of_id hq hp' (hqid.trans hc.id_eq.symm), hc] at hqs
    exact hne hqs
  · intro hk draws r db v hr hv
    cases hv
    obtain ⟨henv, hscope, ⟨p, hp, rfl, rfl⟩ | ⟨_, rfl, proposals, audit, hin, rfl⟩⟩ := create_cases hr
    · obtain ⟨hm, hpe, hpk⟩ := stored_some hp
      obtain ⟨p', hp', hc⟩ := h.proposal_since (w.asOf_mem_history n) hm
      have hs : p.simulationId = command.simulation.simulationId :=
        Classical.byContradiction fun hne => hk ⟨henv, hscope, p, hm, hpe, hpk, hne⟩
      exact ⟨p', hp', hc.id_eq, by rw [hc]; exact hs⟩
    · exact ⟨_, (Table.mem_insert hin).mpr (Or.inr rfl), rfl, rfl⟩

theorem decide_answers {w : World} (h : Reach w) (n : Nat) (command : ProposalDecisionCommand) (actor : ProposalActor) :
    AnswersNamed w n (.decide command actor) ↔ ¬ KeyReused (w.asOf n) (.decide command actor) := by
  constructor
  · intro hall h'
    obtain ⟨d, hd, hde, hdk, hne⟩ := h'
    have hit : duplicate (w.asOf n) actor.environment command.idempotencyKey = some d := by
      rw [← hde, ← hdk]
      exact duplicate_of_mem hd
    have hd' := h.decision_since (w.asOf_mem_history n) hd
    obtain ⟨p, hp, hpid, _⟩ := (approval_inv h).decided d hd'
    obtain ⟨hid, d', hm, hdid, hdd⟩ := hall (sampleDraws 0 0) (view p) w.db (view p) (decide_hit hit hp hpid _) rfl
    have hdp : d.proposalId = command.proposalId := hpid.symm.trans hid
    -- the proposal has one decision, the stored one
    rw [(approval_inv h).once d' hm d hd' (hdid.trans hdp.symm)] at hdd
    exact hne ⟨hdp, hdd⟩
  · intro hk draws r db v hr hv
    cases hv
    obtain ⟨d, p, hd, hp, hpid, rfl, rfl⟩ | ⟨_, p, hp, hpid, _, _, _, _, rfl, decisions, _, hin, rfl⟩ := decide_cases hr
    · obtain ⟨hm, hde, hdk⟩ := duplicate_some hd
      obtain ⟨hdp, hdd⟩ := Classical.not_not.mp fun hne => hk ⟨d, hm, hde, hdk, hne⟩
      exact ⟨hpid.trans hdp, d, h.decision_since (w.asOf_mem_history n) hm, hdp, hdd⟩
    · exact ⟨hpid, _, (Table.mem_insert hin).mpr (Or.inr rfl), hpid, rfl⟩

/-- The proposal a create returns is stored under its key, in what it saw or in what it left. -/
theorem create_under_key {draws : Draws} {command : ProposalCreateCommand} {actor : ProposalActor} {seen db db' : Db}
    {v : StoredProposal} (h : create draws command actor seen db = .ok (v, db')) :
    ∃ p, (p ∈ seen.proposals.rows ∨ p ∈ db'.proposals.rows) ∧ p.id = v.proposalId ∧ p.environment = actor.environment ∧
      p.idempotencyKey = command.idempotencyKey := by
  obtain ⟨_, _, ⟨p, hp, rfl, _⟩ | ⟨_, rfl, _, _, hin, rfl⟩⟩ := create_cases h
  · obtain ⟨hm, hpe, hpk⟩ := stored_some hp
    exact ⟨p, Or.inl hm, rfl, hpe, hpk⟩
  · exact ⟨_, Or.inr ((Table.mem_insert hin).mpr (Or.inr rfl)), rfl, rfl, rfl⟩

/-- So is the decision on the proposal a decide returns. -/
theorem decide_under_key {draws : Draws} {command : ProposalDecisionCommand} {actor : ProposalActor} {seen db db' : Db}
    {v : StoredProposal} (h : ProposalRepository.decide draws command actor seen db = .ok (v, db')) :
    ∃ d, (d ∈ seen.decisions.rows ∨ d ∈ db'.decisions.rows) ∧ d.proposalId = v.proposalId ∧
      d.environment = actor.environment ∧ d.idempotencyKey = command.idempotencyKey := by
  obtain ⟨d, p, hd, _, hpid, rfl, _⟩ | ⟨_, p, _, _, _, _, _, _, rfl, _, _, hin, rfl⟩ := decide_cases h
  · obtain ⟨hm, hde, hdk⟩ := duplicate_some hd
    exact ⟨d, Or.inl hm, hpid.symm, hde, hdk⟩
  · exact ⟨_, Or.inr ((Table.mem_insert hin).mpr (Or.inr rfl)), rfl, rfl, rfl⟩

theorem create_replays {w : World} (h : Reach w) (n : Nat) (command : ProposalCreateCommand) (actor : ProposalActor) :
    ReplaysStored w n (.create command actor) := by
  intro event hev hrep v hv draws
  obtain ⟨w', h', hdb, hev'⟩ := h.earlier n event hev
  obtain ⟨draws₀, seen, hseen, hrun⟩ := h'.event_run event hev'
  have hafter := h'.after_mem_history event hev'
  obtain ⟨call, op, r, before, after⟩ := event
  cases op with
  | create command' actor' =>
    obtain ⟨rfl, henv', hscope'⟩ := hrep
    cases hv
    -- the row the first use returned, as it is `n` commits ago
    have found : ∃ p ∈ w'.db.proposals.rows, p.id = r.proposalId ∧ p.environment = actor'.environment ∧
        p.idempotencyKey = command.idempotencyKey := by
      obtain ⟨p, hp, hpid, hpe, hpk⟩ := create_under_key hrun
      obtain ⟨p', hp', hc⟩ := hp.elim (h'.proposal_since hseen) (h'.proposal_since hafter)
      exact ⟨p', hp', hc.id_eq.trans hpid, by rw [hc]; exact hpe, by rw [hc]; exact hpk⟩
    obtain ⟨p, hp, hpid, hpe, hpk⟩ := found
    rw [hdb] at hp
    have hit : stored (w.asOf n) actor.environment command.idempotencyKey = some p := by
      rw [henv', ← hpe, ← hpk]
      exact stored_of_mem hp
    have henv : actor.environment = command.simulation.environment := henv'.trans (create_cases hrun).1
    exact ⟨view p, view p, create_hit henv hscope' hit draws w.db, rfl, hpid⟩
  | _ => exact False.elim hrep

theorem decide_replays {w : World} (h : Reach w) (n : Nat) (command : ProposalDecisionCommand) (actor : ProposalActor) :
    ReplaysStored w n (.decide command actor) := by
  intro event hev hrep v hv draws
  obtain ⟨w', h', hdb, hev'⟩ := h.earlier n event hev
  obtain ⟨draws₀, seen, hseen, hrun⟩ := h'.event_run event hev'
  have hafter := h'.after_mem_history event hev'
  obtain ⟨call, op, r, before, after⟩ := event
  cases op with
  | decide command' actor' =>
    obtain ⟨rfl, henv'⟩ := hrep
    cases hv
    obtain ⟨d, hd, hdp, hde, hdk⟩ := decide_under_key hrun
    have hd := hd.elim (h'.decision_since hseen) (h'.decision_since hafter)
    rw [hdb] at hd
    have hit : duplicate (w.asOf n) actor.environment command.idempotencyKey = some d := by
      rw [henv', ← hde, ← hdk]
      exact duplicate_of_mem hd
    obtain ⟨p, hp, hpid, _⟩ := (approval_inv h).decided d (h.decision_since (w.asOf_mem_history n) hd)
    exact ⟨view p, view p, decide_hit hit hp hpid draws, rfl, hpid.trans hdp⟩
  | _ => exact False.elim hrep

/-- In a reachable database a command is answered only with what it names, and repeated
    without effect, if and only if its key is not stored for something else. -/
theorem key_bound_iff {w : World} (h : Reach w) (n : Nat) {op : Op} (hop : op.isCommand = true) :
    AnswersNamed w n op ∧ ReplaysStored w n op ↔ ¬ KeyReused (w.asOf n) op := by
  cases op with
  | create command actor =>
    rw [create_answers h n command actor]
    exact and_iff_left (create_replays h n command actor)
  | decide command actor =>
    rw [decide_answers h n command actor]
    exact and_iff_left (decide_replays h n command actor)
  | _ => cases hop

end

/-- The sample create is answered with its proposal, and again when repeated. -/
theorem key_bound_sample : letI := Sha256.transparent
    ∃ w, World.init.run sampleApproval = some w ∧ AnswersNamed w 0 (.create sampleCreate sampleActor) ∧
      ReplaysStored w 0 (.create sampleCreate sampleActor) := by
  let _ := Sha256.transparent
  have run : (World.init.run sampleApproval).map
      (fun w => decide (KeyReused w.db (.create sampleCreate sampleActor))) = some false := by decide
  obtain ⟨w, hw, hk⟩ := Option.map_eq_some_iff.mp run
  exact ⟨w, hw, (key_bound_iff (run_reach .init hw) 0 rfl).mpr (of_decide_eq_false hk)⟩

/-- The sample create again, for another simulation of the project. -/
def reusedCreate : ProposalCreateCommand :=
  { sampleCreate with simulation := { sampleSimulation with simulationId := "simulation-3", taskId := "DEV-2" } }

/-- A create under a used key succeeds with the proposal of another simulation. -/
theorem reused_key_answered : letI := Sha256.transparent
    ¬ ∀ w, Reach w → ∀ op : Op, op.isCommand = true → AnswersNamed w 0 op ∧ ReplaysStored w 0 op := by
  let _ := Sha256.transparent
  intro h
  have run : (World.init.run sampleApproval).map
      (fun w => decide (KeyReused w.db (.create reusedCreate sampleActor))) = some true := by decide
  obtain ⟨w, hw, hk⟩ := Option.map_eq_some_iff.mp run
  exact (create_answers (run_reach .init hw) 0 reusedCreate sampleActor).mp
    (h w (run_reach .init hw) (.create reusedCreate sampleActor) rfl).1 (of_decide_eq_true hk)

end WorkforceRisk.Proposals
