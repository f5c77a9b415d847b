/-
  WorkforceRisk.Proposals.Approval — no write without a valid approval.

  A proposal comes into the states in which Jira may be written to (`writeStates`) by one
  transition only, `decide` on a pending proposal, and leaves `pending` once: so it has one
  decision, the approval that passed every check then (`Approves`). Transactions that
  store outcomes need an execution, which a pending proposal never has (`Inv`).

  Proved: `write_approved`, for every proposal that is or ever was in such a state.
-/

import WorkforceRisk.Proposals.Lockstep

namespace WorkforceRisk.Proposals

open Lib Persistence DatabaseExecutionStore ProposalRepository

def writeStates : List ProposalState := [.executing, .executedVerified, .executionFailed, .uncertain]

/-- The transaction `event` is an approval of `p` that stored `d`: by an actor in scope,
    before the expiry, on the evidence the proposal was made on. -/
structure Approves (event : Event) (command : ProposalDecisionCommand) (actor : ProposalActor) (d : ApprovalDecision)
    (p : ReassignmentProposal) : Prop where
  op : event.op = .decide command actor
  made : d ∉ event.before.decisions.rows ∧ d ∈ event.after.decisions.rows
  proposalId : d.proposalId = p.id
  actorId : d.actorId = actor.actorId
  decision : d.decision = .approve
  decidedAt : d.createdAt = command.decidedAt
  environment : actor.environment = p.environment
  scope : p.projectKey ∈ actor.projectScopes
  unexpired : command.decidedAt < p.expiresAt
  evidence : command.currentEvidenceFingerprint = p.evidenceFingerprint

theorem Approves.continues {event : Event} {command : ProposalDecisionCommand} {actor : ProposalActor}
    {d : ApprovalDecision} {p p' : ReassignmentProposal} (h : Approves event command actor d p) (hc : p'.Continues p) :
    Approves event command actor d p' := by
  rw [hc]
  exact ⟨h.op, h.made, h.proposalId, h.actorId, h.decision, h.decidedAt, h.environment, h.scope, h.unexpired,
    h.evidence⟩

structure ApprovalInv (w : World) : Prop where
  decided : ∀ d ∈ w.db.decisions.rows, ∃ p ∈ w.db.proposals.rows, p.id = d.proposalId ∧ p.environment = d.environment ∧
    p.state ≠ .pending
  once : ∀ d ∈ w.db.decisions.rows, ∀ d' ∈ w.db.decisions.rows, d.proposalId = d'.proposalId → d = d'
  approved : ∀ db ∈ w.history, ∀ p ∈ db.proposals.rows, p.state ∈ writeStates →
    ∃ d ∈ w.db.decisions.rows, ∃ event ∈ w.events, ∃ command actor, Approves event command actor d p

theorem pending_not_write : ProposalState.pending ∉ writeStates := by decide

theorem active_write {s : ProposalState} (h : DatabaseReconciliationStore.isActive s = true) : s ∈ writeStates := by
  revert h
  cases s <;> decide

/-- A transaction moves no proposal back to pending. -/
theorem Effect.decided_kept {op : Op} {db db' : Db} (h : Effect op db db') {p : ReassignmentProposal}
    (hp : p ∈ db.proposals.rows) (hs : p.state ≠ .pending) :
    ∃ p' ∈ db'.proposals.rows, p'.Continues p ∧ p'.state ≠ .pending := by
  obtain ⟨p', hp', hc, hst | hst⟩ := h.proposal_kept hp
  · exact ⟨p', hp', hc, by rw [hst]; exact hs⟩
  · exact ⟨p', hp', hc, allowed_ne_pending hst⟩

/-- A proposal comes into a write state from one, or by the decision of `op` to approve it. -/
theorem Effect.write_origin {op : Op} {w : World} {db' : Db} (h : Effect op w.db db') (hinv : Inv w) (hi : op.Issued w)
    {p' : ReassignmentProposal} (hp : p' ∈ db'.proposals.rows) (hs : p'.state ∈ writeStates) :
    (∃ p ∈ w.db.proposals.rows, p'.Continues p ∧ p.state ∈ writeStates) ∨
    ∃ draws command actor, op = .decide command actor ∧ ∃ p ∈ w.db.proposals.rows, p'.Continues p ∧
      p.environment = actor.environment ∧ p.projectKey ∈ actor.projectScopes ∧
      decisionTarget p command = .executing ∧
      w.db.decisions.insert (newDecision draws command actor p) = some db'.decisions := by
  have same : db'.proposals = w.db.proposals → ∃ p ∈ w.db.proposals.rows, p'.Continues p ∧ p.state ∈ writeStates :=
    fun e => ⟨p', by rw [← e]; exact hp, .refl p', hs⟩
  cases h with
  | quiet hps _ _ => exact Or.inl (same hps)
  | created hin hpend _ _ =>
    rcases (Table.mem_insert hin).mp hp with hm | rfl
    · exact Or.inl ⟨p', hm, .refl p', hs⟩
    · exact absurd (by rw [← hpend]; exact hs) pending_not_write
  | @decided draws command actor _ _ p hpm _ henv hscope _ hps _ hin =>
    rw [hps] at hp
    obtain ⟨q, hq, rfl⟩ := Table.mem_update.mp hp
    by_cases he : q.id = p.id
    · have : q = p := proposal_eq_of_id hq hpm he
      subst this
      refine Or.inr ⟨draws, command, actor, rfl, q, hq, continues_change q _ _ _, henv, hscope, ?_, hin⟩
      rw [Table.change_pos (p := fun x : ReassignmentProposal => x.id == q.id) (beq_self_eq_true _)] at hs
      have ht := decisionTarget_allowed q command
      revert hs ht
      show decisionTarget q command ∈ writeStates → _
      cases decisionTarget q command <;> decide
    · rw [Table.change_neg (by simpa using he)] at hs ⊢
      exact Or.inl ⟨q, hq, .refl q, hs⟩
  | prepared _ _ _ hps _ _ => exact Or.inl (same hps)
  | attempted _ _ _ _ hps _ _ => exact Or.inl (same hps)
  | leased _ _ _ _ hps _ _ => exact Or.inl (same hps)
  | @settled _ _ _ e p _ _ _ hem hpm hids ha _ hps _ _ =>
    rw [hps] at hp
    obtain ⟨q, hq, rfl⟩ := Table.mem_update.mp hp
    refine Or.inl ⟨q, hq, continues_change q _ _ _, ?_⟩
    by_cases he : q.id = p.id
    · have : q = p := proposal_eq_of_id hq hpm he
      rw [this, hinv.settled_states hi hids hem hpm rfl rfl]
      exact active_write ha
    · rwa [Table.change_neg (by simpa using he)] at hs

/-- A decision of the new database is an old one, or the one `op` stores for a pending proposal. -/
theorem Effect.decision_origin {op : Op} {db db' : Db} (h : Effect op db db') {d : ApprovalDecision}
    (hd : d ∈ db'.decisions.rows) : d ∈ db.decisions.rows ∨
    ∃ p ∈ db.proposals.rows, p.id = d.proposalId ∧ p.environment = d.environment ∧ p.state = .pending ∧
      ∃ p' ∈ db'.proposals.rows, p'.Continues p ∧ p'.state ≠ .pending := by
  cases h with
  | quiet _ _ hds => exact Or.inl (by rw [← hds]; exact hd)
  | created _ _ _ hds => exact Or.inl (by rw [← hds]; exact hd)
  | @decided draws command actor _ _ p hp _ henv _ hs hps _ hin =>
    rcases (Table.mem_insert hin).mp hd with hm | rfl
    · exact Or.inl hm
    · refine Or.inr ⟨p, hp, rfl, henv, hs, p.moved (decisionTarget p command) 2, ?_, rfl, ?_⟩
      · rw [hps]
        exact Table.mem_update_pos hp (beq_self_eq_true _)
      · exact allowed_ne_pending (decisionTarget_allowed p command)
  | prepared _ _ _ _ _ hds => exact Or.inl (by rw [← hds]; exact hd)
  | attempted _ _ _ _ _ _ hds => exact Or.inl (by rw [← hds]; exact hd)
  | leased _ _ _ _ _ _ hds => exact Or.inl (by rw [← hds]; exact hd)
  | settled _ _ _ _ _ _ _ _ hds => exact Or.inl (by rw [← hds]; exact hd)

/-- At most one decision is new. -/
theorem Effect.one_decision {op : Op} {db db' : Db} (h : Effect op db db') {d d' : ApprovalDecision}
    (hd : d ∈ db'.decisions.rows) (hd' : d' ∈ db'.decisions.rows) (hn : d ∉ db.decisions.rows)
    (hn' : d' ∉ db.decisions.rows) : d = d' := by
  have same : db'.decisions = db.decisions → d = d' := fun e => absurd (by rw [← e]; exact hd) hn
  cases h with
  | quiet _ _ hds => exact same hds
  | created _ _ _ hds => exact same hds
  | decided _ _ _ _ _ _ _ hin =>
    rw [((Table.mem_insert hin).mp hd).resolve_left hn, ((Table.mem_insert hin).mp hd').resolve_left hn']
  | prepared _ _ _ _ _ hds => exact same hds
  | attempted _ _ _ _ _ _ hds => exact same hds
  | leased _ _ _ _ _ _ hds => exact same hds
  | settled _ _ _ _ _ _ _ _ hds => exact same hds

theorem approval_step {w : World} {op : Op} {r : op.Result} {db' : Db} {call : Option Nat} (h : ApprovalInv w)
    (hinv : Inv w) (hi : op.Issued w) (he : Effect op w.db db') : ApprovalInv (w.commit call op r db') := by
  refine ⟨fun d hd => ?_, fun d hd d' hd' hid => ?_, fun db hdb p hp hs => ?_⟩
  · rcases he.decision_origin hd with hm | ⟨p, _, hpid, henv, _, p', hp', hc, hs⟩
    · obtain ⟨p, hp, hpid, henv, hs⟩ := h.decided d hm
      obtain ⟨p', hp', hc, hs'⟩ := he.decided_kept hp hs
      exact ⟨p', hp', hc.id_eq.trans hpid, by rw [hc]; exact henv, hs'⟩
    · exact ⟨p', hp', hc.id_eq.trans hpid, by rw [hc]; exact henv, hs⟩
  · -- a new decision is on a proposal that was pending, and an old one is not
    have clash : ∀ {a b : ApprovalDecision}, a ∈ w.db.decisions.rows → a.proposalId = b.proposalId →
        b ∈ db'.decisions.rows → b ∈ w.db.decisions.rows := by
      intro a b ha hab hb
      rcases he.decision_origin hb with hm | ⟨p, hp, hpid, _, hpend, _⟩
      · exact hm
      · obtain ⟨q, hq, hqid, _, hqs⟩ := h.decided a ha
        exact absurd hpend (by rw [proposal_eq_of_id hp hq (by rw [hpid, hqid, hab])]; exact hqs)
    by_cases hm : d ∈ w.db.decisions.rows
    · exact h.once d hm d' (clash hm hid hd') hid
    · by_cases hm' : d' ∈ w.db.decisions.rows
      · exact absurd (clash hm' hid.symm hd) hm
      · exact he.one_decision hd hd' hm hm'
  · have old : ∀ db ∈ w.history, ∀ q ∈ db.proposals.rows, q.state ∈ writeStates → p.Continues q →
        ∃ d ∈ db'.decisions.rows, ∃ event ∈ (w.commit call op r db').events, ∃ command actor,
          Approves event command actor d p := by
      intro db hdb q hq hqs hc
      obtain ⟨d, hd, event, hev, command, actor, ha⟩ := h.approved db hdb q hq hqs
      exact ⟨d, he.decision_kept hd, event, List.mem_cons_of_mem _ hev, command, actor, ha.continues hc⟩
    rw [World.commit_history] at hdb
    rcases List.mem_cons.mp hdb with rfl | hdb
    · rcases he.write_origin hinv hi hp hs with ⟨q, hq, hc, hqs⟩ |
        ⟨draws, command, actor, rfl, q, hq, hc, henv, hscope, ht, hin⟩
      · exact old w.db w.db_mem_history q hq hqs hc
      · obtain ⟨hexp, hev, hdec⟩ := decisionTarget_executing.mp ht
        have hnew : newDecision draws command actor q ∉ w.db.decisions.rows := fun hm =>
          (not_clashes_byIdAnd.mp (Table.insert_fresh hin _ hm)).1 rfl
        have hmem := (Table.mem_insert hin).mpr (Or.inr rfl)
        exact ⟨_, hmem, _, List.mem_cons_self, command, actor,
          Approves.continues ⟨rfl, ⟨hnew, hmem⟩, rfl, rfl, hdec, rfl, henv.symm, hscope, hexp, hev.symm⟩ hc⟩
    · exact old db hdb p hp hs (.refl p)

section
variable [Sha256]

theorem approval_inv {w : World} (h : Reach w) : ApprovalInv w := by
  induction h with
  | init =>
    refine ⟨fun _ hd => (nomatch hd), fun _ hd => (nomatch hd), fun db hdb p hp => ?_⟩
    rw [List.mem_singleton.mp hdb] at hp
    cases hp
  | commit call h hi hr ih => exact approval_step ih (inv h) hi (run_effect _ hr)
  | called call tool proposalId _ ih => exact ⟨ih.decided, ih.once, ih.approved⟩

/-- A proposal that is or ever was in a write state has one decision, the approval of an
    actor in its environment and scope, before it expired and on its evidence; and it is
    about the task and the assignees it was created with. -/
theorem write_approved {w : World} (h : Reach w) {p : ReassignmentProposal} (hp : p ∈ w.db.proposals.rows) :
    (∀ db ∈ w.history, ∀ q ∈ db.proposals.rows, q.id = p.id →
      q.taskKey = p.taskKey ∧ q.expectedAssignee = p.expectedAssignee ∧ q.proposedAssignee = p.proposedAssignee) ∧
    ((∃ db ∈ w.history, ∃ q ∈ db.proposals.rows, q.id = p.id ∧ q.state ∈ writeStates) →
      ∃ d ∈ w.db.decisions.rows, (∀ d' ∈ w.db.decisions.rows, d'.proposalId = p.id → d' = d) ∧
        ∃ event ∈ w.events, ∃ command actor, Approves event command actor d p) := by
  have continued : ∀ db ∈ w.history, ∀ q ∈ db.proposals.rows, q.id = p.id → p.Continues q := by
    intro db hdb q hq hid
    obtain ⟨p', hp', hc⟩ := h.proposal_since hdb hq
    rwa [proposal_eq_of_id hp' hp (hc.id_eq.trans hid)] at hc
  refine ⟨fun db hdb q hq hid => ?_, fun ⟨db, hdb, q, hq, hid, hs⟩ => ?_⟩
  · rw [continued db hdb q hq hid]
    exact ⟨rfl, rfl, rfl⟩
  · obtain ⟨d, hd, event, hev, command, actor, ha⟩ := (approval_inv h).approved db hdb q hq hs
    have ha' := ha.continues (continued db hdb q hq hid)
    exact ⟨d, hd, fun d' hd' hid' => (approval_inv h).once d' hd' d hd (hid'.trans ha'.proposalId.symm), event, hev,
      command, actor, ha'⟩

end

/-- The proposal of the sample run, uncertain now, has its approval. -/
theorem write_approved_sample : letI := Sha256.transparent
    ∃ w, World.init.run (sampleApproval ++ sampleExecution) = some w ∧ ∃ p ∈ w.db.proposals.rows,
      p.state = .uncertain ∧ ∃ d ∈ w.db.decisions.rows,
        (∀ d' ∈ w.db.decisions.rows, d'.proposalId = p.id → d' = d) ∧
        ∃ event ∈ w.events, ∃ command actor, Approves event command actor d p := by
  let _ := Sha256.transparent
  have run : (World.init.run (sampleApproval ++ sampleExecution)).map
      (fun w => w.db.proposals.rows.any (·.state == .uncertain)) = some true := by decide
  obtain ⟨w, hw, hs⟩ := Option.map_eq_some_iff.mp run
  obtain ⟨p, hp, hs⟩ := List.any_eq_true.mp hs
  have hs : p.state = .uncertain := by simpa using hs
  exact ⟨w, hw, p, hp, hs, (write_approved (run_reach .init hw) hp).2
    ⟨w.db, w.db_mem_history, p, hp, rfl, by rw [hs]; decide⟩⟩

end WorkforceRisk.Proposals
