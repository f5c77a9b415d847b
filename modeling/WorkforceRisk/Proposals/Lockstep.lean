/-
  WorkforceRisk.Proposals.Lockstep — an execution and its proposal are in the same state.

  Nothing in the schema says so: `finalize` and `resolve` write both rows by hand, and
  `decide` writes only the proposal. `Inv` is what makes it hold: an execution is never
  pending, so no proposal that has one is still to be decided, and the two ids of a claim
  are those of an execution and its own proposal.

  Proved: `lockstep` for every reachable world, with the transitions of every committed
  transaction, the terminal states, and that no outcome stored for an issued claim is an
  illegal transition.
-/

import WorkforceRisk.Proposals.Kept

namespace WorkforceRisk.Proposals

open Lib Persistence DatabaseExecutionStore

structure Inv (w : World) : Prop where
  lockstep : ∀ e ∈ w.db.executions.rows, e.state ≠ .pending ∧
    ∃ p ∈ w.db.proposals.rows, p.id = e.proposalId ∧ p.environment = e.environment ∧ p.state = e.state
  issued : ∀ event ∈ w.events, ∀ ids ∈ event.issued, ∃ e ∈ w.db.executions.rows, (e.id, e.proposalId) = ids

/-- Two executions of one proposal are one. -/
theorem Inv.execution_eq {w : World} (h : Inv w) {e f : ProposalExecution} (he : e ∈ w.db.executions.rows)
    (hf : f ∈ w.db.executions.rows) (hp : e.proposalId = f.proposalId) : e = f := by
  obtain ⟨_, p, hpm, hpid, hpe, _⟩ := h.lockstep e he
  obtain ⟨_, q, hqm, hqid, hqe, _⟩ := h.lockstep f hf
  have hpq : p = q := proposal_eq_of_id hpm hqm (by rw [hpid, hqid, hp])
  exact execution_eq_of_proposal he hf (by rw [← hpe, ← hqe, hpq]) hp

/-- The two ids of an issued claim are an execution's and its own proposal's. -/
theorem Inv.claimed_proposal {w : World} (h : Inv w) {op : Op} {proposalId : Uuid} {s : ProposalState}
    {e : ProposalExecution} (hi : op.Issued w) (hs : op.settles = some (e.id, proposalId, s))
    (he : e ∈ w.db.executions.rows) : e.proposalId = proposalId := by
  obtain ⟨event, hev, hin⟩ := issued_of_settles hi hs
  obtain ⟨e₀, he₀, heq⟩ := h.issued event hev _ hin
  have h₀ : e₀ = e := execution_eq_of_id he₀ he (congrArg (·.1) heq)
  rw [← h₀]
  exact congrArg (·.2) heq

theorem allowed_ne_pending {s t : ProposalState} (h : t ∈ s.allowedTransitions) : t ≠ .pending := by
  revert h
  cases s <;> cases t <;> decide

/-- What an execution's row says of its proposal, over updates that keep both. -/
theorem lockstep_keep {db db' : Db} {e e' : ProposalExecution} (hc : e'.Continues e) (hs : e'.state = e.state)
    (hp : ∀ p ∈ db.proposals.rows, p.id = e.proposalId → p.state = e.state → p ∈ db'.proposals.rows)
    (h : e.state ≠ .pending ∧ ∃ p ∈ db.proposals.rows, p.id = e.proposalId ∧ p.environment = e.environment ∧
      p.state = e.state) :
    e'.state ≠ .pending ∧ ∃ p ∈ db'.proposals.rows, p.id = e'.proposalId ∧ p.environment = e'.environment ∧
      p.state = e'.state := by
  obtain ⟨hne, p, hpm, hpid, henv, hps⟩ := h
  rw [hs, hc.proposalId, hc.environment]
  exact ⟨hne, p, hp p hpm hpid hps, hpid, henv, hps⟩

/-- The two updates of a settled execution move it and its proposal together. -/
theorem lockstep_settled {w : World} (h : Inv w) {e : ProposalExecution} {p : ReassignmentProposal} {s : ProposalState}
    {change : ProposalExecution → ProposalExecution} (hc : Outcome s change) (hem : e ∈ w.db.executions.rows)
    (hpm : p ∈ w.db.proposals.rows) (hep : e.proposalId = p.id) (hs : s ≠ .pending) {db' : Db}
    (hps : db'.proposals = w.db.proposals.update (·.id == p.id) (·.moved s 1) ReassignmentProposal.moved_key)
    {f : ProposalExecution} (hf : f ∈ w.db.executions.rows) :
    (Table.change (·.id == e.id) change f).state ≠ .pending ∧
      ∃ q ∈ db'.proposals.rows, q.id = (Table.change (·.id == e.id) change f).proposalId ∧
        q.environment = (Table.change (·.id == e.id) change f).environment ∧
        q.state = (Table.change (·.id == e.id) change f).state := by
  have hk : (Table.change (·.id == e.id) change f).Continues f :=
    execution_change hc.key (fun e h => (hc.writeAttempted e).trans h) f
  by_cases hfe : f.id = e.id
  · have : f = e := execution_eq_of_id hf hem hfe
    subst this
    obtain ⟨_, q, hq, hqid, henv, _⟩ := h.lockstep f hf
    have hqp : q = p := proposal_eq_of_id hq hpm (hqid.trans hep)
    subst hqp
    have hfs : (Table.change (·.id == f.id) change f).state = s := by
      rw [Table.change_pos (p := fun x : ProposalExecution => x.id == f.id) (beq_self_eq_true _), hc.state]
    rw [hk.proposalId, hk.environment, hfs, hps]
    exact ⟨hs, _, Table.mem_update_pos hq (beq_self_eq_true _), hqid, henv, rfl⟩
  · refine lockstep_keep hk (by rw [Table.change_neg (by simpa using hfe)]) (fun p' hp' hid _ => ?_) (h.lockstep f hf)
    have hpp : p'.id ≠ p.id := fun hpp => hfe (congrArg (·.id)
      (h.execution_eq hf hem (hid.symm.trans (hpp.trans hep.symm))))
    rw [hps]
    exact Table.mem_update_neg hp' (by simpa using hpp)

theorem inv_effect {w : World} {op : Op} {db' : Db} (h : Inv w) (hi : op.Issued w) (he : Effect op w.db db') :
    ∀ e' ∈ db'.executions.rows, e'.state ≠ .pending ∧
      ∃ p ∈ db'.proposals.rows, p.id = e'.proposalId ∧ p.environment = e'.environment ∧ p.state = e'.state := by
  intro e' he'
  cases he with
  | quiet hps hes _ =>
    rw [hes] at he'
    exact lockstep_keep (.refl e') rfl (fun p hp _ _ => by rw [hps]; exact hp) (h.lockstep e' he')
  | created hin _ hes _ =>
    rw [hes] at he'
    exact lockstep_keep (.refl e') rfl (fun p hp _ _ => (Table.mem_insert hin).mpr (Or.inl hp)) (h.lockstep e' he')
  | @decided _ _ _ _ _ p hp _ _ _ hs hps hes _ =>
    rw [hes] at he'
    refine lockstep_keep (.refl e') rfl (fun q hq _ hqs => ?_) (h.lockstep e' he')
    -- the decided proposal was pending, so it has no execution
    have hne : q.id ≠ p.id := fun hid => by
      have : q = p := proposal_eq_of_id hq hp hid
      exact (h.lockstep e' he').1 (by rw [← hqs, this, hs])
    rw [hps]
    exact Table.mem_update_neg hq (by simpa using hne)
  | @prepared environment draws correlationId _ _ p hp henv hs hps hin _ =>
    rcases (Table.mem_insert hin).mp he' with hm | rfl
    · exact lockstep_keep (.refl e') rfl (fun q hq _ _ => by rw [hps]; exact hq) (h.lockstep e' hm)
    · exact ⟨ProposalState.noConfusion, p, by rw [hps]; exact hp, rfl, henv, hs⟩
  | attempted _ _ _ _ hps hes _ =>
    rw [hes] at he'
    obtain ⟨e, hm, rfl⟩ := Table.mem_update.mp he'
    exact lockstep_keep (execution_change (f := attempted) (fun _ => rfl) (fun _ _ => rfl) e)
      (Table.change_keeps (f := attempted) (·.state) (fun _ => rfl) e)
      (fun p hp _ _ => by rw [hps]; exact hp) (h.lockstep e hm)
  | leased _ workerId now _ hps hes _ =>
    rw [hes] at he'
    obtain ⟨e, hm, rfl⟩ := Table.mem_update.mp he'
    exact lockstep_keep
      (execution_change (f := DatabaseReconciliationStore.leased workerId now) (fun _ => rfl) (fun _ h => h) e)
      (Table.change_keeps (f := DatabaseReconciliationStore.leased workerId now) (·.state) (fun _ => rfl) e)
      (fun p hp _ _ => by rw [hps]; exact hp) (h.lockstep e hm)
  | @settled _ _ _ e p s change hc hem hpm hids _ ht hps hes _ =>
    rw [hes] at he'
    obtain ⟨f, hf, rfl⟩ := Table.mem_update.mp he'
    exact lockstep_settled h hc hem hpm (h.claimed_proposal hi hids hem) (allowed_ne_pending ht) hps hf

/-- The execution and the proposal an issued claim names are in the same state. -/
theorem Inv.settled_states {w : World} (h : Inv w) {op : Op} {executionId proposalId : Uuid} {s : ProposalState}
    (hi : op.Issued w) (hs : op.settles = some (executionId, proposalId, s)) {e : ProposalExecution}
    {p : ReassignmentProposal} (he : e ∈ w.db.executions.rows) (hp : p ∈ w.db.proposals.rows)
    (heid : e.id = executionId) (hpid : p.id = proposalId) : p.state = e.state := by
  subst heid
  obtain ⟨_, q, hq, hqid, _, hqs⟩ := h.lockstep e he
  have hqp : q = p := proposal_eq_of_id hq hp (hqid.trans ((h.claimed_proposal hi hs he).trans hpid.symm))
  rw [← hqp, hqs]

theorem outcome_allowed {s : ProposalState} (h : s ∈ outcomeStates) :
    s ∈ ProposalState.executing.allowedTransitions := by
  revert h
  cases s <;> decide

theorem reconciled_allowed {s current : ProposalState} (h : s ∈ reconciledStates) (hne : current ≠ s)
    (ha : DatabaseReconciliationStore.isActive current = true) : s ∈ current.allowedTransitions := by
  revert h hne ha
  cases s <;> cases current <;> decide

section
variable [Sha256]

/-- A claim is issued for an execution of the database it leaves, and its proposal. -/
theorem run_issued {op : Op} {draws : Draws} {seen db db' : Db} {r : op.Result} {call : Option Nat}
    (h : op.run draws seen db = .ok (r, db')) :
    ∀ ids ∈ (Event.mk call op r db db').issued, ∃ e ∈ db'.executions.rows, (e.id, e.proposalId) = ids := by
  have leased : ∀ {store : DatabaseReconciliationStore} {claim : ReconciliationClaim}, store.ClaimOf db claim →
      ∃ e ∈ db'.executions.rows, (e.id, e.proposalId) = (claim.executionId, claim.proposalId) := by
    intro store claim h'
    obtain ⟨e, he, p, hp, _, _, hid, rfl⟩ := h'
    obtain ⟨e', he', hc⟩ := (run_effect op h).execution_kept he
    exact ⟨e', he', by rw [hc.id, hc.proposalId, hid]; rfl⟩
  intro ids hids
  cases op with
  | prepare environment proposalId correlationId =>
    obtain ⟨e, _, rfl, rfl⟩ | ⟨_, p, _, _, _, _, rfl, executions, audit, hin, _, rfl⟩ := prepare_cases h
    · cases hids
    · rw [List.mem_singleton.mp hids]
      exact ⟨_, (Table.mem_insert hin).mpr (Or.inr rfl), rfl⟩
  | leaseAbandoned store workerId limit =>
    obtain ⟨claim, hc, rfl⟩ := List.mem_map.mp hids
    have hr := Except.ok.inj h
    exact leased (DatabaseReconciliationStore.leaseAbandoned_claims (by rw [hr]; exact hc))
  | leaseProposal store proposalId workerId =>
    obtain ⟨claim, hc, rfl⟩ := List.mem_map.mp hids
    have hr := Except.ok.inj h
    obtain hn | ⟨claim', hcl, _, hl⟩ :=
      DatabaseReconciliationStore.leaseProposal_cases store draws proposalId workerId db
    · cases hn.symm.trans hr
      cases hc
    · cases hl.symm.trans hr
      rw [List.mem_singleton.mp hc]
      exact leased hcl
  | _ => cases hids

theorem inv {w : World} (h : Reach w) : Inv w := by
  induction h with
  | init => exact ⟨fun _ he => (nomatch he), fun _ he => (nomatch he)⟩
  | @commit w op draws n r db call _ hi hr ih =>
    refine ⟨inv_effect ih hi (run_effect op hr), fun event hev ids hids => ?_⟩
    rcases List.mem_cons.mp hev with rfl | hev
    · exact run_issued hr ids hids
    · obtain ⟨e, he, heq⟩ := ih.issued event hev ids hids
      obtain ⟨e', he', hc⟩ := (run_effect op hr).execution_kept he
      exact ⟨e', he', by rw [hc.id, hc.proposalId]; exact heq⟩
  | called call tool proposalId _ ih => exact ⟨ih.lockstep, ih.issued⟩

theorem Inv.no_illegal {w : World} (h : Inv w) {op : Op} (hi : op.Issued w) (hs : op.settles.isSome = true)
    (draws : Draws) (n : Nat) (a b : ProposalState) :
    op.run draws (w.asOf n) w.db ≠ .error (illegalTransition a b) := by
  intro hr
  cases op with
  | finalize environment claim result =>
    obtain ⟨e, he, p, hp, heid, _, hpid, hes, hn⟩ := finalize_illegal hr
    apply hn
    rw [h.settled_states hi rfl he hp heid hpid, hes]
    exact outcome_allowed hi.2
  | resolve store claim state evidence =>
    obtain ⟨e, he, p, hp, heid, _, hpid, hne, ha, hn⟩ := DatabaseReconciliationStore.resolve_illegal hr
    apply hn
    rw [h.settled_states hi rfl he hp heid hpid]
    exact reconciled_allowed hi.2 hne ha
  | _ => cases hs

/-- In every reachable world an execution is in its proposal's state; every committed
    transaction moves a proposal along an allowed transition or leaves its state; a
    terminal state is never left; and an outcome for an issued claim is never refused as
    an illegal transition. -/
theorem lockstep {w : World} (h : Reach w) :
    (∀ p ∈ w.db.proposals.rows, ∀ e ∈ w.db.executions.rows, e.proposalId = p.id → e.state = p.state) ∧
    (∀ event ∈ w.events, ∀ p ∈ event.before.proposals.rows, ∃ p' ∈ event.after.proposals.rows, p'.id = p.id ∧
      (p'.state = p.state ∨ p'.state ∈ p.state.allowedTransitions)) ∧
    (∀ db ∈ w.history, ∀ p ∈ db.proposals.rows, p.state ∈ ProposalState.terminalStates →
      ∃ p' ∈ w.db.proposals.rows, p'.id = p.id ∧ p'.state = p.state) ∧
    (∀ (op : Op) (draws : Draws) (n : Nat) (a b : ProposalState), op.Issued w → op.settles.isSome = true →
      op.run draws (w.asOf n) w.db ≠ .error (illegalTransition a b)) := by
  refine ⟨fun p hp e he hid => ?_, fun event hev p hp => ?_, fun db hdb p hp ht => h.terminal_since hdb hp ht,
    fun op draws n a b hi hs => (inv h).no_illegal hi hs draws n a b⟩
  · obtain ⟨_, q, hq, hqid, _, hqs⟩ := (inv h).lockstep e he
    rw [← hqs, proposal_eq_of_id hq hp (hqid.trans hid)]
  · obtain ⟨p', hp', hc, hs⟩ := (h.event_effect event hev).proposal_kept hp
    exact ⟨p', hp', hc.id_eq, hs⟩

end

/-- The sample run leaves an uncertain execution, and its proposal uncertain. -/
theorem lockstep_sample : letI := Sha256.transparent
    ∃ w, World.init.run (sampleApproval ++ sampleExecution) = some w ∧
      (w.db.executions.rows.map fun e => (e.proposalId, e.state)) = [(1, .uncertain)] ∧
      ∀ p ∈ w.db.proposals.rows, ∀ e ∈ w.db.executions.rows, e.proposalId = p.id → e.state = p.state := by
  let _ := Sha256.transparent
  have run : (World.init.run (sampleApproval ++ sampleExecution)).map
      (fun w => w.db.executions.rows.map fun e => (e.proposalId, e.state)) = some [(1, .uncertain)] := by decide
  obtain ⟨w, hw, he⟩ := Option.map_eq_some_iff.mp run
  exact ⟨w, hw, he, (lockstep (run_reach .init hw)).1⟩

end WorkforceRisk.Proposals
