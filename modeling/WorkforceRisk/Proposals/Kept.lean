/-
  WorkforceRisk.Proposals.Kept — what no transaction takes away.

  A proposal keeps everything but its state, which moves along the allowed transitions,
  and its version (`Effect.proposal_kept`); an execution keeps its keys, and an attempted
  write stays attempted (`Effect.execution_kept`); decisions are only added
  (`Effect.decision_kept`). `Reach.proposal_since`, `Reach.execution_since` and
  `Reach.decision_since` carry each of these from any database of a run to the current one.
-/

import WorkforceRisk.Proposals.Operations

namespace WorkforceRisk.Proposals

open Lib Persistence

/-- `p'` is `p` at a later state and version. -/
def ReassignmentProposal.Continues (p' p : ReassignmentProposal) : Prop :=
  p' = { p with state := p'.state, version := p'.version }

theorem ReassignmentProposal.Continues.refl (p : ReassignmentProposal) : p.Continues p := rfl

theorem ReassignmentProposal.Continues.trans {p q r : ReassignmentProposal} (h : p.Continues q) (h' : q.Continues r) :
    p.Continues r := by
  unfold ReassignmentProposal.Continues at h h' ⊢
  rw [h, h']

theorem ReassignmentProposal.Continues.id_eq {p q : ReassignmentProposal} (h : p.Continues q) : p.id = q.id := by
  rw [h]

theorem continues_change (p : ReassignmentProposal) (pick : ReassignmentProposal → Bool) (s : ProposalState) (n : Nat) :
    (Table.change pick (·.moved s n) p).Continues p := by
  unfold Table.change
  split
  · rfl
  · exact .refl p

/-- `e'` is `e` at a later point. -/
structure ProposalExecution.Continues (e' e : ProposalExecution) : Prop where
  id : e'.id = e.id
  environment : e'.environment = e.environment
  proposalId : e'.proposalId = e.proposalId
  attempted : e.writeAttempted = true → e'.writeAttempted = true

theorem ProposalExecution.Continues.refl (e : ProposalExecution) : e.Continues e := ⟨rfl, rfl, rfl, fun h => h⟩

theorem ProposalExecution.Continues.trans {e f g : ProposalExecution} (h : e.Continues f) (h' : f.Continues g) :
    e.Continues g :=
  ⟨h.id.trans h'.id, h.environment.trans h'.environment, h.proposalId.trans h'.proposalId,
    fun ha => h.attempted (h'.attempted ha)⟩

/-- A change of the columns outside the keys that unsets no attempt. -/
theorem execution_change {pick : ProposalExecution → Bool} {f : ProposalExecution → ProposalExecution}
    (hf : ∀ e, Keyed.key (f e) = Keyed.key e) (hw : ∀ e, e.writeAttempted = true → (f e).writeAttempted = true)
    (e : ProposalExecution) : (Table.change pick f e).Continues e := by
  have hk : ((Table.change pick f e).id, (Table.change pick f e).environment, (Table.change pick f e).proposalId) =
      (e.id, e.environment, e.proposalId) := Table.change_keeps _ hf e
  refine ⟨congrArg (·.1) hk, congrArg (·.2.1) hk, congrArg (·.2.2) hk, fun h => ?_⟩
  unfold Table.change
  split
  · exact hw e h
  · exact h

/-! ## One transaction -/

section
variable {op : Op} {db db' : Db}

theorem Effect.proposal_kept (h : Effect op db db') {p : ReassignmentProposal} (hp : p ∈ db.proposals.rows) :
    ∃ p' ∈ db'.proposals.rows, p'.Continues p ∧ (p'.state = p.state ∨ p'.state ∈ p.state.allowedTransitions) := by
  have same : db'.proposals = db.proposals →
      ∃ p' ∈ db'.proposals.rows, p'.Continues p ∧ (p'.state = p.state ∨ p'.state ∈ p.state.allowedTransitions) :=
    fun e => ⟨p, by rw [e]; exact hp, .refl p, Or.inl rfl⟩
  have moved : ∀ {q : ReassignmentProposal} {s : ProposalState} {n : Nat}, q ∈ db.proposals.rows →
      s ∈ q.state.allowedTransitions →
      db'.proposals = db.proposals.update (·.id == q.id) (·.moved s n) ReassignmentProposal.moved_key →
      ∃ p' ∈ db'.proposals.rows, p'.Continues p ∧ (p'.state = p.state ∨ p'.state ∈ p.state.allowedTransitions) := by
    intro q s n hq hs e
    refine ⟨_, by rw [e]; exact Table.mem_update_of_mem hp, continues_change p _ s n, ?_⟩
    by_cases he : p.id = q.id
    · have : p = q := proposal_eq_of_id hp hq he
      subst this
      rw [Table.change_pos (p := fun x : ReassignmentProposal => x.id == p.id) (beq_self_eq_true _)]
      exact Or.inr hs
    · rw [Table.change_neg (by simpa using he)]
      exact Or.inl rfl
  cases h with
  | quiet hps _ _ => exact same hps
  | created hi _ _ _ => exact ⟨p, (Table.mem_insert hi).mpr (Or.inl hp), .refl p, Or.inl rfl⟩
  | decided hq _ _ _ hs hps _ _ =>
    exact moved hq (by rw [hs]; exact ProposalRepository.decisionTarget_allowed _ _) hps
  | prepared _ _ _ hps _ _ => exact same hps
  | attempted _ _ _ _ hps _ _ => exact same hps
  | leased _ _ _ _ hps _ _ => exact same hps
  | settled _ _ hq _ _ hs hps _ _ => exact moved hq hs hps

theorem Effect.execution_kept (h : Effect op db db') {e : ProposalExecution} (he : e ∈ db.executions.rows) :
    ∃ e' ∈ db'.executions.rows, e'.Continues e := by
  have same : db'.executions = db.executions → ∃ e' ∈ db'.executions.rows, e'.Continues e :=
    fun eq => ⟨e, by rw [eq]; exact he, .refl e⟩
  have changed : ∀ {pick : ProposalExecution → Bool} {f : ProposalExecution → ProposalExecution}
      {hf : ∀ e, Keyed.key (f e) = Keyed.key e}, db'.executions = db.executions.update pick f hf →
      (∀ e, e.writeAttempted = true → (f e).writeAttempted = true) → ∃ e' ∈ db'.executions.rows, e'.Continues e := by
    intro pick f hf eq hw
    exact ⟨_, by rw [eq]; exact Table.mem_update_of_mem he, execution_change hf hw e⟩
  cases h with
  | quiet _ hes _ => exact same hes
  | created _ _ hes _ => exact same hes
  | decided _ _ _ _ _ _ hes _ => exact same hes
  | prepared _ _ _ _ hi _ => exact ⟨e, (Table.mem_insert hi).mpr (Or.inl he), .refl e⟩
  | attempted _ _ _ _ _ hes _ => exact changed hes fun _ _ => rfl
  | leased _ _ _ _ _ hes _ => exact changed hes fun _ h => h
  | settled hc _ _ _ _ _ _ hes _ => exact changed hes fun e h => (hc.writeAttempted e).trans h

/-- An execution that is no longer active keeps its outcome. -/
theorem Effect.closed_kept (h : Effect op db db') {e : ProposalExecution} (he : e ∈ db.executions.rows)
    (ha : DatabaseReconciliationStore.isActive e.state = false) : ∃ e' ∈ db'.executions.rows,
      e'.proposalId = e.proposalId ∧ e'.state = e.state ∧ e'.writeAttempted = e.writeAttempted := by
  have same : db'.executions = db.executions → ∃ e' ∈ db'.executions.rows,
      e'.proposalId = e.proposalId ∧ e'.state = e.state ∧ e'.writeAttempted = e.writeAttempted :=
    fun eq => ⟨e, by rw [eq]; exact he, rfl, rfl, rfl⟩
  have other : ∀ {f : ProposalExecution} {change : ProposalExecution → ProposalExecution}
      {hc : ∀ e, Keyed.key (change e) = Keyed.key e}, f ∈ db.executions.rows →
      DatabaseReconciliationStore.isActive f.state = true →
      db'.executions = db.executions.update (·.id == f.id) change hc → ∃ e' ∈ db'.executions.rows,
        e'.proposalId = e.proposalId ∧ e'.state = e.state ∧ e'.writeAttempted = e.writeAttempted := by
    intro f change hc hf hact eq
    have hne : e.id ≠ f.id := fun hid => by
      rw [execution_eq_of_id he hf hid, hact] at ha
      cases ha
    exact ⟨e, by rw [eq]; exact Table.mem_update_neg he (by simpa using hne), rfl, rfl, rfl⟩
  cases h with
  | quiet _ hes _ => exact same hes
  | created _ _ hes _ => exact same hes
  | decided _ _ _ _ _ _ hes _ => exact same hes
  | prepared _ _ _ _ hi _ => exact ⟨e, (Table.mem_insert hi).mpr (Or.inl he), rfl, rfl, rfl⟩
  | attempted hf _ _ hs _ hes _ => exact other hf (by rw [hs]; rfl) hes
  | leased _ workerId now _ _ hes _ =>
    refine ⟨_, by rw [hes]; exact Table.mem_update_of_mem he, ?_, ?_, ?_⟩
    · exact Table.change_keeps (f := DatabaseReconciliationStore.leased workerId now) (·.proposalId) (fun _ => rfl) e
    · exact Table.change_keeps (f := DatabaseReconciliationStore.leased workerId now) (·.state) (fun _ => rfl) e
    · exact Table.change_keeps (f := DatabaseReconciliationStore.leased workerId now) (·.writeAttempted)
        (fun _ => rfl) e
  | settled _ hf _ _ hact _ _ hes _ => exact other hf hact hes

theorem Effect.decision_kept (h : Effect op db db') {d : ApprovalDecision} (hd : d ∈ db.decisions.rows) :
    d ∈ db'.decisions.rows := by
  cases h with
  | quiet _ _ hds => rw [hds]; exact hd
  | created _ _ _ hds => rw [hds]; exact hd
  | decided _ _ _ _ _ _ _ hi => exact (Table.mem_insert hi).mpr (Or.inl hd)
  | prepared _ _ _ _ _ hds => rw [hds]; exact hd
  | attempted _ _ _ _ _ _ hds => rw [hds]; exact hd
  | leased _ _ _ _ _ _ hds => rw [hds]; exact hd
  | settled _ _ _ _ _ _ _ _ hds => rw [hds]; exact hd

end

/-! ## A run -/

variable [Sha256] {w : World}

/-- What each transaction carries from the old database to the new one holds between any
    database of a run and the current one. -/
theorem Reach.since {P : Db → Db → Prop} (refl : ∀ db, P db db)
    (next : ∀ {op db₀ db db'}, P db₀ db → Effect op db db' → P db₀ db') (h : Reach w) :
    ∀ db ∈ w.history, P db w.db := by
  induction h with
  | init =>
    intro db hdb
    rw [List.mem_singleton.mp hdb]
    exact refl _
  | commit call _ _ hr ih =>
    intro db hdb
    rw [World.commit_history] at hdb
    rcases List.mem_cons.mp hdb with rfl | hdb
    · exact refl _
    · exact next (ih db hdb) (run_effect _ hr)
  | called call tool proposalId _ ih => exact ih

/-- Every committed transaction of a run has one of the effects. -/
theorem Reach.event_effect (h : Reach w) : ∀ event ∈ w.events, Effect event.op event.before event.after := by
  induction h with
  | init => exact fun _ he => (nomatch he)
  | commit call _ _ hr ih =>
    intro event he
    rcases List.mem_cons.mp he with rfl | he
    · exact run_effect _ hr
    · exact ih event he
  | called call tool proposalId _ ih => exact ih

/-- Every committed transaction of a run is one of its operations, on a database it saw. -/
theorem Reach.event_run (h : Reach w) : ∀ event ∈ w.events, ∃ (draws : Draws), ∃ seen ∈ w.history,
    event.op.run draws seen event.before = .ok (event.result, event.after) := by
  induction h with
  | init => exact fun _ he => (nomatch he)
  | @commit w op draws n r db call _ _ hr ih =>
    intro event he
    rw [World.commit_history]
    rcases List.mem_cons.mp he with rfl | he
    · exact ⟨draws, w.asOf n, List.mem_cons_of_mem _ (w.asOf_mem_history n), hr⟩
    · obtain ⟨draws', seen, hs, hr'⟩ := ih event he
      exact ⟨draws', seen, List.mem_cons_of_mem _ hs, hr'⟩
  | called call tool proposalId _ ih => exact ih

/-- What was committed `n` commits ago was the end of a run. -/
theorem Reach.earlier (h : Reach w) : ∀ (n : Nat) (event : Event), event ∈ w.events.drop n →
    ∃ w', Reach w' ∧ w'.db = w.asOf n ∧ event ∈ w'.events := by
  induction h with
  | init =>
    intro n event he
    rw [show World.init.events = [] from rfl, List.drop_nil] at he
    cases he
  | @commit w op draws m r db call h hi hr ih =>
    intro n event he
    cases n with
    | zero => exact ⟨_, .commit call h hi hr, rfl, he⟩
    | succ n =>
      obtain ⟨w', h', hdb, hev⟩ := ih n event he
      refine ⟨w', h', hdb.trans ?_, hev⟩
      cases n with
      | zero => rfl
      | succ n =>
        have hlen : n < w.events.length := by
          have := List.length_pos_of_mem he
          rw [World.commit_events, List.drop_succ_cons, List.length_drop] at this
          omega
        show ((w.events[n]?).map (·.before)).getD w.db = ((w.events[n]?).map (·.before)).getD db
        rw [List.getElem?_eq_getElem hlen]
        rfl
  | called call tool proposalId h ih => exact ih

theorem Reach.after_mem_history (h : Reach w) : ∀ event ∈ w.events, event.after ∈ w.history := by
  induction h with
  | init => exact fun _ he => (nomatch he)
  | commit call _ _ _ ih =>
    intro event he
    rw [World.commit_history]
    rcases List.mem_cons.mp he with rfl | he
    · exact List.mem_cons_self
    · exact List.mem_cons_of_mem _ (ih event he)
  | called call tool proposalId _ ih => exact ih

theorem Reach.proposal_since (h : Reach w) {db : Db} (hdb : db ∈ w.history) {p : ReassignmentProposal}
    (hp : p ∈ db.proposals.rows) : ∃ p' ∈ w.db.proposals.rows, p'.Continues p := by
  refine h.since (P := fun db₀ db => ∀ p ∈ db₀.proposals.rows, ∃ p' ∈ db.proposals.rows, p'.Continues p)
    (fun _ p hp => ⟨p, hp, .refl p⟩) (fun hk he p hp => ?_) db hdb p hp
  obtain ⟨p₁, hp₁, hc₁⟩ := hk p hp
  obtain ⟨p₂, hp₂, hc₂, _⟩ := he.proposal_kept hp₁
  exact ⟨p₂, hp₂, hc₂.trans hc₁⟩

/-- A proposal in a terminal state stays in it. -/
theorem Reach.terminal_since (h : Reach w) {db : Db} (hdb : db ∈ w.history) {p : ReassignmentProposal}
    (hp : p ∈ db.proposals.rows) (ht : p.state ∈ ProposalState.terminalStates) :
    ∃ p' ∈ w.db.proposals.rows, p'.id = p.id ∧ p'.state = p.state := by
  refine h.since (P := fun db₀ db => ∀ p ∈ db₀.proposals.rows, p.state ∈ ProposalState.terminalStates →
    ∃ p' ∈ db.proposals.rows, p'.id = p.id ∧ p'.state = p.state)
    (fun _ p hp _ => ⟨p, hp, rfl, rfl⟩) (fun hk he p hp ht => ?_) db hdb p hp ht
  obtain ⟨p₁, hp₁, hid, hs⟩ := hk p hp ht
  obtain ⟨p₂, hp₂, hc, ho⟩ := he.proposal_kept hp₁
  refine ⟨p₂, hp₂, hc.id_eq.trans hid, ?_⟩
  rw [hs, ProposalState.terminal_no_transition ht] at ho
  exact ho.resolve_right List.not_mem_nil

theorem Reach.execution_since (h : Reach w) {db : Db} (hdb : db ∈ w.history) {e : ProposalExecution}
    (he : e ∈ db.executions.rows) : ∃ e' ∈ w.db.executions.rows, e'.Continues e := by
  refine h.since (P := fun db₀ db => ∀ e ∈ db₀.executions.rows, ∃ e' ∈ db.executions.rows, e'.Continues e)
    (fun _ e he => ⟨e, he, .refl e⟩) (fun hk hf e he => ?_) db hdb e he
  obtain ⟨e₁, he₁, hc₁⟩ := hk e he
  obtain ⟨e₂, he₂, hc₂⟩ := hf.execution_kept he₁
  exact ⟨e₂, he₂, hc₂.trans hc₁⟩

theorem Reach.decision_since (h : Reach w) {db : Db} (hdb : db ∈ w.history) {d : ApprovalDecision}
    (hd : d ∈ db.decisions.rows) : d ∈ w.db.decisions.rows :=
  h.since (P := fun db₀ db => ∀ d ∈ db₀.decisions.rows, d ∈ db.decisions.rows) (fun _ _ hd => hd)
    (fun hk he d hd => he.decision_kept (hk d hd)) db hdb d hd

end WorkforceRisk.Proposals
