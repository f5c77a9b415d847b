/-
  WorkforceRisk.Proposals.Simulated — what is written to Jira is what was simulated and
  approved.

  A simulation is stored once and never changed (`Reach.simulation_since`); a proposal is
  made from one and keeps its fields (`Reach.made_from`); a claim repeats the proposal's
  (`Reach.claim_of`); and an execution edits with its claim's issue and assignee
  (`targeting`). None of these is checked again on the way to Jira.

  Proved: `writes_what_was_simulated`, for every edit of every run of the system.
-/

import WorkforceRisk.Proposals.Approval
import WorkforceRisk.Proposals.SingleWrite

namespace WorkforceRisk.Proposals

open Lib Persistence Jira DatabaseExecutionStore

/-! ## Proposals and their simulations -/

/-- The proposal has the fields of the simulation. -/
structure MadeFrom (p : ReassignmentProposal) (s : StoredSimulation) : Prop where
  environment : p.environment = s.environment
  simulationId : p.simulationId = s.simulationId
  projectKey : p.projectKey = s.projectKey
  taskKey : p.taskKey = s.taskId
  expectedAssignee : p.expectedAssignee = s.currentAssigneeId
  proposedAssignee : p.proposedAssignee = s.proposedAssigneeId
  evidenceFingerprint : p.evidenceFingerprint = s.evidenceFingerprint
  confidence : p.confidence = s.confidence
  scoringVersions : p.scoringVersions = s.scoringModelVersions
  simulationPayload : p.simulationPayload = s.safePayload

theorem MadeFrom.continues {p p' : ReassignmentProposal} {s : StoredSimulation} (h : MadeFrom p s)
    (hc : p'.Continues p) : MadeFrom p' s := by
  rw [hc]
  exact ⟨h.environment, h.simulationId, h.projectKey, h.taskKey, h.expectedAssignee, h.proposedAssignee,
    h.evidenceFingerprint, h.confidence, h.scoringVersions, h.simulationPayload⟩

/-- The simulation an operation makes a proposal from. -/
def Op.source (seen : Db) : Op → Option StoredSimulation
  | .create command _ => some command.simulation
  | .createFromStoredSimulation simulationId _ _ _ actor =>
    SimulationRepository.get seen actor.environment simulationId
  | _ => none

/-- The simulation is stored, or was given with a command. -/
def Given (w : World) (s : StoredSimulation) : Prop :=
  (∃ row ∈ w.db.simulations.rows, row.simulation = s) ∨
    ∃ event ∈ w.events, ∃ command actor, event.op = .create command actor ∧ command.simulation = s

theorem get_some {db : Db} {environment : Environment} {simulationId : String} {s : StoredSimulation}
    (h : SimulationRepository.get db environment simulationId = some s) :
    ∃ row ∈ db.simulations.rows, row.simulation = s := by
  obtain ⟨row, hrow, hs⟩ := Option.map_eq_some_iff.mp h
  exact ⟨row, Table.find?_mem hrow, hs⟩

theorem command_simulation {simulation : StoredSimulation} {key : String} {expiresAt requestedAt : DateTime}
    {command : ProposalCreateCommand}
    (h : ProposalRepository.commandOf simulation key expiresAt requestedAt = .ok command) :
    command.simulation = simulation := by
  unfold ProposalRepository.commandOf at h
  split at h
  · split at h
    · cases h
      rfl
    · cases h
  · split at h <;> cases h

section
variable {draws : Draws} {seen db db' : Db}

/-- What a transaction leaves: every simulation, and proposals that continue the old ones
    or are made from the operation's simulation. -/
structure Passes (op : Op) (seen db db' : Db) : Prop where
  simulations : ∀ row ∈ db.simulations.rows, row ∈ db'.simulations.rows
  proposals : ∀ p' ∈ db'.proposals.rows, (∃ p ∈ db.proposals.rows, p'.Continues p) ∨
    ∃ s, op.source seen = some s ∧ MadeFrom p' s

theorem Passes.same {op : Op} (hs : db'.simulations = db.simulations) (hp : db'.proposals = db.proposals) :
    Passes op seen db db' :=
  ⟨fun row hrow => by rw [hs]; exact hrow, fun p' hp' => Or.inl ⟨p', by rw [← hp]; exact hp', .refl p'⟩⟩

theorem Passes.moved {op : Op} {pick : ReassignmentProposal → Bool} {s : ProposalState} {n : Nat}
    (hs : db'.simulations = db.simulations)
    (hp : db'.proposals = db.proposals.update pick (·.moved s n) ReassignmentProposal.moved_key) :
    Passes op seen db db' := by
  refine ⟨fun row hrow => by rw [hs]; exact hrow, fun p' hp' => ?_⟩
  rw [hp] at hp'
  obtain ⟨p, hm, rfl⟩ := Table.mem_update.mp hp'
  exact Or.inl ⟨p, hm, continues_change p _ s n⟩

variable [Sha256]

theorem Passes.created {op : Op} {command : ProposalCreateCommand} {actor : ProposalActor} {v : StoredProposal}
    (hs : op.source seen = some command.simulation)
    (h : ProposalRepository.create draws command actor seen db = .ok (v, db')) : Passes op seen db db' := by
  obtain ⟨henv, _, ⟨_, _, _, rfl⟩ | ⟨_, _, proposals, audit, hi, rfl⟩⟩ := ProposalRepository.create_cases h
  · exact .same rfl rfl
  · refine ⟨fun row hrow => hrow, fun p' hp' => ?_⟩
    rcases (Table.mem_insert hi).mp hp' with hm | rfl
    · exact Or.inl ⟨p', hm, .refl p'⟩
    · exact Or.inr ⟨command.simulation, hs, henv, rfl, rfl, rfl, rfl, rfl, rfl, rfl, rfl, rfl⟩

theorem run_passes (op : Op) {r : op.Result} (h : op.run draws seen db = .ok (r, db')) : Passes op seen db db' := by
  cases op with
  | persistSimulation simulation =>
    obtain ⟨_, rfl | ⟨simulations, hi, rfl⟩⟩ := SimulationRepository.persist_cases h
    · exact .same rfl rfl
    · exact ⟨fun row hrow => (Table.mem_insert hi).mpr (Or.inl hrow), fun p' hp' => Or.inl ⟨p', hp', .refl p'⟩⟩
  | create command actor => exact .created rfl h
  | createFromStoredSimulation simulationId key expiresAt requestedAt actor =>
    obtain ⟨s, command, hs, hc, h⟩ := ProposalRepository.createFromStoredSimulation_cases h
    exact .created (hs.trans (congrArg some (command_simulation hc).symm)) h
  | decide command actor =>
    obtain ⟨_, _, _, _, _, _, rfl⟩ | ⟨_, p, _, _, _, _, _, _, _, _, _, _, rfl⟩ := ProposalRepository.decide_cases h
    · exact .same rfl rfl
    · exact .moved rfl rfl
  | getAuthorized proposalId actor =>
    cases h
    exact .same rfl rfl
  | prepare environment proposalId correlationId =>
    obtain ⟨_, _, _, rfl⟩ | ⟨_, _, _, _, _, _, _, _, _, _, _, rfl⟩ := prepare_cases h
    · exact .same rfl rfl
    · exact .same rfl rfl
  | markWriteAttempted environment claim =>
    obtain ⟨_, _, _, _, _, rfl⟩ := markWriteAttempted_cases h
    exact .same rfl rfl
  | finalize environment claim result =>
    obtain ⟨_, _, _, _, _, _, _, ⟨_, rfl⟩ | ⟨_, _, _, _, rfl⟩⟩ := finalize_cases h
    · exact .same rfl rfl
    · exact .moved rfl rfl
  | leaseAbandoned store workerId limit =>
    cases h
    exact .same rfl rfl
  | leaseProposal store proposalId workerId =>
    have h := Except.ok.inj h
    obtain hn | ⟨_, _, _, hl⟩ := DatabaseReconciliationStore.leaseProposal_cases store draws proposalId workerId db
    · cases hn.symm.trans h
      exact .same rfl rfl
    · cases hl.symm.trans h
      exact .same rfl rfl
  | resolve store claim state evidence =>
    obtain ⟨_, _, _, _, _, _, _, ⟨_, rfl⟩ | ⟨_, _, _, _, _, rfl⟩⟩ := DatabaseReconciliationStore.resolve_cases h
    · exact .same rfl rfl
    · exact .moved rfl rfl

end

/-! ## A run -/

theorem Given.commit {w : World} {s : StoredSimulation} {call : Option Nat} {op : Op} {r : op.Result} {db' : Db}
    (hk : ∀ row ∈ w.db.simulations.rows, row ∈ db'.simulations.rows) (h : Given w s) :
    Given (w.commit call op r db') s := by
  rcases h with ⟨row, hrow, hs⟩ | ⟨event, he, hs⟩
  · exact Or.inl ⟨row, hk row hrow, hs⟩
  · exact Or.inr ⟨event, List.mem_cons_of_mem _ he, hs⟩

section
variable [Sha256] {w : World}

/-- A simulation stored in a run is there for the rest of it. -/
theorem Reach.simulation_since (h : Reach w) : ∀ db ∈ w.history, ∀ row ∈ db.simulations.rows,
    row ∈ w.db.simulations.rows := by
  induction h with
  | init =>
    intro db hdb row hrow
    rwa [List.mem_singleton.mp hdb] at hrow
  | commit call _ _ hr ih =>
    intro db hdb row hrow
    rw [World.commit_history] at hdb
    rcases List.mem_cons.mp hdb with rfl | hdb
    · exact hrow
    · exact (run_passes _ hr).simulations row (ih db hdb row hrow)
  | called call tool proposalId _ ih => exact ih

/-- The operation's simulation was stored before it, or comes with it. -/
theorem given_source (h : Reach w) {op : Op} {r : op.Result} {db' : Db} {call : Option Nat} {n : Nat}
    (hk : ∀ row ∈ w.db.simulations.rows, row ∈ db'.simulations.rows) {s : StoredSimulation}
    (hs : op.source (w.asOf n) = some s) : Given (w.commit call op r db') s := by
  cases op with
  | create command actor =>
    cases hs
    exact Or.inr ⟨_, List.mem_cons_self, command, actor, rfl, rfl⟩
  | createFromStoredSimulation simulationId key expiresAt requestedAt actor =>
    obtain ⟨row, hrow, hs⟩ := get_some hs
    exact Or.inl ⟨row, hk row (h.simulation_since _ (w.asOf_mem_history n) row hrow), hs⟩
  | _ => cases hs

/-- Every proposal is made from a simulation that is stored or was given. -/
theorem Reach.made_from (h : Reach w) : ∀ p ∈ w.db.proposals.rows, ∃ s, Given w s ∧ MadeFrom p s := by
  induction h with
  | init => exact fun _ hp => (nomatch hp)
  | commit call h _ hr ih =>
    intro p' hp'
    have hpass := run_passes _ hr
    rcases hpass.proposals p' hp' with ⟨p, hp, hc⟩ | ⟨s, hs, hm⟩
    · obtain ⟨s, hg, hm⟩ := ih p hp
      exact ⟨s, hg.commit hpass.simulations, hm.continues hc⟩
    · exact ⟨s, given_source h hpass.simulations hs, hm⟩
  | called call tool proposalId _ ih => exact ih

/-- What a run's log was earlier is the log of a run, on a database of this one. -/
theorem Reach.log_suffix (h : Reach w) : ∀ older, older <:+ w.log → ∃ db ∈ w.history, Reach ⟨db, older⟩ := by
  induction h with
  | init =>
    intro older hs
    rw [List.suffix_nil.mp hs]
    exact ⟨.empty, List.mem_singleton_self _, .init⟩
  | @commit w op draws n r db call h hi hr ih =>
    intro older hs
    rcases List.suffix_cons_iff.mp hs with rfl | hs
    · exact ⟨db, List.mem_cons_self, .commit call h hi hr⟩
    · obtain ⟨db₀, hdb, h₀⟩ := ih older hs
      exact ⟨db₀, List.mem_cons_of_mem _ hdb, h₀⟩
  | @called w call tool proposalId h ih =>
    intro older hs
    rcases List.suffix_cons_iff.mp hs with rfl | hs
    · exact ⟨w.db, w.db_mem_history, .called call tool proposalId h⟩
    · exact ih older hs

/-- A claim repeats the fields of a proposal that was being executed when it was issued. -/
theorem Reach.claim_of (h : Reach w) {event : Event} (he : event ∈ w.events) {c : ExecutionClaim}
    (hc : event.claim? = some c) : ∃ p ∈ event.before.proposals.rows, p.state = .executing ∧
      c.proposalId = p.id ∧ c.issueKey = p.taskKey ∧ c.proposedAssigneeId = p.proposedAssignee := by
  obtain ⟨draws, seen, _, hr⟩ := h.event_run event he
  obtain ⟨call, op, r, before, after⟩ := event
  cases op with
  | prepare environment proposalId correlationId =>
    obtain ⟨_, _, rfl, _⟩ | ⟨_, p, hp, _, _, hs, rfl, _⟩ := prepare_cases hr
    · cases hc
    · cases hc
      exact ⟨p, hp, hs, rfl, rfl, rfl⟩
  | _ => cases hc

end

/-! ## Edits -/

/-- A call edits with the issue and the assignee of the claim it was issued. -/
def targeting : Protocol Request Request.Reply (Option ExecutionClaim) where
  allows
    | none, .callTool (.editJiraIssue ..) _ => False
    | some c, .callTool (.editJiraIssue issueKey accountId _) proposalId =>
      proposalId = some c.proposalId ∧ issueKey = c.issueKey ∧ accountId = c.proposedAssigneeId
    | _, _ => True
  next
    | _, .transact (.prepare ..), .ok (.claim c) => some c
    | held, _, _ => held

theorem read_targets {held : Option ExecutionClaim} {issueKey correlationId : String}
    {Q : Except Error (Option String) → Option ExecutionClaim → Prop} (hq : ∀ read, Q read held) :
    (JiraAssigneeMutationClient.readAssignee jiraTransport issueKey correlationId).Sat targeting held Q := by
  refine Proc.sat_andThen (Proc.sat_perform (by cases held <;> trivial) fun r => ?_)
  cases held <;> cases r <;> exact hq _

/-- The client edits the command's issue, once it has read the assignee. -/
theorem client_targets (client : JiraAssigneeMutationClient) {c : ExecutionClaim} {command : ReassignmentMutation}
    (hm : mutationOf c = .ok command) :
    (client.execute jiraTransport command).Sat targeting (some c) fun _ held => held = some c := by
  have hc : command.proposalId = c.proposalId ∧ command.issueKey = c.issueKey ∧
      command.proposedAssigneeId = c.proposedAssigneeId := by
    unfold mutationOf at hm
    split at hm
    · cases hm
      exact ⟨rfl, rfl, rfl⟩
    · cases hm
  unfold JiraAssigneeMutationClient.execute
  split
  · rfl
  refine Proc.sat_bind (read_targets fun read => ?_)
  cases read with
  | error e => rfl
  | ok current =>
    simp only
    split
    · rfl
    refine Proc.sat_bind (Proc.sat_perform ⟨congrArg some hc.1, hc.2.1, hc.2.2⟩ fun r => ?_)
    cases r with
    | error e => rfl
    | ok response =>
      simp only
      split
      · rfl
      · refine Proc.sat_bind (read_targets fun observed => ?_)
        cases observed with
        | error e => rfl
        | ok observed =>
          simp only
          split <;> rfl

theorem execute_targets (service : ReassignmentExecutionService) (proposalId : Uuid) (correlationId : String) :
    (service.execute proposalId correlationId).Sat targeting none fun _ _ => True := by
  refine Proc.sat_andThen (Proc.sat_perform trivial fun r => ?_)
  cases r with
  | error e => trivial
  | ok prepared =>
    cases prepared with
    | result r => trivial
    | claim c =>
      refine Proc.sat_andThen (Proc.sat_perform trivial fun r => ?_)
      cases r with
      | error e => trivial
      | ok u =>
        show (service.mutate c).Sat targeting (some c) _
        unfold ReassignmentExecutionService.mutate
        split
        · trivial
        rename_i command hm
        refine Proc.sat_andThen ((client_targets service.mutator hm).mono fun r held hheld => ?_)
        subst hheld
        cases r with
        | error e => trivial
        | ok receipt => exact Proc.sat_perform trivial fun _ => trivial

/-- Reconciliation reads and resolves. -/
theorem reconcile_targets (service : ReconciliationService) (claim : ReconciliationClaim) :
    (service.reconcile claim).Sat targeting none fun _ held => held = none := by
  refine Proc.sat_bind (read_targets fun read => ?_)
  refine Proc.sat_andThen (Proc.sat_perform trivial fun r => ?_)
  cases r <;> rfl

theorem reconcileAll_targets (service : ReconciliationService) (claims : List ReconciliationClaim) :
    (service.reconcileAll claims).Sat targeting none fun _ held => held = none := by
  induction claims with
  | nil => rfl
  | cons claim claims ih =>
    refine Proc.sat_andThen ((reconcile_targets service claim).mono fun r held hheld => ?_)
    subst hheld
    cases r with
    | error e => rfl
    | ok result =>
      refine Proc.sat_andThen (ih.mono fun rs held hheld => ?_)
      cases rs <;> exact hheld

theorem start_targets (call : Call) : call.process.Sat targeting none fun _ _ => True := by
  cases call with
  | execute service proposalId correlationId =>
    exact Proc.sat_bind ((execute_targets service proposalId correlationId).mono fun _ _ _ => trivial)
  | runOnce service workerId limit =>
    refine Proc.sat_bind (Proc.sat_andThen (Proc.sat_perform trivial fun r => ?_))
    cases r with
    | error e => trivial
    | ok claims => exact (reconcileAll_targets service claims).mono fun _ _ _ => trivial
  | runProposal service proposalId workerId =>
    refine Proc.sat_bind (Proc.sat_andThen (Proc.sat_perform trivial fun r => ?_))
    cases r with
    | error e => trivial
    | ok claim =>
      cases claim with
      | none => trivial
      | some claim =>
        refine Proc.sat_andThen ((reconcile_targets service claim).mono fun r _ _ => ?_)
        cases r <;> trivial

/-- Every edit of the log is that of a claim issued before it. -/
def Edited (w : World) : Prop :=
  ∀ i issueKey accountId correlationId q older,
    .called i (.editJiraIssue issueKey accountId correlationId) q :: older <:+ w.log →
    ∃ event, .committed event ∈ older ∧ ∃ c, event.claim? = some c ∧ q = some c.proposalId ∧ issueKey = c.issueKey ∧
      accountId = c.proposedAssigneeId

theorem mem_events {log : List Entry} {db : Db} {event : Event} :
    event ∈ World.events ⟨db, log⟩ ↔ .committed event ∈ log := by
  simp only [World.events, List.mem_filterMap]
  constructor
  · rintro ⟨entry, he, h⟩
    cases entry with
    | committed event' =>
      cases h
      exact he
    | called i tool q => cases h
  · exact fun h => ⟨_, h, rfl⟩

/-- The claim a call holds was issued. -/
def HoldsIssued (w : World) (_ : Nat) : Option ExecutionClaim → Prop
  | none => True
  | some c => ∃ event ∈ w.events, event.claim? = some c

theorem Edited.commit {w : World} (h : Edited w) (call : Option Nat) (op : Op) (r : op.Result) (db : Db) :
    Edited (w.commit call op r db) := by
  intro i issueKey accountId correlationId q older hs
  rcases List.suffix_cons_iff.mp hs with heq | hs
  · cases heq
  · exact h i issueKey accountId correlationId q older hs

theorem Edited.called {w : World} (h : Edited w) {i : Nat} {held : Option ExecutionClaim} {tool : ToolCall}
    {q : Option Uuid} (hh : HoldsIssued w i held) (ha : targeting.allows held (.callTool tool q)) :
    Edited (w.called i tool q) := by
  intro j issueKey accountId correlationId q' older hs
  rcases List.suffix_cons_iff.mp hs with heq | hs
  · cases heq
    cases held with
    | none => exact False.elim ha
    | some c =>
      obtain ⟨event, hev, hc⟩ := hh
      exact ⟨event, mem_events.mp hev, c, hc, ha⟩
  · exact h j issueKey accountId correlationId q' older hs

theorem HoldsIssued.grow {w w' : World} (h : ∀ event ∈ w.events, event ∈ w'.events) {i : Nat}
    {held : Option ExecutionClaim} (hh : HoldsIssued w i held) : HoldsIssued w' i held := by
  cases held with
  | none => trivial
  | some c => exact hh.imp fun event he => ⟨h event he.1, he.2⟩

theorem transact_issued {w : World} {i : Nat} {held : Option ExecutionClaim} {op : Op} (a : op.Result) (db : Db)
    (hh : HoldsIssued w i held) :
    HoldsIssued (w.commit (some i) op a db) i (targeting.next held (.transact op) (.ok a)) := by
  have kept := hh.grow (World.commit_grows w (some i) op a db)
  cases op with
  | prepare environment proposalId correlationId =>
    cases a with
    | claim c => exact ⟨_, List.mem_cons_self, rfl⟩
    | result r => exact kept
  | _ => exact kept

section
variable [Sha256]

theorem system_edited {ok : World → Request → Prop} {c : Config Request Request.Reply World}
    (h : system.Reach ok .init c) : Edited c.shared := by
  refine (Machine.Reach.invariant (I := Edited) (Q := HoldsIssued) (fun _ => none) start_targets
    (fun i issueKey accountId correlationId q older hs => ?_) (fun _ _ _ _ => trivial)
    (fun w i request held ch r w' hI hh ha _ hstep => ?_) (fun w s w' hI hx => ?_) h).1
  · cases List.suffix_nil.mp hs
  · have hstep := Option.some.inj hstep
    cases request with
    | transact op =>
      obtain ⟨e, rfl, rfl⟩ | ⟨a, db, rfl, _, rfl⟩ := answer_transact hstep
      · refine ⟨hI, ?_, fun _ _ _ hj => hj⟩
        cases op <;> exact hh
      · exact ⟨hI.commit _ _ _ _, transact_issued a db hh, fun _ _ _ hj => hj.grow (World.commit_grows _ _ _ _ _)⟩
    | callTool tool q =>
      cases hstep
      exact ⟨hI.called hh ha, hh.grow fun _ he => he, fun _ _ _ hj => hj.grow fun _ he => he⟩
  · simp only [system] at hx
    split at hx
    · unfold World.step at hx
      split at hx
      · split at hx
        · cases hx
          exact ⟨hI.commit _ _ _ _, fun _ _ hj => hj.grow (World.commit_grows _ _ _ _ _)⟩
        · cases hx
      · cases hx
    · cases hx

/-- In every run of any number of calls, every edit sent to Jira is for a proposal made
    from a simulation that is still as it was given, with the issue and the assignee that
    one proposed; and before it the proposal was approved, in scope, unexpired and on the
    evidence of the simulation. -/
theorem writes_what_was_simulated {c : Config Request Request.Reply World}
    (h : system.Reach Machine.anyStep .init c) {i : Nat} {issueKey accountId correlationId : String} {q : Option Uuid}
    {older : List Entry} (he : .called i (.editJiraIssue issueKey accountId correlationId) q :: older <:+ c.shared.log) :
    ∃ p ∈ c.shared.db.proposals.rows, q = some p.id ∧ ∃ s, Given c.shared s ∧ MadeFrom p s ∧
      issueKey = s.taskId ∧ accountId = s.proposedAssigneeId ∧
      ∃ event, .committed event ∈ older ∧ ∃ command actor d, Approves event command actor d p ∧
        command.currentEvidenceFingerprint = s.evidenceFingerprint ∧ actor.environment = s.environment ∧
        s.projectKey ∈ actor.projectScopes := by
  have hr := (system_reach h).1
  obtain ⟨event, hev, claim, hclaim, rfl, rfl, rfl⟩ := system_edited h i _ _ _ _ _ he
  -- the run up to the edit
  obtain ⟨db, hdb, hbefore⟩ := hr.log_suffix older ((List.suffix_cons _ older).trans he)
  obtain ⟨p₀, hp₀, hs₀, hid, hissue, hassignee⟩ := hbefore.claim_of (mem_events.mpr hev) hclaim
  have hthen : event.before ∈ World.history ⟨db, older⟩ :=
    List.mem_cons_of_mem _ (List.mem_map_of_mem (mem_events.mpr hev))
  obtain ⟨d, _, approval, happ, command, actor, ha⟩ :=
    (approval_inv hbefore).approved _ hthen p₀ hp₀ (by rw [hs₀]; decide)
  -- the proposal now
  have hnow : event.before ∈ c.shared.history := by
    refine List.mem_cons_of_mem _ (List.mem_map_of_mem (mem_events.mpr ?_))
    exact ((List.suffix_cons _ older).trans he).mem hev
  obtain ⟨p, hp, hc⟩ := hr.proposal_since hnow hp₀
  obtain ⟨s, hg, hm⟩ := hr.made_from p hp
  have ha := ha.continues hc
  have hfields : p₀.taskKey = p.taskKey ∧ p₀.proposedAssignee = p.proposedAssignee := by
    rw [hc]
    exact ⟨rfl, rfl⟩
  refine ⟨p, hp, congrArg some (hid.trans hc.id_eq.symm), s, hg, hm, ?_, ?_, approval, mem_events.mp happ, command,
    actor, d, ha, ?_, ?_, ?_⟩
  · rw [hissue, hfields.1, hm.taskKey]
  · rw [hassignee, hfields.2, hm.proposedAssignee]
  · rw [ha.evidence, hm.evidenceFingerprint]
  · rw [ha.environment, hm.environment]
  · rw [← hm.projectKey]
    exact ha.scope

/-- The sample simulation is stored, proposed, approved and executed, up to its edit. -/
def simulatedExecution : List system.Action :=
  [.other { op := .persistSimulation sampleSimulation, draws := sampleDraws 5 0 },
    .other { op := .createFromStoredSimulation "simulation-1" "create-1" 1000 0 sampleActor, draws := sampleDraws 1 0 },
    .other { op := .decide sampleDecide sampleActor, draws := sampleDraws 2 10 },
    .start 0 (Call.execute sampleService 1 "correlation-2"), .perform 0 (commits 3 20), .perform 0 (commits 0 21),
    .perform 0 (assigned "ana"), .perform 0 (responds [])]

end

/-- The newest entry of the log, when it is an edit. -/
def lastEdit (w : World) : Option (String × String) :=
  match w.log with
  | .called _ (.editJiraIssue issueKey accountId _) _ :: _ => some (issueKey, accountId)
  | _ => none

theorem writes_the_sample : letI := Sha256.transparent
    ∃ c, system.run Machine.anyStep sampleConfig simulatedExecution = some c ∧ lastEdit c.shared = some ("DEV-1", "ben") ∧
      ∃ p ∈ c.shared.db.proposals.rows, ∃ s, Given c.shared s ∧ MadeFrom p s ∧ s.taskId = "DEV-1" ∧
        s.proposedAssigneeId = "ben" := by
  let _ := Sha256.transparent
  have run : (system.run Machine.anyStep sampleConfig simulatedExecution).map (lastEdit ·.shared) =
      some (some ("DEV-1", "ben")) := by decide
  obtain ⟨c, hc, he⟩ := Option.map_eq_some_iff.mp run
  refine ⟨c, hc, he, ?_⟩
  unfold lastEdit at he
  split at he
  · rename_i i issueKey accountId correlationId q older hlog
    cases he
    have hlast : .called i (.editJiraIssue "DEV-1" "ben" correlationId) q :: older <:+ c.shared.log := by
      simp only [hlog, List.suffix_rfl]
    obtain ⟨p, hp, _, s, hg, hm, hissue, hassignee, _⟩ := writes_what_was_simulated (Machine.run_reach .init hc) hlast
    exact ⟨p, hp, s, hg, hm, hissue.symm, hassignee.symm⟩
  · cases he

end WorkforceRisk.Proposals
