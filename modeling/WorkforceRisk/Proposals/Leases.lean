/-
  WorkforceRisk.Proposals.Leases — who may be reconciling an execution.

  Actors. Any number of workers call `lease_abandoned`, `lease_proposal` and `resolve` of
  one `DatabaseReconciliationStore`, in any order, among the transactions of the other
  stores. Each transaction commits at some time of a clock that never goes back; the
  `datetime.now` it works with was read then or earlier (`draws.now`), before the
  transaction began. A worker holds a claim from the lease that issued it (`Lease`) until
  a `resolve` of it returns.

  The claim is that a claim is issued only when the others' unresolved claims on the
  execution were taken at least `lease_duration` ago. Two calls break it:
  - `lease_proposal` does not look at the lease `lease_abandoned` looks at, and takes the
    execution over (`lease_proposal_takes_over`);
  - a `resolve` that leaves the execution open clears whatever lease is on it, also one
    that another worker has taken since (`resolve_clears_another_lease`).

  Proved: in every run in which no `lease_proposal` finds a live lease and no `resolve`
  clears a live one but its own (`Meets`), leases are exclusive (`leases_exclusive`).
-/

import WorkforceRisk.Lib.Transactions
import WorkforceRisk.Proposals.Operations

namespace WorkforceRisk.Proposals.Leases

open Lib Persistence DatabaseExecutionStore DatabaseReconciliationStore

/-- A claim in a worker's hands, and when its lease was taken. -/
structure Lease where
  workerId : String
  claim : ReconciliationClaim
  takenAt : DateTime
  deriving DecidableEq

structure State where
  db : Db
  clock : DateTime
  /-- The unresolved claims, newest first. -/
  held : List Lease

inductive Action where
  | leaseAbandoned (workerId : String) (limit : Nat)
  | leaseProposal (proposalId : Uuid) (workerId : String)
  | resolve (lease : Lease) (state : ProposalState) (evidence : ResultPayload)
  /-- A transaction of another store, with its lookups without a lock on `seen`. -/
  | other (op : Op) (seen : Db)

/-- No call a manager makes. -/
def Action.scheduled : Action → Bool
  | .leaseProposal .. => false
  | .leaseAbandoned .. | .resolve .. | .other .. => true

/-- The action commits at `clock`. -/
structure Turn where
  action : Action
  draws : Draws
  clock : DateTime

def reconciles : Op → Bool
  | .leaseAbandoned .. | .leaseProposal .. | .resolve .. => true
  | .persistSimulation .. | .create .. | .createFromStoredSimulation .. | .decide .. | .getAuthorized .. | .prepare ..
  | .markWriteAttempted .. | .finalize .. => false

variable (store : DatabaseReconciliationStore)

/-- The claims a turn issues. -/
def issued (s : State) (t : Turn) : List ReconciliationClaim :=
  match t.action with
  | .leaseAbandoned workerId limit => (store.leaseAbandoned t.draws workerId limit s.db).1
  | .leaseProposal proposalId workerId => (store.leaseProposal t.draws proposalId workerId s.db).1.toList
  | .resolve .. | .other .. => []

/-- The claims a turn issues, in the hands of its worker. -/
def obtained (s : State) (t : Turn) : List Lease :=
  match t.action with
  | .leaseAbandoned workerId _ | .leaseProposal _ workerId => (issued store s t).map (⟨workerId, ·, t.draws.now⟩)
  | .resolve .. | .other .. => []

/-- What a turn leaves in the database, if its transaction commits. -/
def stored [Sha256] (s : State) (t : Turn) : Option Db :=
  match t.action with
  | .leaseAbandoned workerId limit => some (store.leaseAbandoned t.draws workerId limit s.db).2
  | .leaseProposal proposalId workerId => some (store.leaseProposal t.draws proposalId workerId s.db).2
  | .resolve lease state evidence =>
    if lease ∈ s.held then (store.resolve t.draws lease.claim state evidence s.db).toOption.map (·.2) else none
  | .other op seen => if reconciles op then none else (op.run t.draws seen s.db).toOption.map (·.2)

/-- The claims still held after a turn. -/
def kept (s : State) (t : Turn) : List Lease :=
  match t.action with
  | .resolve lease _ _ => s.held.erase lease
  | .leaseAbandoned .. | .leaseProposal .. | .other .. => s.held

def step [Sha256] (s : State) (t : Turn) : Option State :=
  if s.clock ≤ t.clock ∧ t.draws.now ≤ t.clock then
    (stored store s t).map fun db => ⟨db, t.clock, obtained store s t ++ kept s t⟩
  else none

/-- Taken less than `lease_duration` ago. -/
def Live (clock takenAt : Int) : Prop := clock - takenAt < store.leaseDuration

instance (clock takenAt : Int) : Decidable (Live store clock takenAt) := inferInstanceAs (Decidable (_ < _))

/-- When a worker obtains a claim, no other holds a claim on the execution, not yet
    resolved, whose lease was taken less than `lease_duration` ago. -/
def Exclusive (s : State) (t : Turn) : Prop :=
  ∀ l ∈ obtained store s t, ∀ l' ∈ s.held, l'.claim.executionId = l.claim.executionId →
    l'.workerId ≠ l.workerId → ¬ Live store t.clock l'.takenAt

instance : DecidableRel (Exclusive store) := fun _ _ => inferInstanceAs (Decidable (∀ _ ∈ _, _))

/-- What makes a turn respect the leases of the others. A `lease_proposal` finds no live
    lease on its execution; a `resolve` that leaves its execution open finds none there but
    its own. -/
def Meets (s : State) (t : Turn) : Prop :=
  match t.action with
  | .leaseProposal proposalId _ => ∀ e ∈ executionOf s.db store.environment proposalId, e.state = .uncertain →
      ∀ takenAt ∈ e.leasedAt, ¬ Live store t.clock takenAt
  | .resolve lease state _ => ∀ e ∈ executionById s.db store.environment lease.claim.executionId,
      e.state ≠ state → isActive e.state = true → isActive state = true →
      ∀ takenAt ∈ e.leasedAt, Live store t.clock takenAt →
        takenAt = lease.takenAt ∧ e.leaseOwner = some lease.workerId
  | .leaseAbandoned .. | .other .. => True

instance : DecidableRel (Meets store) := fun s t =>
  match t with
  | ⟨.leaseProposal proposalId _, _, clock⟩ =>
    inferInstanceAs (Decidable (∀ e ∈ executionOf s.db store.environment proposalId, e.state = .uncertain →
      ∀ takenAt ∈ e.leasedAt, ¬ Live store clock takenAt))
  | ⟨.resolve lease state _, _, clock⟩ =>
    inferInstanceAs (Decidable (∀ e ∈ executionById s.db store.environment lease.claim.executionId,
      e.state ≠ state → isActive e.state = true → isActive state = true →
      ∀ takenAt ∈ e.leasedAt, Live store clock takenAt →
        takenAt = lease.takenAt ∧ e.leaseOwner = some lease.workerId))
  | ⟨.leaseAbandoned .., _, _⟩ | ⟨.other .., _, _⟩ => isTrue trivial

/-- The states of the runs whose turns are all `allowed`, from any database before the
    first lease. -/
inductive Reach [Sha256] (allowed : State → Turn → Prop) : State → Prop where
  | init (db : Db) (clock : DateTime) : Reach allowed ⟨db, clock, []⟩
  | step {s s' : State} {t : Turn} : Reach allowed s → allowed s t → step store s t = some s' → Reach allowed s'

variable {store}

theorem not_live_later {clock clock' takenAt : Int} (hc : clock ≤ clock') (h : ¬ Live store clock takenAt) :
    ¬ Live store clock' takenAt := by
  unfold Live at h ⊢
  omega

/-! ## What the transactions do to leases -/

/-- `e'` is `e` with its lease, not reopened. -/
structure Keeps (e' e : ProposalExecution) : Prop where
  id : e'.id = e.id
  environment : e'.environment = e.environment
  active : isActive e'.state = true → isActive e.state = true
  leasedAt : e'.leasedAt = e.leasedAt
  leaseOwner : e'.leaseOwner = e.leaseOwner

theorem Keeps.refl (e : ProposalExecution) : Keeps e e := ⟨rfl, rfl, fun h => h, rfl, rfl⟩

/-- The other stores keep the leases. -/
theorem other_keeps [Sha256] {op : Op} (ho : reconciles op = false) {draws : Draws} {seen db db' : Db} {r : op.Result}
    (h : op.run draws seen db = .ok (r, db')) {e : ProposalExecution} (he : e ∈ db.executions.rows) :
    ∃ e' ∈ db'.executions.rows, Keeps e' e := by
  have same : db'.executions = db.executions → ∃ e' ∈ db'.executions.rows, Keeps e' e :=
    fun heq => ⟨e, by rw [heq]; exact he, .refl e⟩
  have changed : ∀ {pick : ProposalExecution → Bool} (f : ProposalExecution → ProposalExecution)
      (hf : ∀ e, Keyed.key (f e) = Keyed.key e), db'.executions = db.executions.update pick f hf →
      (pick e = true → Keeps (f e) e) → ∃ e' ∈ db'.executions.rows, Keeps e' e := by
    intro pick f hf heq hk
    refine ⟨_, by rw [heq]; exact Table.mem_update_of_mem he, ?_⟩
    by_cases hp : pick e = true
    · rw [Table.change_pos hp]
      exact hk hp
    · rw [Table.change_neg (by simpa using hp)]
      exact .refl e
  cases op with
  | persistSimulation simulation =>
    obtain ⟨_, rfl | ⟨_, _, rfl⟩⟩ := SimulationRepository.persist_cases h
    · exact same rfl
    · exact same rfl
  | create command actor =>
    obtain ⟨_, _, ⟨_, _, _, rfl⟩ | ⟨_, _, _, _, _, rfl⟩⟩ := ProposalRepository.create_cases h
    · exact same rfl
    · exact same rfl
  | createFromStoredSimulation simulationId key expiresAt requestedAt actor =>
    obtain ⟨_, _, _, _, h⟩ := ProposalRepository.createFromStoredSimulation_cases h
    obtain ⟨_, _, ⟨_, _, _, rfl⟩ | ⟨_, _, _, _, _, rfl⟩⟩ := ProposalRepository.create_cases h
    · exact same rfl
    · exact same rfl
  | decide command actor =>
    obtain ⟨_, _, _, _, _, _, rfl⟩ | ⟨_, _, _, _, _, _, _, _, _, _, _, _, rfl⟩ := ProposalRepository.decide_cases h
    · exact same rfl
    · exact same rfl
  | getAuthorized proposalId actor =>
    cases h
    exact same rfl
  | prepare environment proposalId correlationId =>
    obtain ⟨_, _, _, rfl⟩ | ⟨_, _, _, _, _, _, _, executions, _, hi, _, rfl⟩ := prepare_cases h
    · exact same rfl
    · exact ⟨e, (Table.mem_insert hi).mpr (Or.inl he), .refl e⟩
  | markWriteAttempted environment claim =>
    obtain ⟨_, _, _, _, _, rfl⟩ := markWriteAttempted_cases h
    exact changed attempted (fun _ => rfl) rfl fun _ => ⟨rfl, rfl, fun ha => ha, rfl, rfl⟩
  | finalize environment claim result =>
    obtain ⟨f, hf, _, _, _, _, _, ⟨_, rfl⟩ | ⟨hs, _, _, _, rfl⟩⟩ := finalize_cases h
    · exact same rfl
    · refine changed (finalized result) (fun _ => rfl) rfl fun hp => ⟨rfl, rfl, fun _ => ?_, rfl, rfl⟩
      rw [execution_eq_of_id he hf (by simpa using hp), hs]
      rfl
  | leaseAbandoned _ _ _ => cases ho
  | leaseProposal _ _ _ => cases ho
  | resolve _ _ _ _ => cases ho

/-- The execution a claim is for is open, and no lease on it is live. -/
def Free (store : DatabaseReconciliationStore) (clock : DateTime) (db : Db) (c : ReconciliationClaim) : Prop :=
  ∃ e ∈ db.executions.rows, e.id = c.executionId ∧ e.environment = store.environment ∧ isActive e.state = true ∧
    ∀ takenAt, e.leasedAt = some takenAt → ¬ Live store clock takenAt

theorem not_live_of_before {leasedAt now clock : Int} (hn : now ≤ clock) (h : leasedAt < now - store.leaseDuration) :
    ¬ Live store clock leasedAt := by
  unfold Live
  omega

variable (store) in
/-- `lease_abandoned` leases free executions, each once. -/
theorem leaseAbandoned_free (workerId : String) (limit : Nat) (db : Db) {draws : Draws} {clock : DateTime}
    (hn : draws.now ≤ clock) :
    (∀ c ∈ (store.leaseAbandoned draws workerId limit db).1, Free store clock db c) ∧
      ((store.leaseAbandoned draws workerId limit db).1.map (·.executionId)).Nodup ∧
      (store.leaseAbandoned draws workerId limit db).2 =
        lease ((store.leaseAbandoned draws workerId limit db).1.map (·.executionId)) workerId draws.now db := by
  refine ⟨fun c hc => ?_, ?_, ?_⟩
  · obtain ⟨⟨e, p⟩, hrow, rfl⟩ := List.mem_map.mp hc
    have hrow := (List.perm_insertionSort _ _).mem_iff.mp (List.mem_of_mem_take hrow)
    obtain ⟨e', he', hj⟩ := List.mem_filterMap.mp hrow
    obtain ⟨rfl, -, -⟩ := joined_some hj
    obtain ⟨hm, ha⟩ := List.mem_filter.mp he'
    simp only [isAbandoned, Bool.and_eq_true, beq_iff_eq] at ha
    refine ⟨e, hm, rfl, ha.1.1.1.1, ha.1.1.1.2, fun takenAt ht => ?_⟩
    have hlease := ha.1.2
    rw [ht] at hlease
    exact not_live_of_before hn (by simpa using hlease)
  · have hrows : (store.abandoned draws limit db).Pairwise fun a b => a.1.id ≠ b.1.id := by
      refine List.Pairwise.sublist (List.take_sublist _ _) ?_
      refine ((List.perm_insertionSort _ _).pairwise_iff fun h => h.symm).mpr ?_
      refine List.Pairwise.filterMap _ (fun a b hab row hr later hl => ?_)
        ((db.executions.distinct.imp fun h => (not_clashes_byIdAnd.mp h).1).filter _)
      obtain ⟨e, p⟩ := row
      obtain ⟨f, q⟩ := later
      obtain ⟨rfl, -, -⟩ := joined_some hr
      obtain ⟨rfl, -, -⟩ := joined_some hl
      exact hab
    simp only [leaseAbandoned, List.map_map, List.Nodup, List.pairwise_map]
    exact hrows
  · simp only [leaseAbandoned, List.map_map]
    rfl

variable (store) in
/-- `lease_proposal` leases nothing, or the uncertain execution of the proposal. -/
theorem leaseProposal_takes (draws : Draws) (proposalId : Uuid) (workerId : String) (db : Db) :
    store.leaseProposal draws proposalId workerId db = (none, db) ∨
    ∃ e p, executionOf db store.environment proposalId = some e ∧ e.state = .uncertain ∧
      store.leaseProposal draws proposalId workerId db =
        (some (claimOf (e, p)), lease [e.id] workerId draws.now db) := by
  unfold leaseProposal
  split
  · exact Or.inl rfl
  rename_i e he
  obtain ⟨hf, hs⟩ := Option.filter_eq_some_iff.mp he
  split
  · exact Or.inl rfl
  rename_i row hj
  obtain ⟨e', p⟩ := row
  obtain ⟨rfl, -, -⟩ := joined_some hj
  exact Or.inr ⟨e', p, hf, by simpa using hs, rfl⟩

theorem lease_nil (workerId : String) (now : DateTime) (db : Db) : lease [] workerId now db = db := by
  have : db.executions.update (fun e => ([] : List Uuid).contains e.id) (leased workerId now) (fun _ => rfl) =
      db.executions := by
    refine Table.ext ?_
    show db.executions.rows.map _ = _
    exact List.map_id'' (fun e => Table.change_neg rfl) _
  unfold lease
  rw [this]

theorem mem_lease (ids : List Uuid) (workerId : String) (now : DateTime) {db : Db} {e : ProposalExecution}
    (he : e ∈ db.executions.rows) :
    (if e.id ∈ ids then leased workerId now e else e) ∈ (lease ids workerId now db).executions.rows := by
  have h : Table.change (fun e => ids.contains e.id) (leased workerId now) e ∈
      (lease ids workerId now db).executions.rows := List.mem_map_of_mem he
  simpa only [Table.change, List.contains_iff_mem] using h

theorem obtained_issued {s : State} {t : Turn} {l : Lease} (h : l ∈ obtained store s t) :
    l.claim ∈ issued store s t ∧ ∃ workerId, (∃ limit, t.action = .leaseAbandoned workerId limit) ∨
      ∃ proposalId, t.action = .leaseProposal proposalId workerId := by
  obtain ⟨action, draws, clock⟩ := t
  cases action with
  | leaseAbandoned workerId limit =>
    obtain ⟨c, hc, rfl⟩ := List.mem_map.mp h
    exact ⟨hc, workerId, Or.inl ⟨limit, rfl⟩⟩
  | leaseProposal proposalId workerId =>
    obtain ⟨c, hc, rfl⟩ := List.mem_map.mp h
    exact ⟨hc, workerId, Or.inr ⟨proposalId, rfl⟩⟩
  | resolve l state evidence => cases h
  | other op seen => cases h

/-- What a turn that meets the condition leases, it leases of free executions, each once;
    `lease` is all it does. -/
theorem issued_free [Sha256] {s : State} {t : Turn} (hn : t.draws.now ≤ t.clock) (hm : Meets store s t)
    {workerId : String} (ht : (∃ limit, t.action = .leaseAbandoned workerId limit) ∨
      ∃ proposalId, t.action = .leaseProposal proposalId workerId) :
    (∀ c ∈ issued store s t, Free store t.clock s.db c) ∧ ((issued store s t).map (·.executionId)).Nodup ∧
      stored store s t = some (lease ((issued store s t).map (·.executionId)) workerId t.draws.now s.db) := by
  rcases ht with ⟨limit, ht⟩ | ⟨proposalId, ht⟩
  · obtain ⟨hfree, hnodup, hdb⟩ := leaseAbandoned_free store workerId limit s.db hn
    simp only [issued, stored, ht]
    exact ⟨hfree, hnodup, congrArg some hdb⟩
  · simp only [Meets, ht] at hm
    simp only [issued, stored, ht]
    obtain hr | ⟨e, p, hf, hs, hr⟩ := leaseProposal_takes store t.draws proposalId workerId s.db
    · simp only [hr, Option.toList_none, List.map_nil, lease_nil]
      exact ⟨fun _ hc => (nomatch hc), List.nodup_nil, trivial⟩
    · simp only [hr, Option.toList_some, List.map_cons, List.map_nil]
      refine ⟨fun c hc => ?_, List.nodup_singleton _, rfl⟩
      obtain rfl := List.mem_singleton.mp hc
      obtain ⟨he, henv, -⟩ := executionOf_some hf
      exact ⟨e, he, rfl, henv, by rw [hs]; rfl, hm e hf hs⟩

/-! ## The invariant -/

/-- The execution a held claim is for is closed or under the claim's lease, for as long as
    that lives. -/
def OnRow (store : DatabaseReconciliationStore) (clock : DateTime) (db : Db) (l : Lease) : Prop :=
  ∃ e ∈ db.executions.rows, e.id = l.claim.executionId ∧ e.environment = store.environment ∧
    (isActive e.state = true → Live store clock l.takenAt →
      e.leasedAt = some l.takenAt ∧ e.leaseOwner = some l.workerId)

/-- Two leases of one execution taken at one moment are not both live. -/
def Apart (store : DatabaseReconciliationStore) (clock : DateTime) (a b : Lease) : Prop :=
  a.claim.executionId = b.claim.executionId → a.takenAt = b.takenAt → ¬ Live store clock a.takenAt

structure Inv (store : DatabaseReconciliationStore) (s : State) : Prop where
  onRow : ∀ l ∈ s.held, OnRow store s.clock s.db l
  apart : s.held.Pairwise (Apart store s.clock)

theorem OnRow.later {clock clock' : DateTime} {db : Db} {l : Lease} (hc : clock ≤ clock')
    (h : OnRow store clock db l) : OnRow store clock' db l := by
  obtain ⟨e, he, hid, henv, hl⟩ := h
  exact ⟨e, he, hid, henv, fun ha hlive => hl ha (Classical.byContradiction fun hn => not_live_later hc hn hlive)⟩

theorem Inv.later {s : State} {clock : DateTime} (hc : s.clock ≤ clock) (h : Inv store s) :
    Inv store { s with clock := clock } :=
  ⟨fun l hl => (h.onRow l hl).later hc, h.apart.imp fun hab hid ht => not_live_later hc (hab hid ht)⟩

/-- The leases of a free execution have run out. -/
theorem OnRow.run_out {clock : DateTime} {db : Db} {l : Lease} {c : ReconciliationClaim}
    (h : OnRow store clock db l) (hf : Free store clock db c) (hid : l.claim.executionId = c.executionId) :
    ¬ Live store clock l.takenAt := by
  intro hlive
  obtain ⟨e, he, heid, _, hl⟩ := h
  obtain ⟨f, hf, hfid, _, ha, hfree⟩ := hf
  obtain rfl : e = f := execution_eq_of_id he hf (heid.trans (hid.trans hfid.symm))
  exact hfree _ (hl ha hlive).1 hlive

theorem OnRow.keep {clock : DateTime} {db db' : Db} {l : Lease} (h : OnRow store clock db l)
    (hk : ∀ e ∈ db.executions.rows, ∃ e' ∈ db'.executions.rows, Keeps e' e) : OnRow store clock db' l := by
  obtain ⟨e, he, hid, henv, hl⟩ := h
  obtain ⟨e', he', hk⟩ := hk e he
  refine ⟨e', he', hk.id.trans hid, hk.environment.trans henv, fun ha hlive => ?_⟩
  rw [hk.leasedAt, hk.leaseOwner]
  exact hl (hk.active ha) hlive

/-! ## What a turn does -/

/-- A turn that leases, leases free executions, each once. -/
theorem lease_inv {s : State} (h : Inv store s) {claims : List ReconciliationClaim} (workerId : String)
    (now : DateTime) (hfree : ∀ c ∈ claims, Free store s.clock s.db c) (hn : (claims.map (·.executionId)).Nodup) :
    Inv store ⟨lease (claims.map (·.executionId)) workerId now s.db, s.clock,
      claims.map (⟨workerId, ·, now⟩) ++ s.held⟩ := by
  constructor
  · intro l hl
    rcases List.mem_append.mp hl with hl | hl
    · obtain ⟨c, hc, rfl⟩ := List.mem_map.mp hl
      obtain ⟨e, he, hid, henv, _, _⟩ := hfree c hc
      have hpick : e.id ∈ claims.map (·.executionId) := by
        rw [hid]
        exact List.mem_map_of_mem hc
      have hm := mem_lease (claims.map (·.executionId)) workerId now he
      rw [if_pos hpick] at hm
      exact ⟨_, hm, hid, henv, fun _ _ => ⟨rfl, rfl⟩⟩
    · obtain ⟨e, he, hid, henv, hl'⟩ := h.onRow l hl
      have hm := mem_lease (claims.map (·.executionId)) workerId now he
      by_cases hpick : e.id ∈ claims.map (·.executionId)
      · rw [if_pos hpick] at hm
        obtain ⟨c, hc, hcid⟩ := List.mem_map.mp hpick
        refine ⟨_, hm, hid, henv, fun _ hlive => ?_⟩
        exact absurd hlive ((h.onRow l hl).run_out (hfree c hc) (hid.symm.trans hcid.symm))
      · rw [if_neg hpick] at hm
        exact ⟨e, hm, hid, henv, hl'⟩
  · refine List.pairwise_append.mpr ⟨?_, h.apart, fun a ha b hb hid ht => ?_⟩
    · refine List.pairwise_map.mpr ((List.pairwise_map.mp hn).imp fun hne hid => ?_)
      exact absurd hid hne
    · obtain ⟨c, hc, rfl⟩ := List.mem_map.mp ha
      rw [ht]
      exact (h.onRow b hb).run_out (hfree c hc) hid.symm

/-- Another lease of the execution, taken when `l` was, is not live. -/
theorem apart_erase {clock : DateTime} {held : List Lease} {l l' : Lease} (h : held.Pairwise (Apart store clock))
    (hl : l ∈ held) (hl' : l' ∈ held.erase l) (hid : l.claim.executionId = l'.claim.executionId)
    (ht : l.takenAt = l'.takenAt) : ¬ Live store clock l'.takenAt := by
  obtain ⟨newer, older, -, hheld, herase⟩ := List.exists_erase_eq hl
  rw [hheld] at h
  rw [herase] at hl'
  obtain ⟨-, hrest, hcross⟩ := List.pairwise_append.mp h
  rcases List.mem_append.mp hl' with hm | hm
  · exact hcross l' hm l List.mem_cons_self hid.symm ht.symm
  · rw [← ht]
    exact (List.pairwise_cons.mp hrest).1 l' hm hid ht

theorem resolve_inv [Sha256] {s : State} (h : Inv store s) {l : Lease} (hl : l ∈ s.held) {draws : Draws}
    {state : ProposalState} {evidence : ResultPayload} {db : Db}
    (hm : Meets store s ⟨.resolve l state evidence, draws, s.clock⟩)
    (hr : store.resolve draws l.claim state evidence s.db = .ok ((), db)) :
    Inv store ⟨db, s.clock, s.held.erase l⟩ := by
  refine ⟨fun l' hl' => ?_, h.apart.sublist List.erase_sublist⟩
  obtain ⟨f, hf, hfid, hfenv, hon⟩ := h.onRow l' (List.mem_of_mem_erase hl')
  obtain ⟨e, he, p, -, heid, henv, -, ⟨-, rfl⟩ | ⟨hne, ha, -, audit, outbox, rfl⟩⟩ := resolve_cases hr
  · exact ⟨f, hf, hfid, hfenv, hon⟩
  by_cases hfe : f.id = e.id
  · -- the execution resolved: its lease is gone, so it has to be closed, or `l'` to have run out
    obtain rfl := execution_eq_of_id hf he hfe
    have hrow : reconciled state evidence f ∈
        (s.db.executions.update (·.id == f.id) (reconciled state evidence) fun _ => rfl).rows :=
      Table.mem_update_pos he (beq_self_eq_true _)
    refine ⟨_, hrow, hfid, hfenv, ?_⟩
    intro hopen hlive
    obtain ⟨ht, ho⟩ := hon ha hlive
    have hfind : executionById s.db store.environment l.claim.executionId = some f := by
      refine Table.find?_eq_some_of_mem he (by simp [heid, henv]) fun a hpa => ?_
      exact clashes_byIdAnd.mpr (Or.inl ((by simpa using hpa : a.id = _ ∧ _).1.trans heid.symm))
    obtain ⟨htl, -⟩ := hm f hfind hne ha hopen _ ht hlive
    exact absurd hlive (apart_erase h.apart hl hl' (heid.symm.trans hfid) htl.symm)
  · have hrow : f ∈ (s.db.executions.update (·.id == e.id) (reconciled state evidence) fun _ => rfl).rows :=
      Table.mem_update_neg hf (by simpa using hfe)
    exact ⟨f, hrow, hfid, hfenv, hon⟩

theorem step_inv [Sha256] {s s' : State} {t : Turn} (h : Inv store s) (hm : Meets store s t)
    (hs : step store s t = some s') : Inv store s' := by
  unfold step at hs
  split at hs
  · rename_i hc
    obtain ⟨db, hdb, rfl⟩ := Option.map_eq_some_iff.mp hs
    have h := h.later hc.1
    have leased : ∀ {workerId : String}, obtained store s t = (issued store s t).map (⟨workerId, ·, t.draws.now⟩) →
        kept s t = s.held → ((∃ limit, t.action = .leaseAbandoned workerId limit) ∨
          ∃ proposalId, t.action = .leaseProposal proposalId workerId) →
        Inv store ⟨db, t.clock, obtained store s t ++ kept s t⟩ := by
      intro workerId ho hk ht
      obtain ⟨hfree, hnodup, hst⟩ := issued_free hc.2 hm ht
      rw [hst] at hdb
      cases hdb
      rw [ho, hk]
      exact lease_inv h workerId t.draws.now hfree hnodup
    obtain ⟨action, draws, clock⟩ := t
    cases action with
    | leaseAbandoned workerId limit => exact leased rfl rfl (Or.inl ⟨limit, rfl⟩)
    | leaseProposal proposalId workerId => exact leased rfl rfl (Or.inr ⟨proposalId, rfl⟩)
    | resolve l state evidence =>
      simp only [stored] at hdb
      split at hdb
      · rename_i hl
        obtain ⟨r, hr, rfl⟩ := exists_ok_of_map hdb
        exact resolve_inv h hl hm hr
      · cases hdb
    | other op seen =>
      simp only [stored] at hdb
      split at hdb
      · cases hdb
      · rename_i ho
        obtain ⟨r, hr, rfl⟩ := exists_ok_of_map hdb
        have hk : ∀ e ∈ s.db.executions.rows, ∃ e' ∈ r.2.executions.rows, Keeps e' e :=
          fun e he => other_keeps (by simpa using ho) hr he
        exact ⟨fun l hl => (h.onRow l hl).keep hk, h.apart⟩
  · cases hs

theorem reach_inv [Sha256] {s : State} (h : Reach store (Meets store) s) : Inv store s := by
  induction h with
  | init db clock => exact ⟨fun _ hl => (nomatch hl), .nil⟩
  | step _ hm hs ih => exact step_inv ih hm hs

/-- In a run whose turns meet the condition, leases are exclusive. -/
theorem leases_exclusive [Sha256] {s s' : State} {t : Turn} (h : Reach store (Meets store) s) (hm : Meets store s t)
    (hs : step store s t = some s') : Exclusive store s t := by
  intro l hl l' hl' hid _
  obtain ⟨hc, workerId, ht⟩ := obtained_issued hl
  unfold step at hs
  split at hs
  · rename_i hclock
    obtain ⟨db, -, rfl⟩ := Option.map_eq_some_iff.mp hs
    have hfree := (issued_free hclock.2 hm ht).1 l.claim hc
    have hout : ¬ Live store t.clock l'.takenAt :=
      (((reach_inv h).later hclock.1).onRow l' hl').run_out hfree hid
    exact hout
  · cases hs

/-! ## Runs -/

variable (store) in
def run [Sha256] (allowed : State → Turn → Prop) [DecidableRel allowed] : State → List Turn → Option State
  | s, [] => some s
  | s, t :: turns => if allowed s t then (step store s t).bind (run allowed · turns) else none

theorem run_reach [Sha256] {allowed : State → Turn → Prop} [DecidableRel allowed] {turns : List Turn} :
    ∀ {s s' : State}, Reach store allowed s → run store allowed s turns = some s' →
      Reach store allowed s' := by
  induction turns with
  | nil =>
    intro s s' h hr
    cases hr
    exact h
  | cons t turns ih =>
    intro s s' h hr
    unfold run at hr
    split at hr
    · rename_i ha
      obtain ⟨s₁, h₁, h₂⟩ := Option.bind_eq_some_iff.mp hr
      exact ih (.step h ha h₁) h₂
    · cases hr

def sampleStore : DatabaseReconciliationStore := { environment := .dev }

def otherTurn (op : Op) (draws : Draws) : Turn := ⟨.other op .empty, draws, draws.now⟩

def abandonedTurn (workerId : String) (now : DateTime) : Turn :=
  ⟨.leaseAbandoned workerId 20, sampleDraws 0 now, now⟩

/-- The sample proposal's execution is prepared at 20. -/
def preparedTurns : List Turn :=
  [otherTurn (.create sampleCreate sampleActor) (sampleDraws 1 0),
    otherTurn (.decide sampleDecide sampleActor) (sampleDraws 2 10),
    otherTurn (.prepare .dev 1 "correlation-2") (sampleDraws 3 20)]

/-- Its outcome is not known, and two minutes on a worker leases it. -/
def leasedTurns : List Turn :=
  preparedTurns ++
    [otherTurn (.finalize .dev sampleClaim ⟨3, 1, .uncertain, "correlation-2", none, none⟩) (sampleDraws 4 22),
      abandonedTurn "worker-1" (20 + minutes 2)]

def managerTurn (now : DateTime) : Turn := ⟨.leaseProposal 1 "manager-1", sampleDraws 0 now, now⟩

/-- A manager's call long after the worker's lease meets the condition. -/
theorem leases_exclusive_later : letI := Sha256.transparent
    ∃ s s', run sampleStore (Meets sampleStore) ⟨.empty, 0, []⟩ leasedTurns = some s ∧
      step sampleStore s (managerTurn (20 + minutes 4)) = some s' ∧ s'.held.length = 2 ∧
      Exclusive sampleStore s (managerTurn (20 + minutes 4)) := by
  let _ := Sha256.transparent
  have hrun : ((run sampleStore (Meets sampleStore) ⟨.empty, 0, []⟩ leasedTurns).map fun s =>
      decide (Meets sampleStore s (managerTurn (20 + minutes 4))) &&
        (step sampleStore s (managerTurn (20 + minutes 4))).any (·.held.length == 2)) = some true := by decide
  obtain ⟨s, hs, hok⟩ := Option.map_eq_some_iff.mp hrun
  obtain ⟨hm, hstep⟩ := Bool.and_eq_true_iff.mp hok
  obtain ⟨s', hs', hlen⟩ := (Option.any_eq_true _ _).mp hstep
  exact ⟨s, s', hs, hs', by simpa using hlen, leases_exclusive (run_reach (.init _ _) hs) (of_decide_eq_true hm) hs'⟩

/-- `lease_proposal` issues a claim on an execution that a worker leased a moment ago. -/
theorem lease_proposal_takes_over : letI := Sha256.transparent
    ¬ ∀ (store : DatabaseReconciliationStore) (s s' : State) (t : Turn), Reach store (fun _ _ => True) s →
      step store s t = some s' → Exclusive store s t := by
  let _ := Sha256.transparent
  intro h
  have hrun : ((run sampleStore (fun _ _ => True) ⟨.empty, 0, []⟩ leasedTurns).map fun s =>
      (step sampleStore s (managerTurn (21 + minutes 2))).isSome &&
        !decide (Exclusive sampleStore s (managerTurn (21 + minutes 2)))) = some true := by decide
  obtain ⟨s, hs, hok⟩ := Option.map_eq_some_iff.mp hrun
  obtain ⟨hstep, hnot⟩ := Bool.and_eq_true_iff.mp hok
  obtain ⟨s', hs'⟩ := Option.isSome_iff_exists.mp hstep
  exact absurd (h sampleStore s s' _ (run_reach (.init _ _) hs) hs') (by simpa using hnot)

/-- Scheduled workers alone break it as well: the first worker's `resolve` clears the
    second's lease, and a third leases the execution. -/
theorem resolve_clears_another_lease : letI := Sha256.transparent
    ¬ ∀ (store : DatabaseReconciliationStore) (s s' : State) (t : Turn),
      Reach store (fun _ t => t.action.scheduled = true) s → t.action.scheduled = true →
      step store s t = some s' → Exclusive store s t := by
  let _ := Sha256.transparent
  intro h
  let lease : Lease := ⟨"worker-1", ⟨3, 1, "DEV-1", "ana", "ben", "correlation-2", false⟩, 20 + minutes 2⟩
  let turns := preparedTurns ++ [abandonedTurn "worker-1" (20 + minutes 2), abandonedTurn "worker-2" (21 + minutes 3),
    ⟨.resolve lease .uncertain ⟨none, none, false⟩, sampleDraws 5 (22 + minutes 3), 22 + minutes 3⟩]
  have hrun : ((run sampleStore (fun _ t => t.action.scheduled = true) ⟨.empty, 0, []⟩ turns).map fun s =>
      (step sampleStore s (abandonedTurn "worker-3" (23 + minutes 3))).isSome &&
        !decide (Exclusive sampleStore s (abandonedTurn "worker-3" (23 + minutes 3)))) = some true := by decide
  obtain ⟨s, hs, hok⟩ := Option.map_eq_some_iff.mp hrun
  obtain ⟨hstep, hnot⟩ := Bool.and_eq_true_iff.mp hok
  obtain ⟨s', hs'⟩ := Option.isSome_iff_exists.mp hstep
  exact absurd (h sampleStore s s' _ (run_reach (.init _ _) hs) rfl hs') (by simpa using hnot)

end WorkforceRisk.Proposals.Leases
