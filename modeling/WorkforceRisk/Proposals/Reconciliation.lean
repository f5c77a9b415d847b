/-
  WorkforceRisk.Proposals.Reconciliation — when a reconciled failure is one.

  `lease_abandoned` copies `write_attempted` into its claim, and `resolve` stores
  `execution_failed` on the claim's word: it looks at the row's state again, but not at
  whether a write has been marked since. An executor that marks between the lease and the
  resolve goes on to edit (`failure_after_write`).

  Proved: in every run in which each `resolve` of a failure finds the mark of its
  execution still unset (`FindsUnmarked`), a proposal that was failed by reconciliation
  is never edited, before or after (`failure_unwritten`).
-/

import WorkforceRisk.Proposals.SingleWrite

namespace WorkforceRisk.Proposals

open Lib Persistence Jira DatabaseExecutionStore DatabaseReconciliationStore

/-- The transaction is a `resolve` that stored `execution_failed` for the proposal. -/
def storesFailure (event : Event) (proposalId : Uuid) : Bool :=
  (match event.op with
    | .resolve _ claim .executionFailed _ => claim.proposalId == proposalId
    | _ => false) &&
  event.before.proposals.rows.any (fun p => p.id == proposalId && p.state != .executionFailed) &&
  event.after.proposals.rows.any (fun p => p.id == proposalId && p.state == .executionFailed)

theorem storesFailure_iff {event : Event} {proposalId : Uuid} (h : storesFailure event proposalId = true) :
    (∃ store claim evidence, event.op = .resolve store claim .executionFailed evidence ∧
      claim.proposalId = proposalId) ∧
    (∃ p ∈ event.before.proposals.rows, p.id = proposalId ∧ p.state ≠ .executionFailed) ∧
    ∃ p ∈ event.after.proposals.rows, p.id = proposalId ∧ p.state = .executionFailed := by
  simp only [storesFailure, Bool.and_eq_true, List.any_eq_true, beq_iff_eq, bne_iff_ne] at h
  obtain ⟨⟨hop, hb⟩, ha⟩ := h
  refine ⟨?_, hb, ha⟩
  split at hop
  · rename_i store claim evidence he
    exact ⟨store, claim, evidence, he, by simpa using hop⟩
  · cases hop

/-- A `resolve` of a failure finds the write of the execution it fails not marked. -/
def FindsUnmarked (w : World) : Request → Prop
  | .transact (.resolve _ claim .executionFailed _) =>
    ∀ e ∈ w.db.executions.rows, e.id = claim.executionId → isActive e.state = true → e.writeAttempted = false
  | _ => True

instance : DecidableRel FindsUnmarked := fun w request =>
  match request with
  | .transact (.resolve _ claim state _) =>
    match state with
    | .executionFailed => inferInstanceAs (Decidable (∀ e ∈ w.db.executions.rows, e.id = claim.executionId →
        isActive e.state = true → e.writeAttempted = false))
    | .pending | .approved | .executing | .executedVerified | .uncertain | .rejected | .expired | .stale =>
      isTrue trivial
  | .transact (.persistSimulation _) | .transact (.create ..) | .transact (.createFromStoredSimulation ..)
  | .transact (.decide ..) | .transact (.getAuthorized ..) | .transact (.prepare ..)
  | .transact (.markWriteAttempted ..)
  | .transact (.finalize ..) | .transact (.leaseAbandoned ..) | .transact (.leaseProposal ..) | .callTool .. =>
    isTrue trivial

structure Failures [Sha256] (w : World) : Prop where
  reach : Reach w
  unmarked : ∀ event ∈ w.events, ∀ proposalId, storesFailure event proposalId = true →
    ∃ e ∈ w.db.executions.rows, e.proposalId = proposalId ∧ e.state = .executionFailed ∧ e.writeAttempted = false

theorem Marked.suffix {log older : List Entry} {proposalId : Uuid} (h : Marked older proposalId) (hs : older <:+ log) :
    Marked log proposalId := h.imp fun _ hm => ⟨hs.mem hm.1, hm.2⟩

theorem committed_mem {w : World} {event : Event} (h : .committed event ∈ w.log) : event ∈ w.events :=
  List.mem_filterMap.mpr ⟨_, h, rfl⟩

section
variable [Sha256]

/-- A mark in the log is still set. -/
theorem Marked.row {w : World} (h : Reach w) {proposalId : Uuid} (hm : Marked w.log proposalId) :
    ∃ e ∈ w.db.executions.rows, e.proposalId = proposalId ∧ e.writeAttempted = true := by
  obtain ⟨event, hev, _, _, _, e, he, _, hpid, hw⟩ := hm
  obtain ⟨e', he', hc⟩ := h.execution_since (h.after_mem_history event (committed_mem hev)) he
  exact ⟨e', he', hc.proposalId.trans hpid, hc.attempted hw⟩

/-- A stored failure leaves its execution failed and unmarked. -/
theorem resolve_unmarked {w : World} {op : Op} {draws : Draws} {seen db : Db} {r : op.Result} {call : Option Nat}
    {proposalId : Uuid} (h : Inv w) (hi : op.Issued w) (hok : FindsUnmarked w (.transact op))
    (hr : op.run draws seen w.db = .ok (r, db)) (hs : storesFailure ⟨call, op, r, w.db, db⟩ proposalId = true) :
    ∃ e ∈ db.executions.rows, e.proposalId = proposalId ∧ e.state = .executionFailed ∧ e.writeAttempted = false := by
  obtain ⟨⟨store, claim, evidence, heq, hcid⟩, ⟨p, hp, hpid, hps⟩, q, hq, hqid, hqs⟩ := storesFailure_iff hs
  obtain rfl : op = _ := heq
  obtain ⟨e, he, p', hp', heid, _, hpid', ⟨_, hdb⟩ | ⟨_, hact, _, _, _, hdb⟩⟩ := resolve_cases hr
  · -- nothing was stored: the proposal cannot have changed
    simp only at hp hq
    rw [hdb] at hq
    rw [proposal_eq_of_id hp hq (hpid.trans hqid.symm)] at hps
    exact absurd hqs hps
  · obtain ⟨event, hev, hin⟩ := issued_of_settles hi rfl
    obtain ⟨e₀, he₀, heq₀⟩ := h.issued event hev _ hin
    have hee : e₀ = e := execution_eq_of_id he₀ he ((congrArg (·.1) heq₀).trans heid.symm)
    refine ⟨reconciled .executionFailed evidence e, ?_, ?_, rfl, hok e he heid hact⟩
    · rw [hdb]
      show _ ∈ (w.db.executions.update (·.id == e.id) (reconciled .executionFailed evidence) fun _ => rfl).rows
      exact Table.mem_update_pos he (beq_self_eq_true _)
    · show e.proposalId = proposalId
      rw [← hee, ← hcid]
      exact congrArg (·.2) heq₀

theorem commit_failures {w : World} {op : Op} {draws : Draws} {n : Nat} {r : op.Result} {db : Db} {call : Option Nat}
    (h : Failures w) (hi : op.Issued w) (hok : FindsUnmarked w (.transact op))
    (hr : op.run draws (w.asOf n) w.db = .ok (r, db)) : Failures (w.commit call op r db) := by
  refine ⟨.commit call h.reach hi hr, fun event hev proposalId hs => ?_⟩
  rcases List.mem_cons.mp hev with rfl | hev
  · exact resolve_unmarked (inv h.reach) hi hok hr hs
  · obtain ⟨e, he, hpid, hst, hw⟩ := h.unmarked event hev proposalId hs
    obtain ⟨e', he', hpid', hst', hw'⟩ := (run_effect op hr).closed_kept he (by rw [hst]; rfl)
    exact ⟨e', he', hpid'.trans hpid, hst'.trans hst, hw'.trans hw⟩

theorem system_failures {c : Config Request Request.Reply World} (h : system.Reach FindsUnmarked .init c) :
    Failures c.shared := by
  refine (Machine.Reach.invariant (I := Failures) (Q := Holds) (fun _ => .fresh) start_sat
    ⟨.init, fun _ he => (nomatch he)⟩ (fun _ _ _ _ => trivial) (fun w i request g ch r w' hI hq ha hok hh => ?_)
    (fun w s w' hI hx => ?_) h).1
  · have hstep := Option.some.inj hh
    obtain ⟨_, hh', hgrow⟩ := holds_step hI.reach hq ha hstep
    refine ⟨?_, hh', fun _ _ _ hj => hj.mono hgrow⟩
    cases request with
    | transact op =>
      obtain ⟨e, rfl, rfl⟩ | ⟨a, db, rfl, hr, rfl⟩ := answer_transact hstep
      · exact hI
      · exact commit_failures hI (allowed_issued hq ha) hok hr
    | callTool tool p =>
      cases hstep
      exact ⟨.called i tool p hI.reach, hI.unmarked⟩
  · obtain ⟨_, hrep, r, db, hr, rfl⟩ := other_step hI.reach hx
    refine ⟨commit_failures hI (repository_issued hrep w) ?_ hr, fun _ _ hj => hj.mono (World.commit_grows _ _ _ _ _)⟩
    revert hrep
    cases s.op <;> first | exact fun _ => trivial | exact fun h => (nomatch h)

/-- An edit for a proposal leaves its execution marked. -/
theorem edited_marked {w : World} (h : Written w) {proposalId : Uuid} (he : edits w.log proposalId ≠ 0) :
    ∃ e ∈ w.db.executions.rows, e.proposalId = proposalId ∧ e.writeAttempted = true := by
  obtain ⟨entry, hm, hedit⟩ := List.countP_pos_iff.mp (Nat.pos_of_ne_zero he)
  obtain ⟨newer, older, hlog⟩ := List.append_of_mem hm
  unfold isEdit at hedit
  split at hedit
  · rename_i i issueKey accountId correlationId p
    have hs : _ :: older <:+ w.log := ⟨newer, hlog.symm⟩
    obtain ⟨q, hq, hmark⟩ := h.marked i issueKey accountId correlationId p older hs
    have : q = proposalId := by rw [hq] at hedit; simpa using hedit
    exact (this ▸ hmark.suffix ((List.suffix_cons _ _).trans hs)).row h.reach
  · cases hedit

/-- Where every failure is resolved with the mark still unset, a proposal failed by
    reconciliation is not edited at any time of the run. -/
theorem failure_unwritten {c : Config Request Request.Reply World} (h : system.Reach FindsUnmarked .init c) :
    ∀ event ∈ c.shared.events, ∀ proposalId, storesFailure event proposalId = true →
      edits c.shared.log proposalId = 0 := by
  intro event hev proposalId hs
  apply Classical.byContradiction
  intro hne
  have hf := system_failures h
  obtain ⟨e, he, hpid, _, hw⟩ := hf.unmarked event hev proposalId hs
  obtain ⟨f, hf', hfid, hfw⟩ := edited_marked (system_written h) hne
  have : e = f := (inv hf.reach).execution_eq he hf' (hpid.trans hfid.symm)
  rw [this, hfw] at hw
  cases hw

/-- The sample proposal's execution is prepared at 20. -/
def preparedExecution : List system.Action :=
  [.other { op := .create sampleCreate sampleActor, draws := sampleDraws 1 0 },
    .other { op := .decide sampleDecide sampleActor, draws := sampleDraws 2 10 },
    .start 0 (Call.execute sampleService 1 "correlation-2"), .perform 0 (commits 3 20)]

/-- The executor stops, and two minutes on its execution is reconciled as failed. -/
def reconciledAfterCrash : List system.Action :=
  preparedExecution ++ [.crash 0, .start 1 (Call.runOnce sampleReconciliation "worker-1" 20),
    .perform 1 (commits 0 (20 + minutes 2)), .perform 1 (assigned "ana"), .perform 1 (commits 5 (21 + minutes 2))]

/-- The executor only stalls: it marks and edits between the lease and the resolve. -/
def reconciledWhileWriting : List system.Action :=
  preparedExecution ++ [.start 1 (Call.runOnce sampleReconciliation "worker-1" 20),
    .perform 1 (commits 0 (20 + minutes 2)),
    .perform 0 (commits 0 (20 + minutes 2)), .perform 1 (assigned "ana"), .perform 0 (assigned "ana"),
    .perform 0 (responds []), .perform 1 (commits 5 (21 + minutes 2))]

end

theorem failure_unwritten_after_crash : letI := Sha256.transparent
    ∃ c, system.run FindsUnmarked sampleConfig reconciledAfterCrash = some c ∧
      ∃ event ∈ c.shared.events, storesFailure event 1 = true ∧ edits c.shared.log 1 = 0 := by
  let _ := Sha256.transparent
  have run : (system.run FindsUnmarked sampleConfig reconciledAfterCrash).map
      (fun c => c.shared.events.any (storesFailure · 1)) = some true := by decide
  obtain ⟨c, hc, he⟩ := Option.map_eq_some_iff.mp run
  obtain ⟨event, hev, hs⟩ := List.any_eq_true.mp he
  exact ⟨c, hc, event, hev, hs, failure_unwritten (Machine.run_reach .init hc) event hev 1 hs⟩

/-- A reconciled failure is stored for a proposal that has been edited. -/
theorem failure_after_write : letI := Sha256.transparent
    ¬ ∀ c, system.Reach Machine.anyStep .init c → ∀ event ∈ c.shared.events, ∀ proposalId,
      storesFailure event proposalId = true → edits c.shared.log proposalId = 0 := by
  let _ := Sha256.transparent
  intro h
  have run : (system.run Machine.anyStep sampleConfig reconciledWhileWriting).map
      (fun c => (c.shared.events.any (storesFailure · 1), edits c.shared.log 1)) = some (true, 1) := by decide
  obtain ⟨c, hc, he⟩ := Option.map_eq_some_iff.mp run
  obtain ⟨hany, hone⟩ := Prod.mk.inj he
  obtain ⟨event, hev, hs⟩ := List.any_eq_true.mp hany
  rw [h c (Machine.run_reach .init hc) event hev 1 hs] at hone
  cases hone

end WorkforceRisk.Proposals
