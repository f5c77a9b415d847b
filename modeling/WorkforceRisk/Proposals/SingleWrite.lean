/-
  WorkforceRisk.Proposals.SingleWrite — at most one Jira write for a proposal.

  The unique constraint lets one `prepare` of a proposal commit, so its claim belongs to
  one call (`prepare_fresh`). That call may edit only after its mark is committed, and
  edits once. Crashes leave a claim without a holder, and reconciliation never edits.

  Proved: `single_write`, over every run of the system.
-/

import WorkforceRisk.Proposals.Services

namespace WorkforceRisk.Proposals

open Lib Persistence Jira DatabaseExecutionStore

def isEdit (proposalId : Uuid) : Entry → Bool
  | .called _ (.editJiraIssue ..) p => p == some proposalId
  | _ => false

/-- How many edits were sent for the proposal. -/
def edits (log : List Entry) (proposalId : Uuid) : Nat := log.countP (isEdit proposalId)

/-- The log has the committed mark of a write for the proposal's execution. -/
def Marked (log : List Entry) (proposalId : Uuid) : Prop :=
  ∃ event, .committed event ∈ log ∧ ∃ environment claim, event.op = .markWriteAttempted environment claim ∧
    ∃ e ∈ event.after.executions.rows, e.id = claim.executionId ∧ e.proposalId = proposalId ∧ e.writeAttempted = true

structure Written [Sha256] (w : World) : Prop where
  reach : Reach w
  /-- The claims of a proposal belong to one call. -/
  owner : ∀ event ∈ w.events, ∀ event' ∈ w.events, ∀ c c', event.claim? = some c → event'.claim? = some c' →
    c.proposalId = c'.proposalId → event.call = event'.call
  claimed : ∀ proposalId, edits w.log proposalId ≠ 0 → ∃ event ∈ w.events, ∃ c, event.claim? = some c ∧
    c.proposalId = proposalId
  single : ∀ proposalId, edits w.log proposalId ≤ 1
  marked : ∀ i issueKey accountId correlationId p older,
    .called i (.editJiraIssue issueKey accountId correlationId) p :: older <:+ w.log →
    ∃ proposalId, p = some proposalId ∧ Marked older proposalId

/-- What a call knows of the edits for its claim. -/
def Unwritten (w : World) : Pc → Prop
  | .prepared c => edits w.log c.proposalId = 0
  | .attempted c => edits w.log c.proposalId = 0 ∧ Marked w.log c.proposalId
  | _ => True

theorem Marked.cons {log : List Entry} {proposalId : Uuid} (h : Marked log proposalId) (entry : Entry) :
    Marked (entry :: log) proposalId := h.imp fun _ hm => ⟨List.mem_cons_of_mem _ hm.1, hm.2⟩

@[simp] theorem edits_commit (w : World) (call : Option Nat) (op : Op) (r : op.Result) (db : Db) (proposalId : Uuid) :
    edits (w.commit call op r db).log proposalId = edits w.log proposalId := by
  simp [edits, World.commit, isEdit]

@[simp] theorem edits_read (w : World) (i : Nat) (issueKey correlationId : String) (p : Option Uuid)
    (proposalId : Uuid) :
    edits (w.called i (.getJiraIssue issueKey correlationId) p).log proposalId = edits w.log proposalId := by
  simp [edits, World.called, isEdit]

theorem edits_edit (w : World) (i : Nat) (issueKey accountId correlationId : String) (p proposalId : Uuid) :
    edits (w.called i (.editJiraIssue issueKey accountId correlationId) (some p)).log proposalId =
      edits w.log proposalId + if p = proposalId then 1 else 0 := by
  simp [edits, World.called, isEdit, List.countP_cons]

/-- A call's knowledge outlives the steps that send no edit for its proposal. -/
theorem Unwritten.mono {w w' : World} {g : Pc} (hu : Unwritten w g)
    (he : ∀ c, (g = .prepared c ∨ g = .attempted c) → edits w'.log c.proposalId = edits w.log c.proposalId)
    (hm : ∀ proposalId, Marked w.log proposalId → Marked w'.log proposalId) : Unwritten w' g := by
  cases g with
  | prepared c => exact (he c (Or.inl rfl)).trans hu
  | attempted c => exact ⟨(he c (Or.inr rfl)).trans hu.1, hm _ hu.2⟩
  | _ => trivial

theorem commit_unwritten {w : World} {g : Pc} (hu : Unwritten w g) (call : Option Nat) (op : Op) (r : op.Result)
    (db : Db) : Unwritten (w.commit call op r db) g :=
  hu.mono (fun _ _ => edits_commit ..) fun _ hm => hm.cons _

theorem failed_unwritten {w : World} {g : Pc} {op : Op} (ha : protocol.allows g (.transact op)) (e : Error) :
    Unwritten w (protocol.next g (.transact op) (.error e)) := by
  cases g with
  | leased cs => trivial
  | done => exact False.elim ha
  | _ => cases op <;> first | exact False.elim ha | trivial

/-- No claim of the proposal was issued before the one `prepare` issues. -/
theorem prepare_fresh [Sha256] {w : World} (call : Option Nat) (h : Inv w) {op : Op} {draws : Draws} {seen db : Db}
    {r : op.Result} (hr : op.run draws seen w.db = .ok (r, db)) {c : ExecutionClaim}
    (hc : (Event.mk call op r w.db db).claim? = some c) :
    ∀ event ∈ w.events, ∀ c', event.claim? = some c' → c'.proposalId ≠ c.proposalId := by
  intro event hev c' hc' hid
  cases op with
  | prepare environment proposalId correlationId =>
    obtain ⟨e, _, rfl, _⟩ | ⟨_, p, hp, _, henv, _, rfl, executions, _, hin, _⟩ := prepare_cases hr
    · cases hc
    · cases hc
      have hiss : (c'.executionId, c'.proposalId) ∈ event.issued :=
        List.mem_append_left _ (List.mem_map.mpr ⟨c', by rw [hc']; exact List.mem_singleton_self _, rfl⟩)
      obtain ⟨e, he, heq⟩ := h.issued event hev _ hiss
      obtain ⟨_, q, hq, hqid, hqenv, _⟩ := h.lockstep e he
      have hep : e.proposalId = p.id := (congrArg (·.2) heq).trans hid
      have : q = p := proposal_eq_of_id hq hp (hqid.trans hep)
      refine (not_clashes_byIdAnd.mp (Table.insert_fresh hin e he)).2 ?_
      show (e.environment, e.proposalId) = (environment, p.id)
      rw [← hqenv, this, henv, hep]
  | _ => cases hc

section
variable [Sha256]

theorem commit_written {w : World} {op : Op} {draws : Draws} {n : Nat} {r : op.Result} {db : Db} {call : Option Nat}
    (h : Written w) (hi : op.Issued w) (hr : op.run draws (w.asOf n) w.db = .ok (r, db)) :
    Written (w.commit call op r db) := by
  have fresh := fun c (hc : (Event.mk call op r w.db db).claim? = some c) => prepare_fresh call (inv h.reach) hr hc
  refine ⟨.commit call h.reach hi hr, fun event hev event' hev' c c' hc hc' hid => ?_, fun p hp => ?_, fun p => ?_,
    fun i issueKey accountId correlationId p older hs => ?_⟩
  · rcases List.mem_cons.mp hev with rfl | hev
    · rcases List.mem_cons.mp hev' with rfl | hev'
      · rfl
      · exact absurd hid.symm (fresh c hc event' hev' c' hc')
    · rcases List.mem_cons.mp hev' with rfl | hev'
      · exact absurd hid (fresh c' hc' event hev c hc)
      · exact h.owner event hev event' hev' c c' hc hc' hid
  · rw [edits_commit] at hp
    exact (h.claimed p hp).imp fun _ he => ⟨World.commit_grows w call op r db _ he.1, he.2⟩
  · rw [edits_commit]
    exact h.single p
  · rcases List.suffix_cons_iff.mp hs with heq | hs
    · cases heq
    · exact h.marked i issueKey accountId correlationId p older hs

theorem read_written {w : World} {i : Nat} {issueKey correlationId : String} {p : Option Uuid} (h : Written w) :
    Written (w.called i (.getJiraIssue issueKey correlationId) p) := by
  refine ⟨.called _ _ _ h.reach, h.owner, fun q hq => h.claimed q (by simpa using hq), fun q => ?_,
    fun j k a r q older hs => ?_⟩
  · rw [edits_read]
    exact h.single q
  · rcases List.suffix_cons_iff.mp hs with heq | hs
    · cases heq
    · exact h.marked j k a r q older hs

/-- The edit of a marked claim that was not written for. -/
theorem edit_written {w : World} {i : Nat} {issueKey accountId correlationId : String} {c : ExecutionClaim}
    (h : Written w) (hc : Claimed w i c) (hu : edits w.log c.proposalId = 0) (hm : Marked w.log c.proposalId) :
    Written (w.called i (.editJiraIssue issueKey accountId correlationId) (some c.proposalId)) := by
  refine ⟨.called _ _ _ h.reach, h.owner, fun q hq => ?_, fun q => ?_, fun j k a r q older hs => ?_⟩
  · by_cases e : c.proposalId = q
    · obtain ⟨event, hev, _, hcl⟩ := hc
      exact ⟨event, hev, c, hcl, e⟩
    · rw [edits_edit, if_neg e] at hq
      exact h.claimed q hq
  · rw [edits_edit]
    split
    · rename_i e
      rw [← e, hu]
    · exact h.single q
  · rcases List.suffix_cons_iff.mp hs with heq | hs
    · cases heq
      exact ⟨c.proposalId, rfl, hm⟩
    · exact h.marked j k a r q older hs

/-- The mark of a claim, once committed, is in the log. -/
theorem mark_marked {w : World} (h : Inv w) {i : Nat} {environment : Environment} {c : ExecutionClaim} {draws : Draws}
    {seen db : Db} {call : Option Nat} {u : Unit} (hc : Claimed w i c)
    (hr : (Op.markWriteAttempted environment c).run draws seen w.db = .ok (u, db)) :
    Marked (w.commit call (.markWriteAttempted environment c) u db).log c.proposalId := by
  obtain ⟨event, hev, _, hcl⟩ := hc
  have hiss : (c.executionId, c.proposalId) ∈ event.issued :=
    List.mem_append_left _ (List.mem_map.mpr ⟨c, by rw [hcl]; exact List.mem_singleton_self _, rfl⟩)
  obtain ⟨e₀, he₀, heq⟩ := h.issued event hev _ hiss
  obtain ⟨e, he, hid, _, _, rfl⟩ := markWriteAttempted_cases hr
  have hee : e₀ = e := execution_eq_of_id he₀ he ((congrArg (·.1) heq).trans hid.symm)
  refine ⟨_, List.mem_cons_self, environment, c, rfl, attempted e, ?_, hid, ?_, rfl⟩
  · show attempted e ∈ (w.db.executions.update (·.id == e.id) attempted fun _ => rfl).rows
    exact Table.mem_update_pos he (beq_self_eq_true _)
  · rw [← hee]
    exact congrArg (·.2) heq

theorem transact_unwritten {w : World} {i : Nat} {g : Pc} {op : Op} {draws : Draws} {n : Nat} {r : op.Result} {db : Db}
    (h : Written w) (hh : Holds w i g) (hu : Unwritten w g) (ha : protocol.allows g (.transact op))
    (hr : op.run draws (w.asOf n) w.db = .ok (r, db)) :
    Unwritten (w.commit (some i) op r db) (protocol.next g (.transact op) (.ok r)) := by
  cases g with
  | fresh =>
    cases op with
    | prepare environment proposalId correlationId =>
      cases r with
      | result r => trivial
      | claim c =>
        show edits _ c.proposalId = 0
        rw [edits_commit]
        apply Classical.byContradiction
        intro hne
        obtain ⟨event, hev, c', hc', hid⟩ := h.claimed _ hne
        exact prepare_fresh none (inv h.reach) hr rfl event hev c' hc' hid
    | leaseAbandoned store workerId limit => trivial
    | leaseProposal store proposalId workerId => trivial
    | _ => exact False.elim ha
  | prepared c =>
    cases op with
    | markWriteAttempted environment claim =>
      obtain rfl : claim = c := ha
      exact ⟨(edits_commit ..).trans hu, mark_marked (inv h.reach) hh hr⟩
    | _ => exact False.elim ha
  | leased cs => trivial
  | attempted c =>
    cases op with
    | finalize environment claim result => trivial
    | _ => exact False.elim ha
  | edited c =>
    cases op with
    | finalize environment claim result => trivial
    | _ => exact False.elim ha
  | done => exact False.elim ha

theorem call_written {w : World} {i : Nat} {g : Pc} {tool : ToolCall} {p : Option Uuid} {r : Except Error Mapping}
    (h : Written w) (hh : Holds w i g) (hu : Unwritten w g) (ha : protocol.allows g (.callTool tool p)) :
    Written (w.called i tool p) ∧ Unwritten (w.called i tool p) (protocol.next g (.callTool tool p) r) ∧
      ∀ j g', j ≠ i → Holds w j g' → Unwritten w g' → Unwritten (w.called i tool p) g' := by
  cases tool with
  | getJiraIssue issueKey correlationId =>
    have keep : ∀ g', Unwritten w g' → Unwritten (w.called i (.getJiraIssue issueKey correlationId) p) g' :=
      fun g' hu' => hu'.mono (fun _ _ => edits_read ..) fun _ hm => hm.cons _
    refine ⟨read_written h, ?_, fun _ g' _ _ hu' => keep g' hu'⟩
    cases g with
    | attempted c => exact keep _ hu
    | edited c => trivial
    | leased cs => trivial
    | _ => exact False.elim ha
  | editJiraIssue issueKey accountId correlationId =>
    cases g with
    | attempted c =>
      obtain rfl : p = some c.proposalId := ha
      refine ⟨edit_written h hh hu.1 hu.2, trivial, fun j g' hj hh' hu' => ?_⟩
      refine hu'.mono (fun c' hc' => ?_) fun _ hm => hm.cons _
      -- another call's claim is another proposal's
      have hne : c.proposalId ≠ c'.proposalId := by
        intro hid
        have hcl' : Claimed w j c' := by rcases hc' with rfl | rfl <;> exact hh'
        obtain ⟨event, hev, hcall, hcl⟩ := hh
        obtain ⟨event', hev', hcall', hcl'⟩ := hcl'
        have := h.owner event hev event' hev' c c' hcl hcl' hid
        rw [hcall, hcall'] at this
        exact hj (Option.some.inj this).symm
      rw [edits_edit, if_neg hne, Nat.add_zero]
    | _ => exact False.elim ha

theorem init_written : Written .init := by
  refine ⟨.init, fun _ he => (nomatch he), fun _ he => absurd rfl he, fun _ => Nat.zero_le 1, ?_⟩
  intro i issueKey accountId correlationId p older hs
  cases List.suffix_nil.mp hs

theorem system_written {ok : World → Request → Prop} {c : Config Request Request.Reply World}
    (h : system.Reach ok .init c) : Written c.shared := by
  refine (Machine.Reach.invariant (I := Written) (Q := fun w i g => Holds w i g ∧ Unwritten w g) (fun _ => .fresh)
    start_sat init_written (fun _ _ _ _ => ⟨trivial, trivial⟩) (fun w i request g ch r w' hI hq ha _ hh => ?_)
    (fun w s w' hI hx => ?_) h).1
  · have hstep := Option.some.inj hh
    obtain ⟨_, hh', hgrow⟩ := holds_step hI.reach hq.1 ha hstep
    cases request with
    | transact op =>
      obtain ⟨e, rfl, rfl⟩ | ⟨a, db, rfl, hr, rfl⟩ := answer_transact hstep
      · exact ⟨hI, ⟨hh', failed_unwritten ha e⟩, fun _ _ _ hj => hj⟩
      · exact ⟨commit_written hI (allowed_issued hq.1 ha) hr, ⟨hh', transact_unwritten hI hq.1 hq.2 ha hr⟩,
          fun _ _ _ hj => ⟨hj.1.mono hgrow, commit_unwritten hj.2 _ _ _ _⟩⟩
    | callTool tool p =>
      cases hstep
      obtain ⟨hw, hu, hf⟩ := call_written (r := ch.response) hI hq.1 hq.2 ha
      exact ⟨hw, ⟨hh', hu⟩, fun j g' hj hjq => ⟨hjq.1.mono hgrow, hf j g' hj hjq.1 hjq.2⟩⟩
  · obtain ⟨_, hrep, r, db, hr, rfl⟩ := other_step hI.reach hx
    exact ⟨commit_written hI (repository_issued hrep w) hr,
      fun _ _ hj => ⟨hj.1.mono (World.commit_grows _ _ _ _ _), commit_unwritten hj.2 _ _ _ _⟩⟩

/-- In every run of any number of calls, with any of them crashing, at most one edit is
    sent for a proposal, and every edit is sent for a proposal whose execution's mark was
    committed before. -/
theorem single_write {c : Config Request Request.Reply World} (h : system.Reach Machine.anyStep .init c) :
    (∀ proposalId, edits c.shared.log proposalId ≤ 1) ∧
    ∀ i issueKey accountId correlationId p older,
      .called i (.editJiraIssue issueKey accountId correlationId) p :: older <:+ c.shared.log →
      ∃ proposalId, p = some proposalId ∧ Marked older proposalId :=
  ⟨(system_written h).single, (system_written h).marked⟩

/-- The sample proposal is executed by two calls at once: the second is refused the
    insert, the first edits and crashes, and a third returns what is stored. -/
def twoExecutions : List system.Action :=
  [.other { op := .create sampleCreate sampleActor, draws := sampleDraws 1 0 },
    .other { op := .decide sampleDecide sampleActor, draws := sampleDraws 2 10 },
    .start 0 (Call.execute sampleService 1 "correlation-2"), .start 1 (Call.execute sampleService 1 "correlation-3"),
    .perform 0 (commits 3 20), .perform 1 { commits 4 20 with seen := 1 },
    .perform 0 (commits 0 21), .perform 0 (assigned "ana"), .perform 0 (responds []), .crash 0,
    .start 2 (Call.execute sampleService 1 "correlation-4"), .perform 2 (commits 0 22)]

end

theorem single_write_two : letI := Sha256.transparent
    ∃ c, system.run Machine.anyStep sampleConfig twoExecutions = some c ∧ edits c.shared.log 1 = 1 ∧
      ∀ proposalId, edits c.shared.log proposalId ≤ 1 := by
  let _ := Sha256.transparent
  have run : (system.run Machine.anyStep sampleConfig twoExecutions).map (edits ·.shared.log 1) = some 1 := by decide
  obtain ⟨c, hc, he⟩ := Option.map_eq_some_iff.mp run
  exact ⟨c, hc, he, (single_write (Machine.run_reach .init hc)).1⟩

end WorkforceRisk.Proposals
