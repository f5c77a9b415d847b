/-
  WorkforceRisk.Mcp.ReassignmentTools — `execute_reassignment` and
  `reconcile_uncertain_reassignment`
  (services/workforce-risk-mcp/src/workforce_risk_mcp/server.py, tools/proposals.py).

  Both tools authorize the project key of the request and then act on the proposal of the
  request, whatever its project. The execution path meets the proposal's own project only
  in the Jira client, after two committed transactions; the reconciliation path never.

  Proved: exactly when a tool leaves every row as it is and makes no call of Jira for a
  proposal outside the caller's scopes (`execute_isolated`, `reconcile_isolated`,
  `tools_isolated_iff`).
-/

import WorkforceRisk.Contracts.Auth
import WorkforceRisk.Proposals.Services

namespace WorkforceRisk.Mcp

open Lib Persistence Jira Contracts Proposals DatabaseExecutionStore

/-! ## The tools -/

/-- The service's environment variables. -/
structure ServerConfig where
  environment : Environment
  internalAuthSecret : Option String
  databaseUrl : Option String
  jiraMcpAuthHeader : Option String
  jiraCloudId : Option String
  jiraMutationEnabled : Option String

def isSet : Option String → Bool
  | some value => value != ""
  | none => false

namespace ServerConfig

variable (config : ServerConfig)

def mayReconcile : Bool :=
  isSet config.internalAuthSecret && isSet config.databaseUrl && isSet config.jiraMcpAuthHeader &&
    isSet config.jiraCloudId

def mayExecute : Bool :=
  config.mayReconcile && (config.jiraMutationEnabled.getD "false").toList.map Char.toLower == "true".toList &&
    config.environment == .dev

end ServerConfig

/-- `ExecuteProposalRequest` and `ReconcileProposalRequest`. -/
structure ProposalRequest where
  projectKey : String
  proposalId : Uuid

def authorizeProposal (signed : Option VerifiedInternalContext) (secret : String) (environment : Environment)
    (projectKey : String) (now : DateTime) : Except Error VerifiedInternalContext :=
  if secret.utf8ByteSize < 32 then
    .error (.valueError "internal context secret must contain at least 32 bytes")
  else verify signed environment projectKey [.manager, .administrator] now

def executeReassignmentTool (config : ServerConfig) (signed : Option VerifiedInternalContext)
    (request : ProposalRequest)
    (now : DateTime) : Service ExecutionResult :=
  if !config.mayExecute then .ret (.error (.runtimeError "Jira reassignment execution is not configured"))
  else
    match authorizeProposal signed (config.internalAuthSecret.getD "") .dev request.projectKey now with
    | .error e => .ret (.error e)
    | .ok verified =>
      let service : ReassignmentExecutionService :=
        { environment := .dev, mutator := { environment := "dev", allowedProjects := verified.projectScopes } }
      service.execute request.proposalId verified.correlationId

structure ReconciliationResponse where
  schemaVersion : String := "1.0"
  environment : Environment
  correlationId : String
  result : Option ReconciliationResult

def reconcileUncertainReassignmentTool (config : ServerConfig) (signed : Option VerifiedInternalContext)
    (request : ProposalRequest) (now : DateTime) : Service ReconciliationResponse :=
  if !config.mayReconcile then .ret (.error (.runtimeError "Jira reconciliation is not configured"))
  else
    match authorizeProposal signed (config.internalAuthSecret.getD "") config.environment request.projectKey now with
    | .error e => .ret (.error e)
    | .ok verified =>
      let service : ReconciliationService :=
        { store := { environment := config.environment }
          reader := { environment := config.environment.value, allowedProjects := verified.projectScopes } }
      (service.runProposal request.proposalId ("manager:" ++ verified.actorId)).andThen fun result =>
        .ret (.ok { environment := config.environment, correlationId := verified.correlationId, result := result })

/-! ## What a run of one call leaves -/

def isCall : Entry → Bool
  | .called .. => true
  | .committed _ => false

@[simp] theorem commit_calls (w : World) (call : Option Nat) (op : Op) (r : op.Result) (db : Db) :
    (w.commit call op r db).log.countP isCall = w.log.countP isCall := by simp [World.commit, isCall]

@[simp] theorem called_calls (w : World) (call : Nat) (tool : ToolCall) (proposalId : Option Uuid) :
    (w.called call tool proposalId).log.countP isCall = w.log.countP isCall + 1 := by
  simp [World.called, isCall, List.countP_cons]

/-- Every row of the four tables is as it was, and no tool was called. -/
structure Untouched (w w' : World) : Prop where
  proposals : w'.db.proposals = w.db.proposals
  executions : w'.db.executions = w.db.executions
  audit : w'.db.audit = w.db.audit
  outbox : w'.db.outbox = w.db.outbox
  calls : w'.log.countP isCall = w.log.countP isCall

theorem Untouched.refl (w : World) : Untouched w w := ⟨rfl, rfl, rfl, rfl, rfl⟩

section
variable [Sha256]

/-- However the call runs on its own, it leaves the world untouched. -/
def Isolated {α : Type} (w : World) (p : Service α) : Prop :=
  ∀ (i : Nat) (w' : World) (r : Except Error α), system.Alone i w p w' r → Untouched w w'

theorem alone_transact {i : Nat} {op : Op} {w w' : World} {r : Except Error op.Result}
    (h : system.Alone i w (transact op) w' r) : (∃ e, r = .error e ∧ w' = w) ∨
    ∃ (ch : Choice) (a : op.Result) (db : Db), r = .ok a ∧ op.run ch.draws (w.asOf ch.seen) w.db = .ok (a, db) ∧
      w' = w.commit (some i) op a db := by
  obtain ⟨ch, hh⟩ := Machine.alone_perform.mp h
  exact (answer_transact (Option.some.inj hh)).imp_right fun h => ⟨ch, h⟩

/-- Every call can run to its end: each request gets some answer. -/
theorem alone_total (i : Nat) {α : Type} (p : Proc Request Request.Reply α) :
    ∀ w, ∃ w' r, system.Alone i w p w' r := by
  induction p with
  | ret a => exact fun w => ⟨w, a, .ret w a⟩
  | call request k ih =>
    intro w
    obtain ⟨w', r, h⟩ := ih (answer i (commits 0 0) w request).1 (answer i (commits 0 0) w request).2
    exact ⟨w', r, .call (commits 0 0) rfl h⟩

/-- A run takes no execution away, and no call back. -/
theorem alone_grows {i : Nat} {α : Type} {p : Proc Request Request.Reply α} {w w' : World} {r : α}
    (h : system.Alone i w p w' r) : (∀ e ∈ w.db.executions.rows, ∃ e' ∈ w'.db.executions.rows, e'.Continues e) ∧
    w.log.countP isCall ≤ w'.log.countP isCall := by
  induction h with
  | ret w a => exact ⟨fun e he => ⟨e, he, .refl e⟩, Nat.le_refl _⟩
  | @call w w₁ w' request k r a ch hh _ ih =>
    obtain ⟨hkeep, hcount⟩ := ih
    cases request with
    | transact op =>
      obtain ⟨_, _, rfl⟩ | ⟨a, db, _, hr, rfl⟩ := answer_transact (Option.some.inj hh)
      · exact ⟨hkeep, hcount⟩
      · refine ⟨fun e he => ?_, by rwa [commit_calls] at hcount⟩
        obtain ⟨e₁, he₁, hc₁⟩ := (run_effect op hr).execution_kept he
        obtain ⟨e₂, he₂, hc₂⟩ := hkeep e₁ he₁
        exact ⟨e₂, he₂, hc₂.trans hc₁⟩
    | callTool tool proposalId =>
      cases hh
      rw [called_calls] at hcount
      exact ⟨hkeep, by omega⟩

/-! ## When a tool acts -/

/-- The start of the proposal's execution would repeat a hash of the audit chain. -/
def StartCollides (w : World) (p : ReassignmentProposal) (correlationId : String) : Prop :=
  ∃ e ∈ w.db.audit.rows, e.environment = .dev ∧
    e.eventHash = (AuditRepository.next w.db.audit .dev (startedEntry p correlationId) 0 0).eventHash

/-- `execute_reassignment` can start the proposal's execution. -/
structure Starts (config : ServerConfig) (w : World) (p : ReassignmentProposal) (correlationId : String) : Prop where
  configured : config.mayExecute = true
  environment : p.environment = .dev
  executing : p.state = .executing
  unstarted : executionOf w.db .dev p.id = none
  hashFree : ¬ StartCollides w p correlationId

instance (w : World) (p : ReassignmentProposal) (correlationId : String) :
    Decidable (StartCollides w p correlationId) :=
  inferInstanceAs (Decidable (∃ e ∈ w.db.audit.rows, _ ∧ _))

instance (config : ServerConfig) (w : World) (p : ReassignmentProposal) (correlationId : String) :
    Decidable (Starts config w p correlationId) :=
  decidable_of_iff (config.mayExecute = true ∧ p.environment = .dev ∧ p.state = .executing ∧
      executionOf w.db .dev p.id = none ∧ ¬ StartCollides w p correlationId)
    ⟨fun ⟨h₁, h₂, h₃, h₄, h₅⟩ => ⟨h₁, h₂, h₃, h₄, h₅⟩, fun ⟨h₁, h₂, h₃, h₄, h₅⟩ => ⟨h₁, h₂, h₃, h₄, h₅⟩⟩

/-- `reconcile_uncertain_reassignment` can lease the proposal's execution. -/
structure Leases (config : ServerConfig) (w : World) (p : ReassignmentProposal) : Prop where
  configured : config.mayReconcile = true
  uncertain : ∃ e ∈ w.db.executions.rows, e.environment = config.environment ∧ e.proposalId = p.id ∧
    e.state = .uncertain

section
variable {config : ServerConfig} {signed : Option VerifiedInternalContext} {request : ProposalRequest} {now : DateTime}
  {verified : VerifiedInternalContext} {w : World} {p : ReassignmentProposal}

/-- A prepared execution is one that could be started. -/
theorem prepare_starts {draws : Draws} {seen db : Db} {correlationId : String} {r : Prepared}
    (hconf : config.mayExecute = true) (hp : p ∈ w.db.proposals.rows)
    (h : prepare .dev draws p.id correlationId seen w.db = .ok (r, db)) :
    (∃ e, r = .result e ∧ db = w.db) ∨ Starts config w p correlationId := by
  obtain ⟨e, _, rfl, rfl⟩ | ⟨_, q, hq, hqid, henv, hs, _, executions, audit, hin, ha, _⟩ := prepare_cases h
  · exact Or.inl ⟨_, rfl, rfl⟩
  · have : q = p := proposal_eq_of_id hq hp hqid
    subst this
    refine Or.inr ⟨hconf, henv, hs, Table.find?_eq_none_of fun e he => ?_, fun ⟨e, he, hee, heh⟩ => ?_⟩
    · have hc := (not_clashes_byIdAnd.mp (Table.insert_fresh hin e he)).2
      simp only [Bool.and_eq_false_iff, beq_eq_false_iff_ne]
      exact Classical.or_iff_not_imp_left.mpr fun h₁ h₂ =>
        hc (Prod.ext (Classical.not_not.mp h₁) h₂)
    · -- an appended event repeats no hash of its environment
      unfold AuditRepository.append at ha
      split at ha
      · rename_i audit' hins
        have hcl : (e.id == draws.auditId || (e.environment == .dev &&
            (e.sequenceNumber ==
                (AuditRepository.next w.db.audit .dev (startedEntry q correlationId) 0 0).sequenceNumber ||
              e.eventHash == (AuditRepository.next w.db.audit .dev (startedEntry q correlationId) 0 0).eventHash))) =
            false := Table.insert_fresh hins e he
        simp [hee, heh] at hcl
      · cases ha

theorem execute_isolated
    (hauth : authorizeProposal signed (config.internalAuthSecret.getD "") .dev request.projectKey now = .ok verified)
    (hp : p ∈ w.db.proposals.rows) (hid : p.id = request.proposalId)
    (hn : ¬ Starts config w p verified.correlationId) :
    Isolated w (executeReassignmentTool config signed request now) := by
  intro i w' r h
  unfold executeReassignmentTool at h
  by_cases hconf : config.mayExecute = true
  · rw [hconf, hauth, ← hid] at h
    obtain ⟨w₁, r₁, h₁, h₂⟩ := Machine.alone_bind.mp h
    obtain ⟨e, rfl, rfl⟩ | ⟨ch, a, db, rfl, hr, rfl⟩ := alone_transact h₁
    · rw [(Machine.alone_ret.mp h₂).1]
      exact .refl w₁
    · obtain ⟨e, rfl, rfl⟩ | hst := prepare_starts hconf hp hr
      · rw [(Machine.alone_ret.mp h₂).1]
        exact ⟨rfl, rfl, rfl, rfl, commit_calls ..⟩
      · exact absurd hst hn
  · rw [Bool.not_eq_true] at hconf
    rw [hconf] at h
    rw [(Machine.alone_ret.mp h).1]
    exact .refl w

theorem execute_acts
    (hauth : authorizeProposal signed (config.internalAuthSecret.getD "") .dev request.projectKey now = .ok verified)
    (hp : p ∈ w.db.proposals.rows) (hid : p.id = request.proposalId)
    (hs : Starts config w p verified.correlationId) :
    ¬ Isolated w (executeReassignmentTool config signed request now) := by
  intro hiso
  obtain ⟨rowId, hrow⟩ := w.db.executions.exists_fresh (·.id)
  obtain ⟨auditId, haud⟩ := w.db.audit.exists_fresh (·.id)
  have hfree : ∀ e ∈ w.db.audit.rows, e.environment = .dev → e.eventHash ≠
      (AuditRepository.next w.db.audit .dev (startedEntry p verified.correlationId) auditId 0).eventHash :=
    fun e he hee heh => hs.hashFree ⟨e, he, hee, heh⟩
  obtain ⟨executions, audit, hin, hprep⟩ := prepare_of_executing ⟨rowId, auditId, 0, 0, []⟩ w.db hp hs.environment
    hs.executing hs.unstarted hs.unstarted hrow (AuditRepository.next_fresh haud hfree)
  -- the prepare commits; the rest of the call ends one way or another
  let service : ReassignmentExecutionService :=
    { environment := .dev, mutator := { environment := "dev", allowedProjects := verified.projectScopes } }
  have htool : executeReassignmentTool config signed request now = service.execute p.id verified.correlationId := by
    unfold executeReassignmentTool
    rw [hs.configured, hauth, ← hid]
    rfl
  obtain ⟨w', r, hrest⟩ := alone_total 0 _ (w.commit (some 0) _ _ _)
  have hrun := hiso 0 w' r (by
    rw [htool]
    exact .call ⟨⟨rowId, auditId, 0, 0, []⟩, 0, none, .ok []⟩ (congrArg some (answer_commit rfl hprep)) hrest)
  obtain ⟨e, he, hc⟩ := (alone_grows hrest).1 _ ((Table.mem_insert hin).mpr (Or.inr rfl))
  rw [hrun.executions] at he
  exact hrow e he hc.id

theorem isolated_andThen {α β : Type} {q : Service α} {f : α → β} (h : Isolated w q) :
    Isolated w (q.andThen fun a => .ret (.ok (f a))) := by
  intro i w' r hr
  obtain ⟨w₁, r₁, h₁, h₂⟩ := Machine.alone_bind.mp hr
  cases r₁ with
  | ok a =>
    rw [(Machine.alone_ret.mp h₂).1]
    exact h i w₁ _ h₁
  | error e =>
    rw [(Machine.alone_ret.mp h₂).1]
    exact h i w₁ _ h₁

/-- A proposal without an uncertain execution is not reconciled. -/
theorem runProposal_isolated {service : ReconciliationService} {proposalId : Uuid} {workerId : String}
    (hn : ∀ e ∈ w.db.executions.rows, e.environment = service.store.environment → e.proposalId = proposalId →
      e.state ≠ .uncertain) : Isolated w (service.runProposal proposalId workerId) := by
  intro i w' r h
  obtain ⟨w₁, r₁, h₁, h₂⟩ := Machine.alone_bind.mp h
  obtain ⟨e, rfl, rfl⟩ | ⟨ch, a, db, rfl, hr, rfl⟩ := alone_transact h₁
  · rw [(Machine.alone_ret.mp h₂).1]
    exact .refl w₁
  · cases (DatabaseReconciliationStore.leaseProposal_none hn).symm.trans (Except.ok.inj hr)
    rw [(Machine.alone_ret.mp h₂).1]
    exact ⟨rfl, rfl, rfl, rfl, commit_calls ..⟩

theorem reconcile_isolated
    (hauth : authorizeProposal signed (config.internalAuthSecret.getD "") config.environment request.projectKey now =
      .ok verified) (hid : p.id = request.proposalId) (hn : ¬ Leases config w p) :
    Isolated w (reconcileUncertainReassignmentTool config signed request now) := by
  unfold reconcileUncertainReassignmentTool
  by_cases hconf : config.mayReconcile = true
  · rw [hconf, hauth, ← hid]
    exact isolated_andThen (runProposal_isolated fun e he henv hpid hs => hn ⟨hconf, e, he, henv, hpid, hs⟩)
  · intro i w' r h
    rw [Bool.not_eq_true] at hconf
    rw [hconf] at h
    rw [(Machine.alone_ret.mp h).1]
    exact .refl w

theorem reconcile_acts
    (hauth : authorizeProposal signed (config.internalAuthSecret.getD "") config.environment request.projectKey now =
      .ok verified) (hp : p ∈ w.db.proposals.rows) (hid : p.id = request.proposalId) (hl : Leases config w p) :
    ¬ Isolated w (reconcileUncertainReassignmentTool config signed request now) := by
  intro hiso
  obtain ⟨e, he, henv, hpid, hs⟩ := hl.uncertain
  let service : ReconciliationService :=
    { store := { environment := config.environment }
      reader := { environment := config.environment.value, allowedProjects := verified.projectScopes } }
  have htool : reconcileUncertainReassignmentTool config signed request now =
      (service.runProposal p.id ("manager:" ++ verified.actorId)).andThen fun result => .ret (.ok
        { environment := config.environment, correlationId := verified.correlationId, result := result }) := by
    unfold reconcileUncertainReassignmentTool
    rw [hl.configured, hauth, ← hid]
    rfl
  have hlease : service.store.leaseProposal (sampleDraws 0 0) p.id ("manager:" ++ verified.actorId) w.db = _ :=
    DatabaseReconciliationStore.leaseProposal_of_uncertain _ _ he hp henv hpid hs
  -- the lease commits, and the assignee is read
  obtain ⟨w', r, hrest⟩ := alone_total 0 _ ((w.commit (some 0) _ _ _).called 0 _ _)
  have hrun := hiso 0 w' r (by
    rw [htool]
    exact .call (commits 0 0) (congrArg some (answer_commit rfl (congrArg Except.ok hlease)))
      (.call (commits 0 0) rfl hrest))
  have hcalls := (alone_grows hrest).2
  rw [hrun.calls, called_calls, commit_calls] at hcalls
  omega

/-! ## Both tools -/

inductive Tool where
  | executeReassignment
  | reconcileUncertainReassignment

namespace Tool

/-- The environment a tool authorizes for. -/
def environment (config : ServerConfig) : Tool → Environment
  | executeReassignment => .dev
  | reconcileUncertainReassignment => config.environment

/-- Running the tool leaves every row unchanged and issues no call of Jira. -/
def Isolates (config : ServerConfig) (signed : Option VerifiedInternalContext) (request : ProposalRequest)
    (now : DateTime) (w : World) : Tool → Prop
  | executeReassignment => Isolated w (executeReassignmentTool config signed request now)
  | reconcileUncertainReassignment => Isolated w (reconcileUncertainReassignmentTool config signed request now)

/-- The tool can act on the proposal, whatever its project. -/
def Acts (config : ServerConfig) (w : World) (p : ReassignmentProposal) (correlationId : String) : Tool → Prop
  | executeReassignment => Starts config w p correlationId
  | reconcileUncertainReassignment => Leases config w p

end Tool

/-- An accepted request for a proposal outside the caller's scopes leaves every row
    unchanged and calls nothing if and only if the tool has nothing to act on. -/
theorem tools_isolated_iff (tool : Tool)
    (hauth : authorizeProposal signed (config.internalAuthSecret.getD "") (tool.environment config) request.projectKey
      now = .ok verified) (hp : p ∈ w.db.proposals.rows) (hid : p.id = request.proposalId) :
    (p.projectKey ∉ verified.projectScopes → tool.Isolates config signed request now w) ↔
      ¬ (p.projectKey ∉ verified.projectScopes ∧ tool.Acts config w p verified.correlationId) := by
  cases tool with
  | executeReassignment =>
    exact ⟨fun h ⟨hout, hs⟩ => execute_acts hauth hp hid hs (h hout),
      fun h hout => execute_isolated hauth hp hid fun hs => h ⟨hout, hs⟩⟩
  | reconcileUncertainReassignment =>
    exact ⟨fun h ⟨hout, hl⟩ => reconcile_acts hauth hp hid hl (h hout),
      fun h hout => reconcile_isolated hauth hid fun hl => h ⟨hout, hl⟩⟩

end

end

def sampleServer : ServerConfig :=
  { environment := .dev
    internalAuthSecret := some "0123456789abcdef0123456789abcdef"
    databaseUrl := some "postgresql://database/workforce"
    jiraMcpAuthHeader := some "Basic c2FtcGxl"
    jiraCloudId := some "cloud-1"
    jiraMutationEnabled := some "true" }

/-- The context of a manager of another project than the sample proposal's. -/
def otherContext : VerifiedInternalContext :=
  { actorId := "manager-2", role := .manager, environment := .dev, projectScopes := ["OPS"],
    correlationId := "correlation-6", expiresAt := 1000 }

theorem otherContext_accepted :
    authorizeProposal (some otherContext) (sampleServer.internalAuthSecret.getD "") .dev "OPS" 100 =
      .ok otherContext := by
  unfold authorizeProposal
  rw [if_neg (by decide)]
  exact verify_ok.mpr ⟨rfl, by decide, rfl, by decide, by decide⟩

/-- While the sample proposal is pending, the other manager's request does nothing. -/
theorem tools_isolated_pending : letI := Sha256.transparent
    ∃ w, World.init.run (sampleApproval.take 1) = some w ∧
      Tool.executeReassignment.Isolates sampleServer (some otherContext) ⟨"OPS", 1⟩ 100 w := by
  let _ := Sha256.transparent
  have run : (World.init.run (sampleApproval.take 1)).map (fun w => w.db.proposals.rows.any fun p =>
      p.id == 1 && !otherContext.projectScopes.contains p.projectKey &&
        !decide (Starts sampleServer w p otherContext.correlationId)) = some true := by decide
  obtain ⟨w, hw, hany⟩ := Option.map_eq_some_iff.mp run
  obtain ⟨p, hp, hb⟩ := List.any_eq_true.mp hany
  simp only [Bool.and_eq_true, beq_iff_eq, Bool.not_eq_true', decide_eq_false_iff_not, List.contains_eq_mem] at hb
  obtain ⟨⟨hid, hout⟩, hs⟩ := hb
  exact ⟨w, hw, (tools_isolated_iff .executeReassignment otherContext_accepted hp hid).mpr (fun h => hs h.2) hout⟩

/-- Once it is approved, the other manager's request starts its execution. -/
theorem foreign_execution_started : letI := Sha256.transparent
    ¬ ∀ (tool : Tool) (config : ServerConfig) (signed : Option VerifiedInternalContext) (request : ProposalRequest)
      (now : DateTime) (verified : VerifiedInternalContext),
      authorizeProposal signed (config.internalAuthSecret.getD "") (tool.environment config) request.projectKey now =
        .ok verified → ∀ w, Reach w → ∀ p ∈ w.db.proposals.rows, p.id = request.proposalId →
      p.projectKey ∉ verified.projectScopes → tool.Isolates config signed request now w := by
  let _ := Sha256.transparent
  intro h
  have run : (World.init.run sampleApproval).map (fun w => w.db.proposals.rows.any fun p =>
      p.id == 1 && !otherContext.projectScopes.contains p.projectKey &&
        decide (Starts sampleServer w p otherContext.correlationId)) = some true := by decide
  obtain ⟨w, hw, hany⟩ := Option.map_eq_some_iff.mp run
  obtain ⟨p, hp, hb⟩ := List.any_eq_true.mp hany
  simp only [Bool.and_eq_true, beq_iff_eq, Bool.not_eq_true', decide_eq_false_iff_not, decide_eq_true_eq,
    List.contains_eq_mem] at hb
  obtain ⟨⟨hid, hout⟩, hs⟩ := hb
  exact execute_acts otherContext_accepted hp hid hs
    (h .executeReassignment sampleServer (some otherContext) ⟨"OPS", 1⟩ 100 otherContext otherContext_accepted w
      (run_reach .init hw) p hp hid hout)

end WorkforceRisk.Mcp
