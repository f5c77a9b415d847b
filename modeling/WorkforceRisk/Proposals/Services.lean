/-
  WorkforceRisk.Proposals.Services — `ReassignmentExecutionService` and
  `ReconciliationService` (domain/workforce_risk/proposals/execution.py,
  reconciliation.py), as processes over the transactions of the stores and the calls of
  Jira tools.

  `system` is any number of their calls at once: an answer is the commit of the
  transaction or its exception, or whatever Jira responds, and managers use the
  repositories in between. `protocol` is what a call may do next given what it holds.

  Proved: both services follow the protocol (`start_sat`), so in every run a claim given
  to a store was issued by it, to the same call (`system_reach`).
-/

import WorkforceRisk.Proposals.Lockstep

namespace WorkforceRisk.Proposals

open Lib Persistence Jira

inductive Request where
  | transact (op : Op)
  | callTool (tool : ToolCall) (proposalId : Option Uuid)

@[reducible] def Request.Reply : Request → Type
  | transact op => Except Error op.Result
  | callTool .. => Except Error Mapping

abbrev Service (α : Type) := Proc Request Request.Reply (Except Error α)

def transact (op : Op) : Service op.Result := .perform (Request.transact op)

def jiraTransport (tool : ToolCall) (proposalId : Option Uuid) : Service Mapping :=
  .perform (Request.callTool tool proposalId)

/-! ## ReassignmentExecutionService -/

structure ReassignmentExecutionService where
  /-- The store's. -/
  environment : Environment
  mutator : JiraAssigneeMutationClient

def stateOf : MutationOutcome → ProposalState
  | .executedVerified => .executedVerified
  | .executionFailed => .executionFailed
  | .uncertain => .uncertain
  | .stale => .stale

/-- `ReassignmentMutation(...)` of a claim. -/
def mutationOf (claim : ExecutionClaim) : Except Error ReassignmentMutation :=
  if h : 8 ≤ claim.idempotencyKey.length then
    .ok { environment := claim.environment.value, projectKey := claim.projectKey, issueKey := claim.issueKey,
          expectedAssigneeId := claim.expectedAssigneeId, proposedAssigneeId := claim.proposedAssigneeId,
          proposalId := claim.proposalId, idempotencyKey := claim.idempotencyKey, correlationId := claim.correlationId,
          key_ok := h }
  else .error (.validationError "idempotency_key" "String should have at least 8 characters")

def resultOf (claim : ExecutionClaim) (receipt : MutationReceipt) : ExecutionResult :=
  { executionId := claim.executionId
    proposalId := claim.proposalId
    state := stateOf receipt.outcome
    correlationId := claim.correlationId
    observedAssigneeId := receipt.observedAssigneeId
    safeErrorCode := receipt.safeErrorCode }

namespace ReassignmentExecutionService

variable (service : ReassignmentExecutionService)

/-- What `execute` does with a claim whose write is marked. -/
def mutate (claim : ExecutionClaim) : Service ExecutionResult :=
  match mutationOf claim with
  | .error e => .ret (.error e)
  | .ok command =>
    (service.mutator.execute jiraTransport command).andThen fun receipt =>
      transact (.finalize service.environment claim (resultOf claim receipt))

def execute (proposalId : Uuid) (correlationId : String) : Service ExecutionResult :=
  (transact (.prepare service.environment proposalId correlationId)).andThen fun
    | .result r => .ret (.ok r)
    | .claim claim =>
      (transact (.markWriteAttempted service.environment claim)).andThen fun () => service.mutate claim

end ReassignmentExecutionService

/-! ## ReconciliationService -/

structure ReconciliationResult where
  executionId : Uuid
  state : ProposalState
  observedAssigneeId : Option String
  safeErrorCode : Option String

structure ReconciliationService where
  store : DatabaseReconciliationStore
  reader : JiraAssigneeMutationClient

/-- What a read of the assignee shows of a claim: the state and the error code. -/
def conclude (claim : ReconciliationClaim) (read : Except Error (Option String)) : ProposalState × Option String :=
  let observed := read.toOption.join
  let errorCode := match read with
    | .ok _ => none
    | .error _ => some "jira_reconciliation_read_failed"
  if observed = some claim.proposedAssigneeId then (.executedVerified, errorCode)
  else if observed = some claim.expectedAssigneeId ∧ claim.writeAttempted = false then (.executionFailed, errorCode)
  else (.uncertain, errorCode.or (some "jira_reconciliation_ambiguous"))

namespace ReconciliationService

variable (service : ReconciliationService)

def reconcile (claim : ReconciliationClaim) : Service ReconciliationResult :=
  (JiraAssigneeMutationClient.readAssignee jiraTransport claim.issueKey claim.correlationId).bind fun read =>
    let observed := read.toOption.join
    let (state, errorCode) := conclude claim read
    (transact (.resolve service.store claim state ⟨observed, errorCode, claim.writeAttempted⟩)).andThen fun () =>
      .ret (.ok ⟨claim.executionId, state, observed, errorCode⟩)

def reconcileAll : List ReconciliationClaim → Service (List ReconciliationResult)
  | [] => .ret (.ok [])
  | claim :: claims =>
    (service.reconcile claim).andThen fun result =>
      (reconcileAll claims).andThen fun results => .ret (.ok (result :: results))

def runOnce (workerId : String) (limit : Nat) : Service (List ReconciliationResult) :=
  (transact (.leaseAbandoned service.store workerId limit)).andThen service.reconcileAll

def runProposal (proposalId : Uuid) (workerId : String) : Service (Option ReconciliationResult) :=
  (transact (.leaseProposal service.store proposalId workerId)).andThen fun
    | none => .ret (.ok none)
    | some claim => (service.reconcile claim).andThen fun result => .ret (.ok (some result))

end ReconciliationService

/-! ## The system -/

/-- What an answer depends on: the ids and the clock of a transaction, the commit its
    lookups saw, an exception that aborts it; Jira's response. -/
structure Choice where
  draws : Draws
  seen : Nat
  aborted : Option Error
  response : Except Error Mapping

inductive Call where
  | execute (service : ReassignmentExecutionService) (proposalId : Uuid) (correlationId : String)
  | runOnce (service : ReconciliationService) (workerId : String) (limit : Nat)
  | runProposal (service : ReconciliationService) (proposalId : Uuid) (workerId : String)

/-- Call it and forget the result. -/
def Service.discard {α : Type} (p : Service α) : Proc Request Request.Reply Unit := p.bind fun _ => .ret ()

def Call.process : Call → Proc Request Request.Reply Unit
  | execute service proposalId correlationId => (service.execute proposalId correlationId).discard
  | runOnce service workerId limit => (service.runOnce workerId limit).discard
  | runProposal service proposalId workerId => (service.runProposal proposalId workerId).discard

/-- The operations of the simulation and proposal repositories. -/
def Op.isRepository : Op → Bool
  | .persistSimulation .. | .create .. | .createFromStoredSimulation .. | .decide .. | .getAuthorized .. => true
  | _ => false

theorem repository_issued {op : Op} (h : op.isRepository = true) (w : World) : op.Issued w := by
  revert h
  cases op <;> first | exact fun _ => trivial | exact fun h => (nomatch h)

section
variable [Sha256]

def answer (i : Nat) (ch : Choice) (w : World) : (request : Request) → request.Reply × World
  | .transact op =>
    match ch.aborted with
    | some e => (.error e, w)
    | none =>
      match op.run ch.draws (w.asOf ch.seen) w.db with
      | .ok (r, db) => (.ok r, w.commit (some i) op r db)
      | .error e => (.error e, w)
  | .callTool tool proposalId => (ch.response, w.called i tool proposalId)

def system : Machine Request Request.Reply World where
  Choice := Choice
  handle i request ch w := some (answer i ch w request)
  Start := Call
  start := Call.process
  Other := Step
  other s w := if s.op.isRepository then w.step s else none

theorem answer_commit {i : Nat} {ch : Choice} {w : World} {op : Op} {a : op.Result} {db : Db} (hc : ch.aborted = none)
    (hr : op.run ch.draws (w.asOf ch.seen) w.db = .ok (a, db)) :
    answer i ch w (.transact op) = (.ok a, w.commit (some i) op a db) := by
  simp only [answer, hc, hr]

/-- A transaction that is answered has not happened, or is committed. -/
theorem answer_transact {i : Nat} {ch : Choice} {w w' : World} {op : Op} {r : Except Error op.Result}
    (h : answer i ch w (.transact op) = (r, w')) :
    (∃ e, r = .error e ∧ w' = w) ∨
    ∃ a db, r = .ok a ∧ op.run ch.draws (w.asOf ch.seen) w.db = .ok (a, db) ∧ w' = w.commit (some i) op a db := by
  simp only [answer] at h
  split at h
  · rename_i e _
    cases h
    exact Or.inl ⟨e, rfl, rfl⟩
  · split at h
    · rename_i a db hr
      cases h
      exact Or.inr ⟨a, db, rfl, hr, rfl⟩
    · rename_i e _
      cases h
      exact Or.inl ⟨e, rfl, rfl⟩

end

/-! ## The protocol -/

/-- What a call holds: nothing yet; a claim of `prepare`, then marked, then edited for;
    the claims of a lease; or it has nothing left to do. -/
inductive Pc where
  | fresh
  | prepared (c : ExecutionClaim)
  | attempted (c : ExecutionClaim)
  | edited (c : ExecutionClaim)
  | leased (cs : List ReconciliationClaim)
  | done

def protocol : Protocol Request Request.Reply Pc where
  allows
    | .fresh, .transact (.prepare ..) => True
    | .fresh, .transact (.leaseAbandoned ..) => True
    | .fresh, .transact (.leaseProposal ..) => True
    | .prepared c, .transact (.markWriteAttempted _ claim) => claim = c
    | .attempted _, .callTool (.getJiraIssue ..) proposalId => proposalId = none
    | .attempted c, .callTool (.editJiraIssue ..) proposalId => proposalId = some c.proposalId
    | .attempted c, .transact (.finalize _ claim result) => claim = c ∧ result.state ∈ outcomeStates
    | .edited _, .callTool (.getJiraIssue ..) proposalId => proposalId = none
    | .edited c, .transact (.finalize _ claim result) => claim = c ∧ result.state ∈ outcomeStates
    | .leased _, .callTool (.getJiraIssue ..) proposalId => proposalId = none
    | .leased cs, .transact (.resolve _ claim state _) => claim ∈ cs ∧ state ∈ reconciledStates
    | _, _ => False
  next
    | .fresh, .transact (.prepare ..), .ok (.claim c) => .prepared c
    | .fresh, .transact (.leaseAbandoned ..), .ok cs => .leased cs
    | .fresh, .transact (.leaseProposal ..), .ok claim => .leased claim.toList
    | .prepared c, .transact (.markWriteAttempted ..), .ok () => .attempted c
    | .attempted c, .callTool (.getJiraIssue ..) _, _ => .attempted c
    | .attempted c, .callTool (.editJiraIssue ..) _, _ => .edited c
    | .edited c, .callTool (.getJiraIssue ..) _, _ => .edited c
    | .leased cs, _, _ => .leased cs
    | _, _, _ => .done

theorem stateOf_outcome (o : MutationOutcome) : stateOf o ∈ outcomeStates := by cases o <;> decide

/-- A state in which an issue may be read, and stays. -/
def Reads (g : Pc) : Prop :=
  ∀ issueKey correlationId, protocol.allows g (.callTool (.getJiraIssue issueKey correlationId) none) ∧
    ∀ r, protocol.next g (.callTool (.getJiraIssue issueKey correlationId) none) r = g

theorem reads_attempted (c : ExecutionClaim) : Reads (.attempted c) := fun _ _ => ⟨rfl, fun _ => rfl⟩

theorem reads_edited (c : ExecutionClaim) : Reads (.edited c) := fun _ _ => ⟨rfl, fun _ => rfl⟩

theorem reads_leased (cs : List ReconciliationClaim) : Reads (.leased cs) := fun _ _ => ⟨rfl, fun _ => rfl⟩

theorem read_sat {g : Pc} (hg : Reads g) {issueKey correlationId : String}
    {Q : Except Error (Option String) → Pc → Prop} (hq : ∀ read, Q read g) :
    (JiraAssigneeMutationClient.readAssignee jiraTransport issueKey correlationId).Sat protocol g Q := by
  refine Proc.sat_andThen (Proc.sat_perform (hg issueKey correlationId).1 fun r => ?_)
  rw [(hg issueKey correlationId).2]
  cases r with
  | ok response => exact hq _
  | error e => exact hq _

theorem verify_sat (c : ExecutionClaim) (command : ReassignmentMutation) :
    (JiraAssigneeMutationClient.verify jiraTransport command).Sat protocol (.edited c) fun _ g => g = .edited c := by
  refine Proc.sat_bind (read_sat (reads_edited c) fun read => ?_)
  cases read with
  | error e => rfl
  | ok observed =>
    simp only
    split <;> rfl

theorem edit_sat {c : ExecutionClaim} {command : ReassignmentMutation} (hid : command.proposalId = c.proposalId) :
    (JiraAssigneeMutationClient.edit jiraTransport command).Sat protocol (.attempted c) fun _ g => g = .edited c := by
  refine Proc.sat_bind (Proc.sat_perform (congrArg some hid) fun r => ?_)
  cases r with
  | error e => rfl
  | ok response =>
    simp only
    split
    · rfl
    · exact verify_sat c command

/-- The client edits at most once, for the claim's proposal. -/
theorem client_sat (client : JiraAssigneeMutationClient) {c : ExecutionClaim} {command : ReassignmentMutation}
    (hid : command.proposalId = c.proposalId) :
    (client.execute jiraTransport command).Sat protocol (.attempted c) fun _ g => g = .attempted c ∨ g = .edited c := by
  unfold JiraAssigneeMutationClient.execute
  split
  · exact Or.inl rfl
  refine Proc.sat_bind (read_sat (reads_attempted c) fun read => ?_)
  cases read with
  | error e => exact Or.inl rfl
  | ok current =>
    simp only
    split
    · exact Or.inl rfl
    · exact (edit_sat hid).mono fun _ _ h => Or.inr h

/-- Once its write is marked, an execution calls Jira and finalizes. -/
theorem mutate_sat (service : ReassignmentExecutionService) (c : ExecutionClaim) :
    (service.mutate c).Sat protocol (.attempted c) fun _ _ => True := by
  unfold ReassignmentExecutionService.mutate
  split
  · trivial
  rename_i command hm
  have hid : command.proposalId = c.proposalId := by
    unfold mutationOf at hm
    split at hm
    · cases hm
      rfl
    · cases hm
  refine Proc.sat_andThen ((client_sat service.mutator hid).mono fun r g hg => ?_)
  cases r with
  | error e => trivial
  | ok receipt =>
    refine Proc.sat_perform ?_ fun _ => trivial
    rcases hg with rfl | rfl
    · exact ⟨rfl, stateOf_outcome _⟩
    · exact ⟨rfl, stateOf_outcome _⟩

theorem execute_sat (service : ReassignmentExecutionService) (proposalId : Uuid) (correlationId : String) :
    (service.execute proposalId correlationId).Sat protocol .fresh fun _ _ => True := by
  refine Proc.sat_andThen (Proc.sat_perform trivial fun r => ?_)
  cases r with
  | error e => trivial
  | ok prepared =>
    cases prepared with
    | result r => trivial
    | claim c =>
      refine Proc.sat_andThen (Proc.sat_perform rfl fun r => ?_)
      cases r with
      | error e => trivial
      | ok u => exact mutate_sat service c

theorem conclude_reconciled (claim : ReconciliationClaim) (read : Except Error (Option String)) :
    (conclude claim read).1 ∈ reconciledStates := by
  unfold conclude
  simp only
  split
  · simp [reconciledStates]
  · split <;> simp [reconciledStates]

theorem reconcile_sat (service : ReconciliationService) {claim : ReconciliationClaim} {cs : List ReconciliationClaim}
    (hc : claim ∈ cs) : (service.reconcile claim).Sat protocol (.leased cs) fun _ g => g = .leased cs := by
  refine Proc.sat_bind (read_sat (reads_leased cs) fun read => ?_)
  refine Proc.sat_andThen (Proc.sat_perform ⟨hc, conclude_reconciled claim read⟩ fun r => ?_)
  cases r with
  | error e => rfl
  | ok u => rfl

/-- The claims are reconciled one by one, none before its turn. -/
theorem reconcileAll_sat (service : ReconciliationService) (cs : List ReconciliationClaim) :
    ∀ claims : List ReconciliationClaim, (∀ c ∈ claims, c ∈ cs) →
      (service.reconcileAll claims).Sat protocol (.leased cs) fun _ _ => True := by
  intro claims
  induction claims with
  | nil => intro _; trivial
  | cons claim claims ih =>
    intro hcs
    refine Proc.sat_andThen ((reconcile_sat service (hcs claim List.mem_cons_self)).mono fun r g hg => ?_)
    cases r with
    | error e => trivial
    | ok result =>
      subst hg
      refine Proc.sat_andThen ((ih fun c hc => hcs c (List.mem_cons_of_mem _ hc)).mono fun rs _ _ => ?_)
      cases rs with
      | error e => trivial
      | ok results => trivial

theorem runOnce_sat (service : ReconciliationService) (workerId : String) (limit : Nat) :
    (service.runOnce workerId limit).Sat protocol .fresh fun _ _ => True := by
  refine Proc.sat_andThen (Proc.sat_perform trivial fun r => ?_)
  cases r with
  | error e => trivial
  | ok claims => exact reconcileAll_sat service claims claims fun _ h => h

theorem runProposal_sat (service : ReconciliationService) (proposalId : Uuid) (workerId : String) :
    (service.runProposal proposalId workerId).Sat protocol .fresh fun _ _ => True := by
  refine Proc.sat_andThen (Proc.sat_perform trivial fun r => ?_)
  cases r with
  | error e => trivial
  | ok claim =>
    cases claim with
    | none => trivial
    | some claim =>
      refine Proc.sat_andThen ((reconcile_sat service (List.mem_singleton_self claim)).mono fun r _ _ => ?_)
      cases r with
      | error e => trivial
      | ok result => trivial

theorem start_sat (call : Call) : call.process.Sat protocol .fresh fun _ _ => True := by
  cases call with
  | execute service proposalId correlationId =>
    exact Proc.sat_bind ((execute_sat service proposalId correlationId).mono fun _ _ _ => trivial)
  | runOnce service workerId limit =>
    exact Proc.sat_bind ((runOnce_sat service workerId limit).mono fun _ _ _ => trivial)
  | runProposal service proposalId workerId =>
    exact Proc.sat_bind ((runProposal_sat service proposalId workerId).mono fun _ _ _ => trivial)

/-! ## What a call knows -/

/-- Call `i` was issued the claim. -/
def Claimed (w : World) (i : Nat) (c : ExecutionClaim) : Prop :=
  ∃ event ∈ w.events, event.call = some i ∧ event.claim? = some c

def Holds (w : World) (i : Nat) : Pc → Prop
  | .fresh => True
  | .prepared c => Claimed w i c
  | .attempted c => Claimed w i c
  | .edited c => Claimed w i c
  | .leased cs => ∀ c ∈ cs, ∃ event ∈ w.events, c ∈ event.leases
  | .done => True

theorem Claimed.mono {w w' : World} (h : ∀ event ∈ w.events, event ∈ w'.events) {i : Nat} {c : ExecutionClaim} :
    Claimed w i c → Claimed w' i c := fun ⟨event, he, hc⟩ => ⟨event, h event he, hc⟩

theorem Holds.mono {w w' : World} (h : ∀ event ∈ w.events, event ∈ w'.events) {i : Nat} {g : Pc} (hh : Holds w i g) :
    Holds w' i g := by
  cases g with
  | fresh => trivial
  | prepared c => exact Claimed.mono h hh
  | attempted c => exact Claimed.mono h hh
  | edited c => exact Claimed.mono h hh
  | leased cs => exact fun c hc => (hh c hc).imp fun event he => ⟨h event he.1, he.2⟩
  | done => trivial

theorem allowed_issued {w : World} {i : Nat} {g : Pc} {op : Op} (hh : Holds w i g)
    (ha : protocol.allows g (.transact op)) : op.Issued w := by
  have issued : ∀ {c}, Claimed w i c → ∃ event ∈ w.events, event.claim? = some c :=
    fun ⟨event, he, _, hc⟩ => ⟨event, he, hc⟩
  cases op with
  | markWriteAttempted environment claim =>
    cases g with
    | prepared c =>
      have : claim = c := ha
      exact this ▸ issued hh
    | _ => exact False.elim ha
  | finalize environment claim result =>
    cases g with
    | attempted c =>
      obtain ⟨rfl, hr⟩ : claim = c ∧ result.state ∈ outcomeStates := ha
      exact ⟨issued hh, hr⟩
    | edited c =>
      obtain ⟨rfl, hr⟩ : claim = c ∧ result.state ∈ outcomeStates := ha
      exact ⟨issued hh, hr⟩
    | _ => exact False.elim ha
  | resolve store claim state evidence =>
    cases g with
    | leased cs => exact ⟨hh claim ha.1, ha.2⟩
    | _ => exact False.elim ha
  | _ => trivial

theorem transact_holds {w : World} {i : Nat} {g : Pc} {op : Op} (hh : Holds w i g)
    (ha : protocol.allows g (.transact op)) (a : op.Result) (db : Db) :
    Holds (w.commit (some i) op a db) i (protocol.next g (.transact op) (.ok a)) := by
  have grow := World.commit_grows w (some i) op a db
  cases g with
  | fresh =>
    cases op with
    | prepare environment proposalId correlationId =>
      cases a with
      | claim c => exact ⟨_, List.mem_cons_self, rfl, rfl⟩
      | result r => trivial
    | leaseAbandoned store workerId limit => exact fun c hc => ⟨_, List.mem_cons_self, hc⟩
    | leaseProposal store proposalId workerId => exact fun c hc => ⟨_, List.mem_cons_self, hc⟩
    | _ => exact False.elim ha
  | prepared c =>
    cases op with
    | markWriteAttempted environment claim => exact Claimed.mono grow hh
    | _ => exact False.elim ha
  | attempted c =>
    cases op with
    | finalize environment claim result => trivial
    | _ => exact False.elim ha
  | edited c =>
    cases op with
    | finalize environment claim result => trivial
    | _ => exact False.elim ha
  | leased cs =>
    cases op with
    | resolve store claim state evidence => exact Holds.mono (g := .leased cs) grow hh
    | _ => exact False.elim ha
  | done => exact False.elim ha

theorem failed_holds {w : World} {i : Nat} {g : Pc} {op : Op} (hh : Holds w i g)
    (ha : protocol.allows g (.transact op)) (e : Error) : Holds w i (protocol.next g (.transact op) (.error e)) := by
  cases g with
  | leased cs => exact hh
  | done => exact False.elim ha
  | _ => cases op <;> first | exact False.elim ha | trivial

theorem called_holds {w : World} {i : Nat} {g : Pc} {tool : ToolCall} {proposalId : Option Uuid} (hh : Holds w i g)
    (ha : protocol.allows g (.callTool tool proposalId)) (r : Except Error Mapping) :
    Holds w i (protocol.next g (.callTool tool proposalId) r) := by
  cases g with
  | fresh => exact False.elim ha
  | prepared c => exact False.elim ha
  | attempted c => cases tool <;> exact hh
  | edited c =>
    cases tool with
    | getJiraIssue issueKey correlationId => exact hh
    | editJiraIssue issueKey accountId correlationId => exact False.elim ha
  | leased cs => exact hh
  | done => exact False.elim ha

section
variable [Sha256]

/-- An answer is a step of a run of the repositories, and each call goes on knowing what it holds. -/
theorem holds_step {w w' : World} {i : Nat} {request : Request} {g : Pc} {ch : Choice} {r : request.Reply}
    (hw : Reach w)
    (hh : Holds w i g) (ha : protocol.allows g request) (h : answer i ch w request = (r, w')) :
    Reach w' ∧ Holds w' i (protocol.next g request r) ∧ ∀ event ∈ w.events, event ∈ w'.events := by
  cases request with
  | transact op =>
    obtain ⟨e, rfl, rfl⟩ | ⟨a, db, rfl, hr, rfl⟩ := answer_transact h
    · exact ⟨hw, failed_holds hh ha e, fun _ he => he⟩
    · exact ⟨.commit (some i) hw (allowed_issued hh ha) hr, transact_holds hh ha a db,
        World.commit_grows _ _ _ _ _⟩
  | callTool tool proposalId =>
    cases h
    exact ⟨.called i tool proposalId hw, (called_holds hh ha _).mono fun _ he => he, fun _ he => he⟩

theorem other_step {w w' : World} {s : Step} (hw : Reach w) (h : system.other s w = some w') :
    Reach w' ∧ s.op.isRepository = true ∧ ∃ r db, s.op.run s.draws (w.asOf s.seen) w.db = .ok (r, db) ∧
      w' = w.commit none s.op r db := by
  simp only [system] at h
  split at h
  · rename_i hrep
    refine ⟨step_reach hw h, hrep, ?_⟩
    unfold World.step at h
    split at h
    · split at h
      · rename_i r db hr
        cases h
        exact ⟨r, db, hr, rfl⟩
      · cases h
    · cases h
  · cases h

/-- In every run of the system the worlds are those of runs of the repositories, and each
    call knows what it holds. -/
theorem system_reach {ok : World → Request → Prop} {c : Config Request Request.Reply World}
    (h : system.Reach ok .init c) : Reach c.shared ∧ Machine.Knows protocol Holds c := by
  refine Machine.Reach.invariant (I := Reach) (fun _ => .fresh) start_sat .init (fun _ _ _ _ => trivial)
    (fun s i e g ch r s' hI hq ha _ hh => ?_) (fun s x s' hI hx => ?_) h
  · obtain ⟨hr, hq', hgrow⟩ := holds_step hI hq ha (Option.some.inj hh)
    exact ⟨hr, hq', fun _ _ _ hj => hj.mono hgrow⟩
  · obtain ⟨hr, _, _, _, _, rfl⟩ := other_step hI hx
    exact ⟨hr, fun _ _ hj => hj.mono (World.commit_grows _ _ _ _ _)⟩

end

/-! ## A sample of the system -/

def sampleConfig : Config Request Request.Reply World := ⟨.init, fun _ => .idle⟩

def sampleService : ReassignmentExecutionService := ⟨.dev, ⟨"dev", ["DEV"]⟩⟩

def sampleReconciliation : ReconciliationService := ⟨{ environment := .dev }, ⟨"dev", ["DEV"]⟩⟩

/-- A commit at `now` whose ids are all `n`. -/
def commits (n : Nat) (now : DateTime) : Choice := ⟨sampleDraws n now, 0, none, .ok []⟩

def responds (response : Mapping) : Choice := ⟨sampleDraws 0 0, 0, none, .ok response⟩

/-- Jira's response to a read. -/
def assigned (accountId : String) : Choice :=
  responds [("fields", .obj [("assignee", .obj [("accountId", .str accountId)])])]

end WorkforceRisk.Proposals
