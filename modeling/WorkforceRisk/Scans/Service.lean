/-
  WorkforceRisk.Scans.Service — requesting and executing risk scans
  (domain/workforce_risk/scans/service.py: `ScanService`;
  packages/persistence/src/workforce_persistence/scan_repository.py: `DatabaseScanStore`;
  services/agent-api/src/agent_api/routes/scans.py: `request_manual_scan`, `scan_status`).

  A request gives a ticket for the scan run of its window: a new row, or the one that is
  there, as a duplicate. An execution of a ticket that is no duplicate claims the row
  (`queued` to `running`), runs the pipeline and stores how it ended.

  The two effects of `enqueue` are one transaction: another request's insert may come in
  between, and the loser's is refused. A pipeline answers a result or the name of an
  exception; what no `except` catches (a cancellation, a lost database) is a crash. A
  ticket's id is the row's uuid, and `scanSystem` is any number of requests, executions
  and route calls on one table.

  Proved: what a call may do next (`start_sat`), and what each effect leaves of a run's
  state (`stateOf_insert`, `stateOf_moveRun`).
-/

import WorkforceRisk.Contracts.Auth
import WorkforceRisk.Lib.Process
import WorkforceRisk.Lib.Table

namespace WorkforceRisk.Scans

open Lib Persistence Contracts

inductive ScanState where
  | queued
  | running
  | completed
  | completedDegraded
  | failed
  | skippedDuplicate
  deriving DecidableEq, Repr

namespace ScanState

/-- How a pipeline ends. -/
def isFinal : ScanState → Bool
  | .completed | .completedDegraded | .failed => true
  | _ => false

/-- The targets a `completed_at` goes with. -/
def completes (target : ScanState) : Bool := target.isFinal || target == .skippedDuplicate

end ScanState

structure ScanTicket where
  scanRunId : Uuid
  state : ScanState
  duplicate : Bool
  deriving DecidableEq

structure PipelineResult where
  degraded : Bool
  riskResultIds : List String
  alertIds : List String
  reportId : Option String

structure ScanRun where
  id : Uuid
  environment : String
  createdAt : DateTime
  scope : String
  state : ScanState
  idempotencyKey : String
  correlationId : String
  startedAt : Option DateTime
  completedAt : Option DateTime
  failureReason : Option String
  deriving DecidableEq

/-- `uq_scan_runs_environment_idempotency`. -/
instance : Keyed ScanRun := .byIdAnd (·.id) fun r => (r.environment, r.idempotencyKey)

/-! ## The calls -/

inductive Effect where
  | find (environment idempotencyKey : String)
  | insert (environment scope idempotencyKey correlationId : String)
  | transition (scanRunId : Uuid) (expected target : ScanState) (failureReason : Option String)
  | get (scanRunId : Uuid) (environment : String)
  /-- The pipeline is given the scope and the correlation id; the ticket is the one it runs for. -/
  | run (ticket : ScanTicket) (scope correlationId : String)
  /-- A request for the window returns the ticket. -/
  | issue (environment scope window : String) (ticket : ScanTicket)
  /-- An execution of the ticket returns the state. -/
  | finish (ticket : ScanTicket) (state : ScanState)

@[reducible] def Effect.Reply : Effect → Type
  | find .. => Option ScanRun
  | insert .. => Except Error Uuid
  | transition .. => Bool
  | get .. => Option ScanRun
  | run .. => Except String PipelineResult
  | issue .. => Unit
  | finish .. => Unit

abbrev Scan (α : Type) := Proc Effect Effect.Reply α

namespace DatabaseScanStore

def enqueue (environment scope idempotencyKey correlationId : String) : Scan (Except Error ScanTicket) :=
  (Proc.perform (Effect.find environment idempotencyKey)).bind fun
    | some existing => .ret (.ok ⟨existing.id, existing.state, true⟩)
    | none => (Proc.perform (Effect.insert environment scope idempotencyKey correlationId)).andThen fun id =>
      .ret (.ok ⟨id, .queued, false⟩)

def transition (scanRunId : Uuid) (expected target : ScanState) (failureReason : Option String) : Scan Bool :=
  .perform (Effect.transition scanRunId expected target failureReason)

def get (scanRunId : Uuid) (environment : String) : Scan (Option ScanTicket) :=
  (Proc.perform (Effect.get scanRunId environment)).bind fun record =>
    .ret (record.map fun r => ⟨r.id, r.state, false⟩)

end DatabaseScanStore

structure ScanService where
  environment : String

/-- The state to store for how the pipeline ended, and the reason of a failure. -/
def targetOf : Except String PipelineResult → ScanState × Option String
  | .error e => (.failed, some e)
  | .ok result => (if result.degraded then .completedDegraded else .completed, none)

namespace ScanService

open DatabaseScanStore

variable (service : ScanService)

def execute (ticket : ScanTicket) (scope correlationId : String) : Scan ScanState :=
  if ticket.duplicate then .ret ticket.state
  else (transition ticket.scanRunId .queued .running none).bind fun
    | false => .ret .skippedDuplicate
    | true => (Proc.perform (Effect.run ticket scope correlationId)).bind fun outcome =>
      (transition ticket.scanRunId .running (targetOf outcome).1 (targetOf outcome).2).bind fun _ =>
        .ret (targetOf outcome).1

def status (scanRunId : Uuid) : Scan (Option ScanTicket) := get scanRunId service.environment

variable [Sha256]

def scanWindowKey (environment scope window : String) : String :=
  Sha256.text (environment ++ ":" ++ scope ++ ":" ++ window)

def request (scope window correlationId : String) : Scan (Except Error ScanTicket) :=
  enqueue service.environment scope (scanWindowKey service.environment scope window) correlationId

end ScanService

/-! ## The routes -/

structure ManualScanRequest where
  scope : String
  window : String
  scope_length : 1 ≤ scope.length ∧ scope.length ≤ 256
  window_length : 1 ≤ window.length ∧ window.length ≤ 128

/-- How a route ends without an answer. -/
inductive RouteError where
  | http (statusCode : Nat) (detail : String)
  | raised (e : Error)

def getScanManager (principal : AuthenticatedPrincipal) : Except RouteError AuthenticatedPrincipal :=
  if principal.role = .manager ∨ principal.role = .administrator then .ok principal
  else .error (.http 403 "not authorized")

/-- A `POST /scans`, with the uuid drawn for it. -/
structure ManualScan where
  payload : ManualScanRequest
  projectKey : String
  principal : AuthenticatedPrincipal
  xCorrelationId : Option String
  drawn : Uuid

/-- `x_correlation_id or f"corr-{uuid4()}"`. -/
def ManualScan.correlationId (post : ManualScan) : String :=
  match post.xCorrelationId with
  | some id => if id = "" then "corr-" ++ uuidText post.drawn else id
  | none => "corr-" ++ uuidText post.drawn

structure ManualScanAnswer where
  scanRunId : Uuid
  state : ScanState
  duplicate : Bool
  correlationId : String

def ManualScanAnswer.ticket (answer : ManualScanAnswer) : ScanTicket :=
  ⟨answer.scanRunId, answer.state, answer.duplicate⟩

section
variable [Sha256] (service : ScanService)

/-- The answer, and the ticket its background task executes. -/
def requestManualScan (post : ManualScan) : Scan (Except RouteError (ManualScanAnswer × Option ScanTicket)) :=
  match getScanManager post.principal with
  | .error e => .ret (.error e)
  | .ok principal =>
    if post.payload.scope ≠ post.projectKey ∨ post.projectKey ∉ principal.projectScopes then
      .ret (.error (.http 403 "scan scope is not authorized"))
    else (service.request post.payload.scope post.payload.window post.correlationId).bind fun
      | .error e => .ret (.error (.raised e))
      | .ok ticket =>
        .ret (.ok (⟨ticket.scanRunId, ticket.state, ticket.duplicate, post.correlationId⟩,
          if ticket.duplicate then none else some ticket))

def scanStatus (principal : AuthenticatedPrincipal) (scanRunId : Uuid) :
    Scan (Except RouteError (Uuid × ScanState)) :=
  match getScanManager principal with
  | .error e => .ret (.error e)
  | .ok _ => (service.status scanRunId).bind fun
    | none => .ret (.error (.http 404 "scan not found"))
    | some ticket => .ret (.ok (ticket.scanRunId, ticket.state))

inductive Start where
  | request (service : ScanService) (scope window correlationId : String)
  | execute (ticket : ScanTicket) (scope correlationId : String)
  | manual (service : ScanService) (post : ManualScan)
  | status (service : ScanService) (principal : AuthenticatedPrincipal) (scanRunId : Uuid)

def executed (ticket : ScanTicket) (scope correlationId : String) : Scan Unit :=
  (ScanService.execute ticket scope correlationId).bind fun state => .perform (Effect.finish ticket state)

def Start.run : Start → Scan Unit
  | .request service scope window correlationId => (service.request scope window correlationId).bind fun
    | .error _ => .ret ()
    | .ok ticket => .perform (Effect.issue service.environment scope window ticket)
  | .execute ticket scope correlationId => executed ticket scope correlationId
  | .manual service post => (requestManualScan service post).bind fun
    | .error _ => .ret ()
    | .ok (answer, task) =>
      (Proc.perform (Effect.issue service.environment post.payload.scope post.payload.window answer.ticket)).bind
        fun () => match task with
          | none => .ret ()
          | some ticket => executed ticket post.payload.scope post.correlationId
  | .status service principal scanRunId => (scanStatus service principal scanRunId).bind fun _ => .ret ()

end

/-! ## The scan runs -/

def hasKey (environment idempotencyKey : String) (r : ScanRun) : Bool :=
  r.environment == environment && r.idempotencyKey == idempotencyKey

def isAt (scanRunId : Uuid) (state : ScanState) (r : ScanRun) : Bool := r.id == scanRunId && r.state == state

def newScanRun (id : Uuid) (now : DateTime) (environment scope idempotencyKey correlationId : String) : ScanRun :=
  { id := id, environment := environment, createdAt := now, scope := scope, state := .queued,
    idempotencyKey := idempotencyKey, correlationId := correlationId, startedAt := none, completedAt := none,
    failureReason := none }

def ScanRun.moved (now : DateTime) (target : ScanState) (failureReason : Option String) (r : ScanRun) : ScanRun :=
  { r with
    state := target
    failureReason := failureReason
    startedAt := if target = .running then some now else r.startedAt
    completedAt := if target.completes then some now else r.completedAt }

theorem ScanRun.moved_key (now : DateTime) (target : ScanState) (failureReason : Option String) (r : ScanRun) :
    Keyed.key (r.moved now target failureReason) = Keyed.key r := rfl

def moveRun (scans : Table ScanRun) (now : DateTime) (scanRunId : Uuid) (expected target : ScanState)
    (failureReason : Option String) : Table ScanRun :=
  scans.update (isAt scanRunId expected) (ScanRun.moved now target failureReason)
    (ScanRun.moved_key now target failureReason)

/-- What an answer depends on: the id and the time of a row, and how the pipeline ends. -/
structure Choice where
  id : Uuid
  now : DateTime
  outcome : Except String PipelineResult

def answer (ch : Choice) (scans : Table ScanRun) : (effect : Effect) → effect.Reply × Table ScanRun
  | .find environment idempotencyKey => (scans.find? (hasKey environment idempotencyKey), scans)
  | .insert environment scope idempotencyKey correlationId =>
    match scans.insert (newScanRun ch.id ch.now environment scope idempotencyKey correlationId) with
    | some scans' => (.ok ch.id, scans')
    | none => (.error (.integrityError "scan_runs"), scans)
  | .transition scanRunId expected target failureReason =>
    (scans.count (isAt scanRunId expected) == 1, moveRun scans ch.now scanRunId expected target failureReason)
  | .get scanRunId environment => (scans.find? fun r => r.id == scanRunId && r.environment == environment, scans)
  | .run .. => (ch.outcome, scans)
  | .issue .. => ((), scans)
  | .finish .. => ((), scans)

/-- An effect of a call, with its answer. -/
structure Entry where
  call : Nat
  effect : Effect
  reply : effect.Reply

structure World where
  scans : Table ScanRun
  /-- Newest first. -/
  log : List Entry

def World.perform (w : World) (i : Nat) (ch : Choice) (effect : Effect) : effect.Reply × World :=
  let (reply, scans) := answer ch w.scans effect
  (reply, ⟨scans, ⟨i, effect, reply⟩ :: w.log⟩)

/-! ## The state of a run -/

def stateOf (scans : Table ScanRun) (id : Uuid) : Option ScanState := (scans.find? (·.id == id)).map (·.state)

/-- The run of a window's key has the id. -/
def Named (scans : Table ScanRun) (environment idempotencyKey : String) (id : Uuid) : Prop :=
  ∃ r ∈ scans.rows, hasKey environment idempotencyKey r = true ∧ r.id = id

section
variable {scans scans' : Table ScanRun} {id : Uuid}

theorem stateOf_of_mem {r : ScanRun} (hr : r ∈ scans.rows) : stateOf scans r.id = some r.state := by
  have hfind : scans.find? (·.id == r.id) = some r :=
    Table.find?_eq_some_of_mem hr (by simp) fun a ha => clashes_byIdAnd.mpr (.inl (by simpa using ha))
  rw [stateOf, hfind, Option.map_some]

theorem stateOf_eq_some {state : ScanState} :
    stateOf scans id = some state ↔ ∃ r ∈ scans.rows, r.id = id ∧ r.state = state := by
  constructor
  · intro h
    obtain ⟨r, hr, hs⟩ := Option.map_eq_some_iff.mp h
    exact ⟨r, Table.find?_mem hr, by simpa using Table.find?_holds hr, hs⟩
  · intro h
    obtain ⟨r, hr, rfl, rfl⟩ := h
    exact stateOf_of_mem hr

theorem stateOf_eq_none : stateOf scans id = none ↔ ∀ r ∈ scans.rows, r.id ≠ id := by
  rw [stateOf, Option.map_eq_none_iff]
  constructor
  · intro h r hr
    simpa using Table.find?_none h r hr
  · intro h
    exact Table.find?_eq_none_of fun r hr => by simpa using h r hr

/-- A window's key has one run. -/
theorem Named.unique {environment idempotencyKey : String} {id' : Uuid} (h : Named scans environment idempotencyKey id)
    (h' : Named scans environment idempotencyKey id') : id = id' := by
  obtain ⟨r, hr, hk, rfl⟩ := h
  obtain ⟨r', hr', hk', rfl⟩ := h'
  simp only [hasKey, Bool.and_eq_true, beq_iff_eq] at hk hk'
  have hclash : clashes r r' = true :=
    clashes_byIdAnd.mpr (.inr (Prod.ext (hk.1.trans hk'.1.symm) (hk.2.trans hk'.2.symm)))
  rw [scans.eq_of_clashes hr hr' hclash]

/-- The row count of a transition says whether the run is in the expected state. -/
theorem count_isAt {expected : ScanState} :
    (scans.count (isAt id expected) == 1) = (stateOf scans id == some expected) := by
  have hone : scans.count (isAt id expected) = 1 ↔ stateOf scans id = some expected := by
    rw [stateOf_eq_some, Table.count_eq_one fun a b ha hb => ?_]
    · simp [isAt]
    · simp only [isAt, Bool.and_eq_true, beq_iff_eq] at ha hb
      exact clashes_byIdAnd.mpr (.inl (ha.1.trans hb.1.symm))
  rw [Bool.eq_iff_iff, beq_iff_eq, beq_iff_eq]
  exact hone

/-- A new run is queued. -/
theorem stateOf_insert {r : ScanRun} (h : scans.insert r = some scans') :
    stateOf scans r.id = none ∧ stateOf scans' r.id = some r.state ∧
      ∀ id, id ≠ r.id → stateOf scans' id = stateOf scans id := by
  refine ⟨?_, ?_, fun id hid => ?_⟩
  · exact stateOf_eq_none.mpr fun a ha => (not_clashes_byIdAnd.mp (Table.insert_fresh h a ha)).1
  · exact stateOf_of_mem ((Table.mem_insert h).mpr (.inr rfl))
  · rw [stateOf, Table.find?_insert h, if_neg (by simpa using Ne.symm hid), Option.or_none]
    rfl

section
variable {now : DateTime} {expected target : ScanState} {failureReason : Option String}

theorem find_moveRun {scanRunId : Uuid} :
    (moveRun scans now scanRunId expected target failureReason).find? (·.id == id) =
      (scans.find? (·.id == id)).map (Table.change (isAt scanRunId expected) (ScanRun.moved now target failureReason)) :=
  Table.find?_update fun _ => rfl

/-- A transition moves its run when it is in the expected state, -/
theorem stateOf_moveRun (h : stateOf scans id = some expected) :
    stateOf (moveRun scans now id expected target failureReason) id = some target := by
  obtain ⟨r, hr, hs⟩ := Option.map_eq_some_iff.mp h
  have hid : r.id = id := by simpa using Table.find?_holds hr
  rw [stateOf, find_moveRun, hr, Option.map_some, Table.change_pos (by simp [isAt, hid, hs])]
  rfl

/-- and no other. -/
theorem stateOf_moveRun_other {scanRunId : Uuid} (h : id ≠ scanRunId ∨ stateOf scans id ≠ some expected) :
    stateOf (moveRun scans now scanRunId expected target failureReason) id = stateOf scans id := by
  rw [stateOf, find_moveRun, stateOf]
  cases hr : scans.find? (·.id == id) with
  | none => rfl
  | some r =>
    have hid : r.id = id := by simpa using Table.find?_holds hr
    have hs : stateOf scans id = some r.state := by rw [stateOf, hr, Option.map_some]
    rw [Option.map_some, Table.change_neg]
    simp only [isAt, Bool.and_eq_false_iff, beq_eq_false_iff_ne, hid]
    rw [hs] at h
    exact h.imp_right fun hne heq => hne (congrArg some heq)

end

theorem named_insert {r : ScanRun} {environment idempotencyKey : String} (h : scans.insert r = some scans')
    (hn : Named scans environment idempotencyKey id) : Named scans' environment idempotencyKey id := by
  obtain ⟨a, ha, hk, hid⟩ := hn
  exact ⟨a, (Table.mem_insert h).mpr (.inl ha), hk, hid⟩

theorem named_moveRun {now : DateTime} {scanRunId : Uuid} {expected target : ScanState} {failureReason : Option String}
    {environment idempotencyKey : String} (hn : Named scans environment idempotencyKey id) :
    Named (moveRun scans now scanRunId expected target failureReason) environment idempotencyKey id := by
  obtain ⟨r, hr, hk, hid⟩ := hn
  refine ⟨_, Table.mem_update_of_mem hr, ?_, ?_⟩
  · rw [Table.change_keeps (hasKey environment idempotencyKey)]
    · exact hk
    · intro r
      rfl
  · rw [Table.change_keeps ScanRun.id]
    · exact hid
    · intro r
      rfl

end

/-! ## The protocol -/

/-- Where a call is: it looks for the run of its window, inserts one, holds a ticket,
    claims its run, ends the pipeline, and returns. -/
inductive Pc where
  | idle
  | requested (environment scope window : String)
  | absent (environment scope window : String)
  | ticketed (environment scope window : String) (ticket : ScanTicket)
  | holding (ticket : ScanTicket)
  | claimed (ticket : ScanTicket)
  | ended (ticket : ScanTicket) (target : ScanState)
  | returning (ticket : ScanTicket) (state : ScanState)
  | done

section
variable [Sha256]

open ScanService

def protocol : Protocol Effect Effect.Reply Pc where
  allows
    | .requested environment scope window, .find env key =>
      env = environment ∧ key = scanWindowKey environment scope window
    | .absent environment scope window, .insert env s key _ =>
      env = environment ∧ s = scope ∧ key = scanWindowKey environment scope window
    | .ticketed environment scope window ticket, .issue env s w t =>
      env = environment ∧ s = scope ∧ w = window ∧ t = ticket
    | .holding ticket, .transition id expected target _ =>
      ticket.duplicate = false ∧ id = ticket.scanRunId ∧ expected = .queued ∧ target = .running
    | .holding ticket, .finish t state => ticket.duplicate = true ∧ t = ticket ∧ state = ticket.state
    | .claimed ticket, .run t _ _ => t = ticket
    | .ended ticket target, .transition id expected target' _ =>
      id = ticket.scanRunId ∧ expected = .running ∧ target' = target
    | .returning ticket state, .finish t state' => t = ticket ∧ state' = state
    | .done, .get .. => True
    | _, _ => False
  next
    | .requested environment scope window, .find .., some r =>
      .ticketed environment scope window ⟨r.id, r.state, true⟩
    | .requested environment scope window, .find .., none => .absent environment scope window
    | .absent environment scope window, .insert .., .ok id => .ticketed environment scope window ⟨id, .queued, false⟩
    | .ticketed _ _ _ ticket, .issue .., _ => .holding ticket
    | .holding ticket, .transition .., moved => if moved then .claimed ticket else .returning ticket .skippedDuplicate
    | .claimed ticket, .run .., outcome => .ended ticket (targetOf outcome).1
    | .ended ticket target, .transition .., _ => .returning ticket target
    | _, _, _ => .done

/-- Where a call begins. -/
def Start.pc : Start → Pc
  | .request service scope window _ => .requested service.environment scope window
  | .execute ticket _ _ => .holding ticket
  | .manual service post => .requested service.environment post.payload.scope post.payload.window
  | .status .. => .done

theorem request_sat {service : ScanService} {scope window correlationId : String} :
    (service.request scope window correlationId).Sat protocol (.requested service.environment scope window)
      fun result g => ∀ ticket, result = .ok ticket → g = .ticketed service.environment scope window ticket := by
  refine Proc.sat_bind (Proc.sat_perform ⟨rfl, rfl⟩ fun found => ?_)
  cases found with
  | some existing =>
    intro ticket h
    cases h
    rfl
  | none =>
    refine Proc.sat_andThen (Proc.sat_perform ⟨rfl, rfl, rfl⟩ fun inserted => ?_)
    cases inserted with
    | error e =>
      intro ticket h
      cases h
    | ok id =>
      intro ticket h
      cases h
      rfl

theorem executed_sat {ticket : ScanTicket} {scope correlationId : String} :
    (executed ticket scope correlationId).Sat protocol (.holding ticket) fun _ _ => True := by
  refine Proc.sat_bind ?_
  unfold execute
  split
  · rename_i hdup
    exact Proc.sat_perform ⟨hdup, rfl, rfl⟩ fun _ => trivial
  · rename_i hnew
    refine Proc.sat_bind (Proc.sat_perform ⟨by simpa using hnew, rfl, rfl, rfl⟩ fun moved => ?_)
    cases moved with
    | false => exact Proc.sat_perform ⟨rfl, rfl⟩ fun _ => trivial
    | true =>
      refine Proc.sat_bind (Proc.sat_perform rfl fun outcome => ?_)
      refine Proc.sat_bind (Proc.sat_perform ⟨rfl, rfl, rfl⟩ fun _ => ?_)
      exact Proc.sat_perform ⟨rfl, rfl⟩ fun _ => trivial

theorem manual_sat {service : ScanService} {post : ManualScan} :
    (requestManualScan service post).Sat protocol
      (.requested service.environment post.payload.scope post.payload.window) fun result g =>
        ∀ answer task, result = .ok (answer, task) →
          g = .ticketed service.environment post.payload.scope post.payload.window answer.ticket ∧
            ∀ ticket, task = some ticket → ticket = answer.ticket := by
  unfold requestManualScan
  split
  · intro answer task h
    cases h
  split
  · intro answer task h
    cases h
  refine Proc.sat_bind (request_sat.mono fun result g hg => ?_)
  cases result with
  | error e =>
    intro answer task h
    cases h
  | ok ticket =>
    intro answer task h
    cases h
    refine ⟨hg ticket rfl, fun t ht => ?_⟩
    split at ht
    · cases ht
    · exact (Option.some.inj ht).symm

/-- A call follows the protocol from where it begins. -/
theorem start_sat (x : Start) : x.run.Sat protocol x.pc fun _ _ => True := by
  cases x with
  | request service scope window correlationId =>
    refine Proc.sat_bind (request_sat.mono fun result g hg => ?_)
    cases result with
    | error e => trivial
    | ok ticket =>
      rw [hg ticket rfl]
      exact Proc.sat_perform ⟨rfl, rfl, rfl, rfl⟩ fun _ => trivial
  | execute ticket scope correlationId => exact executed_sat
  | manual service post =>
    refine Proc.sat_bind (manual_sat.mono fun result g hg => ?_)
    cases result with
    | error e => trivial
    | ok issued =>
      obtain ⟨hat, htask⟩ := hg issued.1 issued.2 rfl
      rw [hat]
      refine Proc.sat_bind (Proc.sat_perform ⟨rfl, rfl, rfl, rfl⟩ fun _ => ?_)
      cases ht : issued.2 with
      | none => trivial
      | some ticket =>
        rw [htask ticket ht]
        exact executed_sat
  | status service principal scanRunId =>
    refine Proc.sat_bind ?_
    show (scanStatus service principal scanRunId).Sat protocol Pc.done _
    unfold scanStatus
    split
    · trivial
    · refine Proc.sat_bind (Proc.sat_bind (Proc.sat_perform trivial fun record => ?_))
      cases record with
      | none => trivial
      | some r => trivial

end

/-- Any number of requests, executions and route calls. -/
def scanSystem [Sha256] : Machine Effect Effect.Reply World where
  Choice := Choice
  handle i effect ch w := some (w.perform i ch effect)
  Start := Start
  start := Start.run
  Other := Empty
  other x _ := by cases x

/-! ## Sample requests -/

def sampleService : ScanService := ⟨"test"⟩

def sampleManager : AuthenticatedPrincipal := ⟨.manager, ["WFD"]⟩

def samplePost : ManualScan := ⟨⟨"WFD", "morning", by decide, by decide⟩, "WFD", sampleManager, some "correlation-1", 0⟩

/-- The same project, with a window of its own. -/
def otherWindow : ManualScan := ⟨⟨"WFD", "evening", by decide, by decide⟩, "WFD", sampleManager, none, 0⟩

def sampleChoice : Choice := ⟨1, 100, .ok ⟨false, ["risk-1"], [], none⟩⟩

def otherChoice : Choice := ⟨2, 200, .ok ⟨true, [], [], none⟩⟩

/-- The pipeline raises. -/
def failing : Choice := ⟨1, 100, .error "ConnectionError"⟩

end WorkforceRisk.Scans
