/-
  WorkforceRisk.Alerts.Route — `PATCH /alerts/{alert_id}`
  (services/agent-api/src/agent_api/routes/alerts.py).

  The route checks the project and the role of the principal, and then moves the alert of
  that id and version. The list of alerts is filtered by the principal's environment; the
  move is not, in the route, the store or the repository.

  Proved (`patch_stays_inside_iff`): a request leaves the alerts and audit events of other
  environments as they are exactly when the alert it moves, if it moves one, is of the
  principal's environment.
-/

import WorkforceRisk.Alerts.Repository
import WorkforceRisk.Contracts.Principal
import WorkforceRisk.Evidence.Text

namespace WorkforceRisk.Alerts

open Lib Persistence Contracts Scans Historical Evidence Risk

structure AlertDatabase where
  inbox : Inbox
  audit : Table AuditEvent

/-- `AlertTransition`: the states a manager may ask for. -/
inductive RequestedState where
  | acknowledged
  | resolved
  | dismissed
  deriving DecidableEq, Repr

def RequestedState.target : RequestedState → AlertState
  | acknowledged => .acknowledged
  | resolved => .resolved
  | dismissed => .dismissed

/-- A `PATCH /alerts/{alert_id}`, with the uuid drawn for it. -/
structure AlertPatch where
  alertId : String
  state : RequestedState
  dismissalReason : Option String
  projectKey : String
  principal : IdentifiedPrincipal
  ifMatch : Option String
  xCorrelationId : Option String
  drawn : Uuid

def AlertPatch.correlationId (patch : AlertPatch) : String :=
  match patch.xCorrelationId with
  | some id => if id = "" then "corr-" ++ uuidText patch.drawn else id
  | none => "corr-" ++ uuidText patch.drawn

/-- What the route answers. -/
structure AlertAnswer where
  id : Uuid
  state : AlertState
  severity : RiskLevel
  version : Nat
  etag : String
  correlationId : String

/-- What a request says of the alert to move, with the id and the version it names. -/
def AlertPatch.transition (patch : AlertPatch) (alertId : Uuid) (expectedVersion : Nat) : Transition where
  alertId := alertId
  expectedVersion := expectedVersion
  target := patch.state.target
  actorId := patch.principal.actorId
  correlationId := patch.correlationId
  dismissalReason := patch.dismissalReason

section
variable [Sha256]

/-- `DatabaseAlertStore.transition`: one transaction, in which no alert has a negative
    version. -/
def storeTransition (db : AlertDatabase) (auditId : Uuid) (now : DateTime) (t : Transition) :
    Except Error (AlertDatabase × Option Alert) := do
  let ((inbox, audit), changed) ← transition db.inbox db.inbox db.audit auditId now t
  if changed then
    match inbox.alerts.find? (·.id == t.alertId) with
    | none => .error .assertionError
    | some record => .ok (⟨inbox, audit⟩, some record)
  else .ok (⟨inbox, audit⟩, none)

variable [Unicode]

/-- The id and the version a request names, once the route has let it pass. -/
def AlertPatch.named (uuid : String → Option Uuid) (configured : Option String) (patch : AlertPatch) :
    Except RouteError (Uuid × Int) := do
  enforceProjectScope configured patch.projectKey patch.principal.toAuthenticatedPrincipal
  if ¬ (patch.principal.role = .manager ∨ patch.principal.role = .administrator) then
    .error (.http 403 "alert changes require manager")
  else match patch.ifMatch with
    | none => .error (.http 428 "If-Match is required")
    | some ifMatch => match intOf (stripBy (· == '"') ifMatch), uuid patch.alertId with
      | some version, some alertId => .ok (alertId, version)
      | _, _ => .error (.http 400 "invalid alert version or ID")

/-- The database a request leaves, and the answer. `uuid` is `uuid.UUID` of a text. -/
def transitionAlert (uuid : String → Option Uuid) (configured : Option String) (db : AlertDatabase) (patch : AlertPatch)
    (auditId : Uuid) (now : DateTime) : AlertDatabase × Except RouteError AlertAnswer :=
  let conflict : Except RouteError AlertAnswer := .error (.http 409 "alert version conflict")
  match patch.named uuid configured with
  | .error e => (db, .error e)
  -- no alert has a negative version
  | .ok (_, .negSucc _) => (db, conflict)
  | .ok (alertId, .ofNat expectedVersion) =>
    match storeTransition db auditId now (patch.transition alertId expectedVersion) with
    | .error e => (db, .error (.raised e))
    | .ok (db', none) => (db', conflict)
    | .ok (db', some record) => (db', .ok
      { id := record.id
        state := record.state
        severity := record.severity
        version := record.version
        etag := "\"" ++ toString record.version ++ "\""
        correlationId := patch.correlationId })

/-! ## What a request may change -/

/-- The alerts and audit events of other environments are as they were. -/
def StaysInside (environment : Environment) (db db' : AlertDatabase) : Prop :=
  db'.inbox.alerts.rows.filter (·.environment != environment) =
      db.inbox.alerts.rows.filter (·.environment != environment) ∧
    db'.audit.rows.filter (·.environment != environment) = db.audit.rows.filter (·.environment != environment)

/-- The request moves the alert: it passes the route and names the alert and its version,
    the move is a legal one, and the audit event of it is accepted. -/
def Moves (uuid : String → Option Uuid) (configured : Option String) (db : AlertDatabase) (patch : AlertPatch)
    (auditId : Uuid) (now : DateTime) (alert : Alert) : Prop :=
  patch.named uuid configured = .ok (alert.id, alert.version) ∧ alert ∈ db.inbox.alerts.rows ∧
    validateTransition alert.state patch.state.target patch.dismissalReason = .ok () ∧
    ∀ e ∈ db.audit.rows, clashes e (AuditRepository.next db.audit alert.environment
      ((patch.transition alert.id alert.version).entry alert) auditId now) = false

end

theorem alert_eq_of_id {alerts : Table Alert} {a b : Alert} (ha : a ∈ alerts.rows) (hb : b ∈ alerts.rows)
    (h : a.id = b.id) : a = b := alerts.eq_of_clashes ha hb (clashes_byIdAnd.mpr (.inl h))

theorem find_alert {alerts : Table Alert} {alert : Alert} (h : alert ∈ alerts.rows) :
    alerts.find? (·.id == alert.id) = some alert :=
  Table.find?_eq_some_of_mem h (by simp) fun a ha => clashes_byIdAnd.mpr (.inl (by simpa using ha))

theorem picks_iff {t : Transition} {a : Alert} : t.picks a = true ↔ a.id = t.alertId ∧ a.version = t.expectedVersion := by
  simp [Transition.picks]

/-- The alert of an id and a version, if it is there, is the one row the update picks. -/
theorem count_picks {alerts : Table Alert} {alert : Alert} {t : Transition} (h : alert ∈ alerts.rows)
    (hp : t.picks alert = true) : alerts.count t.picks = 1 := by
  refine (Table.count_eq_one fun a b ha hb => ?_).mpr ⟨alert, h, hp⟩
  exact clashes_byIdAnd.mpr (.inl ((picks_iff.mp ha).1.trans (picks_iff.mp hb).1.symm))

section
variable [Sha256] {db : AlertDatabase} {auditId : Uuid} {now : DateTime} {t : Transition}

/-- The inbox once the alert is moved. -/
def moved (inbox : Inbox) (t : Transition) : Inbox :=
  { inbox with alerts := inbox.alerts.update t.picks t.move t.move_key }

/-- The alert that is named is moved, when that is legal and its event is accepted. -/
theorem storeTransition_moves {alert : Alert} {audit : Table AuditEvent} (hmem : alert ∈ db.inbox.alerts.rows)
    (hp : t.picks alert = true) (hv : validateTransition alert.state t.target t.dismissalReason = .ok ())
    (ha : AuditRepository.append db.audit alert.environment (t.entry alert) auditId now = .ok audit) :
    storeTransition db auditId now t = .ok (⟨moved db.inbox t, audit⟩, some (t.move alert)) := by
  obtain ⟨hid, hversion⟩ := picks_iff.mp hp
  have hfind : db.inbox.alerts.find? (·.id == t.alertId) = some alert := hid ▸ find_alert hmem
  have hmoved : (moved db.inbox t).alerts.find? (·.id == t.alertId) = some (t.move alert) := by
    have hkeep : ∀ a : Alert, ((t.move a).id == t.alertId) = (a.id == t.alertId) := fun _ => rfl
    show (db.inbox.alerts.update t.picks t.move t.move_key).find? _ = _
    rw [Table.find?_update hkeep, hfind, Option.map_some, Table.change_pos hp]
  have htransition : transition db.inbox db.inbox db.audit auditId now t = .ok ((moved db.inbox t, audit), true) := by
    unfold transition
    simp only [hfind, hversion, ne_eq, not_true_eq_false, if_false, hv, count_picks hmem hp]
    rw [ha]
    rfl
  unfold storeTransition
  rw [htransition]
  show (match (moved db.inbox t).alerts.find? (·.id == t.alertId) with
    | none => _
    | some record => _) = _
  rw [hmoved]

/-- Otherwise the store raises, or leaves the database and says so. -/
theorem storeTransition_cases : (∃ e, storeTransition db auditId now t = .error e) ∨
    storeTransition db auditId now t = .ok (db, none) ∨
    ∃ alert ∈ db.inbox.alerts.rows, ∃ audit, t.picks alert = true ∧
      validateTransition alert.state t.target t.dismissalReason = .ok () ∧
      AuditRepository.append db.audit alert.environment (t.entry alert) auditId now = .ok audit := by
  unfold storeTransition transition
  cases hf : db.inbox.alerts.find? (·.id == t.alertId) with
  | none => exact .inr (.inl rfl)
  | some alert =>
    have hmem := Table.find?_mem hf
    have hid : alert.id = t.alertId := by simpa using Table.find?_holds hf
    by_cases hversion : alert.version = t.expectedVersion
    · have hp := picks_iff.mpr ⟨hid, hversion⟩
      cases hv : validateTransition alert.state t.target t.dismissalReason with
      | error e => exact .inl ⟨e, by simp [hversion, hv]; rfl⟩
      | ok u =>
        cases ha : AuditRepository.append db.audit alert.environment (t.entry alert) auditId now with
        | error e => exact .inl ⟨e, by simp [hversion, hv, ha, count_picks hmem hp]; rfl⟩
        | ok audit => exact .inr (.inr ⟨alert, hmem, audit, hp, hv, ha⟩)
    · refine .inr (.inl ?_)
      simp only [ne_eq, hversion, not_false_eq_true, if_true]
      rfl

/-! ## What the route moves -/

variable [Unicode] {uuid : String → Option Uuid} {configured : Option String} {patch : AlertPatch}

theorem transitionAlert_moves {alert : Alert} (h : Moves uuid configured db patch auditId now alert) :
    ∃ audit, AuditRepository.append db.audit alert.environment
        ((patch.transition alert.id alert.version).entry alert) auditId now = .ok audit ∧
      (transitionAlert uuid configured db patch auditId now).1 =
        ⟨moved db.inbox (patch.transition alert.id alert.version), audit⟩ := by
  obtain ⟨hnamed, hmem, hv, hfresh⟩ := h
  obtain ⟨audit, ha⟩ := AuditRepository.append_of_fresh hfresh
  refine ⟨audit, ha, ?_⟩
  have hstore := storeTransition_moves (t := patch.transition alert.id alert.version) hmem
    (picks_iff.mpr ⟨rfl, rfl⟩) hv ha
  unfold transitionAlert
  rw [hnamed]
  show Prod.fst (match storeTransition db auditId now (patch.transition alert.id alert.version) with
    | .error e => _
    | .ok (db', none) => _
    | .ok (db', some record) => _) = _
  rw [hstore]

theorem transitionAlert_stays (h : ∀ alert, ¬ Moves uuid configured db patch auditId now alert) :
    (transitionAlert uuid configured db patch auditId now).1 = db := by
  unfold transitionAlert
  split
  · rfl
  · rfl
  · rename_i alertId expectedVersion hnamed
    rcases storeTransition_cases (t := patch.transition alertId expectedVersion) with ⟨e, he⟩ | hn |
      ⟨alert, hmem, audit, hp, hv, ha⟩
    · rw [he]
    · rw [hn]
    · obtain ⟨hid, hversion⟩ := picks_iff.mp hp
      replace hid : alert.id = alertId := hid
      replace hversion : alert.version = expectedVersion := hversion
      subst hid hversion
      refine absurd ⟨hnamed, hmem, hv, ?_⟩ (h alert)
      unfold AuditRepository.append at ha
      split at ha
      · rename_i audit' hi
        exact Table.insert_fresh hi
      · cases ha

omit [Sha256] [Unicode] in
/-- The rows an update leaves, where all it picks are of one environment. -/
theorem update_inside {alerts : Table Alert} {environment : Environment}
    (h : ∀ a ∈ alerts.rows, t.picks a = true → a.environment = environment) :
    (alerts.update t.picks t.move t.move_key).rows.filter (·.environment != environment) =
      alerts.rows.filter (·.environment != environment) := by
  show (alerts.rows.map (Table.change t.picks t.move)).filter _ = _
  generalize alerts.rows = rows at h
  induction rows with
  | nil => rfl
  | cons a rows ih =>
    have hrest := ih fun b hb => h b (List.mem_cons_of_mem _ hb)
    cases hp : t.picks a with
    | false => rw [List.map_cons, Table.change_neg hp, List.filter_cons, List.filter_cons, hrest]
    | true =>
      have henv := h a List.mem_cons_self hp
      rw [List.map_cons, Table.change_pos hp, List.filter_cons_of_neg, List.filter_cons_of_neg, hrest]
      · simp [henv]
      · simp [Transition.move, henv]

/-- A request leaves the alerts and audit events of other environments as they are exactly
    when the alert it moves, if it moves one, is of the principal's environment. -/
theorem patch_stays_inside_iff :
    StaysInside patch.principal.environment db (transitionAlert uuid configured db patch auditId now).1 ↔
      ∀ alert, Moves uuid configured db patch auditId now alert →
        alert.environment = patch.principal.environment := by
  constructor
  · intro hstays alert hmoves
    obtain ⟨audit, ha, hdb⟩ := transitionAlert_moves hmoves
    by_contra henv
    obtain ⟨_, haudit⟩ := hstays
    rw [hdb] at haudit
    replace haudit := congrArg List.length haudit
    rw [show (AlertDatabase.audit _).rows = _ from AuditRepository.append_rows ha] at haudit
    simp [AuditRepository.next, henv] at haudit
  · intro hown
    by_cases h : ∃ alert, Moves uuid configured db patch auditId now alert
    · obtain ⟨alert, hmoves⟩ := h
      have henv := hown alert hmoves
      obtain ⟨audit, ha, hdb⟩ := transitionAlert_moves hmoves
      rw [hdb]
      refine ⟨update_inside fun a ha hp => ?_, ?_⟩
      · rw [alert_eq_of_id ha hmoves.2.1 (picks_iff.mp hp).1, henv]
      · rw [AuditRepository.append_rows ha]
        simp [AuditRepository.next, henv]
    · rw [transitionAlert_stays fun alert hm => h ⟨alert, hm⟩]
      exact ⟨rfl, rfl⟩

end

/-! ## An alert of another environment -/

def productionAlert : Alert :=
  ⟨7, .prod, 0, "WRD-1", "overload", "2026-W31", "key", .new, .high, "fingerprint", none, 1⟩

def twoEnvironments : AlertDatabase :=
  ⟨⟨⟨[productionAlert], List.pairwise_singleton _ _⟩, .empty, .empty⟩, .empty⟩

def devManager : IdentifiedPrincipal := ⟨⟨.manager, ["WRD"]⟩, "manager-1", "Dev manager", .dev⟩

def acknowledgement : AlertPatch :=
  ⟨"7", .acknowledged, none, "WRD", devManager, some "\"1\"", some "corr-1", 0⟩

/-- A manager of the development environment acknowledges an alert of production. -/
theorem a_manager_moves_production : letI := Sha256.transparent; letI := Unicode.ascii
    ¬ StaysInside .dev twoEnvironments
      (transitionAlert (fun _ => some 7) none twoEnvironments acknowledgement 1 5).1 := by
  intro hstays
  exact absurd hstays.1 (by decide)

end WorkforceRisk.Alerts
