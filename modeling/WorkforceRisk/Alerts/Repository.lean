/-
  WorkforceRisk.Alerts.Repository — the manager inbox
  (packages/persistence/src/workforce_persistence/alert_repository.py: `AlertRepository`).

  An alert is one row for its deduplication key; each change of what it reports is an
  occurrence, and some are told through the outbox. `record_risk` finds the row by the
  key, `resolve_active_risk` finds rows by subject and risk type, `transition` by id and
  version. Ids that are drawn are new to their table.
-/

import WorkforceRisk.Alerts.Rules
import WorkforceRisk.Lib.Transactions
import WorkforceRisk.Persistence.Audit
import WorkforceRisk.Persistence.Outbox

namespace WorkforceRisk.Alerts

open Lib Persistence Risk

structure Alert where
  id : Uuid
  environment : Environment
  createdAt : DateTime
  subjectId : String
  riskType : String
  scoringWindow : String
  dedupKey : String
  state : AlertState
  severity : RiskLevel
  evidenceFingerprint : String
  lastNotifiedAt : Option DateTime
  version : Nat
  deriving DecidableEq

structure AlertOccurrence where
  id : Uuid
  environment : Environment
  createdAt : DateTime
  alertId : Uuid
  riskResultId : Uuid
  sequenceNumber : Nat
  severity : RiskLevel
  evidenceFingerprint : String
  deriving DecidableEq

/-- `uq_alerts_env_dedup`. -/
instance : Keyed Alert := .byIdAnd Alert.id fun a => (a.environment, a.dedupKey)

instance : Keyed AlertOccurrence := .byUnique AlertOccurrence.id

structure Inbox where
  alerts : Table Alert
  occurrences : Table AlertOccurrence
  outbox : Table OutboxEvent

def Inbox.empty : Inbox := ⟨.empty, .empty, .empty⟩

/-- `select(Alert).where(environment, dedup_key)`. -/
def Inbox.alertOf (inbox : Inbox) (environment : Environment) (dedupKey : String) : Option Alert :=
  inbox.alerts.find? fun a => a.environment == environment && a.dedupKey == dedupKey

/-! ## Resolving -/

/-- The active alerts of a subject and a risk type. -/
def isActiveRisk (environment : Environment) (subjectId riskType : String) (a : Alert) : Bool :=
  a.environment == environment && a.subjectId == subjectId && a.riskType == riskType && a.state.isActive

def Alert.resolve (a : Alert) : Alert := { a with state := .resolved, version := a.version + 1 }

theorem Alert.resolve_key (a : Alert) : Keyed.key a.resolve = Keyed.key a := rfl

def resolveActiveRisk (inbox : Inbox) (environment : Environment) (subjectId riskType : String) : Inbox × Nat :=
  let picked := isActiveRisk environment subjectId riskType
  ({ inbox with alerts := inbox.alerts.update picked Alert.resolve Alert.resolve_key }, inbox.alerts.count picked)

/-! ## Recording -/

/-- The arguments of `record_risk`. -/
structure RecordRisk where
  environment : Environment
  subjectId : String
  riskType : String
  scoringWindow : String
  riskResultId : Uuid
  level : RiskLevel
  evidenceFingerprint : String
  correlationId : String
  now : DateTime
  cooldown : Duration := hours 4
  importantNewEvidence : Bool := false

structure AlertRecordResult where
  alertId : Uuid
  occurrenceCreated : Bool
  notificationCreated : Bool
  version : Nat
  deriving DecidableEq, Repr

section
variable [Sha256]

def RecordRisk.dedupKey (r : RecordRisk) : String := alertDedupKey r.subjectId r.riskType r.scoringWindow

def RecordRisk.newAlert (r : RecordRisk) (id : Uuid) : Alert :=
  { id
    environment := r.environment
    createdAt := r.now
    subjectId := r.subjectId
    riskType := r.riskType
    scoringWindow := r.scoringWindow
    dedupKey := r.dedupKey
    state := .new
    severity := r.level
    evidenceFingerprint := r.evidenceFingerprint
    lastNotifiedAt := none
    version := 1 }

end

/-- A material change: the alert shows it, and is new again if it was closed. -/
def RecordRisk.revise (r : RecordRisk) (a : Alert) : Alert :=
  { a with
    state := if a.state = .resolved ∨ a.state = .dismissed then .new else a.state
    severity := r.level
    evidenceFingerprint := r.evidenceFingerprint
    version := a.version + 1 }

theorem RecordRisk.revise_key (r : RecordRisk) (a : Alert) : Keyed.key (r.revise a) = Keyed.key a := rfl

def Alert.tell (now : DateTime) (a : Alert) : Alert := { a with lastNotifiedAt := some now }

theorem Alert.tell_key (now : DateTime) (a : Alert) : Keyed.key (a.tell now) = Keyed.key a := rfl

/-- The occurrence of a new or revised alert, and its notification when one is due. -/
def occur (inbox : Inbox) (alert : Alert) (previousLevel : Option RiskLevel) (r : RecordRisk) :
    Except Error (Inbox × AlertRecordResult) := do
  let occurrences ← inserted "alert_occurrences" <| inbox.occurrences.insert
    { id := inbox.occurrences.fresh AlertOccurrence.id
      environment := r.environment
      createdAt := r.now
      alertId := alert.id
      riskResultId := r.riskResultId
      sequenceNumber := inbox.occurrences.count (·.alertId == alert.id) + 1
      severity := r.level
      evidenceFingerprint := r.evidenceFingerprint }
  if shouldNotify previousLevel r.level alert.lastNotifiedAt r.now r.cooldown r.importantNewEvidence then
    let (outbox, _) ← OutboxRepository.append inbox.outbox r.environment
      ("alert:" ++ uuidText alert.id ++ ":v" ++ toString alert.version) "risk_alert.notification_requested"
      (.obj [("alert_id", .str (uuidText alert.id)), ("severity", .str r.level.value),
        ("correlation_id", .str r.correlationId)])
      r.now (inbox.outbox.fresh OutboxEvent.id)
    let alerts := inbox.alerts.update (·.id == alert.id) (Alert.tell r.now) (Alert.tell_key r.now)
    .ok ({ inbox with alerts, occurrences, outbox }, ⟨alert.id, true, true, alert.version⟩)
  else .ok ({ inbox with occurrences }, ⟨alert.id, true, false, alert.version⟩)

section
variable [Sha256]

def recordRisk (inbox : Inbox) (r : RecordRisk) : Except Error (Inbox × Option AlertRecordResult) :=
  if !(routeRisk (some r.level)).createInboxAlert then .ok (inbox, none)
  else match inbox.alertOf r.environment r.dedupKey with
    | none => do
      let alert := r.newAlert (inbox.alerts.fresh Alert.id)
      let alerts ← inserted "alerts" (inbox.alerts.insert alert)
      let (inbox, result) ← occur { inbox with alerts } alert none r
      .ok (inbox, some result)
    | some alert =>
      if alert.evidenceFingerprint = r.evidenceFingerprint ∧ alert.severity = r.level then
        .ok (inbox, some ⟨alert.id, false, false, alert.version⟩)
      else do
        let alerts := inbox.alerts.update (·.id == alert.id) r.revise r.revise_key
        let (inbox, result) ← occur { inbox with alerts } (r.revise alert) (some alert.severity) r
        .ok (inbox, some result)

end

/-! ## Moving -/

/-- The arguments of `transition`. -/
structure Transition where
  alertId : Uuid
  expectedVersion : Nat
  target : AlertState
  actorId : String
  correlationId : String
  dismissalReason : Option String

/-- `UPDATE ... WHERE id = alert_id AND version = expected_version`. -/
def Transition.picks (t : Transition) (a : Alert) : Bool := a.id == t.alertId && a.version == t.expectedVersion

def Transition.move (t : Transition) (a : Alert) : Alert := { a with state := t.target, version := a.version + 1 }

theorem Transition.move_key (t : Transition) (a : Alert) : Keyed.key (t.move a) = Keyed.key a := rfl

def Transition.entry (t : Transition) (alert : Alert) : AuditEntry :=
  let stateAt (state : AlertState) (version : Nat) : Json := .obj [("state", .str state.value), ("version", .num version)]
  { actionType := "alert." ++ t.target.value
    actorType := "manager"
    actorId := t.actorId
    subjectIds := [uuidText t.alertId, alert.subjectId]
    correlationId := t.correlationId
    priorState := some (stateAt alert.state t.expectedVersion)
    newState := some (stateAt t.target (t.expectedVersion + 1))
    safeMetadata := some (.obj [("dismissal_reason", .opt .str t.dismissalReason)]) }

/-- The alert is looked up without a lock, in `seen`; the update repeats its version. -/
def transition [Sha256] (seen inbox : Inbox) (audit : Table AuditEvent) (auditId : Uuid) (now : DateTime)
    (t : Transition) : Except Error ((Inbox × Table AuditEvent) × Bool) :=
  match seen.alerts.find? (·.id == t.alertId) with
  | none => .ok ((inbox, audit), false)
  | some alert =>
    if alert.version ≠ t.expectedVersion then .ok ((inbox, audit), false)
    else do
      validateTransition alert.state t.target t.dismissalReason
      let moved := { inbox with alerts := inbox.alerts.update t.picks t.move t.move_key }
      if inbox.alerts.count t.picks ≠ 1 then .ok ((moved, audit), false)
      else
        let audit ← AuditRepository.append audit alert.environment (t.entry alert) auditId now
        .ok ((moved, audit), true)

/-- Whatever it returns, a transition changes alerts as its update does, and no other table of the inbox. -/
theorem transition_moves [Sha256] {seen inbox inbox' : Inbox} {audit audit' : Table AuditEvent} {auditId : Uuid}
    {now : DateTime} {t : Transition} {done : Bool}
    (h : transition seen inbox audit auditId now t = .ok ((inbox', audit'), done)) :
    inbox' = inbox ∨ inbox' = { inbox with alerts := inbox.alerts.update t.picks t.move t.move_key } := by
  unfold transition at h
  split at h
  · cases h
    exact .inl rfl
  · split at h
    · cases h
      exact .inl rfl
    · obtain ⟨_, _, h⟩ := except_bind_ok.mp h
      split at h
      · cases h
        exact .inr rfl
      · obtain ⟨_, _, h⟩ := except_bind_ok.mp h
        cases h
        exact .inr rfl

end WorkforceRisk.Alerts
