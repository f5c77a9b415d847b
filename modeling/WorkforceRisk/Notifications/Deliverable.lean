/-
  WorkforceRisk.Notifications.Deliverable — what the outbox's producers write, read by the
  notification worker.

  A payload is an object of no declared shape. The worker needs its `alert_id`: without
  one, `handle` marks the delivery `retrying` and returns False each time the message
  comes. `record_risk` writes it; `finalize` and `resolve` write the proposal's id.

  Proved: a message is delivered if and only if its payload has an `alert_id`
  (`delivered_iff`), so that of the events the system appends the alerts' are
  (`deliverable_iff`).
-/

import WorkforceRisk.Alerts.Notifications
import WorkforceRisk.Notifications.Claims
import WorkforceRisk.Proposals.Operations

namespace WorkforceRisk.Notifications

open Lib Persistence

/-! ## The producers -/

inductive Producer where
  | recordRisk
  | finalize
  | resolve
  deriving DecidableEq

section

/-- The events a producer appends in the states the system reaches. -/
inductive Appends [Sha256] : Producer → OutboxEvent → Prop where
  | recordRisk {events : List Alerts.Event} {s : Alerts.Session} {r : Alerts.RecordRisk} {inbox : Alerts.Inbox}
      {result : Option Alerts.AlertRecordResult} {event : OutboxEvent} : Alerts.Run events s →
      Alerts.recordRisk s.inbox r = .ok (inbox, result) → inbox.outbox.rows = s.inbox.outbox.rows ++ [event] →
      Appends .recordRisk event
  | finalize {w : Proposals.World} {environment : Environment} {claim : Proposals.ExecutionClaim}
      {result r : Proposals.ExecutionResult} {draws : Proposals.Draws} {db : Proposals.Db} {event : OutboxEvent} :
      Proposals.Reach w → (Proposals.Op.finalize environment claim result).Issued w →
      Proposals.DatabaseExecutionStore.finalize environment draws claim result w.db = .ok (r, db) →
      db.outbox.rows = w.db.outbox.rows ++ [event] → Appends .finalize event
  | resolve {w : Proposals.World} {store : Proposals.DatabaseReconciliationStore}
      {claim : Proposals.ReconciliationClaim} {state : Proposals.ProposalState} {evidence : Proposals.ResultPayload}
      {draws : Proposals.Draws} {db : Proposals.Db} {event : OutboxEvent} : Proposals.Reach w →
      (Proposals.Op.resolve store claim state evidence).Issued w →
      store.resolve draws claim state evidence w.db = .ok ((), db) →
      db.outbox.rows = w.db.outbox.rows ++ [event] → Appends .resolve event

theorem occur_alertId {inbox inbox' : Alerts.Inbox} {alert : Alerts.Alert} {previousLevel : Option Risk.RiskLevel}
    {r : Alerts.RecordRisk} {result : Alerts.AlertRecordResult} {event : OutboxEvent}
    (h : Alerts.occur inbox alert previousLevel r = .ok (inbox', result))
    (hrows : inbox'.outbox.rows = inbox.outbox.rows ++ [event]) :
    ∃ rest, event.payload = .obj (("alert_id", .str (uuidText alert.id)) :: rest) := by
  obtain ⟨occurrences, hocc, h⟩ := except_bind_ok.mp h
  split at h
  · obtain ⟨⟨outbox, stored⟩, hout, h⟩ := except_bind_ok.mp h
    cases h
    rw [OutboxRepository.append_added hout hrows]
    exact ⟨_, rfl⟩
  · cases h
    exact absurd (congrArg List.length hrows) (by simp)

variable [Sha256]

theorem recordRisk_alertId {inbox inbox' : Alerts.Inbox} {r : Alerts.RecordRisk}
    {result : Option Alerts.AlertRecordResult} {event : OutboxEvent} (h : Alerts.recordRisk inbox r = .ok (inbox', result))
    (hrows : inbox'.outbox.rows = inbox.outbox.rows ++ [event]) :
    ∃ id rest, event.payload = .obj (("alert_id", .str (uuidText id)) :: rest) := by
  obtain ⟨rfl, _⟩ | ⟨alerts, alert, previousLevel, res, _, _, hocc⟩ := Alerts.recordRisk_cases h
  · exact absurd (congrArg List.length hrows) (by simp)
  · exact ⟨alert.id, occur_alertId hocc hrows⟩

/-- The event of an uncertain outcome. -/
theorem settle_payload {environment : Environment} {draws : Proposals.Draws} {executionId proposalId : Uuid}
    {issueKey correlationId : String} {state : Proposals.ProposalState} {entry : AuditEntry}
    {change : Proposals.ProposalExecution → Proposals.ProposalExecution}
    {hc : ∀ e, Keyed.key (change e) = Keyed.key e} {db db' : Proposals.Db} {event : OutboxEvent}
    (h : Proposals.settle environment draws executionId proposalId issueKey correlationId state entry change hc db =
      .ok db') (hrows : db'.outbox.rows = db.outbox.rows ++ [event]) :
    event.payload = .obj [("correlation_id", .str correlationId), ("issue_key", .str issueKey),
      ("proposal_id", .str (uuidText proposalId))] := by
  unfold Proposals.settle at h
  split at h
  · cases h
  simp only at h
  split at h
  · split at h
    · cases h
    rename_i hout
    cases h
    rw [OutboxRepository.append_added hout hrows]
  · cases h
    exact absurd (congrArg List.length hrows) (by simp)

theorem appends_payload {producer : Producer} {event : OutboxEvent} (h : Appends producer event) :
    ∃ members, event.payload = .obj members ∧
      ((member members "alert_id").isSome = true ↔ producer = .recordRisk) := by
  cases h with
  | recordRisk _ h hrows =>
    obtain ⟨id, rest, hp⟩ := recordRisk_alertId h hrows
    exact ⟨_, hp, by simp [member]⟩
  | finalize _ _ h hrows =>
    unfold Proposals.DatabaseExecutionStore.finalize at h
    split at h
    · split at h
      · cases h
        exact absurd (congrArg List.length hrows) (by simp)
      split at h
      · cases h
      simp only at h
      split at h
      · cases h
      rename_i hset
      cases h
      exact ⟨_, settle_payload hset hrows, by simp [member]⟩
    · cases h
  | resolve _ _ h hrows =>
    unfold Proposals.DatabaseReconciliationStore.resolve at h
    split at h
    · split at h
      · cases h
        exact absurd (congrArg List.length hrows) (by simp)
      split at h
      · cases h
        exact absurd (congrArg List.length hrows) (by simp)
      split at h
      · cases h
      split at h
      · cases h
      rename_i hset
      cases h
      exact ⟨_, settle_payload hset hrows, by simp [member]⟩
    · cases h

end

/-! ## The consumer -/

/-- A handler by itself, its answers all drawn with `ch`. -/
def alone (ch : Choice) {α : Type} (p : Handler α) (w : World) : α × World :=
  p.exec (fun request w => w.perform 0 ch request) w

/-- One email, the delivery marked, and True. -/
def Delivered [PyRepr] (worker : NotificationWorker) (message : QueueMessage) (deliveries : Deliveries) (ch : Choice) :
    Prop :=
  let (result, w) := alone ch (worker.handle message) ⟨deliveries, []⟩
  result = .ok true ∧ w.log.countP Entry.sends = 1 ∧
    (w.deliveries.find? (isFor message.environment message.consumerKey)).map (·.state) = some .sent

section
variable {ch : Choice}

theorem alone_bind {α β : Type} {p : Handler α} {f : α → Handler β} {w : World} :
    alone ch (p.bind f) w = alone ch (f (alone ch p w).1) (alone ch p w).2 := Proc.exec_bind

/-- A claim sends nothing, and one that succeeds leaves a row of its message. -/
theorem claim_alone {consumerKey : String} {environment : Environment} {w : World}
    (h : (alone ch (DatabaseDeliveryStore.claim consumerKey environment) w).1 = .ok true) :
    (alone ch (DatabaseDeliveryStore.claim consumerKey environment) w).2.log.countP Entry.sends = w.log.countP Entry.sends ∧
    ∃ d, (alone ch (DatabaseDeliveryStore.claim consumerKey environment) w).2.deliveries.find?
      (isFor environment consumerKey) = some d := by
  have hfind : answer ch w.deliveries (.find consumerKey environment) =
    (w.deliveries.find? (isFor environment consumerKey), w.deliveries) := rfl
  revert h
  cases hf : w.deliveries.find? (isFor environment consumerKey) with
  | some d =>
    simp only [alone, DatabaseDeliveryStore.claim, Proc.exec_bind, Proc.perform, Proc.exec, World.perform, hfind, hf]
    exact fun _ => ⟨List.countP_cons_of_neg (fun hs => nomatch hs), d, rfl⟩
  | none =>
    simp only [alone, DatabaseDeliveryStore.claim, Proc.exec_bind, Proc.andThen, Proc.perform, Proc.exec, World.perform,
      hfind, hf]
    generalize hi : answer ch w.deliveries (.insert consumerKey environment) = answered
    obtain ⟨reply, deliveries⟩ := answered
    obtain ⟨rfl, _, hrows⟩ | ⟨⟨e, rfl⟩, rfl⟩ := answer_insert hi
    · refine fun _ => ⟨rfl, _, find_of_mem (d := newDelivery ch.id ch.now consumerKey environment) ?_ ?_⟩
      · rw [Proc.exec, hrows]
        exact List.mem_append_right _ (List.mem_singleton_self _)
      · exact isFor_iff.mpr ⟨rfl, rfl⟩
    · exact fun h => nomatch h

variable [PyRepr] {worker : NotificationWorker} {message : QueueMessage}

/-- A claimed message is processed to True if and only if its payload has an `alert_id`,
    with one email then and the delivery marked. -/
theorem process_alone {w : World} {messageId : String} (hs : ch.sent = .ok messageId) {d : NotificationDelivery}
    (hd : w.deliveries.find? (isFor message.environment message.consumerKey) = some d) :
    ((alone ch (worker.process message) w).1 = .ok true ↔ (member message.payload "alert_id").isSome = true) ∧
    ((member message.payload "alert_id").isSome = true →
      (alone ch (worker.process message) w).2.log.countP Entry.sends = w.log.countP Entry.sends + 1 ∧
      ((alone ch (worker.process message) w).2.deliveries.find? (isFor message.environment message.consumerKey)).map
        (·.state) = some .sent) := by
  have hkey := (isFor_iff.mp (Table.find?_holds hd)).2
  simp only [NotificationWorker.process, alone_bind, NotificationWorker.deliver, NotificationWorker.emailOf]
  cases ha : member message.payload "alert_id" with
  | none => simp [alone, DatabaseDeliveryStore.mark, Proc.perform, Proc.bind, Proc.exec]
  | some alertId =>
    simp only [alone, Proc.perform, Proc.exec, World.perform, answer, hs, DatabaseDeliveryStore.mark, Proc.bind]
    refine ⟨by simp, fun _ => ⟨?_, ?_⟩⟩
    · rw [List.countP_cons_of_neg Bool.false_ne_true, List.countP_cons_of_pos rfl]
    · show ((answer ch w.deliveries (.mark message.consumerKey .sent none)).2.find? _).map _ = _
      rw [mark_find, hd, Option.map_some, Option.map_some, Table.change_pos (by simpa using hkey)]
      rfl

/-- A message whose claim and email succeed is delivered if and only if its payload has an
    `alert_id`. -/
theorem delivered_iff {deliveries : Deliveries} (he : message.environment = worker.environment)
    (hc : (alone ch (DatabaseDeliveryStore.claim message.consumerKey message.environment) ⟨deliveries, []⟩).1 = .ok true)
    {messageId : String} (hs : ch.sent = .ok messageId) :
    Delivered worker message deliveries ch ↔ (member message.payload "alert_id").isSome = true := by
  obtain ⟨hsends, d, hd⟩ := claim_alone hc
  obtain ⟨hresult, hdone⟩ := @process_alone ch _ worker message _ messageId hs d hd
  have hhandle : alone ch (worker.handle message) ⟨deliveries, []⟩ = alone ch (worker.process message)
      (alone ch (DatabaseDeliveryStore.claim message.consumerKey message.environment) ⟨deliveries, []⟩).2 := by
    rw [NotificationWorker.handle, if_neg (by simp [he]), Proc.andThen, alone_bind, hc]
    rfl
  unfold Delivered
  rw [hhandle]
  constructor
  · exact fun h => hresult.mp h.1
  · intro h
    obtain ⟨hone, hstate⟩ := hdone h
    rw [hsends] at hone
    exact ⟨hresult.mpr h, hone, hstate⟩

/-- The message a queue carries an event in. -/
def Carries (message : QueueMessage) (event : OutboxEvent) : Prop :=
  message.environment = event.environment ∧ message.consumerKey = event.consumerKey ∧
    event.payload = .obj message.payload

/-- Of the events the system appends in its reachable states, a worker of the environment
    delivers those of `record_risk`, and no other. -/
theorem deliverable_iff [Sha256] {producer : Producer} {event : OutboxEvent} (h : Appends producer event)
    (hm : Carries message event) (he : message.environment = worker.environment) {deliveries : Deliveries}
    (hc : (alone ch (DatabaseDeliveryStore.claim message.consumerKey message.environment) ⟨deliveries, []⟩).1 = .ok true)
    {messageId : String} (hs : ch.sent = .ok messageId) :
    Delivered worker message deliveries ch ↔ producer = .recordRisk := by
  rw [delivered_iff he hc hs]
  obtain ⟨members, hp, hmem⟩ := appends_payload h
  cases hp.symm.trans hm.2.2
  exact hmem

end

/-! ## An alert, and an uncertain outcome -/

def sampleRisk : Alerts.RecordRisk :=
  { environment := .dev, subjectId := "employee-1", riskType := "overload", scoringWindow := "2026-08-24",
    riskResultId := 1, level := .high, evidenceFingerprint := "evidence-1", correlationId := "correlation-1", now := 10 }

/-- The event of the sample risk, which is new. -/
def sampleAlertEvent : OutboxEvent where
  id := 0
  environment := .dev
  createdAt := 10
  consumerKey := "alert:0:v1"
  eventType := "risk_alert.notification_requested"
  payload := .obj [("alert_id", .str "0"), ("severity", .str "high"), ("correlation_id", .str "correlation-1")]
  deliveryAttempts := 0

theorem deliverable_alert : letI := Sha256.transparent; letI : PyRepr := ⟨Json.text⟩
    Appends .recordRisk sampleAlertEvent ∧ Carries sampleAlertMessage sampleAlertEvent ∧
      Delivered sampleWorker sampleAlertMessage .empty sampleChoice := by
  let _ := Sha256.transparent
  let _ : PyRepr := ⟨Json.text⟩
  have run : ((Alerts.recordRisk .empty sampleRisk).toOption.map (·.1.outbox.rows)) =
      some [sampleAlertEvent] := by decide
  cases h : Alerts.recordRisk .empty sampleRisk with
  | error e =>
    rw [h] at run
    cases run
  | ok recorded =>
    rw [h] at run
    have happ : Appends .recordRisk sampleAlertEvent := .recordRisk .nil h (Option.some.inj run)
    have hm : Carries sampleAlertMessage sampleAlertEvent := ⟨rfl, rfl, rfl⟩
    exact ⟨happ, hm, (deliverable_iff happ hm rfl (by decide) rfl).mpr rfl⟩

/-- The event of the sample execution, whose outcome is not known. -/
def sampleUncertainEvent : OutboxEvent where
  id := 4
  environment := .dev
  createdAt := 22
  consumerKey := "uncertain-execution:3"
  eventType := "manager.uncertain_reassignment"
  payload := .obj [("correlation_id", .str "correlation-2"), ("issue_key", .str "DEV-1"), ("proposal_id", .str "1")]
  deliveryAttempts := 0

def sampleUncertainMessage : QueueMessage :=
  ⟨"queue-2", "uncertain-execution:3", .dev,
    [("correlation_id", .str "correlation-2"), ("issue_key", .str "DEV-1"), ("proposal_id", .str "1")]⟩

def sampleUncertain : Proposals.ExecutionResult :=
  ⟨3, 1, .uncertain, "correlation-2", none, some "jira_write_outcome_unknown"⟩

/-- A reachable event whose message is marked `retrying`, with no email. -/
theorem uncertain_undelivered : letI := Sha256.transparent; letI : PyRepr := ⟨Json.text⟩
    Appends .finalize sampleUncertainEvent ∧ Carries sampleUncertainMessage sampleUncertainEvent ∧
      (alone sampleChoice (DatabaseDeliveryStore.claim sampleUncertainMessage.consumerKey
        sampleUncertainMessage.environment) ⟨.empty, []⟩).1 = .ok true ∧
      ¬ Delivered sampleWorker sampleUncertainMessage .empty sampleChoice := by
  let _ := Sha256.transparent
  let _ : PyRepr := ⟨Json.text⟩
  have run : ((Proposals.World.init.run (Proposals.sampleApproval ++ Proposals.sampleExecution.take 2)).bind fun w =>
      if (Proposals.Op.finalize .dev Proposals.sampleClaim sampleUncertain).Issued w then
        (Proposals.DatabaseExecutionStore.finalize .dev (Proposals.sampleDraws 4 22) Proposals.sampleClaim
          sampleUncertain w.db).toOption.map fun finalized =>
            decide (finalized.2.outbox.rows = w.db.outbox.rows ++ [sampleUncertainEvent])
      else none) = some true := by decide
  obtain ⟨w, hw, run⟩ := Option.bind_eq_some_iff.mp run
  split at run
  · rename_i hissued
    cases h : Proposals.DatabaseExecutionStore.finalize .dev (Proposals.sampleDraws 4 22) Proposals.sampleClaim
        sampleUncertain w.db with
    | error e =>
      rw [h] at run
      cases run
    | ok finalized =>
      rw [h] at run
      have happ : Appends .finalize sampleUncertainEvent :=
        .finalize (Proposals.run_reach .init hw) hissued h (of_decide_eq_true (Option.some.inj run))
      exact ⟨happ, ⟨rfl, rfl, rfl⟩, by decide, fun hd => absurd hd.1 (by decide)⟩
  · cases run

end WorkforceRisk.Notifications
