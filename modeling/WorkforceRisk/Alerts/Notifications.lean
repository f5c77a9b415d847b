/-
  WorkforceRisk.Alerts.Notifications — what a run of `AlertRepository` tells.

  A notification goes to the outbox under its alert's id and version, and the outbox
  keeps the event a key has already, so that each is a new event rests on versions that
  only grow: every key in the outbox is of an alert there, at a version it has had
  (`Told`). `last_notified_at` is the time of the alert's last notification in the run
  (`lastTold`), which is what the cooldown is measured from.

  Proved: `notifications_accounted`, of every run on any alerts, whatever the clocks and
  the cooldowns given.
-/

import Mathlib.Data.List.Basic
import WorkforceRisk.Alerts.Repository

namespace WorkforceRisk.Alerts

open Lib Persistence Risk

/-! ## Consumer keys -/

/-- The consumer key of an alert's notification. -/
def alertKey (id : Uuid) (version : Nat) : String := "alert:" ++ uuidText id ++ ":v" ++ toString version

theorem toDigits_inj {m n : Nat} (h : Nat.toDigits 10 m = Nat.toDigits 10 n) : m = n := by
  have := congrArg (Nat.ofDigitChars 10 · 0) h
  simpa using this

theorem alertKey_inj {id id' : Uuid} {version version' : Nat} :
    alertKey id version = alertKey id' version' ↔ id = id' ∧ version = version' := by
  refine ⟨fun h => ?_, fun h => by rw [h.1, h.2]⟩
  have hchars := congrArg String.toList h
  simp only [alertKey, uuidText, String.toList_append, Nat.toString_eq_repr, Nat.toList_repr, List.append_assoc,
    List.append_cancel_left_eq, show ":v".toList = [':', 'v'] by decide, List.cons_append, List.nil_append] at hchars
  -- no digit is a colon, so the id ends where the version's text starts
  have colon : ∀ n : Nat, ':' ∉ Nat.toDigits 10 n := fun n hc =>
    absurd (Nat.isDigit_of_mem_toDigits (by decide) (by decide) hc) (by decide)
  obtain ⟨hid, _, hversion⟩ := (List.append_cons_inj_of_notMem (colon id) (by simp [colon])).mp hchars
  exact ⟨toDigits_inj hid, toDigits_inj (List.cons.inj hversion).2⟩

/-! ## What one call writes -/

def alertById (inbox : Inbox) (id : Uuid) : Option Alert := inbox.alerts.find? (·.id == id)

/-- When an alert was last notified. -/
def lastNotified (inbox : Inbox) (id : Uuid) : Option DateTime := (alertById inbox id).bind Alert.lastNotifiedAt

section
variable {inbox inbox' : Inbox} {id : Uuid} {a : Alert}

theorem alertById_some (h : alertById inbox id = some a) : a ∈ inbox.alerts.rows ∧ a.id = id :=
  ⟨Table.find?_mem h, by simpa using Table.find?_holds h⟩

theorem alertById_of_mem (h : a ∈ inbox.alerts.rows) : alertById inbox a.id = some a :=
  Table.find?_eq_some_of_mem h (by simp) fun _ hb => clashes_byIdAnd.mpr (.inl (by simpa using hb))

theorem alertById_update {p : Alert → Bool} {f : Alert → Alert} {hf : ∀ a, Keyed.key (f a) = Keyed.key a}
    {occurrences : Table AlertOccurrence} {outbox : Table OutboxEvent} :
    alertById ⟨inbox.alerts.update p f hf, occurrences, outbox⟩ id = (alertById inbox id).map (Table.change p f) := by
  show (inbox.alerts.update p f hf).find? _ = _
  exact Table.find?_update fun a => congrArg (· == id) (congrArg Prod.fst (hf a))

/-- No alert is lost, and no version falls. -/
def Ages (inbox inbox' : Inbox) : Prop :=
  ∀ id a, alertById inbox id = some a → ∃ b, alertById inbox' id = some b ∧ a.version ≤ b.version

theorem Ages.refl (inbox : Inbox) : Ages inbox inbox := fun _ a ha => ⟨a, ha, Nat.le_refl _⟩

/-- An update of alerts that leaves their notifications alone and takes no version back. -/
theorem update_ages {p : Alert → Bool} {f : Alert → Alert} {hf : ∀ a, Keyed.key (f a) = Keyed.key a}
    (hver : ∀ a, a.version ≤ (f a).version) (htold : ∀ a, (f a).lastNotifiedAt = a.lastNotifiedAt)
    {occurrences : Table AlertOccurrence} {outbox : Table OutboxEvent} :
    Ages inbox ⟨inbox.alerts.update p f hf, occurrences, outbox⟩ ∧
      lastNotified ⟨inbox.alerts.update p f hf, occurrences, outbox⟩ = lastNotified inbox := by
  constructor
  · intro id a ha
    refine ⟨Table.change p f a, by rw [alertById_update, ha]; rfl, ?_⟩
    unfold Table.change
    split
    · exact hver a
    · exact Nat.le_refl _
  · funext id
    rw [lastNotified, lastNotified, alertById_update]
    cases alertById inbox id with
    | none => rfl
    | some a => exact Table.change_keeps Alert.lastNotifiedAt htold a

/-- The occurrence a call adds to those of its alert. -/
def Occurs (inbox inbox' : Inbox) (id : Uuid) : Prop :=
  ∃ o, inbox'.occurrences.rows = inbox.occurrences.rows ++ [o] ∧ o.alertId = id ∧
    o.sequenceNumber = inbox.occurrences.count (·.alertId == id) + 1

theorem occur_cases {alert : Alert} {previousLevel : Option RiskLevel} {r : RecordRisk} {result : AlertRecordResult}
    (h : occur inbox alert previousLevel r = .ok (inbox', result)) :
    Occurs inbox inbox' alert.id ∧ result.alertId = alert.id ∧ result.version = alert.version ∧
      result.notificationCreated =
        shouldNotify previousLevel r.level alert.lastNotifiedAt r.now r.cooldown r.importantNewEvidence ∧
      ((result.notificationCreated = false ∧ inbox'.alerts = inbox.alerts ∧ inbox'.outbox = inbox.outbox) ∨
        (result.notificationCreated = true ∧
          inbox'.alerts = inbox.alerts.update (·.id == alert.id) (Alert.tell r.now) (Alert.tell_key r.now) ∧
          ∃ eventType payload event, OutboxRepository.append inbox.outbox r.environment
            (alertKey alert.id alert.version) eventType payload r.now (inbox.outbox.fresh OutboxEvent.id) =
              .ok (inbox'.outbox, event))) := by
  obtain ⟨occurrences, hocc, h⟩ := except_bind_ok.mp h
  have hocc : inbox.occurrences.insert _ = some occurrences := inserted_ok.mp hocc
  have occurs : ∀ {inbox'' : Inbox}, inbox''.occurrences = occurrences → Occurs inbox inbox'' alert.id :=
    fun heq => ⟨_, by rw [heq]; exact Table.insert_rows hocc, rfl, rfl⟩
  split at h
  · rename_i hn
    obtain ⟨⟨outbox, event⟩, hout, h⟩ := except_bind_ok.mp h
    cases h
    exact ⟨occurs rfl, rfl, rfl, hn.symm, .inr ⟨rfl, rfl, _, _, event, hout⟩⟩
  · rename_i hn
    cases h
    exact ⟨occurs rfl, rfl, rfl, by simpa using hn, .inl ⟨rfl, rfl, rfl⟩⟩

end

section
variable [Sha256] {inbox inbox' : Inbox} {r : RecordRisk}

/-- How the alert of an occurrence came to be as it is: made for the risk, or revised. -/
inductive Raises (inbox : Inbox) (r : RecordRisk) : Table Alert → Alert → Option RiskLevel → Prop where
  | created {alerts : Table Alert} : inbox.alerts.insert (r.newAlert (inbox.alerts.fresh Alert.id)) = some alerts →
      Raises inbox r alerts (r.newAlert (inbox.alerts.fresh Alert.id)) none
  | revised {a : Alert} : a ∈ inbox.alerts.rows →
      Raises inbox r (inbox.alerts.update (·.id == a.id) r.revise r.revise_key) (r.revise a) (some a.severity)

theorem recordRisk_cases {result : Option AlertRecordResult} (h : recordRisk inbox r = .ok (inbox', result)) :
    (inbox' = inbox ∧ ∀ res, result = some res → res.notificationCreated = false) ∨
    ∃ alerts alert previousLevel res, Raises inbox r alerts alert previousLevel ∧ result = some res ∧
      occur { inbox with alerts } alert previousLevel r = .ok (inbox', res) := by
  unfold recordRisk at h
  split at h
  · cases h
    exact .inl ⟨rfl, fun _ hres => by cases hres⟩
  split at h
  · obtain ⟨alerts, hins, h⟩ := except_bind_ok.mp h
    obtain ⟨⟨inbox₁, res⟩, hocc, h⟩ := except_bind_ok.mp h
    cases h
    exact .inr ⟨alerts, _, _, res, .created (inserted_ok.mp hins), rfl, hocc⟩
  · rename_i a ha
    split at h
    · cases h
      exact .inl ⟨rfl, fun res hres => by cases hres; rfl⟩
    · obtain ⟨⟨inbox₁, res⟩, hocc, h⟩ := except_bind_ok.mp h
      cases h
      exact .inr ⟨_, _, _, res, .revised (Table.find?_mem ha), rfl, hocc⟩

variable {alerts : Table Alert} {alert : Alert} {previousLevel : Option RiskLevel}

/-- The raised alert is there, with its notifications so far, past any version it had. -/
theorem Raises.shows (h : Raises inbox r alerts alert previousLevel) :
    alertById { inbox with alerts } alert.id = some alert ∧ lastNotified inbox alert.id = alert.lastNotifiedAt ∧
      previousLevel = (alertById inbox alert.id).map Alert.severity ∧
      ∀ a, alertById inbox alert.id = some a → a.version < alert.version := by
  cases h with
  | created hins =>
    have hmem := (Table.mem_insert hins).mpr (.inr rfl)
    have hnone : alertById inbox (inbox.alerts.fresh Alert.id) = none :=
      Table.find?_eq_none_of fun b hb => by simpa using inbox.alerts.ne_fresh Alert.id hb
    refine ⟨@alertById_of_mem { inbox with alerts } _ hmem, ?_, ?_, fun a ha => ?_⟩
    · exact congrArg (·.bind Alert.lastNotifiedAt) hnone
    · exact (congrArg (·.map Alert.severity) hnone).symm
    · cases hnone.symm.trans ha
  | revised ha =>
    rename_i a
    have hfind : alertById inbox (r.revise a).id = some a := alertById_of_mem ha
    refine ⟨?_, congrArg (·.bind Alert.lastNotifiedAt) hfind, (congrArg (·.map Alert.severity) hfind).symm,
      fun b hb => ?_⟩
    · rw [alertById_update, hfind, Option.map_some, Table.change_pos (by simp)]
    · cases hfind.symm.trans hb
      exact Nat.lt_succ_self _

theorem Raises.ages (h : Raises inbox r alerts alert previousLevel) :
    Ages inbox { inbox with alerts } ∧ lastNotified { inbox with alerts } = lastNotified inbox := by
  cases h with
  | created hins =>
    have hfind : ∀ id, alertById { inbox with alerts } id =
        (alertById inbox id).or (if inbox.alerts.fresh Alert.id == id
          then some (r.newAlert (inbox.alerts.fresh Alert.id)) else none) := fun id => Table.find?_insert hins
    constructor
    · intro id a ha
      exact ⟨a, by rw [hfind, ha]; rfl, Nat.le_refl _⟩
    · funext id
      rw [lastNotified, lastNotified, hfind]
      cases alertById inbox id with
      | some a => rfl
      | none =>
        rw [Option.none_or]
        split <;> rfl
  | revised ha => exact update_ages (f := r.revise) (fun _ => Nat.le_succ _) fun _ => rfl

end

/-! ## Runs -/

/-- What the repository's session writes. -/
structure Session where
  inbox : Inbox
  audit : Table AuditEvent

def Session.empty : Session := ⟨.empty, .empty⟩

inductive Op where
  | recordRisk (r : RecordRisk)
  | transition (t : Transition) (seen : Inbox) (auditId : Uuid) (now : DateTime)
  | resolveActiveRisk (environment : Environment) (subjectId riskType : String)

def Op.run [Sha256] (s : Session) : Op → Except Error (Session × Option AlertRecordResult)
  | recordRisk r => (Alerts.recordRisk s.inbox r).map fun (inbox, result) => (⟨inbox, s.audit⟩, result)
  | transition t seen auditId now =>
    (Alerts.transition seen s.inbox s.audit auditId now t).map fun ((inbox, audit), _) => (⟨inbox, audit⟩, none)
  | resolveActiveRisk environment subjectId riskType =>
    .ok (⟨(Alerts.resolveActiveRisk s.inbox environment subjectId riskType).1, s.audit⟩, none)

/-- An operation of a run, with the inbox before and after it. -/
structure Event where
  op : Op
  before : Inbox
  after : Inbox
  result : Option AlertRecordResult

/-- The notification an operation says it created: its call, the alert and the version. -/
def Event.notification (e : Event) : Option (RecordRisk × Uuid × Nat) :=
  match e.op, e.result with
  | .recordRisk r, some ⟨id, _, true, version⟩ => some (r, id, version)
  | _, _ => none

/-- Runs from an empty inbox; an operation that raises changes nothing. -/
inductive Run [Sha256] : List Event → Session → Prop where
  | nil : Run [] .empty
  | snoc {events : List Event} {s s' : Session} {op : Op} {result : Option AlertRecordResult} : Run events s →
      op.run s = .ok (s', result) → Run (events ++ [⟨op, s.inbox, s'.inbox, result⟩]) s'

/-- Go on with the operations one by one. -/
def play [Sha256] (events : List Event) (s : Session) : List Op → Except Error (List Event × Session)
  | [] => .ok (events, s)
  | op :: ops => do
    let (s', result) ← op.run s
    play (events ++ [⟨op, s.inbox, s'.inbox, result⟩]) s' ops

theorem play_run [Sha256] {ops : List Op} : ∀ {events events' : List Event} {s s' : Session}, Run events s →
    play events s ops = .ok (events', s') → Run events' s' := by
  induction ops with
  | nil =>
    intro events events' s s' h hp
    cases hp
    exact h
  | cons op ops ih =>
    intro events events' s s' h hp
    obtain ⟨⟨s₁, result⟩, hop, hp⟩ := except_bind_ok.mp hp
    exact ih (.snoc h hop) hp

/-- The time of a notification, when it is of the alert. -/
def Event.stamp (id : Uuid) (last : Option DateTime) (e : Event) : Option DateTime :=
  match e.notification with
  | some (r, told, _) => if told = id then some r.now else last
  | none => last

/-- When the alert was last told in the run. -/
def lastTold (events : List Event) (id : Uuid) : Option DateTime := events.foldl (Event.stamp id) none

/-- What one operation does to the notifications of the alerts. -/
structure Effect (e : Event) : Prop where
  ages : Ages e.before e.after
  stamps : ∀ id, lastNotified e.after id = e.stamp id (lastNotified e.before id)
  occurs : e.after.occurrences = e.before.occurrences ∨ ∃ id, Occurs e.before e.after id
  quiet : e.notification = none → e.after.outbox = e.before.outbox
  told : ∀ r id version, e.notification = some (r, id, version) →
    (∃ b, alertById e.after id = some b ∧ version ≤ b.version) ∧
    (∀ a, alertById e.before id = some a → a.version < version) ∧
    shouldNotify ((alertById e.before id).map Alert.severity) r.level (lastNotified e.before id) r.now r.cooldown
      r.importantNewEvidence = true ∧
    ∃ eventType payload event, OutboxRepository.append e.before.outbox r.environment (alertKey id version) eventType
      payload r.now (e.before.outbox.fresh OutboxEvent.id) = .ok (e.after.outbox, event)

/-- An operation that tells nothing and leaves the occurrences. -/
theorem Effect.of_quiet {e : Event} (hn : e.notification = none)
    (h : Ages e.before e.after ∧ lastNotified e.after = lastNotified e.before)
    (ho : e.after.occurrences = e.before.occurrences) (hout : e.after.outbox = e.before.outbox) : Effect e where
  ages := h.1
  stamps id := by rw [h.2, Event.stamp, hn]
  occurs := .inl ho
  quiet _ := hout
  told r id version he := by rw [hn] at he; cases he

/-- An alert told now keeps its version, -/
theorem alertById_told {inbox inbox' : Inbox} {alert : Alert} {now : DateTime} {id : Uuid}
    (h : inbox'.alerts = inbox.alerts.update (·.id == alert.id) (Alert.tell now) (Alert.tell_key now)) :
    alertById inbox' id = (alertById inbox id).map (Table.change (·.id == alert.id) (Alert.tell now)) := by
  show inbox'.alerts.find? _ = _
  rw [h]
  exact Table.find?_update fun _ => rfl

theorem version_told {alert : Alert} {now : DateTime} (a : Alert) :
    (Table.change (·.id == alert.id) (Alert.tell now) a).version = a.version :=
  Table.change_keeps Alert.version (f := Alert.tell now) (fun _ => rfl) a

theorem Ages.tell {before inbox inbox' : Inbox} {alert : Alert} {now : DateTime} (hages : Ages before inbox)
    (h : inbox'.alerts = inbox.alerts.update (·.id == alert.id) (Alert.tell now) (Alert.tell_key now)) :
    Ages before inbox' := by
  intro id a ha
  obtain ⟨b, hb, hle⟩ := hages id a ha
  exact ⟨_, by rw [alertById_told h, hb]; rfl, Nat.le_trans hle (Nat.le_of_eq (version_told b).symm)⟩

/-- and it alone was last notified now. -/
theorem lastNotified_told {inbox inbox' : Inbox} {alert : Alert} {now : DateTime}
    (h : inbox'.alerts = inbox.alerts.update (·.id == alert.id) (Alert.tell now) (Alert.tell_key now))
    (hshown : alertById inbox alert.id = some alert) (id : Uuid) :
    lastNotified inbox' id = if alert.id = id then some now else lastNotified inbox id := by
  rw [lastNotified, alertById_told h]
  split
  · rename_i heq
    rw [← heq, hshown, Option.map_some, Table.change_pos (by simp)]
    rfl
  · rename_i hne
    rw [lastNotified]
    cases hb : alertById inbox id with
    | none => rfl
    | some b =>
      have hb : (b.id == alert.id) = false := by
        rw [(alertById_some hb).2]
        exact beq_eq_false_iff_ne.mpr fun h => hne h.symm
      rw [Option.map_some, Table.change_neg (p := fun a : Alert => a.id == alert.id) hb]

section
variable [Sha256]

theorem recordRisk_effect {r : RecordRisk} {inbox inbox' : Inbox} {result : Option AlertRecordResult}
    (h : recordRisk inbox r = .ok (inbox', result)) : Effect ⟨.recordRisk r, inbox, inbox', result⟩ := by
  obtain ⟨rfl, hn⟩ | ⟨alerts, alert, previousLevel, res, hraise, rfl, hocc⟩ := recordRisk_cases h
  · refine .of_quiet ?_ ⟨.refl _, rfl⟩ rfl rfl
    cases result with
    | none => rfl
    | some res =>
      have hn := hn res rfl
      obtain ⟨id, occurrenceCreated, notificationCreated, version⟩ := res
      cases hn
      rfl
  obtain ⟨hoccurs, hid, hver, hnotify, hcase⟩ := occur_cases hocc
  obtain ⟨hshown, hlast, hprev, hpast⟩ := hraise.shows
  obtain ⟨hages, hstamps⟩ := hraise.ages
  obtain ⟨id, occurrenceCreated, notificationCreated, version⟩ := res
  simp only at hid hver hnotify hcase
  subst hid hver
  obtain ⟨rfl, halerts, hout⟩ | ⟨rfl, halerts, eventType, payload, event, hout⟩ := hcase
  · have heq : inbox' = ⟨alerts, inbox'.occurrences, inbox.outbox⟩ := by rw [← hout, ← halerts]
    refine ⟨?_, fun id => ?_, .inr ⟨_, hoccurs⟩, fun _ => hout, fun _ _ _ he => by cases he⟩
    · rw [heq]
      exact hages
    · show lastNotified inbox' id = lastNotified inbox id
      rw [heq, ← hstamps]
      rfl
  · refine ⟨hages.tell halerts, fun id => ?_, .inr ⟨_, hoccurs⟩, fun hn => (by cases hn), fun r' id version he => ?_⟩
    · show lastNotified inbox' id = if alert.id = id then some r.now else lastNotified inbox id
      rw [lastNotified_told halerts hshown, hstamps]
    · cases he
      have hfind := @alertById_told { inbox with alerts } inbox' alert r.now alert.id halerts
      rw [hshown] at hfind
      refine ⟨⟨_, hfind, Nat.le_of_eq (version_told alert).symm⟩, hpast, ?_, eventType, payload, event, hout⟩
      rw [hnotify, hlast, ← hprev]

theorem run_effect {op : Op} {s s' : Session} {result : Option AlertRecordResult} (h : op.run s = .ok (s', result)) :
    Effect ⟨op, s.inbox, s'.inbox, result⟩ := by
  cases op with
  | recordRisk r =>
    simp only [Op.run] at h
    cases hrec : recordRisk s.inbox r with
    | error e => rw [hrec] at h; cases h
    | ok p =>
      rw [hrec] at h
      cases h
      exact recordRisk_effect hrec
  | transition t seen auditId now =>
    simp only [Op.run] at h
    cases htr : transition seen s.inbox s.audit auditId now t with
    | error e => rw [htr] at h; cases h
    | ok p =>
      rw [htr] at h
      cases h
      obtain ⟨⟨inbox', audit'⟩, done⟩ := p
      obtain heq | heq := transition_moves htr
      · refine .of_quiet rfl ⟨?_, ?_⟩ ?_ ?_ <;> simp only [heq]
        exact .refl _
      · refine .of_quiet rfl ?_ ?_ ?_ <;> simp only [heq]
        exact update_ages (f := t.move) (fun _ => Nat.le_succ _) fun _ => rfl
  | resolveActiveRisk environment subjectId riskType =>
    cases h
    exact .of_quiet rfl (update_ages (f := Alert.resolve) (fun _ => Nat.le_succ _) fun _ => rfl) rfl rfl

end

/-! ## What a run keeps -/

structure Inv (events : List Event) (inbox : Inbox) : Prop where
  /-- Each key in the outbox is of an alert, at a version it has reached. -/
  keys : ∀ e ∈ inbox.outbox.rows, ∃ id version a, e.consumerKey = alertKey id version ∧
    alertById inbox id = some a ∧ version ≤ a.version
  lastTold : ∀ id, lastNotified inbox id = lastTold events id
  numbered : ∀ id, (inbox.occurrences.rows.filter (·.alertId == id)).map AlertOccurrence.sequenceNumber =
    List.range' 1 (inbox.occurrences.count (·.alertId == id))

/-- The key of a new notification is in no event yet, so the outbox takes it. -/
theorem Effect.tells {events : List Event} {e : Event} (h : Effect e) (hI : Inv events e.before) {r : RecordRisk}
    {id : Uuid} {version : Nat} (hn : e.notification = some (r, id, version)) :
    (∀ o ∈ e.before.outbox.rows, o.consumerKey ≠ alertKey id version) ∧
    ∃ o, e.after.outbox.rows = e.before.outbox.rows ++ [o] ∧ o.consumerKey = alertKey id version := by
  obtain ⟨_, hpast, _, eventType, payload, event, hout⟩ := h.told r id version hn
  have hnew : ∀ o ∈ e.before.outbox.rows, o.consumerKey ≠ alertKey id version := by
    intro o ho hkey
    obtain ⟨id', version', a, hk, ha, hle⟩ := hI.keys o ho
    obtain ⟨rfl, rfl⟩ := alertKey_inj.mp (hk.symm.trans hkey)
    exact Nat.not_lt_of_le hle (hpast a ha)
  refine ⟨hnew, ?_⟩
  unfold OutboxRepository.append at hout
  split at hout
  · rename_i o ho
    have hkey := Table.find?_holds ho
    simp only [Bool.and_eq_true, beq_iff_eq] at hkey
    exact absurd hkey.2 (hnew o (Table.find?_mem ho))
  · simp only at hout
    split at hout
    · rename_i outbox hins
      cases hout
      exact ⟨_, Table.insert_rows hins, rfl⟩
    · cases hout

theorem Occurs.numbered {inbox inbox' : Inbox} {id₀ : Uuid} (h : Occurs inbox inbox' id₀)
    (hn : ∀ id, (inbox.occurrences.rows.filter (·.alertId == id)).map AlertOccurrence.sequenceNumber =
      List.range' 1 (inbox.occurrences.count (·.alertId == id))) (id : Uuid) :
    (inbox'.occurrences.rows.filter (·.alertId == id)).map AlertOccurrence.sequenceNumber =
      List.range' 1 (inbox'.occurrences.count (·.alertId == id)) := by
  obtain ⟨o, hrows, rfl, hseq⟩ := h
  rw [Table.count, hrows, List.filter_append, List.map_append, List.countP_append, hn id]
  by_cases hid : o.alertId = id
  · subst hid
    simp only [beq_self_eq_true, List.filter_cons_of_pos, List.filter_nil, List.map_cons, List.map_nil,
      List.countP_cons_of_pos, List.countP_nil, hseq]
    rw [List.range'_concat, Nat.one_mul, Nat.add_comm 1]
    rfl
  · simp [hid, Table.count]

theorem Inv.step {events : List Event} {e : Event} (hI : Inv events e.before) (h : Effect e) :
    Inv (events ++ [e]) e.after := by
  refine ⟨fun o ho => ?_, fun id => ?_, ?_⟩
  · have old : o ∈ e.before.outbox.rows → ∃ id version a, o.consumerKey = alertKey id version ∧
        alertById e.after id = some a ∧ version ≤ a.version := by
      intro ho
      obtain ⟨id, version, a, hk, ha, hle⟩ := hI.keys o ho
      obtain ⟨b, hb, hab⟩ := h.ages id a ha
      exact ⟨id, version, b, hk, hb, Nat.le_trans hle hab⟩
    cases hn : e.notification with
    | none => exact old (by rwa [h.quiet hn] at ho)
    | some told =>
      obtain ⟨r, id, version⟩ := told
      obtain ⟨_, o', hrows, hkey⟩ := h.tells hI hn
      rw [hrows] at ho
      rcases List.mem_append.mp ho with ho | ho
      · exact old ho
      · obtain ⟨⟨b, hb, hle⟩, _⟩ := h.told r id version hn
        exact ⟨id, version, b, by rw [List.mem_singleton.mp ho]; exact hkey, hb, hle⟩
  · rw [h.stamps, hI.lastTold, Alerts.lastTold, Alerts.lastTold, List.foldl_append]
    rfl
  · rcases h.occurs with hocc | ⟨id, hocc⟩
    · rw [hocc]
      exact hI.numbered
    · exact hocc.numbered hI.numbered

/-- The last notification of an alert is the one none follows. -/
theorem lastTold_of_last {first mid : List Event} {e : Event} {r : RecordRisk} {id : Uuid} {version : Nat}
    (he : e.notification = some (r, id, version))
    (hmid : ∀ m ∈ mid, ∀ r' version', m.notification ≠ some (r', id, version')) :
    lastTold (first ++ e :: mid) id = some r.now := by
  rw [lastTold, List.foldl_append, List.foldl_cons]
  have hstamp : ∀ last, e.stamp id last = some r.now := fun last => by simp [Event.stamp, he]
  rw [hstamp]
  clear hstamp he
  induction mid with
  | nil => rfl
  | cons m mid ih =>
    have hm : m.stamp id (some r.now) = some r.now := by
      unfold Event.stamp
      split
      · rename_i r' told version' hm
        refine if_neg fun heq => hmid m List.mem_cons_self r' version' ?_
        rw [hm, heq]
      · rfl
    rw [List.foldl_cons, hm]
    exact ih fun m' hm' => hmid m' (List.mem_cons_of_mem _ hm')

section
variable [Sha256]

theorem Run.inv {events : List Event} {s : Session} (h : Run events s) : Inv events s.inbox := by
  induction h with
  | nil => exact ⟨fun e he => (nomatch he), fun _ => rfl, fun _ => rfl⟩
  | snoc _ hop ih => exact ih.step (run_effect hop)

/-- An operation of a run starts from what those before it left. -/
theorem Run.at {events : List Event} {s : Session} (h : Run events s) : ∀ {first e rest}, events = first ++ e :: rest →
    Inv first e.before ∧ Effect e := by
  induction h with
  | nil => intro first e rest heq; simp at heq
  | snoc hrun hop ih =>
    intro first e rest heq
    rcases List.eq_nil_or_concat rest with rfl | ⟨rest', last, rfl⟩
    · obtain ⟨rfl, hlast⟩ := List.append_inj' heq rfl
      cases hlast
      exact ⟨hrun.inv, run_effect hop⟩
    · rw [List.concat_eq_append, ← List.cons_append, ← List.append_assoc] at heq
      exact ih (List.append_inj' heq rfl).1

/-- In every run: (a) a call that reports a notification puts a new event, under a key
    never used, in the outbox, and nothing else does; (b) of two notifications of an alert
    in a row, closer than the cooldown, the later raised the severity recorded just before
    it or carried important evidence; (c) notifications are of high and critical levels;
    (d) the occurrences of an alert are numbered from 1 in the order they were inserted. -/
theorem notifications_accounted {events : List Event} {s : Session} (h : Run events s) :
    (∀ e ∈ events, match e.notification with
      | some (_, id, version) => (∀ o ∈ e.before.outbox.rows, o.consumerKey ≠ alertKey id version) ∧
          ∃ o, e.after.outbox.rows = e.before.outbox.rows ++ [o] ∧ o.consumerKey = alertKey id version
      | none => e.after.outbox = e.before.outbox) ∧
    (∀ first e₁ mid e₂ rest id r₁ r₂ v₁ v₂, events = first ++ e₁ :: mid ++ e₂ :: rest →
      e₁.notification = some (r₁, id, v₁) → e₂.notification = some (r₂, id, v₂) →
      (∀ m ∈ mid, ∀ r v, m.notification ≠ some (r, id, v)) → r₂.now - r₁.now < r₂.cooldown →
        (∃ a, alertById e₂.before id = some a ∧ rank a.severity < rank r₂.level) ∨ r₂.importantNewEvidence = true) ∧
    (∀ e ∈ events, ∀ r id version, e.notification = some (r, id, version) →
      r.level = .high ∨ r.level = .critical) ∧
    ∀ id, (s.inbox.occurrences.rows.filter (·.alertId == id)).map AlertOccurrence.sequenceNumber =
      List.range' 1 (s.inbox.occurrences.count (·.alertId == id)) := by
  have at_mem : ∀ e ∈ events, ∃ first, Inv first e.before ∧ Effect e := by
    intro e he
    obtain ⟨first, rest, heq⟩ := List.append_of_mem he
    exact ⟨first, h.at heq⟩
  refine ⟨fun e he => ?_, ?_, fun e he r id version hn => ?_, h.inv.numbered⟩
  · obtain ⟨first, hI, heff⟩ := at_mem e he
    split
    · rename_i hn
      exact heff.tells hI hn
    · rename_i hn
      exact heff.quiet hn
  · intro first e₁ mid e₂ rest id r₁ r₂ v₁ v₂ heq h₁ h₂ hmid hclose
    obtain ⟨hI, heff⟩ := h.at heq
    obtain ⟨_, _, hnotify, _⟩ := heff.told r₂ id v₂ h₂
    rw [hI.lastTold, lastTold_of_last h₁ hmid] at hnotify
    obtain ⟨_, hraised | himportant | hcool⟩ := shouldNotify_iff.mp hnotify
    · have hstamp : (alertById e₂.before id).bind Alert.lastNotifiedAt = some r₁.now := by
        rw [← lastTold_of_last h₁ hmid, ← hI.lastTold]
        rfl
      obtain ⟨a, ha, _⟩ := Option.bind_eq_some_iff.mp hstamp
      exact .inl ⟨a, ha, hraised a.severity (by rw [ha]; rfl)⟩
    · exact .inr himportant
    · exact absurd hclose (Int.not_lt.mpr (hcool r₁.now rfl))
  · obtain ⟨first, hI, heff⟩ := at_mem e he
    obtain ⟨_, _, hnotify, _⟩ := heff.told r id version hn
    exact (shouldNotify_iff.mp hnotify).1

end

def sampleRisk (level : RiskLevel) (evidence : String) (now : DateTime) : RecordRisk :=
  { environment := .dev, subjectId := "employee-1", riskType := "overload", scoringWindow := "2026-08-24",
    riskResultId := 0, level := level, evidenceFingerprint := evidence, correlationId := "scan-1", now := now }

/-- High, and a minute later critical. -/
def sampleEscalation : List Op :=
  [.recordRisk (sampleRisk .high "two overdue" 0), .recordRisk (sampleRisk .critical "three overdue" (minutes 1))]

theorem notifications_accounted_escalation :
    letI := Sha256.transparent
    ∃ events s, play [] .empty sampleEscalation = .ok (events, s) ∧ s.inbox.outbox.rows.length = 2 ∧
      (s.inbox.occurrences.rows.filter (·.alertId == 0)).map AlertOccurrence.sequenceNumber =
        List.range' 1 (s.inbox.occurrences.count (·.alertId == 0)) := by
  let _ := Sha256.transparent
  have told : (play [] .empty sampleEscalation).toOption.map (·.2.inbox.outbox.rows.length) = some 2 := by decide
  obtain ⟨⟨events, s⟩, hp, hl⟩ := Option.map_eq_some_iff.mp told
  have hp : play [] .empty sampleEscalation = .ok (events, s) := by
    revert hp
    cases play [] .empty sampleEscalation with
    | error e => exact fun h => (nomatch h)
    | ok p => exact fun h => congrArg _ (Option.some.inj h)
  exact ⟨events, s, hp, hl, (notifications_accounted (play_run .nil hp)).2.2.2 0⟩

end WorkforceRisk.Alerts
