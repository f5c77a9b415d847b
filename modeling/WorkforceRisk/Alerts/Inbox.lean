/-
  WorkforceRisk.Alerts.Inbox — what the two ways into the inbox leave in it.

  `resolve_active_risk` leaves no alert of the subject and risk type active
  (`resolve_quiet`). `record_risk`, above low, always returns and leaves the alert of its
  key with the level and the evidence it was given; but the alert is left closed if it
  was closed with that level and evidence already, since the repetition is found before
  the state is looked at (`recordRisk_shows`).
-/

import WorkforceRisk.Alerts.Repository

namespace WorkforceRisk.Alerts

open Lib Persistence Risk

/-- What an alert is about. -/
def Alert.risk (a : Alert) : String × String × String := (a.subjectId, a.riskType, a.scoringWindow)

section
variable {inbox : Inbox} {environment : Environment} {key : String}

theorem alertOf_holds {a : Alert} (h : inbox.alertOf environment key = some a) :
    a ∈ inbox.alerts.rows ∧ a.environment = environment ∧ a.dedupKey = key := by
  have hp := Table.find?_holds h
  simp only [Bool.and_eq_true, beq_iff_eq] at hp
  exact ⟨Table.find?_mem h, hp.1, hp.2⟩

theorem alertOf_eq_some {a : Alert} (ha : a ∈ inbox.alerts.rows) (henv : a.environment = environment)
    (hkey : a.dedupKey = key) : inbox.alertOf environment key = some a := by
  refine Table.find?_eq_some_of_mem ha (by simp [henv, hkey]) fun b hb => ?_
  simp only [Bool.and_eq_true, beq_iff_eq] at hb
  exact clashes_byIdAnd.mpr (.inr (by rw [hb.1, hb.2, henv, hkey]))

/-- A change of rows that keeps the key columns changes the alert of a key in place. -/
theorem alertOf_update {p : Alert → Bool} {f : Alert → Alert} {hf : ∀ a, Keyed.key (f a) = Keyed.key a}
    {occurrences : Table AlertOccurrence} {outbox : Table OutboxEvent} :
    Inbox.alertOf ⟨inbox.alerts.update p f hf, occurrences, outbox⟩ environment key =
      (inbox.alertOf environment key).map (Table.change p f) := by
  show (inbox.alerts.update p f hf).find? _ = _
  refine Table.find?_update fun a => ?_
  have hk : ((f a).environment, (f a).dedupKey) = (a.environment, a.dedupKey) := congrArg Prod.snd (hf a)
  rw [(Prod.mk.inj hk).1, (Prod.mk.inj hk).2]

/-! ## Resolving -/

theorem resolve_quiet {subjectId riskType : String} :
    ∀ a ∈ (resolveActiveRisk inbox environment subjectId riskType).1.alerts.rows,
      a.environment = environment → a.subjectId = subjectId → a.riskType = riskType → a.state.isActive = false := by
  intro a ha henv hsub htype
  change a ∈ (inbox.alerts.update _ _ Alert.resolve_key).rows at ha
  obtain ⟨b, _, rfl⟩ := Table.mem_update.mp ha
  by_cases hb : isActiveRisk environment subjectId riskType b = true
  · rw [Table.change_pos hb]
    rfl
  · rw [Table.change_neg (by simpa using hb)] at henv hsub htype ⊢
    simpa [isActiveRisk, henv, hsub, htype] using hb

/-- The alert of a key, when it is one of those resolved, is closed and otherwise as it was. -/
theorem alertOf_resolve {subjectId riskType : String} {a : Alert} (h : inbox.alertOf environment key = some a)
    (hsub : a.subjectId = subjectId) (htype : a.riskType = riskType) :
    ∃ b, (resolveActiveRisk inbox environment subjectId riskType).1.alertOf environment key = some b ∧
      b.risk = a.risk ∧ b.severity = a.severity ∧ b.evidenceFingerprint = a.evidenceFingerprint ∧
      b.state.isActive = false := by
  refine ⟨Table.change (isActiveRisk environment subjectId riskType) Alert.resolve a,
    by simp only [resolveActiveRisk, alertOf_update, h, Option.map_some], ?_⟩
  by_cases hact : isActiveRisk environment subjectId riskType a = true
  · rw [Table.change_pos hact]
    exact ⟨rfl, rfl, rfl, rfl⟩
  · rw [Table.change_neg (by simpa using hact)]
    refine ⟨rfl, rfl, rfl, ?_⟩
    simpa [isActiveRisk, (alertOf_holds h).2.1, hsub, htype] using hact

/-! ## Recording -/

/-- The alerts are as before, but the one told has its time. -/
def Told (inbox inbox' : Inbox) (alert : Alert) (now : DateTime) : Prop :=
  inbox'.alerts = inbox.alerts ∨
    inbox'.alerts = inbox.alerts.update (·.id == alert.id) (Alert.tell now) (Alert.tell_key now)

theorem Told.alertOf {inbox' : Inbox} {alert : Alert} {now : DateTime} (h : Told inbox inbox' alert now) {a : Alert}
    (ha : inbox.alertOf environment key = some a) :
    ∃ told, inbox'.alertOf environment key = some { a with lastNotifiedAt := told } := by
  rcases h with h | h
  · exact ⟨a.lastNotifiedAt, by rw [Inbox.alertOf, h]; exact ha⟩
  · have hup : Inbox.alertOf { inbox with alerts := inbox.alerts.update (·.id == alert.id) _ (Alert.tell_key now) }
        environment key = _ := alertOf_update
    refine ⟨if a.id == alert.id then some now else a.lastNotifiedAt, ?_⟩
    rw [Inbox.alertOf, h]
    refine hup.trans ?_
    rw [ha, Option.map_some, Table.change]
    split <;> rfl

theorem occur_ok (inbox : Inbox) (alert : Alert) (previousLevel : Option RiskLevel) (r : RecordRisk) :
    ∃ inbox' result, occur inbox alert previousLevel r = .ok (inbox', result) ∧ Told inbox inbox' alert r.now := by
  obtain ⟨occurrences, hocc⟩ := Table.insert_of_fresh (t := inbox.occurrences)
    (r := ⟨inbox.occurrences.fresh AlertOccurrence.id, r.environment, r.now, alert.id, r.riskResultId,
      inbox.occurrences.count (·.alertId == alert.id) + 1, r.level, r.evidenceFingerprint⟩)
    fun o ho => not_clashes_byUnique.mpr (inbox.occurrences.ne_fresh AlertOccurrence.id ho)
  simp only [occur, hocc, inserted, bind, Except.bind]
  split
  · obtain ⟨outbox, event, hout⟩ := OutboxRepository.append_ok inbox.outbox r.environment
      ("alert:" ++ uuidText alert.id ++ ":v" ++ toString alert.version) "risk_alert.notification_requested"
      (.obj [("alert_id", .str (uuidText alert.id)), ("severity", .str r.level.value),
        ("correlation_id", .str r.correlationId)])
      r.now fun e he => inbox.outbox.ne_fresh OutboxEvent.id he
    rw [hout]
    exact ⟨_, _, rfl, .inr rfl⟩
  · exact ⟨_, _, rfl, .inl rfl⟩

end

/-- An alert's key columns and what it is about. -/
def Alert.identity (a : Alert) : (Environment × String) × String × String × String :=
  ((a.environment, a.dedupKey), a.risk)

theorem Told.identities {inbox inbox' : Inbox} {alert : Alert} {now : DateTime} (h : Told inbox inbox' alert now) :
    inbox'.alerts.rows.map Alert.identity = inbox.alerts.rows.map Alert.identity := by
  rcases h with h | h
  · rw [h]
  · rw [h]
    exact Table.update_keeps (Alert.tell_key now) fun _ => rfl

theorem resolve_identities {inbox : Inbox} {environment : Environment} {subjectId riskType : String} :
    (resolveActiveRisk inbox environment subjectId riskType).1.alerts.rows.map Alert.identity =
      inbox.alerts.rows.map Alert.identity :=
  Table.update_keeps Alert.resolve_key fun _ => rfl

/-- A revised alert is one the manager still has to deal with. -/
theorem revise_active (r : RecordRisk) (a : Alert) : (r.revise a).state.isActive = true := by
  unfold RecordRisk.revise
  cases hs : a.state <;> simp [AlertState.isActive]

section
variable [Sha256] {inbox : Inbox} {r : RecordRisk} {a : Alert}

theorem recordRisk_low (h : r.level = .low) : recordRisk inbox r = .ok (inbox, none) := by
  simp [recordRisk, h, routeRisk]

/-- A risk of a subject that has no alert for the window yet. -/
theorem recordRisk_new (hl : r.level ≠ .low) (h : inbox.alertOf r.environment r.dedupKey = none) :
    ∃ inbox' result id told, recordRisk inbox r = .ok (inbox', some result) ∧
      inbox'.alertOf r.environment r.dedupKey = some { r.newAlert id with lastNotifiedAt := told } ∧
      inbox'.alerts.rows.map Alert.identity =
        inbox.alerts.rows.map Alert.identity ++
          [((r.environment, r.dedupKey), (r.subjectId, r.riskType, r.scoringWindow))] := by
  obtain ⟨alerts, hins⟩ := Table.insert_of_fresh (t := inbox.alerts) (r := r.newAlert (inbox.alerts.fresh Alert.id))
    fun b hb => not_clashes_byIdAnd.mpr ⟨inbox.alerts.ne_fresh Alert.id hb, fun hk => by
      have hno := Table.find?_none h b hb
      rw [(Prod.mk.inj hk).1, (Prod.mk.inj hk).2] at hno
      simp [RecordRisk.newAlert] at hno⟩
  obtain ⟨inbox', result, hocc, htold⟩ :=
    occur_ok { inbox with alerts } (r.newAlert (inbox.alerts.fresh Alert.id)) none r
  have hnew : Inbox.alertOf { inbox with alerts } r.environment r.dedupKey =
      some (r.newAlert (inbox.alerts.fresh Alert.id)) :=
    alertOf_eq_some ((Table.mem_insert hins).mpr (.inr rfl)) rfl rfl
  obtain ⟨told, htoldOf⟩ := htold.alertOf hnew
  refine ⟨inbox', result, _, told, ?_, htoldOf, ?_⟩
  · simp only [recordRisk, routed_iff.mpr hl, h, hins, inserted, bind, Except.bind, hocc]
    rfl
  · rw [htold.identities, show (Inbox.mk alerts inbox.occurrences inbox.outbox).alerts = alerts from rfl,
      Table.insert_rows hins, List.map_append]
    rfl

/-- The shortcut: a repetition changes nothing, whatever the alert's state. -/
theorem recordRisk_repeated (hl : r.level ≠ .low) (h : inbox.alertOf r.environment r.dedupKey = some a)
    (hrep : a.evidenceFingerprint = r.evidenceFingerprint ∧ a.severity = r.level) :
    recordRisk inbox r = .ok (inbox, some ⟨a.id, false, false, a.version⟩) := by
  simp [recordRisk, routed_iff.mpr hl, h, hrep]

theorem recordRisk_revised (hl : r.level ≠ .low) (h : inbox.alertOf r.environment r.dedupKey = some a)
    (hrep : ¬ (a.evidenceFingerprint = r.evidenceFingerprint ∧ a.severity = r.level)) :
    ∃ inbox' result told, recordRisk inbox r = .ok (inbox', some result) ∧
      inbox'.alertOf r.environment r.dedupKey = some { r.revise a with lastNotifiedAt := told } ∧
      inbox'.alerts.rows.map Alert.identity = inbox.alerts.rows.map Alert.identity := by
  obtain ⟨inbox', result, hocc, htold⟩ :=
    occur_ok { inbox with alerts := inbox.alerts.update (·.id == a.id) r.revise r.revise_key } (r.revise a)
      (some a.severity) r
  have hup : Inbox.alertOf { inbox with alerts := inbox.alerts.update (·.id == a.id) r.revise r.revise_key }
      r.environment r.dedupKey = some (r.revise a) := by
    rw [alertOf_update, h, Option.map_some, Table.change_pos (by simp)]
  obtain ⟨told, htoldOf⟩ := htold.alertOf hup
  refine ⟨inbox', result, told, ?_, htoldOf, ?_⟩
  · simp only [recordRisk, routed_iff.mpr hl, h, if_neg hrep, bind, Except.bind, hocc]
    rfl
  · rw [htold.identities]
    exact Table.update_keeps r.revise_key fun _ => rfl

end

end WorkforceRisk.Alerts
