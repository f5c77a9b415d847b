/-
  WorkforceRisk.Scans.LatestRisk — whether the inbox shows an employee's latest risk.

  `Shown.next` is what the inbox is for: a result above low puts its level and evidence
  on the day's alert and makes it active, a low one closes it. The stored alert follows
  it as long as no result is `Hidden`: one with the level and the evidence the closed
  alert has. That result is taken for a repetition and the alert stays closed, so the
  inbox reflects every result of a day exactly when none is hidden
  (`inbox_reflects_iff`).
-/

import WorkforceRisk.Alerts.Inbox
import WorkforceRisk.Scans.Sink

namespace WorkforceRisk.Scans

open Lib Persistence Risk Alerts

/-- What the alert of a day shows. -/
structure Shown where
  level : RiskLevel
  evidenceFingerprint : String
  active : Bool
  deriving DecidableEq

def Shown.of (a : Alert) : Shown := ⟨a.severity, a.evidenceFingerprint, a.state.isActive⟩

/-- The inbox after a result of the level: above low, the alert of the day shows it and
    is active; at low, no overload alert of the employee is active. -/
def Reflects (inbox : Inbox) (environment : Environment) (employee window : String) : RiskLevel → Prop
  | .low => ∀ a ∈ inbox.alerts.rows,
      a.environment = environment → a.subjectId = employee → a.riskType = "overload" → a.state.isActive = false
  | level => ∃ a ∈ inbox.alerts.rows, a.environment = environment ∧ a.risk = (employee, "overload", window) ∧
      a.severity = level ∧ a.state.isActive = true

section
variable [Sha256]

/-- Above low or not, what a stored result makes the alert of its day show. -/
def Shown.next (environment : Environment) (shown : Option Shown) (s : ScanResult) : Option Shown :=
  if ¬ s.ofEnvironment environment then shown
  else match s.result.level with
    | none => shown
    | some .low => shown.map fun d => { d with active := false }
    | some level => some ⟨level, s.fingerprint, true⟩

def shownAfter (environment : Environment) (start : Option Shown) (results : List ScanResult) : Option Shown :=
  results.foldl (Shown.next environment) start

/-- A result above low, with the level and the evidence of the closed alert. -/
def Hidden (environment : Environment) (shown : Option Shown) (s : ScanResult) : Prop :=
  s.ofEnvironment environment ∧ ∃ level, s.result.level = some level ∧ level ≠ .low ∧
    shown = some ⟨level, s.fingerprint, false⟩

/-- The deduplication key of the employee's alert of the day is that of no other alert. -/
def OwnKey (inbox : Inbox) (environment : Environment) (employee window : String) : Prop :=
  ∀ a ∈ inbox.alerts.rows, a.environment = environment →
    (a.dedupKey = alertDedupKey employee "overload" window ↔ a.risk = (employee, "overload", window))

def dayAlert (inbox : Inbox) (environment : Environment) (employee window : String) : Option Alert :=
  inbox.alertOf environment (alertDedupKey employee "overload" window)

structure Tracks (environment : Environment) (employee window : String) (shown : Option Shown) (inbox : Inbox) :
    Prop where
  key : OwnKey inbox environment employee window
  alert : (dayAlert inbox environment employee window).map Shown.of = shown

variable {environment : Environment} {employee window : String} {inbox inbox' : Inbox} {shown : Option Shown}

theorem ownKey_empty : OwnKey .empty environment employee window := fun _ ha => absurd ha List.not_mem_nil

theorem OwnKey.of_identities (h : OwnKey inbox environment employee window)
    (hid : ∀ i ∈ inbox'.alerts.rows.map Alert.identity, i ∈ inbox.alerts.rows.map Alert.identity ∨
      i = ((environment, alertDedupKey employee "overload" window), (employee, "overload", window))) :
    OwnKey inbox' environment employee window := by
  intro a ha henv
  rcases hid _ (List.mem_map_of_mem ha) with hold | hnew
  · obtain ⟨b, hb, hba⟩ := List.mem_map.mp hold
    simp only [Alert.identity, Prod.mk.injEq] at hba
    rw [← hba.1.2, ← hba.2]
    exact h b hb (hba.1.1.trans henv)
  · simp only [Alert.identity, Prod.mk.injEq] at hnew
    rw [hnew.1.2, hnew.2]
    exact iff_of_true rfl rfl

/-- The day's alert is the one row about the employee's overload of that day. -/
theorem dayAlert_of_row (h : OwnKey inbox environment employee window) {a : Alert} (ha : a ∈ inbox.alerts.rows)
    (henv : a.environment = environment) (hrisk : a.risk = (employee, "overload", window)) :
    dayAlert inbox environment employee window = some a :=
  alertOf_eq_some ha henv ((h a ha henv).mpr hrisk)

theorem dayAlert_risk (h : OwnKey inbox environment employee window) {a : Alert}
    (ha : dayAlert inbox environment employee window = some a) : a.risk = (employee, "overload", window) := by
  obtain ⟨hmem, henv, hkey⟩ := alertOf_holds ha
  exact (h a hmem henv).mp hkey

/-- An active alert of the level in the inbox is the day's. -/
theorem reflects_of_dayAlert (h : OwnKey inbox environment employee window) {a : Alert} {level : RiskLevel}
    (ha : dayAlert inbox environment employee window = some a) (hl : level ≠ .low) (hs : a.severity = level)
    (hact : a.state.isActive = true) : Reflects inbox environment employee window level := by
  obtain ⟨hmem, henv, _⟩ := alertOf_holds ha
  cases level with
  | low => exact absurd rfl hl
  | _ => exact ⟨a, hmem, henv, dayAlert_risk h ha, hs, hact⟩

theorem not_reflects_of_closed (h : OwnKey inbox environment employee window) {a : Alert} {level : RiskLevel}
    (ha : dayAlert inbox environment employee window = some a) (hl : level ≠ .low) (hact : a.state.isActive = false) :
    ¬ Reflects inbox environment employee window level := by
  have hno : ¬ ∃ b ∈ inbox.alerts.rows, b.environment = environment ∧ b.risk = (employee, "overload", window) ∧
      b.severity = level ∧ b.state.isActive = true := by
    intro h'
    obtain ⟨b, hb, henv, hrisk, _, hb_act⟩ := h'
    have hba := dayAlert_of_row h hb henv hrisk
    rw [ha] at hba
    cases hba
    rw [hact] at hb_act
    cases hb_act
  cases level with
  | low => exact absurd rfl hl
  | _ => exact hno

/-! ## One result -/

variable {s : ScanResult}

theorem report_key (riskId : Uuid) (hsub : s.result.subjectId = employee) (hwin : s.scoringWindow = window)
    (level : RiskLevel) :
    (s.report environment riskId level).dedupKey = alertDedupKey employee "overload" window := by
  rw [← hsub, ← hwin]
  rfl

/-- A low result. -/
theorem reportRisk_low (riskId : Uuid) (h : Tracks environment employee window shown inbox)
    (hsub : s.result.subjectId = employee) (hl : s.result.level = some .low) :
    ∃ inbox' alert, reportRisk environment inbox riskId s = .ok (inbox', alert) ∧
      Tracks environment employee window (shown.map fun d => { d with active := false }) inbox' ∧
      Reflects inbox' environment employee window .low := by
  refine ⟨(resolveActiveRisk inbox environment employee "overload").1, none, ?_, ⟨?_, ?_⟩, resolve_quiet⟩
  · simp only [reportRisk, hl, if_true, hsub]
    exact recordRisk_low rfl
  · exact h.key.of_identities fun i hi => .inl (by rwa [resolve_identities] at hi)
  · rw [← h.alert]
    cases ha : dayAlert inbox environment employee window with
    | none => rw [dayAlert, resolveActiveRisk, alertOf_update, show inbox.alertOf _ _ = none from ha]; rfl
    | some a =>
      have hrisk := dayAlert_risk h.key ha
      obtain ⟨b, hb, _, hsev, hfp, hact⟩ :=
        alertOf_resolve ha (congrArg Prod.fst hrisk) (congrArg (·.2.1) hrisk)
      rw [dayAlert, hb]
      simp [Shown.of, hsev, hfp, hact]

theorem Tracks.reflects {level : RiskLevel} {fingerprint : String}
    (h : Tracks environment employee window (some ⟨level, fingerprint, true⟩) inbox) (hl : level ≠ .low) :
    Reflects inbox environment employee window level := by
  obtain ⟨a, ha, hshown⟩ := Option.map_eq_some_iff.mp h.alert
  simp only [Shown.of, Shown.mk.injEq] at hshown
  exact reflects_of_dayAlert h.key ha hl hshown.1 hshown.2.2

theorem reportRisk_above (riskId : Uuid) {level : RiskLevel} (hl : s.result.level = some level) (hne : level ≠ .low) :
    reportRisk environment inbox riskId s = recordRisk inbox (s.report environment riskId level) := by
  simp only [reportRisk, hl, if_neg hne]

/-- A result above low that is not hidden. -/
theorem reportRisk_raised (riskId : Uuid) (h : Tracks environment employee window shown inbox)
    (hsub : s.result.subjectId = employee) (hwin : s.scoringWindow = window) {level : RiskLevel}
    (hl : s.result.level = some level) (hne : level ≠ .low)
    (hvis : shown ≠ some ⟨level, s.fingerprint, false⟩) :
    ∃ inbox' alert, reportRisk environment inbox riskId s = .ok (inbox', alert) ∧
      Tracks environment employee window (some ⟨level, s.fingerprint, true⟩) inbox' := by
  have hkey : (s.report environment riskId level).dedupKey = _ := report_key riskId hsub hwin level
  rw [reportRisk_above riskId hl hne]
  cases ha : dayAlert inbox environment employee window with
  | none =>
    obtain ⟨inbox', result, id, told, hrec, hof, hid⟩ :=
      recordRisk_new (r := s.report environment riskId level) hne (by rw [hkey]; exact ha)
    rw [hkey] at hof hid
    refine ⟨inbox', _, hrec, h.key.of_identities fun i hi => ?_, ?_⟩
    · rw [hid, List.mem_append, List.mem_singleton] at hi
      refine hi.imp_right fun hi => hi.trans ?_
      rw [← hsub, ← hwin]
      rfl
    · rw [dayAlert, show inbox'.alertOf environment _ = _ from hof]
      rfl
  | some a =>
    by_cases hrep : a.evidenceFingerprint = s.fingerprint ∧ a.severity = level
    · -- a repetition of what the active alert shows
      refine ⟨inbox, _, recordRisk_repeated (r := s.report environment riskId level) hne (by rw [hkey]; exact ha) hrep,
        h.key, ?_⟩
      have hshown := h.alert
      rw [ha, Option.map_some, Shown.of, hrep.1, hrep.2] at hshown ⊢
      cases hact : a.state.isActive with
      | true => rfl
      | false =>
        rw [hact] at hshown
        exact absurd hshown.symm hvis
    · obtain ⟨inbox', result, told, hrec, hof, hid⟩ :=
        recordRisk_revised (r := s.report environment riskId level) hne (by rw [hkey]; exact ha) hrep
      rw [hkey] at hof
      refine ⟨inbox', _, hrec, h.key.of_identities fun i hi => .inl (by rwa [hid] at hi), ?_⟩
      rw [dayAlert, show inbox'.alertOf environment _ = _ from hof, Option.map_some]
      have hact := revise_active (s.report environment riskId level) a
      exact congrArg some (congrArg (Shown.mk level s.fingerprint) hact)

/-- A hidden result leaves the inbox as it is, the alert closed. -/
theorem reportRisk_hidden (riskId : Uuid) {level : RiskLevel}
    (h : Tracks environment employee window (some ⟨level, s.fingerprint, false⟩) inbox)
    (hsub : s.result.subjectId = employee) (hwin : s.scoringWindow = window) (hl : s.result.level = some level)
    (hne : level ≠ .low) :
    ∃ alert, reportRisk environment inbox riskId s = .ok (inbox, alert) ∧
      ¬ Reflects inbox environment employee window level := by
  obtain ⟨a, ha, hshown⟩ := Option.map_eq_some_iff.mp h.alert
  simp only [Shown.of, Shown.mk.injEq] at hshown
  rw [reportRisk_above riskId hl hne]
  exact ⟨_, recordRisk_repeated (r := s.report environment riskId level) hne
    (by rw [report_key riskId hsub hwin]; exact ha) ⟨hshown.2.1, hshown.1⟩,
    not_reflects_of_closed h.key ha hne hshown.2.2⟩

/-- The employee's result leaves the alert as the inbox should have it, unless hidden. -/
theorem reportRisk_step (riskId : Uuid) (hs : s.ofEnvironment environment)
    (h : Tracks environment employee window shown inbox) (hsub : s.result.subjectId = employee)
    (hwin : s.scoringWindow = window) (hvis : ¬ Hidden environment shown s) :
    ∃ inbox' alert, reportRisk environment inbox riskId s = .ok (inbox', alert) ∧
      Tracks environment employee window (Shown.next environment shown s) inbox' ∧
      ∀ level, s.result.level = some level → Reflects inbox' environment employee window level := by
  unfold Shown.next
  rw [if_neg (not_not.mpr hs)]
  cases hl : s.result.level with
  | none => exact ⟨inbox, none, by simp only [reportRisk, hl], h, fun level hlev => by cases hlev⟩
  | some level =>
    by_cases hlow : level = .low
    · subst hlow
      obtain ⟨inbox', alert, hrep, htracks, hreflects⟩ := reportRisk_low riskId h hsub hl
      exact ⟨inbox', alert, hrep, htracks, fun level hlev => by cases hlev; exact hreflects⟩
    · obtain ⟨inbox', alert, hrep, htracks⟩ := reportRisk_raised riskId h hsub hwin hl hlow
        fun hshown => hvis ⟨hs, level, hl, hlow, hshown⟩
      refine ⟨inbox', alert, hrep, ?_, fun level' hlev => by cases hlev; exact htracks.reflects hlow⟩
      cases level with
      | low => exact absurd rfl hlow
      | _ => exact htracks

/-! ## One call -/

variable {db : Database}

theorem storeEvidence_ok (environment : Environment) (snapshots : Table EvidenceSnapshot) (s : ScanResult) :
    ∃ snapshots' id, storeEvidence environment snapshots s = .ok (snapshots', id) := by
  unfold storeEvidence
  split
  · exact ⟨_, _, rfl⟩
  · rename_i hfind
    obtain ⟨snapshots', hins⟩ := Table.insert_of_fresh (t := snapshots)
      (r := ⟨snapshots.fresh EvidenceSnapshot.id, environment, s.now, "employee", s.result.subjectId, s.fingerprint,
        s.inputData, s.evidenceDossier, s.inputData.evidenceTimestamp.instant⟩) fun row hrow => by
        refine not_clashes_byIdAnd.mpr ⟨snapshots.ne_fresh EvidenceSnapshot.id hrow, fun hk => ?_⟩
        have hno := Table.find?_none hfind row hrow
        simp only [Prod.mk.injEq] at hk
        simp [hk] at hno
    exact ⟨_, _, by simp only [hins]; rfl⟩

/-- Beyond the inbox a call of the environment always goes through. -/
theorem persist_eq (hs : s.ofEnvironment environment) (db : Database) :
    ∃ snapshots risks riskId, ∀ inbox alert, reportRisk environment db.inbox riskId s = .ok (inbox, alert) →
      persist environment db s = .ok (⟨snapshots, risks, inbox⟩, (riskId, alert.map AlertRecordResult.alertId)) := by
  obtain ⟨snapshots, snapshotId, hev⟩ := storeEvidence_ok environment db.snapshots s
  obtain ⟨risks, hins⟩ := Table.insert_of_fresh (t := db.risks)
    (r := ⟨db.risks.fresh RiskResultRecord.id, environment, s.now, snapshotId, "employee_overload", s.result.score,
      s.result.level, s.result.confidence, s.result.scoringModelVersion, s.result.factors, s.result.thresholds,
      s.result.evidenceReferences, s.result.missingEvidence, s.result.excludedEvidence⟩)
    fun row hrow => not_clashes_byUnique.mpr (db.risks.ne_fresh RiskResultRecord.id hrow)
  refine ⟨snapshots, risks, db.risks.fresh RiskResultRecord.id, fun inbox alert hrep => ?_⟩
  simp only [persist, not_not.mpr hs, if_false, hev, storeRisk, hins, inserted, bind, Except.bind, hrep]

theorem persist_step (h : Tracks environment employee window shown db.inbox) (hsub : s.result.subjectId = employee)
    (hwin : s.scoringWindow = window) (hvis : ¬ Hidden environment shown s) :
    Tracks environment employee window (Shown.next environment shown s)
        (Transaction.after (persist environment) db [s]).inbox ∧
      ∀ db' stored level, persist environment db s = .ok (db', stored) → s.result.level = some level →
        Reflects db'.inbox environment employee window level := by
  by_cases hs : s.ofEnvironment environment
  · obtain ⟨snapshots, risks, riskId, hper⟩ := persist_eq hs db
    obtain ⟨inbox, alert, hrep, htracks, hreflects⟩ := reportRisk_step riskId hs h hsub hwin hvis
    have hok := hper inbox alert hrep
    refine ⟨by simpa only [Transaction.after, hok] using htracks, fun db' stored level hp hl => ?_⟩
    rw [hok] at hp
    cases hp
    exact hreflects level hl
  · have herr : persist environment db s = .error (.valueError "scan result environment mismatch") := if_pos hs
    refine ⟨?_, fun db' stored level hp => ?_⟩
    · simpa only [Transaction.after, herr, Shown.next, if_pos hs] using h
    · rw [herr] at hp
      cases hp

theorem persist_hidden (h : Tracks environment employee window shown db.inbox) (hsub : s.result.subjectId = employee)
    (hwin : s.scoringWindow = window) (hhid : Hidden environment shown s) :
    ∃ db' stored level, persist environment db s = .ok (db', stored) ∧ s.result.level = some level ∧
      ¬ Reflects db'.inbox environment employee window level := by
  obtain ⟨hs, level, hl, hne, rfl⟩ := hhid
  obtain ⟨snapshots, risks, riskId, hper⟩ := persist_eq hs db
  obtain ⟨alert, hrep, hno⟩ := reportRisk_hidden riskId h hsub hwin hl hne
  exact ⟨_, _, level, hper _ _ hrep, hl, hno⟩

/-! ## A day of results -/

/-- Each result of the series that is stored is what the inbox then shows. -/
def InboxReflects (environment : Environment) (employee window : String) (db : Database) (results : List ScanResult) :
    Prop :=
  ∀ first s rest, results = first ++ s :: rest → ∀ db' stored level,
    persist environment (Transaction.after (persist environment) db first) s = .ok (db', stored) →
    s.result.level = some level → Reflects db'.inbox environment employee window level

theorem inboxReflects_iff {results : List ScanResult} :
    ∀ {db shown}, Tracks environment employee window shown db.inbox →
      (∀ s ∈ results, s.result.subjectId = employee ∧ s.scoringWindow = window) →
      (InboxReflects environment employee window db results ↔
        ∀ first s rest, results = first ++ s :: rest →
          ¬ Hidden environment (shownAfter environment shown first) s) := by
  induction results with
  | nil => exact fun _ _ => ⟨fun _ _ _ _ h => absurd h (by simp), fun _ _ _ _ h => absurd h (by simp)⟩
  | cons s results ih =>
    intro db shown h hday
    obtain ⟨hsub, hwin⟩ := hday s List.mem_cons_self
    unfold InboxReflects
    rw [forall_split_cons, forall_split_cons]
    by_cases hvis : Hidden environment shown s
    · obtain ⟨db', stored, level, hp, hl, hno⟩ := persist_hidden h hsub hwin hvis
      exact ⟨fun hall => absurd (hall.1 db' stored level hp hl) hno, fun hall => absurd hvis hall.1⟩
    · obtain ⟨htracks, hreflects⟩ := persist_step h hsub hwin hvis
      have hrest := ih htracks fun t ht => hday t (List.mem_cons_of_mem _ ht)
      refine and_congr (iff_of_true hreflects hvis) (Iff.trans ?_ hrest)
      exact forall_congr' fun first => by rw [Transaction.after_cons]

/-- The results of one employee on one day are all what the inbox shows after them,
    exactly when none of them is hidden: none above low has the level and the evidence of
    the day's alert while it is closed. -/
theorem inbox_reflects_iff (environment : Environment) (employee : String) (day : Date) (db : Database)
    (results : List ScanResult)
    (hday : ∀ s ∈ results, s.result.subjectId = employee ∧ s.inputData.evidenceTimestamp.date = day)
    (hkey : OwnKey db.inbox environment employee day.isoformat) :
    InboxReflects environment employee day.isoformat db results ↔
      ∀ first s rest, results = first ++ s :: rest →
        ¬ Hidden environment
          (shownAfter environment ((dayAlert db.inbox environment employee day.isoformat).map Shown.of) first) s :=
  inboxReflects_iff ⟨hkey, rfl⟩ fun s hs => ⟨(hday s hs).1, congrArg Date.isoformat (hday s hs).2⟩

end

/-! ## The evidence of the morning again -/

def sampleInput (overdueTasks : Nat) (at_ : DateTime) : EmployeeOverloadInput :=
  { employeeId := "employee-1"
    environment := .dev
    remainingEstimatedHours := some ⟨40, by decide⟩
    availableCapacityHours := some ⟨32, by decide⟩
    overdueTasks := some overdueTasks
    blockedOrBlockingTasks := some 0
    urgentHighPriorityTasks := some 0
    dueSoonTasks := some 0
    activeTasks := some 4
    concurrentProjects := some 1
    staleTasks := some 0
    evidenceTimestamp := ⟨at_, 0⟩
    evidenceReferences := [] }

def sampleResult (level : RiskLevel) (overdueTasks : Nat) (at_ : DateTime) : ScanResult :=
  { inputData := sampleInput overdueTasks at_
    result :=
      { subjectId := "employee-1"
        environment := .dev
        score := none
        level := some level
        confidence := .high
        scoringModelVersion := "employee-overload-v1"
        factors := []
        thresholds := [("low_max", 39), ("medium_max", 59), ("high_max", 79)]
        evidenceReferences := []
        missingEvidence := []
        excludedEvidence := [] }
    evidenceDossier := none
    correlationId := "scan-1"
    now := at_ }

/-- Two tasks overdue at eight, none at nine, and at ten a third. -/
def sampleRise : List ScanResult :=
  [ sampleResult .medium 2 1787558400000000, sampleResult .low 0 1787562000000000,
    sampleResult .high 3 1787565600000000 ]

theorem inbox_reflects_rise :
    letI := Sha256.transparent
    InboxReflects .dev "employee-1" (Date.isoformat 20689) .empty sampleRise := by
  let _ := Sha256.transparent
  refine (inbox_reflects_iff .dev "employee-1" 20689 .empty sampleRise (by decide +kernel) ownKey_empty).mpr ?_
  unfold sampleRise
  simp only [forall_split_cons]
  refine ⟨?_, ?_, ?_, fun _ _ _ h => absurd h (by simp)⟩
  all_goals
    intro h'
    obtain ⟨_, level, hl, hne, hshown⟩ := h'
    cases hl
  · exact absurd hshown (by decide +kernel)
  · exact absurd rfl hne
  · exact absurd hshown (by decide +kernel)

/-- The same two tasks overdue at eight and at ten, and none at nine. -/
def sampleRepetition : List ScanResult :=
  [ sampleResult .medium 2 1787558400000000, sampleResult .low 0 1787562000000000,
    sampleResult .medium 2 1787565600000000 ]

/-- The result of ten is hidden: the alert stays resolved. -/
theorem inbox_misses_repetition :
    letI := Sha256.transparent
    ¬ ∀ (environment : Environment) (employee : String) (day : Date) (results : List ScanResult),
      (∀ s ∈ results, s.result.subjectId = employee ∧ s.inputData.evidenceTimestamp.date = day) →
      InboxReflects environment employee day.isoformat .empty results := by
  let _ := Sha256.transparent
  intro h
  have hall := h .dev "employee-1" 20689 sampleRepetition (by decide +kernel)
  have hempty : Tracks .dev "employee-1" (Date.isoformat 20689) none Database.empty.inbox := ⟨ownKey_empty, rfl⟩
  have hhidden := (inboxReflects_iff hempty (by decide +kernel)).mp hall
    [sampleResult .medium 2 1787558400000000, sampleResult .low 0 1787562000000000]
    (sampleResult .medium 2 1787565600000000) [] rfl
  exact hhidden ⟨by decide, .medium, rfl, by decide, by decide +kernel⟩

end WorkforceRisk.Scans
