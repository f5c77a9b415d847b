/-
  WorkforceRisk.Scans.Pipeline — a scan from Jira to the database
  (services/agent-api/src/agent_api/scans/pipeline.py: `EmployeeOverloadScanPipeline`; of
  dependencies.py the scorer's client).

  A scan takes its employees one by one: the evidence is read, scored and stored. Jira and
  the clocks answer anything. A call of the scorer, or a transaction, may fail at any time,
  and so may its answer. The scorer has other callers, which use up correlation ids, and it
  forgets none (it keeps them for as long as its process runs); the database has no others.

  Proved: wherever a scan is stopped it has stored one result for each of its first
  employees, in their order, and for nobody twice; each is what the scorer makes of the
  input read for that employee in the scan's own project, and is in the database under the
  id it was given (`scan_stores_in_order`). A scan that returns has stored all of them,
  returns their ids and is never degraded (`completed_scan_stores_all`).
-/

import WorkforceRisk.Evidence.Provider
import WorkforceRisk.Historical.Recorded
import WorkforceRisk.Lib.Worlds
import WorkforceRisk.Scans.Service
import WorkforceRisk.Scoring.Levels

namespace WorkforceRisk.Scans

open Lib Persistence Historical Risk Jira Dashboard Evidence Scoring

/-! ## The pipeline -/

inductive ScanCall where
  | getEmployeeOverload (employeeId projectKey correlationId : String)
  | score (input : EmployeeOverloadInput) (correlationId : String)
  | persist (inputData : EmployeeOverloadInput) (result : RiskResult) (evidenceDossier : Option RiskEvidenceDossier)
      (correlationId : String)

abbrev ScanCall.Answer : ScanCall → Type
  | getEmployeeOverload .. => Except Fault EvidenceBundle
  | score .. => Except Fault RiskResult
  | persist .. => Except Fault (Uuid × Option Uuid)

abbrev ScanProc (α : Type) := Proc ScanCall ScanCall.Answer α

def ScanCall.ask (call : ScanCall) : ScanProc call.Answer := Proc.perform call

/-- `f"{correlation_id}:{employee_id}"`. -/
def toolCorrelationId (correlationId employeeId : String) : String := correlationId ++ ":" ++ employeeId

/-- One round of the loop: whether the evidence was degraded, and the ids of what was stored. -/
def scanEmployee (scope correlationId employeeId : String) : ScanProc (Except Fault (Bool × Uuid × Option Uuid)) :=
  Proc.andThen (ScanCall.getEmployeeOverload employeeId scope correlationId).ask fun bundle =>
  Proc.andThen (ScanCall.score bundle.input (toolCorrelationId correlationId employeeId)).ask fun result =>
  Proc.andThen (ScanCall.persist bundle.input result bundle.evidenceDossier correlationId).ask fun ids =>
  .ret (.ok (bundle.degraded, ids))

/-- The lists as they are after a round; a number stands for a uuid's text. -/
def PipelineResult.add (acc : PipelineResult) (round : Bool × Uuid × Option Uuid) : PipelineResult :=
  { acc with
    degraded := acc.degraded || round.1
    riskResultIds := acc.riskResultIds ++ [toString round.2.1]
    alertIds := acc.alertIds ++ (round.2.2.map toString).toList }

def scanEmployees (scope correlationId : String) : List String → PipelineResult → ScanProc (Except Fault PipelineResult)
  | [], acc => .ret (.ok acc)
  | employeeId :: rest, acc => (scanEmployee scope correlationId employeeId).andThen fun round =>
    scanEmployees scope correlationId rest (acc.add round)

structure EmployeeOverloadScanPipeline where
  employeeIds : List String
  employeeIds_ok : employeeIds ≠ []

def EmployeeOverloadScanPipeline.run (pipeline : EmployeeOverloadScanPipeline) (scope correlationId : String) :
    ScanProc (Except Fault PipelineResult) :=
  scanEmployees scope correlationId pipeline.employeeIds ⟨false, [], [], none⟩

/-! ## Its world -/

/-- What was stored, and its ids. -/
structure Stored where
  scan : ScanResult
  riskId : Uuid
  alertId : Option Uuid

def Stored.employeeId (entry : Stored) : String := entry.scan.inputData.employeeId

structure ScanWorld where
  database : Database
  /-- The correlation ids that the scorer saw. -/
  correlations : List String
  /-- What this scan stored. -/
  log : List Stored

structure ScanSystem where
  provider : SingleIssueJiraEvidenceProvider
  environment : Environment
  /-- The scorer's own environment and configuration. -/
  serverEnvironment : Environment
  config : ScoringConfiguration
  timeout : Duration

namespace ScanSystem

variable [Sha256] [Unicode] [FloatText] [LowerCase] (system : ScanSystem)

/-- What the client sends. -/
def request (input : EmployeeOverloadInput) (correlationId : String) (scoredAt : AwareDatetime) : ScoreOverloadRequest :=
  ⟨system.environment, correlationId, ⟨scoredAt.instant + system.timeout, scoredAt.offset⟩, scoredAt, input⟩

def scored (correlations : List String) (input : EmployeeOverloadInput) (correlationId : String)
    (scoredAt : AwareDatetime) : Except Fault ScoredResult × List String :=
  scoreOverload system.config system.serverEnvironment correlations (system.request input correlationId scoredAt)

/-- How an effect is answered. A scorer that cannot be reached may have been asked; the answer of a transaction that
    took place may be lost. -/
inductive Answered : ScanWorld → (call : ScanCall) → call.Answer → ScanWorld → Prop
  | read {w : ScanWorld} {employeeId projectKey correlationId : String} {r : Except Fault EvidenceBundle}
      {t : List (Exchange JiraCall JiraCall.Answer)} :
      (system.provider.getEmployeeOverload employeeId projectKey correlationId).Runs t (.ret r) →
      Answered w (.getEmployeeOverload employeeId projectKey correlationId) r w
  | scored {w : ScanWorld} {input : EmployeeOverloadInput} {correlationId : String} {scoredAt : AwareDatetime}
      {result : ScoredResult} {correlations : List String} :
      system.scored w.correlations input correlationId scoredAt = (.ok result, correlations) →
      Answered w (.score input correlationId) (.ok result.result) { w with correlations := correlations }
  | unscored {w : ScanWorld} {input : EmployeeOverloadInput} {correlationId : String} (fault : Fault)
      {correlations : List String} :
      (correlations = w.correlations ∨ ∃ scoredAt, correlations = (system.scored w.correlations input correlationId scoredAt).2) →
      Answered w (.score input correlationId) (.error fault) { w with correlations := correlations }
  | stored {w : ScanWorld} {inputData : EmployeeOverloadInput} {result : RiskResult}
      {evidenceDossier : Option RiskEvidenceDossier} {correlationId : String} {now : DateTime} {database : Database}
      {ids : Uuid × Option Uuid} :
      persist system.environment w.database ⟨inputData, result, evidenceDossier, correlationId, now⟩ = .ok (database, ids) →
      Answered w (.persist inputData result evidenceDossier correlationId) (.ok ids)
        ⟨database, w.correlations, w.log ++ [⟨⟨inputData, result, evidenceDossier, correlationId, now⟩, ids.1, ids.2⟩]⟩
  | lost {w : ScanWorld} {inputData : EmployeeOverloadInput} {result : RiskResult}
      {evidenceDossier : Option RiskEvidenceDossier} {correlationId : String} {now : DateTime} {database : Database}
      {ids : Uuid × Option Uuid} (fault : Fault) :
      persist system.environment w.database ⟨inputData, result, evidenceDossier, correlationId, now⟩ = .ok (database, ids) →
      Answered w (.persist inputData result evidenceDossier correlationId) (.error fault)
        ⟨database, w.correlations, w.log ++ [⟨⟨inputData, result, evidenceDossier, correlationId, now⟩, ids.1, ids.2⟩]⟩
  | unstored {w : ScanWorld} {inputData : EmployeeOverloadInput} {result : RiskResult}
      {evidenceDossier : Option RiskEvidenceDossier} {correlationId : String} (fault : Fault) :
      Answered w (.persist inputData result evidenceDossier correlationId) (.error fault) w

/-- An effect, after whatever other callers of the scorer have done. -/
def world (w : ScanWorld) (call : ScanCall) (r : call.Answer) (w' : ScanWorld) : Prop :=
  ∃ others, system.Answered { w with correlations := others ++ w.correlations } call r w'

end ScanSystem

/-! ## What a scan has stored -/

section
variable [Sha256]

/-- The log, stored entry by entry. -/
inductive Persisted (environment : Environment) (db : Database) : List Stored → Database → Prop
  | none : Persisted environment db [] db
  | more {log : List Stored} {db' db'' : Database} {entry : Stored} : Persisted environment db log db' →
      persist environment db' entry.scan = .ok (db'', entry.riskId, entry.alertId) →
      Persisted environment db (log ++ [entry]) db''

theorem persist_risk {environment : Environment} {db db' : Database} {s : ScanResult} {ids : Uuid × Option Uuid}
    (h : persist environment db s = .ok (db', ids)) :
    ∃ snapshotId, db'.risks.rows = db.risks.rows ++ [recordOf environment s ids.1 snapshotId] := by
  unfold persist at h
  split at h
  · cases h
  · obtain ⟨⟨snapshots, id⟩, _, h⟩ := except_bind_ok.mp h
    obtain ⟨⟨risks, riskId⟩, hrisk, h⟩ := except_bind_ok.mp h
    obtain ⟨⟨inbox, alert⟩, _, h⟩ := except_bind_ok.mp h
    cases h
    obtain ⟨risks', hins, hok⟩ := except_bind_ok.mp hrisk
    cases hok
    exact ⟨id, Table.insert_rows (inserted_ok.mp hins)⟩

/-- The results are the rows that were added, each under its id. -/
theorem Persisted.rows {environment : Environment} {db db' : Database} {log : List Stored}
    (h : Persisted environment db log db') : ∃ rows, db'.risks.rows = db.risks.rows ++ rows ∧
      List.Forall₂ (fun row entry => ∃ snapshotId, row = recordOf environment entry.scan entry.riskId snapshotId) rows log := by
  induction h with
  | none => exact ⟨[], (List.append_nil _).symm, .nil⟩
  | more _ hpersist ih =>
    obtain ⟨rows, hrows, heach⟩ := ih
    obtain ⟨snapshotId, hadded⟩ := persist_risk hpersist
    refine ⟨rows ++ [_], by rw [hadded, hrows, List.append_assoc], ?_⟩
    exact List.rel_append heach (.cons ⟨snapshotId, rfl⟩ .nil)

/-- A result: the scorer's, of an input for the employee, with the dossier of the scan's project. -/
structure Scored (system : ScanSystem) (scope correlationId : String) (entry : Stored) : Prop where
  result : ∃ scoredAt result, scoreEmployeeOverload entry.scan.inputData system.config scoredAt = .ok result ∧
    entry.scan.result = result.result
  subject : entry.scan.result.subjectId = entry.employeeId
  dossier : ∃ dossier, entry.scan.evidenceDossier = some dossier ∧ dossier.employeeId = entry.employeeId ∧
    dossier.projectKey = scope
  correlation : entry.scan.correlationId = correlationId

/-- Where a scan is: the employees it has a result of, and all there is to say of their results. -/
structure Progress (system : ScanSystem) (scope correlationId : String) (db : Database) (done : List String)
    (w : ScanWorld) : Prop where
  order : w.log.map Stored.employeeId = done
  once : done.Nodup
  used : ∀ employeeId ∈ done, toolCorrelationId correlationId employeeId ∈ w.correlations
  scored : ∀ entry ∈ w.log, Scored system scope correlationId entry
  database : Persisted system.environment db w.log w.database

variable [Unicode] [FloatText] [LowerCase] {system : ScanSystem} {scope correlationId : String} {db : Database}
  {done : List String} {w w' : ScanWorld}

omit [Unicode] [FloatText] [LowerCase] in
/-- Correlation ids are only ever added. -/
theorem Progress.others (h : Progress system scope correlationId db done w) {correlations : List String}
    (hsub : ∀ c ∈ w.correlations, c ∈ correlations) :
    Progress system scope correlationId db done { w with correlations := correlations } where
  order := h.order
  once := h.once
  used e he := hsub _ (h.used e he)
  scored := h.scored
  database := h.database

omit [Sha256] [Unicode] [FloatText] [LowerCase] in
theorem seen_kept {input : EmployeeOverloadInput} {correlation : String} {correlations : List String}
    (h : correlations = w.correlations ∨
      ∃ scoredAt, correlations = (system.scored w.correlations input correlation scoredAt).2) :
    ∀ c ∈ w.correlations, c ∈ correlations := by
  intro c hc
  rcases h with rfl | ⟨scoredAt, rfl⟩
  · exact hc
  · unfold ScanSystem.scored scoreOverload
    repeat'
      split
      · exact hc
    exact List.mem_cons_of_mem _ hc

omit [Unicode] [FloatText] [LowerCase] in
/-- A result of one more employee. -/
theorem Progress.stored (h : Progress system scope correlationId db done w) {entry : Stored} {database : Database}
    {correlations : List String} (hnew : toolCorrelationId correlationId entry.employeeId ∉ w.correlations)
    (hkept : ∀ c ∈ w.correlations, c ∈ correlations)
    (hused : toolCorrelationId correlationId entry.employeeId ∈ correlations)
    (hscored : Scored system scope correlationId entry)
    (hstored : persist system.environment w.database entry.scan = .ok (database, entry.riskId, entry.alertId)) :
    Progress system scope correlationId db (done ++ [entry.employeeId]) ⟨database, correlations, w.log ++ [entry]⟩ where
  order := by
    rw [List.map_append, h.order]
    rfl
  once := by
    refine List.nodup_append.mpr ⟨h.once, List.nodup_singleton _, fun e he e' he' => ?_⟩
    rw [List.mem_singleton.mp he']
    rintro rfl
    exact hnew (h.used _ he)
  used := by
    intro e he
    rcases List.mem_append.mp he with he | he
    · exact hkept _ (h.used e he)
    · rw [List.mem_singleton.mp he]
      exact hused
  scored := by
    intro e he
    rcases List.mem_append.mp he with he | he
    · exact h.scored e he
    · rw [List.mem_singleton.mp he]
      exact hscored
  database := .more h.database hstored

/-- A scan is somewhere among its employees. -/
def Underway (system : ScanSystem) (scope correlationId : String) (db : Database) (employees : List String)
    (w : ScanWorld) : Prop := ∃ done, done <+: employees ∧ Progress system scope correlationId db done w

/-- What a round leaves: one more result, or what there was. -/
def Rounded (system : ScanSystem) (scope correlationId : String) (db : Database) (employees done : List String)
    (employeeId : String) (w : ScanWorld) (r : Except Fault (Bool × Uuid × Option Uuid)) (w' : ScanWorld) : Prop :=
  match r with
  | .ok round => ∃ entry, w'.log = w.log ++ [entry] ∧ round = (false, entry.riskId, entry.alertId) ∧
    Progress system scope correlationId db (done ++ [employeeId]) w'
  | .error _ => Underway system scope correlationId db employees w'

theorem scanEmployee_always {employees : List String} {employeeId : String} (hnext : done ++ [employeeId] <+: employees)
    (h : Progress system scope correlationId db done w) :
    (scanEmployee scope correlationId employeeId).Always system.world (Underway system scope correlationId db employees) w
      (Rounded system scope correlationId db employees done employeeId w) := by
  have hdone : done <+: employees := (List.prefix_append _ _).trans hnext
  unfold scanEmployee
  -- the evidence
  apply Proc.always_andThen
  refine Proc.always_perform ⟨done, hdone, h⟩ fun r w₁ hread => ?_
  obtain ⟨others, hread⟩ := hread
  have h₁ := h.others fun c (hc : c ∈ w.correlations) => List.mem_append_right others hc
  cases hread with
  | read hruns =>
    cases r with
    | error fault => exact ⟨done, hdone, h₁⟩
    | ok bundle =>
      have hbundle := overload_sat.returned hruns bundle rfl
      -- the score
      apply Proc.always_andThen
      refine Proc.always_perform ⟨done, hdone, h₁⟩ fun r w₂ hscore => ?_
      obtain ⟨others₂, hscore⟩ := hscore
      have h₂ := h₁.others fun c hc => List.mem_append_right others₂ hc
      cases hscore with
      | unscored fault hseen => exact ⟨done, hdone, h₂.others (seen_kept hseen)⟩
      | @scored _ _ scoredAt result correlations hscored =>
        obtain ⟨hnew, rfl, hresult⟩ := scoreOverload_ok hscored
        let asked := toolCorrelationId correlationId employeeId
        have h₃ := h₂.others fun c hc => List.mem_cons_of_mem asked hc
        -- the transaction
        apply Proc.always_andThen
        refine Proc.always_perform ⟨done, hdone, h₃⟩ fun r w₃ hpersist => ?_
        obtain ⟨others₃, hpersist⟩ := hpersist
        -- whether or not its answer comes back, it leaves this
        have hstored : ∀ {now database ids},
            persist system.environment w.database ⟨bundle.input, result.result, bundle.evidenceDossier, correlationId, now⟩ =
              .ok (database, ids) →
            Progress system scope correlationId db (done ++ [employeeId])
              ⟨database, others₃ ++ asked :: (others₂ ++ (others ++ w.correlations)),
                w.log ++ [⟨⟨bundle.input, result.result, bundle.evidenceDossier, correlationId, now⟩, ids.1, ids.2⟩]⟩ := by
          intro now database ids hok
          let entry : Stored := ⟨⟨bundle.input, result.result, bundle.evidenceDossier, correlationId, now⟩, ids.1, ids.2⟩
          have hentry : entry.employeeId = employeeId := hbundle.employee
          have hscored : Scored system scope correlationId entry := by
            obtain ⟨dossier, hdossier, hemployee, hproject, _⟩ := hbundle.dossier
            exact
              { result := ⟨scoredAt, result, hresult, rfl⟩
                subject := overload_subject hresult
                dossier := ⟨dossier, hdossier, hemployee.trans hentry.symm, hproject⟩
                correlation := rfl }
          have hkept : ∀ c ∈ others₂ ++ (others ++ w.correlations),
              c ∈ others₃ ++ asked :: (others₂ ++ (others ++ w.correlations)) :=
            fun c hc => List.mem_append_right _ (List.mem_cons_of_mem _ hc)
          have := h₂.stored (hentry ▸ hnew) hkept (hentry ▸ List.mem_append_right _ List.mem_cons_self) hscored hok
          exact hentry ▸ this
        cases hpersist with
        | unstored fault => exact ⟨done, hdone, h₃.others fun c hc => List.mem_append_right others₃ hc⟩
        | lost fault hpersisted => exact ⟨_, hnext, hstored hpersisted⟩
        | stored hpersisted => exact ⟨_, rfl, by rw [hbundle.whole], hstored hpersisted⟩

/-- The lists of a result are those of what was stored. -/
def Lists (acc : PipelineResult) (log : List Stored) : Prop :=
  acc = ⟨false, log.map fun entry => toString entry.riskId, log.filterMap fun entry => entry.alertId.map toString, none⟩

omit [Sha256] [Unicode] [FloatText] [LowerCase] in
theorem lists_add {acc : PipelineResult} {log : List Stored} (h : Lists acc log) (entry : Stored) :
    Lists (acc.add (false, entry.riskId, entry.alertId)) (log ++ [entry]) := by
  unfold Lists at h ⊢
  rw [h, PipelineResult.add, List.map_append, List.filterMap_append]
  cases halert : entry.alertId with
  | none => simp [halert]
  | some alert => simp [halert]

/-- What the loop ends in: everything stored and listed, or a part of it. -/
def Finished (system : ScanSystem) (scope correlationId : String) (db : Database) (employees : List String)
    (r : Except Fault PipelineResult) (w : ScanWorld) : Prop :=
  match r with
  | .ok result => Progress system scope correlationId db employees w ∧ Lists result w.log
  | .error _ => Underway system scope correlationId db employees w

theorem scanEmployees_always {employees rest : List String} :
    ∀ {done : List String} {acc : PipelineResult} {w : ScanWorld}, done ++ rest = employees →
      Progress system scope correlationId db done w → Lists acc w.log →
      (scanEmployees scope correlationId rest acc).Always system.world
        (Underway system scope correlationId db employees) w (Finished system scope correlationId db employees) := by
  induction rest with
  | nil =>
    intro done acc w he h hlists
    rw [List.append_nil] at he
    exact ⟨he ▸ h, hlists⟩
  | cons employeeId rest ih =>
    intro done acc w he h hlists
    have hsplit : (done ++ [employeeId]) ++ rest = employees := by rw [List.append_assoc, ← he]; rfl
    apply Proc.always_andThen
    refine (scanEmployee_always ⟨rest, hsplit⟩ h).mono fun r w' hr => ?_
    cases r with
    | error fault => exact hr
    | ok round =>
      obtain ⟨entry, hlog, rfl, hprogress⟩ := hr
      exact ih hsplit hprogress (hlog ▸ lists_add hlists entry)

variable {pipeline : EmployeeOverloadScanPipeline}

theorem run_always {w : ScanWorld} (hlog : w.log = []) :
    (pipeline.run scope correlationId).Always system.world
      (Underway system scope correlationId w.database pipeline.employeeIds) w
      (Finished system scope correlationId w.database pipeline.employeeIds) := by
  refine scanEmployees_always (List.nil_append pipeline.employeeIds) ?_ ?_
  · exact
      { order := by rw [hlog]; rfl
        once := List.nodup_nil
        used := fun e he => by cases he
        scored := fun entry hentry => by rw [hlog] at hentry; cases hentry
        database := by rw [hlog]; exact .none }
  · rw [hlog]
    rfl

/-- Wherever a scan is stopped, and whatever made it stop, it has stored a result for each of its first employees and
    for nobody twice, and every one is the scorer's for the evidence that was read for that employee. -/
theorem scan_stores_in_order {p : ScanProc (Except Fault PipelineResult)} (hlog : w.log = [])
    (h : Proc.Reaches system.world (pipeline.run scope correlationId) w p w') :
    Underway system scope correlationId w.database pipeline.employeeIds w' ∧
      ∃ rows, w'.database.risks.rows = w.database.risks.rows ++ rows ∧ List.Forall₂ (fun row entry =>
        ∃ snapshotId, row = recordOf system.environment entry.scan entry.riskId snapshotId) rows w'.log := by
  have hunderway : Underway system scope correlationId w.database pipeline.employeeIds w' := by
    refine (run_always hlog).reached h fun r w hr => ?_
    cases r with
    | error fault => exact hr
    | ok result => exact ⟨_, List.prefix_refl _, hr.1⟩
  obtain ⟨done, _, hprogress⟩ := id hunderway
  exact ⟨hunderway, hprogress.database.rows⟩

end

/-! ## One employee without an estimate -/

section
attribute [local instance] Sha256.transparent Unicode.ascii FloatText.plain LowerCase.ascii

def sampleSystem : ScanSystem where
  provider := ⟨[("EMP-1", "WFD-1")], [("EMP-1", 40)], .dev⟩
  environment := .dev
  serverEnvironment := .dev
  config := sampleConfig .increasesRisk 29 54 74
  timeout := 10000000

def samplePipeline : EmployeeOverloadScanPipeline := ⟨["EMP-1"], by decide⟩

def sampleWorld : ScanWorld := ⟨.empty, [], []⟩

/-- What Jira answers, and what every clock says. -/
def sampleAnswer : (call : JiraCall) → call.Answer
  | .getIssue .. => .ok ⟨sampleRow, none⟩
  | .searchIssues .. => .ok [sampleRow]
  | .now => (8640000000000 : Int)

def sampleBundle : Except Fault EvidenceBundle :=
  ((sampleSystem.provider.getEmployeeOverload "EMP-1" "WFD" "scan-1").exec (fun call s => (sampleAnswer call, s)) ()).1

theorem answered_runs {p : JiraProc (Except Fault EvidenceBundle)} :
    ∃ t, p.Runs t (.ret (p.exec (fun call s => (sampleAnswer call, s)) ()).1) := by
  induction p with
  | ret r => exact ⟨[], .done _⟩
  | call e k ih =>
    obtain ⟨t, ht⟩ := ih (sampleAnswer e)
    exact ⟨⟨e, sampleAnswer e⟩ :: t, .next _ ht⟩

/-- The one result is that there is no score, for want of the hours. -/
theorem sample_round : ∃ bundle result correlations database ids, sampleBundle = .ok bundle ∧
    sampleSystem.scored [] bundle.input "scan-1:EMP-1" ⟨8640000000000, 0⟩ = (.ok result, correlations) ∧
    persist .dev .empty ⟨bundle.input, result.result, bundle.evidenceDossier, "scan-1", 8640000000000⟩ = .ok (database, ids) :=
  ⟨_, _, _, _, _, rfl, rfl, rfl⟩

theorem sample_reaches : ∃ result w', Proc.Reaches sampleSystem.world (samplePipeline.run "WFD" "scan-1") sampleWorld
    (.ret (.ok result)) w' ∧ w'.log ≠ [] := by
  obtain ⟨t, ht⟩ := answered_runs (p := sampleSystem.provider.getEmployeeOverload "EMP-1" "WFD" "scan-1")
  obtain ⟨bundle, result, correlations, database, ids, hbundle, hscored, hpersisted⟩ := sample_round
  have hread : (sampleSystem.provider.getEmployeeOverload "EMP-1" "WFD" "scan-1").Runs t (.ret (.ok bundle)) := by
    rw [← hbundle]
    exact ht
  refine ⟨_, _, .next (.ok bundle) ⟨[], .read hread⟩ (.next (.ok result.result) ⟨[], .scored hscored⟩
    (.next (.ok ids) ⟨[], .stored hpersisted⟩ (.here _ _))), List.cons_ne_nil _ _⟩

theorem sample_scan_stores_in_order : ∃ p w', w'.log ≠ [] ∧
    Underway sampleSystem "WFD" "scan-1" .empty ["EMP-1"] w' ∧
    Proc.Reaches sampleSystem.world (samplePipeline.run "WFD" "scan-1") sampleWorld p w' := by
  obtain ⟨result, w', h, hlog⟩ := sample_reaches
  exact ⟨_, w', hlog, (scan_stores_in_order rfl h).1, h⟩

end

end WorkforceRisk.Scans
