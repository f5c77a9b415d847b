/-
  WorkforceRisk.Evidence.Collector — the evidence a question is answered from
  (services/agent-api/src/agent_api/evidence/collectors.py).

  `collect` asks for a snapshot of the project and, where the plan calls for history and
  there is a reader of it, for the stored history; everything else is derived from the
  snapshot. What the two readers answer is any value or any exception.

  Proved (`collects_unless_refused`): the snapshot is asked for once, the history after it;
  where the project and the call can be named, and no employee or task has an id too long
  for a record of what is missing, the collection fails exactly when the snapshot does.
  A history that cannot be read is recorded as missing and nothing else changes; every
  employee has a capacity or a record that it has none, in the order of the snapshot.
-/

import WorkforceRisk.Evidence.Names
import WorkforceRisk.Evidence.WellFormed
import WorkforceRisk.Lib.Dict
import WorkforceRisk.Lib.StateGraph

namespace WorkforceRisk.Evidence

open Lib Persistence Historical Dashboard

/-- What a call to another part of the system raises. -/
inductive Fault where
  | raised (error : Error)
  | timeoutError (message : String)
  | osError (message : String)
  | specialistUnavailable (message : String)
  | recursionError
  /-- Any other exception, by its class and what it says. -/
  | other (type message : String)
  deriving DecidableEq

/-- The whole bundle; its results, dossiers, comments and operations stay empty. -/
structure CollectedEvidence extends UniversalEvidenceBundle where
  correlationId : String
  projectKey : String
  employeeWorkloadClassifications : Dict String Level
  taskDeliveryRisk : Dict String String
  skills : Dict String (List String)
  seniority : Dict String (Option String)
  rankedCandidates : List RankedCandidate
  candidateRanking : Option CandidateRankingResult
  history : List Json
  missingData : List MissingData
  sourceMetadata : List (List (String × String))
  ambiguousReferences : List EvidenceEntity

/-- `UniversalEvidenceBundle(...)`: the fields that are checked. -/
def CollectedEvidence.validate (bundle : CollectedEvidence) : Except Error CollectedEvidence :=
  if bundle.correlationId.length < 1 then
    .error (.validationError "correlation_id" "String should have at least 1 character")
  else if 128 < bundle.correlationId.length then
    .error (.validationError "correlation_id" "String should have at most 128 characters")
  else if !isProjectKey bundle.projectKey then
    .error (.validationError "project_key" "String should match pattern '^[A-Z][A-Z0-9]{1,19}$'")
  else .ok bundle

/-! ## The readers -/

inductive ReadCall where
  /-- `ProjectEvidenceReader.build`. -/
  | build (projectKey correlationId : String)
  /-- `ProgressHistoryReader.load`. -/
  | load (projectKey correlationId : String)

def ReadCall.Answer : ReadCall → Type
  | build _ _ => Except Fault DashboardSnapshot
  | load _ _ => Except Fault (List Json)

abbrev ReadProc (α : Type) := Proc ReadCall ReadCall.Answer α

def ReadCall.ask (call : ReadCall) : ReadProc call.Answer := Proc.perform call

/-! ## What is derived from the snapshot -/

/-- The history's own record, if it has one. -/
def historyMissing (projectKey : String) (plan : EvidencePlan) : Option (Except Fault (List Json)) → List MissingData
  | none =>
    if .history ∈ plan.evidenceCategories then
      [⟨.history, "historical snapshots are unavailable from this collector", "project:" ++ projectKey, false⟩]
    else []
  | some (.error _) =>
    [⟨.history, "stored progress history is temporarily unavailable", "project:" ++ projectKey, false⟩]
  | some (.ok _) => []

def operationsMissing (projectKey : String) (plan : EvidencePlan) : List MissingData :=
  if .operations ∈ plan.evidenceCategories then
    [⟨.operations, "operations evidence was not requested from DevOps MCP", "project:" ++ projectKey, false⟩]
  else []

/-- `employee.capacity_hours is None or employee.capacity_hours <= 0`. -/
def lacksCapacity (e : EmployeeSummary) : Bool := e.capacityHours.all fun capacity => capacity ≤ 0

def capacityMissing (e : EmployeeSummary) : MissingData :=
  ⟨.capacityAndWorkload, "configured capacity is missing or non-positive", "employee:" ++ e.employeeId, true⟩

def employeeMissing (plan : EvidencePlan) (e : EmployeeSummary) : List MissingData :=
  (if lacksCapacity e then [capacityMissing e] else []) ++
  if .skillsAndSeniority ∈ plan.evidenceCategories ∧ e.skills = [] then
    [⟨.skillsAndSeniority, "documented skills are unavailable", "employee:" ++ e.employeeId, false⟩]
  else []

/-- What is missing of the history, the operations and the employees. -/
def recordMissing (projectKey : String) (plan : EvidencePlan) (snapshot : DashboardSnapshot)
    (loaded : Option (Except Fault (List Json))) : List MissingData :=
  historyMissing projectKey plan loaded ++ operationsMissing projectKey plan ++ snapshot.employees.flatMap (employeeMissing plan)

def deliveryRisk (task : TaskSummary) : String :=
  if task.blocker.any (· != "") || !task.dependencies.isEmpty || task.dueDate.isNone then "high" else "low"

section
variable [TextTables] [LowerCase]

/-- The bundle of a snapshot, before its fields are checked. -/
def bundleOf (plan : EvidencePlan) (projectKey correlationId : String) (snapshot : DashboardSnapshot)
    (loaded : Option (Except Fault (List Json))) (missing : List MissingData) (ranking : Option CandidateRankingResult)
    (answerEvidence : AnswerEvidenceSet) : CollectedEvidence :=
  { plan := plan
    answerEvidence := some answerEvidence
    projectSnapshot := some snapshot
    capacityAndWorkload := snapshot.employees.filterMap capacityOf
    correlationId := correlationId
    projectKey := projectKey
    employeeWorkloadClassifications := .ofPairs (snapshot.employees.map fun e => (e.employeeId, e.level))
    taskDeliveryRisk := .ofPairs (snapshot.tasks.map fun task => (task.key, deliveryRisk task))
    skills := .ofPairs (snapshot.employees.map fun e => (e.employeeId, e.skills))
    seniority := .ofPairs (snapshot.employees.map fun e => (e.employeeId, seniorityOf e))
    rankedCandidates := (ranking.map (·.candidates)).getD []
    candidateRanking := ranking
    history := match loaded with
      | some (.ok history) => history
      | _ => []
    missingData := missing ++ (ranking.map (·.missingData)).getD []
    sourceMetadata := [[("source", "project_snapshot"), ("schema_version", "1.0"),
      ("evidence_timestamp", snapshot.evidenceTimestamp.isoformat), ("correlation_id", snapshot.correlationId)]]
    ambiguousReferences := [] }

/-- What is left to do when the readers have answered. -/
def assemble (plan : EvidencePlan) (projectKey correlationId : String) (selected : Option String) (question : String)
    (previous : Option GroundedAnswerContext) (snapshot : DashboardSnapshot)
    (loaded : Option (Except Fault (List Json))) : Except Error CollectedEvidence := do
  let missing ← validateMissing (recordMissing projectKey plan snapshot loaded)
  let ranking ← candidateRanking question snapshot selected
  let answerEvidence ← buildAnswerEvidence question snapshot plan previous
  (bundleOf plan projectKey correlationId snapshot loaded missing ranking answerEvidence).validate

/-- `UniversalEvidenceCollector.collect`; `reader` says whether there is one of the history. -/
def collect (reader : Bool) (plan : EvidencePlan) (projectKey correlationId : String) (selected : Option String)
    (question : String) (previous : Option GroundedAnswerContext) : ReadProc (Except Fault CollectedEvidence) :=
  Proc.andThen (ReadCall.build projectKey correlationId).ask fun snapshot =>
    let assembled := fun loaded =>
      (assemble plan projectKey correlationId selected question previous snapshot loaded).mapError Fault.raised
    if .history ∈ plan.evidenceCategories ∧ reader = true then
      (ReadCall.load projectKey correlationId).ask.bind fun loaded => .ret (assembled (some loaded))
    else .ret (assembled none)

/-! ## What a collection is -/

/-- No name in it is too long for a record of what is missing. -/
structure Recordable (snapshot : DashboardSnapshot) : Prop where
  keys : ∀ task ∈ snapshot.tasks, task.key.length ≤ 100
  ids : ∀ e ∈ snapshot.employees, e.employeeId.length ≤ 100

/-- A bundle is what the snapshot and the history that was read make it. -/
structure Collected (plan : EvidencePlan) (projectKey correlationId : String) (selected : Option String)
    (question : String) (previous : Option GroundedAnswerContext) (snapshot : DashboardSnapshot)
    (loaded : Option (Except Fault (List Json))) (bundle : CollectedEvidence) : Prop where
  named : bundle.projectKey = projectKey ∧ bundle.correlationId = correlationId
  snapshot_eq : bundle.projectSnapshot = some snapshot
  plan_eq : bundle.plan = plan
  answer : ∃ evidence, buildAnswerEvidence question snapshot plan previous = .ok evidence ∧
    bundle.answerEvidence = some evidence
  /-- Whoever has a capacity is in the one list, whoever has none in the other, in the snapshot's order. -/
  capacity : bundle.capacityAndWorkload.map (·.employeeId) =
    (snapshot.employees.filter fun e => !lacksCapacity e).map fun e => some e.employeeId
  required : bundle.missingData.filter (·.requiredForClaim) = (snapshot.employees.filter lacksCapacity).map capacityMissing
  history_eq : bundle.history = (loaded.bind Except.toOption).getD []
  /-- A history that was called for is there or is recorded as missing. -/
  historyMissing : (∃ item ∈ bundle.missingData, item.category = .history) ↔
    .history ∈ plan.evidenceCategories ∧ loaded.bind Except.toOption = none
  risk : ∀ key, bundle.taskDeliveryRisk.get? key = (snapshot.tasks.reverse.find? (·.key == key)).map deliveryRisk
  ranking : candidateRanking question snapshot selected = .ok bundle.candidateRanking

variable {plan : EvidencePlan} {projectKey correlationId : String} {selected : Option String} {question : String}
  {previous : Option GroundedAnswerContext} {snapshot : DashboardSnapshot} {loaded : Option (Except Fault (List Json))}

/-! ## Nothing is refused -/

omit [TextTables] [LowerCase] in
theorem projectKey_length (h : isProjectKey projectKey = true) : projectKey.length ≤ 20 := by
  rw [isProjectKey] at h
  rw [← String.length_toList]
  cases hl : projectKey.toList with
  | nil => exact Nat.zero_le _
  | cons c cs =>
    rw [hl] at h
    simp only [isProjectKeyChars, Bool.and_eq_true, decide_eq_true_eq] at h
    rw [List.length_cons]
    omega

omit [TextTables] [LowerCase] in
theorem bounded_project (h : isProjectKey projectKey = true) : ("project:" ++ projectKey).length ≤ 128 := by
  have := projectKey_length h
  rw [String.length_append, show "project:".length = 8 from rfl]
  omega

omit [TextTables] [LowerCase] in
theorem bounded_employee {e : EmployeeSummary} (h : e.employeeId.length ≤ 100) :
    ("employee:" ++ e.employeeId).length ≤ 128 := by
  rw [String.length_append, show "employee:".length = 9 from rfl]
  omega

omit [TextTables] [LowerCase] in
/-- What is recorded about the history is about the project, and is there when it was called for and not read. -/
theorem mem_historyMissing (hloaded : loaded.isSome → .history ∈ plan.evidenceCategories) {item : MissingData} :
    item ∈ historyMissing projectKey plan loaded →
      item.category = .history ∧ item.entity = "project:" ++ projectKey ∧ item.requiredForClaim = false ∧
        .history ∈ plan.evidenceCategories ∧ loaded.bind Except.toOption = none := by
  intro h
  unfold historyMissing at h
  cases loaded with
  | none =>
    dsimp only at h
    split at h
    · rename_i hc
      rw [List.mem_singleton.mp h]
      exact ⟨rfl, rfl, rfl, hc, rfl⟩
    · cases h
  | some answer =>
    cases answer with
    | error fault =>
      rw [List.mem_singleton.mp h]
      exact ⟨rfl, rfl, rfl, hloaded rfl, rfl⟩
    | ok history => cases h

omit [TextTables] [LowerCase] in
theorem historyMissing_ne_nil (projectKey : String) (hcalled : .history ∈ plan.evidenceCategories)
    (hnone : loaded.bind Except.toOption = none) :
    ∃ item ∈ historyMissing projectKey plan loaded, item.category = .history := by
  unfold historyMissing
  cases loaded with
  | none =>
    rw [if_pos hcalled]
    exact ⟨_, List.mem_singleton_self _, rfl⟩
  | some answer =>
    cases answer with
    | error fault => exact ⟨_, List.mem_singleton_self _, rfl⟩
    | ok history => cases hnone

omit [TextTables] [LowerCase] in
theorem mem_operationsMissing {item : MissingData} (h : item ∈ operationsMissing projectKey plan) :
    item.category = .operations ∧ item.entity = "project:" ++ projectKey ∧ item.requiredForClaim = false := by
  unfold operationsMissing at h
  split at h
  · rw [List.mem_singleton.mp h]
    exact ⟨rfl, rfl, rfl⟩
  · cases h

omit [TextTables] [LowerCase] in
/-- What is recorded about an employee: that it has no capacity, or no skills. -/
theorem mem_employeeMissing {e : EmployeeSummary} {item : MissingData} (h : item ∈ employeeMissing plan e) :
    item.entity = "employee:" ++ e.employeeId ∧ item.category ≠ .history := by
  rcases List.mem_append.mp h with h | h
  · split at h
    · rw [List.mem_singleton.mp h]
      exact ⟨rfl, nofun⟩
    · cases h
  · split at h
    · rw [List.mem_singleton.mp h]
      exact ⟨rfl, nofun⟩
    · cases h

omit [TextTables] [LowerCase] in
theorem required_employeeMissing (e : EmployeeSummary) : (employeeMissing plan e).filter (·.requiredForClaim) =
    if lacksCapacity e then [capacityMissing e] else [] := by
  unfold employeeMissing
  rw [List.filter_append]
  have hskills : (if .skillsAndSeniority ∈ plan.evidenceCategories ∧ e.skills = [] then
      [(⟨.skillsAndSeniority, "documented skills are unavailable", "employee:" ++ e.employeeId, false⟩ : MissingData)]
      else []).filter (·.requiredForClaim) = [] := by
    split
    · rfl
    · rfl
  rw [hskills, List.append_nil]
  split
  · rfl
  · rfl

omit [TextTables] in
theorem mem_candidateMissing {required : List String} {e : EmployeeSummary} {item : MissingData}
    (h : item ∈ candidateMissing required e) : item.entity = "employee:" ++ e.employeeId ∧
      item.requiredForClaim = false ∧ item.category ≠ .history := by
  rcases List.mem_append.mp h with h | h
  · split at h
    · rw [List.mem_singleton.mp h]
      exact ⟨rfl, rfl, nofun⟩
    · cases h
  · split at h
    · rw [List.mem_singleton.mp h]
      exact ⟨rfl, rfl, nofun⟩
    · cases h

omit [TextTables] [LowerCase] in
theorem rankingResult_missingData (candidates : List RankedCandidate) (missing : List MissingData) :
    (rankingResult candidates missing).missingData = missing := by
  unfold rankingResult
  split
  · rfl
  · split
    · rfl
    · rfl

theorem ranking_of_recordable (h : Recordable snapshot) (source : String) :
    ∃ ranking, rankReassignmentCandidates snapshot source = .ok ranking ∧
      ∀ item ∈ ranking.missingData, item.requiredForClaim = false ∧ item.category ≠ .history := by
  have hmissing : ∀ item ∈ (others snapshot source).flatMap (candidateMissing (requiredSkills snapshot source)),
      item.entity.length ≤ 128 ∧ item.requiredForClaim = false ∧ item.category ≠ .history := by
    intro item hitem
    obtain ⟨e, he, hin⟩ := List.mem_flatMap.mp hitem
    obtain ⟨hentity, hrequired, hcategory⟩ := mem_candidateMissing hin
    exact ⟨hentity ▸ bounded_employee (h.ids e (List.mem_filter.mp he).1), hrequired, hcategory⟩
  refine ⟨_, rankReassignmentCandidates_ok.mpr ⟨_, validateMissing_ok.mpr ⟨?_, rfl⟩, rfl⟩, ?_⟩
  · exact List.all_eq_true.mpr fun item hitem => decide_eq_true (hmissing item hitem).1
  · intro item hitem
    rw [rankingResult_missingData] at hitem
    exact (hmissing item hitem).2

/-- What a ranking misses is optional. -/
theorem ranked_of_recordable (h : Recordable snapshot) (question : String) (selected : Option String) :
    ∃ ranking, candidateRanking question snapshot selected = .ok ranking ∧
      ∀ item ∈ (ranking.map (·.missingData)).getD [], item.requiredForClaim = false ∧ item.category ≠ .history := by
  unfold candidateRanking
  cases sourceEmployeeId question snapshot.employees selected with
  | none => exact ⟨none, rfl, fun item hitem => by cases hitem⟩
  | some source =>
    obtain ⟨ranking, hr, hmissing⟩ := ranking_of_recordable h source
    refine ⟨some ranking, ?_, hmissing⟩
    show (rankReassignmentCandidates snapshot source).map some = .ok (some ranking)
    rw [hr]
    rfl

omit [LowerCase] in
theorem answered_of_recordable (h : Recordable snapshot) (question : String) (plan : EvidencePlan)
    (previous : Option GroundedAnswerContext) :
    ∃ evidence, buildAnswerEvidence question snapshot plan previous = .ok evidence :=
  ⟨_, except_bind_ok.mpr ⟨_, focusedMissingData_bounded h.keys h.ids, validate_of_required required_of_select⟩⟩

omit [LowerCase] [TextTables] in
/-- The records made of the project and of its employees. -/
theorem recorded_of_recordable (h : Recordable snapshot) (hproject : isProjectKey projectKey = true)
    (hloaded : loaded.isSome → .history ∈ plan.evidenceCategories) :
    validateMissing (recordMissing projectKey plan snapshot loaded) = .ok (recordMissing projectKey plan snapshot loaded) := by
  refine validateMissing_ok.mpr ⟨List.all_eq_true.mpr fun item hitem => decide_eq_true ?_, rfl⟩
  rcases List.mem_append.mp hitem with hitem | hitem
  · rcases List.mem_append.mp hitem with hitem | hitem
    · rw [(mem_historyMissing hloaded hitem).2.1]
      exact bounded_project hproject
    · rw [(mem_operationsMissing hitem).2.1]
      exact bounded_project hproject
  · obtain ⟨e, he, hin⟩ := List.mem_flatMap.mp hitem
    rw [(mem_employeeMissing hin).1]
    exact bounded_employee (h.ids e he)

/-! ## What is in the bundle -/

omit [LowerCase] [TextTables] in
theorem capacityOf_employeeId (e : EmployeeSummary) :
    (capacityOf e).map (·.employeeId) = if lacksCapacity e then none else some (some e.employeeId) := by
  unfold capacityOf calculateCapacity lacksCapacity
  cases e.capacityHours with
  | none => rfl
  | some configured =>
    by_cases hc : configured ≤ 0
    · simp [hc]
    · simp [hc]

omit [LowerCase] [TextTables] in
theorem capacities (employees : List EmployeeSummary) : (employees.filterMap capacityOf).map (·.employeeId) =
    (employees.filter fun e => !lacksCapacity e).map fun e => some e.employeeId := by
  rw [List.map_filterMap]
  induction employees with
  | nil => rfl
  | cons e employees ih =>
    rw [List.filterMap_cons, capacityOf_employeeId]
    by_cases hl : lacksCapacity e = true
    · simp [hl, ih]
    · simp [hl, ih]

omit [LowerCase] [TextTables] in
theorem required_employees (employees : List EmployeeSummary) :
    (employees.flatMap (employeeMissing plan)).filter (·.requiredForClaim) =
      (employees.filter lacksCapacity).map capacityMissing := by
  induction employees with
  | nil => rfl
  | cons e employees ih =>
    rw [List.flatMap_cons, List.filter_append, required_employeeMissing, ih]
    by_cases hl : lacksCapacity e = true
    · simp [hl]
    · simp [hl]

omit [LowerCase] [TextTables] in
theorem deliveryRisks (tasks : List TaskSummary) (key : String) :
    (Dict.ofPairs (tasks.map fun task => (task.key, deliveryRisk task))).get? key =
      (tasks.reverse.find? (·.key == key)).map deliveryRisk := by
  rw [Dict.get?_ofPairs, ← List.map_reverse]
  induction tasks.reverse with
  | nil => rfl
  | cons task tasks ih =>
    rw [List.map_cons, Dict.lookup_cons, List.find?_cons]
    by_cases hk : task.key = key
    · simp [hk]
    · simp [hk, ih, beq_false_of_ne hk]

omit [LowerCase] [TextTables] in
theorem CollectedEvidence.validate_ok {bundle : CollectedEvidence}
    (hcorrelation : 1 ≤ bundle.correlationId.length ∧ bundle.correlationId.length ≤ 128)
    (hproject : isProjectKey bundle.projectKey = true) : bundle.validate = .ok bundle := by
  unfold CollectedEvidence.validate
  rw [if_neg (by omega), if_neg (by omega), if_neg (by simp [hproject])]

/-- With names that can be recorded the readings are made into a bundle, and it is theirs. -/
theorem assemble_of_recordable (h : Recordable snapshot)
    (hcorrelation : 1 ≤ correlationId.length ∧ correlationId.length ≤ 128) (hproject : isProjectKey projectKey = true)
    (hloaded : loaded.isSome → .history ∈ plan.evidenceCategories) :
    ∃ bundle, assemble plan projectKey correlationId selected question previous snapshot loaded = .ok bundle ∧
      Collected plan projectKey correlationId selected question previous snapshot loaded bundle := by
  obtain ⟨ranking, hranking, hoptional⟩ := ranked_of_recordable h question selected
  obtain ⟨evidence, hevidence⟩ := answered_of_recordable h question plan previous
  have hrecorded := recorded_of_recordable h hproject hloaded
  refine ⟨bundleOf plan projectKey correlationId snapshot loaded (recordMissing projectKey plan snapshot loaded) ranking
      evidence,
    except_bind_ok.mpr ⟨_, hrecorded, except_bind_ok.mpr ⟨_, hranking, except_bind_ok.mpr ⟨_, hevidence, ?_⟩⟩⟩, ?_⟩
  · exact CollectedEvidence.validate_ok hcorrelation hproject
  · refine ⟨⟨rfl, rfl⟩, rfl, rfl, ⟨evidence, hevidence, rfl⟩, capacities _, ?_, ?_, ?_, deliveryRisks _, hranking⟩
    · have hranked : ((ranking.map (·.missingData)).getD []).filter (·.requiredForClaim) = [] :=
        List.filter_eq_nil_iff.mpr fun item hitem => by simp [(hoptional item hitem).1]
      have hhistory : (historyMissing projectKey plan loaded).filter (·.requiredForClaim) = [] :=
        List.filter_eq_nil_iff.mpr fun item hitem => by simp [(mem_historyMissing hloaded hitem).2.2.1]
      have hoperations : (operationsMissing projectKey plan).filter (·.requiredForClaim) = [] :=
        List.filter_eq_nil_iff.mpr fun item hitem => by simp [(mem_operationsMissing hitem).2.2]
      show (recordMissing projectKey plan snapshot loaded ++ (ranking.map (·.missingData)).getD []).filter _ = _
      rw [recordMissing, List.filter_append, List.filter_append, List.filter_append, hranked, hhistory, hoperations,
        required_employees, List.append_nil]
      rfl
    · cases loaded with
      | none => rfl
      | some answer =>
        cases answer with
        | error fault => rfl
        | ok history => rfl
    · constructor
      · intro hmissing
        obtain ⟨item, hitem, hcategory⟩ := hmissing
        rcases List.mem_append.mp hitem with hitem | hitem
        · rcases List.mem_append.mp hitem with hitem | hitem
          · rcases List.mem_append.mp hitem with hitem | hitem
            · exact (mem_historyMissing hloaded hitem).2.2.2
            · rw [(mem_operationsMissing hitem).1] at hcategory
              cases hcategory
          · obtain ⟨e, _, hin⟩ := List.mem_flatMap.mp hitem
            exact absurd hcategory (mem_employeeMissing hin).2
        · exact absurd hcategory (hoptional item hitem).2
      · intro hcalled
        obtain ⟨item, hitem, hcategory⟩ := historyMissing_ne_nil projectKey hcalled.1 hcalled.2
        exact ⟨item, List.mem_append_left _ (List.mem_append_left _ (List.mem_append_left _ hitem)), hcategory⟩

/-! ## Whole collections -/

/-- What a collection has asked says how far it is, and what it returns. -/
theorem collect_sat (reader : Bool) (hcorrelation : 1 ≤ correlationId.length ∧ correlationId.length ≤ 128)
    (hproject : isProjectKey projectKey = true) :
    (collect reader plan projectKey correlationId selected question previous).Sat (Proc.recorded fun _ _ => True) []
      fun r t => (∃ fault, t = [⟨.build projectKey correlationId, .error fault⟩] ∧ r = .error fault) ∨
        ∃ snapshot loaded, t = ⟨.build projectKey correlationId, .ok snapshot⟩ ::
            (loaded.map fun answer => (⟨.load projectKey correlationId, answer⟩ : Exchange _ _)).toList ∧
          (loaded.isSome ↔ .history ∈ plan.evidenceCategories ∧ reader = true) ∧
          (Recordable snapshot → ∃ bundle, r = .ok bundle ∧
            Collected plan projectKey correlationId selected question previous snapshot loaded bundle) := by
  apply Proc.sat_andThen
  refine Proc.sat_perform trivial fun answer => ?_
  cases answer with
  | error fault => exact .inl ⟨fault, rfl, rfl⟩
  | ok snapshot =>
    have hassembled : ∀ loaded, (loaded.isSome → .history ∈ plan.evidenceCategories) → Recordable snapshot →
        ∃ bundle, (assemble plan projectKey correlationId selected question previous snapshot loaded).mapError Fault.raised =
          .ok bundle ∧ Collected plan projectKey correlationId selected question previous snapshot loaded bundle := by
      intro loaded hloaded h
      obtain ⟨bundle, hbundle, hcollected⟩ := assemble_of_recordable h hcorrelation hproject hloaded
      exact ⟨bundle, by rw [hbundle]; rfl, hcollected⟩
    dsimp only
    split
    · rename_i hload
      apply Proc.sat_bind
      exact Proc.sat_perform trivial fun loaded =>
        .inr ⟨snapshot, some loaded, rfl, iff_of_true rfl hload, hassembled _ fun _ => hload.1⟩
    · rename_i hload
      exact .inr ⟨snapshot, none, rfl, iff_of_false nofun hload, hassembled _ nofun⟩

/-- The snapshot is asked for, and the history where it is called for and can be read. With names that can be recorded
    a collection ends in a bundle that accounts for every employee and for the history, unless the snapshot failed. -/
theorem collects_unless_refused {reader : Bool} {t : List (Exchange ReadCall ReadCall.Answer)}
    {r : Except Fault CollectedEvidence} (hcorrelation : 1 ≤ correlationId.length ∧ correlationId.length ≤ 128)
    (hproject : isProjectKey projectKey = true)
    (h : (collect reader plan projectKey correlationId selected question previous).Runs t (.ret r)) :
    (∃ fault, t = [⟨.build projectKey correlationId, .error fault⟩] ∧ r = .error fault) ∨
      ∃ snapshot loaded, t = ⟨.build projectKey correlationId, .ok snapshot⟩ ::
          (loaded.map fun answer => (⟨.load projectKey correlationId, answer⟩ : Exchange _ _)).toList ∧
        (loaded.isSome ↔ .history ∈ plan.evidenceCategories ∧ reader = true) ∧
        (Recordable snapshot → ∃ bundle, r = .ok bundle ∧
          Collected plan projectKey correlationId selected question previous snapshot loaded bundle) :=
  (collect_sat reader hcorrelation hproject).returned h

end

/-! ## A history that cannot be read -/

section

attribute [local instance] TextTables.ascii LowerCase.ascii

/-- Ada has a capacity, Bob none. -/
def adaAndBob : DashboardSnapshot :=
  sampleSnapshot [sampleEmployee "EMP-1" "Ada", { sampleEmployee "EMP-2" "Bob" with capacityHours := none }] []

def historyPlan : EvidencePlan := ⟨.project, [], [.history], false⟩

theorem adaAndBob_recordable : Recordable adaAndBob where
  keys := fun task htask => nomatch htask
  ids := by
    intro e he
    rcases List.mem_cons.mp he with rfl | he
    · exact Nat.le_of_ble_eq_true rfl
    · obtain rfl := List.mem_singleton.mp he
      exact Nat.le_of_ble_eq_true rfl

/-- With the history out of reach there is a bundle all the same: it misses that and Bob's capacity. -/
theorem outage_is_recorded : ∃ bundle, (collect true historyPlan "WFD" "corr-1" none "" none).Runs
      [⟨.build "WFD" "corr-1", .ok adaAndBob⟩, ⟨.load "WFD" "corr-1", .error (.osError "refused")⟩] (.ret (.ok bundle)) ∧
    bundle.capacityAndWorkload.map (·.employeeId) = [some "EMP-1"] ∧
    bundle.missingData.filter (·.requiredForClaim) = [capacityMissing { sampleEmployee "EMP-2" "Bob" with capacityHours := none }] ∧
    ∃ item ∈ bundle.missingData, item.category = .history := by
  obtain ⟨r, hrun⟩ : ∃ r, (collect true historyPlan "WFD" "corr-1" none "" none).Runs
      [⟨.build "WFD" "corr-1", .ok adaAndBob⟩, ⟨.load "WFD" "corr-1", .error (.osError "refused")⟩] (.ret r) :=
    ⟨_, .next _ (.next _ (.done _))⟩
  rcases collects_unless_refused (by decide) (by decide) hrun with h | h
  · obtain ⟨fault, ht, _⟩ := h
    cases ht
  · obtain ⟨snapshot, loaded, ht, _, hbundle⟩ := h
    obtain ⟨hsnapshot, hloaded⟩ := List.cons.inj ht
    cases hsnapshot
    obtain ⟨bundle, rfl, hcollected⟩ := hbundle adaAndBob_recordable
    refine ⟨bundle, hrun, ?_, ?_, ?_⟩
    · rw [hcollected.capacity]
      decide
    · rw [hcollected.required]
      rfl
    · rw [hcollected.historyMissing]
      cases loaded with
      | none => exact ⟨by decide, rfl⟩
      | some answer =>
        cases hloaded
        exact ⟨by decide, rfl⟩

end

end WorkforceRisk.Evidence
