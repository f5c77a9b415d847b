/-
  WorkforceRisk.Evidence.WellFormed — evidence is always built, and of what the question
  and its plan name (services/agent-api/src/agent_api: evidence/focus.py
  `build_answer_evidence`, `_select_employees`, models.py `AnswerEvidenceSet`).

  Tasks are selected by one of several branches, narrowed to employees or filled in from
  them; then employees are filled in from tasks. The evidence refuses required tasks that
  are not among its tasks, and missing data about too long a name.

  Proved (`evidence_well_formed`): with keys and ids of at most 100 characters neither ever
  happens, and the evidence is of the snapshot, with the tasks the plan names and the
  employees the question does. An employee entity of the plan that is nobody's gives way
  to the question where the plan's scope includes all employees; elsewhere it stays, and
  selects nobody.
-/

import WorkforceRisk.Evidence.Completeness
import WorkforceRisk.Dashboard.Assignments

namespace WorkforceRisk.Evidence

open Lib Persistence Historical Dashboard

section
variable [TextTables] (question : String) (plan : EvidencePlan)

/-- One of the plan's employee entities, of those that count, is about the employee. -/
def InPlan (e : EmployeeSummary) : Prop :=
  ∃ identifier ∈ explicitEmployeeIds (casefold question) plan,
    casefold identifier = casefold e.employeeId ∨ casefold identifier = casefold e.displayName

/-- The scope is of all employees. -/
def includesAll : Bool := plan.scope = .employee || plan.scope = .mixed

structure WellFormed (snapshot : DashboardSnapshot) (evidence : AnswerEvidenceSet) : Prop where
  required : ∀ key ∈ evidence.requiredTaskKeys, key ∈ evidence.tasks.map (·.key)
  tasks : ∀ t ∈ evidence.tasks, ∃ task ∈ snapshot.tasks, taskEvidence snapshot task = t
  employees : ∀ e ∈ evidence.employees, ∃ employee ∈ snapshot.employees, employeeEvidence snapshot employee = e
  /-- The tasks the plan names, in its order, are those of the evidence. -/
  planned : (∃ task ∈ snapshot.tasks, task.key ∈ plan.identifiers .task) →
    evidence.tasks.map (·.key) = (plan.identifiers .task).filter (· ∈ snapshot.tasks.map (·.key))
  inPlan : ∀ e ∈ snapshot.employees, InPlan question plan e → employeeEvidence snapshot e ∈ evidence.employees
  /-- Where the plan selects nobody, those the question names are in the evidence. -/
  named : (∀ e ∈ snapshot.employees, ¬ InPlan question plan e) →
    explicitEmployeeIds (casefold question) plan = [] ∨ includesAll plan = true →
    ∀ e ∈ namedEmployees snapshot.employees (casefold question), employeeEvidence snapshot e ∈ evidence.employees
  /-- Where the question names nobody either, all are. -/
  everyone : (∀ e ∈ snapshot.employees, ¬ InPlan question plan e) → includesAll plan = true →
    namedEmployees snapshot.employees (casefold question) = [] →
    ∀ e ∈ snapshot.employees, employeeEvidence snapshot e ∈ evidence.employees

end

/-! ## The tasks -/

/-- A selection of the snapshot's tasks, with what is required among them. -/
structure TaskSelection.Of (s : TaskSelection) (snapshot : DashboardSnapshot) : Prop where
  required : ∀ task ∈ s.required, task ∈ s.selected
  selected : ∀ task ∈ s.selected, task ∈ snapshot.tasks

section
variable [TextTables] {question : String} {snapshot : DashboardSnapshot} {plan : EvidencePlan}
  {previous : Option GroundedAnswerContext}

omit [TextTables] in
theorem TaskSelection.Of.all {tasks : List TaskSummary} (h : ∀ task ∈ tasks, task ∈ snapshot.tasks) :
    (TaskSelection.all tasks).Of snapshot := ⟨fun _ htask => htask, h⟩

omit [TextTables] in
theorem TaskSelection.Of.filter {tasks : List TaskSummary} {p : TaskSummary → Bool}
    (h : ∀ task ∈ tasks, task ∈ snapshot.tasks) : TaskSelection.Of ⟨tasks, tasks.filter p⟩ snapshot :=
  ⟨fun _ htask => (List.mem_filter.mp htask).1, h⟩

omit [TextTables] in
theorem mem_of_filter {p : TaskSummary → Bool} :
    ∀ task ∈ snapshot.tasks.filter p, task ∈ snapshot.tasks := fun _ htask => (List.mem_filter.mp htask).1

theorem datedTasks_subset : ∀ task ∈ datedTasks snapshot, task ∈ snapshot.tasks := by
  intro task htask
  rw [datedTasks, List.mem_insertionSort] at htask
  exact mem_of_filter task htask

omit [TextTables] in
theorem taskByKey_some {key : String} {task : TaskSummary} (h : taskByKey snapshot key = some task) :
    task ∈ snapshot.tasks ∧ task.key = key := by
  refine ⟨List.mem_reverse.mp (List.mem_of_find?_eq_some h), ?_⟩
  simpa using List.find?_some h

theorem selectDeadlines_of {folded : String} : (selectDeadlines folded snapshot).Of snapshot := by
  unfold selectDeadlines
  dsimp only
  split
  · exact .all fun task htask => datedTasks_subset task (List.mem_of_mem_take htask)
  · split
    · exact .filter datedTasks_subset
    · split
      · exact .filter datedTasks_subset
      · exact .all datedTasks_subset

/-- Whatever the branch, what is selected is of the snapshot. -/
theorem selectTasks_of {folded : String} {keys : List String} : (selectTasks folded snapshot plan keys).Of snapshot := by
  unfold selectTasks
  split
  · refine .all fun task htask => ?_
    obtain ⟨key, _, hkey⟩ := List.mem_filterMap.mp htask
    exact (taskByKey_some hkey).1
  split
  · exact .all mem_of_filter
  split
  · exact .all mem_of_filter
  split
  · exact selectDeadlines_of
  split
  · exact .all fun _ htask => htask
  · exact .all (by simp)

omit [TextTables] in
/-- Employees only narrow a selection, or make one of their tasks. -/
theorem TaskSelection.Of.ofEmployees {s : TaskSelection} (h : s.Of snapshot) {keys : List String}
    {employees : List EmployeeSummary} : (s.ofEmployees snapshot plan keys employees).Of snapshot := by
  unfold TaskSelection.ofEmployees
  split
  · exact .all mem_of_filter
  split
  · exact .filter fun task htask => h.selected task (List.mem_filter.mp htask).1
  · exact h

theorem select_of : (select question snapshot plan previous).tasks.Of snapshot := selectTasks_of.ofEmployees

omit [TextTables] in
/-- The named tasks are found by key, in the order they are named. -/
theorem keys_filterMap (keys : List String) : (keys.filterMap (taskByKey snapshot)).map (·.key) =
    keys.filter (· ∈ snapshot.tasks.map (·.key)) := by
  induction keys with
  | nil => rfl
  | cons key keys ih =>
    cases hkey : taskByKey snapshot key with
    | none =>
      have hout : key ∉ snapshot.tasks.map (·.key) := by
        intro hin
        obtain ⟨task, htask, rfl⟩ := List.mem_map.mp hin
        exact absurd (List.find?_eq_none.mp hkey task (List.mem_reverse.mpr htask)) (by simp)
      rw [List.filterMap_cons_none hkey, ih, List.filter_cons_of_neg (by simpa using hout)]
    | some task =>
      obtain ⟨htask, rfl⟩ := taskByKey_some hkey
      rw [List.filterMap_cons_some hkey, List.map_cons, ih,
        List.filter_cons_of_pos (by simpa using List.mem_map_of_mem htask)]

/-- With one of the snapshot's tasks in the plan, just the plan's are selected. -/
theorem select_planned (h : ∃ task ∈ snapshot.tasks, task.key ∈ plan.identifiers .task) :
    (select question snapshot plan previous).tasks.selected = (plan.identifiers .task).filterMap (taskByKey snapshot) := by
  obtain ⟨task, htask, hkey⟩ := h
  have hnamed : plan.identifiers .task ≠ [] := List.ne_nil_of_mem hkey
  have hkeys : explicitKeys (casefold question) plan previous = plan.identifiers .task := by
    unfold explicitKeys
    dsimp only
    cases previous with
    | none => rfl
    | some context => exact if_neg (by simp [hnamed])
  have hchosen : (chosenTasks question snapshot plan previous).selected =
      (plan.identifiers .task).filterMap (taskByKey snapshot) := by
    rw [chosenTasks, hkeys, selectTasks, if_pos (by simpa using hnamed)]
    rfl
  have hfound : (chosenTasks question snapshot plan previous).selected ≠ [] := by
    intro hnil
    have hin : task.key ∈ (plan.identifiers .task).filter (· ∈ snapshot.tasks.map (·.key)) :=
      List.mem_filter.mpr ⟨hkey, by simpa using List.mem_map_of_mem htask⟩
    rw [← keys_filterMap, ← hchosen, hnil] at hin
    cases hin
  rw [select]
  dsimp only
  rw [ofEmployees_kept (Or.inr ⟨hfound, Or.inr (hkeys ▸ hnamed)⟩), hchosen]

/-! ## The employees -/

/-- Whom the plan's entities select. -/
theorem mem_matched {e : EmployeeSummary} :
    e ∈ (snapshot.employees.filter fun e =>
        casefold e.employeeId ∈ (explicitEmployeeIds (casefold question) plan).map casefold ||
          casefold e.displayName ∈ (explicitEmployeeIds (casefold question) plan).map casefold) ↔
      e ∈ snapshot.employees ∧ InPlan question plan e := by
  rw [List.mem_filter, Bool.or_eq_true, decide_eq_true_eq, decide_eq_true_eq, List.mem_map, List.mem_map, InPlan]
  refine and_congr_right fun _ => ⟨fun h => ?_, fun h => ?_⟩
  · rcases h with ⟨identifier, hin, heq⟩ | ⟨identifier, hin, heq⟩
    · exact ⟨identifier, hin, Or.inl heq⟩
    · exact ⟨identifier, hin, Or.inr heq⟩
  · obtain ⟨identifier, hin, heq⟩ := h
    exact heq.imp (fun heq => ⟨identifier, hin, heq⟩) fun heq => ⟨identifier, hin, heq⟩

theorem chosenEmployees_inPlan {e : EmployeeSummary} (he : e ∈ snapshot.employees) (h : InPlan question plan e) :
    e ∈ chosenEmployees question snapshot plan := by
  have hmatched := mem_matched.mpr ⟨he, h⟩
  have hids : explicitEmployeeIds (casefold question) plan ≠ [] := by
    obtain ⟨identifier, hin, _⟩ := h
    exact List.ne_nil_of_mem hin
  unfold chosenEmployees selectEmployees
  dsimp only
  rw [if_pos (by simpa using hids), if_pos (by
    rw [Bool.or_eq_true, Bool.not_eq_true', List.isEmpty_eq_false_iff]
    exact Or.inl (List.ne_nil_of_mem hmatched))]
  exact hmatched

/-- Entities that are nobody's give way to all employees, where the scope includes them. -/
theorem chosenEmployees_giveWay (hnobody : ∀ e ∈ snapshot.employees, ¬ InPlan question plan e)
    (hids : explicitEmployeeIds (casefold question) plan ≠ []) (hall : includesAll plan = true) :
    chosenEmployees question snapshot plan = snapshot.employees := by
  have hnone := List.eq_nil_iff_forall_not_mem.mpr fun e he => hnobody e (mem_matched.mp he).1 (mem_matched.mp he).2
  unfold chosenEmployees selectEmployees
  dsimp only
  rw [if_pos (by simpa using hids), hnone, if_neg (by simpa [includesAll, or_iff_not_imp_left] using hall)]

theorem chosenEmployees_byName (hids : explicitEmployeeIds (casefold question) plan = []) :
    chosenEmployees question snapshot plan =
      if includesAll plan && (namedEmployees snapshot.employees (casefold question)).isEmpty then snapshot.employees
      else namedEmployees snapshot.employees (casefold question) := by
  unfold chosenEmployees selectEmployees
  dsimp only
  rw [if_neg (by simp [hids])]
  rfl

theorem namedEmployees_subset {employees : List EmployeeSummary} {folded : String} {e : EmployeeSummary}
    (h : e ∈ namedEmployees employees folded) : e ∈ employees := (List.mem_filter.mp h).1

theorem chosenEmployees_named (hnobody : ∀ e ∈ snapshot.employees, ¬ InPlan question plan e)
    (hscope : explicitEmployeeIds (casefold question) plan = [] ∨ includesAll plan = true) {e : EmployeeSummary}
    (he : e ∈ namedEmployees snapshot.employees (casefold question)) : e ∈ chosenEmployees question snapshot plan := by
  by_cases hids : explicitEmployeeIds (casefold question) plan = []
  · rw [chosenEmployees_byName hids, if_neg (by simp [List.ne_nil_of_mem he])]
    exact he
  · rw [chosenEmployees_giveWay hnobody hids (hscope.resolve_left hids)]
    exact namedEmployees_subset he

theorem chosenEmployees_everyone (hnobody : ∀ e ∈ snapshot.employees, ¬ InPlan question plan e)
    (hall : includesAll plan = true) (hnone : namedEmployees snapshot.employees (casefold question) = []) :
    chosenEmployees question snapshot plan = snapshot.employees := by
  by_cases hids : explicitEmployeeIds (casefold question) plan = []
  · rw [chosenEmployees_byName hids, if_pos (by simp [hall, hnone])]
  · exact chosenEmployees_giveWay hnobody hids hall

omit [TextTables] in
/-- Those that are chosen stay. -/
theorem mem_employeesOf {tasks : List TaskSummary} {employees : List EmployeeSummary} {e : EmployeeSummary}
    (h : e ∈ employees) : e ∈ employeesOf snapshot tasks employees := by
  rw [employeesOf, if_neg (by simp [List.ne_nil_of_mem h])]
  exact h

theorem select_employees_subset {e : EmployeeSummary} (h : e ∈ (select question snapshot plan previous).employees) :
    e ∈ snapshot.employees := by
  rw [select] at h
  dsimp only at h
  unfold employeesOf at h
  split at h
  · exact (List.mem_filter.mp h).1
  · exact chosenEmployees_subset h

/-! ## The evidence -/

/-- What is missing is about a task or an employee. -/
theorem focusedMissingData_bounded (hkeys : ∀ task ∈ snapshot.tasks, task.key.length ≤ 100)
    (hids : ∀ e ∈ snapshot.employees, e.employeeId.length ≤ 100) :
    validateMissing (focusedMissingData (select question snapshot plan previous).tasks.selected
        (select question snapshot plan previous).employees plan.evidenceCategories) =
      .ok (focusedMissingData (select question snapshot plan previous).tasks.selected
        (select question snapshot plan previous).employees plan.evidenceCategories) := by
  rw [validateMissing, if_pos]
  rw [List.all_eq_true]
  intro item hitem
  rw [decide_eq_true_eq]
  rcases List.mem_append.mp hitem with htask | hemployee
  · obtain ⟨task, hin, rfl⟩ := List.mem_map.mp htask
    have := hkeys task (select_of.selected task (List.mem_filter.mp hin).1)
    rw [String.length_append, show "task:".length = 5 from rfl]
    omega
  · obtain ⟨e, he, hitem⟩ := List.mem_flatMap.mp hemployee
    have hentity : item.entity = "employee:" ++ e.employeeId := by
      rcases List.mem_append.mp hitem with h | h
      · split at h
        · rw [List.mem_singleton.mp h]
        · cases h
      · split at h
        · rw [List.mem_singleton.mp h]
        · cases h
    have := hids e (select_employees_subset he)
    rw [hentity, String.length_append, show "employee:".length = 9 from rfl]
    omega

/-- Required tasks that are among the tasks pass. -/
theorem validate_of_required {evidence : AnswerEvidenceSet}
    (h : ∀ key ∈ evidence.requiredTaskKeys, key ∈ evidence.tasks.map (·.key)) : evidence.validate = .ok evidence := by
  unfold AnswerEvidenceSet.validate
  dsimp only
  rw [if_pos]
  rw [List.isEmpty_iff, List.filter_eq_nil_iff]
  intro key hkey
  obtain ⟨own, hown, rfl⟩ := List.mem_map.mp hkey
  obtain ⟨task, htask, rfl⟩ := List.mem_map.mp (h own hown)
  simpa using ⟨task, htask, rfl⟩

theorem required_of_select : ∀ key ∈ (select question snapshot plan previous).tasks.required.map (·.key),
    key ∈ ((select question snapshot plan previous).tasks.selected.map (taskEvidence snapshot)).map (·.key) := by
  intro key hkey
  obtain ⟨task, htask, rfl⟩ := List.mem_map.mp hkey
  rw [List.map_map]
  exact List.mem_map_of_mem (f := (·.key) ∘ taskEvidence snapshot) (select_of.required task htask)

theorem evidence_well_formed (question : String) (snapshot : DashboardSnapshot) (plan : EvidencePlan)
    (previous : Option GroundedAnswerContext) (hkeys : ∀ task ∈ snapshot.tasks, task.key.length ≤ 100)
    (hids : ∀ e ∈ snapshot.employees, e.employeeId.length ≤ 100) :
    ∃ evidence, buildAnswerEvidence question snapshot plan previous = .ok evidence ∧
      WellFormed question plan snapshot evidence := by
  refine ⟨_, except_bind_ok.mpr ⟨_, focusedMissingData_bounded hkeys hids, validate_of_required required_of_select⟩, ?_⟩
  have hchosen : ∀ e ∈ chosenEmployees question snapshot plan, employeeEvidence snapshot e ∈
      (select question snapshot plan previous).employees.map (employeeEvidence snapshot) :=
    fun e he => List.mem_map_of_mem (mem_employeesOf he)
  constructor
  · exact required_of_select
  · intro t ht
    obtain ⟨task, htask, rfl⟩ := List.mem_map.mp ht
    exact ⟨task, select_of.selected task htask, rfl⟩
  · intro e he
    obtain ⟨employee, hemployee, rfl⟩ := List.mem_map.mp he
    exact ⟨employee, select_employees_subset hemployee, rfl⟩
  · intro h
    dsimp only
    rw [select_planned h, ← keys_filterMap, List.map_map]
    rfl
  · exact fun e he hplan => hchosen e (chosenEmployees_inPlan he hplan)
  · exact fun hnobody hscope e he => hchosen e (chosenEmployees_named hnobody hscope he)
  · intro hnobody hall hnone e he
    refine hchosen e ?_
    rw [chosenEmployees_everyone hnobody hall hnone]
    exact he

end

/-! ## An entity that is nobody's, and one that is somebody's -/

def ada : EmployeeSummary := sampleEmployee "EMP-1" "Ada"

/-- A plan for the employee of an id. -/
def employeePlan (scope : EvidenceScope) (employeeId : String) : EvidencePlan :=
  ⟨scope, [⟨.employee, employeeId⟩], [.capacityAndWorkload], false⟩

/-- The question names Ada, the plan selects nobody, and the evidence has nobody. -/
theorem unknown_entity_leaves_out : letI := TextTables.ascii
    (∀ e ∈ [ada], ¬ InPlan "What is Ada working on?" (employeePlan .project "EMP-404") e) ∧
      namedEmployees [ada] (casefold "What is Ada working on?") = [ada] ∧
      ∃ evidence, buildAnswerEvidence "What is Ada working on?" (sampleSnapshot [ada] [])
          (employeePlan .project "EMP-404") none = .ok evidence ∧ evidence.employees.map (·.displayName) = [] := by
  let _ := TextTables.ascii
  exact ⟨by unfold InPlan; decide, by decide, _, rfl, by decide⟩

theorem known_entity_is_in : letI := TextTables.ascii
    ∃ evidence, buildAnswerEvidence "What is Ada working on?" (sampleSnapshot [ada] [])
        (employeePlan .project "EMP-1") none = .ok evidence ∧
      WellFormed "What is Ada working on?" (employeePlan .project "EMP-1") (sampleSnapshot [ada] []) evidence := by
  let _ := TextTables.ascii
  exact evidence_well_formed _ _ _ _ (by decide) (by decide)

end WorkforceRisk.Evidence
