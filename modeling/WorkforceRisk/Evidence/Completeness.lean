/-
  WorkforceRisk.Evidence.Completeness — which tasks an exhaustive answer has to name
  (services/agent-api/src/agent_api: evidence/focus.py `build_answer_evidence`,
  `answer_context_from_evidence`, grounding.py `validate_focused_completeness`).

  The evidence says which of its tasks are required; the check of the answer and the
  context of the next question both take all of them when none is.

  Proved (`asks_for_required_iff`): they ask for the required tasks exactly when the
  question does not list deadlines, or lists none, or one of those it lists is overdue or
  due soon as it asks; and no key differs from a required one by case alone.
-/

import WorkforceRisk.Evidence.Grounding

namespace WorkforceRisk.Evidence

open Lib Persistence Historical Dashboard Jira

section
variable [TextTables]

/-- The answer names the task. -/
def Mentions (answer key : String) : Prop := upper key ∈ issueKeys (upper answer)

structure AsksForRequired (evidence : AnswerEvidenceSet) : Prop where
  accepts : ∀ answer, validateFocusedCompleteness answer evidence = .ok () ↔
    ∀ key ∈ evidence.requiredTaskKeys, Mentions answer key
  context : (answerContextFromEvidence evidence).issues =
    (evidence.tasks.filter fun task => task.key ∈ evidence.requiredTaskKeys).map (·.fact)

/-- Keys that are one up to case are one. -/
def SameCase (keys required : List String) : Prop := ∀ key ∈ keys, upper key ∈ required.map upper → key ∈ required

end

section
variable [Unicode]

/-- The question lists tasks by their due dates, and asks for some of them. -/
def listsDeadlines (question : String) (plan : EvidencePlan) (previous : Option GroundedAnswerContext) : Bool :=
  let folded := casefold question
  (explicitKeys folded plan previous).isEmpty && !asksBlocked folded &&
    !(contains folded "missing" && contains folded "estimate") && mentionsAny folded ["deadline", "due", "overdue"] &&
    !mentionsAny folded ["most likely", "highest risk", "riskiest", "top "] &&
    (contains folded "overdue" || contains folded "due soon")

/-- The task is one that such a question asks for. -/
def isAsked (question : String) (snapshot : DashboardSnapshot) (task : TaskSummary) : Bool :=
  let today := snapshot.evidenceTimestamp.date
  if contains (casefold question) "overdue" then isOverdue today task.dueDate else isDueSoon today task.dueDate

def askedKeys (question : String) (snapshot : DashboardSnapshot) : List String :=
  ((datedTasks snapshot).filter (isAsked question snapshot)).map (·.key)

/-- The tasks that are listed: of a task question for employees only theirs. -/
def listedTasks (question : String) (snapshot : DashboardSnapshot) (plan : EvidencePlan) : List TaskSummary :=
  let employees := chosenEmployees question snapshot plan
  if !employees.isEmpty && plan.scope == .task then (datedTasks snapshot).filter (assignedTo employees)
  else datedTasks snapshot

end

/-- Of the tasks that are listed, if any is, some are asked for, and the others are not
    called like them. -/
def SomeTaskIsAsked [TextTables] (question : String) (snapshot : DashboardSnapshot) (plan : EvidencePlan)
    (previous : Option GroundedAnswerContext) : Prop :=
  let listedKeys := (listedTasks question snapshot plan).map (·.key)
  let required := listedKeys.filter (· ∈ askedKeys question snapshot)
  listsDeadlines question plan previous = true → listedKeys = [] ∨ (required ≠ [] ∧ SameCase listedKeys required)

/-! ## The evidence, its check and its context -/

section
variable [TextTables] {evidence : AnswerEvidenceSet}

/-- On the task branch an answer is accepted when it names the keys it is expected to. -/
theorem accepts_iff (hexhaustive : evidence.exhaustive = true) (hbranch : takesEmployeeBranch evidence = false)
    (htasks : evidence.tasks ≠ []) {answer : String} :
    validateFocusedCompleteness answer evidence = .ok () ↔
      ∀ key ∈ expectedKeys evidence, key ∈ issueKeys (upper answer) := by
  have hnonempty : (!evidence.tasks.isEmpty) = true := by simpa using htasks
  rw [validateFocusedCompleteness, if_neg (by simp [hexhaustive]), if_neg (by simp [hbranch]), if_pos hnonempty,
    require_ok, List.isEmpty_iff, List.filter_eq_nil_iff]
  simp

/-- The empty answer names nothing. -/
theorem issueKeys_empty : issueKeys (upper "") = [] := by
  have hhere : Pattern.issueKey.here none [] = none := by
    simp [Regex.here, Pattern.issueKey, Pattern.edge, Regex.seqs, Regex.run, boundary]
  rw [issueKeys, show (upper "").toList = [] by simp [upper], Regex.findAll_nil hhere]
  rfl

theorem expectedKeys_eq (h : evidence.requiredTaskKeys ≠ []) :
    expectedKeys evidence = evidence.requiredTaskKeys.map upper := by
  have hrequired : (!evidence.requiredTaskKeys.isEmpty) = true := by simpa using h
  rw [expectedKeys, if_pos hrequired]

theorem context_issues (h : evidence.requiredTaskKeys ≠ []) : (answerContextFromEvidence evidence).issues =
    (evidence.tasks.filter fun task => upper task.key ∈ evidence.requiredTaskKeys.map upper).map (·.fact) := by
  have hrequired : (!(evidence.requiredTaskKeys.map upper).isEmpty) = true := by simpa using h
  unfold answerContextFromEvidence
  simp only [hrequired, if_true]

/-- With required tasks, the check asks for them and the context carries them. -/
theorem asks_of_required (hexhaustive : evidence.exhaustive = true) (hbranch : takesEmployeeBranch evidence = false)
    (hrequired : evidence.requiredTaskKeys ≠ []) (htasks : evidence.tasks ≠ [])
    (hcase : SameCase (evidence.tasks.map (·.key)) evidence.requiredTaskKeys) : AsksForRequired evidence := by
  refine ⟨fun answer => ?_, ?_⟩
  · rw [accepts_iff hexhaustive hbranch htasks, expectedKeys_eq hrequired]
    exact List.forall_mem_map
  · rw [context_issues hrequired]
    congr 1
    refine List.filter_congr fun task htask => ?_
    rw [decide_eq_decide]
    exact ⟨hcase task.key (List.mem_map_of_mem htask), List.mem_map_of_mem⟩

/-- Evidence that passes its own check requires none of no tasks. -/
theorem required_of_no_tasks (hvalid : evidence.validate = .ok evidence) (htasks : evidence.tasks = []) :
    evidence.requiredTaskKeys = [] := by
  unfold AnswerEvidenceSet.validate at hvalid
  dsimp only at hvalid
  split at hvalid
  · rename_i hunknown
    simpa [htasks] using hunknown
  · cases hvalid

/-- What the check and the context ask for, of evidence that has passed its own check. -/
theorem asks_iff_of_evidence (hvalid : evidence.validate = .ok evidence) (hexhaustive : evidence.exhaustive = true)
    (hbranch : takesEmployeeBranch evidence = false) :
    AsksForRequired evidence ↔
      evidence.tasks = [] ∨ (evidence.requiredTaskKeys ≠ [] ∧
        SameCase (evidence.tasks.map (·.key)) evidence.requiredTaskKeys) := by
  constructor
  · intro hasks
    by_cases htasks : evidence.tasks = []
    · exact Or.inl htasks
    have hrequired : evidence.requiredTaskKeys ≠ [] := by
      intro hnone
      -- an answer that names nothing passes, so nothing is expected
      have hempty := (hasks.accepts "").mpr (by simp [hnone])
      rw [accepts_iff hexhaustive hbranch htasks, issueKeys_empty, expectedKeys, hnone] at hempty
      obtain ⟨task, htask⟩ := List.exists_mem_of_ne_nil _ htasks
      exact absurd (hempty (upper task.key) (List.mem_map_of_mem htask)) (by simp)
    refine Or.inr ⟨hrequired, fun key hkey hupper => ?_⟩
    obtain ⟨task, htask, rfl⟩ := List.mem_map.mp hkey
    have hcarried : task.fact ∈ (answerContextFromEvidence evidence).issues := by
      rw [context_issues hrequired]
      exact List.mem_map_of_mem (List.mem_filter.mpr ⟨htask, by simpa using hupper⟩)
    rw [hasks.context] at hcarried
    obtain ⟨other, hother, hfact⟩ := List.mem_map.mp hcarried
    rw [← show other.key = task.key from congrArg TaskFact.key hfact]
    simpa using (List.mem_filter.mp hother).2
  · intro h
    rcases h with htasks | ⟨hrequired, hcase⟩
    · have hnone := required_of_no_tasks hvalid htasks
      refine ⟨fun answer => ?_, ?_⟩
      · rw [validateFocusedCompleteness, if_neg (by simp [hexhaustive]), if_neg (by simp [hbranch]),
          if_neg (by simp [htasks])]
        simp [hnone]
      · simp [answerContextFromEvidence, hnone, htasks]
    · have htasks : evidence.tasks ≠ [] := fun hnil => hrequired (required_of_no_tasks hvalid hnil)
      exact asks_of_required hexhaustive hbranch hrequired htasks hcase

end

/-! ## What a question selects, and what of it is required -/

section
variable [TextTables] {question : String} {snapshot : DashboardSnapshot} {plan : EvidencePlan}
  {previous : Option GroundedAnswerContext}

/-- A question that does not list deadlines requires all that it selects. -/
theorem chosenTasks_required (h : listsDeadlines question plan previous = false) :
    (chosenTasks question snapshot plan previous).required = (chosenTasks question snapshot plan previous).selected := by
  unfold chosenTasks selectTasks
  split
  · rfl
  rename_i hkeys
  split
  · rfl
  rename_i hblocked
  split
  · rfl
  rename_i hestimate
  split
  · rename_i hdue
    unfold selectDeadlines
    dsimp only
    split
    · rfl
    rename_i htop
    unfold listsDeadlines at h
    simp only [Bool.not_eq_true, Bool.not_eq_false'] at hkeys hblocked hestimate hdue htop
    simp only [hkeys, hblocked, hestimate, hdue, htop, Bool.not_false, Bool.true_and, Bool.or_eq_false_iff] at h
    rw [if_neg (by simp [h.1]), if_neg (by simp [h.2])]
    rfl
  · split
    · rfl
    · rfl

/-- A question that does requires what it asks for. -/
theorem chosenTasks_listed (h : listsDeadlines question plan previous = true) :
    chosenTasks question snapshot plan previous =
      ⟨datedTasks snapshot, (datedTasks snapshot).filter (isAsked question snapshot)⟩ := by
  unfold listsDeadlines at h
  simp only [Bool.and_eq_true, Bool.not_eq_true', Bool.or_eq_true] at h
  obtain ⟨⟨⟨⟨⟨hkeys, hblocked⟩, hestimate⟩, hdue⟩, htop⟩, hlate⟩ := h
  unfold chosenTasks selectTasks selectDeadlines
  rw [if_neg (by simp [hkeys]), if_neg (by simp [hblocked]), if_neg (by simp [hestimate]), if_pos hdue]
  dsimp only
  rw [if_neg (by simp [htop])]
  by_cases hover : contains (casefold question) "overdue" = true
  · have hasked : isAsked question snapshot = fun task => isOverdue snapshot.evidenceTimestamp.date task.dueDate := by
      funext task
      rw [isAsked, if_pos hover]
    rw [if_pos hover, hasked]
  · have hasked : isAsked question snapshot = fun task => isDueSoon snapshot.evidenceTimestamp.date task.dueDate := by
      funext task
      rw [isAsked, if_neg hover]
    rw [if_neg hover, if_pos (hlate.resolve_left hover), hasked]

/-- Narrowing to employees keeps all required, if all were. -/
theorem select_required (h : listsDeadlines question plan previous = false) :
    (select question snapshot plan previous).tasks.required =
      (select question snapshot plan previous).tasks.selected := by
  have hall := @chosenTasks_required _ question snapshot plan previous h
  unfold select TaskSelection.ofEmployees
  dsimp only
  split
  · rfl
  split
  · rw [hall, List.filter_eq_self]
    intro task htask
    simpa using List.mem_map_of_mem (List.mem_filter.mp htask).1
  · exact hall

/-- What a question that lists deadlines selects and requires, by key; without any dated
    task it selects, and requires, what its employees have. -/
theorem select_listed (h : listsDeadlines question plan previous = true) :
    ((select question snapshot plan previous).tasks.selected = listedTasks question snapshot plan ∧
      ∀ key, key ∈ (select question snapshot plan previous).tasks.required.map (·.key) ↔
        key ∈ (listedTasks question snapshot plan).map (·.key) ∧ key ∈ askedKeys question snapshot) ∨
    (listedTasks question snapshot plan = [] ∧
      (select question snapshot plan previous).tasks.required =
        (select question snapshot plan previous).tasks.selected) := by
  have hchosen := @chosenTasks_listed _ question snapshot plan previous h
  have hkeys : (explicitKeys (casefold question) plan previous).isEmpty = true := by
    unfold listsDeadlines at h
    simp only [Bool.and_eq_true] at h
    exact h.1.1.1.1.1
  have hasked : ∀ tasks : List TaskSummary, ∀ key ∈ ((tasks.filter (isAsked question snapshot)).map (·.key)),
      key ∈ tasks.map (·.key) := by
    intro tasks key hkey
    obtain ⟨task, htask, rfl⟩ := List.mem_map.mp hkey
    exact List.mem_map_of_mem (List.mem_filter.mp htask).1
  unfold select listedTasks
  dsimp only
  rw [hchosen]
  by_cases hemployees : chosenEmployees question snapshot plan = []
  · rw [ofEmployees_kept (Or.inl hemployees), if_neg (by simp [hemployees])]
    exact Or.inl ⟨rfl, fun key => (and_iff_right_of_imp (hasked _ key)).symm⟩
  by_cases hdated : datedTasks snapshot = []
  · rw [ofEmployees_of_none hemployees hdated, hdated]
    exact Or.inr ⟨by simp, rfl⟩
  by_cases hscope : plan.scope = .task
  · rw [ofEmployees_narrowed hemployees hdated hscope (List.isEmpty_iff.mp hkeys),
      if_pos (by simp [hemployees, hscope])]
    refine Or.inl ⟨rfl, fun key => ?_⟩
    simp only [List.mem_map, List.mem_filter, decide_eq_true_eq, askedKeys]
    constructor
    · intro hkey
      obtain ⟨task, ⟨htask, hin⟩, rfl⟩ := hkey
      exact ⟨⟨task, htask, rfl⟩, hin⟩
    · intro hkey
      obtain ⟨⟨task, htask, rfl⟩, hin⟩ := hkey
      exact ⟨task, ⟨htask, hin⟩, rfl⟩
  · rw [ofEmployees_kept (Or.inr ⟨hdated, Or.inl hscope⟩), if_neg (by simp [hscope])]
    exact Or.inl ⟨rfl, fun key => (and_iff_right_of_imp (hasked _ key)).symm⟩

/-! ## From the question to what is asked for -/

theorem sameCase_congr {keys required required' : List String} (h : ∀ key, key ∈ required ↔ key ∈ required') :
    SameCase keys required ↔ SameCase keys required' := by
  unfold SameCase
  simp only [List.mem_map, h]

omit [TextTables] in
theorem ne_nil_congr {keys keys' : List String} (h : ∀ key, key ∈ keys ↔ key ∈ keys') : keys ≠ [] ↔ keys' ≠ [] := by
  rw [ne_eq, ne_eq, List.eq_nil_iff_forall_not_mem, List.eq_nil_iff_forall_not_mem]
  simp only [h]

theorem sameCase_self (keys : List String) : SameCase keys keys := fun _ hkey _ => hkey

/-- What the evidence is of what is selected. -/
theorem buildAnswerEvidence_ok {evidence : AnswerEvidenceSet}
    (h : buildAnswerEvidence question snapshot plan previous = .ok evidence) :
    evidence.validate = .ok evidence ∧ evidence.exhaustive = plan.exhaustive ∧
      evidence.tasks.map (·.key) = (select question snapshot plan previous).tasks.selected.map (·.key) ∧
      evidence.requiredTaskKeys = (select question snapshot plan previous).tasks.required.map (·.key) := by
  unfold buildAnswerEvidence at h
  obtain ⟨missing, _, h⟩ := except_bind_ok.mp h
  have hkeep := h
  unfold AnswerEvidenceSet.validate at hkeep
  dsimp only at hkeep
  split at hkeep
  · cases hkeep
    exact ⟨h, rfl, by rw [List.map_map]; rfl, rfl⟩
  · cases hkeep

theorem asks_for_required_iff {evidence : AnswerEvidenceSet}
    (h : buildAnswerEvidence question snapshot plan previous = .ok evidence) (hexhaustive : plan.exhaustive = true)
    (hbranch : takesEmployeeBranch evidence = false) :
    AsksForRequired evidence ↔ SomeTaskIsAsked question snapshot plan previous := by
  obtain ⟨hvalid, hplan, hselected, hrequired⟩ := buildAnswerEvidence_ok h
  have htasks : evidence.tasks = [] ↔ (select question snapshot plan previous).tasks.selected.map (·.key) = [] := by
    rw [← hselected, List.map_eq_nil_iff]
  rw [asks_iff_of_evidence hvalid (hplan.trans hexhaustive) hbranch, htasks, hselected, hrequired, SomeTaskIsAsked]
  cases hlists : listsDeadlines question plan previous with
  | false =>
    rw [select_required hlists]
    simp only [Bool.false_eq_true, false_implies, iff_true]
    by_cases hnone : (select question snapshot plan previous).tasks.selected.map (·.key) = []
    · exact Or.inl hnone
    · exact Or.inr ⟨hnone, sameCase_self _⟩
  | true =>
    simp only [true_implies]
    rcases select_listed hlists with ⟨hlisted, hasked⟩ | ⟨hnone, hall⟩
    · have hkeys : ∀ key, key ∈ (select question snapshot plan previous).tasks.required.map (·.key) ↔
          key ∈ ((listedTasks question snapshot plan).map (·.key)).filter (· ∈ askedKeys question snapshot) := by
        intro key
        rw [hasked, List.mem_filter, decide_eq_true_eq]
      rw [hlisted, ne_nil_congr hkeys, sameCase_congr hkeys]
    · rw [hall, hnone]
      simp only [List.map_nil, true_or, iff_true]
      by_cases hselectedNone : (select question snapshot plan previous).tasks.selected.map (·.key) = []
      · exact Or.inl hselectedNone
      · exact Or.inr ⟨hselectedNone, sameCase_self _⟩

end

/-! ## A deadline that has not passed, and one that has -/

/-- The plan of a question for deadlines. -/
def deadlinePlan : EvidencePlan := ⟨.project, [], [.deadlines], true⟩

/-- A project of one task, on day 100 of the evidence. -/
def projectDue (due : Date) : List JiraIssueEvidence := [{ sampleRow with dueDate := some due }]

/-- None is overdue, and the answer has to name what is listed. -/
theorem none_overdue_asks_for_all : letI := TextTables.ascii; letI := FloatText.plain; letI := Sha256.transparent
    ∃ snapshot evidence, bareService.build "WFD" (projectDue 130) "corr-1" = .ok snapshot ∧
      buildAnswerEvidence "Which tasks are overdue?" snapshot deadlinePlan none = .ok evidence ∧
      takesEmployeeBranch evidence = false ∧ ¬ AsksForRequired evidence := by
  let _ := TextTables.ascii
  let _ := FloatText.plain
  let _ := Sha256.transparent
  exact ⟨_, _, rfl, rfl, by decide, fun h => absurd h.context (by decide)⟩

theorem one_overdue_asks_for_it : letI := TextTables.ascii; letI := FloatText.plain; letI := Sha256.transparent
    ∃ snapshot evidence, bareService.build "WFD" (projectDue 90) "corr-1" = .ok snapshot ∧
      buildAnswerEvidence "Which tasks are overdue?" snapshot deadlinePlan none = .ok evidence ∧
      AsksForRequired evidence := by
  let _ := TextTables.ascii
  let _ := FloatText.plain
  let _ := Sha256.transparent
  obtain ⟨snapshot, hs, hok, hasked⟩ : ∃ snapshot, bareService.build "WFD" (projectDue 90) "corr-1" = .ok snapshot ∧
      (buildAnswerEvidence "Which tasks are overdue?" snapshot deadlinePlan none).toOption.any
        (fun evidence => !takesEmployeeBranch evidence) = true ∧
      SomeTaskIsAsked "Which tasks are overdue?" snapshot deadlinePlan none :=
    ⟨_, rfl, by decide, fun _ => Or.inr ⟨by decide, by unfold SameCase; decide⟩⟩
  obtain ⟨evidence, he, hbranch⟩ := exists_ok_of_any hok
  exact ⟨snapshot, evidence, hs, he, (asks_for_required_iff he rfl (by simpa using hbranch)).mpr hasked⟩

end WorkforceRisk.Evidence
