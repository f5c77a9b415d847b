/-
  WorkforceRisk.Evidence.Normalizer — a planned reading of the evidence, made to fit the
  question (services/agent-api/src/agent_api/evidence/normalizer.py).

  What a question's words call for is added to the plan, and the issues it names become
  task entities. Every decision depends on the question and the context alone, or on what
  a plan has already, so that a plan that is normalized stays as it is.

  Proved (`normalization_closes`): the laws of every plan that is returned, and which
  questions have one: all but those that name an issue whose key no entity can have.
-/

import WorkforceRisk.Evidence.Grounding

namespace WorkforceRisk.Evidence

open Lib Persistence Historical Dashboard

/-! ## What a question calls for -/

/-- `EvidenceEntity(kind=..., identifier=...)`. -/
def evidenceEntity (kind : EntityKind) (identifier : String) : Except Error EvidenceEntity :=
  if identifier.length < 1 then .error (.validationError "identifier" "String should have at least 1 character")
  else if 128 < identifier.length then
    .error (.validationError "identifier" "String should have at most 128 characters")
  else .ok ⟨kind, identifier⟩

def taskLanguage (folded : String) : Bool :=
  mentionsAny folded
    ["task", "work item", "issue", "deadline", "due", "blocked", "blocker", "dependency", "estimate"]

def employeeLanguage (folded : String) : Bool :=
  mentionsAny folded
    ["employee", "people", "person", "capacity", "workload", "skill", "assignee", "who has", "who is at risk"]

def refersToPriorTasks (folded : String) (previous : Option GroundedAnswerContext) : Bool :=
  previous.any fun context => !context.issues.isEmpty && refersToPrior folded

def normalizedScope (folded : String) (prior : Bool) (planned : EvidenceScope) : EvidenceScope :=
  if prior || (taskLanguage folded && !employeeLanguage folded) then .task
  else if employeeLanguage folded && !taskLanguage folded then .employee
  else if employeeLanguage folded && taskLanguage folded then .mixed
  else planned

/-- When each category is required, in the order they are. -/
def requirements (folded : String) (prior : Bool) : List (Bool × EvidenceCategory) :=
  [ (taskLanguage folded || prior, .jiraIssues),
    (mentionsAny folded ["blocked", "blocker", "dependency"], .dependenciesAndBlockers),
    (mentionsAny folded ["deadline", "due", "overdue"], .deadlines),
    (employeeLanguage folded, .workforceProfiles),
    (mentionsAny folded ["capacity", "workload", "available", "risk"], .capacityAndWorkload),
    (mentionsAny folded ["skill", "fit", "qualified"], .skillsAndSeniority),
    (mentionsAny folded
      ["history", "historical", "improved", "changed", "progressed", "progress over", "since yesterday", "this week",
        "last week", "previously", "before", "trend"], .history) ]

def requiredCategories (folded : String) (prior : Bool) : List EvidenceCategory :=
  ((requirements folded prior).filter (·.1)).map (·.2)

/-- `require(category)`. -/
def requireCategory (categories : List EvidenceCategory) (category : EvidenceCategory) : List EvidenceCategory :=
  if category ∈ categories then categories else categories ++ [category]

def asksForAll (folded : String) : Bool := mentionsAny folded ["which ", "list ", "all ", "name those", "name the "]

def projectWideEmployeeQuestion (folded : String) (exhaustive : Bool) : Bool :=
  exhaustive && employeeLanguage folded && !taskLanguage folded &&
    mentionsAny folded ["which employees", "all employees", "employees are", "which people", "who is at risk"]

def isTask (key : String) (entity : EvidenceEntity) : Bool := entity.kind == .task && entity.identifier == key

/-- One turn of the loops over keys: a task that is not there yet is added. -/
def addTask (entities : List EvidenceEntity) (key : String) : Except Error (List EvidenceEntity) :=
  if entities.any (isTask key) then .ok entities
  else do
    let entity ← evidenceEntity .task key
    .ok (entities ++ [entity])

section
variable [TextTables]

/-- `re.findall(r"\b[A-Z][A-Z0-9]{1,19}-\d+\b", question.upper())`. -/
def namedKeys (question : String) : List String :=
  (Pattern.issueKey.findAll (upper question).toList).map fun found => String.ofList found.text

/-- The keys of the last answer, if the question refers to them. -/
def priorKeys (folded : String) (previous : Option GroundedAnswerContext) : List String :=
  match previous with
  | some context => if refersToPriorTasks folded previous then context.issues.map (·.key) else []
  | none => []

/-- The entities of the plan that are kept: none, where the question asks about all employees. -/
def keptEntities (question : String) (planned : EvidencePlan) : List EvidenceEntity :=
  if projectWideEmployeeQuestion (casefold question) (planned.exhaustive || asksForAll (casefold question)) then []
  else planned.entities

/-- `planned.model_copy(update=...)`. -/
def updatedPlan (question : String) (planned : EvidencePlan) (previous : Option GroundedAnswerContext)
    (entities : List EvidenceEntity) : EvidencePlan :=
  let folded := casefold question
  let prior := refersToPriorTasks folded previous
  { scope := if entities.any (·.kind == .task) then .task else normalizedScope folded prior planned.scope
    entities := entities
    evidenceCategories := (requiredCategories folded prior).foldl requireCategory planned.evidenceCategories
    exhaustive := planned.exhaustive || asksForAll folded }

def normalizeEvidencePlan (question : String) (planned : EvidencePlan) (previous : Option GroundedAnswerContext) :
    Except Error EvidencePlan := do
  let entities ← (namedKeys question).foldlM addTask (keptEntities question planned)
  let entities ← (priorKeys (casefold question) previous).foldlM addTask entities
  .ok (updatedPlan question planned previous entities)

end

/-! ## What is added -/

/-- The base, and behind it what is not in it, each once. -/
def Adds {α : Type} (base result : List α) : Prop :=
  ∃ added, result = base ++ added ∧ added.Nodup ∧ ∀ a ∈ added, a ∉ base

section
variable {α : Type} {base result : List α} {a : α}

theorem Adds.refl (base : List α) : Adds base base := ⟨[], (List.append_nil _).symm, List.nodup_nil, fun _ h => (by cases h)⟩

theorem Adds.snoc (h : Adds base result) (ha : a ∉ result) : Adds base (result ++ [a]) := by
  obtain ⟨added, rfl, hnodup, hnew⟩ := h
  rw [List.mem_append, not_or] at ha
  refine ⟨added ++ [a], List.append_assoc _ _ _, ?_, fun b hb => ?_⟩
  · exact hnodup.append (List.nodup_singleton a) (List.disjoint_singleton.mpr ha.2)
  · rcases List.mem_append.mp hb with hb | hb
    · exact hnew b hb
    · exact (List.mem_singleton.mp hb) ▸ ha.1

theorem Adds.subset (h : Adds base result) (ha : a ∈ base) : a ∈ result := by
  obtain ⟨added, rfl, _⟩ := h
  exact List.mem_append_left added ha

end

/-! ## The categories -/

section
variable {categories base : List EvidenceCategory} {required : List EvidenceCategory}

/-- A category is added only if it is not there. -/
theorem adds_requireCategories (h : Adds base categories) : Adds base (required.foldl requireCategory categories) := by
  induction required generalizing categories with
  | nil => exact h
  | cons category required ih =>
    refine ih ?_
    unfold requireCategory
    split
    · exact h
    · rename_i hnew
      exact h.snoc hnew

theorem mem_requireCategories (h : ∀ category ∈ required, category ∈ categories) :
    required.foldl requireCategory categories = categories := by
  induction required with
  | nil => rfl
  | cons category required ih =>
    obtain ⟨hcategory, hrest⟩ := List.forall_mem_cons.mp h
    rw [List.foldl_cons, requireCategory, if_pos hcategory]
    exact ih hrest

theorem required_mem : ∀ category ∈ required, category ∈ required.foldl requireCategory categories := by
  induction required generalizing categories with
  | nil => exact fun _ h => (by cases h)
  | cons category required ih =>
    refine List.forall_mem_cons.mpr ⟨?_, ih⟩
    have hhere : category ∈ requireCategory categories category := by
      unfold requireCategory
      split
      · assumption
      · exact List.mem_append_right _ (List.mem_singleton_self category)
    have hadds : Adds (requireCategory categories category)
        (required.foldl requireCategory (requireCategory categories category)) := adds_requireCategories (Adds.refl _)
    exact hadds.subset hhere

end

/-! ## The tasks -/

section
variable {entities base result : List EvidenceEntity} {keys : List String} {key : String}

theorem any_isTask : entities.any (isTask key) = true ↔ ⟨.task, key⟩ ∈ entities := by
  rw [List.any_eq_true]
  constructor
  · intro h
    obtain ⟨⟨kind, identifier⟩, hentity, hkey⟩ := h
    rw [isTask, Bool.and_eq_true, beq_iff_eq, beq_iff_eq] at hkey
    obtain ⟨rfl, rfl⟩ := hkey
    exact hentity
  · exact fun h => ⟨_, h, by simp [isTask]⟩

theorem evidenceEntity_ok {kind : EntityKind} {entity : EvidenceEntity} : evidenceEntity kind key = .ok entity ↔
    (1 ≤ key.length ∧ key.length ≤ 128) ∧ entity = ⟨kind, key⟩ := by
  unfold evidenceEntity
  split
  · exact ⟨fun h => (by cases h), fun h => (by omega)⟩
  · split
    · exact ⟨fun h => (by cases h), fun h => (by omega)⟩
    · exact ⟨fun h => ⟨by omega, (Except.ok.inj h).symm⟩, fun h => by rw [h.2]⟩

/-- What one turn leaves: the same entities, or one more. -/
theorem addTask_ok : addTask entities key = .ok result ↔
    ⟨.task, key⟩ ∈ entities ∧ result = entities ∨
      ⟨.task, key⟩ ∉ entities ∧ (1 ≤ key.length ∧ key.length ≤ 128) ∧ result = entities ++ [⟨.task, key⟩] := by
  unfold addTask
  by_cases h : entities.any (isTask key) = true
  · rw [if_pos h]
    have hmem := any_isTask.mp h
    exact ⟨fun hok => .inl ⟨hmem, (Except.ok.inj hok).symm⟩, fun hok => hok.elim (fun hsame => by rw [hsame.2])
      fun hnew => absurd hmem hnew.1⟩
  · rw [if_neg h]
    have hmem : ⟨.task, key⟩ ∉ entities := fun hin => h (any_isTask.mpr hin)
    rw [except_bind_ok]
    constructor
    · intro hok
      obtain ⟨entity, hentity, hresult⟩ := hok
      obtain ⟨hlength, rfl⟩ := evidenceEntity_ok.mp hentity
      exact .inr ⟨hmem, hlength, (Except.ok.inj hresult).symm⟩
    · intro hok
      obtain ⟨_, hlength, rfl⟩ := hok.resolve_left fun hsame => hmem hsame.1
      exact ⟨_, evidenceEntity_ok.mpr ⟨hlength, rfl⟩, rfl⟩

/-- Keys that are all there change nothing. -/
theorem addTasks_of_mem (h : ∀ key ∈ keys, ⟨.task, key⟩ ∈ entities) : keys.foldlM addTask entities = .ok entities :=
  foldlM_fixed fun key hkey => addTask_ok.mpr (.inl ⟨h key hkey, rfl⟩)

/-- The loop adds to the entities, and has each key among them in the end. -/
theorem addTasks_ok (h : keys.foldlM addTask entities = .ok result) (hbase : Adds base entities) :
    Adds base result ∧ (∀ entity ∈ entities, entity ∈ result) ∧ ∀ key ∈ keys, ⟨.task, key⟩ ∈ result := by
  induction keys generalizing entities with
  | nil =>
    obtain rfl := Except.ok.inj h
    exact ⟨hbase, fun _ hin => hin, fun _ hin => (by cases hin)⟩
  | cons key keys ih =>
    rw [List.foldlM_cons] at h
    obtain ⟨next, hnext, hrest⟩ := except_bind_ok.mp h
    rcases addTask_ok.mp hnext with hsame | hnew
    · obtain ⟨hkey, rfl⟩ := hsame
      obtain ⟨hadds, hkeeps, hkeys⟩ := ih hrest hbase
      exact ⟨hadds, hkeeps, List.forall_mem_cons.mpr ⟨hkeeps _ hkey, hkeys⟩⟩
    · obtain ⟨hkey, _, rfl⟩ := hnew
      obtain ⟨hadds, hkeeps, hkeys⟩ := ih hrest (hbase.snoc hkey)
      refine ⟨hadds, fun entity hin => hkeeps _ (List.mem_append_left _ hin), List.forall_mem_cons.mpr ⟨?_, hkeys⟩⟩
      exact hkeeps _ (List.mem_append_right _ (List.mem_singleton_self _))

/-- An entity can have the key. -/
def CanName (key : String) : Prop := 1 ≤ key.length ∧ key.length ≤ 128

/-- The loop goes through when each key is there or can be an entity's. -/
theorem addTasks_returns_iff :
    (∃ result, keys.foldlM addTask entities = .ok result) ↔ ∀ key ∈ keys, ⟨.task, key⟩ ∈ entities ∨ CanName key := by
  induction keys generalizing entities with
  | nil => exact iff_of_true ⟨entities, rfl⟩ fun _ h => (by cases h)
  | cons key keys ih =>
    rw [List.foldlM_cons, List.forall_mem_cons]
    by_cases hkey : ⟨.task, key⟩ ∈ entities
    · rw [addTask_ok.mpr (.inl ⟨hkey, rfl⟩)]
      exact ih.trans (and_iff_right (.inl hkey)).symm
    · constructor
      · intro h
        obtain ⟨result, h⟩ := h
        obtain ⟨next, hnext, hrest⟩ := except_bind_ok.mp h
        obtain ⟨_, hlength, rfl⟩ := (addTask_ok.mp hnext).resolve_left fun hsame => hkey hsame.1
        refine ⟨.inr hlength, fun other hother => ?_⟩
        rcases ih.mp ⟨result, hrest⟩ other hother with hin | hcan
        · rcases List.mem_append.mp hin with hin | hin
          · exact .inl hin
          · obtain rfl : other = key := congrArg EvidenceEntity.identifier (List.mem_singleton.mp hin)
            exact .inr hlength
        · exact .inr hcan
      · intro h
        obtain ⟨hcan, hrest⟩ := h
        rw [addTask_ok.mpr (.inr ⟨hkey, hcan.resolve_left hkey, rfl⟩)]
        exact ih.mpr fun other hother => (hrest other hother).imp_left (List.mem_append_left _)

end

/-! ## The laws -/

section
variable [TextTables] (question : String) (planned : EvidencePlan) (previous : Option GroundedAnswerContext)

/-- The keys that become tasks. -/
def taskKeys : List String := namedKeys question ++ priorKeys (casefold question) previous

structure Normalized (r : EvidencePlan) : Prop where
  idempotent : normalizeEvidencePlan question r previous = .ok r
  categories : Adds planned.evidenceCategories r.evidenceCategories
  exhaustive : planned.exhaustive = true → r.exhaustive = true
  entities : Adds (keptEntities question planned) r.entities
  keys : ∀ key ∈ namedKeys question, ⟨.task, key⟩ ∈ r.entities
  scope : (∃ entity ∈ r.entities, entity.kind = .task) → r.scope = .task

variable {question planned previous} {r : EvidencePlan} {entities : List EvidenceEntity}

/-- The two loops are one over all keys. -/
theorem normalizeEvidencePlan_ok : normalizeEvidencePlan question planned previous = .ok r ↔
    ∃ entities, (taskKeys question previous).foldlM addTask (keptEntities question planned) = .ok entities ∧
      updatedPlan question planned previous entities = r := by
  rw [taskKeys, List.foldlM_append, normalizeEvidencePlan]
  simp only [except_bind_ok, Except.ok.injEq]
  constructor
  · intro h
    obtain ⟨named, hnamed, entities, hentities, hr⟩ := h
    exact ⟨entities, ⟨named, hnamed, hentities⟩, hr⟩
  · intro h
    obtain ⟨entities, ⟨named, hnamed, hentities⟩, hr⟩ := h
    exact ⟨named, hnamed, entities, hentities, hr⟩

omit [TextTables] in
theorem normalizedScope_again (folded : String) (prior : Bool) (scope : EvidenceScope) :
    normalizedScope folded prior (normalizedScope folded prior scope) = normalizedScope folded prior scope := by
  unfold normalizedScope
  split
  · rfl
  · split
    · rfl
    · split <;> rfl

/-- What was decided is decided again. -/
theorem updatedPlan_again : updatedPlan question (updatedPlan question planned previous entities) previous entities =
    updatedPlan question planned previous entities := by
  have hcategories : ∀ required categories : List EvidenceCategory,
      required.foldl requireCategory (required.foldl requireCategory categories) =
        required.foldl requireCategory categories := fun _ _ => mem_requireCategories required_mem
  simp only [updatedPlan, hcategories, Bool.or_assoc, Bool.or_self, EvidencePlan.mk.injEq, and_true]
  split
  · rfl
  · exact normalizedScope_again _ _ _

theorem keptEntities_again : keptEntities question (updatedPlan question planned previous entities) =
    if projectWideEmployeeQuestion (casefold question) (planned.exhaustive || asksForAll (casefold question)) then []
    else entities := by
  simp only [keptEntities, updatedPlan, Bool.or_assoc, Bool.or_self]

theorem normalized_again (h : normalizeEvidencePlan question planned previous = .ok r) :
    normalizeEvidencePlan question r previous = .ok r := by
  obtain ⟨entities, hentities, rfl⟩ := normalizeEvidencePlan_ok.mp h
  refine normalizeEvidencePlan_ok.mpr ⟨entities, ?_, updatedPlan_again⟩
  rw [keptEntities_again]
  by_cases hwide : projectWideEmployeeQuestion (casefold question)
      (planned.exhaustive || asksForAll (casefold question)) = true
  · -- the plan's entities are dropped again, and found again
    rw [keptEntities, if_pos hwide] at hentities
    rw [if_pos hwide]
    exact hentities
  · obtain ⟨_, _, hkeys⟩ := addTasks_ok hentities (Adds.refl _)
    rw [if_neg hwide]
    exact addTasks_of_mem hkeys

theorem updatedPlan_categories : (updatedPlan question planned previous entities).evidenceCategories =
    (requiredCategories (casefold question) (refersToPriorTasks (casefold question) previous)).foldl requireCategory
      planned.evidenceCategories := by
  simp only [updatedPlan]

theorem normalized_of_ok (h : normalizeEvidencePlan question planned previous = .ok r) :
    Normalized question planned previous r := by
  have hagain := normalized_again h
  obtain ⟨entities, hentities, rfl⟩ := normalizeEvidencePlan_ok.mp h
  obtain ⟨hadds, _, hkeys⟩ := addTasks_ok hentities (Adds.refl _)
  constructor
  · exact hagain
  · rw [updatedPlan_categories]
    exact adds_requireCategories (Adds.refl _)
  · intro hplanned
    rw [updatedPlan, hplanned, Bool.true_or]
  · exact hadds
  · intro key hkey
    refine hkeys key ?_
    rw [taskKeys]
    exact List.mem_append_left _ hkey
  · intro hany
    obtain ⟨entity, hin, hkind⟩ := hany
    have hany : entities.any (·.kind == .task) = true := List.any_eq_true.mpr ⟨entity, hin, by rw [hkind]; rfl⟩
    rw [updatedPlan]
    exact if_pos hany

/-- Every plan that is returned stays as it is when it is normalized again, and has all that
    was planned and the question calls for, each once; and a plan is returned exactly when
    every issue that is not an entity yet can be one. -/
theorem normalization_closes (question : String) (planned : EvidencePlan) (previous : Option GroundedAnswerContext) :
    (∀ r, normalizeEvidencePlan question planned previous = .ok r → Normalized question planned previous r) ∧
    ((∃ r, normalizeEvidencePlan question planned previous = .ok r) ↔
      ∀ key ∈ taskKeys question previous, ⟨.task, key⟩ ∈ keptEntities question planned ∨ CanName key) := by
  refine ⟨fun r h => normalized_of_ok h, ?_⟩
  rw [← addTasks_returns_iff]
  constructor
  · intro h
    obtain ⟨r, h⟩ := h
    obtain ⟨entities, hentities, _⟩ := normalizeEvidencePlan_ok.mp h
    exact ⟨entities, hentities⟩
  · intro h
    obtain ⟨entities, hentities⟩ := h
    exact ⟨_, normalizeEvidencePlan_ok.mpr ⟨entities, hentities, rfl⟩⟩

end

/-! ## Questions that name an issue -/

section
attribute [local instance] TextTables.ascii

/-- A number of 125 digits. -/
def longKey : String := "WFD-" ++ String.ofList (List.replicate 125 '1')

theorem namedKeys_long : namedKeys ("Is " ++ longKey ++ " late?") = [longKey] := by decide +kernel

/-- An issue whose key no entity can have: nothing is returned, so that it is no task of a plan. -/
theorem a_long_key_is_refused :
    normalizeEvidencePlan ("Is " ++ longKey ++ " late?") ⟨.project, [], [.jiraIssues], false⟩ none =
        .error (.validationError "identifier" "String should have at most 128 characters") ∧
      longKey ∈ namedKeys ("Is " ++ longKey ++ " late?") ∧
      ¬ ∃ r, normalizeEvidencePlan ("Is " ++ longKey ++ " late?") ⟨.project, [], [.jiraIssues], false⟩ none = .ok r ∧
        Normalized ("Is " ++ longKey ++ " late?") ⟨.project, [], [.jiraIssues], false⟩ none r := by
  have hrefused : normalizeEvidencePlan ("Is " ++ longKey ++ " late?") ⟨.project, [], [.jiraIssues], false⟩ none =
      .error (.validationError "identifier" "String should have at most 128 characters") := by
    have hkept : keptEntities ("Is " ++ longKey ++ " late?") ⟨.project, [], [.jiraIssues], false⟩ = [] := by
      unfold keptEntities
      split <;> rfl
    rw [normalizeEvidencePlan, namedKeys_long, hkept]
    have hadd : addTask [] longKey = .error (.validationError "identifier" "String should have at most 128 characters") := by
      have hlong : 128 < longKey.length := by decide +kernel
      rw [addTask, if_neg (by simp), evidenceEntity, if_neg (by omega), if_pos hlong]
      rfl
    simp only [List.foldlM_cons, hadd]
    rfl
  refine ⟨hrefused, by rw [namedKeys_long]; exact List.mem_singleton_self _, fun h => ?_⟩
  obtain ⟨r, hr, -⟩ := h
  rw [hrefused] at hr
  cases hr

theorem namedKeys_sample : namedKeys "Is wfd-1 late?" = ["WFD-1"] := by decide +kernel

/-- A plan for a project becomes one for the task that is named. -/
theorem a_named_issue_is_a_task : ∃ r,
    normalizeEvidencePlan "Is wfd-1 late?" ⟨.project, [], [.jiraIssues], false⟩ none = .ok r ∧
      ⟨.task, "WFD-1"⟩ ∈ r.entities ∧ r.scope = .task := by
  obtain ⟨hlaws, hreturns⟩ := normalization_closes "Is wfd-1 late?" ⟨.project, [], [.jiraIssues], false⟩ none
  obtain ⟨r, hr⟩ := hreturns.mpr fun key hkey => by
    rw [taskKeys, namedKeys_sample, priorKeys, List.append_nil, List.mem_singleton] at hkey
    rw [hkey]
    exact .inr ⟨by decide, by decide⟩
  have htask : ⟨.task, "WFD-1"⟩ ∈ r.entities :=
    (hlaws r hr).keys "WFD-1" (by rw [namedKeys_sample]; exact List.mem_singleton_self _)
  exact ⟨r, hr, htask, (hlaws r hr).scope ⟨_, htask, rfl⟩⟩

end

end WorkforceRisk.Evidence
