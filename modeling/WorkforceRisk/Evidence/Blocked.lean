/-
  WorkforceRisk.Evidence.Blocked — five answers to whether an issue is blocked
  (services/agent-api/src/agent_api: dashboard/service.py, evidence/focus.py,
  task_queries.py, progress_history.py, risk_evidence.py).

  A blocker field counts when its value does, for all but the dossier, which takes texts
  only. A link counts by its relationship: up to case and blanks at its ends (dashboard,
  history), up to case (query), as the head of the link's text (focus), or as soon as the
  link's text has `block` in it, be it `blocks` or a key (dossier).

  Proved (`one_notion_iff`): exactly for which rows the five agree.
-/

import WorkforceRisk.Evidence.Focus
import WorkforceRisk.Progress.Observation

namespace WorkforceRisk.Evidence

open Lib Persistence Historical Dashboard Jira Risk Progress

/-! ## The task query -/

section
variable [Unicode]

/-- What the query for blocked tasks keeps. -/
def isBlockedItem (item : JiraIssueEvidence) : Bool :=
  (blockerOf item).any (· != "") || item.links.any fun link => casefold link.relationship == "is blocked by"

/-- `_fact`. -/
def factOf (item : JiraIssueEvidence) : TaskFact where
  key := item.key
  summary := item.summary
  status := item.status
  assignee := item.assignee.map (·.displayName)
  dueDate := item.dueDate
  remainingHours := item.remainingEstimateSeconds.map inHours
  blocker := blockerOf item
  dependencies := item.links.map (·.dependency)

/-- The tasks the query answers with, of the issues Jira finds not done. -/
def blockedTasks (issues : List JiraIssueEvidence) : List TaskFact := (issues.filter isBlockedItem).map factOf

/-! ## The progress history -/

/-- The issues a row says it is blocked by. -/
def blockerIssueKeys (row : JiraIssueEvidence) : List String :=
  sortedSet ((row.links.filter fun link => strip (casefold link.relationship) == "is blocked by").map (·.issueKey))

def blockerCategory (row : JiraIssueEvidence) : Option FieldValue :=
  (row.customFields.find? fun field => field.logicalName == "blocker_category" && field.value.truthy).map (·.value)

/-- `bool(blocker_category) or bool(blocker_keys)`. -/
def isBlockedObservation (row : JiraIssueEvidence) : Bool :=
  (blockerCategory row).any (·.truthy) || !(blockerIssueKeys row).isEmpty

/-- Hours of an estimate; the model refuses negative ones. -/
def observedHours (field : String) : Option Int → Except Error (Option Hours)
  | none => .ok none
  | some seconds =>
    if h : 0 ≤ inHours seconds then .ok (some ⟨inHours seconds, h⟩)
    else .error (.validationError field "Input should be greater than or equal to 0")

/-- The observation of a row, once its hours are read; the model checks its keys and status. -/
def observed (projectKey : String) (row : JiraIssueEvidence) (original remaining spent : Option Hours) :
    Except Error TaskProgressObservation :=
  if hp : isProjectKey projectKey = true then
    if hk : isIssueKey row.key = true then
      if hs : 1 ≤ row.status.length ∧ row.status.length ≤ 128 then .ok
        { projectKey := projectKey
          issueKey := row.key
          assigneeId := row.account
          capturedAt := row.evidenceTimestamp
          jiraUpdatedAt := row.activityTimestamp
          status := row.status
          originalEstimateHours := original
          remainingEstimateHours := remaining
          timeSpentHours := spent
          dueDate := row.dueDate
          priority := row.priority
          blocked := isBlockedObservation row
          blockerIssueKeys := blockerIssueKeys row
          projectKey_ok := hp
          issueKey_ok := hk
          status_length := hs }
      else .error (.validationError "status" "String should have between 1 and 128 characters")
    else .error (.validationError "issue_key" "String should match the pattern of an issue key")
  else .error (.validationError "project_key" "String should match the pattern of a project key")

/-- `_observation`. -/
def observationOf (projectKey : String) (row : JiraIssueEvidence) : Except Error TaskProgressObservation := do
  let original ← observedHours "original_estimate_hours" row.originalEstimateSeconds
  let remaining ← observedHours "remaining_estimate_hours" row.remainingEstimateSeconds
  let spent ← observedHours "time_spent_hours" (row.timeSpentSeconds.map fun seconds => (seconds : Int))
  observed projectKey row original remaining spent

/-! ## The risk dossier -/

/-- The blocker a dossier tells of: a text that says something. -/
def dossierBlocker (row : JiraIssueEvidence) : Option String :=
  row.customFields.findSome? fun field => match field.value with
    | .str s => if field.logicalName == "blocker_category" && s ∉ ["", "None"] then some s else none
    | _ => none

/-- `JiraRiskEvidenceProvider._task`. -/
def taskSituation (row : JiraIssueEvidence) : TaskSituation where
  key := row.key
  summary := row.summary
  status := row.status
  priority := row.priority
  dueDate := row.dueDate
  remainingHours := row.remainingEstimateSeconds.map inHours
  blockerCategory := dossierBlocker row
  dependencies := row.links.map (·.dependency)
  lastActivityAt := row.activityTimestamp
  evidenceReferences := row.evidenceReferences.map fun r => "jira:" ++ r.issueKey ++ ":" ++ r.fieldId

def isBlockedSituation (task : TaskSituation) : Bool :=
  task.blockerCategory.any (· != "") || task.dependencies.any fun dependency => contains (casefold dependency) "block"

variable [FloatText]

/-- The dossier of the rows that are relevant. -/
def dossierOf (employeeId projectKey : String) (capacity : Rat) (today : Date) (now : DateTime)
    (relevant : List JiraIssueEvidence) : RiskEvidenceDossier :=
  let tasks := relevant.map taskSituation
  { employeeId := employeeId
    projectKey := projectKey
    observedAt := (DashboardService.latestEvidence relevant).getD ⟨now, 0⟩
    availableCapacityHours := capacity
    totalRemainingHours :=
      if tasks.any (·.remainingHours.isNone) then none
      else some (FloatText.hundredths (tasks.map fun task => task.remainingHours.getD 0).sum)
    tasks := tasks
    overdueTaskKeys := (tasks.filter fun task => isOverdue today task.dueDate).map (·.key)
    dueSoonTaskKeys := (tasks.filter fun task => isDueSoon today task.dueDate).map (·.key)
    blockedTaskKeys := (tasks.filter isBlockedSituation).map (·.key)
    missingEvidence :=
      sortedSet ((tasks.filter (·.remainingHours.isNone)).map fun task => task.key ++ ".remaining_estimate")
    evidenceReferences := (tasks.flatMap (·.evidenceReferences)).eraseDups }

/-- `get_current_dossier`, of the rows Jira answers. -/
def currentDossier (capacities : List (String × Rat)) (employeeId projectKey : String) (today : Date) (now : DateTime)
    (rows : List JiraIssueEvidence) : Except Error RiskEvidenceDossier :=
  match capacities.find? (·.1 == employeeId) with
  | none => .error (.valueError "employee capacity is not configured")
  | some (_, capacity) =>
    if rows.any fun row => !startsWith row.key (projectKey ++ "-") then
      .error (.valueError "Jira evidence is outside the requested project")
    else .ok (dossierOf employeeId projectKey capacity today now (rows.filter fun row =>
      row.workforceEmployeeId == some employeeId && !isDoneStatus row.status))

end

/-! ## What each of them asks -/

/-- A blocker field has a value that counts. -/
def hasBlocker (row : JiraIssueEvidence) : Bool := (blockerOf row).isSome

section
variable [Unicode]

/-- A link says `is blocked by`, up to case. -/
def saysBlockedBy (row : JiraIssueEvidence) : Bool :=
  row.links.any fun link => casefold link.relationship == "is blocked by"

/-- A link says so between blanks. -/
def saysBlockedByStripped (row : JiraIssueEvidence) : Bool :=
  row.links.any fun link => strip (casefold link.relationship) == "is blocked by"

/-- The text of a link begins that way. -/
def beginsBlockedBy (row : JiraIssueEvidence) : Bool :=
  row.links.any fun link => startsWith (casefold link.dependency) "is blocked by:"

/-- The text of a link has `block` in it, in its relationship or in its key. -/
def saysBlock (row : JiraIssueEvidence) : Bool :=
  row.links.any fun link => contains (casefold link.dependency) "block"

variable {row : JiraIssueEvidence}

theorem isBlockedRow_eq : isBlockedRow row = (hasBlocker row || saysBlockedByStripped row) := rfl

omit [Unicode] in
/-- A blocker that counts is told by a text that is not empty. -/
theorem blockerOf_any : (blockerOf row).any (· != "") = hasBlocker row := by
  unfold hasBlocker blockerOf
  cases hf : row.customFields.find? fun field => field.logicalName == "blocker_category" && field.value.truthy with
  | none => rfl
  | some field =>
    have htruthy : field.value.truthy = true := by
      have := List.find?_some hf
      simp only [Bool.and_eq_true] at this
      exact this.2
    simpa using FieldValue.text_ne htruthy

theorem isBlockedItem_eq : isBlockedItem row = (hasBlocker row || saysBlockedBy row) := by
  rw [isBlockedItem, blockerOf_any, saysBlockedBy]

theorem isBlocked_task (service : DashboardService) :
    isBlocked (service.task row) = (hasBlocker row || beginsBlockedBy row) := by
  rw [isBlocked, show (service.task row).blocker = blockerOf row from rfl,
    show (service.task row).dependencies = row.links.map (·.dependency) from rfl, blockerOf_any, List.any_map]
  simp only [beginsBlockedBy, Function.comp_def]

omit [Unicode] in
theorem sortedSet_isEmpty (keys : List String) : (sortedSet keys).isEmpty = keys.isEmpty := by
  rw [Bool.eq_iff_iff, List.isEmpty_iff, List.isEmpty_iff, List.eq_nil_iff_forall_not_mem,
    List.eq_nil_iff_forall_not_mem]
  simp only [sortedSet, List.mem_insertionSort, List.mem_dedup]

/-- The history and the dashboard ask the same. -/
theorem isBlockedObservation_eq : isBlockedObservation row = isBlockedRow row := by
  have hcategory : (blockerCategory row).any (·.truthy) = hasBlocker row := by
    unfold blockerCategory hasBlocker blockerOf
    cases hf : row.customFields.find? fun field => field.logicalName == "blocker_category" && field.value.truthy with
    | none => rfl
    | some field =>
      have := List.find?_some hf
      simp only [Bool.and_eq_true] at this
      exact this.2
  have hkeys : (!(blockerIssueKeys row).isEmpty) = saysBlockedByStripped row := by
    rw [blockerIssueKeys, sortedSet_isEmpty]
    unfold saysBlockedByStripped
    induction row.links with
    | nil => rfl
    | cons link links ih =>
      cases h : strip (casefold link.relationship) == "is blocked by" <;> simp_all
  rw [isBlockedObservation, hcategory, hkeys, isBlockedRow_eq]

omit [Unicode] in
/-- What the dossier tells of is a text of the field that is not empty. -/
theorem dossierBlocker_some {text : String} (h : dossierBlocker row = some text) : text ≠ "" ∧
    ∃ field ∈ row.customFields, (field.logicalName == "blocker_category") = true ∧ field.value = .str text := by
  obtain ⟨field, hmem, hfield⟩ := List.exists_of_findSome?_eq_some h
  split at hfield
  · rename_i s hs
    split at hfield
    · rename_i htext
      cases hfield
      simp only [Bool.and_eq_true, List.mem_cons, List.not_mem_nil, or_false, decide_eq_true_eq, not_or] at htext
      exact ⟨htext.2.1, field, hmem, htext.1, hs⟩
    · cases hfield
  · cases hfield

omit [Unicode] in
/-- A text the dossier tells of is a value that counts. -/
theorem hasBlocker_of_dossier (h : (dossierBlocker row).isSome = true) : hasBlocker row = true := by
  obtain ⟨text, htext⟩ := Option.isSome_iff_exists.mp h
  obtain ⟨hne, field, hmem, hname, hvalue⟩ := dossierBlocker_some htext
  have hcounts : (field.logicalName == "blocker_category" && field.value.truthy) = true := by
    rw [hname, hvalue, Bool.true_and]
    exact bne_iff_ne.mpr hne
  rw [hasBlocker, blockerOf, Option.isSome_map, List.find?_isSome]
  exact ⟨field, hmem, hcounts⟩

theorem isBlockedSituation_eq : isBlockedSituation (taskSituation row) =
    ((dossierBlocker row).isSome || saysBlock row) := by
  have hblocker : (dossierBlocker row).any (· != "") = (dossierBlocker row).isSome := by
    cases hd : dossierBlocker row with
    | none => rfl
    | some text => simpa using (dossierBlocker_some hd).1
  rw [isBlockedSituation, show (taskSituation row).blockerCategory = dossierBlocker row from rfl,
    show (taskSituation row).dependencies = row.links.map (·.dependency) from rfl, hblocker, List.any_map]
  simp only [saysBlock, Function.comp_def]

/-- The dossier of the row alone. -/
theorem mem_blockedTaskKeys [FloatText] {employeeId projectKey : String} {capacity : Rat} {today : Date}
    {now : DateTime} :
    decide (row.key ∈ (dossierOf employeeId projectKey capacity today now [row]).blockedTaskKeys) =
      ((dossierBlocker row).isSome || saysBlock row) := by
  rw [← isBlockedSituation_eq]
  show decide (row.key ∈ ([taskSituation row].filter isBlockedSituation).map (·.key)) = _
  cases hb : isBlockedSituation (taskSituation row) with
  | false => simp [hb]
  | true =>
    rw [List.filter_cons_of_pos hb]
    simp [taskSituation]

/-! ## Which of them follow -/

omit [Unicode] in
theorem any_imp {links : List JiraIssueLink} {p q : JiraIssueLink → Bool} (h : ∀ link, p link = true → q link = true)
    (hp : links.any p = true) : links.any q = true := by
  obtain ⟨link, hmem, hlink⟩ := List.any_eq_true.mp hp
  exact List.any_eq_true.mpr ⟨link, hmem, h link hlink⟩

omit [Unicode] in
theorem block_infix : "block".toList <:+: "is blocked by".toList := by decide

/-- What the relationship has in it, the link's text has. -/
theorem contains_dependency {link : JiraIssueLink} {part : String}
    (h : part.toList <:+: (casefold link.relationship).toList) : contains (casefold link.dependency) part = true := by
  rw [contains_iff, JiraIssueLink.dependency, casefold_append, casefold_append, String.append_assoc,
    String.toList_append]
  exact h.trans (List.prefix_append _ _).isInfix

theorem saysBlock_of_stripped (h : saysBlockedByStripped row = true) : saysBlock row = true := by
  refine any_imp (fun link hlink => contains_dependency ?_) h
  have hstrip : strip (casefold link.relationship) = "is blocked by" := by simpa using hlink
  have hin := stripBy_infix Unicode.isSpace (casefold link.relationship)
  rw [show stripBy Unicode.isSpace (casefold link.relationship) = "is blocked by" from hstrip] at hin
  exact block_infix.trans hin

theorem saysBlock_of_begins (h : beginsBlockedBy row = true) : saysBlock row = true := by
  refine any_imp (fun link hlink => ?_) h
  rw [startsWith_iff] at hlink
  rw [contains_iff]
  exact List.IsInfix.trans (by decide) hlink.isInfix

end

section
variable [TextTables] {row : JiraIssueEvidence}

theorem stripped_of_says (h : saysBlockedBy row = true) : saysBlockedByStripped row = true := by
  refine any_imp (fun link hlink => ?_) h
  have hfold : casefold link.relationship = "is blocked by" := by simpa using hlink
  have hi : Unicode.isSpace 'i' = false := TextTables.space_ascii 'i' rfl
  have hy : Unicode.isSpace 'y' = false := TextTables.space_ascii 'y' rfl
  rw [hfold, strip, stripBy]
  simp [hi, hy]

theorem begins_of_says (h : saysBlockedBy row = true) : beginsBlockedBy row = true := by
  refine any_imp (fun link hlink => ?_) h
  have hfold : casefold link.relationship = "is blocked by" := by simpa using hlink
  have hcolon : casefold ": " = ": " := by
    rw [casefold]
    simp [TextTables.casefold_ascii]
  rw [startsWith_iff, JiraIssueLink.dependency, casefold_append, casefold_append, hfold, hcolon]
  simp

/-! ## The five -/

/-- The five classifications of a row are equal. -/
structure SameAnswer [FloatText] (service : DashboardService) (employeeId projectKey : String) (capacity : Rat)
    (today : Date) (now : DateTime) (row : JiraIssueEvidence) : Prop where
  focus : isBlocked (service.task row) = isBlockedRow row
  query : isBlockedItem row = isBlockedRow row
  history : isBlockedObservation row = isBlockedRow row
  dossier : decide (row.key ∈ (dossierOf employeeId projectKey capacity today now [row]).blockedTaskKeys) =
    isBlockedRow row

/-- The row says plainly that it is blocked, or has a blocker that the dossier sees too, or
    has none and no link text with `block` in it. -/
def OneNotion (row : JiraIssueEvidence) : Prop :=
  saysBlockedBy row = true ∨
    (hasBlocker row = true ∧ ((dossierBlocker row).isSome = true ∨ saysBlock row = true)) ∨
    (hasBlocker row = false ∧ saysBlock row = false)

theorem one_notion_iff [FloatText] {service : DashboardService} {employeeId projectKey : String} {capacity : Rat}
    {today : Date} {now : DateTime} :
    SameAnswer service employeeId projectKey capacity today now row ↔ OneNotion row := by
  have hstripped : saysBlockedBy row = true → saysBlockedByStripped row = true := stripped_of_says
  have hbegins : saysBlockedBy row = true → beginsBlockedBy row = true := begins_of_says
  have hblock : saysBlockedByStripped row = true → saysBlock row = true := saysBlock_of_stripped
  have hblock' : beginsBlockedBy row = true → saysBlock row = true := saysBlock_of_begins
  have hdossier : (dossierBlocker row).isSome = true → hasBlocker row = true := hasBlocker_of_dossier
  have hfive : SameAnswer service employeeId projectKey capacity today now row ↔
      (hasBlocker row || beginsBlockedBy row) = (hasBlocker row || saysBlockedByStripped row) ∧
        (hasBlocker row || saysBlockedBy row) = (hasBlocker row || saysBlockedByStripped row) ∧
        ((dossierBlocker row).isSome || saysBlock row) = (hasBlocker row || saysBlockedByStripped row) := by
    rw [← isBlocked_task service, ← isBlockedItem_eq, ← isBlockedRow_eq,
      ← @mem_blockedTaskKeys _ row _ employeeId projectKey capacity today now]
    exact ⟨fun h => ⟨h.focus, h.query, h.dossier⟩, fun h => ⟨h.1, h.2.1, isBlockedObservation_eq, h.2.2⟩⟩
  rw [hfive, OneNotion]
  revert hstripped hbegins hblock hblock' hdossier
  cases hasBlocker row <;> cases saysBlockedBy row <;> cases saysBlock row <;> cases saysBlockedByStripped row <;>
    cases beginsBlockedBy row <;> cases (dossierBlocker row).isSome <;> simp

end

/-! ## An issue that blocks another -/

/-- To the dossier an issue that blocks another is blocked itself. -/
theorem a_blocking_issue_is_blocked : letI := TextTables.ascii; letI := FloatText.plain
    ¬ SameAnswer bareService "EMP-001" "WFD" 40 0 0 { sampleRow with links := [⟨"blocks", "WFD-2"⟩] } := by
  let _ := TextTables.ascii
  let _ := FloatText.plain
  intro h
  exact absurd h.dossier (by decide)

end WorkforceRisk.Evidence
