/-
  WorkforceRisk.Scenario.Fields — what the seeder writes of a scenario
  (scripts/jira/mcp_scenario.py `_jira_fields`, `_jira_profile_fields`).

  An issue and a profile are told in labels, each a name and a value after a colon. Proved:
  of the names a search looks for, `workforce-profile-id:` and `workforce-external:`, a
  profile's labels have the first one for the profile itself and not the second
  (`profileLabel_mem_profileLabels`, `externalLabel_notMem_profileLabels`); an issue's have
  the issue's own external id and what its own labels bring of both
  (`externalLabel_mem_issueLabels`, `profileLabel_mem_issueLabels`).
-/

import Mathlib.Data.List.Dedup
import WorkforceRisk.Evidence.Text
import WorkforceRisk.Scenario.Definition

namespace WorkforceRisk.Scenario

open Lib Persistence Historical Evidence

/-- `sorted(set(labels))`. -/
def sortedSet (labels : List String) : List String := labels.dedup.mergeSort fun a b => decide (a ≤ b)

theorem mem_sortedSet {label : String} {labels : List String} : label ∈ sortedSet labels ↔ label ∈ labels := by
  rw [sortedSet, List.mem_mergeSort, List.mem_dedup]

/-- `date + timedelta(days=days)`. -/
def addDays (date : Date) (days : Int) : Except Raised Date :=
  if days < -2 ^ 31 ∨ 2 ^ 31 ≤ days then .error (.overflowError "Python int too large to convert to C int")
  else if 999999999 < days.natAbs then
    .error (.overflowError s!"days={days}; must have magnitude <= 999999999")
  else if -719162 ≤ date + days ∧ date + days ≤ 2932896 then .ok (date + days)
  else .error (.overflowError "date value out of range")

section
variable [Unicode]

/-- What a priority is in Jira; one that is not known raises. -/
def jiraPriority (priority : String) : Except Raised String :=
  match [("critical", "Highest"), ("high", "High"), ("medium", "Medium"), ("low", "Low")].lookup (casefold priority) with
  | some name => .ok name
  | none => .error (.keyError (casefold priority))

def externalLabel (externalId : String) : String := "workforce-external:" ++ externalId

def estimateLabel (issue : ScenarioIssue) : String := "workforce-estimate-hours:" ++ issue.estimateHours.formatG

def remainingLabel (issue : ScenarioIssue) : String := "workforce-remaining-hours:" ++ issue.remainingHours.formatG

def difficultyLabel (issue : ScenarioIssue) : String := "workforce-difficulty:" ++ toString issue.difficulty

def skillLabels (issue : ScenarioIssue) : List String :=
  issue.requiredSkills.map fun skill => "workforce-skill:" ++ casefold skill

def seniorLabels (issue : ScenarioIssue) : List String :=
  (issue.seniorPairingEmployeeId.map fun id => "workforce-senior-pair:" ++ id).toList

def evidenceLabel (issue : ScenarioIssue) : String :=
  if issue.evidenceComplete then "workforce-evidence:complete" else "workforce-evidence:incomplete"

def workloadLabels (issue : ScenarioIssue) : List String :=
  (issue.workloadProfile.map fun profile => "workforce-workload-profile:" ++ profile).toList

/-- The labels that tell of an issue's planning. -/
def derivedLabels (issue : ScenarioIssue) : List String :=
  [estimateLabel issue, remainingLabel issue, difficultyLabel issue] ++ skillLabels issue ++ seniorLabels issue ++
    [evidenceLabel issue] ++ workloadLabels issue

def issueLabels (issue : ScenarioIssue) : List String :=
  sortedSet (issue.labels ++ [externalLabel issue.externalId] ++ derivedLabels issue)

structure JiraFields where
  labels : List String
  priority : String
  duedate : Date
  blockerCategory : Option String

/-- `_jira_fields`. -/
def jiraFields (anchorDate : Date) (issue : ScenarioIssue) : Except Raised JiraFields := do
  let dueDate ← addDays anchorDate issue.dueOffsetDays
  let priority ← jiraPriority issue.priority
  return ⟨issueLabels issue, priority, dueDate, issue.blockerCategory⟩

/-! ## Profiles -/

def isSlugCharacter (c : Char) : Bool := ('a' ≤ c && c ≤ 'z') || ('0' ≤ c && c ≤ '9')

/-- Every run of other characters as one hyphen: `re.sub(r"[^a-z0-9]+", "-", ...)`. -/
def hyphenate : Bool → List Char → List Char
  | _, [] => []
  | afterHyphen, c :: cs =>
    if isSlugCharacter c then c :: hyphenate false cs
    else if afterHyphen then hyphenate true cs
    else '-' :: hyphenate true cs

/-- `_label_slug`. -/
def labelSlug (value : String) : String :=
  stripBy (· == '-') (String.ofList (hyphenate false (casefold value).toList))

def profileLabel (employeeId : String) : String := "workforce-profile-id:" ++ employeeId

/-- The labels of `_jira_profile_fields`. -/
def profileLabels (profile : ScenarioProfile) : List String :=
  sortedSet (["workforce-record:employee-profile",
    profileLabel profile.employeeId,
    "workforce-profile-role:" ++ labelSlug profile.role,
    "workforce-profile-seniority:" ++ labelSlug profile.seniority,
    "workforce-profile-capacity-hours:" ++ profile.capacityHours.formatG,
    "workforce-profile-allocation-percent:" ++ (profile.allocation.mul (.finite 100)).formatG,
    if profile.mentoringAvailable then "workforce-profile-mentoring:available"
      else "workforce-profile-mentoring:unavailable"] ++
    profile.skills.entries.map fun skill => "workforce-profile-skill:" ++ labelSlug skill.1 ++ ":" ++ toString skill.2)

end

/-! ## Labels by their names -/

/-- Neither of two names begins with the other. -/
def Apart (p q : String) : Prop := ¬ p.toList <+: q.toList ∧ ¬ q.toList <+: p.toList

instance (p q : String) : Decidable (Apart p q) := inferInstanceAs (Decidable (_ ∧ _))

theorem prefix_append (p s : String) : p.toList <+: (p ++ s).toList := by
  rw [String.toList_append]
  exact List.prefix_append _ _

/-- A label begins with no name that is apart from its own. -/
theorem not_prefix_of_apart {p q : String} (h : Apart p q) (s : String) : ¬ p.toList <+: (q ++ s).toList := by
  intro hp
  rw [String.toList_append] at hp
  rcases List.prefix_or_prefix_of_prefix hp (List.prefix_append q.toList s.toList) with hp | hq
  · exact h.1 hp
  · exact h.2 hq

theorem append_ne_append {p q : String} (h : Apart p q) (s t : String) : p ++ s ≠ q ++ t :=
  fun heq => not_prefix_of_apart h t (heq ▸ prefix_append p s)

theorem append_inj {p s t : String} (h : p ++ s = p ++ t) : s = t := by
  have hlist := congrArg String.toList h
  rw [String.toList_append, String.toList_append] at hlist
  exact String.toList_injective (List.append_cancel_left hlist)

/-- The names of the labels that tell of an issue's planning. -/
def derivedNames : List String :=
  ["workforce-estimate-hours:", "workforce-remaining-hours:", "workforce-difficulty:", "workforce-skill:",
    "workforce-senior-pair:", "workforce-evidence:", "workforce-workload-profile:"]

/-- The names of a profile's labels but for its id. -/
def profileNames : List String :=
  ["workforce-record:employee-profile", "workforce-profile-role:", "workforce-profile-seniority:",
    "workforce-profile-capacity-hours:", "workforce-profile-allocation-percent:", "workforce-profile-mentoring:",
    "workforce-profile-skill:"]

theorem names_apart : (∀ name ∈ derivedNames, Apart "workforce-external:" name ∧ Apart "workforce-profile-id:" name) ∧
    (∀ name ∈ profileNames, Apart "workforce-external:" name ∧ Apart "workforce-profile-id:" name) ∧
      Apart "workforce-external:" "workforce-profile-id:" := by decide +kernel

variable [Unicode]

theorem derived_named {issue : ScenarioIssue} {label : String} (h : label ∈ derivedLabels issue) :
    ∃ name ∈ derivedNames, ∃ value, label = name ++ value := by
  simp only [derivedLabels, List.mem_append, List.mem_cons, List.not_mem_nil, or_false] at h
  rcases h with (((h | h) | h) | h) | h
  · rcases h with rfl | rfl | rfl
    · exact ⟨_, by simp [derivedNames], _, rfl⟩
    · exact ⟨_, by simp [derivedNames], _, rfl⟩
    · exact ⟨_, by simp [derivedNames], _, rfl⟩
  · obtain ⟨skill, -, rfl⟩ := List.mem_map.mp h
    exact ⟨"workforce-skill:", by simp [derivedNames], _, rfl⟩
  · rw [seniorLabels, Option.mem_toList, Option.map_eq_some_iff] at h
    obtain ⟨id, -, rfl⟩ := h
    exact ⟨"workforce-senior-pair:", by simp [derivedNames], _, rfl⟩
  · refine ⟨"workforce-evidence:", by simp [derivedNames], if issue.evidenceComplete then "complete" else "incomplete", ?_⟩
    rw [h, evidenceLabel]
    split <;> rfl
  · rw [workloadLabels, Option.mem_toList, Option.map_eq_some_iff] at h
    obtain ⟨profile, -, rfl⟩ := h
    exact ⟨"workforce-workload-profile:", by simp [derivedNames], _, rfl⟩

theorem profile_named {profile : ScenarioProfile} {label : String} (h : label ∈ profileLabels profile) :
    label = profileLabel profile.employeeId ∨ ∃ name ∈ profileNames, ∃ value, label = name ++ value := by
  simp only [profileLabels, mem_sortedSet, List.mem_append, List.mem_cons, List.not_mem_nil, or_false] at h
  rcases h with (rfl | rfl | rfl | rfl | rfl | rfl | h) | h
  · exact .inr ⟨"workforce-record:employee-profile", by simp [profileNames], "", by simp⟩
  · exact .inl rfl
  · exact .inr ⟨_, by simp [profileNames], _, rfl⟩
  · exact .inr ⟨_, by simp [profileNames], _, rfl⟩
  · exact .inr ⟨_, by simp [profileNames], _, rfl⟩
  · exact .inr ⟨_, by simp [profileNames], _, rfl⟩
  · refine .inr ⟨"workforce-profile-mentoring:", by simp [profileNames],
      if profile.mentoringAvailable then "available" else "unavailable", ?_⟩
    rw [h]
    split <;> rfl
  · obtain ⟨skill, -, rfl⟩ := List.mem_map.mp h
    refine .inr ⟨"workforce-profile-skill:", by simp [profileNames],
      labelSlug skill.1 ++ ":" ++ toString skill.2, ?_⟩
    simp only [String.append_assoc]

/-- An issue's labels have its own external id, and what its own labels bring. -/
theorem externalLabel_mem_issueLabels {issue : ScenarioIssue} {externalId : String} :
    externalLabel externalId ∈ issueLabels issue ↔
      externalId = issue.externalId ∨ externalLabel externalId ∈ issue.labels := by
  rw [issueLabels, mem_sortedSet, List.mem_append, List.mem_append, List.mem_singleton]
  constructor
  · rintro ((hown | hid) | hderived)
    · exact .inr hown
    · exact .inl (append_inj hid)
    · obtain ⟨name, hname, value, heq⟩ := derived_named hderived
      exact absurd heq (append_ne_append (names_apart.1 name hname).1 _ _)
  · rintro (rfl | hown)
    · exact .inl (.inr rfl)
    · exact .inl (.inl hown)

/-- Of a profile's name they have what its own labels bring. -/
theorem profileLabel_mem_issueLabels {issue : ScenarioIssue} {employeeId : String} :
    profileLabel employeeId ∈ issueLabels issue ↔ profileLabel employeeId ∈ issue.labels := by
  rw [issueLabels, mem_sortedSet, List.mem_append, List.mem_append, List.mem_singleton]
  constructor
  · rintro ((hown | hid) | hderived)
    · exact hown
    · exact absurd hid.symm (append_ne_append names_apart.2.2 _ _)
    · obtain ⟨name, hname, value, heq⟩ := derived_named hderived
      exact absurd heq (append_ne_append (names_apart.1 name hname).2 _ _)
  · exact fun hown => .inl (.inl hown)

/-- A profile's labels have its id. -/
theorem profileLabel_mem_profileLabels {profile : ScenarioProfile} {employeeId : String} :
    profileLabel employeeId ∈ profileLabels profile ↔ employeeId = profile.employeeId := by
  constructor
  · intro h
    rcases profile_named h with heq | ⟨name, hname, value, heq⟩
    · exact append_inj heq
    · exact absurd heq (append_ne_append (names_apart.2.1 name hname).2 _ _)
  · rintro rfl
    rw [profileLabels, mem_sortedSet]
    exact List.mem_append_left _ (List.mem_cons_of_mem _ List.mem_cons_self)

/-- And no external id. -/
theorem externalLabel_notMem_profileLabels {profile : ScenarioProfile} {externalId : String} :
    externalLabel externalId ∉ profileLabels profile := by
  intro h
  rcases profile_named h with heq | ⟨name, hname, value, heq⟩
  · exact append_ne_append names_apart.2.2 _ _ heq
  · exact append_ne_append (names_apart.2.1 name hname).1 _ _ heq

end WorkforceRisk.Scenario
