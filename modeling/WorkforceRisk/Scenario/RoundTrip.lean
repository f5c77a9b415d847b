/-
  WorkforceRisk.Scenario.RoundTrip — the labels that are seeded, read back
  (scripts/jira/mcp_scenario.py `_jira_fields`, then normalize.py `_structured_labels`).

  The seeder writes hours with six digits, any workload profile, and the issue's own labels
  beside those it derives; the reader takes seconds, the workload profiles it knows, and
  every label of a name it looks for. Proved (`labels_decode_iff`): an issue whose own labels
  are the ownership tag and its employee's reads back exactly if six digits keep the seconds
  of its hours (`HoursKept`), its workload profile is known, and the tag is no label that the
  reader takes for another than the issue has (`TagKept`).
-/

import WorkforceRisk.Jira.Labels
import WorkforceRisk.Scenario.Fields
import WorkforceRisk.Scenario.Stepping

namespace WorkforceRisk.Scenario

open Lib Persistence Historical Evidence WorkforceRisk.Jira

section
variable [Unicode] {V : Type}

def employeeLabel (issue : ScenarioIssue) : String := "workforce-employee:" ++ issue.workforceEmployeeId

/-- The labels are read back as what the issue says. -/
def Decodes (issue : ScenarioIssue) (labels : List String) : Prop :=
  ∃ original remaining, secondsOf issue.estimateHours = .ok original ∧ secondsOf issue.remainingHours = .ok remaining ∧
    structuredLabels labels = .ok ⟨some issue.workforceEmployeeId, some original, some remaining, some issue.difficulty,
      sortedSet (issue.requiredSkills.map casefold), some issue.evidenceComplete, issue.workloadProfile⟩

/-- Six digits of the hours have the same seconds. -/
def HoursKept (hours : PyFloat) : Prop := ∃ seconds, secondsOf hours = .ok seconds ∧ secondsOf hours.written = .ok seconds

/-- Where the tag has a name that the reader looks for, its value is the issue's. -/
structure TagKept (tag : String) (issue : ScenarioIssue) : Prop where
  estimate : ∀ value, tag = "workforce-estimate-hours:" ++ value → value ∈ [issue.estimateHours.formatG]
  remaining : ∀ value, tag = "workforce-remaining-hours:" ++ value → value ∈ [issue.remainingHours.formatG]
  difficulty : ∀ value, tag = "workforce-difficulty:" ++ value → value ∈ [toString issue.difficulty]
  skill : ∀ value, tag = "workforce-skill:" ++ value → value ∈ issue.requiredSkills.map casefold
  workload : ∀ value, tag = "workforce-workload-profile:" ++ value → value ∈ issue.workloadProfile.toList
  evidence : ∀ value ∈ ["complete", "incomplete"], tag = "workforce-evidence:" ++ value →
    value ∈ [if issue.evidenceComplete then "complete" else "incomplete"]

/-! ## The labels by their names -/

/-- The values of an issue's labels, by name. -/
def derivedValues (issue : ScenarioIssue) : List (String × List String) :=
  [("workforce-estimate-hours:", [issue.estimateHours.formatG]),
    ("workforce-remaining-hours:", [issue.remainingHours.formatG]),
    ("workforce-difficulty:", [toString issue.difficulty]),
    ("workforce-skill:", issue.requiredSkills.map casefold),
    ("workforce-senior-pair:", issue.seniorPairingEmployeeId.toList),
    ("workforce-evidence:", [if issue.evidenceComplete then "complete" else "incomplete"]),
    ("workforce-workload-profile:", issue.workloadProfile.toList)]

omit [Unicode] in
theorem evidenceLabel_eq (issue : ScenarioIssue) : evidenceLabel issue =
    "workforce-evidence:" ++ if issue.evidenceComplete then "complete" else "incomplete" := by
  unfold evidenceLabel
  cases issue.evidenceComplete with
  | true => rfl
  | false => rfl

omit [Unicode] in
theorem map_toList (name : String) (o : Option String) : (o.map fun value => name ++ value).toList =
    o.toList.map fun value => name ++ value := by
  cases o with
  | none => rfl
  | some value => rfl

theorem derivedLabels_eq (issue : ScenarioIssue) : derivedLabels issue =
    (derivedValues issue).flatMap fun named => named.2.map fun value => named.1 ++ value := by
  unfold derivedLabels seniorLabels workloadLabels
  rw [evidenceLabel_eq, map_toList, map_toList]
  unfold derivedValues skillLabels estimateLabel remainingLabel difficultyLabel
  generalize issue.estimateHours.formatG = estimate
  generalize issue.remainingHours.formatG = remaining
  generalize toString issue.difficulty = difficulty
  simp only [List.flatMap_cons, List.flatMap_nil, List.map_cons, List.map_nil, List.map_map, List.append_assoc,
    List.cons_append, List.nil_append, List.append_nil, Function.comp_def]

omit [Unicode] in
theorem derivedNames_apart : ∀ name ∈ derivedNames, Apart "workforce-employee:" name ∧
    ∀ other ∈ derivedNames, name ≠ other → Apart name other := by decide +kernel

theorem derivedValues_names (issue : ScenarioIssue) : (derivedValues issue).map Prod.fst = derivedNames := rfl

theorem name_mem {issue : ScenarioIssue} {named : String × List String} (h : named ∈ derivedValues issue) :
    named.1 ∈ derivedNames := derivedValues_names issue ▸ List.mem_map_of_mem h

theorem mem_derivedLabels {issue : ScenarioIssue} {name : String} {values : List String}
    (h : (name, values) ∈ derivedValues issue) (value : String) : name ++ value ∈ derivedLabels issue ↔ value ∈ values := by
  have hdistinct : ((derivedValues issue).map Prod.fst).Nodup :=
    derivedValues_names issue ▸ (by decide : derivedNames.Nodup)
  rw [derivedLabels_eq, List.mem_flatMap]
  constructor
  · rintro ⟨other, hother, hin⟩
    obtain ⟨value', hvalue', heq⟩ := List.mem_map.mp hin
    by_cases hsame : other.1 = name
    · have hvalues : other = (name, values) := List.inj_on_of_nodup_map hdistinct hother h hsame
      rw [hvalues] at heq hvalue'
      exact append_inj heq ▸ hvalue'
    · exact absurd heq (append_ne_append ((derivedNames_apart _ (name_mem hother)).2 _ (name_mem h) hsame) _ _)
  · intro hvalue
    exact ⟨_, h, List.mem_map.mpr ⟨value, hvalue, rfl⟩⟩

theorem issueLabels_nodup (issue : ScenarioIssue) : (issueLabels issue).Nodup :=
  (List.mergeSort_perm _ _).nodup_iff.mpr (List.nodup_dedup _)

omit [Unicode] in
/-- Sorting forgets the order. -/
theorem sorted_eq_of_perm {labels labels' : List String} (h : labels.Perm labels') :
    (labels.mergeSort fun a b => decide (a ≤ b)) = labels'.mergeSort fun a b => decide (a ≤ b) := by
  have htrans : ∀ a b c : String, decide (a ≤ b) = true → decide (b ≤ c) = true → decide (a ≤ c) = true := by
    intro a b c hab hbc
    exact decide_eq_true (String.le_trans (of_decide_eq_true hab) (of_decide_eq_true hbc))
  have htotal : ∀ a b : String, (decide (a ≤ b) || decide (b ≤ a)) = true := by
    intro a b
    rcases String.le_total a b with hab | hba
    · simp [hab]
    · simp [hba]
  have hperm := (List.mergeSort_perm labels fun a b => decide (a ≤ b)).trans
    (h.trans (List.mergeSort_perm labels' fun a b => decide (a ≤ b)).symm)
  refine hperm.eq_of_pairwise (fun a b _ _ hab hba => ?_) (List.pairwise_mergeSort htrans htotal labels)
    (List.pairwise_mergeSort htrans htotal labels')
  exact String.le_antisymm (of_decide_eq_true hab) (of_decide_eq_true hba)

/-! ## What is read of each name -/

variable {tag : String} {issue : ScenarioIssue}

/-- The issue's own labels are the tag and its employee's. -/
structure OwnOnly (tag : String) (issue : ScenarioIssue) : Prop where
  labels : ∀ label, label ∈ issue.labels ↔ label = tag ∨ label = employeeLabel issue
  employee : ∀ value, "workforce-employee:" ++ value ∈ issue.labels → value = issue.workforceEmployeeId

omit [Unicode] in
theorem ownOnly_of_definition {scenario : ScenarioDefinition V} (hissue : issue ∈ scenario.issues)
    (hown : ∀ label ∈ issue.labels, label = scenario.ownershipTag ∨ label = employeeLabel issue) :
    OwnOnly scenario.ownershipTag issue := by
  have hemployee := scenario.employee_labels issue hissue
  constructor
  · intro label
    constructor
    · exact hown label
    · rintro (rfl | rfl)
      · exact scenario.tagged issue hissue
      · exact List.mem_of_mem_filter (hemployee ▸ List.mem_singleton_self _ : employeeLabel issue ∈ issue.labels.filter _)
  · intro value hvalue
    have hin : "workforce-employee:" ++ value ∈ issue.labels.filter isEmployeeLabel :=
      List.mem_filter.mpr ⟨hvalue, decide_eq_true (prefix_append _ _)⟩
    rw [hemployee, List.mem_singleton] at hin
    exact append_inj hin

theorem mem_issueLabels (h : OwnOnly tag issue) {name : String} {values : List String}
    (hnamed : (name, values) ∈ derivedValues issue) (value : String) :
    name ++ value ∈ issueLabels issue ↔ tag = name ++ value ∨ value ∈ values := by
  have hname : name ∈ derivedNames := name_mem hnamed
  rw [issueLabels, mem_sortedSet, List.mem_append, List.mem_append, List.mem_singleton, h.labels,
    mem_derivedLabels hnamed]
  constructor
  · rintro (((htag | hemployee) | hexternal) | hvalue)
    · exact .inl htag.symm
    · exact absurd hemployee.symm (append_ne_append (derivedNames_apart name hname).1 _ _)
    · exact absurd hexternal.symm (append_ne_append (names_apart.1 name hname).1 _ _)
    · exact .inr hvalue
  · rintro (htag | hvalue)
    · exact .inl (.inl (.inl htag.symm))
    · exact .inr hvalue

/-- A name with one value or none reads that, if the tag has no other. -/
theorem single_iff (h : OwnOnly tag issue) {name : String} (value : Option String)
    (hnamed : (name, value.toList) ∈ derivedValues issue) : singleLabelValue (issueLabels issue) name = .ok value ↔
      ∀ other, tag = name ++ other → other ∈ value.toList := by
  rw [singleLabelValue_iff (issueLabels_nodup _)]
  refine forall_congr' fun other => ?_
  rw [mem_issueLabels h hnamed]
  exact or_iff_right_iff_imp

/-- Where a name has a value, it is what is read. -/
theorem single_some (h : OwnOnly tag issue) {name value read : String} (hnamed : (name, [value]) ∈ derivedValues issue)
    (hread : singleLabelValue (issueLabels issue) name = .ok (some read)) : read = value := by
  have hmem := ((singleLabelValue_iff (issueLabels_nodup _)).mp hread value).mp
    ((mem_issueLabels h hnamed value).mpr (.inr List.mem_cons_self))
  exact (List.mem_singleton.mp hmem).symm

theorem employeeOf_issue (h : OwnOnly tag issue) :
    employeeOf (issueLabels issue) = .ok (some issue.workforceEmployeeId) := by
  have hkey : ∀ id, isEmployeeId id = true → Profiles.isKey 2 id = true := by
    intro id hid
    simp only [isEmployeeId, List.mem_cons, List.not_mem_nil, or_false, Bool.decide_or, Bool.or_eq_true,
      decide_eq_true_eq] at hid
    rcases hid with rfl | rfl | rfl | rfl | rfl | rfl | rfl <;> decide
  refine employeeOf_some (hkey _ issue.workforceEmployeeId_ok)
    ((singleLabelValue_iff (issueLabels_nodup issue)).mpr fun other => ?_)
  rw [issueLabels, mem_sortedSet, List.mem_append, List.mem_append, List.mem_singleton, Option.mem_toList,
    Option.some.injEq]
  constructor
  · rintro ((hown | hexternal) | hderived)
    · exact (h.employee other hown).symm
    · exact absurd hexternal (append_ne_append (by decide) _ _)
    · obtain ⟨name, hname, value, heq⟩ := derived_named hderived
      exact absurd heq (append_ne_append (derivedNames_apart name hname).1 _ _)
  · rintro rfl
    exact .inl (.inl ((h.labels _).mpr (.inr rfl)))

theorem difficultyOf_issue (tables : NumberTables) (h : OwnOnly tag issue) :
    difficultyOf (issueLabels issue) = .ok (some issue.difficulty) ↔
      ∀ value, tag = "workforce-difficulty:" ++ value → value ∈ [toString issue.difficulty] := by
  have hnamed : ("workforce-difficulty:", [toString issue.difficulty]) ∈ derivedValues issue :=
    List.mem_cons_of_mem _ (List.mem_cons_of_mem _ List.mem_cons_self)
  have hsingle := single_iff h (some (toString issue.difficulty)) hnamed
  rw [difficultyOf_iff]
  refine Iff.trans ?_ hsingle
  constructor
  · rintro ⟨value, hread, -⟩
    rw [hread, single_some h hnamed hread]
  · intro hread
    exact ⟨_, hread, boundedInt_toString tables issue.difficulty_ok, issue.difficulty_ok.1, by
      have := issue.difficulty_ok.2
      omega⟩

theorem hours_issue (tables : NumberTables) (h : OwnOnly tag issue) {name : String} {hours : PyFloat}
    (hnamed : (name, [hours.formatG]) ∈ derivedValues issue) (hnegative : hours.negative = false) (seconds : Int) :
    WorkforceRisk.Jira.hours (issueLabels issue) name = .ok (some seconds) ↔
      (∀ value, tag = name ++ value → value ∈ [hours.formatG]) ∧ secondsOf hours.written = .ok seconds := by
  have hsingle := single_iff h (some hours.formatG) hnamed
  rw [hours_iff]
  constructor
  · rintro ⟨value, parsed, hread, hparsed, -, hseconds⟩
    obtain rfl := single_some h hnamed hread
    rw [floatOf_formatG tables] at hparsed
    cases hparsed
    exact ⟨hsingle.mp hread, hseconds⟩
  · rintro ⟨htag, hseconds⟩
    exact ⟨_, _, hsingle.mpr htag, floatOf_formatG tables hours, PyFloat.written_negative hnegative, hseconds⟩

theorem workloadOf_issue (h : OwnOnly tag issue) : workloadOf (issueLabels issue) = .ok issue.workloadProfile ↔
    (∀ value, tag = "workforce-workload-profile:" ++ value → value ∈ issue.workloadProfile.toList) ∧
      ∀ profile ∈ issue.workloadProfile, profile ∈ workloadProfiles := by
  rw [workloadOf_iff, single_iff h issue.workloadProfile (List.mem_of_mem_getLast? rfl)]

theorem completeOf_issue (h : OwnOnly tag issue) : completeOf (issueLabels issue) = .ok (some issue.evidenceComplete) ↔
    ∀ value ∈ ["complete", "incomplete"], tag = "workforce-evidence:" ++ value →
      value ∈ [if issue.evidenceComplete then "complete" else "incomplete"] := by
  have hnamed : ("workforce-evidence:", [if issue.evidenceComplete then "complete" else "incomplete"]) ∈
    derivedValues issue := by simp [derivedValues]
  have hmem := mem_issueLabels h hnamed
  have hcomplete := hmem "complete"
  have hincomplete := hmem "incomplete"
  rw [completeOf_iff, show "workforce-evidence:complete" = "workforce-evidence:" ++ "complete" from rfl, hcomplete,
    show "workforce-evidence:incomplete" = "workforce-evidence:" ++ "incomplete" from rfl, hincomplete]
  cases issue.evidenceComplete <;> simp

/-- Skills are read in order and each once, as they are written. -/
theorem skillsOf_issue (h : OwnOnly tag issue) : skillsOf (issueLabels issue) = sortedSet (issue.requiredSkills.map casefold) ↔
    ∀ value, tag = "workforce-skill:" ++ value → value ∈ issue.requiredSkills.map casefold := by
  have hnamed : ("workforce-skill:", issue.requiredSkills.map casefold) ∈ derivedValues issue := by simp [derivedValues]
  have hmem : ∀ value, value ∈ skillsOf (issueLabels issue) ↔
      tag = "workforce-skill:" ++ value ∨ value ∈ issue.requiredSkills.map casefold := fun value => by
    rw [skillsOf, List.mem_mergeSort, mem_labelValues, mem_issueLabels h hnamed]
  have hnodup := labelValues_nodup (issueLabels_nodup issue) "workforce-skill:"
  constructor
  · intro heq value hvalue
    rw [← mem_sortedSet, ← heq]
    exact (hmem value).mpr (.inl hvalue)
  · intro htag
    have hperm : (labelValues (issueLabels issue) "workforce-skill:").Perm (issue.requiredSkills.map casefold).dedup := by
      refine (List.perm_ext_iff_of_nodup hnodup (List.nodup_dedup _)).mpr fun value => ?_
      rw [List.mem_dedup, mem_labelValues, mem_issueLabels h hnamed]
      exact or_iff_right_of_imp (htag value)
    exact sorted_eq_of_perm hperm

/-- An issue with the tag's and its employee's labels alone is read back exactly if the seconds
    of its hours are kept, its workload profile is known and the tag is not read as another label. -/
theorem labels_decode_iff (tables : NumberTables) (scenario : ScenarioDefinition V) (issue : ScenarioIssue)
    (hissue : issue ∈ scenario.issues)
    (hown : ∀ label ∈ issue.labels, label = scenario.ownershipTag ∨ label = employeeLabel issue)
    (fields : JiraFields) (hfields : jiraFields scenario.anchorDate issue = .ok fields) :
    Decodes issue fields.labels ↔ HoursKept issue.estimateHours ∧ HoursKept issue.remainingHours ∧
      (∀ profile ∈ issue.workloadProfile, profile ∈ workloadProfiles) ∧ TagKept scenario.ownershipTag issue := by
  have h := ownOnly_of_definition hissue hown
  have hlabels : fields.labels = issueLabels issue := by
    unfold jiraFields at hfields
    cases hdate : addDays scenario.anchorDate issue.dueOffsetDays with
    | error e =>
      rw [hdate] at hfields
      cases hfields
    | ok date => cases hpriority : jiraPriority issue.priority with
      | error e =>
        rw [hdate, hpriority] at hfields
        cases hfields
      | ok priority =>
        rw [hdate, hpriority] at hfields
        cases hfields
        rfl
  have hestimate := hours_issue tables h (List.mem_cons_self : (_, [issue.estimateHours.formatG]) ∈ derivedValues issue)
    (PyFloat.not_negative_of_positive issue.estimateHours_ok)
  have hremaining := hours_issue tables h
    (List.mem_cons_of_mem _ List.mem_cons_self : (_, [issue.remainingHours.formatG]) ∈ derivedValues issue)
    (PyFloat.not_negative_of_nonnegative issue.remainingHours_ok)
  rw [hlabels]
  unfold Decodes
  simp only [structuredLabels_iff, employeeOf_issue h, difficultyOf_issue tables h, completeOf_issue h,
    workloadOf_issue h, skillsOf_issue h, hestimate, hremaining, true_and]
  constructor
  · rintro ⟨original, remaining, horiginal, hrest, hdifficulty, hevidence, ⟨hworkload, hknown⟩, ⟨he, hew⟩, ⟨hr, hrw⟩, hskill⟩
    exact ⟨⟨original, horiginal, hew⟩, ⟨remaining, hrest, hrw⟩, hknown, he, hr, hdifficulty, hskill, hworkload, hevidence⟩
  · rintro ⟨⟨original, horiginal, hew⟩, ⟨remaining, hrest, hrw⟩, hknown, htag⟩
    exact ⟨original, remaining, horiginal, hrest, htag.difficulty, htag.evidence, ⟨htag.workload, hknown⟩,
      ⟨htag.estimate, hew⟩, ⟨htag.remaining, hrw⟩, htag.skill⟩

end

/-! ## A sample issue -/

/-- The ASCII tables say of ASCII what they are documented to say. -/
theorem ascii_numberTables : letI := Unicode.ascii
    NumberTables := by
  let tables := Unicode.ascii
  refine ⟨fun c _ => rfl, fun c hlow hhigh => ?_⟩
  have hspace : ∀ d : Char, d.toNat < 33 → c ≠ d := by
    rintro d hd rfl
    omega
  show c.isWhitespace = false
  simp [Char.isWhitespace, hspace ' ' (by decide), hspace '\t' (by decide), hspace '\r' (by decide),
    hspace '\n' (by decide)]

/-- Hours of two digits are kept. -/
theorem loginTask_kept : HoursKept (.finite 24) ∧ HoursKept (.finite 22) :=
  ⟨⟨86400, by decide +kernel, by decide +kernel⟩, 79200, by decide +kernel, by decide +kernel⟩

theorem loginTask_apart : ∀ name ∈ derivedNames, Apart fixtureTag name := by decide +kernel

theorem loginTask_tagKept : letI := Unicode.ascii
    TagKept fixtureTag loginTask := by
  let tables := Unicode.ascii
  have hno : ∀ name ∈ derivedNames, ∀ value, fixtureTag ≠ name ++ value := by
    intro name hname value heq
    exact (loginTask_apart name hname).2 (heq ▸ prefix_append name value)
  exact ⟨fun value h => absurd h (hno _ (by simp [derivedNames]) _), fun value h => absurd h (hno _ (by simp [derivedNames]) _),
    fun value h => absurd h (hno _ (by simp [derivedNames]) _), fun value h => absurd h (hno _ (by simp [derivedNames]) _),
    fun value h => absurd h (hno _ (by simp [derivedNames]) _),
    fun value _ h => absurd h (hno _ (by simp [derivedNames]) _)⟩

theorem labels_decode_loginTask : letI := Unicode.ascii
    Decodes loginTask (issueLabels loginTask) := by
  let tables := Unicode.ascii
  have hown : ∀ label ∈ loginTask.labels, label = fixtureTag ∨ label = employeeLabel loginTask := by
    intro label hlabel
    rcases List.mem_cons.mp hlabel with rfl | hlabel
    · exact .inl rfl
    · exact .inr (List.mem_singleton.mp hlabel)
  exact (labels_decode_iff ascii_numberTables twoStages loginTask List.mem_cons_self hown
    ⟨issueLabels loginTask, "High", 20677, none⟩ rfl).mpr
    ⟨loginTask_kept.1, loginTask_kept.2, fun _ h => (by cases h), loginTask_tagKept⟩

/-! ## Hours of seven digits -/

theorem auditTask_hours : (PyFloat.finite 120).positive = true ∧ (PyFloat.finite (1601 / 16)).nonnegative = true := by
  decide +kernel

/-- An hour's sixteenth more than a hundred is left. -/
def auditTask : ScenarioIssue :=
  ⟨"audit-task", "Audit token storage", "EMP-001", .finite 120, .finite (1601 / 16), 30, "high", 5, ["security"], [], none,
    none, true, none, [fixtureTag, "workforce-employee:EMP-001"], loginTask_employee, auditTask_hours.1,
    auditTask_hours.2, loginTask_difficulty, unpaired_ok⟩

theorem auditTask_tagged : ∀ issue ∈ [auditTask], fixtureTag ∈ issue.labels := by
  intro issue hissue
  rw [List.mem_singleton.mp hissue]
  exact List.mem_cons_self

theorem auditTask_labels : ∀ issue ∈ [auditTask],
    issue.labels.filter isEmployeeLabel = ["workforce-employee:" ++ issue.workforceEmployeeId] := by
  intro issue hissue
  rw [List.mem_singleton.mp hissue]
  decide +kernel

def auditPlan : ScenarioDefinition FieldValue :=
  ⟨fixtureTag, "dev", "WRD", 20675, sampleProfiles, [auditTask], [], sampleProfiles_all, sampleProfiles_two,
    List.nodup_singleton _, auditTask_tagged, auditTask_labels⟩

theorem auditTask_seconds : secondsOf auditTask.remainingHours = .ok 360225 ∧
    secondsOf auditTask.remainingHours.written = .ok 360223 := by
  constructor
  · decide +kernel
  · decide +kernel

/-- 100.0625 hours are seeded as 100.062 and come back two seconds shorter. -/
theorem seconds_lost_in_labels : letI := Unicode.ascii
    ¬ ∀ (scenario : ScenarioDefinition FieldValue), ∀ issue ∈ scenario.issues,
      (∀ label ∈ issue.labels, label = scenario.ownershipTag ∨ label = employeeLabel issue) →
      ∀ fields, jiraFields scenario.anchorDate issue = .ok fields → Decodes issue fields.labels := by
  let tables := Unicode.ascii
  intro h
  have hown : ∀ label ∈ auditTask.labels, label = fixtureTag ∨ label = employeeLabel auditTask := by
    intro label hlabel
    rcases List.mem_cons.mp hlabel with rfl | hlabel
    · exact .inl rfl
    · exact .inr (List.mem_singleton.mp hlabel)
  have hissue : auditTask ∈ auditPlan.issues := List.mem_cons_self
  obtain ⟨original, remaining, -, hremaining, hread⟩ := h auditPlan auditTask hissue hown
    ⟨issueLabels auditTask, "High", 20705, none⟩ rfl
  obtain ⟨-, -, -, -, -, hhours, -⟩ := structuredLabels_iff.mp hread
  have hown' : OwnOnly fixtureTag auditTask := ownOnly_of_definition hissue hown
  obtain ⟨-, hwritten⟩ := (hours_issue ascii_numberTables hown'
    (List.mem_cons_of_mem _ List.mem_cons_self : (_, [auditTask.remainingHours.formatG]) ∈ derivedValues auditTask)
    (PyFloat.not_negative_of_nonnegative auditTask.remainingHours_ok) remaining).mp hhours
  rw [auditTask_seconds.1] at hremaining
  rw [auditTask_seconds.2] at hwritten
  cases hremaining
  cases hwritten

end WorkforceRisk.Scenario
