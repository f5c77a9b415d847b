/-
  WorkforceRisk.Jira.Totality — what reading Jira's answers may raise.

  The normaliser is to return evidence or to raise a `ValueError`. Two of its conversions
  can raise something else: `round` of hours that are infinite in seconds is an
  `OverflowError` (`hours_total_iff`), and `json.dumps` of a text that is nested too deep is
  a `RecursionError` (`untrustedOf_total_iff`). `Breaks` and `SearchBreaks` say when one of
  them is the first thing that goes wrong, in an answer about an issue and in a search.

  Proved: an answer is normalised or refused as it should be, and a search is given item by
  item or not at all, exactly if neither breaks (`normalises_as_claimed_iff`). A label of
  infinite hours breaks an issue (`infinite_hours_overflow`).
-/

import WorkforceRisk.Jira.Normalize
import WorkforceRisk.Lib.Raising

namespace WorkforceRisk.Jira

open Lib Persistence Historical Evidence Profiles
open PyValue (Object get)

/-- A `ValueError`, of which a `JiraNormalizationError` and a `ValidationError` are one. -/
def IsValueError : Raised → Prop
  | .error (.valueError _) => True
  | .error (.validationError _ _) => True
  | _ => False

/-- What is raised is a `ValueError`. -/
abbrev Total {α : Type} (r : Except Raised α) : Prop := Raises IsValueError r

@[simp] theorem total_normalizationError {α : Type} (message : String) :
    Total (normalizationError message : Except Raised α) := raises_error.mpr trivial

@[simp] theorem total_validationError {α : Type} (field message : String) :
    Total (validationError field message : Except Raised α) := raises_error.mpr trivial

@[simp] theorem total_checked {α : Type} (field : String) (read : Except String α) : Total (checked field read) := by
  cases read with
  | ok a => exact raises_ok a
  | error message => exact total_validationError field message

theorem total_optional {α : Type} {read : PyValue → Except Raised α} (h : ∀ value, Total (read value))
    (value : PyValue) : Total (optional read value) := by
  unfold optional
  split
  · exact raises_ok none
  · exact raises_map_iff.mpr (h _)

/-! ## The stages that are total -/

namespace JiraMcpEnvelope

theorem total_required {α : Type} (raw : Response) (field : String) {read : Member → Except Raised α}
    (h : ∀ member, Total (read member)) : Total (required raw field read) := by
  unfold required
  split
  · exact h _
  · exact total_validationError _ _

theorem total_textField (field : String) (member : Member) : Total (textField field member) := by
  unfold textField
  split
  · exact raises_ok _
  · exact total_validationError _ _

theorem total_literalField {α : Type} (field : String) (options : List (String × α)) (member : Member) :
    Total (literalField field options member) := by
  unfold literalField
  split
  · split
    · exact raises_ok _
    · exact total_validationError _ _
  · exact total_validationError _ _

theorem total_dataField (member : Member) : Total (dataField member) := by
  unfold dataField
  split
  · exact raises_ok _
  · exact raises_ok _
  · exact total_validationError _ _

theorem total_errorField (member : Member) : Total (errorField member) := by
  unfold errorField
  split
  · exact raises_ok _
  · exact raises_map_iff.mpr (total_textField _ _)

variable [Validation]

theorem total_timeField (field : String) (member : Member) : Total (timeField field member) := by
  cases member with
  | value v => exact total_checked _ _
  | datetime t => exact raises_ok t

theorem modelValidate_total (raw : Response) : Total (modelValidate raw) := by
  unfold modelValidate
  refine .bind (total_required _ _ (total_literalField _ _)) fun _ _ => ?_
  refine .bind (total_required _ _ (total_literalField _ _)) fun environment _ => ?_
  refine .bind (total_required _ _ (total_textField _)) fun correlationId _ => ?_
  refine .bind (total_required _ _ (total_timeField _)) fun evidenceTimestamp _ => ?_
  refine .bind (total_required _ _ (total_literalField _ _)) fun status _ => ?_
  refine .bind (total_dataField _) fun data _ => ?_
  refine .bind (total_errorField _) fun error _ => ?_
  split
  · exact total_validationError _ _
  · split
    · exact total_validationError _ _
    · split
      · exact total_validationError _ _
      · split
        · exact total_validationError _ _
        · exact raises_pure _

omit [Validation] in
theorem responseData_total (envelope : JiraMcpEnvelope) (expectedEnvironment expectedCorrelationId failed : String) :
    Total (envelope.responseData expectedEnvironment expectedCorrelationId failed) := by
  unfold responseData
  split
  · exact total_normalizationError _
  · split
    · exact total_normalizationError _
    · split
      · exact raises_ok _
      · exact total_normalizationError _

end JiraMcpEnvelope

theorem asObject_total (label : String) (value : PyValue) : Total (asObject label value) := by
  unfold asObject
  split
  · exact raises_ok _
  · exact total_normalizationError _

theorem named_total (label : String) (value : PyValue) : Total (named label value) := by
  refine .bind (asObject_total label value) fun object _ => ?_
  split
  · exact raises_ok _
  · exact total_normalizationError _

theorem issueTexts_total (issue fields : Object) : Total (issueTexts issue fields) := by
  unfold issueTexts
  split
  · exact raises_ok _
  · exact total_normalizationError _

theorem customFieldOf_total (fields : Object) (name : String × String) : Total (customFieldOf fields name) := by
  unfold customFieldOf
  split
  · exact raises_ok _
  · refine .bind (asObject_total _ _) fun raw _ => ?_
    split
    · exact total_normalizationError _
    · split
      · exact raises_ok _
      · exact total_normalizationError _

theorem labelTexts_total (fields : Object) : Total (labelTexts fields) := by
  unfold labelTexts
  split
  · split
    · exact raises_ok _
    · exact total_normalizationError _
  · exact total_normalizationError _

theorem priorityOf_total (fields : Object) : Total (priorityOf fields) := by
  unfold priorityOf
  split
  · exact raises_map_iff.mpr (named_total _ _)
  · exact raises_ok _

theorem linkOf_total (raw : PyValue) : Total (linkOf raw) := by
  unfold linkOf
  refine .bind (asObject_total _ _) fun link _ => ?_
  refine .bind (asObject_total _ _) fun kind _ => ?_
  refine .bind (asObject_total _ _) fun target _ => ?_
  split
  · exact raises_ok _
  · exact total_normalizationError _

theorem linksOf_total (fields : Object) : Total (linksOf fields) := by
  unfold linksOf
  split
  · exact .mapM fun raw _ => linkOf_total raw
  · exact total_normalizationError _

theorem searchedIssues_total (data : Object) : Total (searchedIssues data) := by
  unfold searchedIssues
  split
  · split
    · exact raises_ok _
    · exact total_normalizationError _
  · exact total_normalizationError _

section
variable [Validation]

theorem assigneeOf_total (fields : Object) : Total (assigneeOf fields) := by
  unfold assigneeOf
  split
  · exact raises_ok _
  · refine .bind (asObject_total _ _) fun raw _ => ?_
    split
    · exact raises_ok _
    · exact total_normalizationError _

theorem readIssue_total (raw : Response) (expectedEnvironment expectedCorrelationId : String)
    (customFields : List (String × String)) :
    Total (readIssue raw expectedEnvironment expectedCorrelationId customFields) := by
  unfold readIssue
  refine .bind (JiraMcpEnvelope.modelValidate_total raw) fun envelope _ => ?_
  refine .bind (envelope.responseData_total _ _ _) fun issue _ => ?_
  refine .bind (asObject_total _ _) fun fields _ => ?_
  refine .bind (issueTexts_total issue fields) fun texts _ => ?_
  refine .bind (assigneeOf_total fields) fun assignee _ => ?_
  refine .bind (.mapM fun name _ => customFieldOf_total fields name) fun custom _ => ?_
  exact .bind (labelTexts_total fields) fun labels _ => raises_pure _

theorem activityOf_total (updated : String) : Total (activityOf updated) := by
  unfold activityOf
  split
  · exact raises_ok _
  · exact raises_error.mpr trivial

theorem planOf_total (reading : IssueReading) : Total (planOf reading) := by
  unfold planOf
  refine .bind (named_total _ _) fun status _ => ?_
  refine .bind (priorityOf_total _) fun priority _ => ?_
  refine .bind (activityOf_total _) fun activityTimestamp _ => ?_
  exact .bind (linksOf_total _) fun links _ => raises_pure _

theorem estimateField_total (field : String) (labelled : Option Int) (value : PyValue) :
    Total (estimateField field labelled value) := by
  unfold estimateField
  split
  · exact raises_ok _
  · exact raises_map_iff.mpr (total_checked _ _)

theorem validated_total (reading : IssueReading) (customFields : List (String × String)) (labels : StructuredLabels)
    (plan : Plan) (texts : List UntrustedTextEvidence) : Total (validated reading customFields labels plan texts) := by
  unfold validated
  refine .bind (total_optional (fun value => total_checked _ _) _) fun dueDate _ => ?_
  refine .bind (estimateField_total _ _ _) fun original _ => ?_
  refine .bind (estimateField_total _ _ _) fun remaining _ => ?_
  refine .bind (total_optional (fun value => total_checked _ _) _) fun timeSpent _ => ?_
  split
  · split
    · split
      · split
        · exact raises_pure _
        · exact total_validationError _ _
      · exact total_validationError _ _
    · exact total_validationError _ _
  · exact total_validationError _ _

theorem readSearch_total (raw : Response) (expectedEnvironment expectedCorrelationId : String) :
    Total (readSearch raw expectedEnvironment expectedCorrelationId) := by
  unfold readSearch
  refine .bind (JiraMcpEnvelope.modelValidate_total raw) fun envelope _ => ?_
  refine .bind (envelope.responseData_total _ _ _) fun data _ => ?_
  refine .bind (searchedIssues_total data) fun issues _ => ?_
  split
  · exact total_normalizationError _
  · exact raises_pure _

end

/-! ## The labels -/

theorem singleLabelValue_total (labels : List String) (start : String) : Total (singleLabelValue labels start) := by
  unfold singleLabelValue
  split
  · exact raises_ok _
  · exact raises_ok _
  · exact total_normalizationError _

theorem employeeOf_total (labels : List String) : Total (employeeOf labels) := by
  refine .bind (singleLabelValue_total _ _) fun employeeId _ => ?_
  split
  · exact raises_ok _
  · exact total_normalizationError _

theorem completeOf_total (labels : List String) : Total (completeOf labels) := by
  unfold completeOf
  simp only
  split
  · exact total_normalizationError _
  · exact raises_ok _

theorem workloadOf_total (labels : List String) : Total (workloadOf labels) := by
  refine .bind (singleLabelValue_total _ _) fun profile _ => ?_
  split
  · exact raises_ok _
  · exact total_normalizationError _

/-- Seconds of hours are told but where there is no end to them. -/
theorem secondsOf_total_iff {parsed : PyFloat} :
    Total (secondsOf parsed) ↔ ¬ ∃ negative, parsed.mul (.finite 3600) = .inf negative := by
  unfold secondsOf
  cases hproduct : parsed.mul (.finite 3600) with
  | finite q => exact iff_of_true (raises_ok _) (by rintro ⟨_, ⟨⟩⟩)
  | inf negative => exact iff_of_false (fun h => raises_error.mp h) fun h => h ⟨negative, rfl⟩
  | nan => exact iff_of_true (raises_error.mpr trivial) (by rintro ⟨_, ⟨⟩⟩)

section
variable [Unicode]

theorem difficultyOf_total (labels : List String) : Total (difficultyOf labels) := by
  refine .bind (singleLabelValue_total _ _) fun difficulty _ => ?_
  split
  · exact raises_ok _
  · split
    · exact total_normalizationError _
    · split
      · exact raises_ok _
      · exact total_normalizationError _

/-- The one label of a name has hours that are a number, not negative, and infinite in seconds. -/
def InfiniteHours (labels : List String) (start : String) : Prop :=
  ∃ value parsed negative, labelValues labels start = [value] ∧ floatOf value = some parsed ∧
    parsed.negative = false ∧ parsed.mul (.finite 3600) = .inf negative

theorem hours_total_iff {labels : List String} {start : String} :
    Total (hours labels start) ↔ ¬ InfiniteHours labels start := by
  refine raises_bind_iff.trans ?_
  constructor
  · rintro ⟨-, h⟩ ⟨value, parsed, negative, hvalue, hparsed, hpositive, hinfinite⟩
    have hread := h (some value) (singleLabelValue_ok.mpr hvalue)
    simp only [hparsed, hpositive, Bool.false_eq_true, if_false] at hread
    exact secondsOf_total_iff.mp (raises_map_iff.mp hread) ⟨negative, hinfinite⟩
  · intro h
    refine ⟨singleLabelValue_total _ _, fun value hvalue => ?_⟩
    cases value with
    | none => exact raises_ok _
    | some value =>
      cases hparsed : floatOf value with
      | none =>
        simp only [hparsed]
        exact total_normalizationError _
      | some parsed =>
        simp only [hparsed]
        split
        · exact total_normalizationError _
        · rename_i hpositive
          refine raises_map_iff.mpr (secondsOf_total_iff.mpr ?_)
          rintro ⟨negative, hinfinite⟩
          exact h ⟨value, parsed, negative, singleLabelValue_ok.mp hvalue, hparsed, Bool.eq_false_iff.mpr hpositive,
            hinfinite⟩

/-- Nothing is wrong with the labels before the first that has infinite hours. -/
structure LabelsOverflow (labels : List String) : Prop where
  employee : ∃ employeeId, employeeOf labels = .ok employeeId
  difficulty : ∃ difficulty, difficultyOf labels = .ok difficulty
  complete : ∃ complete, completeOf labels = .ok complete
  workload : ∃ workloadProfile, workloadOf labels = .ok workloadProfile
  infinite : InfiniteHours labels "workforce-estimate-hours:" ∨
    (∃ original, hours labels "workforce-estimate-hours:" = .ok original) ∧
      InfiniteHours labels "workforce-remaining-hours:"

theorem structuredLabels_total_iff {labels : List String} : Total (structuredLabels labels) ↔ ¬ LabelsOverflow labels := by
  simp only [structuredLabels, raises_bind_iff, employeeOf_total, difficultyOf_total, completeOf_total, workloadOf_total,
    hours_total_iff, raises_pure, true_and, implies_true, and_true]
  constructor
  · rintro h ⟨⟨employeeId, hemployee⟩, ⟨difficulty, hdifficulty⟩, ⟨complete, hcomplete⟩, ⟨profile, hworkload⟩, hinfinite⟩
    obtain ⟨horiginal, hremaining⟩ := h employeeId hemployee difficulty hdifficulty complete hcomplete profile hworkload
    rcases hinfinite with hinfinite | ⟨⟨original, hok⟩, hinfinite⟩
    · exact horiginal hinfinite
    · exact hremaining original hok hinfinite
  · intro h employeeId hemployee difficulty hdifficulty complete hcomplete profile hworkload
    have hlabels := LabelsOverflow.mk ⟨employeeId, hemployee⟩ ⟨difficulty, hdifficulty⟩ ⟨complete, hcomplete⟩
      ⟨profile, hworkload⟩
    exact ⟨fun hinfinite => h (hlabels (.inl hinfinite)), fun original hok hinfinite =>
      h (hlabels (.inr ⟨⟨original, hok⟩, hinfinite⟩))⟩

end

/-! ## The texts -/

section
variable [Validation]

theorem textOf_ok_iff {value : PyValue} : (∃ text, textOf value = .ok text) ↔
    ∃ text, value.dumps Validation.nesting = .ok text := by
  unfold textOf
  split
  · exact iff_of_true ⟨_, rfl⟩ ⟨_, rfl⟩
  · cases value.dumps Validation.nesting with
    | ok text => exact iff_of_true ⟨_, rfl⟩ ⟨_, rfl⟩
    | error e => cases e <;> exact iff_of_false (fun ⟨_, h⟩ => (by cases h)) fun ⟨_, h⟩ => (by cases h)

theorem textOf_total_iff {value : PyValue} :
    Total (textOf value) ↔ ¬ value.dumps Validation.nesting = .error .tooDeep := by
  unfold textOf
  split
  · exact iff_of_true (raises_ok _) fun h => by cases h
  · cases value.dumps Validation.nesting with
    | ok text => exact iff_of_true (raises_ok _) fun h => by cases h
    | error e =>
      cases e with
      | tooDeep => exact iff_of_false (fun h => raises_error.mp h) fun h => h rfl
      | tooManyDigits => exact iff_of_true (raises_error.mpr trivial) fun h => by cases h

/-- The first text that cannot be written is one that is nested too deep. -/
def TextsTooDeep (fields : Object) : Prop :=
  ∃ before source after, sources fields = before ++ source :: after ∧
    (∀ earlier ∈ before, ∃ text, earlier.2.dumps Validation.nesting = .ok text) ∧
    source.2.dumps Validation.nesting = .error .tooDeep

theorem untrustedOf_total_iff {fields : Object} : Total (untrustedOf fields) ↔ ¬ TextsTooDeep fields := by
  have hread : ∀ earlier : String × PyValue,
      (∃ evidence, (textOf earlier.2).map (UntrustedTextEvidence.mk earlier.1) = .ok evidence) ↔
        ∃ text, earlier.2.dumps Validation.nesting = .ok text := by
    intro earlier
    rw [← textOf_ok_iff]
    cases textOf earlier.2 with
    | ok text => exact iff_of_true ⟨_, rfl⟩ ⟨_, rfl⟩
    | error e => exact iff_of_false (fun ⟨_, h⟩ => (by cases h)) fun ⟨_, h⟩ => (by cases h)
  unfold untrustedOf
  simp only [raises_mapM_iff, raises_map_iff, textOf_total_iff, hread]
  constructor
  · rintro h ⟨before, source, after, hsources, hbefore, hdeep⟩
    exact h before source after hsources hbefore hdeep
  · intro h before source after hsources hbefore hdeep
    exact h ⟨before, source, after, hsources, hbefore, hdeep⟩

end

/-! ## An issue and a search -/

section
variable [Unicode] [Validation] {raw : Response} {expectedEnvironment expectedCorrelationId : String}
  {customFields : List (String × String)}

/-- An issue is read up to hours that are infinite in seconds, or up to a text that is
    nested too deep. -/
inductive Breaks (raw : Response) (expectedEnvironment expectedCorrelationId : String)
    (customFields : List (String × String)) : Prop
  | hours (reading : IssueReading)
      (hreading : readIssue raw expectedEnvironment expectedCorrelationId customFields = .ok reading)
      (hlabels : LabelsOverflow reading.labels)
  | texts (reading : IssueReading) (labels : StructuredLabels) (plan : Plan)
      (hreading : readIssue raw expectedEnvironment expectedCorrelationId customFields = .ok reading)
      (hlabels : structuredLabels reading.labels = .ok labels) (hplan : planOf reading = .ok plan)
      (htexts : TextsTooDeep reading.fields)

/-- Every stage of an issue gives a value. -/
def Normalises (raw : Response) (expectedEnvironment expectedCorrelationId : String)
    (customFields : List (String × String)) : Prop :=
  ∃ reading labels plan texts item, readIssue raw expectedEnvironment expectedCorrelationId customFields = .ok reading ∧
    structuredLabels reading.labels = .ok labels ∧ planOf reading = .ok plan ∧
    untrustedOf reading.fields = .ok texts ∧ validated reading customFields labels plan texts = .ok item

theorem normalizeIssue_ok_iff : (∃ item, normalizeIssue raw expectedEnvironment expectedCorrelationId customFields =
    .ok item) ↔ Normalises raw expectedEnvironment expectedCorrelationId customFields := by
  unfold normalizeIssue
  constructor
  · rintro ⟨item, h⟩
    obtain ⟨reading, hreading, h⟩ := except_bind_ok.mp h
    obtain ⟨labels, hlabels, h⟩ := except_bind_ok.mp h
    obtain ⟨plan, hplan, h⟩ := except_bind_ok.mp h
    obtain ⟨texts, htexts, h⟩ := except_bind_ok.mp h
    exact ⟨reading, labels, plan, texts, item, hreading, hlabels, hplan, htexts, h⟩
  · rintro ⟨reading, labels, plan, texts, item, hreading, hlabels, hplan, htexts, h⟩
    refine ⟨item, except_bind_ok.mpr ⟨reading, hreading, except_bind_ok.mpr ⟨labels, hlabels, ?_⟩⟩⟩
    exact except_bind_ok.mpr ⟨plan, hplan, except_bind_ok.mpr ⟨texts, htexts, h⟩⟩

theorem normalizeIssue_total_iff :
    Total (normalizeIssue raw expectedEnvironment expectedCorrelationId customFields) ↔
      ¬ Breaks raw expectedEnvironment expectedCorrelationId customFields := by
  simp only [normalizeIssue, raises_bind_iff, readIssue_total, structuredLabels_total_iff, planOf_total,
    untrustedOf_total_iff, validated_total, true_and, implies_true, and_true]
  constructor
  · intro h hbreaks
    cases hbreaks with
    | hours reading hreading hlabels => exact (h reading hreading).1 hlabels
    | texts reading labels plan hreading hlabels hplan htexts =>
      exact (h reading hreading).2 labels hlabels plan hplan htexts
  · intro h reading hreading
    exact ⟨fun hlabels => h (.hours reading hreading hlabels), fun labels hlabels plan hplan htexts =>
      h (.texts reading labels plan hreading hlabels hplan htexts)⟩

/-- The first issue of a search that does not normalise on its own breaks. -/
def SearchBreaks (raw : Response) (expectedEnvironment expectedCorrelationId : String)
    (customFields : List (String × String)) : Prop :=
  ∃ envelope before issue after,
    readSearch raw expectedEnvironment expectedCorrelationId = .ok (envelope, before ++ issue :: after) ∧
    (∀ earlier ∈ before, Normalises (responseOf envelope earlier) expectedEnvironment expectedCorrelationId customFields) ∧
    Breaks (responseOf envelope issue) expectedEnvironment expectedCorrelationId customFields

theorem normalizeIssueSearch_total_iff :
    Total (normalizeIssueSearch raw expectedEnvironment expectedCorrelationId customFields) ↔
      ¬ SearchBreaks raw expectedEnvironment expectedCorrelationId customFields := by
  simp only [normalizeIssueSearch, raises_bind_iff, readSearch_total, true_and, raises_mapM_iff,
    normalizeIssue_total_iff, normalizeIssue_ok_iff]
  constructor
  · rintro h ⟨envelope, before, issue, after, hread, hbefore, hbreaks⟩
    exact h (envelope, before ++ issue :: after) hread before issue after rfl hbefore hbreaks
  · rintro h ⟨envelope, issues⟩ hread before issue after rfl hbefore hbreaks
    exact h ⟨envelope, before, issue, after, hread, hbefore, hbreaks⟩

/-- A search gives evidence if it is told in full, and then of each of its issues, in order,
    what the issue gives on its own. -/
theorem normalizeIssueSearch_ok_iff {items : List NormalizedIssue} :
    normalizeIssueSearch raw expectedEnvironment expectedCorrelationId customFields = .ok items ↔
      ∃ envelope data issues, JiraMcpEnvelope.modelValidate raw = .ok envelope ∧
        envelope.responseData expectedEnvironment expectedCorrelationId "Jira MCP search failed" = .ok data ∧
        searchedIssues data = .ok issues ∧ truncated data issues.length = false ∧
        List.Forall₂ (fun issue item => normalizeIssue (responseOf envelope issue) expectedEnvironment
          expectedCorrelationId customFields = .ok item) issues items := by
  unfold normalizeIssueSearch readSearch
  constructor
  · intro h
    obtain ⟨⟨envelope, issues⟩, hread, h⟩ := except_bind_ok.mp h
    obtain ⟨envelope', henvelope, hread⟩ := except_bind_ok.mp hread
    obtain ⟨data, hdata, hread⟩ := except_bind_ok.mp hread
    obtain ⟨issues', hissues, hread⟩ := except_bind_ok.mp hread
    split at hread
    · cases hread
    · rename_i hwhole
      cases hread
      exact ⟨envelope, data, issues, henvelope, hdata, hissues, Bool.eq_false_iff.mpr hwhole, mapM_ok_related h⟩
  · rintro ⟨envelope, data, issues, henvelope, hdata, hissues, hwhole, h⟩
    refine except_bind_ok.mpr ⟨(envelope, issues), except_bind_ok.mpr ⟨envelope, henvelope, ?_⟩, mapM_ok_of_related h⟩
    refine except_bind_ok.mpr ⟨data, hdata, except_bind_ok.mpr ⟨issues, hissues, ?_⟩⟩
    rw [hwhole]
    rfl

/-- What the normaliser is to do with an answer, as one about an issue and as a search: only
    a `ValueError` is raised, and evidence is given of every issue of a whole search or of none. -/
structure NormalisesAsClaimed (raw : Response) (expectedEnvironment expectedCorrelationId : String)
    (customFields : List (String × String)) : Prop where
  issue : Total (normalizeIssue raw expectedEnvironment expectedCorrelationId customFields)
  search : Total (normalizeIssueSearch raw expectedEnvironment expectedCorrelationId customFields)
  whole : ∀ items, normalizeIssueSearch raw expectedEnvironment expectedCorrelationId customFields = .ok items ↔
    ∃ envelope data issues, JiraMcpEnvelope.modelValidate raw = .ok envelope ∧
      envelope.responseData expectedEnvironment expectedCorrelationId "Jira MCP search failed" = .ok data ∧
      searchedIssues data = .ok issues ∧ truncated data issues.length = false ∧
      List.Forall₂ (fun issue item => normalizeIssue (responseOf envelope issue) expectedEnvironment
        expectedCorrelationId customFields = .ok item) issues items

theorem normalises_as_claimed_iff (raw : Response) (expectedEnvironment expectedCorrelationId : String)
    (customFields : List (String × String)) :
    NormalisesAsClaimed raw expectedEnvironment expectedCorrelationId customFields ↔
      ¬ Breaks raw expectedEnvironment expectedCorrelationId customFields ∧
        ¬ SearchBreaks raw expectedEnvironment expectedCorrelationId customFields := by
  constructor
  · intro h
    exact ⟨normalizeIssue_total_iff.mp h.issue, normalizeIssueSearch_total_iff.mp h.search⟩
  · rintro ⟨hissue, hsearch⟩
    exact ⟨normalizeIssue_total_iff.mpr hissue, normalizeIssueSearch_total_iff.mpr hsearch,
      fun _ => normalizeIssueSearch_ok_iff⟩

end

/-! ## An issue of infinite hours -/

/-- Readers of one time, and of nothing else. -/
@[reducible] def Validation.oneTime : Validation where
  integer _ := .error "Input should be a valid integer"
  boolean _ := .error "Input should be a valid boolean"
  date _ := .error "Input should be a valid date"
  awareDatetime value :=
    if textOf? value = some "2026-01-05T09:00:00Z" then .ok ⟨1767603600000000, 0⟩
    else .error "Input should be a valid datetime"
  fromisoformat text :=
    if text = "2026-01-05T09:00:00+00:00" then .ok (.aware ⟨1767603600000000, 0⟩)
    else .error ("Invalid isoformat string: " ++ text)
  nesting := 10000

def infiniteHours : Response :=
  [("schema_version", .value (.str "1.0")), ("environment", .value (.str "test")),
    ("correlation_id", .value (.str "read-1")), ("evidence_timestamp", .value (.str "2026-01-05T09:00:00Z")),
    ("status", .value (.str "success")), ("data", .value (.dict [("key", .str "WFD-1"), ("fields", .dict
      [("summary", .str "Login"), ("updated", .str "2026-01-05T09:00:00Z"),
        ("labels", .list [.str "workforce-estimate-hours:inf"])])]))]

theorem infiniteHours_overflows : @LabelsOverflow Unicode.ascii ["workforce-estimate-hours:inf"] :=
  @LabelsOverflow.mk Unicode.ascii _ ⟨none, rfl⟩ ⟨none, rfl⟩ ⟨none, rfl⟩ ⟨none, rfl⟩
    (.inl ⟨"inf", .inf false, false, rfl, rfl, rfl, rfl⟩)

theorem infinite_hours_overflow : letI := Unicode.ascii; letI := Validation.oneTime
    ¬ NormalisesAsClaimed infiniteHours "test" "read-1" [] := by
  let _ := Unicode.ascii
  let _ := Validation.oneTime
  intro h
  have hread : (readIssue infiniteHours "test" "read-1" []).toOption.map (·.labels) =
      some ["workforce-estimate-hours:inf"] := by rfl
  obtain ⟨reading, hreading, hlabels⟩ := exists_ok_of_map hread
  have hoverflow : LabelsOverflow reading.labels := by
    rw [hlabels]
    exact infiniteHours_overflows
  exact normalizeIssue_total_iff.mp h.issue (.hours reading hreading hoverflow)

end WorkforceRisk.Jira
