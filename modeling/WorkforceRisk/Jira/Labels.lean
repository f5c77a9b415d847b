/-
  WorkforceRisk.Jira.Labels — planning read back from an issue's labels
  (packages/jira-mcp-client/src/jira_mcp_client/normalize.py `_structured_labels`).

  A label tells by its name, the part up to the colon, and a value. A name is looked for at
  most once (`singleLabelValue`) but for skills; hours are read as a float and rounded to
  seconds. Proved: what a name reads of labels that are distinct (`singleLabelValue_iff`),
  what hours read (`hours_iff`), and that all is read exactly if each part is
  (`structuredLabels_iff`).
-/

import WorkforceRisk.Evidence.Numbers
import WorkforceRisk.Profiles.Model

namespace WorkforceRisk.Jira

open Lib Persistence Historical Evidence Profiles

/-- A `JiraNormalizationError`, which is a `ValueError`. -/
def normalizationError {α : Type} (message : String) : Except Raised α := .error (.error (.valueError message))

def removePrefix (start label : String) : String := String.ofList (label.toList.drop start.length)

/-- The values of the labels of a name. -/
def labelValues (labels : List String) (start : String) : List String :=
  (labels.filter fun label => startsWith label start).map (removePrefix start)

/-- `prefix.rstrip(":").replace("-", " ")` -/
def labelName (start : String) : String :=
  String.ofList ((start.toList.rdropWhile (· == ':')).map fun c => if c = '-' then ' ' else c)

/-- `_single_label_value`. -/
def singleLabelValue (labels : List String) (start : String) : Except Raised (Option String) :=
  match labelValues labels start with
  | [] => .ok none
  | [value] => .ok (some value)
  | _ => normalizationError ("multiple " ++ labelName start ++ " labels")

/-- `round(hours * 3600)`. -/
def secondsOf (hours : PyFloat) : Except Raised Int :=
  match hours.mul (.finite 3600) with
  | .finite q => .ok (roundEven q)
  | .inf _ => .error (.overflowError "cannot convert float infinity to integer")
  | .nan => .error (.error (.valueError "cannot convert float NaN to integer"))

structure StructuredLabels where
  employeeId : Option String
  originalEstimateSeconds : Option Int
  remainingEstimateSeconds : Option Int
  difficulty : Option Int
  skills : List String
  complete : Option Bool
  workloadProfile : Option String
  deriving DecidableEq

def workloadProfiles : List String := ["balanced", "stalled", "high", "critical", "recovery"]

section
variable [Unicode]

/-- `hours(prefix)`. -/
def hours (labels : List String) (start : String) : Except Raised (Option Int) :=
  (singleLabelValue labels start).bind fun
    | none => .ok none
    | some value => match floatOf value with
      | none => normalizationError (start ++ " must contain hours")
      | some parsed =>
        if parsed.negative then normalizationError (start ++ " cannot be negative")
        else (secondsOf parsed).map some

def employeeOf (labels : List String) : Except Raised (Option String) :=
  (singleLabelValue labels "workforce-employee:").bind fun employeeId =>
    if employeeId.all (isKey 2) then .ok employeeId
    else normalizationError "workforce employee label is invalid"

/-- `int(value)`, which reads no more than 4300 digits. -/
def boundedInt (value : String) : Option Int :=
  if 4300 < value.toList.countP fun c => (Unicode.decimal c).isSome then none else intOf value

def difficultyOf (labels : List String) : Except Raised (Option Int) :=
  (singleLabelValue labels "workforce-difficulty:").bind fun
    | none => .ok none
    | some value => match boundedInt value with
      | none => normalizationError "difficulty label must be an integer"
      | some difficulty =>
        if 1 ≤ difficulty ∧ difficulty < 6 then .ok (some difficulty)
        else normalizationError "difficulty label must be between 1 and 5"

def completeOf (labels : List String) : Except Raised (Option Bool) :=
  let complete := labels.contains "workforce-evidence:complete"
  let incomplete := labels.contains "workforce-evidence:incomplete"
  if complete && incomplete then normalizationError "evidence completeness labels conflict"
  else .ok (if complete then some true else if incomplete then some false else none)

def workloadOf (labels : List String) : Except Raised (Option String) :=
  (singleLabelValue labels "workforce-workload-profile:").bind fun profile =>
    if profile.all workloadProfiles.contains then .ok profile
    else normalizationError "workload profile label is not allowlisted"

def skillsOf (labels : List String) : List String :=
  (labelValues labels "workforce-skill:").mergeSort fun a b => decide (a ≤ b)

/-- `_structured_labels`, of labels that are texts. -/
def structuredLabels (labels : List String) : Except Raised StructuredLabels := do
  let employeeId ← employeeOf labels
  let difficulty ← difficultyOf labels
  let complete ← completeOf labels
  let workloadProfile ← workloadOf labels
  let original ← hours labels "workforce-estimate-hours:"
  let remaining ← hours labels "workforce-remaining-hours:"
  return ⟨employeeId, original, remaining, difficulty, skillsOf labels, complete, workloadProfile⟩

end

/-! ## Labels of one name -/

theorem removePrefix_append (start value : String) : removePrefix start (start ++ value) = value := by
  unfold removePrefix
  rw [String.toList_append, ← String.length_toList, List.drop_left, String.ofList_toList]

theorem startsWith_append (start value : String) : startsWith (start ++ value) start = true := by
  rw [startsWith_iff, String.toList_append]
  exact List.prefix_append _ _

/-- A label of a name is the name and its value. -/
theorem append_removePrefix {start label : String} (h : startsWith label start = true) :
    start ++ removePrefix start label = label := by
  obtain ⟨rest, hrest⟩ := startsWith_iff.mp h
  refine String.toList_injective ?_
  unfold removePrefix
  rw [String.toList_append, String.toList_ofList, ← hrest, ← String.length_toList, List.drop_left]

theorem mem_labelValues {labels : List String} {start value : String} :
    value ∈ labelValues labels start ↔ start ++ value ∈ labels := by
  unfold labelValues
  rw [List.mem_map]
  constructor
  · rintro ⟨label, hlabel, rfl⟩
    obtain ⟨hin, hstart⟩ := List.mem_filter.mp hlabel
    rw [append_removePrefix hstart]
    exact hin
  · intro h
    exact ⟨start ++ value, List.mem_filter.mpr ⟨h, startsWith_append _ _⟩, removePrefix_append _ _⟩

theorem labelValues_nodup {labels : List String} (h : labels.Nodup) (start : String) :
    (labelValues labels start).Nodup := by
  unfold labelValues
  refine List.Nodup.map_on (fun a ha b hb heq => ?_) (h.filter _)
  rw [← append_removePrefix (List.mem_filter.mp ha).2, heq, append_removePrefix (List.mem_filter.mp hb).2]

/-- A name reads what its labels say, where that is one value or none. -/
theorem singleLabelValue_ok {labels : List String} {start : String} {value : Option String} :
    singleLabelValue labels start = .ok value ↔ labelValues labels start = value.toList := by
  unfold singleLabelValue
  split
  · rename_i hnil
    rw [hnil]
    cases value with
    | none => exact iff_of_true rfl rfl
    | some value => exact iff_of_false (fun h => by cases h) fun h => by cases h
  · rename_i only hone
    rw [hone]
    cases value with
    | none => exact iff_of_false (fun h => by cases h) fun h => by cases h
    | some value =>
      constructor
      · rintro ⟨⟩
        rfl
      · intro h
        rw [(List.cons.inj h).1]
  · rename_i hnil hone
    refine iff_of_false (fun h => by cases h) fun h => ?_
    cases value with
    | none => exact hnil h
    | some value => exact hone value h

theorem singleLabelValue_iff {labels : List String} (hnodup : labels.Nodup) {start : String} {value : Option String} :
    singleLabelValue labels start = .ok value ↔ ∀ other, start ++ other ∈ labels ↔ other ∈ value.toList := by
  have hone : value.toList.Nodup := by
    cases value with
    | none => exact List.nodup_nil
    | some value => exact List.nodup_singleton value
  have hperm : (labelValues labels start).Perm value.toList ↔ labelValues labels start = value.toList := by
    cases value with
    | none => exact List.perm_nil
    | some value => exact List.perm_singleton
  rw [singleLabelValue_ok, ← hperm, List.perm_ext_iff_of_nodup (labelValues_nodup hnodup start) hone]
  exact forall_congr' fun other => by rw [mem_labelValues]

section
variable [Unicode]

theorem hours_iff {labels : List String} {start : String} {seconds : Int} :
    hours labels start = .ok (some seconds) ↔ ∃ value parsed, singleLabelValue labels start = .ok (some value) ∧
      floatOf value = some parsed ∧ parsed.negative = false ∧ secondsOf parsed = .ok seconds := by
  unfold hours
  constructor
  · intro h
    cases hvalue : singleLabelValue labels start with
    | error e =>
      rw [hvalue] at h
      cases h
    | ok value =>
      rw [hvalue] at h
      cases value with
      | none => cases h
      | some value =>
        cases hparsed : floatOf value with
        | none =>
          simp only [Except.bind, hparsed] at h
          cases h
        | some parsed =>
          simp only [Except.bind, hparsed] at h
          split at h
          · cases h
          · rename_i hnegative
            cases hseconds : secondsOf parsed with
            | error e =>
              rw [hseconds] at h
              cases h
            | ok read =>
              rw [hseconds] at h
              cases h
              exact ⟨value, parsed, rfl, hparsed, Bool.eq_false_iff.mpr hnegative, hseconds⟩
  · rintro ⟨value, parsed, hvalue, hparsed, hnegative, hseconds⟩
    simp [hvalue, Except.bind, hparsed, hnegative, hseconds, Except.map]

theorem difficultyOf_iff {labels : List String} {difficulty : Int} :
    difficultyOf labels = .ok (some difficulty) ↔ ∃ value, singleLabelValue labels "workforce-difficulty:" = .ok (some value) ∧
      boundedInt value = some difficulty ∧ 1 ≤ difficulty ∧ difficulty < 6 := by
  unfold difficultyOf
  constructor
  · intro h
    cases hvalue : singleLabelValue labels "workforce-difficulty:" with
    | error e =>
      rw [hvalue] at h
      cases h
    | ok value =>
      rw [hvalue] at h
      cases value with
      | none => cases h
      | some value =>
        cases hread : boundedInt value with
        | none =>
          simp only [Except.bind, hread] at h
          cases h
        | some read =>
          simp only [Except.bind, hread] at h
          split at h
          · rename_i hrange
            cases h
            exact ⟨value, rfl, hread, hrange⟩
          · cases h
  · rintro ⟨value, hvalue, hread, hrange⟩
    simp [hvalue, Except.bind, hread, hrange]

theorem boundedInt_digit (tables : NumberTables) {c : Char} (h : c.isDigit = true) :
    boundedInt (String.ofList [c]) = some ((c.toNat - 48 : Nat) : Int) := by
  have hbounds := digit_bounds h
  have hprintable : ∀ d ∈ [c], 33 ≤ d.toNat ∧ d.toNat < 127 := by
    intro d hd
    rw [List.mem_singleton.mp hd]
    omega
  have hdecimal : Unicode.decimal c = some (c.toNat - 48) := by
    rw [tables.decimal_ascii c (by omega), if_pos h]
  have hcount : (String.ofList [c]).toList.countP (fun d => (Unicode.decimal d).isSome) ≤ 1 := by
    rw [String.toList_ofList]
    exact List.countP_le_length
  unfold boundedInt
  rw [if_neg (by omega)]
  unfold intOf
  rw [strip_written tables hprintable]
  split
  · rename_i heq
    rw [(List.cons.inj heq).1] at h
    cases h
  · rename_i heq
    rw [(List.cons.inj heq).1] at h
    cases h
  · rw [natDigits, hdecimal]
    rfl

/-- A difficulty is read as it is written. -/
theorem boundedInt_toString (tables : NumberTables) {difficulty : Int} (h : 1 ≤ difficulty ∧ difficulty ≤ 5) :
    boundedInt (toString difficulty) = some difficulty := by
  have hread : ∀ c : Char, c.isDigit = true → toString difficulty = String.ofList [c] →
      ((c.toNat - 48 : Nat) : Int) = difficulty → boundedInt (toString difficulty) = some difficulty := by
    intro c hdigit htext hvalue
    rw [htext, boundedInt_digit tables hdigit, hvalue]
  obtain rfl | rfl | rfl | rfl | rfl : difficulty = 1 ∨ difficulty = 2 ∨ difficulty = 3 ∨ difficulty = 4 ∨
    difficulty = 5 := by omega
  · exact hread '1' rfl (by decide) rfl
  · exact hread '2' rfl (by decide) rfl
  · exact hread '3' rfl (by decide) rfl
  · exact hread '4' rfl (by decide) rfl
  · exact hread '5' rfl (by decide) rfl

omit [Unicode] in
theorem workloadOf_iff {labels : List String} {profile : Option String} :
    workloadOf labels = .ok profile ↔ singleLabelValue labels "workforce-workload-profile:" = .ok profile ∧
      ∀ known ∈ profile, known ∈ workloadProfiles := by
  unfold workloadOf
  cases hvalue : singleLabelValue labels "workforce-workload-profile:" with
  | error e => exact iff_of_false (fun h => by cases h) fun h => by cases h.1
  | ok value =>
    have hall : value.all workloadProfiles.contains = true ↔ ∀ known ∈ value, known ∈ workloadProfiles := by
      cases value with
      | none => simp
      | some value => simp
    by_cases h : value.all workloadProfiles.contains = true
    · simp only [Except.bind, if_pos h]
      constructor
      · rintro ⟨⟩
        exact ⟨rfl, hall.mp h⟩
      · exact fun hboth => hboth.1
    · simp only [Except.bind, if_neg h]
      refine iff_of_false (fun hok => by cases hok) ?_
      rintro ⟨⟨⟩, hknown⟩
      exact h (hall.mpr hknown)

omit [Unicode] in
theorem employeeOf_some {labels : List String} {employeeId : String} (hkey : isKey 2 employeeId = true)
    (h : singleLabelValue labels "workforce-employee:" = .ok (some employeeId)) : employeeOf labels = .ok (some employeeId) := by
  simp [employeeOf, h, Except.bind, hkey]

omit [Unicode] in
theorem completeOf_iff {labels : List String} {complete : Bool} :
    completeOf labels = .ok (some complete) ↔ ("workforce-evidence:complete" ∈ labels ↔ complete = true) ∧
      ("workforce-evidence:incomplete" ∈ labels ↔ complete = false) := by
  unfold completeOf
  by_cases hcomplete : "workforce-evidence:complete" ∈ labels <;>
    by_cases hincomplete : "workforce-evidence:incomplete" ∈ labels <;> cases complete <;>
      simp [hcomplete, hincomplete, normalizationError]

/-- The labels are read exactly if each of their parts is. -/
theorem structuredLabels_iff {labels : List String} {read : StructuredLabels} :
    structuredLabels labels = .ok read ↔ employeeOf labels = .ok read.employeeId ∧
      difficultyOf labels = .ok read.difficulty ∧ completeOf labels = .ok read.complete ∧
      workloadOf labels = .ok read.workloadProfile ∧
      hours labels "workforce-estimate-hours:" = .ok read.originalEstimateSeconds ∧
      hours labels "workforce-remaining-hours:" = .ok read.remainingEstimateSeconds ∧ skillsOf labels = read.skills := by
  unfold structuredLabels
  cases employeeOf labels with
  | error e => simp [bind, Except.bind]
  | ok employeeId => cases difficultyOf labels with
    | error e => simp [bind, Except.bind]
    | ok difficulty => cases completeOf labels with
      | error e => simp [bind, Except.bind]
      | ok complete => cases workloadOf labels with
        | error e => simp [bind, Except.bind]
        | ok workloadProfile => cases hours labels "workforce-estimate-hours:" with
          | error e => simp [bind, Except.bind]
          | ok original => cases hours labels "workforce-remaining-hours:" with
            | error e => simp [bind, Except.bind]
            | ok remaining =>
              obtain ⟨employeeId', original', remaining', difficulty', skills', complete', workloadProfile'⟩ := read
              simp only [bind, Except.bind, pure, Except.pure, Except.ok.injEq, StructuredLabels.mk.injEq]
              tauto

end

end WorkforceRisk.Jira
