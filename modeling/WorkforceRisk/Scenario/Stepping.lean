/-
  WorkforceRisk.Scenario.Stepping — where runs of a scenario lead.

  What a run has to leave is `AsSpecified`: what verifies, holds the dumps that
  `scenario_at_step` gives for the last step since the seed, and is left as it is by an
  advance that raises. The store differs from that in four ways: a step's updates stay when
  the next step does not set the same fields; the remembered step outlives a seed; a step may
  set fields that an issue has not; and a step that names an issue which is not stored raises
  after it has written the issues before it. Proved (`stepping_iff`): a run ends as specified
  exactly if none of these shows.
-/

import Mathlib.Data.List.Induction
import WorkforceRisk.Scenario.Store

namespace WorkforceRisk.Scenario

open Lib Persistence

variable {V : Type} [DecidableEq V] [Values V]

/-! ## Runs -/

inductive Operation where
  | seed (availableFields : List String)
  | advance (stepName : String)

def perform (scenario : ScenarioDefinition V) (store : Store V) : Operation → Except Error OperationResult × Store V
  | .seed availableFields => ScenarioCoordinator.seed store scenario availableFields
  | .advance stepName => ScenarioCoordinator.advance store scenario stepName

/-- A run of operations that all succeed. -/
inductive Succeeds (scenario : ScenarioDefinition V) : List Operation → Store V → Prop where
  | start : Succeeds scenario [] Store.empty
  | next {operations : List Operation} {store store' : Store V} {result : OperationResult} (operation : Operation)
      (earlier : Succeeds scenario operations store)
      (h : perform scenario store operation = (.ok result, store')) : Succeeds scenario (operations ++ [operation]) store'

def Operation.isSeed : Operation → Bool
  | .seed _ => true
  | .advance _ => false

/-- Whether a run has seeded. -/
def seeded (operations : List Operation) : Bool := operations.any Operation.isSeed

def noteSince (steps : List String) : Operation → List String
  | .seed _ => []
  | .advance stepName => steps ++ [stepName]

/-- The steps of a run since its last seed. -/
def sinceSeed (operations : List Operation) : List String := operations.foldl noteSince []

def noteStep (step : Option String) : Operation → Option String
  | .seed _ => step
  | .advance stepName => some stepName

/-- The last step of a run, whether it has seeded since or not. -/
def lastStep (operations : List Operation) : Option String := operations.foldl noteStep none

/-! ## What is specified, and when it holds -/

/-- The store holds these dumps and nothing else. -/
def Holds (store : Store V) (dumps : List (String × Dict String V)) : Prop :=
  (∀ entry ∈ dumps, ∃ stored, store.issues.get? entry.1 = some stored ∧ stored.same entry.2 = true) ∧
    ∀ externalId, (store.issues.get? externalId).isSome = true → externalId ∈ dumps.map Prod.fst

/-- What a run has to leave: what verifies, holds the dumps of its last step since the seed,
    and is left as it is by an advance that raises. -/
structure AsSpecified (scenario : ScenarioDefinition V) (operations : List Operation) (store : Store V) : Prop where
  verified : ∃ result, ScenarioCoordinator.verify store scenario = .ok result ∧ result.valid = true
  holds : match (sinceSeed operations).getLast? with
    | none => Holds store (scenario.issues.map fun issue => (issue.externalId, modelDump issue))
    | some stepName => ∃ dumps, dumpsAtStep scenario stepName = .ok dumps ∧ Holds store dumps
  unchanged : ∀ stepName error store',
    ScenarioCoordinator.advance store scenario stepName = (.error error, store') → store' = store

/-- The updates of an issue by the step of that name. -/
def updatesAt (scenario : ScenarioDefinition V) (stepName externalId : String) : Dict String V :=
  ((scenario.steps.find? (·.name == stepName)).map (·.updatesOf externalId)).getD Dict.empty

/-- What these steps set a field of an issue to, in their order. -/
def settings (scenario : ScenarioDefinition V) (steps : List String) (externalId field : String) : List V :=
  steps.filterMap fun stepName => (updatesAt scenario stepName externalId).get? field

/-- These steps leave a field as the scenario has it: the last of them to set it sets it to
    that, and one that the issue has not is set to nothing but null. -/
def Restored (scenario : ScenarioDefinition V) (steps : List String) (issue : ScenarioIssue) (field : String) : Prop :=
  match (modelDump issue : Dict String V).get? field with
  | some value => ∀ last, (settings scenario steps issue.externalId field).getLast? = some last → last = value
  | none => ∀ value ∈ settings scenario steps issue.externalId field, value = Values.null

/-- Nothing of an earlier step shows: the last step since the seed sets only fields that the
    issues have, and the steps before it leave the others as they were; where no step came
    since the seed, the remembered one sets nothing anew. -/
def StepsAgree (scenario : ScenarioDefinition V) (operations : List Operation) : Prop :=
  ∀ issue ∈ scenario.issues, match (sinceSeed operations).getLast? with
    | none => ∀ stepName, lastStep operations = some stepName → ∀ field value,
        (updatesAt scenario stepName issue.externalId).get? field = some value →
          (modelDump issue).get? field = some value
    | some stepName => ∀ field,
        if ((updatesAt scenario stepName issue.externalId).get? field).isSome then field ∈ fieldNames
        else Restored scenario (sinceSeed operations).dropLast issue field

/-- A step that names an issue which is not stored names before it only issues that hold its
    updates already. -/
def RaisesFirst (scenario : ScenarioDefinition V) (store : Store V) : Prop :=
  ∀ stepName step, scenario.steps.find? (·.name == stepName) = some step →
    ∀ before entry after, step.issueUpdates.entries = before ++ entry :: after →
      store.issues.get? entry.1 = none → (∀ e ∈ before, (store.issues.get? e.1).isSome = true) →
        ∀ e ∈ before, ∀ issue, store.issues.get? e.1 = some issue →
          ∀ field value, e.2.get? field = some value → (issue.get? field).getD Values.null = value

/-! ## Where a run leads -/

/-- What the steps since the seed make of a field. -/
def settled (scenario : ScenarioDefinition V) (steps : List String) (issue : ScenarioIssue) (field : String) :
    Option V := (settings scenario steps issue.externalId field).foldl settle ((modelDump issue).get? field)

/-- What a run has stored. -/
structure Reached (scenario : ScenarioDefinition V) (operations : List Operation) (store : Store V) : Prop where
  scope : operations ≠ [] → ScenarioCoordinator.guard scenario = .ok ()
  step : store.currentStep = lastStep operations
  known : ∀ stepName, lastStep operations = some stepName ∨ stepName ∈ sinceSeed operations →
    ∃ step, scenario.steps.find? (·.name == stepName) = some step
  unseeded : seeded operations = false → ∀ externalId, store.issues.get? externalId = none
  only : ∀ externalId, (store.issues.get? externalId).isSome = true → externalId ∈ scenario.issues.map (·.externalId)
  stored : seeded operations = true → ∀ issue ∈ scenario.issues, ∃ stored,
    store.issues.get? issue.externalId = some stored ∧
      ∀ field, stored.get? field = settled scenario (sinceSeed operations) issue field

theorem sinceSeed_snoc (operations : List Operation) (operation : Operation) :
    sinceSeed (operations ++ [operation]) = noteSince (sinceSeed operations) operation := by
  rw [sinceSeed, List.foldl_append]
  rfl

theorem lastStep_snoc (operations : List Operation) (operation : Operation) :
    lastStep (operations ++ [operation]) = noteStep (lastStep operations) operation := by
  rw [lastStep, List.foldl_append]
  rfl

theorem seeded_snoc (operations : List Operation) (operation : Operation) :
    seeded (operations ++ [operation]) = (seeded operations || operation.isSeed) := by
  rw [seeded, List.any_append]
  simp [seeded]

theorem settled_snoc (scenario : ScenarioDefinition V) (steps : List String) (stepName : String)
    (issue : ScenarioIssue) (field : String) : settled scenario (steps ++ [stepName]) issue field =
      ((updatesAt scenario stepName issue.externalId).get? field).toList.foldl settle
        (settled scenario steps issue field) := by
  unfold settled settings
  rw [List.filterMap_append, List.foldl_append]
  cases h : (updatesAt scenario stepName issue.externalId).get? field with
  | none =>
    simp only [List.filterMap_cons, h]
    rfl
  | some value =>
    simp only [List.filterMap_cons, h]
    rfl

/-- A seed that succeeds. -/
theorem seed_ok {scenario : ScenarioDefinition V} {store store' : Store V} {availableFields : List String}
    {result : OperationResult} (h : ScenarioCoordinator.seed store scenario availableFields = (.ok result, store')) :
    ScenarioCoordinator.guard scenario = .ok () ∧ store' = (store.seed scenario).2 := by
  unfold ScenarioCoordinator.seed at h
  cases hguard : ScenarioCoordinator.guard scenario with
  | error error =>
    rw [hguard] at h
    cases h
  | ok _ =>
    rw [hguard] at h
    dsimp only at h
    split at h
    · cases h
      exact ⟨rfl, rfl⟩
    · cases h

/-- An advance that succeeds. -/
theorem advance_ok {scenario : ScenarioDefinition V} {store store' : Store V} {stepName : String}
    {result : OperationResult} (h : ScenarioCoordinator.advance store scenario stepName = (.ok result, store')) :
    ScenarioCoordinator.guard scenario = .ok () ∧ ∃ step, scenario.steps.find? (·.name == stepName) = some step ∧
      (∀ e ∈ step.issueUpdates.entries, (store.issues.get? e.1).isSome = true) ∧
      store' = ⟨step.issueUpdates.entries.foldl write store.issues, some stepName⟩ := by
  unfold ScenarioCoordinator.advance at h
  cases hguard : ScenarioCoordinator.guard scenario with
  | error error =>
    rw [hguard] at h
    cases h
  | ok _ =>
    rw [hguard] at h
    dsimp only at h
    refine ⟨rfl, ?_⟩
    unfold Store.advance at h
    cases hstep : scenario.steps.find? (·.name == stepName) with
    | none =>
      rw [hstep] at h
      cases h
    | some step =>
      rw [hstep] at h
      dsimp only at h
      rcases advanceIssues_cases step.issueUpdates.entries store.issues 0 with hok | hraised
      · obtain ⟨m, hok, hall⟩ := hok
        rw [hok] at h
        cases h
        exact ⟨step, rfl, hall, rfl⟩
      · obtain ⟨before, entry, after, -, -, -, hraised⟩ := hraised
        rw [hraised] at h
        cases h

omit [DecidableEq V] [Values V] in
theorem updatesAt_of_find {scenario : ScenarioDefinition V} {stepName : String} {step : ScenarioStep V}
    (h : scenario.steps.find? (·.name == stepName) = some step) (externalId : String) :
    updatesAt scenario stepName externalId = step.updatesOf externalId := by
  unfold updatesAt
  rw [h]
  rfl

theorem succeeds_reached {scenario : ScenarioDefinition V} {operations : List Operation} {store : Store V}
    (h : Succeeds scenario operations store) : Reached scenario operations store := by
  induction h with
  | start =>
    refine ⟨fun h => absurd rfl h, rfl, fun stepName h => ?_, fun _ _ => rfl, fun _ h => ?_, fun h => ?_⟩
    · rcases h with h | h <;> cases h
    · cases h
    · cases h
  | @next operations store store' result operation _ hperform ih =>
    cases operation with
    | seed availableFields =>
      obtain ⟨hguard, rfl⟩ := seed_ok hperform
      obtain ⟨hseeded, hother⟩ := foldl_seedIssue (s := ⟨store.issues, 0, 0⟩) scenario.externalIds_unique
      refine ⟨fun _ => hguard, ?_, fun stepName h => ?_, fun h => ?_, fun externalId h => ?_, fun _ issue hissue => ?_⟩
      · rw [lastStep_snoc]
        exact ih.step
      · rw [lastStep_snoc, sinceSeed_snoc] at h
        rcases h with h | h
        · exact ih.known stepName (.inl h)
        · cases h
      · rw [seeded_snoc] at h
        simp [Operation.isSeed] at h
      · by_contra hnot
        have hgone := hother externalId hnot
        have h : ((scenario.issues.foldl Store.seedIssue ⟨store.issues, 0, 0⟩).issues.get? externalId).isSome = true := h
        rw [hgone] at h
        exact hnot (ih.only externalId h)
      · obtain ⟨stored, hstored, hfields⟩ := hseeded issue hissue
        refine ⟨stored, hstored, fun field => ?_⟩
        rw [sinceSeed_snoc]
        exact hfields field
    | advance stepName =>
      obtain ⟨hguard, step, hstep, hall, rfl⟩ := advance_ok hperform
      have hget : ∀ externalId, (step.issueUpdates.entries.foldl write store.issues).get? externalId =
          (store.issues.get? externalId).map (written (step.updatesOf externalId)) :=
        fun externalId => foldl_write_get? _ externalId step.issueUpdates.distinct
      refine ⟨fun _ => hguard, ?_, fun name h => ?_, fun h externalId => ?_, fun externalId h => ?_,
        fun h issue hissue => ?_⟩
      · rw [lastStep_snoc]
        rfl
      · rw [lastStep_snoc, sinceSeed_snoc] at h
        rcases h with h | h
        · cases h
          exact ⟨step, hstep⟩
        · rcases List.mem_append.mp h with h | h
          · exact ih.known name (.inr h)
          · rw [List.mem_singleton.mp h]
            exact ⟨step, hstep⟩
      · rw [seeded_snoc] at h
        have hnone := ih.unseeded (by simpa [Operation.isSeed] using h) externalId
        exact (hget externalId).trans (by rw [hnone]; rfl)
      · have hsome : ((step.issueUpdates.entries.foldl write store.issues).get? externalId).isSome = true := h
        rw [foldl_write_isSome] at hsome
        exact ih.only externalId hsome
      · rw [seeded_snoc] at h
        obtain ⟨stored, hstored, hfields⟩ := ih.stored (by simpa [Operation.isSeed] using h) issue hissue
        refine ⟨written (step.updatesOf issue.externalId) stored, ?_, fun field => ?_⟩
        · exact (hget issue.externalId).trans (by rw [hstored]; rfl)
        · rw [sinceSeed_snoc]
          show _ = settled scenario (sinceSeed operations ++ [stepName]) issue field
          rw [written_get?, settled_snoc, updatesAt_of_find hstep, hfields field]

/-! ## When a run ends as specified -/

variable {scenario : ScenarioDefinition V} {operations : List Operation} {store : Store V}

omit [DecidableEq V] in
theorem desired_get? (hstep : store.currentStep = lastStep operations) (issue : ScenarioIssue) (field : String) :
    (ScenarioCoordinator.desired store scenario issue).get? field =
      match lastStep operations with
      | none => (modelDump issue).get? field
      | some stepName =>
        ((updatesAt scenario stepName issue.externalId).get? field).or ((modelDump issue).get? field) := by
  unfold ScenarioCoordinator.desired updatesAt
  rw [hstep]
  cases lastStep operations with
  | none =>
    have hnone : scenario.steps.find? (fun step => some step.name == none) = none :=
      List.find?_eq_none.mpr fun step _ => by simp
    rw [hnone]
  | some stepName =>
    have hfind : scenario.steps.find? (fun step => some step.name == some stepName) =
        scenario.steps.find? (·.name == stepName) := by
      congr 1
    rw [hfind]
    dsimp only
    cases scenario.steps.find? (·.name == stepName) with
    | none => rfl
    | some step => exact Dict.get?_update _ _ _

/-- A store verifies when every issue is stored as it is desired. -/
theorem verify_iff : (∃ result, ScenarioCoordinator.verify store scenario = .ok result ∧ result.valid = true) ↔
    ScenarioCoordinator.guard scenario = .ok () ∧ ∀ issue ∈ scenario.issues, ∃ stored,
      store.issues.get? issue.externalId = some stored ∧
        ∀ field, stored.get? field = (ScenarioCoordinator.desired store scenario issue).get? field := by
  have hvalid : ∀ issue, (∃ stored, store.issues.get? issue.externalId = some stored ∧
      ∀ field, stored.get? field = (ScenarioCoordinator.desired store scenario issue).get? field) ↔
      (store.issues.get? issue.externalId).isNone = false ∧ ((store.issues.get? issue.externalId).any fun actual =>
        !actual.same (ScenarioCoordinator.desired store scenario issue)) = false := by
    intro issue
    cases store.issues.get? issue.externalId with
    | none => simp
    | some stored => simp [Dict.same_iff]
  unfold ScenarioCoordinator.verify
  cases ScenarioCoordinator.guard scenario with
  | error error => simp
  | ok _ =>
    simp only [Except.ok.injEq, exists_eq_left', Bool.and_eq_true, List.isEmpty_iff, List.filter_eq_nil_iff,
      Bool.not_eq_true, true_and, hvalid]
    exact ⟨fun h issue hissue => ⟨h.1 issue hissue, h.2 issue hissue⟩,
      fun h => ⟨fun issue hissue => (h issue hissue).1, fun issue hissue => (h issue hissue).2⟩⟩

/-- What it is to hold one dump for each issue, where nothing else is stored. -/
theorem holds_iff (hreached : Reached scenario operations store) (dump : ScenarioIssue → Dict String V) :
    Holds store (scenario.issues.map fun issue => (issue.externalId, dump issue)) ↔
      ∀ issue ∈ scenario.issues, ∃ stored, store.issues.get? issue.externalId = some stored ∧
        ∀ field, stored.get? field = (dump issue).get? field := by
  unfold Holds
  simp only [List.forall_mem_map, Dict.same_iff, List.map_map]
  exact and_iff_left hreached.only

omit [DecidableEq V] in
theorem dumpCopy_get? (issue : ScenarioIssue) (updates : Dict String V) (field : String) :
    (dumpCopy issue updates).get? field =
      if field ∈ fieldNames then (updates.get? field).or ((modelDump issue).get? field) else none := by
  unfold dumpCopy
  rw [Dict.get?_keep, Dict.get?_update]
  split
  · rename_i hfield
    cases (updates.get? field).or ((modelDump issue).get? field) <;> simp [hfield]
  · rename_i hfield
    cases (updates.get? field).or ((modelDump issue).get? field) <;> simp [hfield]

/-- The last step since the seed is the last step. -/
theorem lastStep_of_sinceSeed {stepName : String} (h : (sinceSeed operations).getLast? = some stepName) :
    lastStep operations = some stepName := by
  rcases List.eq_nil_or_concat operations with rfl | hlast
  · cases h
  · obtain ⟨earlier, operation, hlast⟩ := hlast
    rw [List.concat_eq_append] at hlast
    subst hlast
    rw [sinceSeed_snoc] at h
    rw [lastStep_snoc]
    cases operation with
    | seed availableFields => cases h
    | advance name =>
      rw [noteSince, List.getLast?_concat] at h
      exact h

/-- Setting a value that is there keeps it, and only that does. -/
theorem settle_some (current value : V) : settle (some current) value = some value := by
  unfold settle
  split
  · rename_i h
    exact congrArg some h
  · rfl

/-- What steps make of a field that the issue has is the last value set. -/
theorem foldl_settle_some {values : List V} : ∀ {current : V},
    values.foldl settle (some current) = some (values.getLast?.getD current) := by
  induction values using List.reverseRecOn with
  | nil => intro current; rfl
  | append_singleton values value ih =>
    intro current
    rw [List.foldl_append, ih, List.getLast?_concat]
    exact settle_some _ _

/-- A field that the issue has not stays missing while it is set to nothing but null. -/
theorem foldl_settle_none {values : List V} :
    values.foldl settle none = none ↔ ∀ value ∈ values, value = (Values.null : V) := by
  induction values with
  | nil => simp
  | cons value values ih =>
    rw [List.foldl_cons, List.forall_mem_cons]
    by_cases hnull : Values.null = value
    · have hsettle : settle none value = none := if_pos hnull
      rw [hsettle, ih]
      exact (and_iff_right hnull.symm).symm
    · have hsettle : settle none value = some value := if_neg hnull
      rw [hsettle, foldl_settle_some]
      simp [Ne.symm hnull]

theorem settled_iff (steps : List String) (issue : ScenarioIssue) (field : String) :
    settled scenario steps issue field = (modelDump issue).get? field ↔ Restored scenario steps issue field := by
  unfold settled Restored
  cases (modelDump issue : Dict String V).get? field with
  | none => exact foldl_settle_none
  | some value =>
    rw [foldl_settle_some, Option.some.injEq]
    dsimp only
    cases (settings scenario steps issue.externalId field).getLast? with
    | none => simp
    | some last => simp

/-- After a last step, a field reads as it is desired and as the step's dump: the step sets one that
    the issue has, or leaves one that the steps before it restored. -/
theorem settled_last_iff (steps : List String) (stepName : String) (issue : ScenarioIssue) (field : String) :
    (settled scenario (steps ++ [stepName]) issue field =
        ((updatesAt scenario stepName issue.externalId).get? field).or ((modelDump issue).get? field) ∧
      settled scenario (steps ++ [stepName]) issue field =
        (dumpCopy issue (updatesAt scenario stepName issue.externalId)).get? field) ↔
      if ((updatesAt scenario stepName issue.externalId).get? field).isSome then field ∈ fieldNames
      else Restored scenario steps issue field := by
  have hknown := modelDump_isSome (V := V) issue field
  rw [dumpCopy_get?, settled_snoc]
  cases hupdate : (updatesAt scenario stepName issue.externalId).get? field with
  | none =>
    -- The last step leaves the field: it has to be as the issue has it.
    rw [← settled_iff]
    simp only [Option.none_or, Option.isSome_none, Bool.false_eq_true, if_false, Option.toList_none, List.foldl_nil]
    refine and_iff_left_of_imp fun h => h.trans ?_
    split
    · rfl
    · rename_i hfield
      rw [← hknown] at hfield
      simpa using hfield
  | some value =>
    -- The last step sets it: the issue has to have it.
    simp only [Option.some_or, Option.isSome_some, if_true, Option.toList_some, List.foldl_cons, List.foldl_nil]
    constructor
    · intro h
      by_contra hfield
      rw [if_neg hfield, h.1] at h
      exact absurd h.2 (by simp)
    · intro hfield
      rw [if_pos hfield, and_self]
      obtain ⟨base, hbase⟩ := Option.isSome_iff_exists.mp (hknown.mpr hfield)
      unfold settled
      rw [hbase, foldl_settle_some]
      exact settle_some _ _

/-- What an issue of the store reads as is what the steps since the seed make of its fields. -/
theorem reads_iff (hreached : Reached scenario operations store) (hseeded : seeded operations = true)
    (dump : ScenarioIssue → Dict String V) {issue : ScenarioIssue} (hissue : issue ∈ scenario.issues) :
    (∃ stored, store.issues.get? issue.externalId = some stored ∧
        ∀ field, stored.get? field = (dump issue).get? field) ↔
      ∀ field, settled scenario (sinceSeed operations) issue field = (dump issue).get? field := by
  obtain ⟨stored, hstored, hfields⟩ := hreached.stored hseeded issue hissue
  rw [hstored]
  simp only [Option.some.injEq, exists_eq_left', hfields]

/-- Every issue reads as it is desired and, by the last step, as its dump: nothing of another
    step shows. -/
theorem stepsAgree_iff (hreached : Reached scenario operations store) (hseeded : seeded operations = true) :
    ((∀ issue ∈ scenario.issues, ∃ stored, store.issues.get? issue.externalId = some stored ∧
        ∀ field, stored.get? field = (ScenarioCoordinator.desired store scenario issue).get? field) ∧
      match (sinceSeed operations).getLast? with
      | none => Holds store (scenario.issues.map fun issue => (issue.externalId, modelDump issue))
      | some stepName => ∃ dumps, dumpsAtStep scenario stepName = .ok dumps ∧ Holds store dumps) ↔
      StepsAgree scenario operations := by
  unfold StepsAgree
  cases hlast : (sinceSeed operations).getLast? with
  | none =>
    have hnil : sinceSeed operations = [] := List.getLast?_eq_none_iff.mp hlast
    have hbase : ∀ issue field, settled scenario (sinceSeed operations) issue field = (modelDump issue).get? field := by
      intro issue field
      rw [hnil]
      rfl
    have hholds : Holds store (scenario.issues.map fun issue => (issue.externalId, modelDump issue)) :=
      (holds_iff hreached modelDump).mpr fun issue hissue =>
        (reads_iff hreached hseeded modelDump hissue).mpr fun field => hbase issue field
    dsimp only
    rw [and_iff_left hholds]
    refine forall₂_congr fun issue hissue => ?_
    rw [reads_iff hreached hseeded _ hissue]
    simp only [hbase, desired_get? hreached.step]
    cases lastStep operations with
    | none => simp
    | some stepName =>
      simp only [Option.some.injEq, forall_eq']
      refine forall_congr' fun field => ?_
      cases (updatesAt scenario stepName issue.externalId).get? field with
      | none => simp
      | some value => simp
  | some stepName =>
    obtain ⟨step, hstep⟩ := hreached.known stepName (.inl (lastStep_of_sinceSeed hlast))
    have hdumps : (∃ dumps, dumpsAtStep scenario stepName = .ok dumps ∧ Holds store dumps) ↔
        ∀ issue ∈ scenario.issues, ∃ stored, store.issues.get? issue.externalId = some stored ∧
          ∀ field, stored.get? field = (dumpCopy issue (updatesAt scenario stepName issue.externalId)).get? field := by
      unfold dumpsAtStep
      rw [hstep]
      simp only [Except.ok.injEq, exists_eq_left', updatesAt_of_find hstep]
      exact holds_iff hreached fun issue => dumpCopy issue (step.updatesOf issue.externalId)
    have hsplit : sinceSeed operations = (sinceSeed operations).dropLast ++ [stepName] :=
      (List.dropLast_append_getLast? stepName hlast).symm
    dsimp only
    rw [hdumps, ← forall₂_and]
    refine forall₂_congr fun issue hissue => ?_
    rw [reads_iff hreached hseeded _ hissue,
      reads_iff hreached hseeded (fun issue => dumpCopy issue (updatesAt scenario stepName issue.externalId)) hissue,
      ← forall_and]
    refine forall_congr' fun field => ?_
    rw [desired_get? hreached.step, lastStep_of_sinceSeed hlast, hsplit, List.dropLast_concat]
    exact settled_last_iff _ stepName issue field

/-- An advance that raises leaves the store when the issues it names first hold its updates. -/
theorem unchanged_iff (hguard : ScenarioCoordinator.guard scenario = .ok ()) :
    (∀ stepName error store', ScenarioCoordinator.advance store scenario stepName = (.error error, store') →
      store' = store) ↔ RaisesFirst scenario store := by
  unfold ScenarioCoordinator.advance Store.advance
  rw [hguard]
  dsimp only
  constructor
  · intro h stepName step hstep before entry after hsplit hnone hbefore e he issue hissue field value hvalue
    have hraised := h stepName (.valueError ("scenario issue is not seeded: " ++ entry.1))
      { store with issues := before.foldl write store.issues } (by
        rw [hstep]
        dsimp only
        rw [hsplit, advanceIssues_missing 0 hnone hbefore])
    have hissues : before.foldl write store.issues = store.issues := congrArg Store.issues hraised
    have hdistinct : (before.map Prod.fst).Nodup := by
      have hall := step.issueUpdates.distinct
      rw [hsplit, List.map_append] at hall
      exact (List.nodup_append.mp hall).1
    have hlookup : before.lookup e.1 = some e.2 := Dict.mem_entries (d := ⟨before, hdistinct⟩).mp he
    have hsame := foldl_write_get? store.issues e.1 hdistinct
    rw [hissues, hissue, hlookup, Option.getD_some, Option.map_some, Option.some.injEq] at hsame
    rw [hsame]
    exact written_holds hvalue
  · intro h stepName error store' hraised
    cases hstep : scenario.steps.find? (·.name == stepName) with
    | none =>
      rw [hstep] at hraised
      cases hraised
      rfl
    | some step =>
      rw [hstep] at hraised
      dsimp only at hraised
      rcases advanceIssues_cases step.issueUpdates.entries store.issues 0 with hok | hmissing
      · obtain ⟨m, hok, -⟩ := hok
        rw [hok] at hraised
        cases hraised
      · obtain ⟨before, entry, after, hsplit, hnone, hbefore, hresult⟩ := hmissing
        rw [hresult] at hraised
        cases hraised
        rw [foldl_write_of_held fun e he issue hissue field value hvalue =>
          h stepName step hstep before entry after hsplit hnone hbefore e he issue hissue field value hvalue]

/-- A run ends as specified exactly if it has seeded, nothing of an earlier step shows, and a
    step that raises has nothing to undo. -/
theorem stepping_iff (h : Succeeds scenario operations store) : AsSpecified scenario operations store ↔
    ScenarioCoordinator.guard scenario = .ok () ∧ (seeded operations = true ∨ scenario.issues = []) ∧
      StepsAgree scenario operations ∧ RaisesFirst scenario store := by
  have hreached := succeeds_reached h
  constructor
  · intro hspec
    obtain ⟨hguard, hverified⟩ := verify_iff.mp hspec.verified
    refine ⟨hguard, ?_, ?_, (unchanged_iff hguard).mp hspec.unchanged⟩
    · cases hseeded : seeded operations with
      | true => exact .inl rfl
      | false =>
        refine .inr (List.eq_nil_iff_forall_not_mem.mpr fun issue hissue => ?_)
        obtain ⟨stored, hstored, -⟩ := hverified issue hissue
        rw [hreached.unseeded hseeded] at hstored
        cases hstored
    · cases hseeded : seeded operations with
      | true => exact (stepsAgree_iff hreached hseeded).mp ⟨hverified, hspec.holds⟩
      | false =>
        intro issue hissue
        obtain ⟨stored, hstored, -⟩ := hverified issue hissue
        rw [hreached.unseeded hseeded] at hstored
        cases hstored
  · intro hall
    obtain ⟨hguard, hseeded, hagree, hraises⟩ := hall
    have hboth : (∀ issue ∈ scenario.issues, ∃ stored, store.issues.get? issue.externalId = some stored ∧
        ∀ field, stored.get? field = (ScenarioCoordinator.desired store scenario issue).get? field) ∧
      match (sinceSeed operations).getLast? with
      | none => Holds store (scenario.issues.map fun issue => (issue.externalId, modelDump issue))
      | some stepName => ∃ dumps, dumpsAtStep scenario stepName = .ok dumps ∧ Holds store dumps := by
      rcases hseeded with hseeded | hnone
      · exact (stepsAgree_iff hreached hseeded).mpr hagree
      · -- Without issues there is nothing to store.
        refine ⟨fun issue hissue => (by rw [hnone] at hissue; cases hissue), ?_⟩
        have hempty : Holds store [] :=
          ⟨fun entry hentry => (by cases hentry), fun id hid => by simpa [hnone] using hreached.only id hid⟩
        cases hlast : (sinceSeed operations).getLast? with
        | none => rw [hnone]; exact hempty
        | some stepName =>
          obtain ⟨step, hstep⟩ := hreached.known stepName (.inl (lastStep_of_sinceSeed hlast))
          refine ⟨[], ?_, hempty⟩
          unfold dumpsAtStep
          rw [hstep, hnone]
          rfl
    exact ⟨verify_iff.mpr ⟨hguard, hboth.1⟩, hboth.2, (unchanged_iff hguard).mpr hraises⟩

/-! ## Two stages of an issue -/

/-- The values that the fields of an issue are written as; numbers compare as they do in Python. -/
inductive FieldValue where
  | null
  | text (s : String)
  | number (x : PyFloat)
  | texts (values : List String)
  deriving DecidableEq

instance : Values FieldValue where
  null := .null
  text := .text
  integer n := .number (.finite n)
  number := .number
  bool b := .number (.finite (if b then 1 else 0))
  texts := .texts

def sevenEmployees : List String := ["EMP-001", "EMP-002", "EMP-003", "EMP-004", "EMP-005", "EMP-006", "EMP-007"]

theorem sevenEmployees_ok : ∀ id ∈ sevenEmployees, isEmployeeId id = true := fun _ hid => decide_eq_true hid

theorem fullTime_ok : (PyFloat.finite 1).positive = true ∧ (PyFloat.finite 1).atMostOne = true := by decide

def sampleProfiles : List ScenarioProfile :=
  sevenEmployees.attach.map fun id =>
    ⟨id.1, "Backend Engineer", "mid", Dict.empty, .finite 1, .finite 1, false,
      if id.1 = "EMP-001" ∨ id.1 = "EMP-002" then some "assignee" else none, sevenEmployees_ok id.1 id.2,
      fullTime_ok.1, fullTime_ok⟩

theorem sampleProfiles_all (id : String) :
    id ∈ sampleProfiles.map (·.employeeId) ↔ isEmployeeId id = true := by
  have hids : sampleProfiles.map (·.employeeId) = sevenEmployees := by
    unfold sampleProfiles
    rw [List.map_map]
    exact List.attach_map_subtype_val _
  rw [hids]
  exact decide_eq_true_iff.symm

theorem sampleProfiles_two : (sampleProfiles.countP fun profile => profile.jiraAccountRef.isSome) = 2 := by decide +kernel

def fixtureTag : String := "workforce-scenario:seven-person:v1"

theorem loginTask_hours : (PyFloat.finite 24).positive = true ∧ (PyFloat.finite 22).nonnegative = true := by decide

theorem loginTask_difficulty : (1 : Int) ≤ 5 ∧ (5 : Int) ≤ 5 := by decide

theorem loginTask_employee : isEmployeeId "EMP-001" = true := sevenEmployees_ok _ List.mem_cons_self

theorem unpaired_ok : (none : Option String).all isEmployeeId = true := rfl

def loginTask : ScenarioIssue :=
  ⟨"primary-risk-task", "Implement login token refresh", "EMP-001", .finite 24, .finite 22, 2, "high", 5,
    ["python", "security"], [], none, none, true, none, [fixtureTag, "workforce-employee:EMP-001"],
    loginTask_employee, loginTask_hours.1, loginTask_hours.2, loginTask_difficulty, unpaired_ok⟩

theorem critical_distinct : (["remaining_hours", "due_offset_days"]).Nodup := by decide

theorem intervention_distinct : (["remaining_hours"]).Nodup := List.nodup_singleton _

theorem oneIssue_distinct : (["primary-risk-task"]).Nodup := List.nodup_singleton _

def critical : ScenarioStep FieldValue :=
  ⟨"critical", ⟨[("primary-risk-task", ⟨[("remaining_hours", .number (.finite 80)),
    ("due_offset_days", .number (.finite (-1)))], critical_distinct⟩)], oneIssue_distinct⟩⟩

def intervention : ScenarioStep FieldValue :=
  ⟨"intervention", ⟨[("primary-risk-task", ⟨[("remaining_hours", .number (.finite 18))], intervention_distinct⟩)],
    oneIssue_distinct⟩⟩

theorem loginTask_tagged : ∀ issue ∈ [loginTask], fixtureTag ∈ issue.labels := by
  intro issue hissue
  rw [List.mem_singleton.mp hissue]
  exact List.mem_cons_self

theorem loginTask_labels : ∀ issue ∈ [loginTask],
    issue.labels.filter isEmployeeLabel = ["workforce-employee:" ++ issue.workforceEmployeeId] := by
  intro issue hissue
  rw [List.mem_singleton.mp hissue]
  decide +kernel

def twoStages : ScenarioDefinition FieldValue :=
  ⟨fixtureTag, "dev", "WRD", 20675, sampleProfiles, [loginTask], [critical, intervention], sampleProfiles_all,
    sampleProfiles_two, List.nodup_singleton _, loginTask_tagged, loginTask_labels⟩

def seeding : Operation := .seed requiredFields

/-- The store after these operations. -/
def after (operations : List Operation) : Store FieldValue :=
  operations.foldl (fun store operation => (perform twoStages store operation).2) Store.empty

theorem succeeds_seeding : Succeeds twoStages [seeding] (after [seeding]) := by
  have hseed : perform twoStages .empty seeding = (.ok ⟨1, 0, 0⟩, after [seeding]) := Prod.ext (by rfl) rfl
  exact .next seeding .start hseed

theorem succeeds_critical : Succeeds twoStages [seeding, .advance "critical"] (after [seeding, .advance "critical"]) := by
  have hadvance : perform twoStages (after [seeding]) (.advance "critical") =
      (.ok ⟨0, 2, 0⟩, after [seeding, .advance "critical"]) := Prod.ext (by rfl) rfl
  exact .next _ succeeds_seeding hadvance

theorem critical_fields : ∀ field ∈ ["remaining_hours", "due_offset_days"], field ∈ fieldNames := by decide

/-- One stage after the seed ends as specified. -/
theorem stepping_iff_critical :
    AsSpecified twoStages [seeding, .advance "critical"] (after [seeding, .advance "critical"]) := by
  refine (stepping_iff succeeds_critical).mpr ⟨by rfl, .inl rfl, fun issue hissue field => ?_, ?_⟩
  · obtain rfl : issue = loginTask := List.mem_singleton.mp hissue
    split
    · rename_i hset
      exact critical_fields field (Dict.get?_isSome.mp hset)
    · -- No stage came before it.
      unfold Restored
      split <;> intro _ h <;> cases h
  · intro stepName step hstep before entry after hsplit _ _ e he
    have hone : step.issueUpdates.entries.length = 1 := by
      have hmem : step ∈ [critical, intervention] := List.mem_of_find?_eq_some hstep
      rcases List.mem_cons.mp hmem with rfl | hmem
      · rfl
      · rw [List.mem_singleton.mp hmem]
        rfl
    rw [hsplit, List.length_append, List.length_cons] at hone
    obtain rfl : before = [] := List.length_eq_zero_iff.mp (by omega)
    cases he

/-- A later stage keeps what an earlier one set, and what the coordinator verifies is that
    stage alone. -/
theorem critical_outlives_intervention : ¬ ∀ (operations : List Operation) (store : Store FieldValue),
    Succeeds twoStages operations store → AsSpecified twoStages operations store := by
  intro h
  have hadvance : perform twoStages (after [seeding, .advance "critical"]) (.advance "intervention") =
      (.ok ⟨0, 1, 0⟩, after [seeding, .advance "critical", .advance "intervention"]) := Prod.ext (by rfl) rfl
  obtain ⟨result, hverify, hvalid⟩ := (h _ _ (.next _ succeeds_critical hadvance)).verified
  have hinvalid : (ScenarioCoordinator.verify (after [seeding, .advance "critical", .advance "intervention"])
      twoStages).toOption.map (·.valid) = some false := by rfl
  rw [hverify, Except.toOption, Option.map_some, hvalid] at hinvalid
  cases hinvalid

end WorkforceRisk.Scenario
