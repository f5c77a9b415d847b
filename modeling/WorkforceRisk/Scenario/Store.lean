/-
  WorkforceRisk.Scenario.Store — the in-memory store of a scenario and its coordinator
  (scripts/jira/scenario.py `InMemoryScenarioStore`, scripts/jira/runner.py
  `ScenarioCoordinator`).

  `seed` writes the dump of every issue; `advance` writes one step's updates over what is
  stored, issue by issue, and remembers the step. `verify` compares what is stored with
  the dumps updated by the remembered step alone, and `dumpsAtStep` are the dumps that
  `scenario_at_step` says a step has.

  Proved: what an advance writes (`advanceIssues_cases`, `foldl_write_get?`) and what a seed
  stores (`foldl_seedIssue`).
-/

import WorkforceRisk.Scenario.Definition

namespace WorkforceRisk.Scenario

open Lib Persistence

variable {V : Type} [DecidableEq V] [Values V]

structure OperationResult where
  created : Nat
  changed : Nat
  unchanged : Nat

structure Store (V : Type) where
  issues : Dict String (Dict String V)
  currentStep : Option String

namespace Store

def empty : Store V := ⟨Dict.empty, none⟩

/-- The issues seeded so far, with how many were created and how many left as they were. -/
structure Seeding (V : Type) where
  issues : Dict String (Dict String V)
  created : Nat
  unchanged : Nat

def seedIssue (s : Seeding V) (issue : ScenarioIssue) : Seeding V :=
  match s.issues.get? issue.externalId with
  | some current =>
    if current.same (modelDump issue) then { s with unchanged := s.unchanged + 1 }
    else { s with issues := s.issues.set issue.externalId (modelDump issue) }
  | none => { s with issues := s.issues.set issue.externalId (modelDump issue), created := s.created + 1 }

/-- `seed`. -/
def seed (store : Store V) (scenario : ScenarioDefinition V) : OperationResult × Store V :=
  let s := scenario.issues.foldl seedIssue ⟨store.issues, 0, 0⟩
  (⟨s.created, 0, s.unchanged⟩, { store with issues := s.issues })

/-- One field of an issue is set if it reads otherwise; one that is missing reads as null. -/
def setField (s : Dict String V × Nat) (update : String × V) : Dict String V × Nat :=
  if (s.1.get? update.1).getD Values.null ≠ update.2 then (s.1.set update.1 update.2, s.2 + 1) else s

/-- The updates of a step, issue by issue; those before one that is not stored are written. -/
def advanceIssues : List (String × Dict String V) → Dict String (Dict String V) → Nat →
    Except Error Nat × Dict String (Dict String V)
  | [], issues, changed => (.ok changed, issues)
  | (externalId, updates) :: rest, issues, changed =>
    match issues.get? externalId with
    | none => (.error (.valueError ("scenario issue is not seeded: " ++ externalId)), issues)
    | some issue =>
      let updated := updates.entries.foldl setField (issue, changed)
      advanceIssues rest (issues.set externalId updated.1) updated.2

/-- `advance`, with what it leaves of the store when it raises. -/
def advance (store : Store V) (scenario : ScenarioDefinition V) (stepName : String) :
    Except Error OperationResult × Store V :=
  match scenario.steps.find? (·.name == stepName) with
  | none => (.error (.valueError ("unknown scenario step: " ++ stepName)), store)
  | some step =>
    match advanceIssues step.issueUpdates.entries store.issues 0 with
    | (.error error, issues) => (.error error, { store with issues := issues })
    | (.ok changed, issues) => (.ok ⟨0, changed, 0⟩, ⟨issues, some stepName⟩)

end Store

/-- A step's updates of an issue. -/
def ScenarioStep.updatesOf (step : ScenarioStep V) (externalId : String) : Dict String V :=
  (step.issueUpdates.get? externalId).getD Dict.empty

/-- The dump of `issue.model_copy(update=updates)`: the fields are those of the model. -/
def dumpCopy (issue : ScenarioIssue) (updates : Dict String V) : Dict String V :=
  ((modelDump issue).update updates).keep fun field _ => decide (field ∈ fieldNames)

/-- The dumps of `scenario_at_step(scenario, step_name).issues`, each by its issue's id. -/
def dumpsAtStep (scenario : ScenarioDefinition V) (stepName : String) : Except Error (List (String × Dict String V)) :=
  match scenario.steps.find? (·.name == stepName) with
  | none => .error (.valueError ("unknown scenario step: " ++ stepName))
  | some step => .ok (scenario.issues.map fun issue =>
      (issue.externalId, dumpCopy issue (step.updatesOf issue.externalId)))

/-! ## The coordinator -/

/-- `REQUIRED_FIELDS`, sorted. -/
def requiredFields : List String := ["Blocker Category", "Labels"]

structure VerificationResult where
  valid : Bool
  missingExternalIds : List String
  mismatchedExternalIds : List String

namespace ScenarioCoordinator

def guard (scenario : ScenarioDefinition V) : Except Error Unit :=
  validateScenarioScope scenario.environment scenario.projectKey

def seed (store : Store V) (scenario : ScenarioDefinition V) (availableFields : List String) :
    Except Error OperationResult × Store V :=
  match guard scenario with
  | .error error => (.error error, store)
  | .ok () =>
    let missing := requiredFields.filter fun field => !availableFields.contains field
    if missing.isEmpty then (.ok (store.seed scenario).1, (store.seed scenario).2)
    else (.error (.valueError ("required Jira field is unavailable: " ++ String.intercalate ", " missing)), store)

def advance (store : Store V) (scenario : ScenarioDefinition V) (stepName : String) :
    Except Error OperationResult × Store V :=
  match guard scenario with
  | .error error => (.error error, store)
  | .ok () => store.advance scenario stepName

/-- What `verify` wants stored of an issue. -/
def desired (store : Store V) (scenario : ScenarioDefinition V) (issue : ScenarioIssue) : Dict String V :=
  match scenario.steps.find? fun step => some step.name == store.currentStep with
  | none => modelDump issue
  | some step => (modelDump issue).update (step.updatesOf issue.externalId)

def verify (store : Store V) (scenario : ScenarioDefinition V) : Except Error VerificationResult :=
  match guard scenario with
  | .error error => .error error
  | .ok () =>
    let missing := scenario.issues.filter fun issue => (store.issues.get? issue.externalId).isNone
    let mismatched := scenario.issues.filter fun issue =>
      (store.issues.get? issue.externalId).any fun actual => !actual.same (desired store scenario issue)
    .ok ⟨missing.isEmpty && mismatched.isEmpty, (missing.map (·.externalId)).mergeSort (· ≤ ·),
      (mismatched.map (·.externalId)).mergeSort (· ≤ ·)⟩

end ScenarioCoordinator

/-! ## Writing updates -/

/-- What reading a field gives once it is set. -/
def settle (current : Option V) (value : V) : Option V :=
  if current.getD Values.null = value then current else some value

theorem setField_get? (s : Dict String V × Nat) (update : String × V) (field : String) :
    (Store.setField s update).1.get? field =
      if update.1 = field then settle (s.1.get? field) update.2 else s.1.get? field := by
  unfold Store.setField settle
  by_cases hfield : update.1 = field
  · subst hfield
    by_cases hsame : (s.1.get? update.1).getD Values.null = update.2
    · rw [if_neg (not_not.mpr hsame), if_pos rfl, if_pos hsame]
    · rw [if_pos hsame, if_pos rfl, if_neg hsame]
      exact Dict.get?_set_self _ _ _
  · rw [if_neg hfield]
    split
    · exact Dict.get?_set_ne _ _ hfield
    · rfl

theorem foldl_setField_get? {entries : List (String × V)} : ∀ {s : Dict String V × Nat} {field : String},
    (entries.map Prod.fst).Nodup → (entries.foldl Store.setField s).1.get? field =
      (entries.lookup field).toList.foldl settle (s.1.get? field) := by
  induction entries with
  | nil => intro s field _; rfl
  | cons entry entries ih =>
    intro s field h
    obtain ⟨hnew, hrest⟩ := List.nodup_cons.mp h
    rw [List.foldl_cons, ih hrest, setField_get?, Dict.lookup_cons]
    by_cases hfield : entry.1 = field
    · have hgone : entries.lookup field = none := by
        refine List.lookup_eq_none_iff.mpr fun e he => ?_
        have hne : field ≠ e.1 := fun heq => hnew (hfield ▸ heq ▸ List.mem_map_of_mem he)
        simpa using hne
      rw [hgone, if_pos hfield, if_pos hfield]
      rfl
    · rw [if_neg hfield, if_neg hfield]

/-- An issue with a step's updates written over it. -/
def written (updates issue : Dict String V) : Dict String V := (updates.entries.foldl Store.setField (issue, 0)).1

theorem foldl_setField_fst {entries : List (String × V)} : ∀ {issue : Dict String V} {n m : Nat},
    (entries.foldl Store.setField (issue, n)).1 = (entries.foldl Store.setField (issue, m)).1 := by
  induction entries with
  | nil => intro issue n m; rfl
  | cons entry entries ih =>
    intro issue n m
    rw [List.foldl_cons, List.foldl_cons]
    unfold Store.setField
    dsimp only
    split
    · exact ih
    · exact ih

theorem written_get? (updates issue : Dict String V) (field : String) : (written updates issue).get? field =
    (updates.get? field).toList.foldl settle (issue.get? field) :=
  foldl_setField_get? updates.distinct

/-- Updates that an issue holds already change nothing. -/
theorem written_of_held {updates issue : Dict String V}
    (h : ∀ field value, updates.get? field = some value → (issue.get? field).getD Values.null = value) :
    written updates issue = issue := by
  have hall : ∀ entry ∈ updates.entries, (issue.get? entry.1).getD Values.null = entry.2 :=
    fun entry hentry => h entry.1 entry.2 (Dict.mem_entries.mp hentry)
  have hfold : ∀ entries : List (String × V), (∀ entry ∈ entries, (issue.get? entry.1).getD Values.null = entry.2) →
      entries.foldl Store.setField (issue, 0) = (issue, 0) := by
    intro entries hentries
    induction entries with
    | nil => rfl
    | cons entry entries ih =>
      have hstep : Store.setField (issue, 0) entry = (issue, 0) :=
        if_neg (not_not.mpr (hentries entry List.mem_cons_self))
      rw [List.foldl_cons, hstep]
      exact ih fun e he => hentries e (List.mem_cons_of_mem _ he)
  exact congrArg Prod.fst (hfold updates.entries hall)

/-- After them the fields read as they say. -/
theorem written_holds {updates issue : Dict String V} {field : String} {value : V}
    (h : updates.get? field = some value) : ((written updates issue).get? field).getD Values.null = value := by
  rw [written_get?, h, Option.toList_some, List.foldl_cons, List.foldl_nil]
  unfold settle
  split
  · assumption
  · rfl

/-! ## Advancing -/

/-- One issue's updates, where the issue is stored. -/
def write (issues : Dict String (Dict String V)) (entry : String × Dict String V) : Dict String (Dict String V) :=
  match issues.get? entry.1 with
  | none => issues
  | some issue => issues.set entry.1 (written entry.2 issue)

theorem write_get? (issues : Dict String (Dict String V)) (entry : String × Dict String V) (externalId : String) :
    (write issues entry).get? externalId =
      if entry.1 = externalId then (issues.get? externalId).map (written entry.2) else issues.get? externalId := by
  unfold write
  by_cases hid : entry.1 = externalId
  · subst hid
    rw [if_pos rfl]
    cases hissue : issues.get? entry.1 with
    | none => exact hissue
    | some issue => exact Dict.get?_set_self _ _ _
  · rw [if_neg hid]
    cases issues.get? entry.1 with
    | none => rfl
    | some issue => exact Dict.get?_set_ne _ _ hid

theorem write_isSome (issues : Dict String (Dict String V)) (entry : String × Dict String V) (externalId : String) :
    ((write issues entry).get? externalId).isSome = (issues.get? externalId).isSome := by
  rw [write_get?]
  split
  · rw [Option.isSome_map]
  · rfl

theorem foldl_write_isSome {entries : List (String × Dict String V)} : ∀ {issues : Dict String (Dict String V)}
    {externalId : String}, ((entries.foldl write issues).get? externalId).isSome =
      (issues.get? externalId).isSome := by
  induction entries with
  | nil => intro _ _; rfl
  | cons entry entries ih => intro _ _; rw [List.foldl_cons, ih, write_isSome]

theorem foldl_write_get? {entries : List (String × Dict String V)} : ∀ (issues : Dict String (Dict String V))
    (externalId : String), (entries.map Prod.fst).Nodup → (entries.foldl write issues).get? externalId =
      (issues.get? externalId).map (written ((entries.lookup externalId).getD Dict.empty)) := by
  induction entries with
  | nil =>
    intro issues externalId _
    have hid : written (Dict.empty : Dict String V) = id := funext fun issue => written_of_held fun _ _ h => by cases h
    rw [List.foldl_nil, List.lookup_nil, Option.getD_none, hid, Option.map_id_apply]
  | cons entry entries ih =>
    intro issues externalId h
    obtain ⟨hnew, hrest⟩ := List.nodup_cons.mp h
    rw [List.foldl_cons, ih _ _ hrest, write_get?, Dict.lookup_cons]
    by_cases hid : entry.1 = externalId
    · have hgone : entries.lookup externalId = none := by
        refine List.lookup_eq_none_iff.mpr fun e he => ?_
        have hne : externalId ≠ e.1 := fun heq => hnew (hid ▸ heq ▸ List.mem_map_of_mem he)
        simpa using hne
      have hsame : written (Dict.empty : Dict String V) = id :=
        funext fun issue => written_of_held fun _ _ h => by cases h
      rw [hgone, if_pos hid, if_pos hid, Option.getD_none, hsame, Option.map_id_apply, Option.getD_some]
    · rw [if_neg hid, if_neg hid]

/-- The issues before one that is not stored are written. -/
theorem advanceIssues_append (before rest : List (String × Dict String V)) :
    ∀ (issues : Dict String (Dict String V)) (n : Nat), (∀ e ∈ before, (issues.get? e.1).isSome = true) →
      ∃ m, Store.advanceIssues (before ++ rest) issues n = Store.advanceIssues rest (before.foldl write issues) m := by
  induction before with
  | nil => exact fun _ n _ => ⟨n, rfl⟩
  | cons entry before ih =>
    intro issues n h
    obtain ⟨issue, hissue⟩ := Option.isSome_iff_exists.mp (h entry List.mem_cons_self)
    obtain ⟨m, hm⟩ := ih (write issues entry) (entry.2.entries.foldl Store.setField (issue, n)).2 fun e he => by
        rw [write_isSome]
        exact h e (List.mem_cons_of_mem _ he)
    refine ⟨m, ?_⟩
    rw [List.cons_append, List.foldl_cons, ← hm, Store.advanceIssues, hissue]
    dsimp only
    unfold write
    rw [hissue]
    dsimp only
    rw [written, foldl_setField_fst]

/-- An issue that is not stored stops an advance, the issues before it written. -/
theorem advanceIssues_missing {before after : List (String × Dict String V)} {entry : String × Dict String V}
    {issues : Dict String (Dict String V)} (n : Nat) (hnone : issues.get? entry.1 = none)
    (hbefore : ∀ e ∈ before, (issues.get? e.1).isSome = true) :
    Store.advanceIssues (before ++ entry :: after) issues n =
      (.error (.valueError ("scenario issue is not seeded: " ++ entry.1)), before.foldl write issues) := by
  obtain ⟨m, hm⟩ := advanceIssues_append before (entry :: after) issues n hbefore
  have hgone : (before.foldl write issues).get? entry.1 = none := by
    have hsome : ((before.foldl write issues).get? entry.1).isSome = false := by
      rw [foldl_write_isSome, hnone]
      rfl
    simpa using hsome
  rw [hm, Store.advanceIssues, hgone]

/-- An advance writes the issues its step names, or those before the first that is not stored. -/
theorem advanceIssues_cases (entries : List (String × Dict String V)) (issues : Dict String (Dict String V)) (n : Nat) :
    (∃ m, Store.advanceIssues entries issues n = (.ok m, entries.foldl write issues) ∧
      ∀ e ∈ entries, (issues.get? e.1).isSome = true) ∨
    ∃ before entry after, entries = before ++ entry :: after ∧ issues.get? entry.1 = none ∧
      (∀ e ∈ before, (issues.get? e.1).isSome = true) ∧ Store.advanceIssues entries issues n =
        (.error (.valueError ("scenario issue is not seeded: " ++ entry.1)), before.foldl write issues) := by
  by_cases hall : ∀ e ∈ entries, (issues.get? e.1).isSome = true
  · obtain ⟨m, hm⟩ := advanceIssues_append entries [] issues n hall
    rw [List.append_nil] at hm
    exact .inl ⟨m, hm, hall⟩
  · -- Up to the first that is not stored.
    refine .inr ?_
    obtain ⟨before, entry, after, hsplit, hnone, hbefore⟩ :
        ∃ before entry after, entries = before ++ entry :: after ∧ issues.get? entry.1 = none ∧
          ∀ e ∈ before, (issues.get? e.1).isSome = true := by
      induction entries with
      | nil => exact absurd (fun e he => by cases he) hall
      | cons first entries ih =>
        cases hfirst : issues.get? first.1 with
        | none => exact ⟨[], first, entries, rfl, hfirst, fun e he => by cases he⟩
        | some issue =>
          have hrest : ¬ ∀ e ∈ entries, (issues.get? e.1).isSome = true := fun h => hall fun e he => by
            rcases List.mem_cons.mp he with rfl | he
            · rw [hfirst]
              rfl
            · exact h e he
          obtain ⟨before, entry, after, rfl, hnone, hbefore⟩ := ih hrest
          refine ⟨first :: before, entry, after, rfl, hnone, fun e he => ?_⟩
          rcases List.mem_cons.mp he with rfl | he
          · rw [hfirst]
            rfl
          · exact hbefore e he
    exact ⟨before, entry, after, hsplit, hnone, hbefore, hsplit ▸ advanceIssues_missing n hnone hbefore⟩

/-- Issues that hold their updates are left as they are. -/
theorem foldl_write_of_held {entries : List (String × Dict String V)} {issues : Dict String (Dict String V)}
    (h : ∀ e ∈ entries, ∀ issue, issues.get? e.1 = some issue →
      ∀ field value, e.2.get? field = some value → (issue.get? field).getD Values.null = value) :
    entries.foldl write issues = issues := by
  induction entries with
  | nil => rfl
  | cons entry entries ih =>
    have hsame : write issues entry = issues := by
      unfold write
      cases hissue : issues.get? entry.1 with
      | none => rfl
      | some issue =>
        dsimp only
        rw [written_of_held (h entry List.mem_cons_self issue hissue)]
        exact Dict.set_of_get? hissue
    rw [List.foldl_cons, hsame]
    exact ih fun e he => h e (List.mem_cons_of_mem _ he)

/-! ## Seeding -/

theorem seedIssue_get? (s : Store.Seeding V) (issue : ScenarioIssue) :
    (∃ stored, (Store.seedIssue s issue).issues.get? issue.externalId = some stored ∧
      ∀ field, stored.get? field = (modelDump issue).get? field) ∧
    ∀ externalId, issue.externalId ≠ externalId →
      (Store.seedIssue s issue).issues.get? externalId = s.issues.get? externalId := by
  unfold Store.seedIssue
  cases hcurrent : s.issues.get? issue.externalId with
  | none =>
    exact ⟨⟨modelDump issue, Dict.get?_set_self _ _ _, fun _ => rfl⟩, fun _ hne => Dict.get?_set_ne _ _ hne⟩
  | some current =>
    dsimp only
    split
    · rename_i hsame
      exact ⟨⟨current, hcurrent, Dict.same_iff.mp hsame⟩, fun _ _ => rfl⟩
    · exact ⟨⟨modelDump issue, Dict.get?_set_self _ _ _, fun _ => rfl⟩, fun _ hne => Dict.get?_set_ne _ _ hne⟩

/-- Seeding stores the dump of every issue, and touches nothing else. -/
theorem foldl_seedIssue {issues : List ScenarioIssue} : ∀ {s : Store.Seeding V},
    (issues.map (·.externalId)).Nodup →
      (∀ issue ∈ issues, ∃ stored, (issues.foldl Store.seedIssue s).issues.get? issue.externalId = some stored ∧
        ∀ field, stored.get? field = (modelDump issue).get? field) ∧
      ∀ externalId, externalId ∉ issues.map (·.externalId) →
        (issues.foldl Store.seedIssue s).issues.get? externalId = s.issues.get? externalId := by
  induction issues with
  | nil => exact fun {s} _ => ⟨fun issue hissue => (by cases hissue), fun _ _ => rfl⟩
  | cons first issues ih =>
    intro s h
    obtain ⟨hnew, hrest⟩ := List.nodup_cons.mp h
    obtain ⟨hfirst, hkeep⟩ := seedIssue_get? s first
    obtain ⟨hseeded, hother⟩ := ih (s := Store.seedIssue s first) hrest
    rw [List.foldl_cons]
    refine ⟨fun issue hissue => ?_, fun externalId hid => ?_⟩
    · rcases List.mem_cons.mp hissue with rfl | hissue
      · rw [hother _ hnew]
        exact hfirst
      · exact hseeded issue hissue
    · rw [List.map_cons, List.mem_cons, not_or] at hid
      rw [hother _ hid.2, hkeep _ (Ne.symm hid.1)]

end WorkforceRisk.Scenario
