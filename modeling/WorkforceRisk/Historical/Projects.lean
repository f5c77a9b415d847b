/-
  WorkforceRisk.Historical.Projects — what an answer for one project shows of the
  employee's others.

  The query reads the results of all projects; the loop refuses the first it meets with a
  dossier of another. So no answer is made of another project's evidence, but its results
  can stop the loop before the answer is found (`Stopped`), and that is all they can do:
  two databases that differ only in the employee's results for other projects give the
  same answer exactly when the loop is stopped in both or in neither (`per_project_iff`).
-/

import WorkforceRisk.Historical.ReadBack

namespace WorkforceRisk.Historical

open Lib Persistence Risk Scans DatabaseHistoricalEvidenceReader

/-- A result of the employee whose dossier is of another project. -/
def elsewhere (employee project : String) (row : EvidenceRow) : Bool :=
  row.snapshot.subjectType == "employee" && row.snapshot.subjectId == employee &&
    row.snapshot.riskEvidenceDossier.any fun d => d.projectKey != project

/-- The databases have the same results but for those. -/
def SameBut (employee project : String) (db db' : Database) : Prop :=
  (joined db).filter (fun row => !elsewhere employee project row) =
    (joined db').filter fun row => !elsewhere employee project row

def ofProject (employee project : String) (d : RiskEvidenceDossier) : Bool :=
  d.projectKey == project && d.employeeId == employee

/-- How many dossiers a question needs. -/
def wanted : Option Date → Nat
  | some _ => 1
  | none => 2

/-- A row with a dossier of another project or employee comes before as many with one of
    theirs as the question needs. -/
def Stopped (employee project : String) (n : Nat) (rows : List EvidenceRow) : Prop :=
  ∃ first row rest, rows = first ++ row :: rest ∧
    row.snapshot.riskEvidenceDossier.any (fun d => !ofProject employee project d) = true ∧
    first.countP (fun row => row.snapshot.riskEvidenceDossier.any (ofProject employee project)) < n

def scopeMismatch : Except Error HistoricalRiskContext := .error (.valueError "historical evidence scope mismatch")

variable {employee project : String} {requested : Option Date} {context : Option HistoricalRiskContext} {n : Nat}
  {row : EvidenceRow} {rows : List EvidenceRow} {d : RiskEvidenceDossier}

theorem choose_skip (h : row.snapshot.riskEvidenceDossier = none) :
    choose requested employee project context (row :: rows) = choose requested employee project context rows := by
  rw [choose, h]

theorem choose_mismatch (h : row.snapshot.riskEvidenceDossier = some d) (hd : ofProject employee project d = false) :
    choose requested employee project context (row :: rows) = scopeMismatch := by
  have hor : d.projectKey ≠ project ∨ d.employeeId ≠ employee := by
    by_cases hp : d.projectKey = project
    · exact .inr (by simpa [ofProject, hp] using hd)
    · exact .inl hp
  rw [choose, h]
  exact if_pos hor

/-- A dossier of the project ends the loop, or is the first of two. -/
theorem choose_match (requested : Option Date) (context : Option HistoricalRiskContext)
    (h : row.snapshot.riskEvidenceDossier = some d) (hd : ofProject employee project d = true) :
    (wanted requested ≤ 1 + context.toList.length ∧ ∃ answer, ∀ rows,
      choose requested employee project context (row :: rows) = .ok answer) ∨
    (context = none ∧ wanted requested = 2 ∧ ∃ found, ∀ rows,
      choose requested employee project context (row :: rows) =
        choose requested employee project (some found) rows) := by
  simp only [ofProject, Bool.and_eq_true, beq_iff_eq] at hd
  have hof : ¬ (d.projectKey ≠ project ∨ d.employeeId ≠ employee) := by simp [hd.1, hd.2]
  cases context <;> cases requested <;> simp only [choose, h, if_neg hof]
  · exact .inr ⟨trivial, rfl, _, fun _ => rfl⟩
  · exact .inl ⟨by simp [wanted], _, fun _ => rfl⟩
  · exact .inl ⟨by simp [wanted], _, fun _ => rfl⟩
  · exact .inl ⟨by simp [wanted], _, fun _ => rfl⟩

/-- Whatever comes between, and wherever the window ends: the loop refuses, or it does
    what it does on the rows that are not of other projects. -/
theorem choose_own (requested : Option Date) (rows : List EvidenceRow) : ∀ n context,
    choose requested employee project context (rows.take n) = scopeMismatch ∨
      choose requested employee project context (rows.take n) = choose requested employee project context
        ((rows.filter fun row => !elsewhere employee project row).take n) := by
  induction rows with
  | nil => exact fun _ _ => .inr rfl
  | cons row rows ih =>
    intro n context
    cases n with
    | zero => exact .inr rfl
    | succ n =>
      rw [List.take_succ_cons, List.filter_cons]
      cases hd : row.snapshot.riskEvidenceDossier with
      | none =>
        have hown : (!elsewhere employee project row) = true := by simp [elsewhere, hd]
        rw [if_pos hown, List.take_succ_cons, choose_skip hd, choose_skip hd]
        exact ih n context
      | some d =>
        cases hof : ofProject employee project d with
        | false => exact .inl (choose_mismatch hd hof)
        | true =>
          have hown : (!elsewhere employee project row) = true := by
            simp only [ofProject, Bool.and_eq_true, beq_iff_eq] at hof
            simp [elsewhere, hd, hof.1]
          rw [if_pos hown, List.take_succ_cons]
          rcases choose_match requested context hd hof with ⟨_, answer, h⟩ | ⟨_, _, found, h⟩
          · exact .inr ((h _).trans (h _).symm)
          · rw [h, h]
            exact ih n found

/-- An answer is made of dossiers of the employee and the project. -/
theorem choose_ofProject (rows : List EvidenceRow) : ∀ {context : Option HistoricalRiskContext}
    {answer : HistoricalRiskContext},
    (∀ c, context = some c → ofProject employee project c.dossier = true ∧ c.previousDossier = none) →
    choose requested employee project context rows = .ok answer →
    ofProject employee project answer.dossier = true ∧
      ∀ previous, answer.previousDossier = some previous → ofProject employee project previous = true := by
  have alone : ∀ {c : HistoricalRiskContext}, ofProject employee project c.dossier = true ∧ c.previousDossier = none →
      ofProject employee project c.dossier = true ∧
        ∀ previous, c.previousDossier = some previous → ofProject employee project previous = true := by
    intro c hc
    exact ⟨hc.1, fun previous hp => by rw [hc.2] at hp; cases hp⟩
  induction rows with
  | nil =>
    intro context answer hcontext h
    cases context with
    | none => cases h
    | some found =>
      cases requested with
      | none => cases h; exact alone (hcontext _ rfl)
      | some date => cases h
  | cons row rows ih =>
    intro context answer hcontext h
    cases hd : row.snapshot.riskEvidenceDossier with
    | none => exact ih hcontext (choose_skip hd ▸ h)
    | some d =>
      cases hof : ofProject employee project d with
      | false =>
        rw [choose_mismatch hd hof] at h
        cases h
      | true =>
        have hmatch := hof
        simp only [ofProject, Bool.and_eq_true, beq_iff_eq] at hmatch
        simp only [choose, hd, hmatch.1, hmatch.2, ne_eq, not_true_eq_false, or_self, if_false] at h
        split at h
        · cases h; exact alone ⟨hof, rfl⟩
        · exact ih (fun c hc => by cases hc; exact ⟨hof, rfl⟩) h
        · cases h; exact alone (hcontext _ rfl)
        · cases h; exact ⟨(hcontext _ rfl).1, fun previous hp => by cases hp; exact hof⟩

/-! ## What stops the loop -/

theorem not_stopped_nil : ¬ Stopped employee project n [] := by
  intro h
  obtain ⟨first, row, rest, hrows, _⟩ := h
  cases first <;> cases hrows

theorem stopped_skip (h : row.snapshot.riskEvidenceDossier = none) :
    Stopped employee project n (row :: rows) ↔ Stopped employee project n rows := by
  constructor
  · intro hs
    obtain ⟨first, r, rest, hrows, hr, hn⟩ := hs
    cases first with
    | nil =>
      cases hrows
      rw [h] at hr
      cases hr
    | cons a first =>
      cases hrows
      rw [List.countP_cons_of_neg (by simp [h])] at hn
      exact ⟨first, r, rest, rfl, hr, hn⟩
  · intro hs
    obtain ⟨first, r, rest, rfl, hr, hn⟩ := hs
    exact ⟨row :: first, r, rest, rfl, hr, by rw [List.countP_cons_of_neg (by simp [h])]; exact hn⟩

theorem stopped_mismatch (h : row.snapshot.riskEvidenceDossier = some d) (hd : ofProject employee project d = false)
    (hn : 0 < n) : Stopped employee project n (row :: rows) :=
  ⟨[], row, rows, rfl, by simp [h, hd], hn⟩

theorem stopped_match (h : row.snapshot.riskEvidenceDossier = some d) (hd : ofProject employee project d = true) :
    Stopped employee project (n + 1) (row :: rows) ↔ Stopped employee project n rows := by
  constructor
  · intro hs
    obtain ⟨first, r, rest, hrows, hr, hn⟩ := hs
    cases first with
    | nil =>
      cases hrows
      simp [h, hd] at hr
    | cons a first =>
      cases hrows
      rw [List.countP_cons_of_pos (by simp [h, hd])] at hn
      exact ⟨first, r, rest, rfl, hr, Nat.lt_of_succ_lt_succ hn⟩
  · intro hs
    obtain ⟨first, r, rest, rfl, hr, hn⟩ := hs
    refine ⟨row :: first, r, rest, rfl, hr, ?_⟩
    rw [List.countP_cons_of_pos (by simp [h, hd])]
    exact Nat.succ_lt_succ hn

theorem not_stopped_zero : ¬ Stopped employee project 0 rows := by
  intro h
  obtain ⟨_, _, _, _, _, hn⟩ := h
  exact Nat.not_lt_zero _ hn

/-- Read off the rows in their order. -/
def decideStopped (employee project : String) : ∀ n rows, Decidable (Stopped employee project n rows)
  | _, [] => isFalse not_stopped_nil
  | 0, _ :: _ => isFalse not_stopped_zero
  | n + 1, row :: rows => match hd : row.snapshot.riskEvidenceDossier with
    | none => @decidable_of_iff _ _ (stopped_skip hd).symm (decideStopped employee project (n + 1) rows)
    | some d => match hof : ofProject employee project d with
      | false => isTrue (stopped_mismatch hd hof (Nat.succ_pos n))
      | true => @decidable_of_iff _ _ (stopped_match hd hof).symm (decideStopped employee project n rows)

instance (n : Nat) (rows : List EvidenceRow) : Decidable (Stopped employee project n rows) :=
  decideStopped employee project n rows

/-- The loop refuses exactly when a row of another project comes before its answer. -/
theorem choose_stopped (requested : Option Date) (rows : List EvidenceRow) :
    ∀ n context, wanted requested = n + context.toList.length → 0 < n →
    (choose requested employee project context rows = scopeMismatch ↔ Stopped employee project n rows) := by
  induction rows with
  | nil =>
    intro n context hn hpos
    refine iff_of_false ?_ not_stopped_nil
    cases context <;> cases requested <;> simp [choose, scopeMismatch]
  | cons row rows ih =>
    intro n context hn hpos
    cases hd : row.snapshot.riskEvidenceDossier with
    | none =>
      rw [choose_skip hd, stopped_skip hd]
      exact ih n context hn hpos
    | some d =>
      cases hof : ofProject employee project d with
      | false => exact iff_of_true (choose_mismatch hd hof) (stopped_mismatch hd hof hpos)
      | true =>
        obtain ⟨n, rfl⟩ := Nat.exists_eq_succ_of_ne_zero (Nat.ne_of_gt hpos)
        rw [Nat.succ_eq_add_one, stopped_match hd hof]
        rcases choose_match requested context hd hof with
          ⟨hle, answer, h⟩ | ⟨rfl, htwo, found, h⟩
        · obtain rfl : n = 0 := by omega
          rw [h]
          exact iff_of_false (by simp [scopeMismatch]) not_stopped_zero
        · rw [h]
          refine ih n (some found) ?_ ?_ <;> simp_all

variable {db db' : Database} {rank : Uuid → Nat} {reader : DatabaseHistoricalEvidenceReader} {end_ : DateTime}

/-- Selecting and ordering, the databases have the same rows but for those. -/
theorem SameBut.sorted (h : SameBut employee project db db') :
    (sorted reader rank db employee end_).filter (fun row => !elsewhere employee project row) =
      (sorted reader rank db' employee end_).filter fun row => !elsewhere employee project row := by
  unfold Historical.sorted selected
  rw [filter_insertionSort, filter_insertionSort, List.filter_comm, h, List.filter_comm]

/-- Two databases that differ only in the employee's results for other projects give a
    question the same answer exactly when in both or in neither, of the fifty newest
    results, one for another project comes before those that answer it. -/
theorem per_project_iff [Unicode] (reader : DatabaseHistoricalEvidenceReader) (rank : Uuid → Nat) (db db' : Database)
    (question employee project : String) (h : SameBut employee project db db') :
    reader.getAt rank db question employee project = reader.getAt rank db' question employee project ↔
    ∀ requested, parseHistoricalDate question reader.today = .ok requested →
      (Stopped employee project (wanted requested)
          (reader.newest rank db employee (requested.getD reader.today + 1).midnight) ↔
        Stopped employee project (wanted requested)
          (reader.newest rank db' employee (requested.getD reader.today + 1).midnight)) := by
  cases hq : parseHistoricalDate question reader.today with
  | error e => exact iff_of_true (by rw [getAt, getAt, hq]; rfl) fun _ h => by cases h
  | ok requested =>
    rw [getAt_eq hq, getAt_eq hq]
    have hpos : 0 < wanted requested := by cases requested <;> simp [wanted]
    have key (rows : List EvidenceRow) : choose requested employee project none rows = scopeMismatch ↔
        Stopped employee project (wanted requested) rows := choose_stopped requested rows _ none rfl hpos
    simp only [Except.ok.injEq, forall_eq']
    rw [← key, ← key]
    constructor
    · intro heq
      exact ⟨heq.symm.trans, heq.trans⟩
    · intro hiff
      rcases choose_own requested (sorted reader rank db employee _) 50 none with h₁ | h₁
      · exact h₁.trans (hiff.mp h₁).symm
      · rcases choose_own requested (sorted reader rank db' employee _) 50 none with h₂ | h₂
        · exact (hiff.mpr h₂).trans h₂.symm
        · refine h₁.trans (Eq.trans ?_ h₂.symm)
          rw [h.sorted]

/-! ## Scans of two projects -/

/-- Two scans for WFD, and one for OPS observed before them. -/
def sampleAside : List ScanResult :=
  sampleGrowth.take 2 ++ [sampleScan "OPS" 0 1787554800000000]

theorem per_project_aside : letI := Sha256.transparent; letI := Unicode.ascii
    sampleReader.getAt (fun _ => 0) (Transaction.after (persist .dev) .empty (sampleGrowth.take 2)) sampleQuestion
        "employee-1" "WFD" =
      sampleReader.getAt (fun _ => 0) (Transaction.after (persist .dev) .empty sampleAside) sampleQuestion
        "employee-1" "WFD" := by
  let _ := Sha256.transparent
  let _ := Unicode.ascii
  refine (per_project_iff sampleReader _ _ _ _ _ _ (by unfold SameBut; decide +kernel)).mpr ?_
  intro requested hq
  rw [sampleQuestion_undated] at hq
  cases hq
  exact iff_of_false (by decide +kernel) (by decide +kernel)

/-- A scan for WFD, and one for OPS after it. -/
def sampleBeside : List ScanResult :=
  [sampleScan "WFD" 0 1787558400000000, sampleScan "OPS" 0 1787562000000000]

theorem other_project_refused : letI := Sha256.transparent; letI := Unicode.ascii
    SameBut "employee-1" "WFD" (Transaction.after (persist .dev) .empty (sampleBeside.take 1))
        (Transaction.after (persist .dev) .empty sampleBeside) ∧
      (sampleReader.getAt (fun _ => 0) (Transaction.after (persist .dev) .empty (sampleBeside.take 1)) sampleQuestion
        "employee-1" "WFD").toOption.map (·.risk.scoredAt) = some 1787558400000000 ∧
      sampleReader.getAt (fun _ => 0) (Transaction.after (persist .dev) .empty sampleBeside) sampleQuestion
        "employee-1" "WFD" = scopeMismatch := by
  let _ := Sha256.transparent
  let _ := Unicode.ascii
  refine ⟨by unfold SameBut; decide +kernel, by decide +kernel, ?_⟩
  rw [getAt_eq sampleQuestion_undated]
  exact (choose_stopped none _ 2 none rfl Nat.two_pos).mpr (by decide +kernel)

end WorkforceRisk.Historical
