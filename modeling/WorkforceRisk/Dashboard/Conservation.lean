/-
  WorkforceRisk.Dashboard.Conservation — what the sums of a snapshot come to, and the order
  of its employees (services/agent-api/src/agent_api/dashboard/service.py `build`).

  Rows are completed or active, active rows have an account or none, and each account's
  are summed up in one employee; alerts and the workload are over the same employees. So
  all of it adds up (`Conserves`).

  Employees are sorted by `-1 * (score or -1)` and their names. A score of 0 reads as no
  score there, and so would -1: such an employee is listed by its name among those without
  one. `conserves_iff` says when the order is that of the scores all the same.
-/

import Mathlib.Data.String.Basic
import WorkforceRisk.Dashboard.Assignments
import WorkforceRisk.Lib.Grouping

namespace WorkforceRisk.Dashboard

open Lib Persistence Historical Evidence Jira

/-! ## The laws -/

/-- Every scored employee before every unscored one, by falling scores, ties by name. -/
def Listed (a b : EmployeeSummary) : Prop :=
  match a.score, b.score with
  | some s, some t => t < s ∨ s = t ∧ a.displayName ≤ b.displayName
  | some _, none => True
  | none, some _ => False
  | none, none => a.displayName ≤ b.displayName

def isAlerted (e : EmployeeSummary) : Bool := e.level ∈ [Level.medium, .high, .critical]

/-- The alert is the employee's. -/
def AlertOf (e : EmployeeSummary) (a : AlertSummary) : Prop :=
  a.subjectId = e.employeeId ∧ a.severity = e.level ∧ e.score = some (a.score.1 : Int) ∧ a.reason = e.topRisk

section
variable [TextTables] [FloatText] [Sha256] (service : DashboardService) (rows : List JiraIssueEvidence)
  (correlationId : String)

/-- The employee sums up the active rows of the account. -/
def SumsUp (accountId : String) (e : EmployeeSummary) : Prop :=
  EmployeeOf service rows correlationId accountId e ∧ e.activeTasks = (rowsOf accountId (activeRows rows)).length

/-- One employee for each account, and each active row with an account counted there. -/
def CountedOnce (employees : List EmployeeSummary) : Prop :=
  ∃ accounts : List String, accounts.Nodup ∧ List.Forall₂ (SumsUp service rows correlationId) accounts employees ∧
    ∀ row ∈ activeRows rows, ∀ accountId ∈ row.account, accountId ∈ accounts

structure Conserves (snapshot : DashboardSnapshot) : Prop where
  tasks : snapshot.project.totalTasks = snapshot.project.completedTasks + snapshot.project.activeTasks
  active : (snapshot.employees.map (·.activeTasks)).sum + (activeRows rows).countP (·.account.isNone) =
    snapshot.project.activeTasks
  counted : CountedOnce service rows correlationId snapshot.employees
  alerts : List.Forall₂ AlertOf (snapshot.employees.filter isAlerted) snapshot.alerts
  workload : snapshot.workload.overloaded + snapshot.workload.balanced + snapshot.workload.insufficientData =
    snapshot.employees.length
  order : snapshot.employees.Pairwise Listed

/-! ## When the keys tell the order -/

/-- The sort of two employees, the first of which comes before in the order of the rows. -/
def KeysTell (a b : EmployeeSummary) : Prop :=
  match a.score, b.score with
  | none, some t => 0 < t ∨ -1 ≤ t ∧ b.displayName < a.displayName
  | some s, none => 0 < s ∨ -1 ≤ s ∧ a.displayName ≤ b.displayName
  | some s, some t => (s = 0 → t = -1 → a.displayName ≤ b.displayName) ∧ (s = -1 → t = 0 → b.displayName < a.displayName)
  | none, none => True

/-- Of any two accounts. -/
def ScoresTell : Prop :=
  (accountsOf rows).Pairwise fun x y => ∀ a b, EmployeeOf service rows correlationId x a →
    EmployeeOf service rows correlationId y b → KeysTell a b

end

/-! ## The keys -/

section
variable {a b : EmployeeSummary}

theorem before_iff : a.before b = true ↔ a.rank < b.rank ∨ a.rank = b.rank ∧ a.displayName ≤ b.displayName := by
  simp [EmployeeSummary.before]

instance : Std.Total fun a b : EmployeeSummary => a.before b = true := ⟨fun a b => by
  rw [before_iff, before_iff]
  rcases lt_trichotomy a.rank b.rank with h | h | h
  · exact .inl (.inl h)
  · exact (le_total a.displayName b.displayName).imp (fun hn => .inr ⟨h, hn⟩) fun hn => .inr ⟨h.symm, hn⟩
  · exact .inr (.inl h)⟩

instance : IsTrans EmployeeSummary fun a b => a.before b = true := ⟨fun a b c hab hbc => by
  rw [before_iff] at hab hbc ⊢
  rcases hab with hab | hab
  · exact .inl (hbc.elim hab.trans fun hbc => hbc.1 ▸ hab)
  · rcases hbc with hbc | hbc
    · exact .inl (hab.1 ▸ hbc)
    · exact .inr ⟨hab.1.trans hbc.1, le_trans hab.2 hbc.2⟩⟩

theorem rank_of_none (h : a.score = none) : a.rank = 1 := by rw [EmployeeSummary.rank, h]

theorem rank_of_some {s : Int} (h : a.score = some s) : a.rank = if s = 0 then 1 else -s := by
  rw [EmployeeSummary.rank, h]

/-- The keys tell exactly when the two end up as listed, wherever the sort puts them. -/
theorem keysTell_iff : KeysTell a b ↔ if a.before b = true then Listed a b else Listed b a := by
  have hlt : b.displayName < a.displayName ↔ ¬ a.displayName ≤ b.displayName := not_le.symm
  have hle : ¬ a.displayName ≤ b.displayName → b.displayName ≤ a.displayName := fun h => le_of_lt (not_le.mp h)
  unfold KeysTell Listed
  simp only [before_iff]
  cases ha : a.score with
  | none => cases hb : b.score with
    | none =>
      simp only [rank_of_none ha, rank_of_none hb]
      grind
    | some t =>
      simp only [rank_of_none ha, rank_of_some hb]
      grind
  | some s => cases hb : b.score with
    | none =>
      simp only [rank_of_some ha, rank_of_none hb]
      grind
    | some t =>
      simp only [rank_of_some ha, rank_of_some hb]
      grind

end

/-! ## The sums -/

theorem alertOf_ok {e : EmployeeSummary} {a : AlertSummary} (h : alertOf e = .ok a) : AlertOf e a := by
  unfold alertOf at h
  split at h
  · rename_i score hscore
    split at h
    · rename_i hrange
      cases h
      refine ⟨rfl, rfl, hscore.trans (congrArg some ?_), rfl⟩
      exact (Int.toNat_of_nonneg hrange.1).symm
    · cases h
  · cases h

theorem workload_sums (employees : List EmployeeSummary) :
    employees.countP (fun e => e.level ∈ [Level.high, .critical]) +
      employees.countP (fun e => e.level ∈ [Level.low, .medium]) +
      employees.countP (fun e => e.level = .insufficientData) = employees.length := by
  induction employees with
  | nil => rfl
  | cons e employees ih =>
    have hone : (if decide (e.level ∈ [Level.high, .critical]) = true then 1 else 0) +
        (if decide (e.level ∈ [Level.low, .medium]) = true then 1 else 0) +
        (if decide (e.level = .insufficientData) = true then 1 else 0) = 1 := by
      cases e.level <;> rfl
    rw [List.countP_cons, List.countP_cons, List.countP_cons, List.length_cons]
    omega

section
variable [TextTables] [FloatText] [Sha256] {service : DashboardService} {rows : List JiraIssueEvidence}
  {projectKey correlationId : String} {snapshot : DashboardSnapshot}

/-- What a snapshot counts. -/
theorem build_sums (h : service.build projectKey rows correlationId = .ok snapshot) :
    snapshot.project.totalTasks = rows.length ∧ snapshot.project.activeTasks = (activeRows rows).length ∧
      (snapshot.employees.filter isAlerted).mapM alertOf = .ok snapshot.alerts ∧
      snapshot.workload =
        { overloaded := snapshot.employees.countP fun e => e.level ∈ [Level.high, .critical]
          balanced := snapshot.employees.countP fun e => e.level ∈ [Level.low, .medium]
          insufficientData := snapshot.employees.countP fun e => e.level = .insufficientData } := by
  unfold DashboardService.build at h
  split at h
  · cases h
  split at h
  · cases h
  obtain ⟨summaries, _, h⟩ := except_bind_ok.mp h
  obtain ⟨alerts, halerts, h⟩ := except_bind_ok.mp h
  cases h
  exact ⟨rfl, rfl, halerts, rfl⟩

/-- The employees with their accounts, in the order they are listed. -/
theorem employees_sum_up (h : service.build projectKey rows correlationId = .ok snapshot) :
    ∃ accounts, accounts.Perm (accountsOf rows) ∧
      List.Forall₂ (SumsUp service rows correlationId) accounts snapshot.employees := by
  obtain ⟨_, _, _, _, _, summaries, hs, he⟩ := build_ok h
  have hsum : List.Forall₂ (SumsUp service rows correlationId) (accountsOf rows) summaries :=
    ((List.forall₂_and_left _ _).mpr ⟨fun _ ha => ha, mapM_ok_related hs⟩).imp fun _ _ hof =>
      ⟨hof, (employee_ok hof.2).2⟩
  have hperm : snapshot.employees.Perm summaries := by
    rw [he]
    exact List.perm_insertionSort _ summaries
  obtain ⟨accounts, hsums, haccounts⟩ := List.perm_comp_forall₂ hperm hsum.flip
  exact ⟨accounts, haccounts, hsums.flip⟩

theorem countedOnce (h : service.build projectKey rows correlationId = .ok snapshot) :
    CountedOnce service rows correlationId snapshot.employees := by
  obtain ⟨accounts, hperm, hsums⟩ := employees_sum_up h
  refine ⟨accounts, hperm.nodup_iff.mpr (nodup_eraseDups _), hsums, fun row hrow accountId ha => ?_⟩
  exact hperm.symm.subset (mem_accountsOf.mpr ⟨row, hrow, ha⟩)

theorem counts_eq {accounts : List String} {employees : List EmployeeSummary}
    (h : List.Forall₂ (SumsUp service rows correlationId) accounts employees) :
    employees.map (·.activeTasks) = accounts.map fun accountId => (rowsOf accountId (activeRows rows)).length := by
  induction h with
  | nil => rfl
  | cons hsum _ ih => rw [List.map_cons, List.map_cons, ih, hsum.2]

/-- The employees' counts are the sizes of the accounts' groups. -/
theorem active_sums (h : service.build projectKey rows correlationId = .ok snapshot) :
    (snapshot.employees.map (·.activeTasks)).sum + (activeRows rows).countP (·.account.isNone) =
      (activeRows rows).length := by
  obtain ⟨accounts, hperm, hsums⟩ := employees_sum_up h
  rw [counts_eq hsums, (hperm.map _).sum_eq]
  exact sum_groups (fun row => row.account) (activeRows rows)

/-- The order of the list, told by the keys of the employees as they are grouped. -/
theorem listed_iff (h : service.build projectKey rows correlationId = .ok snapshot) :
    snapshot.employees.Pairwise Listed ↔ ScoresTell service rows correlationId := by
  obtain ⟨_, _, _, _, _, summaries, hs, he⟩ := build_ok h
  rw [he, pairwise_insertionSort_iff, ScoresTell]
  simp only [← keysTell_iff]
  rw [pairwise_mapM_iff hs]
  refine List.Pairwise.iff_of_mem fun {x y} hx hy => ?_
  exact ⟨fun hkeys a b ha hb => hkeys a b ha.2 hb.2, fun hkeys a b ha hb => hkeys a b ⟨hx, ha⟩ ⟨hy, hb⟩⟩

/-- A snapshot conserves its rows and lists its employees by their scores exactly when, of
    any two accounts, the sort keys of the employees tell who is listed first. -/
theorem conserves_iff (h : service.build projectKey rows correlationId = .ok snapshot) :
    Conserves service rows correlationId snapshot ↔ ScoresTell service rows correlationId := by
  rw [← listed_iff h]
  refine ⟨fun hlaws => hlaws.order, fun horder => ?_⟩
  obtain ⟨_, _, hcompleted, _⟩ := build_ok h
  obtain ⟨htotal, hactive, halerts, hworkload⟩ := build_sums h
  have hle : (activeRows rows).length ≤ rows.length := List.length_filter_le _ _
  constructor
  · omega
  · rw [active_sums h, hactive]
  · exact countedOnce h
  · exact (mapM_ok_related halerts).imp fun _ _ => alertOf_ok
  · rw [hworkload]
    exact workload_sums snapshot.employees
  · exact horder

end

/-! ## Someone without a score beside a score of 0 -/

theorem bobs_account : "acc-3" ≠ "" := by decide

theorem bob_ne : "Bob" ≠ "" := by decide

/-- A service with one profile, whose scores are all 0. -/
def zeroService : DashboardService :=
  { bareService with
    scoring := fun _ _ => .ok ⟨some 0, some .low⟩
    profiles := [("acc-3", ⟨"acc-3", "Bob", none, ⟨36, by decide⟩, [], bobs_account, bob_ne⟩)] }

/-- A row of someone without a profile, and one of Bob's. -/
def twoRows (name : String) (h : name ≠ "") : List JiraIssueEvidence :=
  [{ sampleRow with assignee := some ⟨"acc-2", name, by decide, h⟩ },
    { sampleRow with
      key := "WFD-2"
      assignee := some ⟨"acc-3", "Bob", bobs_account, bob_ne⟩
      remainingEstimateSeconds := some 3600 }]

section
attribute [local instance] TextTables.ascii FloatText.plain Sha256.transparent

/-- The names and the scores of two employees, as they are listed. -/
def shown (snapshot : DashboardSnapshot) : List (String × Option Int) :=
  snapshot.employees.map fun e => (e.displayName, e.score)

theorem listed_of_shown {snapshot : DashboardSnapshot} {x y : String × Option Int} (h : shown snapshot = [x, y]) :
    ∃ a b, snapshot.employees = [a, b] ∧ (a.displayName, a.score) = x ∧ (b.displayName, b.score) = y := by
  obtain ⟨a, rest, ha, hx, hrest⟩ := List.map_eq_cons_iff.mp h
  obtain ⟨b, more, hb, hy, hmore⟩ := List.map_eq_cons_iff.mp hrest
  rw [List.map_eq_nil_iff.mp hmore] at hb
  exact ⟨a, b, hb ▸ ha, hx, hy⟩

/-- Ada has no score and comes before Bob, who has one of 0. -/
theorem unscored_before_zero : ∃ snapshot, zeroService.build "WFD" (twoRows "Ada" (by decide)) "corr-1" = .ok snapshot ∧
    ¬ Conserves zeroService (twoRows "Ada" (by decide)) "corr-1" snapshot := by
  obtain ⟨snapshot, hs, hshown⟩ := exists_ok_of_map (f := shown) (b := [("Ada", none), ("Bob", some 0)])
    (x := zeroService.build "WFD" (twoRows "Ada" (by decide)) "corr-1") (by decide +kernel)
  refine ⟨snapshot, hs, fun h => ?_⟩
  obtain ⟨a, b, hemployees, ha, hb⟩ := listed_of_shown hshown
  have horder := h.order
  rw [hemployees, List.pairwise_pair, Listed, (Prod.mk.inj ha).2, (Prod.mk.inj hb).2] at horder
  exact horder

/-- By her name Zoe comes after him. -/
theorem zero_before_unscored : ∃ snapshot, zeroService.build "WFD" (twoRows "Zoe" (by decide)) "corr-1" = .ok snapshot ∧
    Conserves zeroService (twoRows "Zoe" (by decide)) "corr-1" snapshot := by
  obtain ⟨snapshot, hs, hshown⟩ := exists_ok_of_map (f := shown) (b := [("Bob", some 0), ("Zoe", none)])
    (x := zeroService.build "WFD" (twoRows "Zoe" (by decide)) "corr-1") (by decide +kernel)
  refine ⟨snapshot, hs, (conserves_iff hs).mpr ((listed_iff hs).mp ?_)⟩
  obtain ⟨a, b, hemployees, ha, hb⟩ := listed_of_shown hshown
  rw [hemployees, List.pairwise_pair, Listed, (Prod.mk.inj ha).2, (Prod.mk.inj hb).2]
  exact trivial

end

end WorkforceRisk.Dashboard
