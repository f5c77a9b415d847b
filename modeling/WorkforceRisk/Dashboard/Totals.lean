/-
  WorkforceRisk.Dashboard.Totals — the totals of a project beside the facts of its tasks
  (services/agent-api/src/agent_api: dashboard/service.py `build`, evidence/focus.py
  `_task_evidence`).

  The dashboard counts done, overdue and due-soon rows with its own statuses and its own
  day; the evidence of an answer says the same of each task with two more statuses and
  the day of the snapshot's evidence.

  Proved (`totals_agree_iff`): the totals are the numbers of those tasks exactly when no
  row has one of the two statuses, and no active row is due on a day that the two days
  put on different sides.
-/

import WorkforceRisk.Evidence.Focus

namespace WorkforceRisk.Dashboard

open Lib Persistence Historical Evidence Jira

/-! ## Counting -/

section
variable {α : Type} {l : List α} {p q : α → Bool}

/-- Of two counts with one in the other, they are equal when nothing is in the other only. -/
theorem countP_eq_iff (h : ∀ a ∈ l, p a = true → q a = true) :
    l.countP p = l.countP q ↔ ∀ a ∈ l, q a = true → p a = true := by
  induction l with
  | nil => exact ⟨fun _ a ha => (by cases ha), fun _ => rfl⟩
  | cons a l ih =>
    have hrest : ∀ b ∈ l, p b = true → q b = true := fun b hb => h b (List.mem_cons_of_mem _ hb)
    have hle : l.countP p ≤ l.countP q := List.countP_mono_left hrest
    have ha := h a List.mem_cons_self
    rw [List.forall_mem_cons, ← ih hrest, List.countP_cons, List.countP_cons]
    cases hp : p a <;> cases hq : q a
    · simp
    · simp
      omega
    · rw [ha hp] at hq
      cases hq
    · simp

end

/-! ## Days -/

/-- A due date on which the two days disagree: past or soon for one of them only. -/
def onDisputedDay (today evidenceDay : Date) (dueDate : Option Date) : Bool :=
  dueDate.any fun due =>
    (min today evidenceDay ≤ due && due < max today evidenceDay) ||
      (min today evidenceDay + 7 < due && due ≤ max today evidenceDay + 7)

section
variable {rows : List JiraIssueEvidence} {earlier later : Int}

/-- The later of two days has at least the tasks overdue that the earlier has, and more when
    one is due in between. -/
theorem overdue_eq_iff (hle : earlier ≤ later) :
    rows.countP (fun row => isOverdue earlier row.dueDate) = rows.countP (fun row => isOverdue later row.dueDate) ↔
      ∀ row ∈ rows, ∀ due : Int, row.dueDate = some due → ¬ (earlier ≤ due ∧ due < later) := by
  rw [countP_eq_iff]
  · refine forall₂_congr fun row _ => ?_
    cases row.dueDate with
    | none => simp [isOverdue]
    | some due =>
      simp only [Option.some.injEq, forall_eq', isOverdue_some]
      omega
  · intro row _ h
    cases hd : row.dueDate with
    | none => rw [hd] at h; cases h
    | some due =>
      rw [hd, isOverdue_some] at h
      rw [isOverdue_some]
      omega

/-- When none is due in between, the later day has at least the tasks due soon that the
    earlier has, and more when one is due after the earlier week. -/
theorem dueSoon_eq_iff (hle : earlier ≤ later)
    (hnone : ∀ row ∈ rows, ∀ due : Int, row.dueDate = some due → ¬ (earlier ≤ due ∧ due < later)) :
    rows.countP (fun row => isDueSoon earlier row.dueDate) = rows.countP (fun row => isDueSoon later row.dueDate) ↔
      ∀ row ∈ rows, ∀ due : Int, row.dueDate = some due → ¬ (earlier + 7 < due ∧ due ≤ later + 7) := by
  rw [countP_eq_iff]
  · refine forall₂_congr fun row hrow => ?_
    have hnone := hnone row hrow
    cases hd : row.dueDate with
    | none => simp [isDueSoon]
    | some due =>
      have := hnone due hd
      simp only [Option.some.injEq, forall_eq', isDueSoon_some]
      omega
  · intro row hrow h
    cases hd : row.dueDate with
    | none => rw [hd] at h; cases h
    | some due =>
      have := hnone row hrow due hd
      rw [hd, isDueSoon_some] at h
      rw [isDueSoon_some]
      omega

/-- Both counts are the same for two days when no task is due on a day they dispute. -/
theorem same_counts_of_le (hle : earlier ≤ later) :
    (rows.countP (fun row => isOverdue earlier row.dueDate) = rows.countP (fun row => isOverdue later row.dueDate) ∧
      rows.countP (fun row => isDueSoon earlier row.dueDate) = rows.countP (fun row => isDueSoon later row.dueDate)) ↔
      ∀ row ∈ rows, onDisputedDay earlier later row.dueDate = false := by
  have hdisputed : ∀ row : JiraIssueEvidence, onDisputedDay earlier later row.dueDate = false ↔
      (∀ due : Int, row.dueDate = some due → ¬ (earlier ≤ due ∧ due < later)) ∧
        ∀ due : Int, row.dueDate = some due → ¬ (earlier + 7 < due ∧ due ≤ later + 7) := by
    intro row
    unfold onDisputedDay
    cases row.dueDate with
    | none => simp
    | some due =>
      have hmin : min earlier later = earlier := Int.min_eq_left hle
      have hmax : max earlier later = later := Int.max_eq_right hle
      simp [hmin, hmax]
  constructor
  · intro h row hrow
    have hnone := (overdue_eq_iff hle).mp h.1
    exact (hdisputed row).mpr ⟨hnone row hrow, (dueSoon_eq_iff hle hnone).mp h.2 row hrow⟩
  · intro h
    have hnone := fun row hrow => ((hdisputed row).mp (h row hrow)).1
    exact ⟨(overdue_eq_iff hle).mpr hnone,
      (dueSoon_eq_iff hle hnone).mpr fun row hrow => ((hdisputed row).mp (h row hrow)).2⟩

theorem onDisputedDay_comm (today evidenceDay : Int) (dueDate : Option Date) :
    onDisputedDay today evidenceDay dueDate = onDisputedDay evidenceDay today dueDate := by
  unfold onDisputedDay
  rw [Int.min_comm, Int.max_comm]

theorem same_counts_iff (today evidenceDay : Int) :
    (rows.countP (fun row => isOverdue today row.dueDate) = rows.countP (fun row => isOverdue evidenceDay row.dueDate) ∧
      rows.countP (fun row => isDueSoon today row.dueDate) =
        rows.countP (fun row => isDueSoon evidenceDay row.dueDate)) ↔
      ∀ row ∈ rows, onDisputedDay today evidenceDay row.dueDate = false := by
  rcases Int.le_total today evidenceDay with hle | hle
  · exact same_counts_of_le hle
  · simp only [onDisputedDay_comm today]
    rw [← same_counts_of_le hle]
    exact and_congr eq_comm eq_comm

end

/-! ## The totals -/

section
variable [Unicode]

/-- The totals of a snapshot are the numbers of its tasks that are so. -/
structure TotalsAgree (snapshot : DashboardSnapshot) : Prop where
  completed : snapshot.project.completedTasks = snapshot.tasks.countP isDone
  overdue : snapshot.project.overdueTasks = (snapshot.tasks.map (taskEvidence snapshot)).countP (·.overdue)
  dueSoon : snapshot.project.dueSoonTasks = (snapshot.tasks.map (taskEvidence snapshot)).countP (·.dueSoon)

/-- The two statuses only the evidence takes for done. -/
def isCompleteOnly (status : String) : Bool := casefold status == "complete" || casefold status == "completed"

/-- No row is in a status that only the evidence takes for done, and no active one is due on
    a day that the clock and the evidence dispute. -/
def OneReading (service : DashboardService) (rows : List JiraIssueEvidence) : Prop :=
  (∀ row ∈ rows, isCompleteOnly row.status = false) ∧
    ∀ row ∈ activeRows rows, onDisputedDay service.today (service.evidenceDay rows) row.dueDate = false

variable {service : DashboardService} {rows : List JiraIssueEvidence} {row : JiraIssueEvidence}

theorem isDone_task : isDone (service.task row) = (isDoneStatus row.status || isCompleteOnly row.status) := by
  rw [isDone, show (service.task row).status = row.status from rfl, isDoneStatus, isCompleteOnly, Bool.eq_iff_iff]
  simp only [decide_eq_true_eq, List.mem_cons, List.not_mem_nil, or_false, Bool.or_eq_true, beq_iff_eq, or_assoc]

/-- A row the dashboard takes for done is one to the evidence. -/
theorem isDone_of_isDoneStatus (h : isDoneStatus row.status = true) : isDone (service.task row) = true :=
  by rw [isDone_task, h, Bool.true_or]

theorem not_both {status : String} (h : isDoneStatus status = true) : isCompleteOnly status = false := by
  simp only [isDoneStatus, List.mem_cons, List.not_mem_nil, or_false, decide_eq_true_eq] at h
  unfold isCompleteOnly
  rcases h with h | h | h <;> rw [h] <;> decide

theorem completed_eq : rows.length - (activeRows rows).length = rows.countP fun row => isDoneStatus row.status := by
  have hsplit := List.length_eq_countP_add_countP (fun row : JiraIssueEvidence => isDoneStatus row.status) (l := rows)
  have hactive : (activeRows rows).length = rows.countP fun row => ¬ isDoneStatus row.status = true := by
    rw [activeRows, ← List.countP_eq_length_filter]
    exact List.countP_congr fun row _ => by simp
  omega

/-- The evidence counts as many tasks done as the dashboard when none has a status of its own. -/
theorem completed_iff : rows.length - (activeRows rows).length = (rows.map service.task).countP isDone ↔
    ∀ row ∈ rows, isCompleteOnly row.status = false := by
  rw [completed_eq, List.countP_map]
  refine (countP_eq_iff fun row _ h => isDone_of_isDoneStatus h).trans (forall₂_congr fun row _ => ?_)
  show (isDone (service.task row) = true → _) ↔ _
  rw [isDone_task]
  cases hd : isDoneStatus row.status with
  | true => simp [not_both hd]
  | false => simp

/-- Of tasks that are done to both or to none, the evidence counts the active rows. -/
theorem active_countP {p : Option Date → Bool}
    (h : ∀ row ∈ rows, isCompleteOnly row.status = false) :
    rows.countP (fun row => !isDone (service.task row) && p row.dueDate) =
      (activeRows rows).countP fun row => p row.dueDate := by
  rw [activeRows, List.countP_filter]
  refine List.countP_congr fun row hrow => ?_
  have hsame : isDone (service.task row) = isDoneStatus row.status := by
    rw [isDone_task, h row hrow, Bool.or_false]
  rw [hsame, Bool.and_comm]

section
variable [FloatText] [Sha256] {projectKey correlationId : String} {snapshot : DashboardSnapshot}

theorem evidence_countP (h : service.build projectKey rows correlationId = .ok snapshot)
    (p : AnswerTaskEvidence → Bool) :
    (snapshot.tasks.map (taskEvidence snapshot)).countP p =
      rows.countP fun row => p (taskEvidence snapshot (service.task row)) := by
  obtain ⟨htasks, _⟩ := build_ok h
  rw [htasks, List.map_map, List.countP_map]
  rfl

/-- The facts of a task are read with the day of the evidence. -/
theorem evidence_overdue (h : service.build projectKey rows correlationId = .ok snapshot)
    (hstatus : ∀ row ∈ rows, isCompleteOnly row.status = false) :
    (snapshot.tasks.map (taskEvidence snapshot)).countP (·.overdue) =
      (activeRows rows).countP fun row => isOverdue (service.evidenceDay rows) row.dueDate := by
  obtain ⟨_, hday, _⟩ := build_ok h
  have hover : ∀ row, (taskEvidence snapshot (service.task row)).overdue =
      (!isDone (service.task row) && isOverdue (service.evidenceDay rows) row.dueDate) := by
    intro row
    rw [taskEvidence, hday]
    rfl
  rw [evidence_countP h]
  simp only [hover]
  exact active_countP (p := isOverdue _) hstatus

theorem evidence_dueSoon (h : service.build projectKey rows correlationId = .ok snapshot)
    (hstatus : ∀ row ∈ rows, isCompleteOnly row.status = false) :
    (snapshot.tasks.map (taskEvidence snapshot)).countP (·.dueSoon) =
      (activeRows rows).countP fun row => isDueSoon (service.evidenceDay rows) row.dueDate := by
  obtain ⟨_, hday, _⟩ := build_ok h
  have hsoon : ∀ row, (taskEvidence snapshot (service.task row)).dueSoon =
      (!isDone (service.task row) && isDueSoon (service.evidenceDay rows) row.dueDate) := by
    intro row
    rw [taskEvidence, hday]
    rfl
  rw [evidence_countP h]
  simp only [hsoon]
  exact active_countP (p := isDueSoon _) hstatus

end

theorem totals_agree_iff [FloatText] [Sha256] {projectKey correlationId : String} {snapshot : DashboardSnapshot}
    (h : service.build projectKey rows correlationId = .ok snapshot) :
    TotalsAgree snapshot ↔ OneReading service rows := by
  obtain ⟨htasks, _, hcompleted, hoverdue, hdueSoon, _⟩ := build_ok h
  have hdone : snapshot.project.completedTasks = snapshot.tasks.countP isDone ↔
      ∀ row ∈ rows, isCompleteOnly row.status = false := by
    rw [hcompleted, htasks, completed_iff]
  constructor
  · intro hagree
    have hstatus := hdone.mp hagree.completed
    refine ⟨hstatus, (same_counts_iff service.today (service.evidenceDay rows)).mp ⟨?_, ?_⟩⟩
    · rw [← hoverdue, ← evidence_overdue h hstatus]
      exact hagree.overdue
    · rw [← hdueSoon, ← evidence_dueSoon h hstatus]
      exact hagree.dueSoon
  · intro hone
    obtain ⟨hstatus, hdays⟩ := hone
    obtain ⟨hsameOverdue, hsameSoon⟩ := (same_counts_iff service.today (service.evidenceDay rows)).mpr hdays
    exact ⟨hdone.mpr hstatus, by rw [hoverdue, hsameOverdue, evidence_overdue h hstatus],
      by rw [hdueSoon, hsameSoon, evidence_dueSoon h hstatus]⟩

end

/-! ## A status of its own -/

/-- A row in status `Completed` is active to the totals and done to the evidence. -/
theorem completed_is_counted_active : letI := TextTables.ascii; letI := FloatText.plain; letI := Sha256.transparent
    ∃ snapshot, bareService.build "WFD" [{ sampleRow with status := "Completed" }] "corr-1" = .ok snapshot ∧
      ¬ TotalsAgree snapshot := by
  let _ := TextTables.ascii
  let _ := FloatText.plain
  let _ := Sha256.transparent
  exact ⟨_, rfl, fun h => absurd h.completed (by decide)⟩

theorem overdue_totals_agree : letI := TextTables.ascii; letI := FloatText.plain; letI := Sha256.transparent
    ∃ snapshot, bareService.build "WFD" [{ sampleRow with dueDate := some (90 : Int) }] "corr-1" = .ok snapshot ∧
      TotalsAgree snapshot := by
  let _ := TextTables.ascii
  let _ := FloatText.plain
  let _ := Sha256.transparent
  obtain ⟨snapshot, h⟩ : ∃ snapshot, bareService.build "WFD" [{ sampleRow with dueDate := some (90 : Int) }] "corr-1" =
      .ok snapshot := ⟨_, rfl⟩
  exact ⟨snapshot, h, (totals_agree_iff h).mpr ⟨by decide, by decide⟩⟩

end WorkforceRisk.Dashboard
