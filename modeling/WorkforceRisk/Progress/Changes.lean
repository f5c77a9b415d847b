/-
  WorkforceRisk.Progress.Changes — when two readings of an issue are one state.

  `fingerprint` hashes a normalised record of a reading; `derive_progress_events` compares
  the fields one by one, blockers as sets and the blocked flag with them. Both say the
  same of two readings of one issue (`SameState`): no event lies between them exactly when
  they have one fingerprint (`no_silent_change`).
-/

import WorkforceRisk.Persistence.Canonical
import WorkforceRisk.Persistence.Dates
import WorkforceRisk.Progress.Observation

namespace WorkforceRisk.Progress

open Persistence

/-- The fields of a reading that are no more than when it was taken. -/
structure SameState (a b : TaskProgressObservation) : Prop where
  assigneeId : a.assigneeId = b.assigneeId
  status : a.status = b.status
  originalEstimateHours : a.originalEstimateHours = b.originalEstimateHours
  remainingEstimateHours : a.remainingEstimateHours = b.remainingEstimateHours
  timeSpentHours : a.timeSpentHours = b.timeSpentHours
  dueDate : a.dueDate = b.dueDate
  priority : a.priority = b.priority
  blocked : a.blocked = b.blocked
  blockers : sortedSet a.blockerIssueKeys = sortedSet b.blockerIssueKeys

/-! ## By events -/

theorem changed_nil {α : Type} [DecidableEq α] {eventType : ProgressEventType} {json : α → Json} {old new : α}
    {progress : Bool} : changed eventType json old new progress = [] ↔ old = new := by
  simp [changed]

/-- Two sets of keys with the same members are told as one list. -/
theorem sortedSet_eq {a b : List String} (h : ∀ k, k ∈ sortedSet a ↔ k ∈ sortedSet b) : sortedSet a = sortedSet b := by
  have nodup : ∀ keys, (sortedSet keys).Nodup := fun keys =>
    (List.perm_insertionSort _ _).nodup_iff.mpr (List.nodup_dedup keys)
  refine List.Perm.eq_of_pairwise (fun _ _ _ _ => String.le_antisymm) (List.pairwise_insertionSort _ _)
    (List.pairwise_insertionSort _ _) ((List.perm_ext_iff_of_nodup (nodup a) (nodup b)).mpr h)

theorem deriveProgressEvents_nil {a b : TaskProgressObservation} : deriveProgressEvents a b = [] ↔ SameState a b := by
  simp only [deriveProgressEvents, List.append_eq_nil_iff, changed_nil]
  constructor
  · intro h
    obtain ⟨⟨⟨⟨⟨⟨⟨⟨⟨hr, ht⟩, hs⟩, ho⟩, hd⟩, hp⟩, ha⟩, hadd⟩, hremove⟩, -⟩ := h
    obtain ⟨hblocked, hnew⟩ : (a.blocked = false → b.blocked = false) ∧
        ∀ k ∈ sortedSet b.blockerIssueKeys, k ∈ sortedSet a.blockerIssueKeys := by
      simpa using hadd
    obtain ⟨hunblocked, hgone⟩ : (a.blocked = true → b.blocked = true) ∧
        ∀ k ∈ sortedSet a.blockerIssueKeys, k ∈ sortedSet b.blockerIssueKeys := by
      simpa using hremove
    refine ⟨ha, hs, ho, hr, ht, hd, hp, ?_, sortedSet_eq fun k => ⟨hgone k, hnew k⟩⟩
    cases hab : a.blocked with
    | false => exact (hblocked hab).symm
    | true => exact (hunblocked hab).symm
  · intro h
    simp [h.assigneeId, h.status, h.originalEstimateHours, h.remainingEstimateHours, h.timeSpentHours, h.dueDate,
      h.priority, h.blocked, h.blockers]

/-! ## By fingerprints -/

theorem canonicalState_keys : ["assignee_id", "blocked", "blocker_issue_keys", "due_date", "issue_key",
    "original_estimate_hours", "priority", "project_key", "remaining_estimate_hours", "status",
    "time_spent_hours"].Pairwise (· ≤ ·) := by decide +kernel

theorem sorted_hours {a b : Option Hours} : (hoursJson a).sorted = (hoursJson b).sorted ↔ a = b :=
  Json.sorted_opt (fun h => (rfl : (Json.num h.1).sorted = .num h.1)) (fun _ => Json.noConfusion)
    fun _ _ h => Subtype.ext (Json.num.inj h)

theorem sorted_date {a b : Option Date} : (dateJson a).sorted = (dateJson b).sorted ↔ a = b :=
  Json.sorted_optText fun _ _ => isoformat_inj

theorem canonicalState_sorted {a b : TaskProgressObservation} :
    a.canonicalState.sorted = b.canonicalState.sorted ↔
      a.projectKey = b.projectKey ∧ a.issueKey = b.issueKey ∧ SameState a b := by
  have hsorted : ∀ o : TaskProgressObservation, o.canonicalState.sorted = .obj (Json.sortedMembers
      [("assignee_id", .opt .str o.assigneeId), ("blocked", .bool o.blocked),
        ("blocker_issue_keys", .strs (sortedSet o.blockerIssueKeys)), ("due_date", dateJson o.dueDate),
        ("issue_key", .str o.issueKey), ("original_estimate_hours", hoursJson o.originalEstimateHours),
        ("priority", .opt .str o.priority), ("project_key", .str o.projectKey),
        ("remaining_estimate_hours", hoursJson o.remainingEstimateHours), ("status", .str o.status),
        ("time_spent_hours", hoursJson o.timeSpentHours)]) :=
    fun o => congrArg Json.obj (sortMembers_of_keys canonicalState_keys)
  rw [hsorted, hsorted]
  simp only [Json.sortedMembers, Json.obj.injEq, List.cons.injEq, Prod.mk.injEq, true_and, and_true,
    Json.sorted_optStr, Json.sorted_strs, sorted_hours, sorted_date, Json.sorted, Json.str.injEq, Json.bool.injEq]
  constructor
  · intro h
    obtain ⟨ha, hb, hk, hd, hi, ho, hp, hj, hr, hs, ht⟩ := h
    exact ⟨hj, hi, ha, hs, ho, hr, ht, hd, hp, hb, hk⟩
  · intro h
    obtain ⟨hj, hi, h⟩ := h
    exact ⟨h.assigneeId, h.blocked, h.blockers, h.dueDate, hi, h.originalEstimateHours, h.priority, hj,
      h.remainingEstimateHours, h.status, h.timeSpentHours⟩

theorem changed_type {α : Type} [DecidableEq α] {eventType : ProgressEventType} {json : α → Json} {old new : α}
    {progress : Bool} {e : DerivedProgressEvent} (h : e ∈ changed eventType json old new progress) :
    e.eventType = eventType := by
  unfold changed at h
  split at h
  · rw [List.mem_singleton.mp h]
  · cases h

theorem mem_optional {c : Bool} {e event : DerivedProgressEvent} :
    e ∈ (if c = true then [event] else []) ↔ c = true ∧ e = event := by
  cases c <;> simp

/-- A task is completed by an event of its own, exactly when its status comes to be done. -/
theorem task_completed_iff {a b : TaskProgressObservation} :
    (∃ e ∈ deriveProgressEvents a b, e.eventType = .taskCompleted) ↔
      isCompleted a.status = false ∧ isCompleted b.status = true := by
  simp only [deriveProgressEvents, List.mem_append, mem_optional]
  constructor
  · intro h
    obtain ⟨e, ((((((((h | h) | h) | h) | h) | h) | h) | h) | h) | h, he⟩ := h
    · cases (changed_type h).symm.trans he
    · have htype := (changed_type h).symm.trans he
      split at htype <;> cases htype
    · cases (changed_type h).symm.trans he
    · cases (changed_type h).symm.trans he
    · cases (changed_type h).symm.trans he
    · cases (changed_type h).symm.trans he
    · cases (changed_type h).symm.trans he
    · rw [h.2] at he
      cases he
    · rw [h.2] at he
      cases he
    · simpa using h.1
  · intro h
    exact ⟨_, Or.inr ⟨by simp [h.1, h.2], rfl⟩, rfl⟩

/-- Between two readings of one issue no event lies exactly when they have one fingerprint;
    and the event of its completion lies there exactly when its status comes to be done. -/
theorem no_silent_change [Sha256] {digest : Json → String} (hideal : Sha256.Ideal digest)
    (previous current : TaskProgressObservation) (hp : previous.projectKey = current.projectKey)
    (hi : previous.issueKey = current.issueKey) :
    (deriveProgressEvents previous current = [] ↔ previous.fingerprint = current.fingerprint) ∧
    ((∃ e ∈ deriveProgressEvents previous current, e.eventType = .taskCompleted) ↔
      isCompleted previous.status = false ∧ isCompleted current.status = true) := by
  refine ⟨?_, task_completed_iff⟩
  rw [deriveProgressEvents_nil, TaskProgressObservation.fingerprint, TaskProgressObservation.fingerprint,
    hideal.canonical_inj, canonicalState_sorted]
  exact ⟨fun h => ⟨hp, hi, h⟩, fun h => h.2.2⟩

theorem sampleProject_ok : isProjectKey "WFD" = true := by decide

theorem sampleIssue_ok : isIssueKey "WFD-5" = true := by decide

/-- A reading of the sample issue. -/
def sampleReading (status : String) (dueDate : Option Date) (blockerIssueKeys : List String)
    (h : 1 ≤ status.length ∧ status.length ≤ 128) : TaskProgressObservation :=
  { projectKey := "WFD", issueKey := "WFD-5", assigneeId := none, capturedAt := ⟨0, 0⟩, jiraUpdatedAt := ⟨0, 0⟩,
    status := status, originalEstimateHours := none, remainingEstimateHours := none, timeSpentHours := none,
    dueDate := dueDate, priority := none, blocked := false, blockerIssueKeys := blockerIssueKeys,
    projectKey_ok := sampleProject_ok, issueKey_ok := sampleIssue_ok, status_length := h }

/-- A blocker named twice is no change. -/
theorem no_silent_change_sample : letI := Sha256.coded
    (sampleReading "Review" (some 20689) ["WFD-1", "WFD-2"] (by decide)).fingerprint =
      (sampleReading "Review" (some 20689) ["WFD-2", "WFD-1", "WFD-2"] (by decide)).fingerprint := by
  let _ := Sha256.coded
  exact (no_silent_change Sha256.coded_ideal (sampleReading "Review" (some 20689) ["WFD-1", "WFD-2"] (by decide))
    (sampleReading "Review" (some 20689) ["WFD-2", "WFD-1", "WFD-2"] (by decide)) rfl rfl).1.mp (by decide)

end WorkforceRisk.Progress
