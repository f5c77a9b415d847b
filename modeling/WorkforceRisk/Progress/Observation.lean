/-
  WorkforceRisk.Progress.Observation — one reading of a Jira issue, its fingerprint, and
  the events that lie between two readings
  (packages/persistence/src/workforce_persistence/progress_repository.py:
  `TaskProgressObservation`, `DerivedProgressEvent`, `derive_progress_events`).

  Estimates are finite: hours are rationals that are not negative. The blocker keys of an
  observation are compared as sets, and told as sorted lists without repetitions.
-/

import Mathlib.Data.List.Dedup
import Mathlib.Data.List.Sort
import Mathlib.Data.Rat.Defs
import WorkforceRisk.Persistence.Calendar

namespace WorkforceRisk.Progress

open Persistence

/-- `Field(default=None, ge=0)`. -/
abbrev Hours := {h : Rat // 0 ≤ h}

structure TaskProgressObservation where
  projectKey : String
  issueKey : String
  assigneeId : Option String
  capturedAt : AwareDatetime
  jiraUpdatedAt : AwareDatetime
  status : String
  originalEstimateHours : Option Hours
  remainingEstimateHours : Option Hours
  timeSpentHours : Option Hours
  dueDate : Option Date
  priority : Option String
  blocked : Bool
  blockerIssueKeys : List String
  projectKey_ok : isProjectKey projectKey = true
  issueKey_ok : isIssueKey issueKey = true
  status_length : 1 ≤ status.length ∧ status.length ≤ 128

/-- `sorted(set(keys))`. -/
def sortedSet (keys : List String) : List String := keys.dedup.insertionSort (· ≤ ·)

def hoursJson : Option Hours → Json := .opt fun h => .num h.1

def dateJson : Option Date → Json := .opt fun d => .str d.isoformat

namespace TaskProgressObservation

def canonicalState (o : TaskProgressObservation) : Json := .obj
  [ ("assignee_id", .opt .str o.assigneeId),
    ("blocked", .bool o.blocked),
    ("blocker_issue_keys", .strs (sortedSet o.blockerIssueKeys)),
    ("due_date", dateJson o.dueDate),
    ("issue_key", .str o.issueKey),
    ("original_estimate_hours", hoursJson o.originalEstimateHours),
    ("priority", .opt .str o.priority),
    ("project_key", .str o.projectKey),
    ("remaining_estimate_hours", hoursJson o.remainingEstimateHours),
    ("status", .str o.status),
    ("time_spent_hours", hoursJson o.timeSpentHours) ]

def fingerprint [Sha256] (o : TaskProgressObservation) : String := Sha256.canonical o.canonicalState

end TaskProgressObservation

/-! ## Events between two observations -/

inductive ProgressEventType where
  | remainingEstimateChanged
  | workLogged
  | timeSpentCorrected
  | statusChanged
  | originalEstimateChanged
  | dueDateChanged
  | priorityChanged
  | assigneeChanged
  | blockerAdded
  | blockerRemoved
  | taskCompleted
  deriving DecidableEq, Repr

def ProgressEventType.value : ProgressEventType → String
  | remainingEstimateChanged => "remaining_estimate_changed"
  | workLogged => "work_logged"
  | timeSpentCorrected => "time_spent_corrected"
  | statusChanged => "status_changed"
  | originalEstimateChanged => "original_estimate_changed"
  | dueDateChanged => "due_date_changed"
  | priorityChanged => "priority_changed"
  | assigneeChanged => "assignee_changed"
  | blockerAdded => "blocker_added"
  | blockerRemoved => "blocker_removed"
  | taskCompleted => "task_completed"

structure DerivedProgressEvent where
  eventType : ProgressEventType
  oldValue : Json
  newValue : Json
  structuredProgress : Bool
  deriving DecidableEq

/-- The event of a field that differs. -/
def changed {α : Type} [DecidableEq α] (eventType : ProgressEventType) (json : α → Json) (old new : α)
    (progress : Bool) : List DerivedProgressEvent :=
  if old ≠ new then [⟨eventType, json old, json new, progress⟩] else []

/-- `previous is not None and current is not None and current < previous`. -/
def decreased : Option Hours → Option Hours → Bool
  | some previous, some current => decide (current.1 < previous.1)
  | _, _ => false

/-- Time spent that is more than before, or known for the first time. -/
def increased : Option Hours → Option Hours → Bool
  | some previous, some current => decide (previous.1 < current.1)
  | none, some _ => true
  | _, none => false

/-- `str.casefold()` of one character, where the outcome is an ASCII letter. -/
def foldChar (c : Char) : Char :=
  if c = 'ſ' then 's' else if c = Char.ofNat 0x212a then 'k' else c.toLower

/-- `status.casefold() in {"done", "closed", "resolved"}`. -/
def isCompleted (status : String) : Bool :=
  ["done", "closed", "resolved"].any fun word => status.toList.map foldChar == word.toList

def deriveProgressEvents (previous current : TaskProgressObservation) : List DerivedProgressEvent :=
  let previousBlockers := sortedSet previous.blockerIssueKeys
  let currentBlockers := sortedSet current.blockerIssueKeys
  let spentMore := increased previous.timeSpentHours current.timeSpentHours
  changed .remainingEstimateChanged hoursJson previous.remainingEstimateHours current.remainingEstimateHours
      (decreased previous.remainingEstimateHours current.remainingEstimateHours) ++
    changed (if spentMore then .workLogged else .timeSpentCorrected) hoursJson previous.timeSpentHours
      current.timeSpentHours spentMore ++
    changed .statusChanged Json.str previous.status current.status true ++
    changed .originalEstimateChanged hoursJson previous.originalEstimateHours current.originalEstimateHours false ++
    changed .dueDateChanged dateJson previous.dueDate current.dueDate false ++
    changed .priorityChanged (Json.opt .str) previous.priority current.priority false ++
    changed .assigneeChanged (Json.opt .str) previous.assigneeId current.assigneeId false ++
    (if (!previous.blocked && current.blocked) || currentBlockers.any (fun k => !previousBlockers.contains k) then
      [⟨.blockerAdded, .strs previousBlockers, .strs currentBlockers, false⟩] else []) ++
    (if (previous.blocked && !current.blocked) || previousBlockers.any (fun k => !currentBlockers.contains k) then
      [⟨.blockerRemoved, .strs previousBlockers, .strs currentBlockers, false⟩] else []) ++
    (if !isCompleted previous.status && isCompleted current.status then
      [⟨.taskCompleted, .str previous.status, .str current.status, true⟩] else [])

theorem changed_self {α : Type} [DecidableEq α] {eventType : ProgressEventType} {json : α → Json} {a : α}
    {progress : Bool} : changed eventType json a a progress = [] := if_neg fun h => h rfl

theorem ProgressEventType.value_injective : Function.Injective ProgressEventType.value := by
  intro a b h
  cases a <;> cases b <;> first | rfl | exact absurd h (by decide)

theorem changed_types {α : Type} [DecidableEq α] {eventType : ProgressEventType} {json : α → Json} {old new : α}
    {progress : Bool} : ((changed eventType json old new progress).map DerivedProgressEvent.eventType).Sublist
      [eventType] := by
  unfold changed
  split
  · exact List.Sublist.refl _
  · exact List.nil_sublist _

theorem optional_types {c : Bool} {event : DerivedProgressEvent} :
    ((if c then [event] else []).map DerivedProgressEvent.eventType).Sublist [event.eventType] := by
  cases c
  · exact List.nil_sublist _
  · exact List.Sublist.refl _

/-- One step of a task derives at most one event of each type. -/
theorem deriveProgressEvents_types (previous current : TaskProgressObservation) :
    ((deriveProgressEvents previous current).map DerivedProgressEvent.eventType).Nodup := by
  have hsub : ∃ spent ∈ [ProgressEventType.workLogged, .timeSpentCorrected],
      ((deriveProgressEvents previous current).map DerivedProgressEvent.eventType).Sublist
        [.remainingEstimateChanged, spent, .statusChanged, .originalEstimateChanged, .dueDateChanged,
          .priorityChanged, .assigneeChanged, .blockerAdded, .blockerRemoved, .taskCompleted] := by
    refine ⟨if increased previous.timeSpentHours current.timeSpentHours then .workLogged else .timeSpentCorrected,
      by split <;> decide, ?_⟩
    simp only [deriveProgressEvents, List.map_append]
    exact ((((((((changed_types.append changed_types).append changed_types).append changed_types).append
      changed_types).append changed_types).append changed_types).append optional_types).append optional_types).append
      optional_types
  obtain ⟨spent, hspent, hsub⟩ := hsub
  refine hsub.nodup ?_
  clear hsub
  revert spent
  decide

/-- Two readings of one state have no event between them, whenever they were taken. -/
theorem deriveProgressEvents_same (o : TaskProgressObservation) (capturedAt jiraUpdatedAt : AwareDatetime) :
    deriveProgressEvents o { o with capturedAt, jiraUpdatedAt } = [] := by
  simp [deriveProgressEvents, changed_self]

end WorkforceRisk.Progress
