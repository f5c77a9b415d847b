/-
  WorkforceRisk.Snapshots.Fingerprint — when two pieces of evidence are one
  (domain/workforce_risk/evidence/fingerprint.py).

  `fingerprint` hashes the canonical material of the evidence: its material fields and its
  environment, with the workloads, the dependencies and the scoring versions sorted.
  `material_changes` compares the same material field by field. Both say the same
  (`SameMaterial`): the workloads are one mapping, the dependencies and the versions one
  multiset each, every other material field is equal, and what is not material may be
  anything (`fingerprint_tracks_material`).

  Workloads are exact and finite.
-/

import Mathlib.Algebra.Order.Ring.Rat
import Mathlib.Data.Prod.Lex
import Mathlib.Data.String.Basic
import WorkforceRisk.Lib.Ordering
import WorkforceRisk.Persistence.Canonical
import WorkforceRisk.Persistence.Dates

namespace WorkforceRisk.Snapshots

open Lib Persistence

structure EvidenceFingerprintInput where
  environment : Environment
  subjectId : String
  taskState : String
  currentAssignee : Option String
  /-- A `dict[str, float]`, in the order its keys were inserted. -/
  employeeWorkloads : List (String × Rat)
  dueDate : Option Date
  dependencies : List String
  scoringVersions : List String
  evidenceTimestamp : AwareDatetime
  irrelevantMetadata : List (String × Json)
  subjectId_length : 1 ≤ subjectId.length ∧ subjectId.length ≤ 128
  taskState_length : 1 ≤ taskState.length ∧ taskState.length ≤ 64
  currentAssignee_length : ∀ a ∈ currentAssignee, a.length ≤ 256
  employeeWorkloads_keys : (employeeWorkloads.map Prod.fst).Nodup

/-- The order of pairs of a text and a number. -/
def itemLE (a b : String × Rat) : Prop := a.1 < b.1 ∨ a.1 = b.1 ∧ a.2 ≤ b.2

instance : DecidableRel itemLE := fun _ _ => inferInstanceAs (Decidable (_ ∨ _))

def workloadMember (item : String × Rat) : String × Json := (item.1, .num item.2)

namespace EvidenceFingerprintInput

/-- Its `schema_version` has one value. -/
def canonicalMaterial (i : EvidenceFingerprintInput) : List (String × Json) :=
  [ ("schema_version", .str "1.0"),
    ("subject_id", .str i.subjectId),
    ("task_state", .str i.taskState),
    ("current_assignee", .opt .str i.currentAssignee),
    ("employee_workloads", .obj ((i.employeeWorkloads.insertionSort itemLE).map workloadMember)),
    ("due_date", .opt (fun d => .str (Date.isoformat d)) i.dueDate),
    ("dependencies", .strs (i.dependencies.insertionSort (· ≤ ·))),
    ("scoring_versions", .strs (i.scoringVersions.insertionSort (· ≤ ·))),
    ("environment", .str i.environment.value) ]

def fingerprint [Sha256] (i : EvidenceFingerprintInput) : String := Sha256.canonical (.obj i.canonicalMaterial)

end EvidenceFingerprintInput

/-- The names whose values differ. Two dicts are equal whatever the order of their keys. -/
def differing (before after : List (String × Json)) : List String :=
  (before.map Prod.fst).filter fun name => (member before name).map Json.sorted ≠ (member after name).map Json.sorted

def materialChanges (previous current : EvidenceFingerprintInput) : Except Error (List String) :=
  if previous.environment ≠ current.environment then .error (.valueError "evidence environment mismatch")
  else .ok (differing previous.canonicalMaterial current.canonicalMaterial)

/-- What two pieces of evidence have in common when nothing material changed. -/
structure SameMaterial (a b : EvidenceFingerprintInput) : Prop where
  environment : a.environment = b.environment
  subjectId : a.subjectId = b.subjectId
  taskState : a.taskState = b.taskState
  currentAssignee : a.currentAssignee = b.currentAssignee
  employeeWorkloads : a.employeeWorkloads.Perm b.employeeWorkloads
  dueDate : a.dueDate = b.dueDate
  dependencies : a.dependencies.Perm b.dependencies
  scoringVersions : a.scoringVersions.Perm b.scoringVersions

/-! ## Field by field -/

@[simp] theorem member_head (key : String) (x : Json) (members : List (String × Json)) :
    member ((key, x) :: members) key = some x := by
  simp [member]

theorem member_tail {key name : String} (h : key ≠ name) (x : Json) (members : List (String × Json)) :
    member ((key, x) :: members) name = member members name := by
  simp [member, h]

/-- No name differs exactly when the objects have one sorted text. -/
theorem differing_nil {a b : List (String × Json)} (hk : a.map Prod.fst = b.map Prod.fst) (hn : (a.map Prod.fst).Nodup) :
    differing a b = [] ↔ Json.sortedMembers a = Json.sortedMembers b := by
  have hvalues : differing a b = [] ↔ ∀ name ∈ a.map Prod.fst,
      (member a name).map Json.sorted = (member b name).map Json.sorted := by
    simp only [differing, List.filter_eq_nil_iff, ne_eq, decide_eq_true_eq, not_not]
  rw [hvalues]
  clear hvalues
  induction a generalizing b with
  | nil =>
    cases b with
    | nil => simp
    | cons y b => cases hk
  | cons x a ih =>
    cases b with
    | nil => cases hk
    | cons y b =>
      obtain ⟨key, x⟩ := x
      obtain ⟨key', y⟩ := y
      obtain ⟨hkey, hkeys⟩ := List.cons.inj hk
      obtain ⟨hx, hrest⟩ := List.nodup_cons.mp hn
      obtain rfl : key = key' := hkey
      have htail : ∀ name ∈ a.map Prod.fst, member ((key, x) :: a) name = member a name ∧
          member ((key, y) :: b) name = member b name := by
        intro name hname
        have hne : key ≠ name := by
          intro h
          exact hx (h ▸ hname)
        exact ⟨member_tail hne x a, member_tail hne y b⟩
      simp only [Json.sortedMembers, List.cons.injEq, Prod.mk.injEq, true_and, ← ih hkeys hrest, List.map_cons,
        List.forall_mem_cons, member_head, Option.map_some, Option.some.injEq]
      refine and_congr_right fun _ => forall₂_congr fun name hname => ?_
      rw [(htail name hname).1, (htail name hname).2]

/-! ## By the sorted text -/

theorem itemLE_iff {a b : String × Rat} : itemLE a b ↔ toLex a ≤ toLex b := Prod.Lex.toLex_le_toLex.symm

instance : Std.Total itemLE := ⟨fun a b => by
  rw [itemLE_iff, itemLE_iff]
  exact le_total _ _⟩

instance : IsTrans _ itemLE := ⟨fun a b c hab hbc => by
  rw [itemLE_iff] at hab hbc ⊢
  exact hab.trans hbc⟩

instance : Std.Antisymm itemLE := ⟨fun a b hab hba => by
  rw [itemLE_iff] at hab hba
  exact toLex.injective (le_antisymm hab hba)⟩

theorem sortedMembers_workloads (items : List (String × Rat)) :
    Json.sortedMembers (items.map workloadMember) = items.map workloadMember := by
  induction items with
  | nil => rfl
  | cons item items ih =>
    rw [List.map_cons, workloadMember, Json.sortedMembers, ih]
    rfl

/-- Sorted items are under sorted keys. -/
theorem sorted_workloads (items : List (String × Rat)) :
    (Json.obj ((items.insertionSort itemLE).map workloadMember)).sorted =
      .obj ((items.insertionSort itemLE).map workloadMember) := by
  rw [Json.sorted, sortedMembers_workloads, sortMembers_of_keys]
  rw [List.map_map]
  refine List.pairwise_map.mpr ((List.pairwise_insertionSort itemLE items).imp fun h => ?_)
  rcases h with h | ⟨h, _⟩
  · exact le_of_lt h
  · exact le_of_eq h

theorem workloads_told {items items' : List (String × Rat)} :
    (Json.obj ((items.insertionSort itemLE).map workloadMember)).sorted =
      (Json.obj ((items'.insertionSort itemLE).map workloadMember)).sorted ↔ items.Perm items' := by
  have hinj : Function.Injective workloadMember := by
    intro a b h
    obtain ⟨hkey, hnum⟩ := Prod.mk.inj h
    exact Prod.ext hkey (Json.num.inj hnum)
  rw [sorted_workloads, sorted_workloads, Json.obj.injEq, (List.map_injective_iff.mpr hinj).eq_iff, insertionSort_eq_iff]

theorem environment_told {a b : Environment} : a.value = b.value ↔ a = b := by
  cases a <;> cases b <;> decide

theorem dueDate_told {a b : Option Date} : (Json.opt (fun d => .str (Date.isoformat d)) a).sorted =
    (Json.opt (fun d => .str (Date.isoformat d)) b).sorted ↔ a = b :=
  Json.sorted_optText fun _ _ => isoformat_inj

theorem materialKeys_nodup (i : EvidenceFingerprintInput) : (i.canonicalMaterial.map Prod.fst).Nodup := by
  show ["schema_version", "subject_id", "task_state", "current_assignee", "employee_workloads", "due_date",
    "dependencies", "scoring_versions", "environment"].Nodup
  decide

theorem canonicalMaterial_sorted {a b : EvidenceFingerprintInput} :
    Json.sortedMembers a.canonicalMaterial = Json.sortedMembers b.canonicalMaterial ↔ SameMaterial a b := by
  simp only [EvidenceFingerprintInput.canonicalMaterial, Json.sortedMembers, List.cons.injEq, Prod.mk.injEq, true_and,
    and_true, Json.sorted_optStr, Json.sorted_strs, workloads_told, dueDate_told, insertionSort_eq_iff]
  simp only [Json.sorted, Json.str.injEq, environment_told]
  constructor
  · intro h
    obtain ⟨hs, ht, ha, hw, hd, hp, hv, he⟩ := h
    exact ⟨he, hs, ht, ha, hw, hd, hp, hv⟩
  · intro h
    exact ⟨h.subjectId, h.taskState, h.currentAssignee, h.employeeWorkloads, h.dueDate, h.dependencies,
      h.scoringVersions, h.environment⟩

theorem materialChanges_nil {previous current : EvidenceFingerprintInput} :
    materialChanges previous current = .ok [] ↔ SameMaterial previous current := by
  have hkeys : previous.canonicalMaterial.map Prod.fst = current.canonicalMaterial.map Prod.fst := rfl
  rw [← canonicalMaterial_sorted, ← differing_nil hkeys (materialKeys_nodup previous)]
  unfold materialChanges
  split
  · rename_i hne
    refine ⟨fun h => (nomatch h), fun h => absurd ?_ hne⟩
    exact (canonicalMaterial_sorted.mp ((differing_nil hkeys (materialKeys_nodup previous)).mp h)).environment
  · rw [Except.ok.injEq]

/-- The digests of two pieces of evidence are equal exactly when the digested material is the same;
    and in one environment exactly when no material change lies between them. -/
theorem fingerprint_tracks_material [Sha256] {digest : Json → String} (hideal : Sha256.Ideal digest)
    (previous current : EvidenceFingerprintInput) :
    (previous.environment = current.environment →
      (previous.fingerprint = current.fingerprint ↔ materialChanges previous current = .ok [])) ∧
    (previous.fingerprint = current.fingerprint ↔ SameMaterial previous current) ∧
    ∀ timestamp metadata, EvidenceFingerprintInput.fingerprint
      { previous with evidenceTimestamp := timestamp, irrelevantMetadata := metadata } = previous.fingerprint := by
  have hsame : previous.fingerprint = current.fingerprint ↔ SameMaterial previous current := by
    have hkeys : (Json.sortedMembers previous.canonicalMaterial).map Prod.fst =
        (Json.sortedMembers current.canonicalMaterial).map Prod.fst := rfl
    rw [EvidenceFingerprintInput.fingerprint, EvidenceFingerprintInput.fingerprint, hideal.canonical_inj, Json.sorted,
      Json.sorted, Json.obj.injEq, sortMembers_inj hkeys (materialKeys_nodup previous), canonicalMaterial_sorted]
  exact ⟨fun _ => hsame.trans materialChanges_nil.symm, hsame, fun _ _ => rfl⟩

theorem sampleSubject_length : 1 ≤ "WRD-10".length ∧ "WRD-10".length ≤ 128 := by decide

theorem sampleState_length : 1 ≤ "In Progress".length ∧ "In Progress".length ≤ 64 := by decide

theorem sampleAssignee_length : ∀ a ∈ (none : Option String), a.length ≤ 256 := fun _ h => (nomatch h)

/-- Evidence on a task of the employees `EMP-1` and `EMP-2`. -/
def sampleEvidence (dueDate : Option Date) (dependencies : List String) (employeeWorkloads : List (String × Rat))
    (irrelevantMetadata : List (String × Json)) (h : (employeeWorkloads.map Prod.fst).Nodup) :
    EvidenceFingerprintInput :=
  { environment := .dev, subjectId := "WRD-10", taskState := "In Progress", currentAssignee := none,
    employeeWorkloads := employeeWorkloads, dueDate := dueDate, dependencies := dependencies,
    scoringVersions := ["task-fit-v1"], evidenceTimestamp := ⟨0, 0⟩, irrelevantMetadata := irrelevantMetadata,
    subjectId_length := sampleSubject_length, taskState_length := sampleState_length,
    currentAssignee_length := sampleAssignee_length, employeeWorkloads_keys := h }

/-- Reordered, one evidence; with another due date, another. -/
theorem fingerprint_tracks_material_sample : letI := Sha256.coded
    (sampleEvidence (some 20689) ["WRD-8", "WRD-9"] [("EMP-1", 32), ("EMP-2", 18)] [] (by decide)).fingerprint =
      (sampleEvidence (some 20689) ["WRD-9", "WRD-8"] [("EMP-2", 18), ("EMP-1", 32)] [("colour", .str "red")]
        (by decide)).fingerprint ∧
    (sampleEvidence (some 20689) [] [] [] (by decide)).fingerprint ≠
      (sampleEvidence (some 20690) [] [] [] (by decide)).fingerprint := by
  let _ := Sha256.coded
  constructor
  · exact (fingerprint_tracks_material Sha256.coded_ideal _ _).2.1.mpr ⟨rfl, rfl, rfl, rfl, .swap _ _ _, rfl,
      .swap _ _ _, .refl _⟩
  · intro h
    exact absurd ((fingerprint_tracks_material Sha256.coded_ideal _ _).2.1.mp h).dueDate (by decide)

end WorkforceRisk.Snapshots
