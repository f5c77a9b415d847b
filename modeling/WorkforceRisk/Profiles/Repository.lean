/-
  WorkforceRisk.Profiles.Repository — `ProfileRepository`
  (packages/persistence/src/workforce_persistence/repositories.py).

  A profile is one row and the rows of its skills, allocations and overrides, which name it
  by a foreign key: a store where one names no profile cannot be built. `create` adds them
  in one transaction with its audit event, and `load` reads them back, each collection
  `ORDER BY` a column. How the database orders texts is a parameter (`Collation`).

  A capacity update looks the profile up without a lock and then compares and sets its
  version; `updateCapacity` is that statement.
-/

import WorkforceRisk.Lib.Transactions
import WorkforceRisk.Persistence.Audit
import WorkforceRisk.Profiles.Model

namespace WorkforceRisk.Profiles

open Lib Persistence

/-! ## Rows -/

structure EmployeeProfile where
  id : Uuid
  environment : Environment
  createdAt : DateTime
  employeeId : String
  role : String
  seniority : String
  weeklyCapacityHours : Rat
  mentoringAvailable : Bool
  jiraAccountId : Option String
  version : Nat
  deriving DecidableEq

structure EmployeeSkill where
  id : Uuid
  environment : Environment
  createdAt : DateTime
  profileId : Uuid
  skill : String
  proficiency : Nat

structure CapacityAllocation where
  id : Uuid
  environment : Environment
  createdAt : DateTime
  profileId : Uuid
  projectKey : String
  allocationFraction : Rat
  effectiveFrom : DateTime

structure CapacityOverrideRow where
  id : Uuid
  environment : Environment
  createdAt : DateTime
  profileId : Uuid
  startsAt : DateTime
  endsAt : DateTime
  capacityHours : Rat
  reason : String

/-- The selected columns. -/
def EmployeeSkill.columns (r : EmployeeSkill) : String × Nat := (r.skill, r.proficiency)

def CapacityAllocation.columns (r : CapacityAllocation) : String × Rat := (r.projectKey, r.allocationFraction)

def CapacityOverrideRow.columns (r : CapacityOverrideRow) : DateTime × DateTime × Rat × String :=
  (r.startsAt, r.endsAt, r.capacityHours, r.reason)

/-- `uq_profiles_env_employee`. -/
instance : Keyed EmployeeProfile := .byIdAnd EmployeeProfile.id fun p => (p.environment, p.employeeId)

instance : Keyed EmployeeSkill := .byUnique EmployeeSkill.id

instance : Keyed CapacityAllocation := .byUnique CapacityAllocation.id

instance : Keyed CapacityOverrideRow := .byUnique CapacityOverrideRow.id

/-- Each row names a profile that is there. -/
def Refers {ρ : Type} (profileId : ρ → Uuid) (rows : List ρ) (profiles : Table EmployeeProfile) : Prop :=
  ∀ r ∈ rows, ∃ p ∈ profiles.rows, p.id = profileId r

structure ProfileStore where
  profiles : Table EmployeeProfile
  skills : Table EmployeeSkill
  allocations : Table CapacityAllocation
  overrides : Table CapacityOverrideRow
  audit : Table AuditEvent
  skills_refer : Refers EmployeeSkill.profileId skills.rows profiles
  allocations_refer : Refers CapacityAllocation.profileId allocations.rows profiles
  overrides_refer : Refers CapacityOverrideRow.profileId overrides.rows profiles

def ProfileStore.empty : ProfileStore where
  profiles := .empty
  skills := .empty
  allocations := .empty
  overrides := .empty
  audit := .empty
  skills_refer _ hr := by cases hr
  allocations_refer _ hr := by cases hr
  overrides_refer _ hr := by cases hr

/-- Rows that name the profile that was added with them. -/
theorem refers_add {ρ : Type} [Keyed ρ] {profileId : ρ → Uuid} {table table' : Table ρ} {rows : List ρ}
    {profiles profiles' : Table EmployeeProfile} {profile : EmployeeProfile}
    (h : Refers profileId table.rows profiles) (hp : profiles.insert profile = some profiles')
    (ht : table.insertAll rows = some table') (hrows : ∀ r ∈ rows, profileId r = profile.id) :
    Refers profileId table'.rows profiles' := by
  intro r hr
  rw [Table.insertAll_rows ht] at hr
  rcases List.mem_append.mp hr with hr | hr
  · obtain ⟨p, hp', he⟩ := h r hr
    exact ⟨p, (Table.mem_insert hp).mpr (.inl hp'), he⟩
  · exact ⟨profile, (Table.mem_insert hp).mpr (.inr rfl), (hrows r hr).symm⟩

theorem mapIdx_refers {α ρ : Type} {profileId : ρ → Uuid} {l : List α} {row : Nat → α → ρ} {id : Uuid}
    (h : ∀ i a, profileId (row i a) = id) : ∀ r ∈ l.mapIdx row, profileId r = id := by
  intro r hr
  obtain ⟨i, hi, rfl⟩ := List.mem_mapIdx.mp hr
  exact h i _

/-- No row that was there names a profile whose id is new. -/
theorem Refers.ne {ρ : Type} {profileId : ρ → Uuid} {rows : List ρ} {profiles profiles' : Table EmployeeProfile}
    {profile : EmployeeProfile} (h : Refers profileId rows profiles) (hp : profiles.insert profile = some profiles') :
    ∀ r ∈ rows, profileId r ≠ profile.id := by
  intro r hr he
  obtain ⟨p, hmem, hid⟩ := h r hr
  exact (not_clashes_byIdAnd.mp (Table.insert_fresh hp p hmem)).1 (hid.trans he)

/-! ## Creating -/

/-- The arguments of `create`. -/
structure ProfileCreate where
  environment : Environment
  employeeId : String
  role : String
  seniority : String
  weeklyCapacityHours : Rat
  mentoringAvailable : Bool
  jiraAccountId : Option String
  skills : List (String × Nat)
  allocations : List (String × Rat)
  capacityOverrides : List (DateTime × DateTime × Rat × String)
  actorId : String
  correlationId : String
  createdAt : DateTime

/-- The ids that are drawn for the rows of a profile and for its audit event. -/
structure DrawnIds where
  profile : Uuid
  skill : Nat → Uuid
  allocation : Nat → Uuid
  override : Nat → Uuid
  audit : Uuid

namespace ProfileCreate

variable (c : ProfileCreate) (ids : DrawnIds)

def profileRow : EmployeeProfile where
  id := ids.profile
  environment := c.environment
  createdAt := c.createdAt
  employeeId := c.employeeId
  role := c.role
  seniority := c.seniority
  weeklyCapacityHours := c.weeklyCapacityHours
  mentoringAvailable := c.mentoringAvailable
  jiraAccountId := c.jiraAccountId
  version := 1

def skillRow (i : Nat) (skill : String × Nat) : EmployeeSkill :=
  ⟨ids.skill i, c.environment, c.createdAt, ids.profile, skill.1, skill.2⟩

def allocationRow (i : Nat) (allocation : String × Rat) : CapacityAllocation :=
  ⟨ids.allocation i, c.environment, c.createdAt, ids.profile, allocation.1, allocation.2, c.createdAt⟩

def overrideRow (i : Nat) : DateTime × DateTime × Rat × String → CapacityOverrideRow
  | (startsAt, endsAt, capacity, reason) =>
    ⟨ids.override i, c.environment, c.createdAt, ids.profile, startsAt, endsAt, capacity, reason⟩

def entry : AuditEntry where
  actionType := "profile.created"
  actorType := "administrator"
  actorId := c.actorId
  subjectIds := [c.employeeId]
  correlationId := c.correlationId
  priorState := none
  newState := some (.obj [("version", .num 1)])
  safeMetadata := none

end ProfileCreate

/-! ## Reading -/

class Collation where
  le : String → String → Bool

structure StoredProfile where
  id : Uuid
  environment : Environment
  employeeId : String
  role : String
  seniority : String
  weeklyCapacityHours : Rat
  mentoringAvailable : Bool
  jiraAccountId : Option String
  version : Nat
  skills : List (String × Nat)
  allocations : List (String × Rat)
  capacityOverrides : List (DateTime × DateTime × Rat × String)

/-- `SELECT ... WHERE profile_id ORDER BY`. -/
def children {ρ β : Type} (rows : List ρ) (profileId : ρ → Uuid) (id : Uuid) (le : ρ → ρ → Bool) (columns : ρ → β) :
    List β :=
  ((rows.filter fun r => profileId r == id).insertionSort fun a b => le a b).map columns

/-- Of rows that were added for a new id, all that is read back is what they were added for. -/
theorem children_added {α ρ : Type} {rows : List ρ} {new : List α} {row : Nat → α → ρ} {profileId : ρ → Uuid}
    {columns : ρ → α} {id : Uuid} {le : ρ → ρ → Bool} {le' : α → α → Bool} (hrows : ∀ r ∈ rows, profileId r ≠ id)
    (hid : ∀ i a, profileId (row i a) = id) (hcolumns : ∀ i a, columns (row i a) = a)
    (hle : ∀ r s, le r s = le' (columns r) (columns s)) :
    children (rows ++ new.mapIdx row) profileId id le columns = new.insertionSort fun a b => le' a b := by
  have hold : rows.filter (fun r => profileId r == id) = [] := by
    rw [List.filter_eq_nil_iff]
    intro r hr
    simpa using hrows r hr
  have hnew : (new.mapIdx row).filter (fun r => profileId r == id) = new.mapIdx row := by
    rw [List.filter_eq_self]
    intro r hr
    simpa using mapIdx_refers hid r hr
  have hmap : (new.mapIdx row).map columns = new := by
    simp [List.mapIdx_eq_zipIdx_map, Function.comp_def, hcolumns, List.zipIdx_map_fst]
  rw [children, List.filter_append, hold, hnew, List.nil_append,
    List.map_insertionSort (fun a b => le a b = true) (fun a b => le' a b = true), hmap]
  intro r _ s _
  rw [hle]

section
variable [Collation]

def load (db : ProfileStore) (profile : EmployeeProfile) : StoredProfile where
  id := profile.id
  environment := profile.environment
  employeeId := profile.employeeId
  role := profile.role
  seniority := profile.seniority
  weeklyCapacityHours := profile.weeklyCapacityHours
  mentoringAvailable := profile.mentoringAvailable
  jiraAccountId := profile.jiraAccountId
  version := profile.version
  skills := children db.skills.rows EmployeeSkill.profileId profile.id (fun a b => Collation.le a.skill b.skill)
    EmployeeSkill.columns
  allocations := children db.allocations.rows CapacityAllocation.profileId profile.id
    (fun a b => Collation.le a.projectKey b.projectKey) CapacityAllocation.columns
  capacityOverrides := children db.overrides.rows CapacityOverrideRow.profileId profile.id
    (fun a b => a.startsAt ≤ b.startsAt) CapacityOverrideRow.columns

/-- `SELECT ... WHERE environment, employee_id`. -/
def findProfile (profiles : Table EmployeeProfile) (environment : Environment) (employeeId : String) :
    Option EmployeeProfile :=
  profiles.find? fun p => p.environment == environment && p.employeeId == employeeId

/-- `ProfileRepository.get`. -/
def getProfile (db : ProfileStore) (environment : Environment) (employeeId : String) : Option StoredProfile :=
  (findProfile db.profiles environment employeeId).map (load db)

/-- `ProfileRepository.create`. -/
def createProfile [Sha256] (db : ProfileStore) (c : ProfileCreate) (ids : DrawnIds) (auditedAt : DateTime) :
    Except Error (ProfileStore × StoredProfile) :=
  match hp : db.profiles.insert (c.profileRow ids) with
  | none => .error (.integrityError "employee_profiles")
  | some profiles =>
    match hs : db.skills.insertAll (c.skills.mapIdx (c.skillRow ids)) with
    | none => .error (.integrityError "employee_skills")
    | some skills =>
      match ha : db.allocations.insertAll (c.allocations.mapIdx (c.allocationRow ids)) with
      | none => .error (.integrityError "capacity_allocations")
      | some allocations =>
        match ho : db.overrides.insertAll (c.capacityOverrides.mapIdx (c.overrideRow ids)) with
        | none => .error (.integrityError "capacity_overrides")
        | some overrides => do
          let audit ← AuditRepository.append db.audit c.environment c.entry ids.audit auditedAt
          let db : ProfileStore :=
            { profiles, skills, allocations, overrides, audit
              skills_refer := refers_add db.skills_refer hp hs (mapIdx_refers fun _ _ => rfl)
              allocations_refer := refers_add db.allocations_refer hp ha (mapIdx_refers fun _ _ => rfl)
              overrides_refer := refers_add db.overrides_refer hp ho (mapIdx_refers fun _ _ => rfl) }
          .ok (db, load db (c.profileRow ids))

/-- What `create` stores and returns: its arguments, each collection in its order. -/
theorem createProfile_ok [Sha256] {db db' : ProfileStore} {c : ProfileCreate} {ids : DrawnIds} {auditedAt : DateTime}
    {stored : StoredProfile} (h : createProfile db c ids auditedAt = .ok (db', stored)) :
    stored = load db' (c.profileRow ids) ∧ db.profiles.insert (c.profileRow ids) = some db'.profiles ∧
      AuditRepository.append db.audit c.environment c.entry ids.audit auditedAt = .ok db'.audit ∧
      stored.skills = c.skills.insertionSort (fun a b => Collation.le a.1 b.1) ∧
      stored.allocations = c.allocations.insertionSort (fun a b => Collation.le a.1 b.1) ∧
      stored.capacityOverrides = c.capacityOverrides.insertionSort (fun a b => a.1 ≤ b.1) := by
  unfold createProfile at h
  split at h
  · cases h
  rename_i profiles hp
  split at h
  · cases h
  rename_i skills hs
  split at h
  · cases h
  rename_i allocations ha
  split at h
  · cases h
  rename_i overrides ho
  obtain ⟨audit, haudit, h⟩ := except_bind_ok.mp h
  cases h
  refine ⟨rfl, hp, haudit, ?_, ?_, ?_⟩
  · show children skills.rows _ _ _ _ = _
    rw [Table.insertAll_rows hs]
    exact children_added (db.skills_refer.ne hp) (fun _ _ => rfl) (fun _ _ => rfl) fun _ _ => rfl
  · show children allocations.rows _ _ _ _ = _
    rw [Table.insertAll_rows ha]
    exact children_added (db.allocations_refer.ne hp) (fun _ _ => rfl) (fun _ _ => rfl) fun _ _ => rfl
  · show children overrides.rows _ _ _ _ = _
    rw [Table.insertAll_rows ho]
    have h := @children_added _ _ db.overrides.rows c.capacityOverrides (c.overrideRow ids)
      CapacityOverrideRow.profileId CapacityOverrideRow.columns (c.profileRow ids).id
      (fun a b => a.startsAt ≤ b.startsAt) (fun a b => a.1 ≤ b.1) (db.overrides_refer.ne hp) (fun _ _ => rfl)
      (fun _ _ => rfl) fun _ _ => rfl
    simpa using h

end

/-! ## Rows -/

section
variable {profiles profiles' : Table EmployeeProfile} {environment : Environment} {employeeId : String}
  {p : EmployeeProfile}

theorem findProfile_eq_some : findProfile profiles environment employeeId = some p ↔
    p ∈ profiles.rows ∧ p.environment = environment ∧ p.employeeId = employeeId := by
  constructor
  · intro h
    have hkeys := Table.find?_holds h
    simp only [Bool.and_eq_true, beq_iff_eq] at hkeys
    exact ⟨Table.find?_mem h, hkeys⟩
  · intro h
    refine Table.find?_eq_some_of_mem h.1 (by simp [h.2]) fun a ha => ?_
    simp only [Bool.and_eq_true, beq_iff_eq] at ha
    exact clashes_byIdAnd.mpr (.inr (by rw [ha.1, ha.2, h.2.1, h.2.2]))

/-- A profile is inserted only where none has its key. -/
theorem findProfile_none {r : EmployeeProfile} (h : profiles.insert r = some profiles') :
    findProfile profiles r.environment r.employeeId = none := by
  refine Table.find?_eq_none_of fun a ha => ?_
  have hne := (not_clashes_byIdAnd.mp (Table.insert_fresh h a ha)).2
  by_contra hfound
  simp only [Bool.not_eq_false, Bool.and_eq_true, beq_iff_eq] at hfound
  exact hne (by rw [hfound.1, hfound.2])

/-- An inserted profile is found under its key, and changes nothing else. -/
theorem findProfile_insert {r : EmployeeProfile} (h : profiles.insert r = some profiles') :
    findProfile profiles' environment employeeId = if r.environment = environment ∧ r.employeeId = employeeId then some r
      else findProfile profiles environment employeeId := by
  have hfind := @Table.find?_insert _ _ profiles profiles' r
    (fun p => p.environment == environment && p.employeeId == employeeId) h
  unfold findProfile
  by_cases hkey : r.environment = environment ∧ r.employeeId = employeeId
  · obtain ⟨rfl, rfl⟩ := hkey
    have hnone := findProfile_none h
    unfold findProfile at hnone
    rw [hfind, hnone, if_pos (And.intro rfl rfl), if_pos (by simp), Option.none_or]
  · rw [hfind, if_neg hkey, if_neg (by simpa using hkey), Option.or_none]

/-- What `create` returns is what is read under its key. -/
theorem getProfile_created [Collation] [Sha256] {db db' : ProfileStore} {c : ProfileCreate} {ids : DrawnIds}
    {auditedAt : DateTime} {stored : StoredProfile} (h : createProfile db c ids auditedAt = .ok (db', stored)) :
    getProfile db' c.environment c.employeeId = some stored := by
  obtain ⟨rfl, hp, _⟩ := createProfile_ok h
  have hfind := @findProfile_insert db.profiles db'.profiles c.environment c.employeeId (c.profileRow ids) hp
  rw [getProfile, hfind, if_pos ⟨rfl, rfl⟩, Option.map_some]

end

/-! ## Updating -/

/-- The row a capacity update compares. -/
def isVersion (profileId : Uuid) (expectedVersion : Nat) (p : EmployeeProfile) : Bool :=
  p.id == profileId && p.version == expectedVersion

def EmployeeProfile.setCapacity (capacityHours : Rat) (p : EmployeeProfile) : EmployeeProfile :=
  { p with weeklyCapacityHours := capacityHours, version := p.version + 1 }

theorem EmployeeProfile.setCapacity_key (capacityHours : Rat) (p : EmployeeProfile) :
    Keyed.key (p.setCapacity capacityHours) = Keyed.key p := rfl

/-- `ProfileRepository.update_capacity`: whether it changed one row. -/
def updateCapacity (profiles : Table EmployeeProfile) (profileId : Uuid) (expectedVersion : Nat) (capacityHours : Rat) :
    Table EmployeeProfile × Bool :=
  (profiles.update (isVersion profileId expectedVersion) (EmployeeProfile.setCapacity capacityHours)
    (EmployeeProfile.setCapacity_key capacityHours), profiles.count (isVersion profileId expectedVersion) == 1)

end WorkforceRisk.Profiles
