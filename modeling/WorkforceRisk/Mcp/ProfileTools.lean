/-
  WorkforceRisk.Mcp.ProfileTools — `create_profile`
  (services/workforce-risk-mcp/src/workforce_risk_mcp/server.py, tools/profiles.py).

  A request is checked field by field, and so is each skill, allocation and override in it;
  what a profile is checked for as a whole (`validateProfile`) the request is not, nor are
  the rows. `created_reads_back_iff` says for which requests the rows that are stored are
  those of a profile: exactly for those whose collections pass that check themselves.
-/

import WorkforceRisk.Mcp.ReassignmentTools
import WorkforceRisk.Profiles.Repository

namespace WorkforceRisk.Mcp

open Lib Persistence Historical Contracts Profiles Evidence

/-- The pattern `^EMP-00[1-7]$`. -/
def isEmployeeNumber (s : String) : Bool :=
  match s.toList with
  | ['E', 'M', 'P', '-', '0', '0', d] => d ∈ ['1', '2', '3', '4', '5', '6', '7']
  | _ => false

theorem isKey_of_isEmployeeNumber {s : String} (h : isEmployeeNumber s = true) : isKey 2 s = true := by
  unfold isEmployeeNumber at h
  split at h
  · rename_i d hs
    rw [isKey, hs]
    simp only [List.mem_cons, List.not_mem_nil, or_false, decide_eq_true_eq] at h
    rcases h with rfl | rfl | rfl | rfl | rfl | rfl | rfl <;> decide
  · cases h

structure ProfileCreateRequest where
  projectKey : String
  employeeId : String
  role : String
  seniority : Seniority
  documentedSkills : List DocumentedSkill
  weeklyCapacityHours : Rat
  projectAllocations : List ProjectAllocation
  mentoringAvailable : Bool
  capacityOverrides : List CapacityOverride
  jiraAccountId : Option String
  projectKey_ok : isKey 1 projectKey = true
  employeeId_ok : isEmployeeNumber employeeId = true
  role_ok : isText 128 role = true
  weeklyCapacityHours_ok : 0 < weeklyCapacityHours ∧ weeklyCapacityHours ≤ 168
  jiraAccountId_ok : isAccountId jiraAccountId = true

def authorizeProfileChange (signed : Option VerifiedInternalContext) (secret : String) (environment : Environment)
    (projectKey : String) (now : DateTime) : Except Error VerifiedInternalContext :=
  if secret.utf8ByteSize < 32 then .error (.permissionError "profile change is not authorized")
  else match verify signed environment projectKey [.administrator] now with
    | .ok context => .ok context
    | .error _ => .error (.permissionError "profile change is not authorized")

/-- The columns of a skill, of an allocation and of an override. -/
def skillColumns (skill : DocumentedSkill) : String × Nat := (skill.name, skill.proficiency.value)

def allocationColumns (allocation : ProjectAllocation) : String × Rat := (allocation.projectKey, allocation.fraction)

def overrideColumns (o : CapacityOverride) : DateTime × DateTime × Rat × String :=
  (o.startsAt, o.endsAt, o.capacityHours, o.reason)

def ProfileCreateRequest.creation (request : ProfileCreateRequest) (environment : Environment)
    (verified : VerifiedInternalContext) (createdAt : DateTime) : ProfileCreate where
  environment := environment
  employeeId := request.employeeId
  role := request.role
  seniority := request.seniority.value
  weeklyCapacityHours := request.weeklyCapacityHours
  mentoringAvailable := request.mentoringAvailable
  jiraAccountId := request.jiraAccountId
  skills := request.documentedSkills.map skillColumns
  allocations := request.projectAllocations.map allocationColumns
  capacityOverrides := request.capacityOverrides.map overrideColumns
  actorId := verified.actorId
  correlationId := verified.correlationId
  createdAt := createdAt

/-- The clock is read when the caller is authorized, when the profile is created and when
    its event is appended. -/
structure Clock where
  authorized : DateTime
  created : DateTime
  audited : DateTime

section
variable [Sha256] [Collation]

def createProfileTool (config : ServerConfig) (db : ProfileStore) (request : ProfileCreateRequest)
    (signed : Option VerifiedInternalContext) (ids : DrawnIds) (clock : Clock) :
    Except Error (ProfileStore × StoredProfile) :=
  if !(isSet config.internalAuthSecret && isSet config.databaseUrl) then
    .error (.runtimeError "protected profile service is not configured")
  else do
    let verified ← authorizeProfileChange signed (config.internalAuthSecret.getD "") config.environment
      request.projectKey clock.authorized
    createProfile db (request.creation config.environment verified clock.created) ids clock.audited

/-! ## What the rows say -/

/-- The rows are those of the profile. -/
def Shows [Unicode] [FloatSum] (stored : StoredProfile) (p : WorkforceProfile) : Prop :=
  stored.employeeId = p.employeeId ∧ stored.environment = p.environment ∧ stored.role = p.role ∧
    stored.seniority = p.seniority.value ∧ stored.weeklyCapacityHours = p.weeklyCapacityHours ∧
    stored.mentoringAvailable = p.mentoringAvailable ∧ stored.jiraAccountId = p.jiraAccountId ∧
    stored.version = p.version ∧ stored.skills = p.documentedSkills.map skillColumns ∧
    stored.allocations = p.projectAllocations.map allocationColumns ∧
    stored.capacityOverrides = p.capacityOverrides.map overrideColumns

/-- Read back as a `WorkforceProfile`, the rows pass its checks. -/
def ReadsBack [Unicode] [FloatSum] (stored : StoredProfile) : Prop := ∃ p : WorkforceProfile, Shows stored p

/-- The allocations in the order they are read back in. -/
def ProfileCreateRequest.allocationsByKey (request : ProfileCreateRequest) : List ProjectAllocation :=
  request.projectAllocations.insertionSort fun a b => Collation.le a.projectKey b.projectKey

/-- What `validateProfile` asks, of the columns of the rows. -/
def RowsAreProfile [Unicode] [FloatSum] (stored : StoredProfile) : Prop :=
  (stored.skills.map fun skill => casefold skill.1).Nodup ∧ (stored.allocations.map Prod.fst).Nodup ∧
    FloatSum.sum (stored.allocations.map Prod.snd) ≤ maxAllocation ∧
    stored.capacityOverrides.Pairwise (Apart Prod.fst fun o => o.2.1)

/-- What `validateProfile` asks, of the lists of the request. -/
def ProfileCreateRequest.IsProfile [Unicode] [FloatSum] (request : ProfileCreateRequest) : Prop :=
  (request.documentedSkills.map fun skill => casefold skill.name).Nodup ∧
    (request.projectAllocations.map (·.projectKey)).Nodup ∧
    FloatSum.sum (request.allocationsByKey.map (·.fraction)) ≤ maxAllocation ∧
    request.capacityOverrides.Pairwise (Apart CapacityOverride.startsAt CapacityOverride.endsAt)

/-! ## Which requests -/

section
variable {config : ServerConfig} {db db' : ProfileStore} {request : ProfileCreateRequest}
  {signed : Option VerifiedInternalContext} {ids : DrawnIds} {clock : Clock} {stored : StoredProfile}

/-- What the tool stores of a request it accepts. -/
theorem createProfileTool_ok (h : createProfileTool config db request signed ids clock = .ok (db', stored)) :
    ∃ verified, createProfile db (request.creation config.environment verified clock.created) ids clock.audited =
      .ok (db', stored) := by
  unfold createProfileTool at h
  split at h
  · cases h
  · obtain ⟨verified, _, h⟩ := except_bind_ok.mp h
    exact ⟨verified, h⟩

/-- What the tool answers is what is read of the employee afterwards. -/
theorem created_is_read (h : createProfileTool config db request signed ids clock = .ok (db', stored)) :
    getProfile db' config.environment request.employeeId = some stored := by
  obtain ⟨verified, h⟩ := createProfileTool_ok h
  exact getProfile_created h

/-- The collections come back as the request has them, but for their order. -/
theorem stored_collections (h : createProfileTool config db request signed ids clock = .ok (db', stored)) :
    stored.skills = (request.documentedSkills.insertionSort fun a b => Collation.le a.name b.name).map skillColumns ∧
      stored.allocations = request.allocationsByKey.map allocationColumns ∧
      stored.capacityOverrides =
        (request.capacityOverrides.insertionSort fun a b => a.startsAt ≤ b.startsAt).map overrideColumns := by
  obtain ⟨verified, h⟩ := createProfileTool_ok h
  obtain ⟨_, _, _, hs, ha, ho⟩ := createProfile_ok h
  rw [hs, ha, ho]
  refine ⟨?_, ?_, ?_⟩
  · exact (List.map_insertionSort _ _ skillColumns _ fun _ _ _ _ => Iff.rfl).symm
  · exact (List.map_insertionSort _ _ allocationColumns _ fun _ _ _ _ => Iff.rfl).symm
  · exact (List.map_insertionSort _ _ overrideColumns _ fun _ _ _ _ => Iff.rfl).symm

variable [Unicode] [FloatSum]

omit [Sha256] [Collation] in
theorem columns_valid_iff {skills : List DocumentedSkill} {allocations : List ProjectAllocation}
    {overrides : List CapacityOverride} (hs : stored.skills = skills.map skillColumns)
    (ha : stored.allocations = allocations.map allocationColumns)
    (ho : stored.capacityOverrides = overrides.map overrideColumns) :
    RowsAreProfile stored ↔ validateProfile skills allocations overrides = .ok () := by
  rw [validateProfile_iff, RowsAreProfile, hs, ha, ho, List.pairwise_map]
  simp only [List.map_map]
  rfl

/-- The rows pass for a profile when the lists of the request do. -/
theorem rows_valid_iff (h : createProfileTool config db request signed ids clock = .ok (db', stored)) :
    RowsAreProfile stored ↔ request.IsProfile := by
  obtain ⟨hs, ha, ho⟩ := stored_collections h
  have hskills := (List.perm_insertionSort (fun a b => Collation.le a.name b.name = true) request.documentedSkills).map
    fun skill => casefold skill.name
  have hallocations := (List.perm_insertionSort (fun a b => Collation.le a.projectKey b.projectKey = true)
    request.projectAllocations).map fun allocation => allocation.projectKey
  have hoverrides := List.perm_insertionSort (fun a b => a.startsAt ≤ b.startsAt) request.capacityOverrides
  rw [columns_valid_iff hs ha ho, validateProfile_iff, ProfileCreateRequest.IsProfile, hskills.nodup_iff,
    hoverrides.pairwise_iff fun h => h.symm]
  exact and_congr_right fun _ => and_congr hallocations.nodup_iff Iff.rfl

/-- The rows `create` stores for an accepted request read back as a profile exactly when
    the request's skills are unique up to case, its allocations are unique and sum to at
    most 1, and its override windows do not overlap: nothing else makes them do so. -/
theorem created_reads_back_iff (h : createProfileTool config db request signed ids clock = .ok (db', stored)) :
    ReadsBack stored ↔ request.IsProfile := by
  obtain ⟨hs, ha, ho⟩ := stored_collections h
  rw [← rows_valid_iff h]
  constructor
  · intro hread
    obtain ⟨p, _, _, _, _, _, _, _, _, hs', ha', ho'⟩ := hread
    exact (columns_valid_iff hs' ha' ho').mpr p.valid
  · intro hrows
    obtain ⟨verified, hcreate⟩ := createProfileTool_ok h
    obtain ⟨rfl, _⟩ := createProfile_ok hcreate
    refine ⟨{ employeeId := request.employeeId
              environment := config.environment
              role := request.role
              seniority := request.seniority
              documentedSkills := _
              weeklyCapacityHours := request.weeklyCapacityHours
              projectAllocations := _
              mentoringAvailable := request.mentoringAvailable
              capacityOverrides := _
              jiraAccountId := request.jiraAccountId
              version := 1
              employeeId_ok := isKey_of_isEmployeeNumber request.employeeId_ok
              role_ok := request.role_ok
              weeklyCapacityHours_ok := request.weeklyCapacityHours_ok
              jiraAccountId_ok := request.jiraAccountId_ok
              version_ok := Nat.le_refl 1
              valid := (columns_valid_iff hs ha ho).mp hrows }, rfl, rfl, rfl, rfl, rfl, rfl, rfl, rfl, hs, ha, ho⟩

end

end

/-! ## Two requests -/

section

attribute [local instance] Sha256.transparent Unicode.ascii FloatSum.exact

/-- Texts in no order of their own. -/
@[reducible] def anyOrder : Collation := ⟨fun _ _ => true⟩

attribute [local instance] anyOrder

def service : ServerConfig :=
  ⟨.dev, some "0123456789abcdef0123456789abcdef", some "postgresql://", none, none, none⟩

def administrator : VerifiedInternalContext := ⟨"admin", .administrator, .dev, ["WRD"], "corr-1", 100⟩

theorem all_of_it : (0 : Rat) < 1 ∧ (1 : Rat) ≤ 1 := by decide

/-- Someone who knows these skills, from nine to five. -/
def withSkills (documentedSkills : List DocumentedSkill) : ProfileCreateRequest where
  projectKey := "WRD"
  employeeId := "EMP-001"
  role := "Analyst"
  seniority := .senior
  documentedSkills := documentedSkills
  weeklyCapacityHours := 36
  projectAllocations := [⟨"WRD", 1, by decide, all_of_it⟩]
  mentoringAvailable := true
  capacityOverrides := [⟨1000, 2000, 18, "training", by decide, by decide, by decide⟩]
  jiraAccountId := some "acc-7"
  projectKey_ok := by decide
  employeeId_ok := by decide
  role_ok := by decide
  weeklyCapacityHours_ok := by decide
  jiraAccountId_ok := by decide

def python : DocumentedSkill := ⟨"Python", .expert, by decide⟩

def pythonAgain : DocumentedSkill := ⟨"python", .beginner, by decide⟩

def numbered : DrawnIds := ⟨1, id, id, id, 1⟩

/-- One skill under two spellings is stored, and no profile has it. -/
theorem a_skill_twice_is_stored : ∃ db' stored,
    createProfileTool service .empty (withSkills [python, pythonAgain]) (some administrator) numbered ⟨1, 2, 3⟩ =
      .ok (db', stored) ∧ ¬ ReadsBack stored := by
  obtain ⟨db', stored, h⟩ : ∃ db' stored, createProfileTool service .empty (withSkills [python, pythonAgain])
      (some administrator) numbered ⟨1, 2, 3⟩ = .ok (db', stored) := ⟨_, _, rfl⟩
  refine ⟨db', stored, h, fun hread => ?_⟩
  obtain ⟨p, _, _, _, _, _, _, _, _, hs, ha, ho⟩ := hread
  have hrequest := (rows_valid_iff h).mp ((columns_valid_iff hs ha ho).mpr p.valid)
  exact absurd hrequest.1 (by decide)

theorem one_skill_reads_back : ∃ db' stored,
    createProfileTool service .empty (withSkills [python]) (some administrator) numbered ⟨1, 2, 3⟩ =
      .ok (db', stored) ∧ ReadsBack stored := by
  obtain ⟨db', stored, h⟩ : ∃ db' stored, createProfileTool service .empty (withSkills [python])
      (some administrator) numbered ⟨1, 2, 3⟩ = .ok (db', stored) := ⟨_, _, rfl⟩
  exact ⟨db', stored, h, (created_reads_back_iff h).mpr
    ⟨by decide, by decide, by decide +kernel, List.pairwise_singleton _ _⟩⟩

end

end WorkforceRisk.Mcp
