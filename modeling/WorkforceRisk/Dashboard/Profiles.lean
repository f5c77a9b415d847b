/-
  WorkforceRisk.Dashboard.Profiles — the dashboard's profiles from the stored ones
  (services/agent-api/src/agent_api/routes/dashboard.py `_database_workforce_profiles`).

  Of each stored profile with an account and a share of the project the dashboard makes a
  profile of its own, whose capacity is that share of what is in force. A stored override
  may be of no hours, as leave is; the dashboard's capacity has to be positive. So the
  leave of one employee fails the load for all (`loads_iff`). Hours are exact.
-/

import WorkforceRisk.Dashboard.Service
import WorkforceRisk.Mcp.ProfileTools
import WorkforceRisk.Profiles.Capacity

namespace WorkforceRisk.Dashboard

open Lib Persistence Historical Profiles Mcp

/-- `dict(pairs).get(key)`: the last pair of a key counts. -/
def getLast {β : Type} (pairs : List (String × β)) (key : String) : Option β :=
  (pairs.reverse.find? (·.1 == key)).map (·.2)

/-- `result[key] = value`. -/
def assign {β : Type} (result : List (String × β)) (key : String) (value : β) : List (String × β) :=
  if result.any (·.1 == key) then result.map fun e => if e.1 == key then (key, value) else e
  else result ++ [(key, value)]

/-- `next((capacity for ... if starts_at <= now < ends_at), weekly_capacity_hours)`. -/
def weeklyCapacity (stored : StoredProfile) (now : DateTime) : Rat :=
  match stored.capacityOverrides.find? (within Prod.fst (fun o => o.2.1) now) with
  | some o => o.2.2.1
  | none => stored.weeklyCapacityHours

/-- The dashboard's `WorkforceProfile(...)` of a stored one. -/
def dashboardProfile (stored : StoredProfile) (capacityHours : Rat) : Except Error WorkforceProfile :=
  if hid : stored.employeeId ≠ "" then
    if hcapacity : 0 < capacityHours then .ok
      { employeeId := stored.employeeId
        displayName := stored.employeeId
        role := some stored.role
        capacityHours := ⟨capacityHours, hcapacity⟩
        skills := stored.skills.map (·.1)
        employeeId_ok := hid
        displayName_ok := hid }
    else .error (.validationError "capacity_hours" "Input should be greater than 0")
  else .error (.validationError "employee_id" "String should have at least 1 character")

/-- One turn of the loop. -/
def loadProfile (projectKey : String) (now : DateTime) (result : List (String × WorkforceProfile))
    (stored : StoredProfile) : Except Error (List (String × WorkforceProfile)) :=
  match stored.jiraAccountId, getLast stored.allocations projectKey with
  | some account, some allocation => do
    let profile ← dashboardProfile stored (weeklyCapacity stored now * allocation)
    .ok (assign result account profile)
  | _, _ => .ok result

def databaseWorkforceProfiles (profiles : List StoredProfile) (projectKey : String) (now : DateTime) :
    Except Error (List (String × WorkforceProfile)) :=
  profiles.foldlM (loadProfile projectKey now) []

/-! ## What it should load -/

section
variable [Unicode] [FloatSum]

/-- A profile's account and its share of a project. -/
def shareOf (projectKey : String) (p : Profiles.WorkforceProfile) : Option (String × Rat) :=
  match p.jiraAccountId, p.projectAllocations.find? (·.projectKey == projectKey) with
  | some account, some allocation => some (account, allocation.fraction)
  | _, _ => none

/-- The account, the employee and the capacity a profile comes to. -/
def entryOf (projectKey : String) (now : DateTime) (p : Profiles.WorkforceProfile) : Option (String × String × Rat) :=
  (shareOf projectKey p).map fun share => (share.1, p.employeeId, p.effectiveCapacity now * share.2)

def entryShown (e : String × WorkforceProfile) : String × String × Rat := (e.1, e.2.employeeId, e.2.capacityHours.1)

/-- The load returns, with one entry for each profile that has a share. -/
def Loads (profiles : List Profiles.WorkforceProfile) (projectKey : String) (now : DateTime)
    (outcome : Except Error (List (String × WorkforceProfile))) : Prop :=
  ∃ result, outcome = .ok result ∧ result.map entryShown = profiles.filterMap (entryOf projectKey now)

/-- No override in force leaves someone with a share without hours. -/
def NoneOnLeave (profiles : List Profiles.WorkforceProfile) (projectKey : String) (now : DateTime) : Prop :=
  ∀ p ∈ profiles, (shareOf projectKey p).isSome → ∀ o ∈ p.capacityOverrides, o.inForce now = true → o.capacityHours ≠ 0

/-! ## One profile -/

variable {projectKey account : String} {now : DateTime} {stored : StoredProfile} {p : Profiles.WorkforceProfile}
  {result : List (String × WorkforceProfile)} {fraction : Rat}

omit [Unicode] [FloatSum] in
theorem assign_fresh {β : Type} {result : List (String × β)} {key : String} (h : key ∉ result.map Prod.fst) (value : β) :
    assign result key value = result ++ [(key, value)] := by
  refine if_neg fun hany => h ?_
  obtain ⟨e, he, hkey⟩ := List.any_eq_true.mp hany
  exact List.mem_map.mpr ⟨e, he, eq_of_beq hkey⟩

omit [Unicode] [FloatSum] in
/-- With distinct keys the last pair of a key is the first. -/
theorem getLast_eq {β : Type} {pairs : List (String × β)} (h : (pairs.map Prod.fst).Nodup) (key : String) :
    getLast pairs key = (pairs.find? (·.1 == key)).map (·.2) := by
  rw [getLast, find?_perm (List.reverse_perm pairs)]
  rw [List.countP_reverse]
  exact countP_key_le h key

theorem weeklyCapacity_shown (h : Shows stored p) (now : DateTime) :
    weeklyCapacity stored now = p.effectiveCapacity now := by
  obtain ⟨_, _, _, _, hweekly, _, _, _, _, _, hoverrides⟩ := h
  rw [weeklyCapacity, WorkforceProfile.effectiveCapacity, capacityAt, hoverrides, hweekly, List.find?_map]
  have hsame : (within Prod.fst (fun o : DateTime × DateTime × Rat × String => o.2.1) now ∘ overrideColumns) =
      (CapacityOverride.inForce now) := rfl
  rw [hsame]
  cases p.capacityOverrides.find? (CapacityOverride.inForce now) <;> rfl

theorem allocation_shown (h : Shows stored p) (projectKey : String) :
    getLast stored.allocations projectKey =
      (p.projectAllocations.find? (·.projectKey == projectKey)).map (·.fraction) := by
  obtain ⟨_, _, _, _, _, _, _, _, _, hallocations, _⟩ := h
  obtain ⟨_, hnodup, _, _⟩ := validateProfile_iff.mp p.valid
  rw [hallocations, getLast_eq, List.find?_map, Option.map_map]
  · rfl
  · rw [List.map_map]; exact hnodup

theorem shareOf_pos (h : shareOf projectKey p = some (account, fraction)) : 0 < fraction := by
  unfold shareOf at h
  split at h
  · rename_i allocation _ _
    cases h
    exact allocation.fraction_ok.1
  · cases h

theorem shareOf_account (h : shareOf projectKey p = some (account, fraction)) : p.jiraAccountId = some account := by
  unfold shareOf at h
  split at h
  · rename_i ha _
    cases h
    exact ha
  · cases h

theorem effectiveCapacity_nonneg (p : Profiles.WorkforceProfile) (now : DateTime) : 0 ≤ p.effectiveCapacity now := by
  rw [WorkforceProfile.effectiveCapacity, capacityAt]
  split
  · rename_i o _
    exact o.capacityHours_ok.1
  · exact le_of_lt p.weeklyCapacityHours_ok.1

/-- No hours are left when an override of none is in force: there is no other. -/
theorem effectiveCapacity_eq_zero_iff (p : Profiles.WorkforceProfile) (now : DateTime) :
    p.effectiveCapacity now = 0 ↔ ∃ o ∈ p.capacityOverrides, o.inForce now = true ∧ o.capacityHours = 0 := by
  rw [WorkforceProfile.effectiveCapacity, capacityAt]
  constructor
  · intro h
    cases hfind : p.capacityOverrides.find? (·.inForce now) with
    | none => rw [hfind] at h; exact absurd h (ne_of_gt p.weeklyCapacityHours_ok.1)
    | some o =>
      rw [hfind] at h
      exact ⟨o, List.mem_of_find?_eq_some hfind, List.find?_some hfind, h⟩
  · intro h
    obtain ⟨o, ho, hforce, hzero⟩ := h
    rw [find?_eq_of_mem (p.countP_inForce now) ho hforce]
    exact hzero

/-! ## One turn, and the loop -/

theorem loadProfile_none (h : Shows stored p) (hs : shareOf projectKey p = none) :
    loadProfile projectKey now result stored = .ok result := by
  have haccount : stored.jiraAccountId = p.jiraAccountId := h.2.2.2.2.2.2.1
  rw [shareOf] at hs
  rw [loadProfile, haccount, allocation_shown h]
  cases ha : p.jiraAccountId with
  | none => rfl
  | some account => cases hf : p.projectAllocations.find? (·.projectKey == projectKey) with
    | none => rfl
    | some allocation => rw [ha, hf] at hs; cases hs

theorem loadProfile_share (h : Shows stored p) (hs : shareOf projectKey p = some (account, fraction)) :
    loadProfile projectKey now result stored =
      dashboardProfile stored (p.effectiveCapacity now * fraction) >>= fun profile =>
        .ok (assign result account profile) := by
  have haccount : stored.jiraAccountId = p.jiraAccountId := h.2.2.2.2.2.2.1
  rw [shareOf] at hs
  split at hs
  · rename_i ha hf
    cases hs
    rw [loadProfile, haccount, allocation_shown h, weeklyCapacity_shown h, ha, hf]
    rfl
  · cases hs

/-- With hours in force a profile's entry is added. -/
theorem loadProfile_some (h : Shows stored p) (hs : shareOf projectKey p = some (account, fraction))
    (hcapacity : p.effectiveCapacity now ≠ 0) (hfresh : account ∉ result.map Prod.fst) :
    ∃ profile, loadProfile projectKey now result stored = .ok (result ++ [(account, profile)]) ∧
      some (entryShown (account, profile)) = entryOf projectKey now p := by
  have hid : stored.employeeId ≠ "" := by
    rw [h.1]
    intro hempty
    exact absurd (hempty ▸ p.employeeId_ok) (by decide)
  have hpos : 0 < p.effectiveCapacity now * fraction :=
    mul_pos (lt_of_le_of_ne (effectiveCapacity_nonneg p now) (Ne.symm hcapacity)) (shareOf_pos hs)
  rw [loadProfile_share h hs, dashboardProfile, dif_pos hid, dif_pos hpos]
  refine ⟨_, congrArg Except.ok (assign_fresh hfresh _), ?_⟩
  rw [entryOf, hs, Option.map_some, ← h.1]
  rfl

/-- Without hours the load ends. -/
theorem loadProfile_zero (h : Shows stored p) (hs : shareOf projectKey p = some (account, fraction))
    (hcapacity : p.effectiveCapacity now = 0) : ∃ e, loadProfile projectKey now result stored = .error e := by
  rw [loadProfile_share h hs, hcapacity, zero_mul, dashboardProfile]
  split
  · exact ⟨_, rfl⟩
  · exact ⟨_, rfl⟩

variable {rows : List StoredProfile} {profiles : List Profiles.WorkforceProfile}

/-- The loop over profiles with hours adds an entry for each. -/
theorem loadProfiles_ok (h : List.Forall₂ Shows rows profiles)
    (hcapacity : ∀ p ∈ profiles, (shareOf projectKey p).isSome → p.effectiveCapacity now ≠ 0) :
    ∀ result : List (String × WorkforceProfile),
      (profiles.filterMap (·.jiraAccountId)).Nodup →
      (∀ account ∈ profiles.filterMap (·.jiraAccountId), account ∉ result.map Prod.fst) →
      ∃ new, rows.foldlM (loadProfile projectKey now) result = .ok (result ++ new) ∧
        new.map entryShown = profiles.filterMap (entryOf projectKey now) := by
  induction h with
  | nil => exact fun _ _ _ => ⟨[], by rw [List.append_nil]; rfl, rfl⟩
  | @cons stored p rows profiles hp _ ih =>
    intro result hnodup hfresh
    have ih := ih fun q hq => hcapacity q (List.mem_cons_of_mem _ hq)
    cases hs : shareOf projectKey p with
    | none =>
      have hentry : entryOf projectKey now p = none := by rw [entryOf, hs, Option.map_none]
      have hsublist : (profiles.filterMap (·.jiraAccountId)).Sublist ((p :: profiles).filterMap (·.jiraAccountId)) :=
        (List.sublist_cons_self p profiles).filterMap _
      rw [List.foldlM_cons, loadProfile_none hp hs, List.filterMap_cons_none hentry]
      exact ih result (hnodup.sublist hsublist) fun account ha => hfresh account (hsublist.subset ha)
    | some share =>
      obtain ⟨account, fraction⟩ := share
      have haccount : p.jiraAccountId = some account := shareOf_account hs
      rw [List.filterMap_cons_some haccount] at hnodup hfresh
      obtain ⟨hnew, hrest⟩ := List.nodup_cons.mp hnodup
      obtain ⟨profile, hload, hshown⟩ := loadProfile_some hp hs
        (hcapacity p List.mem_cons_self (by rw [hs]; rfl)) (hfresh account List.mem_cons_self)
      -- what this turn adds is the account of no later profile
      obtain ⟨new, hloop, hentries⟩ := ih (result ++ [(account, profile)]) hrest fun other ho hin => by
        rw [List.map_append, List.mem_append] at hin
        rcases hin with hin | hin
        · exact hfresh other (List.mem_cons_of_mem _ ho) hin
        · obtain rfl : other = account := List.mem_singleton.mp hin
          exact hnew ho
      refine ⟨(account, profile) :: new, ?_, ?_⟩
      · rw [List.foldlM_cons, hload]
        refine hloop.trans ?_
        rw [List.append_assoc, List.singleton_append]
      · rw [List.map_cons, hentries, List.filterMap_cons_some hshown.symm]

/-- Someone with a share and no hours ends the loop. -/
theorem loadProfiles_error (h : List.Forall₂ Shows rows profiles)
    (hp : p ∈ profiles) (hs : (shareOf projectKey p).isSome) (hcapacity : p.effectiveCapacity now = 0) :
    ∀ result : List (String × WorkforceProfile),
      ∃ e, rows.foldlM (loadProfile projectKey now) result = .error e := by
  induction h with
  | nil => cases hp
  | @cons stored q rows profiles hq _ ih =>
    intro result
    rw [List.foldlM_cons]
    rcases List.mem_cons.mp hp with rfl | hp
    · obtain ⟨share, hs⟩ := Option.isSome_iff_exists.mp hs
      have hzero : ∃ e, loadProfile projectKey now result stored = .error e := loadProfile_zero hq hs hcapacity
      obtain ⟨e, he⟩ := hzero
      exact ⟨e, by rw [he]; rfl⟩
    · cases hload : loadProfile projectKey now result stored with
      | error e => exact ⟨e, rfl⟩
      | ok next => exact ih hp next

/-- The load returns with an entry for each profile that has a share, its capacity what is
    in force by the share, exactly when no such profile has an override of no hours in force. -/
theorem loads_iff (rows : List StoredProfile) (profiles : List Profiles.WorkforceProfile) (projectKey : String)
    (now : DateTime) (hrows : List.Forall₂ Shows rows profiles)
    (haccounts : (profiles.filterMap (·.jiraAccountId)).Nodup) :
    Loads profiles projectKey now (databaseWorkforceProfiles rows projectKey now) ↔
      NoneOnLeave profiles projectKey now := by
  constructor
  · intro h p hp hs o ho hforce hzero
    obtain ⟨result, hok, _⟩ := h
    obtain ⟨e, he⟩ := loadProfiles_error hrows hp hs
      ((effectiveCapacity_eq_zero_iff p now).mpr ⟨o, ho, hforce, hzero⟩) []
    rw [databaseWorkforceProfiles, he] at hok
    cases hok
  · intro h
    have hcapacity : ∀ p ∈ profiles, (shareOf projectKey p).isSome → p.effectiveCapacity now ≠ 0 := by
      intro p hp hs hzero
      obtain ⟨o, ho, hforce, hnone⟩ := (effectiveCapacity_eq_zero_iff p now).mp hzero
      exact h p hp hs o ho hforce hnone
    obtain ⟨new, hload, hentries⟩ := loadProfiles_ok hrows hcapacity [] haccounts (by simp)
    exact ⟨new, hload, hentries⟩

end

/-! ## One on leave -/

section
attribute [local instance] Unicode.ascii FloatSum.exact

/-- The rows of `sampleProfile`. -/
def sampleStored : StoredProfile where
  id := 1
  environment := .dev
  employeeId := "EMP-001"
  role := "Engineer"
  seniority := "senior"
  weeklyCapacityHours := 40
  mentoringAvailable := true
  jiraAccountId := some "acc-1"
  version := 1
  skills := []
  allocations := [("WFD", 1)]
  capacityOverrides := sampleOverrides.map overrideColumns

theorem sampleStored_shows : Shows sampleStored sampleProfile :=
  ⟨rfl, rfl, rfl, rfl, rfl, rfl, rfl, rfl, rfl, rfl, rfl⟩

/-- While the leave is in force nothing is loaded. -/
theorem leave_fails_the_load : List.Forall₂ Shows [sampleStored] [sampleProfile] ∧
    ¬ Loads [sampleProfile] "WFD" 25 (databaseWorkforceProfiles [sampleStored] "WFD" 25) := by
  refine ⟨.cons sampleStored_shows .nil, fun h => ?_⟩
  have hfails : ∃ e, databaseWorkforceProfiles [sampleStored] "WFD" 25 = .error e :=
    loadProfiles_error (.cons sampleStored_shows .nil) (List.mem_singleton_self sampleProfile) (by decide)
      (by decide +kernel) []
  obtain ⟨e, he⟩ := hfails
  obtain ⟨result, hok, _⟩ := h
  rw [he] at hok
  cases hok

/-- Before it the profile is loaded, at half time. -/
theorem loads_before_leave : Loads [sampleProfile] "WFD" 15 (databaseWorkforceProfiles [sampleStored] "WFD" 15) := by
  refine (loads_iff [sampleStored] [sampleProfile] "WFD" 15 (.cons sampleStored_shows .nil) (by decide)).mpr ?_
  intro p hp _ o ho hforce
  obtain rfl := List.mem_singleton.mp hp
  have hhours : ∀ o ∈ sampleOverrides, o.inForce 15 = true → o.capacityHours ≠ 0 := by decide +kernel
  exact hhours o ho hforce

end

end WorkforceRisk.Dashboard
