/-
  WorkforceRisk.Profiles.Model — an employee's profile and what it is checked for
  (domain/workforce_risk/profiles.py).

  A float is its exact value; `sum` of floats rounds, so what it computes is a parameter
  (`FloatSum`). Capacity and fractions are bounded on both sides and so finite. The
  instants of an override are compared as instants, whatever their offsets.

  `validateProfile` looks at the three collections together: `validateProfile_iff` says
  what it accepts, with the windows in any order.
-/

import Mathlib.Data.Rat.Lemmas
import WorkforceRisk.Evidence.Text
import WorkforceRisk.Lib.Windows
import WorkforceRisk.Persistence.Values

namespace WorkforceRisk.Profiles

open Lib Persistence Historical Evidence

class FloatSum where
  sum : List Rat → Rat

/-- The sum without rounding. -/
@[reducible] def FloatSum.exact : FloatSum := ⟨List.sum⟩

inductive Seniority where
  | junior
  | mid
  | senior
  | lead
  deriving DecidableEq, Repr

def Seniority.value : Seniority → String
  | junior => "junior"
  | mid => "mid"
  | senior => "senior"
  | lead => "lead"

inductive SkillProficiency where
  | aware
  | beginner
  | intermediate
  | advanced
  | expert
  deriving DecidableEq, Repr

def SkillProficiency.value : SkillProficiency → Nat
  | aware => 1
  | beginner => 2
  | intermediate => 3
  | advanced => 4
  | expert => 5

/-- The pattern `^[A-Z][A-Z0-9_-]{least,63}$`. -/
def isKey (least : Nat) (s : String) : Bool :=
  match s.toList with
  | [] => false
  | c :: cs => c.isUpper && decide (least ≤ cs.length ∧ cs.length ≤ 63) &&
    cs.all fun c => c.isUpper || c.isDigit || c == '_' || c == '-'

/-- `Field(min_length=1, max_length=limit)`. -/
def isText (limit : Nat) (s : String) : Bool := decide (1 ≤ s.length ∧ s.length ≤ limit)

/-- `Field(default=None, min_length=1, max_length=256)`. -/
def isAccountId : Option String → Bool
  | none => true
  | some id => isText 256 id

structure DocumentedSkill where
  name : String
  proficiency : SkillProficiency
  name_ok : isText 128 name = true

structure ProjectAllocation where
  projectKey : String
  fraction : Rat
  projectKey_ok : isKey 1 projectKey = true
  fraction_ok : 0 < fraction ∧ fraction ≤ 1

structure CapacityOverride where
  startsAt : DateTime
  endsAt : DateTime
  capacityHours : Rat
  reason : String
  capacityHours_ok : 0 ≤ capacityHours ∧ capacityHours ≤ 168
  reason_ok : isText 256 reason = true
  /-- `validate_window`. -/
  window : startsAt < endsAt

/-- `1 + 1e-9`. -/
def maxAllocation : Rat := 281474976992131 / 281474976710656

section
variable [Unicode] [FloatSum]

def validateProfile (documentedSkills : List DocumentedSkill) (projectAllocations : List ProjectAllocation)
    (capacityOverrides : List CapacityOverride) : Except Error Unit :=
  if ¬ (documentedSkills.map fun skill => casefold skill.name).Nodup then
    .error (.validationError "" "documented skills must be unique")
  else if ¬ (projectAllocations.map (·.projectKey)).Nodup then
    .error (.validationError "" "project allocations must be unique")
  else if maxAllocation < FloatSum.sum (projectAllocations.map (·.fraction)) then
    .error (.validationError "" "project allocations must not exceed 1.0")
  else if !clear CapacityOverride.startsAt CapacityOverride.endsAt capacityOverrides then
    .error (.validationError "" "capacity override windows must not overlap")
  else .ok ()

/-- What the check accepts. -/
theorem validateProfile_iff {skills : List DocumentedSkill} {allocations : List ProjectAllocation}
    {overrides : List CapacityOverride} : validateProfile skills allocations overrides = .ok () ↔
      (skills.map fun skill => casefold skill.name).Nodup ∧ (allocations.map (·.projectKey)).Nodup ∧
        FloatSum.sum (allocations.map (·.fraction)) ≤ maxAllocation ∧
        overrides.Pairwise (Apart CapacityOverride.startsAt CapacityOverride.endsAt) := by
  have hclear : clear CapacityOverride.startsAt CapacityOverride.endsAt overrides = true ↔
      overrides.Pairwise (Apart CapacityOverride.startsAt CapacityOverride.endsAt) := clear_iff fun o _ => o.window
  rw [← hclear]
  unfold validateProfile
  by_cases hs : (skills.map fun skill => casefold skill.name).Nodup
  · by_cases ha : (allocations.map (·.projectKey)).Nodup
    · by_cases hf : maxAllocation < FloatSum.sum (allocations.map (·.fraction))
      · simp [hs, ha, hf, Rat.not_le.mpr hf]
      · cases clear CapacityOverride.startsAt CapacityOverride.endsAt overrides <;> simp [hs, ha, hf, Rat.not_lt.mp hf]
    · simp [hs, ha]
  · simp [hs]

structure WorkforceProfile where
  employeeId : String
  environment : Environment
  role : String
  seniority : Seniority
  documentedSkills : List DocumentedSkill
  weeklyCapacityHours : Rat
  projectAllocations : List ProjectAllocation
  mentoringAvailable : Bool
  capacityOverrides : List CapacityOverride
  jiraAccountId : Option String
  version : Nat
  employeeId_ok : isKey 2 employeeId = true
  role_ok : isText 128 role = true
  weeklyCapacityHours_ok : 0 < weeklyCapacityHours ∧ weeklyCapacityHours ≤ 168
  jiraAccountId_ok : isAccountId jiraAccountId = true
  version_ok : 1 ≤ version
  valid : validateProfile documentedSkills projectAllocations capacityOverrides = .ok ()

end

end WorkforceRisk.Profiles
