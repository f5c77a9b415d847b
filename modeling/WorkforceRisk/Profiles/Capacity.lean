/-
  WorkforceRisk.Profiles.Capacity — the capacity that is in force
  (domain/workforce_risk/profiles.py `effective_capacity`).

  The first override whose window has the instant counts, in the order they are listed;
  without one the weekly capacity does. A profile's windows do not overlap, so that at
  most one is in force and their order does not matter (`one_override_in_force`).
-/

import WorkforceRisk.Profiles.Model

namespace WorkforceRisk.Profiles

open Lib Persistence Historical Evidence

/-- `override.starts_at <= at < override.ends_at`. -/
def CapacityOverride.inForce (at_ : DateTime) (o : CapacityOverride) : Bool :=
  within CapacityOverride.startsAt CapacityOverride.endsAt at_ o

/-- The loop over the overrides. -/
def capacityAt (weeklyCapacityHours : Rat) (overrides : List CapacityOverride) (at_ : DateTime) : Rat :=
  match overrides.find? (·.inForce at_) with
  | some o => o.capacityHours
  | none => weeklyCapacityHours

/-- No instant is in two of the windows. -/
def Disjoint (overrides : List CapacityOverride) : Prop :=
  overrides.Pairwise fun a b => ∀ at_, ¬ (a.inForce at_ = true ∧ b.inForce at_ = true)

theorem disjoint_iff {overrides : List CapacityOverride} :
    Disjoint overrides ↔ overrides.Pairwise (Apart CapacityOverride.startsAt CapacityOverride.endsAt) := by
  constructor
  · intro h
    exact h.imp fun {a b} hab => (apart_iff a.window b.window).mpr hab
  · intro h
    exact h.imp fun {a b} hab => (apart_iff a.window b.window).mp hab

section
variable [Unicode] [FloatSum]

def WorkforceProfile.effectiveCapacity (p : WorkforceProfile) (at_ : DateTime) : Rat :=
  capacityAt p.weeklyCapacityHours p.capacityOverrides at_

theorem WorkforceProfile.apart (p : WorkforceProfile) :
    p.capacityOverrides.Pairwise (Apart CapacityOverride.startsAt CapacityOverride.endsAt) :=
  (validateProfile_iff.mp p.valid).2.2.2

theorem WorkforceProfile.countP_inForce (p : WorkforceProfile) (at_ : DateTime) :
    p.capacityOverrides.countP (·.inForce at_) ≤ 1 :=
  countP_within_le (fun o _ => o.window) p.apart at_

/-- In a profile that is accepted at most one override is in force, and the capacity is that
    of any order of the overrides, which is accepted too; and a profile is accepted if its
    skills and allocations are unique, these within the limit, and its windows disjoint. -/
theorem one_override_in_force (p : WorkforceProfile) (at_ : DateTime) (skills : List DocumentedSkill)
    (allocations : List ProjectAllocation) (overrides : List CapacityOverride) :
    p.capacityOverrides.countP (·.inForce at_) ≤ 1 ∧
    (p.capacityOverrides.Perm overrides →
      validateProfile p.documentedSkills p.projectAllocations overrides = .ok () ∧
        capacityAt p.weeklyCapacityHours overrides at_ = p.effectiveCapacity at_) ∧
    ((skills.map fun skill => casefold skill.name).Nodup → (allocations.map (·.projectKey)).Nodup →
      FloatSum.sum (allocations.map (·.fraction)) ≤ maxAllocation → Disjoint overrides →
        validateProfile skills allocations overrides = .ok ()) := by
  refine ⟨p.countP_inForce at_, fun hperm => ⟨?_, ?_⟩, fun hs ha hf ho => ?_⟩
  · obtain ⟨hs, ha, hf, ho⟩ := validateProfile_iff.mp p.valid
    exact validateProfile_iff.mpr ⟨hs, ha, hf, (hperm.pairwise_iff fun h => h.symm).mp ho⟩
  · rw [WorkforceProfile.effectiveCapacity, capacityAt, capacityAt, find?_perm hperm (p.countP_inForce at_)]
  · exact validateProfile_iff.mpr ⟨hs, ha, hf, disjoint_iff.mp ho⟩

end

/-- Half time first, then leave from the hour the half time ends. -/
def sampleOverrides : List CapacityOverride :=
  [⟨10, 20, 20, "half time", by decide, by decide, by decide⟩, ⟨20, 30, 0, "leave", by decide, by decide, by decide⟩]

section
attribute [local instance] Unicode.ascii FloatSum.exact

theorem sampleProfile_valid : validateProfile [] [⟨"WFD", 1, by decide, by decide⟩] sampleOverrides = .ok () := by decide +kernel

/-- Someone with one project, and two changes of capacity that touch. -/
def sampleProfile : WorkforceProfile where
  employeeId := "EMP-001"
  environment := .dev
  role := "Engineer"
  seniority := .senior
  documentedSkills := []
  weeklyCapacityHours := 40
  projectAllocations := [⟨"WFD", 1, by decide, by decide⟩]
  mentoringAvailable := true
  capacityOverrides := sampleOverrides
  jiraAccountId := some "acc-1"
  version := 1
  employeeId_ok := by decide
  role_ok := by decide
  weeklyCapacityHours_ok := by decide
  jiraAccountId_ok := by decide
  version_ok := Nat.one_pos
  valid := sampleProfile_valid

/-- Listed the other way round, the overrides give the same capacity: none from the leave on. -/
theorem one_override_in_force_sample : capacityAt 40 sampleOverrides.reverse 20 = 0 ∧
    validateProfile [] [] sampleOverrides = .ok () := by
  obtain ⟨-, hreversed, hdisjoint⟩ := one_override_in_force sampleProfile 20 [] [] sampleOverrides.reverse
  obtain ⟨-, hcapacity⟩ := hreversed (List.reverse_perm _).symm
  obtain ⟨-, -, haccepted⟩ := one_override_in_force sampleProfile 20 [] [] sampleOverrides
  refine ⟨hcapacity.trans (by decide +kernel), haccepted (by decide) (by decide) (by decide +kernel) ?_⟩
  exact disjoint_iff.mpr sampleProfile.apart

end

end WorkforceRisk.Profiles
