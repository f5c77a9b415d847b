/-
  WorkforceRisk.Scoring.Accounts — scores account for exactly the available evidence.

  A factor is evidenced if the input has a value and a reference for it. Of both scorers
  (`scores_account_for_evidence`):
  - there is no score exactly when mandatory hours are missing (overload), the evidence is
    too old, or the evidenced factors weigh less than 0.6 together;
  - with a score, the reported factors are the evidenced ones and the missing ones are the
    others, each in the order of the configuration; every normalized value is in 0..1; the
    score is in 0..100 and within one half of the sum of the points (`near_points`: where
    the weights' tolerance takes the sum past 100, the score is 100); and the confidence is
    that of the reported weight.
-/

import WorkforceRisk.Scoring.Scorers

namespace WorkforceRisk.Scoring

open Lib Persistence Risk

/-- A dict made from the entries of another has its entries under the same keys. -/
theorem find?_map_entries {α β : Type} {entries : List (String × α)} {value : String × α → β} {name : String} :
    (entries.map fun entry => (entry.1, value entry)).find? (·.1 == name) =
      (entries.find? (·.1 == name)).map fun entry => (entry.1, value entry) :=
  List.find?_map

/-! ## What an input says of a factor -/

def utilization (i : EmployeeOverloadInput) : Option Rat :=
  i.remainingEstimatedHours.bind fun remaining => i.availableCapacityHours.map fun capacity => remaining.1 / capacity.1

/-- The value of an overload factor. -/
def factorValue (i : EmployeeOverloadInput) (name : String) : Option Rat :=
  if name = "utilization" then utilization i
  else ((factorInputs.find? (·.1 == name)).bind fun entry => count i entry.2).map fun n : Nat => (n : Rat)

def evidenced (value : String → Option Rat) (references : EvidenceReferences)
    (factor : String × FactorConfiguration) : Bool :=
  (value factor.1).isSome && !(referencesOf references factor.1).isEmpty

theorem valueOf_rawValues {i : EmployeeOverloadInput} {remaining : {h : Rat // 0 ≤ h}} {capacity : {h : Rat // 0 < h}}
    (hr : i.remainingEstimatedHours = some remaining) (hc : i.availableCapacityHours = some capacity) :
    valueOf (rawValues i remaining capacity) = factorValue i := by
  funext name
  unfold valueOf rawValues factorValue
  by_cases hname : name = "utilization"
  · subst hname
    rw [List.find?_cons_of_pos (by simp), if_pos rfl, utilization, hr, hc]
    rfl
  · rw [List.find?_cons_of_neg (by simpa using Ne.symm hname), if_neg hname, find?_map_entries]
    cases factorInputs.find? (·.1 == name) with
    | none => rfl
    | some entry => rfl

/-! ## Sums over the factors -/

section
variable {s : Scorer} {factors : Factors} {cs : List FactorContribution}

theorem isAvailable_eq (factor : String × FactorConfiguration) :
    s.isAvailable factor = evidenced s.value s.references factor := by
  unfold Scorer.isAvailable Scorer.available evidenced
  cases s.value factor.1 with
  | none => rfl
  | some value =>
    cases (referencesOf s.references factor.1).isEmpty with
    | true => rfl
    | false => rfl

theorem evidenced_of_available {factor : String × FactorConfiguration} {a : Available}
    (h : s.available factor = some a) : evidenced s.value s.references factor = true := by
  rw [← isAvailable_eq, Scorer.isAvailable, h]
  rfl

/-- What a contribution has from its factor, the contributions have from the available factors. -/
theorem map_contributions {β : Type} {g : FactorContribution → β} {w : String × FactorConfiguration → β}
    (hg : ∀ factor ∈ factors, ∀ a c, s.available factor = some a → s.Contributes a c → g c = w factor) :
    ∀ {cs : List FactorContribution}, List.Forall₂ s.Contributes (factors.filterMap s.available) cs →
      cs.map g = (factors.filter s.isAvailable).map w := by
  induction factors with
  | nil =>
    intro cs h
    cases h
    rfl
  | cons factor factors ih =>
    intro cs h
    obtain ⟨hfactor, hrest⟩ := List.forall_mem_cons.mp hg
    cases ha : s.available factor with
    | none =>
      rw [List.filterMap_cons_none ha] at h
      rw [List.filter_cons_of_neg (by simp [Scorer.isAvailable, ha])]
      exact ih hrest h
    | some a =>
      rw [List.filterMap_cons_some ha] at h
      rw [List.filter_cons_of_pos (by simp [Scorer.isAvailable, ha])]
      cases h with
      | cons hc hcs => rw [List.map_cons, List.map_cons, hfactor a _ ha hc, ih hrest hcs]

theorem contribution_points {available : List Available} (h : List.Forall₂ s.Contributes available cs) :
    ∀ c ∈ cs, c.contributionPoints = c.normalizedValue * c.weight * 100 := by
  induction h with
  | nil => exact fun _ hc => (nomatch hc)
  | cons hac _ ih => exact List.forall_mem_cons.mpr ⟨by rw [hac.points, hac.weight], ih⟩

/-- The points of the available factors, each normalized to `n`. -/
theorem points_eq {n : String × FactorConfiguration → Rat} (hn : ∀ factor ∈ factors, ∀ a,
    s.available factor = some a → s.normalized a.settings a.value = .ok (n factor))
    (hcs : List.Forall₂ s.Contributes (factors.filterMap s.available) cs) :
    points cs = ((factors.filter s.isAvailable).map fun factor => n factor * factor.2.weight * 100).sum := by
  refine congrArg List.sum (map_contributions (fun factor hf a c ha hc => ?_) hcs)
  have hnormalized : c.normalizedValue = n factor := Except.ok.inj (hc.normalized.symm.trans (hn factor hf a ha))
  rw [hc.points, hnormalized, (Scorer.available_some ha).2.1]

/-- The points are between none and those of the weights. -/
theorem points_range (h : ∀ c ∈ cs, c.contributionPoints = c.normalizedValue * c.weight * 100) :
    0 ≤ points cs ∧ points cs ≤ 100 * (cs.map (·.weight)).sum := by
  induction cs with
  | nil => simp [points]
  | cons c cs ih =>
    obtain ⟨hc, hcs⟩ := List.forall_mem_cons.mp h
    obtain ⟨hlow, hhigh⟩ := ih hcs
    have hweight : 0 ≤ c.normalizedValue * c.weight := mul_nonneg c.normalizedValue_range.1 c.weight_range.1
    have hle : c.normalizedValue * c.weight ≤ c.weight := mul_le_of_le_one_left c.weight_range.1 c.normalizedValue_range.2
    unfold points at hlow hhigh ⊢
    rw [List.map_cons, List.map_cons, List.sum_cons, List.sum_cons, hc]
    constructor
    · linarith
    · linarith

theorem weightOf_filter (p : String × FactorConfiguration → Bool) : weightOf (factors.filter p) ≤ weightOf factors := by
  induction factors with
  | nil => exact le_rfl
  | cons factor factors ih =>
    have hpos := factor.2.weight_range.1
    unfold weightOf at ih ⊢
    rw [List.map_cons, List.sum_cons]
    cases hp : p factor with
    | true =>
      rw [List.filter_cons_of_pos hp, List.map_cons, List.sum_cons]
      linarith
    | false =>
      rw [List.filter_cons_of_neg (by simp [hp])]
      linarith

end

/-- Points that pass 100 by no more than the weights' tolerance are near 100 too. -/
theorem near_points {p : Rat} {n : Int} (hlow : 0 ≤ p) (hhigh : p ≤ 100 * (1 + 1 / 1000000000))
    (hn : n = roundEven (clamp p 0 100)) : |(n : Rat) - p| ≤ 1 / 2 := by
  subst hn
  by_cases hp : p ≤ 100
  · rw [clamp, min_eq_left hp, max_eq_right hlow]
    exact abs_roundEven_sub p
  · have hp : 100 ≤ p := (not_le.mp hp).le
    have hround : roundEven (100 : Rat) = 100 := roundEven_intCast 100
    rw [clamp, min_eq_right hp, max_eq_right (by norm_num), hround, abs_le]
    push_cast
    constructor
    · linarith
    · linarith

theorem confidence_insufficient {coverage : Rat} :
    confidenceForCoverage coverage = .insufficientData ↔ coverage < 3 / 5 := by
  unfold confidenceForCoverage
  by_cases hhigh : 9 / 10 ≤ coverage
  · rw [if_pos hhigh]
    exact ⟨fun h => absurd h (by decide), fun hlt => by linarith⟩
  · rw [if_neg hhigh]
    by_cases hmedium : 3 / 4 ≤ coverage
    · rw [if_pos hmedium]
      exact ⟨fun h => absurd h (by decide), fun hlt => by linarith⟩
    · rw [if_neg hmedium]
      by_cases hlow : 3 / 5 ≤ coverage
      · rw [if_pos hlow]
        exact ⟨fun h => absurd h (by decide), fun hlt => by linarith⟩
      · rw [if_neg hlow]
        exact ⟨fun _ => not_le.mp hlow, fun _ => rfl⟩

/-- Where enough weight is available, the score is that of the values' points. -/
theorem exists_score_of_normalized {s : Scorer} {factors : Factors} (h : Header)
    {n : String × FactorConfiguration → Rat} (hn : ∀ factor ∈ factors, ∀ a, s.available factor = some a →
      s.normalized a.settings a.value = .ok (n factor) ∧ 0 ≤ n factor ∧ n factor ≤ 1)
    (hcoverage : ¬ weightOf (factors.filter s.isAvailable) < 3 / 5) :
    ∃ r k, s.score h confidenceForCoverage factors = .ok r ∧ r.result.score = some k ∧ (k.val : Int) = roundEven
      (clamp ((factors.filter s.isAvailable).map fun factor => n factor * factor.2.weight * 100).sum 0 100) := by
  obtain ⟨r, hr⟩ := s.score_total h confidenceForCoverage factors fun factor hf a ha => ⟨n factor, hn factor hf a ha⟩
  obtain ⟨cs, hcs, ⟨hinsufficient, -⟩ | ⟨-, k, level, hk, -, rfl⟩⟩ := Scorer.score_cases hr
  · exact absurd (confidence_insufficient.mp hinsufficient) hcoverage
  · refine ⟨_, k, hr, rfl, hk.trans ?_⟩
    rw [points_eq (fun factor hf a ha => (hn factor hf a ha).1) hcs]

/-! ## The contract of both scorers -/

/-- A score accounts for the evidenced factors. -/
structure Accounts (factors : Factors) (evidenced : String × FactorConfiguration → Bool) (label : String → String)
    (r : RiskResult) : Prop where
  reported : r.factors.map (·.name) = (factors.filter evidenced).map Prod.fst
  missing : r.missingEvidence = (factors.filter fun factor => !evidenced factor).map fun factor => label factor.1
  normalized : ∀ f ∈ r.factors, 0 ≤ f.normalizedValue ∧ f.normalizedValue ≤ 1
  score : ∃ n : Fin 101, r.score = some n ∧ |(n.val : Rat) - points r.factors| ≤ 1 / 2
  confidence : r.confidence = confidenceForCoverage (r.factors.map (·.weight)).sum

/-- The scorer returns a result, without a score exactly when `unscored` or below the coverage, and one that
    accounts for the evidence otherwise. -/
def AccountsForEvidence (outcome : Except Error ScoredResult) (unscored : Prop) (factors : Factors)
    (evidenced : String × FactorConfiguration → Bool) (label : String → String) : Prop :=
  ∃ r, outcome = .ok r ∧ (r.result.score = none ↔ unscored ∨ weightOf (factors.filter evidenced) < 3 / 5) ∧
    (r.result.score ≠ none → Accounts factors evidenced label r.result)

/-- What a scorer returns on values that are normalized into the range. -/
theorem score_accounts {s : Scorer} {h : Header} {factors : Factors} (hweights : weightOf factors ≤ 1 + 1 / 1000000000)
    {r : ScoredResult} (hr : s.score h confidenceForCoverage factors = .ok r) :
    (r.result.score = none ↔ weightOf (factors.filter (evidenced s.value s.references)) < 3 / 5) ∧
    (r.result.score ≠ none → Accounts factors (evidenced s.value s.references) s.label r.result) := by
  have heq : s.isAvailable = evidenced s.value s.references := funext isAvailable_eq
  obtain ⟨cs, hcs, ⟨hinsufficient, rfl⟩ | ⟨hsufficient, n, level, hn, -, rfl⟩⟩ := Scorer.score_cases hr
  · rw [confidence_insufficient, Scorer.coverage, heq] at hinsufficient
    exact ⟨⟨fun _ => hinsufficient, fun _ => rfl⟩, fun hne => absurd rfl hne⟩
  · have hcoverage : (cs.map (·.weight)).sum = s.coverage factors := by
      rw [map_contributions (w := fun factor => factor.2.weight) (fun _ _ _ _ ha hc => ?_) hcs]
      · rfl
      · rw [hc.weight, (Scorer.available_some ha).2.1]
    refine ⟨⟨fun hnone => ?_, fun hlt => absurd (confidence_insufficient.mpr ?_) hsufficient⟩, fun _ => ?_⟩
    · cases hnone
    · rw [Scorer.coverage, heq]
      exact hlt
    · obtain ⟨hlow, hhigh⟩ := points_range (contribution_points hcs)
      have hle : s.coverage factors ≤ weightOf factors := weightOf_filter _
      rw [hcoverage] at hhigh
      refine ⟨?_, ?_, fun f _ => f.normalizedValue_range, ⟨n, rfl, ?_⟩, ?_⟩
      · rw [← heq]
        exact map_contributions (fun _ _ _ _ ha hc => hc.name.trans (Scorer.available_some ha).1) hcs
      · rw [← heq]
        rfl
      · have hnear := near_points hlow (by linarith) hn
        exact_mod_cast hnear
      · exact congrArg confidenceForCoverage hcoverage.symm

/-! ## The scorers -/

theorem normalizeCapped_ok {settings : FactorConfiguration} (value : Rat) :
    normalizeCapped value settings.normalizationCap = .ok (clamp (value / settings.normalizationCap) 0 1) :=
  if_neg (not_le.mpr settings.normalizationCap_pos)

theorem weights_le (config : ScoreFamilyConfiguration) : weightOf config.factors ≤ 1 + 1 / 1000000000 := by
  have := (abs_le.mp config.weights).2
  linarith

/-- Mandatory hours are missing, or the evidence is too old. -/
def Unscored (i : EmployeeOverloadInput) (config : ScoringConfiguration) (scoredAt : AwareDatetime) : Prop :=
  (i.remainingEstimatedHours = none ∨ i.availableCapacityHours = none) ∨
    config.employeeOverload.maxEvidenceAgeHours < ageHours scoredAt i.evidenceTimestamp

section
variable {i : EmployeeOverloadInput} {config : ScoringConfiguration} {scoredAt : AwareDatetime}

theorem missingMandatory_nil :
    missingMandatory i = [] ↔ ¬ (i.remainingEstimatedHours = none ∨ i.availableCapacityHours = none) := by
  unfold missingMandatory
  cases i.remainingEstimatedHours <;> cases i.availableCapacityHours <;> simp

theorem scoreEmployeeOverload_unscored (h : Unscored i config scoredAt) : ∃ missing excluded,
    scoreEmployeeOverload i config scoredAt = .ok ((overloadHeader i config scoredAt).insufficient missing excluded) := by
  unfold scoreEmployeeOverload
  by_cases hm : missingMandatory i = []
  · rw [if_neg (not_not.mpr hm)]
    rcases h with h | h
    · exact absurd h (missingMandatory_nil.mp hm)
    · exact ⟨_, _, if_pos h⟩
  · exact ⟨_, _, if_pos hm⟩

/-- Any other input is scored by the loop. -/
theorem scoreEmployeeOverload_scored (h : ¬ Unscored i config scoredAt) : ∃ remaining capacity,
    (overloadScorer i remaining capacity).value = factorValue i ∧
      scoreEmployeeOverload i config scoredAt = (overloadScorer i remaining capacity).score
        (overloadHeader i config scoredAt) confidenceForCoverage config.employeeOverload.factors := by
  obtain ⟨hmandatory, hage⟩ := not_or.mp h
  obtain ⟨hremaining, hcapacity⟩ := not_or.mp hmandatory
  obtain ⟨remaining, hr⟩ := Option.ne_none_iff_exists'.mp hremaining
  obtain ⟨capacity, hc⟩ := Option.ne_none_iff_exists'.mp hcapacity
  refine ⟨remaining, capacity, valueOf_rawValues hr hc, ?_⟩
  unfold scoreEmployeeOverload
  rw [if_neg (not_not.mpr (missingMandatory_nil.mpr hmandatory)), if_neg hage, hr, hc]
  rfl

variable (i config scoredAt) in
theorem overload_accounts : AccountsForEvidence (scoreEmployeeOverload i config scoredAt) (Unscored i config scoredAt)
    config.employeeOverload.factors (evidenced (factorValue i) i.evidenceReferences) inputName := by
  by_cases h : Unscored i config scoredAt
  · obtain ⟨missing, excluded, hr⟩ := scoreEmployeeOverload_unscored h
    exact ⟨_, hr, ⟨fun _ => Or.inl h, fun _ => rfl⟩, fun hne => absurd rfl hne⟩
  · obtain ⟨remaining, capacity, hvalue, hscored⟩ := scoreEmployeeOverload_scored h
    obtain ⟨r, hr⟩ := (overloadScorer i remaining capacity).score_total (overloadHeader i config scoredAt)
      confidenceForCoverage config.employeeOverload.factors fun _ _ a _ => ⟨_, normalizeCapped_ok a.value, clamp_range zero_le_one _⟩
    obtain ⟨hnone, haccounts⟩ := score_accounts (weights_le config.employeeOverload) hr
    rw [hvalue] at hnone haccounts
    exact ⟨r, hscored.trans hr, hnone.trans ⟨Or.inr, fun hor => hor.resolve_left h⟩, haccounts⟩

end

/-- The values of a normalized family are in 0..1. -/
def FamilyInput.WellFormed (i : FamilyInput) : Prop := ∀ entry ∈ i.values, ∀ v ∈ entry.2, 0 ≤ v ∧ v ≤ 1

instance (i : FamilyInput) : Decidable i.WellFormed := inferInstanceAs (Decidable (∀ _ ∈ _, _))

theorem FamilyInput.WellFormed.valueOf {i : FamilyInput} (h : i.WellFormed) {name : String} {v : Rat}
    (hv : valueOf i.values name = some v) : 0 ≤ v ∧ v ≤ 1 := by
  obtain ⟨entry, hfind, hentry⟩ := Option.bind_eq_some_iff.mp hv
  exact h entry (List.mem_of_find?_eq_some hfind) v hentry

theorem riskValue_range {settings : FactorConfiguration} {v : Rat} (h : 0 ≤ v ∧ v ≤ 1) :
    0 ≤ riskValue settings v ∧ riskValue settings v ≤ 1 := by
  unfold riskValue
  obtain ⟨hlow, hhigh⟩ := h
  split
  · constructor
    · linarith
    · linarith
  · constructor
    · linarith
    · linarith
  · exact ⟨hlow, hhigh⟩

theorem family_accounts (config : ScoreFamilyConfiguration) (thresholds : List (String × Int)) {i : FamilyInput}
    (h : i.WellFormed) (scoredAt : AwareDatetime) :
    AccountsForEvidence (scoreNormalizedFamily i config thresholds scoredAt)
      (config.maxEvidenceAgeHours < ageHours scoredAt i.evidenceTimestamp) config.factors
      (evidenced (valueOf i.values) i.evidenceReferences) id := by
  unfold scoreNormalizedFamily
  by_cases hage : config.maxEvidenceAgeHours < ageHours scoredAt i.evidenceTimestamp
  · exact ⟨_, if_pos hage, ⟨fun _ => Or.inl hage, fun _ => rfl⟩, fun hne => absurd rfl hne⟩
  · obtain ⟨r, hscore⟩ := (familyScorer i).score_total (familyHeader i config thresholds scoredAt)
      confidenceForCoverage config.factors fun _ _ a ha =>
        ⟨_, rfl, riskValue_range (h.valueOf ((Scorer.available_some ha).2.2.1))⟩
    obtain ⟨hnone, haccounts⟩ := score_accounts (weights_le config) hscore
    refine ⟨r, (if_neg hage).trans hscore, hnone.trans ?_, haccounts⟩
    exact ⟨Or.inr, fun hor => hor.resolve_left hage⟩

/-- Both scorers account for exactly the available evidence. -/
theorem scores_account_for_evidence :
    (∀ (config : ScoringConfiguration) (i : EmployeeOverloadInput) (scoredAt : AwareDatetime),
      AccountsForEvidence (scoreEmployeeOverload i config scoredAt) (Unscored i config scoredAt)
        config.employeeOverload.factors (evidenced (factorValue i) i.evidenceReferences) inputName) ∧
    ∀ (config : ScoreFamilyConfiguration) (thresholds : List (String × Int)) (i : FamilyInput)
      (scoredAt : AwareDatetime), i.WellFormed →
      AccountsForEvidence (scoreNormalizedFamily i config thresholds scoredAt)
        (config.maxEvidenceAgeHours < ageHours scoredAt i.evidenceTimestamp) config.factors
        (evidenced (valueOf i.values) i.evidenceReferences) id :=
  ⟨fun config i scoredAt => overload_accounts i config scoredAt,
    fun config thresholds _ scoredAt h => family_accounts config thresholds h scoredAt⟩

/-! ## A configuration -/

theorem heavy_range : 0 < (7 / 10 : Rat) ∧ (7 / 10 : Rat) ≤ 1 := by norm_num

theorem light_range : 0 < (3 / 10 : Rat) ∧ (3 / 10 : Rat) ≤ 1 := by norm_num

theorem two_pos : 0 < (2 : Rat) := by norm_num

/-- Utilization and overdue work, which has the direction. -/
def sampleFactors (direction : FactorDirection) : Factors :=
  [("utilization", ⟨7 / 10, .increasesRisk, 2, heavy_range, two_pos⟩),
    ("overdue_work", ⟨3 / 10, direction, 2, light_range, two_pos⟩)]

theorem sampleFactors_keys (direction : FactorDirection) : ((sampleFactors direction).map Prod.fst).Nodup := by
  show ["utilization", "overdue_work"].Nodup
  decide

theorem sampleFactors_weights (direction : FactorDirection) :
    |weightOf (sampleFactors direction) - 1| ≤ 1 / 1000000000 := by
  have hsum : weightOf (sampleFactors direction) = 7 / 10 + (3 / 10 + 0) := rfl
  rw [hsum]
  norm_num

def sampleFamily (direction : FactorDirection) : ScoreFamilyConfiguration :=
  ⟨"v1", 2, sampleFactors direction, two_pos, sampleFactors_keys direction, sampleFactors_weights direction⟩

def sampleReferences : EvidenceReferences := [("utilization", ["jira:WFD"]), ("overdue_work", ["jira:WFD-1"])]

def sampleFamilyInput (utilization overdueWork : Rat) : FamilyInput :=
  ⟨"EMP-1", .dev, [("utilization", some utilization), ("overdue_work", some overdueWork)], sampleReferences, ⟨0, 0⟩⟩

theorem scores_account_for_evidence_sample :
    ∃ r, scoreNormalizedFamily (sampleFamilyInput (1 / 2) 1) (sampleFamily .protective) [] ⟨0, 0⟩ = .ok r ∧
      r.result.score ≠ none ∧ r.result.factors.map (·.name) = ["utilization", "overdue_work"] := by
  obtain ⟨r, hr, hnone, haccounts⟩ := scores_account_for_evidence.2 (sampleFamily .protective) []
    (sampleFamilyInput (1 / 2) 1) ⟨0, 0⟩ (by decide +kernel)
  have hscored : r.result.score ≠ none := fun h => absurd (hnone.mp h) (by decide +kernel)
  exact ⟨r, hr, hscored, (haccounts hscored).reported.trans (by decide +kernel)⟩

end WorkforceRisk.Scoring
