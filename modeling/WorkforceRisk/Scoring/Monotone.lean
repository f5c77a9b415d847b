/-
  WorkforceRisk.Scoring.Monotone — riskier evidence does not score lower.

  Two inputs with the same available factors and the same times are compared, each factor
  of the second at least as risky as in the first (`Riskier`: larger where it increases
  the risk, smaller where its direction is the other). The family scorer turns such values
  around and never scores the second lower (`family_monotone`). The overload scorer caps
  them and takes them as they are. Where it scores at all, the points that the evidenced
  factors lose from the one input to the other (`pointsLost`) decide: it scores the second
  no lower where none are lost on the whole (`overload_monotone`), as where no factor that
  lowers the risk changes its capped value (`pointsLost_le`), and lower where more than one
  is (`overload_lower`).
-/

import Mathlib.Algebra.Order.BigOperators.Group.List
import Mathlib.Tactic.SplitIfs
import WorkforceRisk.Scoring.Levels

namespace WorkforceRisk.Scoring

open Lib Persistence Risk

/-- At least as risky, by the direction of the factor. -/
def Riskier (direction : FactorDirection) (v v' : Rat) : Prop :=
  match direction with
  | .increasesRisk => v ≤ v'
  | .inverseRisk | .protective => v' ≤ v

/-- The same factors are evidenced, and each is at least as risky in the second. -/
structure RiskierEvidence (factors : Factors) (value value' : String → Option Rat)
    (references references' : EvidenceReferences) : Prop where
  same : ∀ factor ∈ factors, evidenced value references factor = evidenced value' references' factor
  riskier : ∀ factor ∈ factors, evidenced value references factor = true →
    ∀ v ∈ value factor.1, ∀ v' ∈ value' factor.1, Riskier factor.2.direction v v'

def rank : RiskLevel → Nat
  | .low => 0
  | .medium => 1
  | .high => 2
  | .critical => 3

/-- The second has a score if the first has, and neither its score nor its level is lower. -/
structure NotLower (r r' : RiskResult) : Prop where
  scored : r.score = none ↔ r'.score = none
  score : ∀ n ∈ r.score, ∀ n' ∈ r'.score, n ≤ n'
  level : ∀ l ∈ r.level, ∀ l' ∈ r'.level, rank l ≤ rank l'

theorem NotLower.of_none {r r' : RiskResult} (hs : r.score = none) (hs' : r'.score = none) (hl : r.level = none) :
    NotLower r r' where
  scored := by rw [hs, hs']
  score n hn := by rw [hs] at hn; cases hn
  level l h := by rw [hl] at h; cases h

theorem levelUnder_mono {low medium high n n' : Int} (h : n ≤ n') :
    rank (levelUnder low medium high n) ≤ rank (levelUnder low medium high n') := by
  -- a case has its levels in order, or says of `n` and `n'` what `h` excludes
  unfold levelUnder
  split_ifs <;> first | decide | (exfalso; omega)

/-- The levels go with the scores. -/
theorem NotLower.of_scores {r r' : RiskResult} {n n' : Fin 101} (hn : r.score = some n) (hn' : r'.score = some n')
    (hle : n.val ≤ n'.val) (hl : r.level = some (levelUnder 29 54 74 n.val))
    (hl' : r'.level = some (levelUnder 29 54 74 n'.val)) : NotLower r r' where
  scored := by simp [hn, hn']
  score k hk k' hk' := by
    obtain rfl : n = k := Option.some.inj (hn.symm.trans hk)
    obtain rfl : n' = k' := Option.some.inj (hn'.symm.trans hk')
    exact hle
  level l hk l' hk' := by
    obtain rfl : levelUnder 29 54 74 n.val = l := Option.some.inj (hl.symm.trans hk)
    obtain rfl : levelUnder 29 54 74 n'.val = l' := Option.some.inj (hl'.symm.trans hk')
    exact levelUnder_mono (by exact_mod_cast hle)

/-! ## The loop is monotone in the normalized values -/

theorem clamp_mono {v v' : Rat} (low high : Rat) (h : v ≤ v') : clamp v low high ≤ clamp v' low high :=
  max_le_max le_rfl (min_le_min h le_rfl)

section
variable {s t : Scorer} {factors : Factors}

/-- What `t` normalizes is at least what `s` does, factor by factor. -/
structure Below (s t : Scorer) (factors : Factors) : Prop where
  same : ∀ factor ∈ factors, s.isAvailable factor = t.isAvailable factor
  normalized : ∀ factor ∈ factors, ∀ a b, s.available factor = some a → t.available factor = some b →
    ∀ n m, s.normalized a.settings a.value = .ok n → t.normalized b.settings b.value = .ok m → n ≤ m

theorem points_mono (h : Below s t factors) : ∀ {cs ds : List FactorContribution},
    List.Forall₂ s.Contributes (factors.filterMap s.available) cs →
    List.Forall₂ t.Contributes (factors.filterMap t.available) ds → points cs ≤ points ds := by
  induction factors with
  | nil =>
    intro cs ds hcs hds
    cases hcs
    cases hds
    exact le_rfl
  | cons factor factors ih =>
    intro cs ds hcs hds
    obtain ⟨hsame, hsames⟩ := List.forall_mem_cons.mp h.same
    obtain ⟨hnormalized, hnormalizeds⟩ := List.forall_mem_cons.mp h.normalized
    have ih := @ih ⟨hsames, hnormalizeds⟩
    unfold Scorer.isAvailable at hsame
    cases ha : s.available factor with
    | none =>
      rw [ha, Option.isSome_none] at hsame
      rw [List.filterMap_cons_none ha] at hcs
      rw [List.filterMap_cons_none (Option.not_isSome_iff_eq_none.mp (by simp [← hsame]))] at hds
      exact ih hcs hds
    | some a =>
      rw [ha, Option.isSome_some] at hsame
      obtain ⟨b, hb⟩ := Option.isSome_iff_exists.mp hsame.symm
      rw [List.filterMap_cons_some ha] at hcs
      rw [List.filterMap_cons_some hb] at hds
      cases hcs with
      | cons hc hcs =>
        cases hds with
        | cons hd hds =>
          have hle := hnormalized a b ha hb _ _ hc.normalized hd.normalized
          have hsettings : a.settings = b.settings :=
            (Scorer.available_some ha).2.1.trans (Scorer.available_some hb).2.1.symm
          have hpoints := mul_le_mul_of_nonneg_right hle b.settings.weight_range.1.le
          have := ih hcs hds
          unfold points at this ⊢
          rw [List.map_cons, List.map_cons, List.sum_cons, List.sum_cons, hc.points, hd.points, hsettings]
          linarith

theorem score_mono (h : Below s t factors) {header header' : Header} {confidence : Rat → ConfidenceLevel}
    {r r' : ScoredResult} (hr : s.score header confidence factors = .ok r)
    (hr' : t.score header' confidence factors = .ok r') : NotLower r.result r'.result := by
  have hcoverage : s.coverage factors = t.coverage factors := congrArg weightOf (List.filter_congr h.same)
  have hlevel := (score_level hr).2
  have hlevel' := (score_level hr').2
  obtain ⟨cs, hcs, ⟨hi, rfl⟩ | ⟨hs, n, level, hn, -, rfl⟩⟩ := Scorer.score_cases hr
  · obtain ⟨ds, -, ⟨-, rfl⟩ | ⟨hs, -⟩⟩ := Scorer.score_cases hr'
    · exact .of_none rfl rfl rfl
    · exact absurd (hcoverage ▸ hi) hs
  · obtain ⟨ds, hds, ⟨hi, -⟩ | ⟨-, m, level', hm, -, rfl⟩⟩ := Scorer.score_cases hr'
    · exact absurd (hcoverage ▸ hi) hs
    · have := roundEven_mono (clamp_mono 0 100 (points_mono h hcs hds))
      exact .of_scores rfl rfl (by omega) (hlevel n rfl) (hlevel' m rfl)

end

/-! ## The scorers -/

theorem riskValue_mono {settings : FactorConfiguration} {v v' : Rat} (h : Riskier settings.direction v v') :
    riskValue settings v ≤ riskValue settings v' := by
  unfold riskValue
  unfold Riskier at h
  cases hd : settings.direction with
  | increasesRisk =>
    rw [hd] at h
    exact h
  | inverseRisk =>
    rw [hd] at h
    exact sub_le_sub_left h 1
  | protective =>
    rw [hd] at h
    exact sub_le_sub_left h 1

/-- The family scorer scores riskier evidence no lower. -/
theorem family_monotone {config : ScoreFamilyConfiguration} {i i' : FamilyInput}
    (h : RiskierEvidence config.factors (valueOf i.values) (valueOf i'.values) i.evidenceReferences
      i'.evidenceReferences) (htime : i.evidenceTimestamp = i'.evidenceTimestamp) {thresholds : List (String × Int)}
    {scoredAt : AwareDatetime} {r r' : ScoredResult} (hr : scoreNormalizedFamily i config thresholds scoredAt = .ok r)
    (hr' : scoreNormalizedFamily i' config thresholds scoredAt = .ok r') : NotLower r.result r'.result := by
  unfold scoreNormalizedFamily at hr hr'
  rw [← htime] at hr'
  split at hr
  · rename_i hstale
    rw [if_pos hstale] at hr'
    cases hr
    cases hr'
    exact .of_none rfl rfl rfl
  · rename_i hfresh
    rw [if_neg hfresh] at hr'
    refine score_mono ⟨fun factor hf => ?_, fun factor hf a b ha hb n m hn hm => ?_⟩ hr hr'
    · rw [isAvailable_eq, isAvailable_eq]
      exact h.same factor hf
    · obtain ⟨-, hsettings, hvalue, -⟩ := Scorer.available_some ha
      obtain ⟨-, hsettings', hvalue', -⟩ := Scorer.available_some hb
      cases hn
      cases hm
      rw [hsettings, hsettings']
      exact riskValue_mono (h.riskier factor hf (evidenced_of_available ha) _ hvalue _ hvalue')

/-- The overload scorer's own part of the condition: a factor that lowers the risk keeps its
    capped value. -/
def CappedAlike (factors : Factors) (i i' : EmployeeOverloadInput) : Prop :=
  ∀ factor ∈ factors, factor.2.direction ≠ .increasesRisk → evidenced (factorValue i) i.evidenceReferences factor = true →
    ∀ v ∈ factorValue i factor.1, ∀ v' ∈ factorValue i' factor.1,
      clamp (v / factor.2.normalizationCap) 0 1 = clamp (v' / factor.2.normalizationCap) 0 1

/-- The second employee's evidence is the riskier. -/
structure RiskierInput (config : ScoringConfiguration) (i i' : EmployeeOverloadInput) : Prop where
  mandatory : missingMandatory i = missingMandatory i'
  evidence : RiskierEvidence config.employeeOverload.factors (factorValue i) (factorValue i') i.evidenceReferences
    i'.evidenceReferences
  time : i.evidenceTimestamp = i'.evidenceTimestamp

theorem RiskierInput.unscored_iff {config : ScoringConfiguration} {i i' : EmployeeOverloadInput}
    (h : RiskierInput config i i') (scoredAt : AwareDatetime) :
    Unscored i config scoredAt ↔ Unscored i' config scoredAt := by
  unfold Unscored
  rw [h.time]
  refine or_congr_left (not_iff_not.mp ?_)
  rw [← missingMandatory_nil, ← missingMandatory_nil, h.mandatory]

/-! ## The points of an input -/

/-- What a factor shows of an input, up to its cap. -/
def capped (i : EmployeeOverloadInput) (factor : String × FactorConfiguration) : Rat :=
  ((factorValue i factor.1).map fun v => clamp (v / factor.2.normalizationCap) 0 1).getD 0

def evidencedFactors (config : ScoringConfiguration) (i : EmployeeOverloadInput) : Factors :=
  config.employeeOverload.factors.filter (evidenced (factorValue i) i.evidenceReferences)

/-- No score is given: hours are missing, the evidence is too old, or too little of it is there. -/
def NothingScored (i : EmployeeOverloadInput) (config : ScoringConfiguration) (scoredAt : AwareDatetime) : Prop :=
  Unscored i config scoredAt ∨ weightOf (evidencedFactors config i) < 3 / 5

/-- What the evidenced factors show less in the second input, by their weights; what they show more counts against it. -/
def pointsLost (config : ScoringConfiguration) (i i' : EmployeeOverloadInput) : Rat :=
  ((evidencedFactors config i).map fun factor => (capped i factor - capped i' factor) * factor.2.weight * 100).sum

def pointsShown (i : EmployeeOverloadInput) (factors : Factors) : Rat :=
  (factors.map fun factor => capped i factor * factor.2.weight * 100).sum

theorem capped_range (i : EmployeeOverloadInput) (factor : String × FactorConfiguration) :
    0 ≤ capped i factor ∧ capped i factor ≤ 1 := by
  unfold capped
  cases factorValue i factor.1 with
  | none => exact ⟨le_rfl, zero_le_one⟩
  | some v => exact clamp_range zero_le_one _

theorem pointsShown_range (i : EmployeeOverloadInput) (factors : Factors) :
    0 ≤ pointsShown i factors ∧ pointsShown i factors ≤ 100 * weightOf factors := by
  unfold pointsShown weightOf
  induction factors with
  | nil => simp
  | cons factor factors ih =>
    obtain ⟨hlow, hhigh⟩ := ih
    obtain ⟨hcapped, hcapped'⟩ := capped_range i factor
    have hweight := factor.2.weight_range.1.le
    have hpoints : 0 ≤ capped i factor * factor.2.weight := mul_nonneg hcapped hweight
    have hle : capped i factor * factor.2.weight ≤ factor.2.weight := mul_le_of_le_one_left hweight hcapped'
    rw [List.map_cons, List.map_cons, List.sum_cons, List.sum_cons]
    constructor
    · linarith
    · linarith

theorem sum_lost (i i' : EmployeeOverloadInput) (factors : Factors) :
    (factors.map fun factor => (capped i factor - capped i' factor) * factor.2.weight * 100).sum =
      pointsShown i factors - pointsShown i' factors := by
  unfold pointsShown
  induction factors with
  | nil => simp
  | cons factor factors ih =>
    rw [List.map_cons, List.map_cons, List.map_cons, List.sum_cons, List.sum_cons, List.sum_cons, ih]
    ring

section
variable {config : ScoringConfiguration} {i i' : EmployeeOverloadInput} {scoredAt : AwareDatetime} {r r' : ScoredResult}

theorem RiskierInput.evidencedFactors_eq (h : RiskierInput config i i') :
    evidencedFactors config i' = evidencedFactors config i :=
  List.filter_congr fun factor hf => (h.evidence.same factor hf).symm

theorem RiskierInput.nothingScored_iff (h : RiskierInput config i i') (scoredAt : AwareDatetime) :
    NothingScored i config scoredAt ↔ NothingScored i' config scoredAt := by
  unfold NothingScored
  rw [h.evidencedFactors_eq]
  exact or_congr_left (h.unscored_iff scoredAt)

theorem pointsLost_eq (h : RiskierInput config i i') : pointsLost config i i' =
    pointsShown i (evidencedFactors config i) - pointsShown i' (evidencedFactors config i') := by
  rw [h.evidencedFactors_eq]
  exact sum_lost i i' _

/-- Where nothing is scored there is neither score nor level. -/
theorem nothingScored_result (h : NothingScored i config scoredAt)
    (hr : scoreEmployeeOverload i config scoredAt = .ok r) : r.result.score = none ∧ r.result.level = none := by
  by_cases hunscored : Unscored i config scoredAt
  · obtain ⟨_, _, hnone⟩ := scoreEmployeeOverload_unscored hunscored
    rw [hnone] at hr
    cases hr
    exact ⟨rfl, rfl⟩
  · obtain ⟨remaining, capacity, hvalue, hscored⟩ := scoreEmployeeOverload_scored hunscored
    obtain ⟨cs, -, ⟨-, rfl⟩ | ⟨hsufficient, -⟩⟩ := Scorer.score_cases (hscored.symm.trans hr)
    · exact ⟨rfl, rfl⟩
    · refine absurd (confidence_insufficient.mpr ?_) hsufficient
      rw [Scorer.coverage, funext isAvailable_eq, hvalue]
      exact h.resolve_left hunscored

/-- Elsewhere the score is that of the points shown. -/
theorem scored_result (h : ¬ NothingScored i config scoredAt) (hr : scoreEmployeeOverload i config scoredAt = .ok r) :
    ∃ n : Fin 101, r.result.score = some n ∧
      (n.val : Int) = roundEven (clamp (pointsShown i (evidencedFactors config i)) 0 100) := by
  obtain ⟨hunscored, hweight⟩ := not_or.mp h
  obtain ⟨remaining, capacity, hvalue, hscored⟩ := scoreEmployeeOverload_scored hunscored
  have havailable : config.employeeOverload.factors.filter (overloadScorer i remaining capacity).isAvailable =
      evidencedFactors config i := by
    rw [funext isAvailable_eq, hvalue]
    rfl
  have hnormalized : ∀ factor ∈ config.employeeOverload.factors, ∀ a,
      (overloadScorer i remaining capacity).available factor = some a →
      (overloadScorer i remaining capacity).normalized a.settings a.value = .ok (capped i factor) ∧
        0 ≤ capped i factor ∧ capped i factor ≤ 1 := by
    intro factor _ a ha
    obtain ⟨-, hsettings, hread, -⟩ := Scorer.available_some ha
    rw [hvalue] at hread
    refine ⟨?_, capped_range i factor⟩
    rw [capped, hread, ← hsettings]
    exact normalizeCapped_ok a.value
  obtain ⟨r', n, hr', hn, hround⟩ := exists_score_of_normalized (overloadHeader i config scoredAt) hnormalized
    (by rw [havailable]; exact hweight)
  obtain rfl : r' = r := Except.ok.inj ((hscored.trans hr').symm.trans hr)
  rw [havailable] at hround
  exact ⟨n, hn, hround⟩

/-- Where on the whole no points are lost, the overload scorer scores riskier evidence no lower. -/
theorem overload_monotone (h : RiskierInput config i i')
    (hlost : NothingScored i config scoredAt ∨ pointsLost config i i' ≤ 0)
    (hr : scoreEmployeeOverload i config scoredAt = .ok r) (hr' : scoreEmployeeOverload i' config scoredAt = .ok r') :
    NotLower r.result r'.result := by
  by_cases hnothing : NothingScored i config scoredAt
  · obtain ⟨hscore, hlevel⟩ := nothingScored_result hnothing hr
    obtain ⟨hscore', -⟩ := nothingScored_result ((h.nothingScored_iff scoredAt).mp hnothing) hr'
    exact .of_none hscore hscore' hlevel
  · obtain ⟨n, hn, hround⟩ := scored_result hnothing hr
    obtain ⟨n', hn', hround'⟩ := scored_result (mt (h.nothingScored_iff scoredAt).mpr hnothing) hr'
    have hpoints := hlost.resolve_left hnothing
    rw [pointsLost_eq h] at hpoints
    have hle := roundEven_mono (clamp_mono 0 100 (sub_nonpos.mp hpoints))
    exact .of_scores hn hn' (by omega) ((overload_level hr).2 n hn) ((overload_level hr').2 n' hn')

/-- Where more than one point is lost, it scores riskier evidence lower. -/
theorem overload_lower (h : RiskierInput config i i') (hscored : ¬ NothingScored i config scoredAt)
    (hlost : 1 < pointsLost config i i') (hr : scoreEmployeeOverload i config scoredAt = .ok r)
    (hr' : scoreEmployeeOverload i' config scoredAt = .ok r') : ¬ NotLower r.result r'.result := by
  intro hnot
  have hnear : ∀ (j : EmployeeOverloadInput) (n : Fin 101),
      (n.val : Int) = roundEven (clamp (pointsShown j (evidencedFactors config j)) 0 100) →
      |((n.val : Int) : Rat) - pointsShown j (evidencedFactors config j)| ≤ 1 / 2 := by
    intro j n hn
    obtain ⟨hlow, hhigh⟩ := pointsShown_range j (evidencedFactors config j)
    have hweight : weightOf (evidencedFactors config j) ≤ weightOf config.employeeOverload.factors := weightOf_filter _
    have := weights_le config.employeeOverload
    exact near_points hlow (by linarith) hn
  obtain ⟨n, hn, hround⟩ := scored_result hscored hr
  obtain ⟨n', hn', hround'⟩ := scored_result (mt (h.nothingScored_iff scoredAt).mpr hscored) hr'
  obtain ⟨hlow, -⟩ := abs_le.mp (hnear i n hround)
  obtain ⟨-, hhigh⟩ := abs_le.mp (hnear i' n' hround')
  rw [pointsLost_eq h] at hlost
  have hless : ((n'.val : Int) : Rat) < ((n.val : Int) : Rat) := by linarith
  have hle : n.val ≤ n'.val := Fin.le_def.mp (hnot.score n hn n' hn')
  have := Int.cast_lt.mp hless
  omega

/-- Where no factor that lowers the risk changes its capped value, no points are lost. -/
theorem pointsLost_le (h : RiskierInput config i i') (hcapped : CappedAlike config.employeeOverload.factors i i') :
    pointsLost config i i' ≤ 0 := by
  rw [pointsLost_eq h, h.evidencedFactors_eq]
  refine sub_nonpos.mpr (List.sum_le_sum fun factor hfactor => ?_)
  obtain ⟨hf, hevidenced⟩ := List.mem_filter.mp hfactor
  have hevidenced' := (h.evidence.same factor hf).symm.trans hevidenced
  obtain ⟨v, hv⟩ := Option.isSome_iff_exists.mp (Bool.and_eq_true_iff.mp hevidenced).1
  obtain ⟨v', hv'⟩ := Option.isSome_iff_exists.mp (Bool.and_eq_true_iff.mp hevidenced').1
  have hle : capped i factor ≤ capped i' factor := by
    rw [capped, capped, hv, hv']
    by_cases hd : factor.2.direction = .increasesRisk
    · have hrisk := h.evidence.riskier factor hf hevidenced v hv v' hv'
      rw [hd] at hrisk
      exact clamp_mono 0 1 (div_le_div_of_nonneg_right hrisk factor.2.normalizationCap_pos.le)
    · exact (hcapped factor hf hd hevidenced v hv v' hv').le
  have := mul_le_mul_of_nonneg_right hle factor.2.weight_range.1.le
  linarith

end

end WorkforceRisk.Scoring
