/-
  WorkforceRisk.Scoring.Common — what the scorers share
  (domain/workforce_risk/scoring/config.py, common.py, confidence.py and
  `risk_level_for_score`).

  Both scorers go over the configured factors once, with the same accumulators: a factor
  with a value and a reference contributes and its weight is covered, any other is missing.
  They differ in where the values are from, in how a value is normalized and in the names
  of what is missing (`Scorer`). Below a coverage of 0.6 there is no score.

  Numbers are exact, and `round` is to the nearest integer, halves to the even one.
-/

import Mathlib.Algebra.BigOperators.Group.List.Basic
import Mathlib.Algebra.Order.Ring.Rat
import Mathlib.Data.List.Dedup
import Mathlib.Data.List.Forall2
import Mathlib.Data.List.Sort
import Mathlib.Data.Rat.Floor
import Mathlib.Data.String.Basic
import Mathlib.Tactic.NormNum
import WorkforceRisk.Lib.Rounding
import WorkforceRisk.Lib.Transactions
import WorkforceRisk.Risk.Models

namespace WorkforceRisk.Scoring

open Lib Persistence Risk

/-! ## Configuration -/

structure FactorConfiguration where
  weight : Rat
  direction : FactorDirection
  normalizationCap : Rat
  weight_range : 0 < weight ∧ weight ≤ 1
  normalizationCap_pos : 0 < normalizationCap

/-- A `dict[str, FactorConfiguration]`, in the order its keys were inserted. -/
abbrev Factors := List (String × FactorConfiguration)

def weightOf (factors : Factors) : Rat := (factors.map (·.2.weight)).sum

structure ScoreFamilyConfiguration where
  version : String
  maxEvidenceAgeHours : Rat
  factors : Factors
  maxEvidenceAgeHours_pos : 0 < maxEvidenceAgeHours
  factors_keys : (factors.map Prod.fst).Nodup
  /-- `validate_weights`. -/
  weights : |weightOf factors - 1| ≤ 1 / 1000000000

/-- The same fields and the same checks. -/
abbrev OverloadConfiguration := ScoreFamilyConfiguration

structure ScoringConfiguration where
  employeeOverload : OverloadConfiguration
  taskFit : ScoreFamilyConfiguration
  projectDelivery : ScoreFamilyConfiguration
  thresholds : List (String × Int)

/-! ## Numbers -/

def clamp (value minimum maximum : Rat) : Rat := max minimum (min value maximum)

def normalizeCapped (value cap : Rat) : Except Error Rat :=
  if cap ≤ 0 then .error (.valueError "normalization cap must be positive") else .ok (clamp (value / cap) 0 1)

def confidenceForCoverage (coverage : Rat) : ConfidenceLevel :=
  if 9 / 10 ≤ coverage then .high
  else if 3 / 4 ≤ coverage then .medium
  else if 3 / 5 ≤ coverage then .low
  else .insufficientData

def riskLevelForScore (score : Int) : Except Error RiskLevel :=
  if ¬ (0 ≤ score ∧ score ≤ 100) then .error (.valueError "risk score must be between 0 and 100")
  else if score ≤ 29 then .ok .low
  else if score ≤ 54 then .ok .medium
  else if score ≤ 74 then .ok .high
  else .ok .critical

/-- `(scored_at - evidence_timestamp).total_seconds() / 3600`. -/
def ageHours (scoredAt evidenceTimestamp : AwareDatetime) : Rat :=
  ((scoredAt.instant - evidenceTimestamp.instant : Int) : Rat) / 1000000 / 3600

/-! ## Results -/

/-- A `RiskResult` with its two times. -/
structure ScoredResult where
  result : RiskResult
  scoredAt : AwareDatetime
  evidenceTimestamp : AwareDatetime

/-- What a result says whatever the score. -/
structure Header where
  subjectId : String
  environment : Environment
  evidenceTimestamp : AwareDatetime
  scoredAt : AwareDatetime
  version : String
  thresholds : List (String × Int)

/-- The result without a score. -/
def Header.insufficient (h : Header) (missing excluded : List String) : ScoredResult :=
  { result :=
      { subjectId := h.subjectId
        environment := h.environment
        score := none
        level := none
        confidence := .insufficientData
        scoringModelVersion := h.version
        factors := []
        thresholds := h.thresholds
        evidenceReferences := []
        missingEvidence := missing
        excludedEvidence := excluded }
    scoredAt := h.scoredAt
    evidenceTimestamp := h.evidenceTimestamp }

/-! ## The loop over the factors -/

/-- `mapping.get(name, ())`. -/
def referencesOf (references : EvidenceReferences) (name : String) : List String :=
  ((references.find? (·.1 == name)).map (·.2)).getD []

/-- A factor with a value and references. -/
structure Available where
  name : String
  settings : FactorConfiguration
  value : Rat
  references : List String

/-- What the scorers differ in. -/
structure Scorer where
  value : String → Option Rat
  references : EvidenceReferences
  normalized : FactorConfiguration → Rat → Except Error Rat
  /-- The name a missing factor is reported by. -/
  label : String → String

/-- The loop's accumulators. -/
structure Tally where
  factors : List FactorContribution
  missing : List String
  coverage : Rat

namespace Scorer

variable (s : Scorer)

def available (factor : String × FactorConfiguration) : Option Available :=
  match s.value factor.1 with
  | none => none
  | some value =>
    if (referencesOf s.references factor.1).isEmpty then none
    else some ⟨factor.1, factor.2, value, referencesOf s.references factor.1⟩

/-- The contribution of a factor, which is validated. -/
def contribution (a : Available) : Except Error FactorContribution := do
  let normalized ← s.normalized a.settings a.value
  if h : 0 ≤ normalized ∧ normalized ≤ 1 then
    .ok
      { name := a.name
        rawValue := a.value
        normalizedValue := normalized
        weight := a.settings.weight
        direction := a.settings.direction
        contributionPoints := normalized * a.settings.weight * 100
        evidenceReferences := a.references
        normalizedValue_range := h
        weight_range := ⟨a.settings.weight_range.1.le, a.settings.weight_range.2⟩ }
  else if normalized < 0 then
    .error (.validationError "normalized_value" "Input should be greater than or equal to 0")
  else .error (.validationError "normalized_value" "Input should be less than or equal to 1")

/-- One round of the loop. -/
def account (t : Tally) (factor : String × FactorConfiguration) : Except Error Tally :=
  match s.available factor with
  | none => .ok { t with missing := t.missing ++ [s.label factor.1] }
  | some a => do
    let contribution ← s.contribution a
    .ok { t with factors := t.factors ++ [contribution], coverage := t.coverage + a.settings.weight }

end Scorer

/-- `sorted({...})` of the references of the factors. -/
def referencesUsed (factors : List FactorContribution) : List String :=
  (factors.flatMap (·.evidenceReferences)).dedup.insertionSort (· ≤ ·)

def points (factors : List FactorContribution) : Rat := (factors.map (·.contributionPoints)).sum

def Header.withScore (h : Header) (t : Tally) (confidence : ConfidenceLevel) (score : Fin 101) (level : RiskLevel) :
    ScoredResult :=
  { result :=
      { subjectId := h.subjectId
        environment := h.environment
        score := some score
        level := some level
        confidence
        scoringModelVersion := h.version
        factors := t.factors
        thresholds := h.thresholds
        evidenceReferences := referencesUsed t.factors
        missingEvidence := t.missing
        excludedEvidence := [] }
    scoredAt := h.scoredAt
    evidenceTimestamp := h.evidenceTimestamp }

/-- The score and its level; a result is validated. -/
def Header.scored (h : Header) (t : Tally) (confidence : ConfidenceLevel) : Except Error ScoredResult := do
  let score := roundEven (clamp (points t.factors) 0 100)
  let level ← riskLevelForScore score
  if hs : 0 ≤ score ∧ score ≤ 100 then .ok (h.withScore t confidence ⟨score.toNat, by omega⟩ level)
  else if score < 0 then .error (.validationError "score" "Input should be greater than or equal to 0")
  else .error (.validationError "score" "Input should be less than or equal to 100")

/-- The loop and what follows it. `confidence` is the scorer's own. -/
def Scorer.score (s : Scorer) (h : Header) (confidence : Rat → ConfidenceLevel) (factors : Factors) :
    Except Error ScoredResult := do
  let t ← factors.foldlM s.account ⟨[], [], 0⟩
  if confidence t.coverage = .insufficientData then .ok (h.insufficient t.missing [])
  else h.scored t (confidence t.coverage)

/-! ## What the loop accounts for -/

namespace Scorer

variable (s : Scorer)

def isAvailable (factor : String × FactorConfiguration) : Bool := (s.available factor).isSome

/-- The weight of the available factors. -/
def coverage (factors : Factors) : Rat := weightOf (factors.filter s.isAvailable)

def missing (factors : Factors) : List String :=
  (factors.filter fun factor => !s.isAvailable factor).map fun factor => s.label factor.1

/-- A contribution is that of the factor. -/
structure Contributes (a : Available) (c : FactorContribution) : Prop where
  name : c.name = a.name
  rawValue : c.rawValue = a.value
  normalized : s.normalized a.settings a.value = .ok c.normalizedValue
  weight : c.weight = a.settings.weight
  direction : c.direction = a.settings.direction
  points : c.contributionPoints = c.normalizedValue * a.settings.weight * 100
  references : c.evidenceReferences = a.references

variable {s} {a : Available} {c : FactorContribution} {factors : Factors} {t t' : Tally}

theorem contribution_ok (h : s.contribution a = .ok c) : s.Contributes a c := by
  obtain ⟨normalized, hn, h⟩ := except_bind_ok.mp h
  split at h
  · cases h
    exact ⟨rfl, rfl, hn, rfl, rfl, rfl, rfl⟩
  · split at h
    · cases h
    · cases h

theorem contribution_of_range {n : Rat} (hn : s.normalized a.settings a.value = .ok n) (hr : 0 ≤ n ∧ n ≤ 1) :
    ∃ c, s.contribution a = .ok c := by
  unfold contribution
  rw [hn]
  exact ⟨_, dif_pos hr⟩

theorem available_some {factor : String × FactorConfiguration} (h : s.available factor = some a) :
    a.name = factor.1 ∧ a.settings = factor.2 ∧ s.value factor.1 = some a.value ∧
      referencesOf s.references factor.1 = a.references := by
  unfold available at h
  split at h
  · cases h
  · rename_i value hv
    split at h
    · cases h
    · cases h
      exact ⟨rfl, rfl, hv, rfl⟩

/-- The loop's spec: the available factors contribute and are covered, the others are missing. -/
theorem tally_ok : ∀ {t : Tally}, factors.foldlM s.account t = .ok t' →
    ∃ cs, List.Forall₂ s.Contributes (factors.filterMap s.available) cs ∧ t'.factors = t.factors ++ cs ∧
      t'.missing = t.missing ++ s.missing factors ∧ t'.coverage = t.coverage + s.coverage factors := by
  induction factors with
  | nil =>
    intro t h
    cases h
    exact ⟨[], .nil, by simp, by simp [missing], by simp [coverage, weightOf]⟩
  | cons factor factors ih =>
    intro t h
    obtain ⟨u, hu, h⟩ := foldlM_cons_ok.mp h
    obtain ⟨cs, hcs, hf, hm, hc⟩ := ih h
    unfold account at hu
    split at hu
    · rename_i hnone
      cases hu
      have hav : s.isAvailable factor = false := by simp [isAvailable, hnone]
      refine ⟨cs, by rwa [List.filterMap_cons_none hnone], hf, ?_, ?_⟩
      · rw [hm, missing, missing, List.filter_cons_of_pos (by simp [hav]), List.map_cons, List.append_assoc]
        rfl
      · rw [hc, coverage, coverage, List.filter_cons_of_neg (by simp [hav])]
    · rename_i a hsome
      obtain ⟨c, hcontr, hu⟩ := except_bind_ok.mp hu
      cases hu
      have hav : s.isAvailable factor = true := by simp [isAvailable, hsome]
      refine ⟨c :: cs, ?_, ?_, ?_, ?_⟩
      · rw [List.filterMap_cons_some hsome]
        exact .cons (contribution_ok hcontr) hcs
      · rw [hf, List.append_assoc]
        rfl
      · rw [hm, missing, missing, List.filter_cons_of_neg (by simp [hav])]
      · rw [hc, coverage, coverage, List.filter_cons_of_pos hav, (available_some hsome).2.1, add_assoc]
        rfl

/-- The loop goes through where every value is normalized into the range. -/
theorem tally_total (h : ∀ factor ∈ factors, ∀ a, s.available factor = some a →
    ∃ n, s.normalized a.settings a.value = .ok n ∧ 0 ≤ n ∧ n ≤ 1) :
    ∀ {t : Tally}, ∃ t', factors.foldlM s.account t = .ok t' := by
  induction factors with
  | nil => exact fun {t} => ⟨t, rfl⟩
  | cons factor factors ih =>
    intro t
    obtain ⟨hfactor, hrest⟩ := List.forall_mem_cons.mp h
    have hstep : ∃ u, s.account t factor = .ok u := by
      unfold account
      split
      · exact ⟨_, rfl⟩
      · rename_i a hsome
        obtain ⟨n, hn, hr⟩ := hfactor a hsome
        obtain ⟨c, hc⟩ := contribution_of_range hn hr
        rw [hc]
        exact ⟨_, rfl⟩
    obtain ⟨u, hu⟩ := hstep
    obtain ⟨t', ht⟩ := ih hrest (t := u)
    exact ⟨t', foldlM_cons_ok.mpr ⟨u, hu, ht⟩⟩

end Scorer

/-! ## What a scorer returns -/

theorem clamp_range {minimum maximum : Rat} (h : minimum ≤ maximum) (value : Rat) :
    minimum ≤ clamp value minimum maximum ∧ clamp value minimum maximum ≤ maximum :=
  ⟨le_max_left _ _, max_le h (min_le_right _ _)⟩

theorem riskLevelForScore_ok {n : Int} (h : 0 ≤ n ∧ n ≤ 100) : ∃ level, riskLevelForScore n = .ok level := by
  unfold riskLevelForScore
  rw [if_neg (not_not.mpr h)]
  split
  · exact ⟨_, rfl⟩
  · split
    · exact ⟨_, rfl⟩
    · split
      · exact ⟨_, rfl⟩
      · exact ⟨_, rfl⟩

/-- The score of points is the nearest integer in the range, with its level. -/
theorem scored_ok (h : Header) (t : Tally) (confidence : ConfidenceLevel) :
    ∃ (n : Fin 101) (level : RiskLevel), (n.val : Int) = roundEven (clamp (points t.factors) 0 100) ∧
      riskLevelForScore n.val = .ok level ∧ h.scored t confidence = .ok (h.withScore t confidence n level) := by
  obtain ⟨hlow, hhigh⟩ := clamp_range (by norm_num : (0 : Rat) ≤ 100) (points t.factors)
  have hrange : 0 ≤ roundEven (clamp (points t.factors) 0 100) ∧ roundEven (clamp (points t.factors) 0 100) ≤ 100 :=
    ⟨le_roundEven (by exact_mod_cast hlow), roundEven_le (by exact_mod_cast hhigh)⟩
  obtain ⟨level, hlevel⟩ := riskLevelForScore_ok hrange
  have hnat := Int.toNat_of_nonneg hrange.1
  refine ⟨⟨(roundEven (clamp (points t.factors) 0 100)).toNat, by omega⟩, level, hnat, by rw [hnat, hlevel], ?_⟩
  exact except_bind_ok.mpr ⟨level, hlevel, dif_pos hrange⟩

namespace Scorer

variable {s : Scorer} {h : Header} {confidence : Rat → ConfidenceLevel} {factors : Factors} {r : ScoredResult}

/-- A result reports the contributions of the available factors, and the missing ones; it has a score if the
    coverage gives a confidence. -/
theorem score_cases (hr : s.score h confidence factors = .ok r) :
    ∃ cs, List.Forall₂ s.Contributes (factors.filterMap s.available) cs ∧
      (confidence (s.coverage factors) = .insufficientData ∧ r = h.insufficient (s.missing factors) [] ∨
      confidence (s.coverage factors) ≠ .insufficientData ∧
        ∃ (n : Fin 101) (level : RiskLevel), (n.val : Int) = roundEven (clamp (points cs) 0 100) ∧
          riskLevelForScore n.val = .ok level ∧
          r = h.withScore ⟨cs, s.missing factors, s.coverage factors⟩ (confidence (s.coverage factors)) n level) := by
  obtain ⟨⟨reported, missing, coverage⟩, ht, hr⟩ := except_bind_ok.mp hr
  obtain ⟨cs, hcs, hf, hm, hc⟩ := tally_ok ht
  simp only [List.nil_append, zero_add] at hf hm hc
  subst hf hm hc
  refine ⟨reported, hcs, ?_⟩
  split at hr
  · rename_i hinsufficient
    cases hr
    exact Or.inl ⟨hinsufficient, rfl⟩
  · rename_i hsufficient
    obtain ⟨n, level, hn, hlevel, hscored⟩ := scored_ok h ⟨reported, s.missing factors, s.coverage factors⟩
      (confidence (s.coverage factors))
    rw [hscored] at hr
    cases hr
    exact Or.inr ⟨hsufficient, n, level, hn, hlevel, rfl⟩

variable (s h confidence factors) in
theorem score_total (hn : ∀ factor ∈ factors, ∀ a, s.available factor = some a →
    ∃ n, s.normalized a.settings a.value = .ok n ∧ 0 ≤ n ∧ n ≤ 1) : ∃ r, s.score h confidence factors = .ok r := by
  obtain ⟨t, ht⟩ := tally_total hn (t := ⟨[], [], 0⟩)
  unfold Scorer.score
  rw [ht]
  by_cases hc : confidence t.coverage = .insufficientData
  · exact ⟨_, if_pos hc⟩
  · obtain ⟨n, level, -, -, hscored⟩ := scored_ok h t (confidence t.coverage)
    exact ⟨_, (if_neg hc).trans hscored⟩

end Scorer

end WorkforceRisk.Scoring
