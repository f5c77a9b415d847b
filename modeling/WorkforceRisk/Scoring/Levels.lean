/-
  WorkforceRisk.Scoring.Levels — a result's level and the thresholds it reports.

  Every result carries the configured thresholds, and its level comes from
  `risk_level_for_score`, which has thresholds of its own: 29, 54 and 74. So the level is
  that of the reported thresholds, on every input, exactly when these are the configured
  ones (`levels_agree_iff`): a normalized family attains every score below 100
  (`exists_score`), and one on each side of a threshold tells another threshold apart.
-/

import Mathlib.Tactic.Ring
import WorkforceRisk.Scoring.Accounts

namespace WorkforceRisk.Scoring

open Lib Persistence Risk

def threshold (thresholds : List (String × Int)) (name : String) : Option Int :=
  (thresholds.find? (·.1 == name)).map (·.2)

/-- The thresholds of a configuration, in order and in the range of scores. -/
structure Ordered (thresholds : List (String × Int)) (low medium high : Int) : Prop where
  lowMax : threshold thresholds "low_max" = some low
  mediumMax : threshold thresholds "medium_max" = some medium
  highMax : threshold thresholds "high_max" = some high
  order : 0 ≤ low ∧ low < medium ∧ medium < high ∧ high ≤ 100

def levelUnder (low medium high score : Int) : RiskLevel :=
  if score ≤ low then .low
  else if score ≤ medium then .medium
  else if score ≤ high then .high
  else .critical

/-- The level of a score is that of the result's own thresholds. -/
def OwnLevel (r : RiskResult) : Prop :=
  ∀ score ∈ r.score, ∀ low medium high, Ordered r.thresholds low medium high →
    r.level = some (levelUnder low medium high score.val)

/-- Every result of the configuration has the level of its own thresholds. -/
def LevelsAgree (config : ScoringConfiguration) : Prop :=
  (∀ i scoredAt r, scoreEmployeeOverload i config scoredAt = .ok r → OwnLevel r.result) ∧
  ∀ family ∈ [config.taskFit, config.projectDelivery], ∀ i scoredAt r,
    scoreNormalizedFamily i family config.thresholds scoredAt = .ok r → OwnLevel r.result

/-! ## The level of a result -/

theorem riskLevelForScore_eq {score : Int} (h : 0 ≤ score ∧ score ≤ 100) :
    riskLevelForScore score = .ok (levelUnder 29 54 74 score) := by
  unfold riskLevelForScore levelUnder
  rw [if_neg (not_not.mpr h)]
  split
  · rfl
  · split
    · rfl
    · split
      · rfl
      · rfl

theorem score_level {s : Scorer} {h : Header} {confidence : Rat → ConfidenceLevel} {factors : Factors}
    {r : ScoredResult} (hr : s.score h confidence factors = .ok r) :
    r.result.thresholds = h.thresholds ∧
      ∀ score ∈ r.result.score, r.result.level = some (levelUnder 29 54 74 score.val) := by
  obtain ⟨cs, -, ⟨-, rfl⟩ | ⟨-, n, level, -, hlevel, rfl⟩⟩ := Scorer.score_cases hr
  · exact ⟨rfl, fun _ hscore => (nomatch hscore)⟩
  · refine ⟨rfl, fun score hscore => ?_⟩
    obtain rfl : n = score := Option.some.inj hscore
    rw [riskLevelForScore_eq (by omega)] at hlevel
    exact congrArg some (Except.ok.inj hlevel).symm

theorem overload_level {i : EmployeeOverloadInput} {config : ScoringConfiguration} {scoredAt : AwareDatetime}
    {r : ScoredResult} (hr : scoreEmployeeOverload i config scoredAt = .ok r) :
    r.result.thresholds = config.thresholds ∧
      ∀ score ∈ r.result.score, r.result.level = some (levelUnder 29 54 74 score.val) := by
  by_cases h : Unscored i config scoredAt
  · obtain ⟨missing, excluded, hunscored⟩ := scoreEmployeeOverload_unscored h
    rw [hunscored] at hr
    cases hr
    exact ⟨rfl, fun _ hscore => (nomatch hscore)⟩
  · obtain ⟨remaining, capacity, -, hscored⟩ := scoreEmployeeOverload_scored h
    exact score_level (hscored.symm.trans hr)

theorem family_level {i : FamilyInput} {config : ScoreFamilyConfiguration} {thresholds : List (String × Int)}
    {scoredAt : AwareDatetime} {r : ScoredResult} (hr : scoreNormalizedFamily i config thresholds scoredAt = .ok r) :
    r.result.thresholds = thresholds ∧
      ∀ score ∈ r.result.score, r.result.level = some (levelUnder 29 54 74 score.val) := by
  unfold scoreNormalizedFamily at hr
  split at hr
  · cases hr
    exact ⟨rfl, fun _ hscore => (nomatch hscore)⟩
  · exact score_level hr

/-! ## Every score below 100 is attained -/

/-- What the dict of the factors' own entries has under a factor's name. -/
theorem find_factor {factors : Factors} (hn : (factors.map Prod.fst).Nodup) {factor : String × FactorConfiguration}
    (hf : factor ∈ factors) : factors.find? (·.1 == factor.1) = some factor := by
  induction factors with
  | nil => cases hf
  | cons head factors ih =>
    obtain ⟨hhead, hrest⟩ := List.nodup_cons.mp hn
    rcases List.mem_cons.mp hf with rfl | hf
    · exact List.find?_cons_of_pos (beq_self_eq_true _)
    · have hne : head.1 ≠ factor.1 := fun h => hhead (h ▸ List.mem_map_of_mem hf)
      rw [List.find?_cons_of_neg (by simpa using hne)]
      exact ih hrest hf

/-- A reference for every factor. -/
def everyReference (factors : Factors) : EvidenceReferences := factors.map fun factor => (factor.1, ["jira:WFD"])

theorem referencesOf_every {factors : Factors} (hn : (factors.map Prod.fst).Nodup)
    {factor : String × FactorConfiguration} (hf : factor ∈ factors) :
    referencesOf (everyReference factors) factor.1 = ["jira:WFD"] := by
  unfold referencesOf everyReference
  rw [find?_map_entries, find_factor hn hf]
  rfl

/-- Every factor with a reference, at the risk `x`. -/
def evenInput (factors : Factors) (x : Rat) : FamilyInput where
  subjectId := "WFD"
  environment := .dev
  values := factors.map fun factor => (factor.1, some (riskValue factor.2 x))
  evidenceReferences := everyReference factors
  evidenceTimestamp := ⟨0, 0⟩

theorem riskValue_twice (settings : FactorConfiguration) (x : Rat) : riskValue settings (riskValue settings x) = x := by
  unfold riskValue
  split
  · exact sub_sub_cancel 1 x
  · exact sub_sub_cancel 1 x
  · rfl

theorem evenInput_available {factors : Factors} (hn : (factors.map Prod.fst).Nodup) (x : Rat)
    {factor : String × FactorConfiguration} (hf : factor ∈ factors) :
    (familyScorer (evenInput factors x)).available factor =
      some ⟨factor.1, factor.2, riskValue factor.2 x, ["jira:WFD"]⟩ := by
  have hvalue : valueOf (evenInput factors x).values factor.1 = some (riskValue factor.2 x) := by
    unfold valueOf evenInput
    rw [find?_map_entries, find_factor hn hf]
    rfl
  have hreferences : referencesOf (evenInput factors x).evidenceReferences factor.1 = ["jira:WFD"] :=
    referencesOf_every hn hf
  unfold Scorer.available familyScorer
  simp only [hvalue, hreferences, List.isEmpty_cons, Bool.false_eq_true, if_false]

theorem even_points (factors : Factors) (x : Rat) :
    (factors.map fun factor => x * factor.2.weight * 100).sum = x * (100 * weightOf factors) := by
  induction factors with
  | nil => simp [weightOf]
  | cons factor factors ih =>
    rw [List.map_cons, List.sum_cons, ih, weightOf, weightOf, List.map_cons, List.sum_cons]
    ring

/-- Fresh evidence is read when it is scored. -/
theorem not_stale (config : ScoreFamilyConfiguration) : ¬ config.maxEvidenceAgeHours < ageHours ⟨0, 0⟩ ⟨0, 0⟩ := by
  have hage : ageHours ⟨0, 0⟩ ⟨0, 0⟩ = 0 := by norm_num [ageHours]
  rw [hage]
  exact not_lt.mpr config.maxEvidenceAgeHours_pos.le

/-- A configured family gives every score below 100 to some input. -/
theorem exists_score (config : ScoreFamilyConfiguration) (thresholds : List (String × Int)) {n : Fin 101}
    (hn : n.val ≤ 99) : ∃ i r, scoreNormalizedFamily i config thresholds ⟨0, 0⟩ = .ok r ∧ r.result.score = some n := by
  have hweight := (abs_le.mp config.weights).1
  have hpos : 0 < 100 * weightOf config.factors := by linarith
  have hscore : (n.val : Rat) ≤ 99 := by exact_mod_cast hn
  -- the risk at which the points of all factors are the score
  let x : Rat := n.val / (100 * weightOf config.factors)
  have hx : 0 ≤ x ∧ x ≤ 1 := by
    refine ⟨div_nonneg (Nat.cast_nonneg _) hpos.le, (div_le_one hpos).mpr ?_⟩
    linarith
  have havailable : ∀ factor ∈ config.factors, (familyScorer (evenInput config.factors x)).available factor =
      some ⟨factor.1, factor.2, riskValue factor.2 x, ["jira:WFD"]⟩ :=
    fun factor hf => evenInput_available config.factors_keys x hf
  have hall : config.factors.filter (familyScorer (evenInput config.factors x)).isAvailable = config.factors :=
    List.filter_eq_self.mpr fun factor hf => by rw [Scorer.isAvailable, havailable factor hf]; rfl
  have hnormalized : ∀ factor ∈ config.factors, ∀ a, (familyScorer (evenInput config.factors x)).available factor =
      some a → (familyScorer (evenInput config.factors x)).normalized a.settings a.value = .ok x ∧ 0 ≤ x ∧ x ≤ 1 := by
    intro factor hf a ha
    rw [havailable factor hf] at ha
    cases ha
    exact ⟨congrArg Except.ok (riskValue_twice factor.2 x), hx⟩
  obtain ⟨r, k, hr, hk, hround⟩ := exists_score_of_normalized (n := fun _ => x)
    (familyHeader (evenInput config.factors x) config thresholds ⟨0, 0⟩) hnormalized (by rw [hall]; linarith)
  have hpoints : x * (100 * weightOf config.factors) = n.val := div_mul_cancel₀ _ hpos.ne'
  have hexact : roundEven (n.val : Rat) = n.val := by exact_mod_cast roundEven_intCast (α := Rat) n.val
  rw [hall, even_points, hpoints, clamp, min_eq_left (by linarith), max_eq_right (Nat.cast_nonneg _), hexact] at hround
  refine ⟨evenInput config.factors x, r, (if_neg (not_stale config)).trans hr, hk.trans ?_⟩
  exact congrArg some (Fin.ext (by omega))

/-- Thresholds that give the levels of 29, 54 and 74 to the scores below 100 are these. -/
theorem thresholds_told {low medium high : Int} (h : 0 ≤ low ∧ low < medium ∧ medium < high ∧ high ≤ 100)
    (hsame : ∀ n : Fin 101, n.val ≤ 99 → levelUnder low medium high n.val = levelUnder 29 54 74 n.val) :
    low = 29 ∧ medium = 54 ∧ high = 74 := by
  have hlow : levelUnder low medium high 29 = .low := hsame 29 (by decide)
  have hmedium : levelUnder low medium high 30 = .medium := hsame 30 (by decide)
  have hmedium' : levelUnder low medium high 54 = .medium := hsame 54 (by decide)
  have hhigh : levelUnder low medium high 55 = .high := hsame 55 (by decide)
  have hhigh' : levelUnder low medium high 74 = .high := hsame 74 (by decide)
  have hcritical : levelUnder low medium high 75 = .critical := hsame 75 (by decide)
  unfold levelUnder at hlow hmedium hmedium' hhigh hhigh' hcritical
  grind

/-- On every input the level is that of the reported thresholds, exactly when the configured
    ones are 29, 54 and 74. -/
theorem levels_agree_iff (config : ScoringConfiguration) {low medium high : Int}
    (h : Ordered config.thresholds low medium high) :
    LevelsAgree config ↔ low = 29 ∧ medium = 54 ∧ high = 74 := by
  constructor
  · intro hagree
    refine thresholds_told h.order fun n hn => ?_
    obtain ⟨i, r, hr, hscore⟩ := exists_score config.taskFit config.thresholds hn
    obtain ⟨hthresholds, hlevel⟩ := family_level hr
    have hown := hagree.2 config.taskFit List.mem_cons_self i ⟨0, 0⟩ r hr n hscore low medium high (hthresholds ▸ h)
    rw [hlevel n hscore] at hown
    exact (Option.some.inj hown).symm
  · intro hsame
    obtain ⟨rfl, rfl, rfl⟩ := hsame
    have hown : ∀ r : RiskResult, r.thresholds = config.thresholds →
        (∀ score ∈ r.score, r.level = some (levelUnder 29 54 74 score.val)) → OwnLevel r := by
      intro r hthresholds hlevel score hscore low medium high hordered
      rw [hthresholds] at hordered
      obtain rfl : 29 = low := Option.some.inj (h.lowMax.symm.trans hordered.lowMax)
      obtain rfl : 54 = medium := Option.some.inj (h.mediumMax.symm.trans hordered.mediumMax)
      obtain rfl : 74 = high := Option.some.inj (h.highMax.symm.trans hordered.highMax)
      exact hlevel score hscore
    constructor
    · intro i scoredAt r hr
      obtain ⟨hthresholds, hlevel⟩ := overload_level hr
      exact hown r.result hthresholds hlevel
    · intro family _ i scoredAt r hr
      obtain ⟨hthresholds, hlevel⟩ := family_level hr
      exact hown r.result hthresholds hlevel

/-- The sample configuration with thresholds. -/
def sampleConfig (direction : FactorDirection) (low medium high : Int) : ScoringConfiguration :=
  ⟨sampleFamily direction, sampleFamily direction, sampleFamily direction,
    [("low_max", low), ("medium_max", medium), ("high_max", high)]⟩

theorem levels_agree_shipped : LevelsAgree (sampleConfig .increasesRisk 29 54 74) :=
  (levels_agree_iff (sampleConfig .increasesRisk 29 54 74) ⟨rfl, rfl, rfl, by decide⟩).mpr ⟨rfl, rfl, rfl⟩

/-- Under the thresholds 10, 20 and 40 a score of 28 is high, and its level is low. -/
theorem levels_disagree : ¬ ∀ (config : ScoringConfiguration) (low medium high : Int),
    Ordered config.thresholds low medium high → LevelsAgree config := by
  intro h
  have hagree := h (sampleConfig .increasesRisk 10 20 40) 10 20 40 ⟨rfl, rfl, rfl, by decide⟩
  have hrun : ((scoreNormalizedFamily (sampleFamilyInput (1 / 5) (7 / 15)) (sampleFamily .increasesRisk)
      (sampleConfig .increasesRisk 10 20 40).thresholds ⟨0, 0⟩).toOption.any fun r =>
        r.result.score == some 28 && r.result.level == some .low &&
          r.result.thresholds == (sampleConfig .increasesRisk 10 20 40).thresholds) = true := by decide +kernel
  obtain ⟨r, hr, hok⟩ := exists_ok_of_any hrun
  simp only [Bool.and_eq_true, beq_iff_eq] at hok
  obtain ⟨⟨hscore, hlevel⟩, hthresholds⟩ := hok
  have hown := hagree.2 (sampleFamily .increasesRisk) List.mem_cons_self _ _ r hr 28 hscore 10 20 40
    (hthresholds ▸ ⟨rfl, rfl, rfl, by decide⟩)
  rw [hlevel] at hown
  exact absurd hown (by decide)

end WorkforceRisk.Scoring
