/-
  WorkforceRisk.Scoring.Directions — which overload configurations are monotone.

  The overload scorer reads the values of eight factors, whatever the configuration names.
  Where those of them that are configured weigh less than 0.6 nothing is ever scored.
  Elsewhere a factor of another direction that is worth more than half a point breaks
  monotonicity: of two inputs that have nothing else to show, the one with the factor at
  its cap scores points, and the riskier one without it none (`loaded_score`).

  `riskier_evidence_scores_no_lower` has all that is known of both scorers.
-/

import WorkforceRisk.Scoring.Monotone

namespace WorkforceRisk.Scoring

open Lib Persistence Risk

/-- The factors the overload scorer has values for. -/
def scorable : List String := "utilization" :: factorInputs.map Prod.fst

def isScorable (factor : String × FactorConfiguration) : Bool := decide (factor.1 ∈ scorable)

/-- The overload scorer scores no riskier evidence lower under the configuration. -/
def OverloadMonotone (config : ScoringConfiguration) : Prop :=
  ∀ i i', RiskierInput config i i' → ∀ scoredAt r r', scoreEmployeeOverload i config scoredAt = .ok r →
    scoreEmployeeOverload i' config scoredAt = .ok r' → NotLower r.result r'.result

/-! ## An input with one factor to show -/

def load (name factor : String) (n : Nat) : Nat := if factor = name then n else 0

/-- Every factor with a reference and nothing to show, but the named one `n`. -/
def loadedInput (factors : Factors) (name : String) (n : Nat) : EmployeeOverloadInput where
  employeeId := "EMP-1"
  environment := .dev
  remainingEstimatedHours := some ⟨(load name "utilization" n : Nat), Nat.cast_nonneg _⟩
  availableCapacityHours := some ⟨1, one_pos⟩
  overdueTasks := some (load name "overdue_work" n)
  blockedOrBlockingTasks := some (load name "blocked_work" n)
  urgentHighPriorityTasks := some (load name "priority_load" n)
  dueSoonTasks := some (load name "due_soon_load" n)
  activeTasks := some (load name "active_task_count" n)
  concurrentProjects := some (load name "concurrent_projects" n)
  staleTasks := some (load name "stale_work" n)
  evidenceTimestamp := ⟨0, 0⟩
  evidenceReferences := everyReference factors

theorem factorValue_unscorable (i : EmployeeOverloadInput) {factor : String} (h : factor ∉ scorable) :
    factorValue i factor = none := by
  simp only [scorable, List.mem_cons, not_or] at h
  have hnone : factorInputs.find? (·.1 == factor) = none :=
    List.find?_eq_none.mpr fun entry hentry heq => h.2 (by
      rw [← eq_of_beq heq]
      exact List.mem_map_of_mem hentry)
  unfold factorValue
  rw [if_neg h.1, hnone]
  rfl

theorem factorValue_loaded (factors : Factors) (name : String) (n : Nat) {factor : String} (h : factor ∈ scorable) :
    factorValue (loadedInput factors name n) factor = some (load name factor n : Rat) := by
  simp only [scorable, factorInputs, List.map_cons, List.map_nil, List.mem_cons, List.not_mem_nil, or_false] at h
  rcases h with rfl | rfl | rfl | rfl | rfl | rfl | rfl | rfl
  · simp [factorValue, utilization, loadedInput]
  all_goals rfl

theorem scorable_of_evidenced {i : EmployeeOverloadInput} {references : EvidenceReferences}
    {factor : String × FactorConfiguration} (h : evidenced (factorValue i) references factor = true) :
    isScorable factor = true := by
  apply decide_eq_true
  by_contra hno
  simp [evidenced, factorValue_unscorable i hno] at h

theorem evidenced_loaded {factors : Factors} (hn : (factors.map Prod.fst).Nodup) (name : String) (n : Nat)
    {factor : String × FactorConfiguration} (hf : factor ∈ factors) :
    evidenced (factorValue (loadedInput factors name n)) (everyReference factors) factor = isScorable factor := by
  by_cases hs : factor.1 ∈ scorable
  · simp [evidenced, factorValue_loaded factors name n hs, referencesOf_every hn hf, isScorable, hs]
  · simp [evidenced, factorValue_unscorable _ hs, isScorable, hs]

/-- Of factors with distinct names, one alone has a value. -/
theorem sum_of_one {factors : Factors} {g : String × FactorConfiguration → Rat} (hn : (factors.map Prod.fst).Nodup)
    {factor : String × FactorConfiguration} (hf : factor ∈ factors)
    (h : ∀ other ∈ factors, other.1 ≠ factor.1 → g other = 0) : (factors.map g).sum = g factor := by
  induction factors with
  | nil => cases hf
  | cons head factors ih =>
    obtain ⟨hhead, hrest⟩ := List.nodup_cons.mp hn
    obtain ⟨hzero, hzeros⟩ := List.forall_mem_cons.mp h
    rw [List.map_cons, List.sum_cons]
    rcases List.mem_cons.mp hf with rfl | hf
    · have hnone : (factors.map g).sum = 0 := by
        refine List.sum_eq_zero fun q hq => ?_
        obtain ⟨other, hother, rfl⟩ := List.mem_map.mp hq
        exact hzeros other hother fun heq => hhead (heq ▸ List.mem_map_of_mem hother)
      rw [hnone, add_zero]
    · rw [ih hrest hf hzeros, hzero fun heq => hhead (heq ▸ List.mem_map_of_mem hf), zero_add]

/-- The input is scored, and its score is that of the one factor. -/
theorem loaded_score {config : ScoringConfiguration}
    (hweight : ¬ weightOf (config.employeeOverload.factors.filter isScorable) < 3 / 5)
    {factor : String × FactorConfiguration} (hf : factor ∈ config.employeeOverload.factors)
    (hs : isScorable factor = true) (n : Nat) :
    ∃ r k, scoreEmployeeOverload (loadedInput config.employeeOverload.factors factor.1 n) config ⟨0, 0⟩ = .ok r ∧
      r.result.score = some k ∧
      (k.val : Int) = roundEven (clamp (clamp (n / factor.2.normalizationCap) 0 1 * factor.2.weight * 100) 0 100) := by
  have hkeys := config.employeeOverload.factors_keys
  have hfresh : ¬ Unscored (loadedInput config.employeeOverload.factors factor.1 n) config ⟨0, 0⟩ := by
    intro h
    rcases h with (h | h) | h
    · cases h
    · cases h
    · exact not_stale config.employeeOverload h
  obtain ⟨remaining, capacity, hvalue, hscored⟩ := scoreEmployeeOverload_scored hfresh
  -- the scorable factors are available, each normalized to its capped load
  have havailable : config.employeeOverload.factors.filter (overloadScorer (loadedInput config.employeeOverload.factors
      factor.1 n) remaining capacity).isAvailable = config.employeeOverload.factors.filter isScorable := by
    refine List.filter_congr fun other hother => ?_
    rw [isAvailable_eq, hvalue]
    exact evidenced_loaded hkeys factor.1 n hother
  have hnormalized : ∀ other ∈ config.employeeOverload.factors, ∀ a, (overloadScorer (loadedInput
      config.employeeOverload.factors factor.1 n) remaining capacity).available other = some a →
      (overloadScorer (loadedInput config.employeeOverload.factors factor.1 n) remaining capacity).normalized
        a.settings a.value = .ok (clamp ((load factor.1 other.1 n : Nat) / other.2.normalizationCap) 0 1) ∧
        0 ≤ clamp ((load factor.1 other.1 n : Nat) / other.2.normalizationCap) 0 1 ∧
        clamp ((load factor.1 other.1 n : Nat) / other.2.normalizationCap) 0 1 ≤ 1 := by
    intro other hother a ha
    have hother := scorable_of_evidenced (by rw [← hvalue]; exact evidenced_of_available ha)
    obtain ⟨-, hsettings, hread, -⟩ := Scorer.available_some ha
    rw [hvalue, factorValue_loaded _ _ _ (of_decide_eq_true hother)] at hread
    rw [← hsettings, ← Option.some.inj hread]
    exact ⟨normalizeCapped_ok _, clamp_range zero_le_one _⟩
  obtain ⟨r, k, hr, hk, hround⟩ := exists_score_of_normalized
    (overloadHeader (loadedInput config.employeeOverload.factors factor.1 n) config ⟨0, 0⟩) hnormalized
    (by rw [havailable]; exact hweight)
  refine ⟨r, k, hscored.trans hr, hk, hround.trans ?_⟩
  have hscorable : ((config.employeeOverload.factors.filter isScorable).map Prod.fst).Nodup :=
    hkeys.sublist (List.filter_sublist.map _)
  have hsum := sum_of_one (g := fun other =>
    clamp ((load factor.1 other.1 n : Nat) / other.2.normalizationCap) 0 1 * other.2.weight * 100) hscorable
    (List.mem_filter.mpr ⟨hf, hs⟩) fun other _ hne => by simp [load, hne, clamp]
  rw [havailable, hsum, load, if_pos rfl]

theorem coverage_scorable (i : EmployeeOverloadInput) (references : EvidenceReferences) (factors : Factors) :
    weightOf (factors.filter (evidenced (factorValue i) references)) ≤ weightOf (factors.filter isScorable) := by
  have hfilter : factors.filter (evidenced (factorValue i) references) =
      (factors.filter isScorable).filter (evidenced (factorValue i) references) := by
    rw [List.filter_filter]
    refine List.filter_congr fun factor _ => ?_
    cases he : evidenced (factorValue i) references factor with
    | true => simp [scorable_of_evidenced he]
    | false => rfl
  rw [hfilter]
  exact weightOf_filter _

/-- Below the scorable weight of 0.6 nothing is scored. -/
theorem overload_never_scored {config : ScoringConfiguration}
    (hweight : weightOf (config.employeeOverload.factors.filter isScorable) < 3 / 5) (i : EmployeeOverloadInput)
    (scoredAt : AwareDatetime) : NothingScored i config scoredAt :=
  Or.inr ((coverage_scorable i i.evidenceReferences config.employeeOverload.factors).trans_lt hweight)

/-! ## Exactly the monotone configurations -/

/-- Changing what the one factor shows, to a riskier value. -/
theorem loaded_riskier (config : ScoringConfiguration) {name : String} {n n' : Nat}
    (h : ∀ factor ∈ config.employeeOverload.factors, factor.1 = name → Riskier factor.2.direction n n') :
    RiskierInput config (loadedInput config.employeeOverload.factors name n)
      (loadedInput config.employeeOverload.factors name n') := by
  have hkeys := config.employeeOverload.factors_keys
  refine ⟨rfl, ⟨fun factor hf => ?_, fun factor hf he v hv v' hv' => ?_⟩, rfl⟩
  · exact (evidenced_loaded hkeys name n hf).trans (evidenced_loaded hkeys name n' hf).symm
  · have hs := of_decide_eq_true (scorable_of_evidenced he)
    obtain rfl : (load name factor.1 n : Rat) = v := Option.some.inj ((factorValue_loaded _ _ _ hs).symm.trans hv)
    obtain rfl : (load name factor.1 n' : Rat) = v' := Option.some.inj ((factorValue_loaded _ _ _ hs).symm.trans hv')
    unfold load
    by_cases hname : factor.1 = name
    · rw [if_pos hname, if_pos hname]
      exact h factor hf hname
    · rw [if_neg hname, if_neg hname]
      unfold Riskier
      split
      · exact le_rfl
      · exact le_rfl
      · exact le_rfl

theorem riskier_zero {direction : FactorDirection} (h : direction ≠ .increasesRisk) (n : Nat) :
    Riskier direction n (0 : Nat) := by
  have hn : ((0 : Nat) : Rat) ≤ n := Nat.cast_le.mpr (Nat.zero_le n)
  cases direction with
  | increasesRisk => exact absurd rfl h
  | inverseRisk => exact hn
  | protective => exact hn

theorem clamp_zero {high : Rat} (h : 0 ≤ high) : clamp 0 0 high = 0 := by
  rw [clamp, min_eq_left h, max_self]

theorem clamp_capped {settings : FactorConfiguration} {v : Rat} (h : settings.normalizationCap ≤ v) :
    clamp (v / settings.normalizationCap) 0 1 = 1 := by
  rw [clamp, min_eq_right ((one_le_div settings.normalizationCap_pos).mpr h), max_eq_right zero_le_one]

/-- A factor worth more than half a point scores at its cap. -/
theorem points_worth (settings : FactorConfiguration) (h : 1 / 2 < settings.weight * 100) :
    1 ≤ roundEven (clamp (settings.weight * 100) 0 100) := by
  have hle : settings.weight * 100 ≤ 100 := by linarith [settings.weight_range.2]
  rw [clamp, min_eq_left hle, max_eq_right (by linarith)]
  refine le_roundEven_of_half ?_
  push_cast
  linarith

/-- Where the factors of another direction are worth more than half a point, the overload scorer
    is monotone exactly if it scores nothing or reads none of them. -/
theorem overload_monotone_iff (config : ScoringConfiguration)
    (hworth : ∀ factor ∈ config.employeeOverload.factors, isScorable factor = true →
      factor.2.direction ≠ .increasesRisk → 1 / 2 < factor.2.weight * 100) :
    OverloadMonotone config ↔ weightOf (config.employeeOverload.factors.filter isScorable) < 3 / 5 ∨
      ∀ factor ∈ config.employeeOverload.factors, isScorable factor = true →
        factor.2.direction = .increasesRisk := by
  constructor
  · intro hmono
    by_contra hno
    obtain ⟨hweight, hdirections⟩ := not_or.mp hno
    obtain ⟨factor, hdirections⟩ := not_forall.mp hdirections
    obtain ⟨hf, hdirections⟩ := Classical.not_imp.mp hdirections
    obtain ⟨hs, hd⟩ := Classical.not_imp.mp hdirections
    -- at its cap the factor scores, without it nothing does
    obtain ⟨r, k, hr, hk, hpoints⟩ := loaded_score hweight hf hs ⌈factor.2.normalizationCap⌉₊
    obtain ⟨r', k', hr', hk', hpoints'⟩ := loaded_score hweight hf hs 0
    have hriskier : RiskierInput config
        (loadedInput config.employeeOverload.factors factor.1 ⌈factor.2.normalizationCap⌉₊)
        (loadedInput config.employeeOverload.factors factor.1 0) := by
      refine loaded_riskier config fun other hother hname => ?_
      have hfind := find_factor config.employeeOverload.factors_keys hother
      rw [hname, find_factor config.employeeOverload.factors_keys hf] at hfind
      obtain rfl : factor = other := Option.some.inj hfind
      exact riskier_zero hd _
    have hle := (hmono _ _ hriskier _ r r' hr hr').score k hk k' hk'
    rw [clamp_capped (Nat.le_ceil _), one_mul] at hpoints
    rw [Nat.cast_zero, zero_div, clamp_zero zero_le_one, zero_mul, zero_mul, clamp_zero (by norm_num)] at hpoints'
    have hlow := points_worth factor.2 (hworth factor hf hs hd)
    have hzero : roundEven (0 : Rat) = 0 := roundEven_intCast 0
    have hnat : k.val ≤ k'.val := hle
    omega
  · intro h i i' hriskier scoredAt r r' hr hr'
    rcases h with hweight | hdirections
    · exact overload_monotone hriskier (Or.inl (overload_never_scored hweight i scoredAt)) hr hr'
    · refine overload_monotone hriskier (Or.inr (pointsLost_le hriskier fun factor hf hd he => ?_)) hr hr'
      exact absurd (hdirections factor hf (scorable_of_evidenced he)) hd

/-- More remaining hours and less capacity are more utilization. -/
theorem utilization_mono {i i' : EmployeeOverloadInput}
    (hr : ∀ h ∈ i.remainingEstimatedHours, ∀ h' ∈ i'.remainingEstimatedHours, h.1 ≤ h'.1)
    (hc : ∀ h ∈ i.availableCapacityHours, ∀ h' ∈ i'.availableCapacityHours, h'.1 ≤ h.1) {v v' : Rat}
    (hv : v ∈ factorValue i "utilization") (hv' : v' ∈ factorValue i' "utilization") :
    Riskier .increasesRisk v v' := by
  obtain ⟨remaining, hremaining, hv⟩ := Option.bind_eq_some_iff.mp (hv : utilization i = some v)
  obtain ⟨remaining', hremaining', hv'⟩ := Option.bind_eq_some_iff.mp (hv' : utilization i' = some v')
  obtain ⟨capacity, hcapacity, rfl⟩ := Option.map_eq_some_iff.mp hv
  obtain ⟨capacity', hcapacity', rfl⟩ := Option.map_eq_some_iff.mp hv'
  exact div_le_div₀ remaining'.2 (hr _ hremaining _ hremaining') capacity'.2 (hc _ hcapacity _ hcapacity')

/-- Riskier evidence scores no lower: in a family always; as overload where nothing is scored
    or no points are lost on the whole (as where no factor that lowers the risk changes its
    capped value), but not where more than one is; and, such factors being worth more than
    half a point, under exactly the configurations that score nothing or read none of them. -/
theorem riskier_evidence_scores_no_lower (config : ScoringConfiguration) (i i' : EmployeeOverloadInput)
    (family : ScoreFamilyConfiguration) (j j' : FamilyInput) :
    (RiskierEvidence family.factors (valueOf j.values) (valueOf j'.values) j.evidenceReferences
        j'.evidenceReferences → j.evidenceTimestamp = j'.evidenceTimestamp →
      ∀ thresholds scoredAt r r', scoreNormalizedFamily j family thresholds scoredAt = .ok r →
        scoreNormalizedFamily j' family thresholds scoredAt = .ok r' → NotLower r.result r'.result) ∧
    (RiskierInput config i i' → ∀ scoredAt r r', scoreEmployeeOverload i config scoredAt = .ok r →
      scoreEmployeeOverload i' config scoredAt = .ok r' →
      (NothingScored i config scoredAt ∨ CappedAlike config.employeeOverload.factors i i' ∨ pointsLost config i i' ≤ 0 →
        NotLower r.result r'.result) ∧
      (¬ NothingScored i config scoredAt → 1 < pointsLost config i i' → ¬ NotLower r.result r'.result)) ∧
    ((∀ factor ∈ config.employeeOverload.factors, isScorable factor = true →
        factor.2.direction ≠ .increasesRisk → 1 / 2 < factor.2.weight * 100) →
      (OverloadMonotone config ↔ weightOf (config.employeeOverload.factors.filter isScorable) < 3 / 5 ∨
        ∀ factor ∈ config.employeeOverload.factors, isScorable factor = true →
          factor.2.direction = .increasesRisk)) ∧
    ((∀ h ∈ i.remainingEstimatedHours, ∀ h' ∈ i'.remainingEstimatedHours, h.1 ≤ h'.1) →
      (∀ h ∈ i.availableCapacityHours, ∀ h' ∈ i'.availableCapacityHours, h'.1 ≤ h.1) →
      ∀ v ∈ factorValue i "utilization", ∀ v' ∈ factorValue i' "utilization", Riskier .increasesRisk v v') :=
  ⟨fun h htime _ _ _ _ hr hr' => family_monotone h htime hr hr',
    fun h _ _ _ hr hr' =>
      ⟨fun hlost => overload_monotone h (hlost.imp_right fun hlost => hlost.elim (pointsLost_le h) id) hr hr',
        fun hscored hlost => overload_lower h hscored hlost hr hr'⟩,
    overload_monotone_iff config,
    fun hr hc _ hv _ hv' => utilization_mono hr hc hv hv'⟩

/-- The sample employee's work, named by its factor. -/
def sampleWork (name : String) (n : Nat) : EmployeeOverloadInput := loadedInput (sampleFactors .protective) name n

/-- The same without the remaining hours. -/
def unknownHours (n : Nat) : EmployeeOverloadInput := { sampleWork "overdue_work" n with remainingEstimatedHours := none }

theorem unknownHours_riskier : RiskierInput (sampleConfig .protective 29 54 74) (unknownHours 2) (unknownHours 0) where
  mandatory := rfl
  evidence :=
    { same := fun factor hf => by
        rcases List.mem_cons.mp hf with rfl | hf
        · rfl
        · obtain rfl := List.mem_singleton.mp hf
          rfl
      riskier := fun factor hf _ v hv v' hv' => by
        rcases List.mem_cons.mp hf with rfl | hf
        · cases hv
        · obtain rfl := List.mem_singleton.mp hf
          obtain rfl : ((2 : Nat) : Rat) = v := Option.some.inj hv
          obtain rfl : ((0 : Nat) : Rat) = v' := Option.some.inj hv'
          exact riskier_zero (by decide) 2 }
  time := rfl

/-- Of two employees with the same protection, the busier one scores no lower; nor does the less
    protected one of two whose hours are unknown. -/
theorem busier_scores_no_lower :
    (∃ r r', scoreEmployeeOverload (sampleWork "utilization" 1) (sampleConfig .protective 29 54 74) ⟨0, 0⟩ = .ok r ∧
      scoreEmployeeOverload (sampleWork "utilization" 2) (sampleConfig .protective 29 54 74) ⟨0, 0⟩ = .ok r' ∧
      NotLower r.result r'.result) ∧
    ∃ r r', scoreEmployeeOverload (unknownHours 2) (sampleConfig .protective 29 54 74) ⟨0, 0⟩ = .ok r ∧
      scoreEmployeeOverload (unknownHours 0) (sampleConfig .protective 29 54 74) ⟨0, 0⟩ = .ok r' ∧
      NotLower r.result r'.result := by
  obtain ⟨r, hr, -⟩ := overload_accounts (sampleWork "utilization" 1) (sampleConfig .protective 29 54 74) ⟨0, 0⟩
  obtain ⟨r', hr', -⟩ := overload_accounts (sampleWork "utilization" 2) (sampleConfig .protective 29 54 74) ⟨0, 0⟩
  have hriskier : RiskierInput (sampleConfig .protective 29 54 74) (sampleWork "utilization" 1)
      (sampleWork "utilization" 2) := loaded_riskier _ fun factor hf hname => by
    rcases List.mem_cons.mp hf with rfl | hf
    · exact Nat.cast_le.mpr (by decide)
    · obtain rfl := List.mem_singleton.mp hf
      exact absurd hname (by decide)
  have hcapped : CappedAlike (sampleFactors .protective) (sampleWork "utilization" 1) (sampleWork "utilization" 2) := by
    intro factor hf hd _ v hv v' hv'
    rcases List.mem_cons.mp hf with rfl | hf
    · exact absurd rfl hd
    · obtain rfl := List.mem_singleton.mp hf
      obtain rfl : (0 : Rat) = v := Option.some.inj hv
      obtain rfl : (0 : Rat) = v' := Option.some.inj hv'
      rfl
  have hmonotone := riskier_evidence_scores_no_lower (sampleConfig .protective 29 54 74) (sampleWork "utilization" 1)
    (sampleWork "utilization" 2) (sampleFamily .protective) (sampleFamilyInput 0 0) (sampleFamilyInput 0 0)
  refine ⟨⟨r, r', hr, hr', (hmonotone.2.1 hriskier _ r r' hr hr').1 (.inr (.inl hcapped))⟩, ?_⟩
  obtain ⟨s, hs, -⟩ := overload_accounts (unknownHours 2) (sampleConfig .protective 29 54 74) ⟨0, 0⟩
  obtain ⟨s', hs', -⟩ := overload_accounts (unknownHours 0) (sampleConfig .protective 29 54 74) ⟨0, 0⟩
  have hunknown := riskier_evidence_scores_no_lower (sampleConfig .protective 29 54 74) (unknownHours 2) (unknownHours 0)
    (sampleFamily .protective) (sampleFamilyInput 0 0) (sampleFamilyInput 0 0)
  exact ⟨s, s', hs, hs', (hunknown.2.1 unknownHours_riskier _ s s' hs hs').1 (.inl (.inl (.inl (.inl rfl))))⟩

/-- Of two employees with the same work, the less protected one scores lower. -/
theorem less_protection_scores_lower : ¬ ∀ config : ScoringConfiguration, OverloadMonotone config := by
  intro h
  have hrun : (scoreEmployeeOverload (sampleWork "overdue_work" 2) (sampleConfig .protective 29 54 74)
      ⟨0, 0⟩).toOption.any (·.result.score == some 30) = true := by decide +kernel
  have hrun' : (scoreEmployeeOverload (sampleWork "overdue_work" 0) (sampleConfig .protective 29 54 74)
      ⟨0, 0⟩).toOption.any (·.result.score == some 0) = true := by decide +kernel
  obtain ⟨r, hr, hscore⟩ := exists_ok_of_any hrun
  obtain ⟨r', hr', hscore'⟩ := exists_ok_of_any hrun'
  have hriskier : RiskierInput (sampleConfig .protective 29 54 74) (sampleWork "overdue_work" 2)
      (sampleWork "overdue_work" 0) := loaded_riskier _ fun factor hf hname => by
    rcases List.mem_cons.mp hf with rfl | hf
    · exact absurd hname (by decide)
    · obtain rfl := List.mem_singleton.mp hf
      exact riskier_zero (by decide) 2
  have hle := (h _ _ _ hriskier _ r r' hr hr').score 30 (eq_of_beq hscore) 0 (eq_of_beq hscore')
  exact absurd hle (by decide)

end WorkforceRisk.Scoring
