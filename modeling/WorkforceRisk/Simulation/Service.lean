/-
  WorkforceRisk.Simulation.Service — what if the task were another's
  (domain/workforce_risk/simulation/service.py).

  Whether the selected employee is eligible is asked of the assessments, by its id; the
  scores are those of the first candidate with the id, which need not be the eligible one
  when an id is repeated. That the selected employee is another than the current one is
  not asked. `proposes_eligible_iff` says when a simulation proposes an eligible
  reassignment all the same. For distinct ids the order of the candidates matters to
  nothing (`canonical_ranking`).
-/

import WorkforceRisk.Lib.Windows
import WorkforceRisk.Profiles.Capacity
import WorkforceRisk.Simulation.Candidates

namespace WorkforceRisk.Simulation

open Lib Persistence Historical Evidence Profiles Risk Scoring

/-! ## Models -/

structure ScoreFamilies where
  employeeOverload : ScoredResult
  taskFit : ScoredResult
  projectDelivery : ScoredResult

def ScoreFamilies.versions (s : ScoreFamilies) : List String :=
  [s.employeeOverload.result.scoringModelVersion, s.taskFit.result.scoringModelVersion,
    s.projectDelivery.result.scoringModelVersion]

structure ReassignmentSimulation where
  taskId : String
  currentAssigneeId : String
  proposedAssigneeId : String
  current : ScoreFamilies
  proposed : ScoreFamilies
  candidateIds : List String
  evidenceFingerprint : String
  sameScoringRules : current.versions = proposed.versions
  proposed_ok : proposedAssigneeId ∈ candidateIds

def confidenceValue : ConfidenceLevel → String
  | .high => "high"
  | .medium => "medium"
  | .low => "low"
  | .insufficientData => "insufficient-data"

def directionValue : FactorDirection → String
  | .increasesRisk => "increases_risk"
  | .inverseRisk => "inverse_risk"
  | .protective => "protective"

def contributionDump (f : FactorContribution) : Json := .obj
  [ ("name", .str f.name),
    ("raw_value", .num f.rawValue),
    ("normalized_value", .num f.normalizedValue),
    ("weight", .num f.weight),
    ("direction", .str (directionValue f.direction)),
    ("contribution_points", .num f.contributionPoints),
    ("evidence_references", .strs f.evidenceReferences) ]

/-- `model_dump(mode="json")` of a result. -/
def resultDump (r : ScoredResult) : Json := .obj
  [ ("subject_id", .str r.result.subjectId),
    ("environment", .str r.result.environment.value),
    ("score", .opt (fun score => .num score.1) r.result.score),
    ("level", .opt (fun level => .str level.value) r.result.level),
    ("confidence", .str (confidenceValue r.result.confidence)),
    ("scored_at", .str r.scoredAt.dumped),
    ("evidence_timestamp", .str r.evidenceTimestamp.dumped),
    ("scoring_model_version", .str r.result.scoringModelVersion),
    ("factors", .arr (r.result.factors.map contributionDump)),
    ("thresholds", .obj (r.result.thresholds.map fun (name, maximum) => (name, .num maximum))),
    ("evidence_references", .strs r.result.evidenceReferences),
    ("missing_evidence", .strs r.result.missingEvidence),
    ("excluded_evidence", .strs r.result.excludedEvidence) ]

def ScoreFamilies.dump (s : ScoreFamilies) : Json := .obj
  [ ("employee_overload", resultDump s.employeeOverload),
    ("task_fit", resultDump s.taskFit),
    ("project_delivery", resultDump s.projectDelivery) ]

/-! ## The simulation -/

section
variable [Unicode] [FloatSum]

def CandidateEvidence.scores (c : CandidateEvidence) : ScoreFamilies :=
  ⟨c.overloadRisk, c.taskFitRisk, c.predictedProjectRisk⟩

def eligibleIds (candidates : List CandidateEvidence) : List String :=
  ((selectCandidates candidates).filter (·.eligible)).map (·.employeeId)

/-- The first candidate with the id. -/
def candidateOf (candidates : List CandidateEvidence) (employeeId : String) : Option CandidateEvidence :=
  candidates.find? (·.profile.employeeId == employeeId)

section
variable [Sha256]

def simulationFingerprint (taskId currentAssigneeId proposedAssigneeId : String) (candidateIds : List String)
    (current proposed : ScoreFamilies) : String := Sha256.canonical (.obj
  [ ("task_id", .str taskId),
    ("current_assignee_id", .str currentAssigneeId),
    ("proposed_assignee_id", .str proposedAssigneeId),
    ("candidate_ids", .strs candidateIds),
    ("current", current.dump),
    ("proposed", proposed.dump) ])

def simulateReassignment (taskId currentAssigneeId : String) (candidates : List CandidateEvidence)
    (selectedEmployeeId : String) (currentScores : ScoreFamilies) : Except Error ReassignmentSimulation :=
  match candidateOf candidates selectedEmployeeId with
  | none => .error (.valueError "selected employee is not an eligible candidate")
  | some selected =>
    if heligible : selectedEmployeeId ∈ eligibleIds candidates then
      -- the model's own second check, that the proposed assignee is a candidate, is this one
      if hversions : currentScores.versions = selected.scores.versions then .ok
        { taskId := taskId
          currentAssigneeId := currentAssigneeId
          proposedAssigneeId := selectedEmployeeId
          current := currentScores
          proposed := selected.scores
          candidateIds := eligibleIds candidates
          evidenceFingerprint := simulationFingerprint taskId currentAssigneeId selectedEmployeeId
            (eligibleIds candidates) currentScores selected.scores
          sameScoringRules := hversions
          proposed_ok := heligible }
      else .error (.validationError "" "Value error, what-if states must use identical scoring versions")
    else .error (.valueError "selected employee is not an eligible candidate")

/-! ## Any order -/

/-- The assessments are ranked, each once; and for distinct ids neither they nor a
    simulation, whoever is selected, depend on the order of the candidates. -/
theorem canonical_ranking (candidates : List CandidateEvidence) :
    (selectCandidates candidates).Perm (candidates.map assessCandidate) ∧
    (selectCandidates candidates).Pairwise CandidateAssessment.Before ∧
    ((candidates.map (·.profile.employeeId)).Nodup → ∀ candidates', candidates.Perm candidates' →
      selectCandidates candidates = selectCandidates candidates' ∧
      ∀ taskId currentAssigneeId selectedEmployeeId currentScores,
        simulateReassignment taskId currentAssigneeId candidates selectedEmployeeId currentScores =
          simulateReassignment taskId currentAssigneeId candidates' selectedEmployeeId currentScores) := by
  refine ⟨select_perm candidates, select_ordered candidates, fun hids candidates' h => ?_⟩
  have hselect := select_eq_of_perm hids h
  refine ⟨hselect, fun taskId currentAssigneeId selectedEmployeeId currentScores => ?_⟩
  have heligible : eligibleIds candidates = eligibleIds candidates' := by rw [eligibleIds, eligibleIds, hselect]
  have hfirst : candidateOf candidates selectedEmployeeId = candidateOf candidates' selectedEmployeeId :=
    find?_perm h (countP_key_le hids selectedEmployeeId)
  unfold simulateReassignment
  simp only [heligible, hfirst]

/-! ## What is proposed -/

/-- All three scores are there, of medium or high confidence, and the overload is below 75. -/
structure ScoreFamilies.Sound (s : ScoreFamilies) : Prop where
  scored : ∀ r ∈ [s.employeeOverload, s.taskFit, s.projectDelivery], r.result.score.isSome = true ∧ isAcceptable r = true
  overload : ∀ score ∈ s.employeeOverload.result.score, score.1 < 75

/-- An eligible candidate of the id with these scores. -/
def IsEligible (candidates : List CandidateEvidence) (employeeId : String) (scores : ScoreFamilies) : Prop :=
  ∃ c ∈ candidates, c.profile.employeeId = employeeId ∧ c.scores = scores ∧ (assessCandidate c).eligible = true

/-- Another employee is proposed, with the scores of a candidate of that id that is eligible. -/
structure ProposesEligible (candidates : List CandidateEvidence) (s : ReassignmentSimulation) : Prop where
  another : s.proposedAssigneeId ≠ s.currentAssigneeId
  eligible : IsEligible candidates s.proposedAssigneeId s.proposed
  sound : s.proposed.Sound

variable {candidates : List CandidateEvidence} {taskId currentAssigneeId selectedEmployeeId employeeId : String}
  {currentScores : ScoreFamilies} {s : ReassignmentSimulation} {c : CandidateEvidence}

omit [Sha256] in
theorem mem_eligibleIds : employeeId ∈ eligibleIds candidates ↔
    ∃ c ∈ candidates, c.profile.employeeId = employeeId ∧ (assessCandidate c).eligible = true := by
  rw [eligibleIds, List.mem_map]
  constructor
  · intro h
    obtain ⟨a, ha, rfl⟩ := h
    obtain ⟨ha, heligible⟩ := List.mem_filter.mp ha
    obtain ⟨c, hc, rfl⟩ := List.mem_map.mp ((select_perm candidates).subset ha)
    exact ⟨c, hc, (assessCandidate_employeeId c).symm, heligible⟩
  · intro h
    obtain ⟨c, hc, rfl, heligible⟩ := h
    have hmem : assessCandidate c ∈ selectCandidates candidates :=
      (select_perm candidates).symm.subset (List.mem_map_of_mem hc)
    exact ⟨_, List.mem_filter.mpr ⟨hmem, heligible⟩, assessCandidate_employeeId c⟩

/-- What a simulation has of its arguments. -/
theorem simulateReassignment_ok
    (h : simulateReassignment taskId currentAssigneeId candidates selectedEmployeeId currentScores = .ok s) :
    s.proposedAssigneeId = selectedEmployeeId ∧ s.currentAssigneeId = currentAssigneeId ∧
      ∃ c, candidateOf candidates selectedEmployeeId = some c ∧ s.proposed = c.scores := by
  unfold simulateReassignment at h
  split at h
  · cases h
  · rename_i c hc
    split at h
    · split at h
      · cases h
        exact ⟨rfl, rfl, c, hc, rfl⟩
      · cases h
    · cases h

theorem simulateReassignment_returns (hc : candidateOf candidates selectedEmployeeId = some c)
    (heligible : selectedEmployeeId ∈ eligibleIds candidates) (hversions : currentScores.versions = c.scores.versions) :
    ∃ s, simulateReassignment taskId currentAssigneeId candidates selectedEmployeeId currentScores = .ok s := by
  unfold simulateReassignment
  split
  · rename_i hnone
    rw [hc] at hnone
    cases hnone
  · rename_i found hfound
    obtain rfl := Option.some.inj (hc.symm.trans hfound)
    rw [dif_pos heligible, dif_pos hversions]
    exact ⟨_, rfl⟩

omit [Sha256] in
theorem CandidateEvidence.Fit.sound (h : c.Fit) : c.scores.Sound where
  scored := fun r hr => ⟨h.scores r hr, h.confidence r hr⟩
  overload := h.overload

/-- The first candidate listed under the id is eligible, or has the results of one that is. -/
def FirstIsEligible (candidates : List CandidateEvidence) (employeeId : String) : Prop :=
  ∀ first, candidateOf candidates employeeId = some first → IsEligible candidates employeeId first.scores

/-- A simulation proposes an eligible reassignment exactly when another employee than the
    current one is selected, and the first candidate of that id is eligible or has the very
    results of one that is. -/
theorem proposes_eligible_iff
    (h : simulateReassignment taskId currentAssigneeId candidates selectedEmployeeId currentScores = .ok s) :
    ProposesEligible candidates s ↔
      selectedEmployeeId ≠ currentAssigneeId ∧ FirstIsEligible candidates selectedEmployeeId := by
  obtain ⟨hproposed, hcurrent, c, hc, hscores⟩ := simulateReassignment_ok h
  constructor
  · intro hp
    refine ⟨fun hsame => hp.another (hproposed.trans (hsame.trans hcurrent.symm)), fun first hfirst => ?_⟩
    obtain rfl := Option.some.inj (hc.symm.trans hfirst)
    have heligible := hp.eligible
    rwa [hproposed, hscores] at heligible
  · intro hcond
    obtain ⟨hanother, hfirst⟩ := hcond
    have heligible := hfirst c hc
    obtain ⟨d, _, _, hd, hfit⟩ := heligible
    constructor
    · rwa [hproposed, hcurrent]
    · rw [hproposed, hscores]
      exact hfirst c hc
    · rw [hscores, ← hd]
      exact (eligible_iff.mp hfit).sound

omit [Sha256] in
/-- For distinct ids the first candidate of an eligible id is the eligible one. -/
theorem firstIsEligible_of_distinct (hids : (candidates.map (·.profile.employeeId)).Nodup)
    (h : employeeId ∈ eligibleIds candidates) : FirstIsEligible candidates employeeId := by
  intro first hfirst
  obtain ⟨c, hc, hid, heligible⟩ := mem_eligibleIds.mp h
  have hfound : candidateOf candidates employeeId = some c :=
    find?_eq_of_mem (countP_key_le hids employeeId) hc (by rw [hid]; exact beq_self_eq_true _)
  obtain rfl := Option.some.inj (hfound.symm.trans hfirst)
  exact ⟨c, hc, hid, rfl, heligible⟩

end

end

/-! ## Samples -/

section
attribute [local instance] Unicode.ascii FloatSum.exact Sha256.transparent

/-- A result of this score, or none. -/
def resultOf (score : Option (Fin 101)) : ScoredResult :=
  { result :=
      { subjectId := "EMP-001"
        environment := .dev
        score := score
        level := score.map fun _ => .low
        confidence := if score.isSome then .high else .insufficientData
        scoringModelVersion := "v1"
        factors := []
        thresholds := [("low_max", 29), ("medium_max", 54), ("high_max", 74)]
        evidenceReferences := []
        missingEvidence := []
        excludedEvidence := [] }
    scoredAt := ⟨0, 0⟩
    evidenceTimestamp := ⟨0, 0⟩ }

def sampleCandidate (score : Option (Fin 101)) : CandidateEvidence :=
  ⟨sampleProfile, true, resultOf score, resultOf score, resultOf score⟩

theorem colleague_id : isKey 2 "EMP-002" = true := by decide

def colleague : CandidateEvidence :=
  { sampleCandidate (some 10) with profile := { sampleProfile with employeeId := "EMP-002", employeeId_ok := colleague_id } }

/-- Two employees with the same scores, ranked alike whoever comes first. -/
theorem canonical_ranking_sample :
    selectCandidates [sampleCandidate (some 10), colleague] = selectCandidates [colleague, sampleCandidate (some 10)] := by
  obtain ⟨_, _, hany⟩ := canonical_ranking [sampleCandidate (some 10), colleague]
  exact (hany (by decide) _ (List.Perm.swap _ _ [])).1

theorem sampleCandidate_eligible : (assessCandidate (sampleCandidate (some 10))).eligible = true := by decide +kernel

/-- What comes of selecting the employee of these candidates for a task. -/
def sampleSimulation (currentAssigneeId : String) (candidates : List CandidateEvidence) :
    Except Error ReassignmentSimulation :=
  simulateReassignment "WFD-1" currentAssigneeId candidates "EMP-001" (sampleCandidate (some 10)).scores

theorem sample_is_eligible {candidates : List CandidateEvidence} (h : sampleCandidate (some 10) ∈ candidates) :
    "EMP-001" ∈ eligibleIds candidates := mem_eligibleIds.mpr ⟨_, h, rfl, sampleCandidate_eligible⟩

theorem sampleSimulation_returns (currentAssigneeId : String) (score : Option (Fin 101)) (rest : List CandidateEvidence)
    (h : sampleCandidate (some 10) ∈ sampleCandidate score :: rest) :
    ∃ s, sampleSimulation currentAssigneeId (sampleCandidate score :: rest) = .ok s :=
  simulateReassignment_returns rfl (sample_is_eligible h) rfl

/-- The current assignee is proposed to itself; and of an id that is listed twice, the
    first time without a score, no scores are proposed. -/
theorem proposes_no_other_and_no_scores :
    (∃ s, sampleSimulation "EMP-001" [sampleCandidate (some 10)] = .ok s ∧
      ¬ ProposesEligible [sampleCandidate (some 10)] s) ∧
    ∃ s, sampleSimulation "EMP-002" [sampleCandidate none, sampleCandidate (some 10)] = .ok s ∧
      ¬ ProposesEligible [sampleCandidate none, sampleCandidate (some 10)] s := by
  refine ⟨?_, ?_⟩
  · obtain ⟨s, hs⟩ := sampleSimulation_returns "EMP-001" (some 10) [] (by simp)
    obtain ⟨hproposed, hcurrent, _⟩ := simulateReassignment_ok hs
    exact ⟨s, hs, fun h => h.another (hproposed.trans hcurrent.symm)⟩
  · obtain ⟨s, hs⟩ := sampleSimulation_returns "EMP-002" none [sampleCandidate (some 10)] (by simp)
    obtain ⟨_, _, c, hc, hscores⟩ := simulateReassignment_ok hs
    obtain rfl := Option.some.inj hc
    refine ⟨s, hs, fun h => ?_⟩
    have hscored := (h.sound.scored s.proposed.employeeOverload (by simp)).1
    rw [hscores] at hscored
    cases hscored

/-- Selected for another's task an eligible employee is proposed as it is, listed before a
    colleague, and also where its id comes again without a score. -/
theorem proposes_eligible_sample :
    (∃ s, sampleSimulation "EMP-002" [sampleCandidate (some 10), colleague] = .ok s ∧
      ProposesEligible [sampleCandidate (some 10), colleague] s) ∧
    ∃ s, sampleSimulation "EMP-002" [sampleCandidate (some 10), colleague, sampleCandidate none] = .ok s ∧
      ProposesEligible [sampleCandidate (some 10), colleague, sampleCandidate none] s := by
  constructor
  · obtain ⟨s, hs⟩ := sampleSimulation_returns "EMP-002" (some 10) [colleague] (by simp)
    have heligible : "EMP-001" ∈ eligibleIds [sampleCandidate (some 10), colleague] := sample_is_eligible (by simp)
    exact ⟨s, hs, (proposes_eligible_iff hs).mpr ⟨by decide, firstIsEligible_of_distinct (by decide) heligible⟩⟩
  · obtain ⟨s, hs⟩ := sampleSimulation_returns "EMP-002" (some 10) [colleague, sampleCandidate none] (by simp)
    refine ⟨s, hs, (proposes_eligible_iff hs).mpr ⟨by decide, fun first hfirst => ?_⟩⟩
    -- the first of the two listed under the id is the one that has a score
    obtain rfl : sampleCandidate (some 10) = first := Option.some.inj hfirst
    exact ⟨sampleCandidate (some 10), by simp, rfl, rfl, sampleCandidate_eligible⟩

end

end WorkforceRisk.Simulation
