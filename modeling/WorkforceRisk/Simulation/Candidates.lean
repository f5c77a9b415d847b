/-
  WorkforceRisk.Simulation.Candidates — who may take a task over
  (domain/workforce_risk/simulation/candidates.py).

  A candidate is assessed alone: it is eligible when nothing speaks against it, and ranked
  by three weighted scores. Assessments are sorted by a key that ends in the employee's id,
  so that for distinct ids the order of the candidates does not matter.

  Scores are exact; `round` is to the nearest, halves to the even one.
-/

import Mathlib.Data.Prod.Lex
import Mathlib.Order.WithBot
import WorkforceRisk.Lib.Ordering
import WorkforceRisk.Profiles.Model
import WorkforceRisk.Scoring.Common

namespace WorkforceRisk.Simulation

open Lib Persistence Historical Evidence Profiles Risk Scoring

section
variable [Unicode] [FloatSum]

structure CandidateEvidence where
  profile : WorkforceProfile
  hasJiraProjectAccess : Bool
  overloadRisk : ScoredResult
  taskFitRisk : ScoredResult
  predictedProjectRisk : ScoredResult

structure CandidateAssessment where
  employeeId : String
  eligible : Bool
  reasons : List String
  rankingScore : Option Rat
  deriving DecidableEq

/-- `result.confidence in ACCEPTABLE_CONFIDENCE`. -/
def isAcceptable (result : ScoredResult) : Bool := result.result.confidence ∈ [ConfidenceLevel.medium, .high]

def CandidateEvidence.risks (c : CandidateEvidence) : List ScoredResult :=
  [c.overloadRisk, c.taskFitRisk, c.predictedProjectRisk]

/-- What speaks against a candidate. -/
def CandidateEvidence.reasons (c : CandidateEvidence) : List String :=
  (if c.profile.jiraAccountId.isNone || !c.hasJiraProjectAccess then ["jira_access_unavailable"] else []) ++
  (if c.risks.any fun result => !isAcceptable result then ["confidence_below_minimum"] else []) ++
  (if c.risks.any fun result => result.result.score.isNone then ["incomplete_structured_evidence"] else []) ++
  (if c.overloadRisk.result.score.any fun score => 75 ≤ score.1 then ["candidate_overloaded"] else [])

/-- `round(x, 2)`. -/
def hundredths (x : Rat) : Rat := roundEven (100 * x) / 100

/-- `round(task_fit * 0.5 + overload * 0.3 + project * 0.2, 2)`. -/
def ranking (overload taskFit project : Fin 101) : Rat :=
  hundredths (taskFit.1 * (1 / 2) + overload.1 * (3 / 10) + project.1 * (1 / 5))

/-- What an eligible candidate is. -/
structure CandidateEvidence.Fit (c : CandidateEvidence) : Prop where
  access : c.profile.jiraAccountId.isSome = true ∧ c.hasJiraProjectAccess = true
  confidence : ∀ result ∈ c.risks, isAcceptable result = true
  scores : ∀ result ∈ c.risks, result.result.score.isSome = true
  overload : ∀ score ∈ c.overloadRisk.result.score, score.1 < 75

theorem reasons_eq_nil_iff {c : CandidateEvidence} : c.reasons = [] ↔ c.Fit := by
  have hreason : ∀ (b : Bool) (reason : String), (if b then [reason] else []) = [] ↔ b = false := by
    intro b reason
    cases b <;> simp
  simp only [CandidateEvidence.reasons, List.append_eq_nil_iff, hreason, Bool.or_eq_false_iff, Option.isNone_eq_false_iff,
    Bool.not_eq_false', List.any_eq_false, Option.any_eq_false, Bool.not_eq_true, decide_eq_false_iff_not, not_le]
  constructor
  · intro h
    exact ⟨h.1.1.1, h.1.1.2, h.1.2, h.2⟩
  · intro h
    exact ⟨⟨⟨h.access, h.confidence⟩, h.scores⟩, h.overload⟩

theorem CandidateEvidence.Fit.scored {c : CandidateEvidence} (h : c.Fit) : c.overloadRisk.result.score.isSome = true ∧
    c.taskFitRisk.result.score.isSome = true ∧ c.predictedProjectRisk.result.score.isSome = true :=
  ⟨h.scores _ (by simp [CandidateEvidence.risks]), h.scores _ (by simp [CandidateEvidence.risks]),
    h.scores _ (by simp [CandidateEvidence.risks])⟩

/-- Without a reason no score is missing: that is the assertion. -/
def assessCandidate (c : CandidateEvidence) : CandidateAssessment :=
  if h : c.reasons = [] then
    have hscored := (reasons_eq_nil_iff.mp h).scored
    { employeeId := c.profile.employeeId
      eligible := true
      reasons := []
      rankingScore := some (ranking (c.overloadRisk.result.score.get hscored.1)
        (c.taskFitRisk.result.score.get hscored.2.1) (c.predictedProjectRisk.result.score.get hscored.2.2)) }
  else
    { employeeId := c.profile.employeeId
      eligible := false
      reasons := c.reasons
      rankingScore := none }

omit [Unicode] [FloatSum] in
/-- A missing ranking score counts as `float("inf")`. -/
def CandidateAssessment.sortScore (a : CandidateAssessment) : WithTop Rat :=
  match a.rankingScore with
  | some score => score
  | none => ⊤

/-- The key of the sort. -/
def CandidateAssessment.key (a : CandidateAssessment) : Bool ×ₗ WithTop Rat ×ₗ String :=
  toLex (!a.eligible, toLex (a.sortScore, a.employeeId))

def selectCandidates (candidates : List CandidateEvidence) : List CandidateAssessment :=
  sortOn CandidateAssessment.key (candidates.map assessCandidate)

/-! ## One assessment -/

variable {c : CandidateEvidence}

@[simp] theorem assessCandidate_employeeId (c : CandidateEvidence) :
    (assessCandidate c).employeeId = c.profile.employeeId := by
  unfold assessCandidate
  split <;> rfl

theorem eligible_iff : (assessCandidate c).eligible = true ↔ c.Fit := by
  rw [← reasons_eq_nil_iff]
  unfold assessCandidate
  split
  · rename_i h
    exact iff_of_true rfl h
  · rename_i h
    exact iff_of_false Bool.false_ne_true h

theorem rankingScore_isSome : (assessCandidate c).rankingScore.isSome = (assessCandidate c).eligible := by
  unfold assessCandidate
  split <;> rfl

/-! ## The order -/

/-- The eligible first, by their scores and then by their ids. -/
structure CandidateAssessment.Before (a b : CandidateAssessment) : Prop where
  eligible : b.eligible = true → a.eligible = true
  ranked : a.eligible = true → b.eligible = true → ∃ p q, a.rankingScore = some p ∧ b.rankingScore = some q ∧
    (p < q ∨ p = q ∧ a.employeeId ≤ b.employeeId)

omit [Unicode] [FloatSum] in
theorem before_of_key_le {a b : CandidateAssessment} (ha : a.rankingScore.isSome = a.eligible)
    (hb : b.rankingScore.isSome = b.eligible) (h : a.key ≤ b.key) : a.Before b := by
  constructor
  · exact flagged_of_le h
  · intro hae hbe
    obtain ⟨p, hp⟩ := Option.isSome_iff_exists.mp (ha.trans hae)
    obtain ⟨q, hq⟩ := Option.isSome_iff_exists.mp (hb.trans hbe)
    refine ⟨p, q, hp, hq, ?_⟩
    have hrest := le_of_flagged h hae hbe
    rw [Prod.Lex.toLex_le_toLex] at hrest
    simpa only [CandidateAssessment.sortScore, hp, hq, WithTop.coe_lt_coe, WithTop.coe_inj] using hrest

theorem select_perm (candidates : List CandidateEvidence) :
    (selectCandidates candidates).Perm (candidates.map assessCandidate) := sortOn_perm _ _

theorem select_ordered (candidates : List CandidateEvidence) :
    (selectCandidates candidates).Pairwise CandidateAssessment.Before := by
  have hscored : ∀ a ∈ selectCandidates candidates, a.rankingScore.isSome = a.eligible := by
    intro a ha
    obtain ⟨c, _, rfl⟩ := List.mem_map.mp ((select_perm candidates).subset ha)
    exact rankingScore_isSome
  exact (sortOn_pairwise CandidateAssessment.key (candidates.map assessCandidate)).imp_of_mem fun {a b} ha hb h =>
    before_of_key_le (hscored a ha) (hscored b hb) h

/-- The keys of distinct employees differ, so that their order does not matter. -/
theorem select_eq_of_perm {candidates candidates' : List CandidateEvidence}
    (hids : (candidates.map (·.profile.employeeId)).Nodup) (h : candidates.Perm candidates') :
    selectCandidates candidates = selectCandidates candidates' := by
  refine sortOn_eq_of_perm (h.map assessCandidate) fun a ha b hb hkey => ?_
  obtain ⟨c, hc, rfl⟩ := List.mem_map.mp ha
  obtain ⟨d, hd, rfl⟩ := List.mem_map.mp hb
  have hid : c.profile.employeeId = d.profile.employeeId := by
    have hlast := congrArg (fun key => (ofLex (ofLex key).2).2) hkey
    simpa [CandidateAssessment.key] using hlast
  rw [List.inj_on_of_nodup_map hids hc hd hid]

end

end WorkforceRisk.Simulation
