/-
  WorkforceRisk.Evidence.Derivation — who could take an employee's work over
  (services/agent-api/src/agent_api/evidence/derivation.py, models.py `calculate_capacity`).

  The required skills are those of the source's tasks; every other employee is ranked by
  whether it is eligible, by how many of them it has, by its headroom and by its id.

  A configured capacity that is missing leaves a candidate without a headroom. A remaining
  workload that is missing does not: it is taken for zero, so that unknown reads as free.
  Proved (`ranking_sound_iff`): the ranking is as it should be exactly when no employee
  with an unknown workload is taken for a candidate by its capacity and its skills.

  Hours are exact. What `str.lower` makes of a text is a parameter: a sigma is lowered by
  what is around it.
-/

import Mathlib.Data.Prod.Lex
import Mathlib.Data.String.Basic
import WorkforceRisk.Evidence.Focus
import WorkforceRisk.Lib.Ordering
import WorkforceRisk.Lib.Windows

namespace WorkforceRisk.Evidence

open Lib Persistence Historical Dashboard

class LowerCase where
  /-- `str.lower()`. -/
  lower : String → String

/-! ## Models -/

def calculateCapacity (configuredCapacityHours workloadHours : Option Rat) (employeeId : Option String) :
    Option CapacityEvidence :=
  match configuredCapacityHours with
  | none => none
  | some configured =>
    if configured ≤ 0 then none
    else
      let workload := workloadHours.getD 0
      let headroom := configured - workload
      some
        { employeeId := employeeId
          configuredCapacityHours := configured
          workloadHours := workload
          availableCapacityHours := max headroom 0
          capacityHeadroomHours := headroom
          utilizationPercent := workload / configured * 100 }

structure RankedCandidate where
  employeeId : String
  displayName : String
  role : Option String
  seniority : Option String
  rank : Nat
  capacityHeadroomHours : Option Rat
  matchingSkills : List String
  missingRequiredSkills : List String
  eligible : Bool
  reasons : List String
  rank_ok : 1 ≤ rank

inductive RankingStatus where
  | success
  | insufficientData
  | noCandidates
  deriving DecidableEq, Repr

structure CandidateRankingResult where
  status : RankingStatus
  candidates : List RankedCandidate
  missingData : List MissingData

/-! ## The ranking -/

section
variable [Unicode] [LowerCase]

/-- The skills of the tasks of the source, by its id or by its name. -/
def requiredSkills (snapshot : DashboardSnapshot) (sourceEmployeeId : String) : List String :=
  let source := snapshot.employees.find? (·.employeeId == sourceEmployeeId)
  let sourceName := source.map fun e => casefold e.displayName
  let tasks := snapshot.tasks.filter fun task =>
    task.assigneeId == some sourceEmployeeId || sourceName.any fun name => casefold (task.assigneeName.getD "") == name
  (tasks.flatMap fun task => task.requiredSkills.map LowerCase.lower).eraseDups

def capacityOf (e : EmployeeSummary) : Option CapacityEvidence :=
  calculateCapacity e.capacityHours e.remainingHours (some e.employeeId)

def documentedSkills (e : EmployeeSummary) : List String := e.skills.map LowerCase.lower

/-- `tuple(sorted(required & documented))`. -/
def matchingSkills (required : List String) (e : EmployeeSummary) : List String :=
  (required.filter fun skill => skill ∈ documentedSkills e).insertionSort (· ≤ ·)

/-- `tuple(sorted(required - documented))`. -/
def missingSkills (required : List String) (e : EmployeeSummary) : List String :=
  (required.filter fun skill => skill ∉ documentedSkills e).insertionSort (· ≤ ·)

def isEligible (required : List String) (e : EmployeeSummary) : Bool :=
  (capacityOf e).any (fun capacity => 0 < capacity.capacityHeadroomHours) && (missingSkills required e).isEmpty

def seniorityOf (e : EmployeeSummary) : Option String :=
  ["lead", "senior", "mid", "junior"].find? fun level => contains (casefold (e.role.getD "")) level

def candidateReasons (required : List String) (e : EmployeeSummary) : List String :=
  (match capacityOf e with
    | none => ["configured capacity is unavailable"]
    | some capacity => if capacity.capacityHeadroomHours ≤ 0 then ["no positive capacity headroom"] else []) ++
  (if missingSkills required e ≠ [] then
    ["missing required skills: " ++ String.intercalate ", " (missingSkills required e)] else []) ++
  if isEligible required e then ["documented skills match and capacity headroom is positive"] else []

def candidateMissing (required : List String) (e : EmployeeSummary) : List MissingData :=
  (if (capacityOf e).isNone then
    [⟨.capacityAndWorkload, "configured candidate capacity is unavailable", "employee:" ++ e.employeeId, false⟩]
    else []) ++
  if required ≠ [] ∧ documentedSkills e = [] then
    [⟨.skillsAndSeniority, "documented candidate skills are unavailable", "employee:" ++ e.employeeId, false⟩]
    else []

def candidateOf (required : List String) (e : EmployeeSummary) : RankedCandidate :=
  { employeeId := e.employeeId
    displayName := e.displayName
    role := e.role
    seniority := seniorityOf e
    rank := 1
    capacityHeadroomHours := (capacityOf e).map (·.capacityHeadroomHours)
    matchingSkills := matchingSkills required e
    missingRequiredSkills := missingSkills required e
    eligible := isEligible required e
    reasons := candidateReasons required e
    rank_ok := Nat.one_pos }

omit [Unicode] [LowerCase] in
/-- The first four of the tuples that are sorted. -/
def RankedCandidate.key (c : RankedCandidate) : Bool ×ₗ Int ×ₗ Rat ×ₗ String :=
  toLex (!c.eligible, toLex (-(c.matchingSkills.length : Int), toLex (-(c.capacityHeadroomHours.getD (-10000)), c.employeeId)))

/-- `item.model_copy(update={"rank": index})`. -/
def ranked (candidates : List RankedCandidate) : List RankedCandidate :=
  candidates.mapIdx fun i c => { c with rank := i + 1, rank_ok := Nat.le_add_left 1 i }

/-- The employees that are ranked. -/
def others (snapshot : DashboardSnapshot) (sourceEmployeeId : String) : List EmployeeSummary :=
  snapshot.employees.filter fun e => e.employeeId != sourceEmployeeId

def listing (snapshot : DashboardSnapshot) (sourceEmployeeId : String) : List RankedCandidate :=
  sortOn RankedCandidate.key ((others snapshot sourceEmployeeId).map (candidateOf (requiredSkills snapshot sourceEmployeeId)))

omit [Unicode] [LowerCase] in
/-- Candidates none of whom is eligible are dropped where data is missing. -/
def rankingResult (candidates : List RankedCandidate) (missing : List MissingData) : CandidateRankingResult :=
  if candidates.any (·.eligible) then ⟨.success, candidates, missing⟩
  else if missing ≠ [] then ⟨.insufficientData, [], missing⟩
  else ⟨.noCandidates, candidates, missing⟩

def rankReassignmentCandidates (snapshot : DashboardSnapshot) (sourceEmployeeId : String) :
    Except Error CandidateRankingResult := do
  let required := requiredSkills snapshot sourceEmployeeId
  -- each is checked where it is made; the first to be refused ends the call all the same
  let missing ← validateMissing ((others snapshot sourceEmployeeId).flatMap (candidateMissing required))
  .ok (rankingResult (ranked (listing snapshot sourceEmployeeId)) missing)

/-! ## What a ranking should be -/

omit [Unicode] [LowerCase] in
/-- The eligible first, by their matching skills, their headroom and their ids. -/
structure RankedCandidate.Before (a b : RankedCandidate) : Prop where
  eligible : b.eligible = true → a.eligible = true
  ranked : a.eligible = true → b.eligible = true →
    ∃ p q, a.capacityHeadroomHours = some p ∧ b.capacityHeadroomHours = some q ∧
      (b.matchingSkills.length < a.matchingSkills.length ∨ a.matchingSkills.length = b.matchingSkills.length ∧
        (q < p ∨ p = q ∧ a.employeeId ≤ b.employeeId))

/-- Capacity and workload are known, hours are left, and every required skill is documented. -/
structure Suitable (required : List String) (e : EmployeeSummary) : Prop where
  hours : ∃ capacity remaining, e.capacityHours = some capacity ∧ e.remainingHours = some remaining ∧
    0 < capacity - remaining
  skills : ∀ skill ∈ required, skill ∈ documentedSkills e

structure RankingSound (snapshot : DashboardSnapshot) (sourceEmployeeId : String) (r : CandidateRankingResult) : Prop where
  everyone : r.status ≠ .insufficientData →
    (r.candidates.map (·.employeeId)).Perm ((others snapshot sourceEmployeeId).map (·.employeeId))
  nobody : r.status = .insufficientData → r.candidates = []
  ranks : r.candidates.map (·.rank) = List.range' 1 r.candidates.length
  ordered : r.candidates.Pairwise RankedCandidate.Before
  matching : ∀ c ∈ r.candidates, ∃ e ∈ others snapshot sourceEmployeeId, e.employeeId = c.employeeId ∧
    c.matchingSkills.Perm ((requiredSkills snapshot sourceEmployeeId).filter fun skill => skill ∈ documentedSkills e)
  suitable : ∀ c ∈ r.candidates, c.eligible = true → ∃ e ∈ others snapshot sourceEmployeeId,
    e.employeeId = c.employeeId ∧ Suitable (requiredSkills snapshot sourceEmployeeId) e
  canonical : ∀ employees, snapshot.employees.Perm employees → ∃ r',
    rankReassignmentCandidates { snapshot with employees := employees } sourceEmployeeId = .ok r' ∧
      r'.candidates = r.candidates

/-- No employee whose workload is unknown would be a candidate by its capacity and its skills. -/
def WorkloadsKnown (snapshot : DashboardSnapshot) (sourceEmployeeId : String) : Prop :=
  ∀ e ∈ others snapshot sourceEmployeeId, e.remainingHours = none →
    (∀ skill ∈ requiredSkills snapshot sourceEmployeeId, skill ∈ documentedSkills e) →
      ∀ capacity ∈ e.capacityHours, capacity ≤ 0

/-! ## One employee -/

variable {snapshot : DashboardSnapshot} {sourceEmployeeId : String} {required : List String} {e : EmployeeSummary}
  {r : CandidateRankingResult}

omit [Unicode] in
theorem missingSkills_isEmpty : (missingSkills required e).isEmpty = true ↔
    ∀ skill ∈ required, skill ∈ documentedSkills e := by
  rw [missingSkills, List.isEmpty_iff, ← List.length_eq_zero_iff, List.length_insertionSort, List.length_eq_zero_iff,
    List.filter_eq_nil_iff]
  simp

omit [Unicode] [LowerCase] in
/-- A headroom is positive when more is configured than remains, an unknown workload being none. -/
theorem headroom_pos : ((capacityOf e).any fun capacity => 0 < capacity.capacityHeadroomHours) = true ↔
    ∃ capacity, e.capacityHours = some capacity ∧ 0 < capacity ∧ 0 < capacity - e.remainingHours.getD 0 := by
  unfold capacityOf calculateCapacity
  cases e.capacityHours with
  | none => simp
  | some configured =>
    by_cases hc : configured ≤ 0
    · simp [hc]
    · simp [hc, not_le.mp hc]

omit [Unicode] in
theorem isEligible_iff : isEligible required e = true ↔
    (∃ capacity, e.capacityHours = some capacity ∧ 0 < capacity ∧ 0 < capacity - e.remainingHours.getD 0) ∧
      ∀ skill ∈ required, skill ∈ documentedSkills e := by
  rw [isEligible, Bool.and_eq_true, headroom_pos, missingSkills_isEmpty]

omit [Unicode] in
theorem headroom_of_eligible (h : isEligible required e = true) : ((capacityOf e).map (·.capacityHeadroomHours)).isSome := by
  rw [isEligible, Bool.and_eq_true, Option.any_eq_true] at h
  obtain ⟨⟨capacity, hcapacity, _⟩, _⟩ := h
  rw [hcapacity]
  rfl

/-! ## The list -/

theorem before_of_key_le {a b : EmployeeSummary} (h : (candidateOf required a).key ≤ (candidateOf required b).key) :
    (candidateOf required a).Before (candidateOf required b) := by
  constructor
  · exact flagged_of_le h
  · intro ha hb
    obtain ⟨p, hp⟩ := Option.isSome_iff_exists.mp (headroom_of_eligible ha)
    obtain ⟨q, hq⟩ := Option.isSome_iff_exists.mp (headroom_of_eligible hb)
    refine ⟨p, q, hp, hq, ?_⟩
    have hp' : (candidateOf required a).capacityHeadroomHours = some p := hp
    have hq' : (candidateOf required b).capacityHeadroomHours = some q := hq
    have hrest := le_of_flagged h ha hb
    rw [Prod.Lex.toLex_le_toLex, Prod.Lex.toLex_le_toLex] at hrest
    simpa only [hp', hq', Option.getD_some, neg_lt_neg_iff, neg_inj, Int.ofNat_lt, Nat.cast_inj] using hrest

theorem listing_before (snapshot : DashboardSnapshot) (sourceEmployeeId : String) :
    (listing snapshot sourceEmployeeId).Pairwise RankedCandidate.Before := by
  refine (sortOn_pairwise RankedCandidate.key _).imp_of_mem fun {a b} ha hb h => ?_
  obtain ⟨e, _, rfl⟩ := List.mem_map.mp ((sortOn_perm _ _).subset ha)
  obtain ⟨f, _, rfl⟩ := List.mem_map.mp ((sortOn_perm _ _).subset hb)
  exact before_of_key_le h

omit [Unicode] [LowerCase] in
theorem ranked_before {l : List RankedCandidate} (h : l.Pairwise RankedCandidate.Before) :
    (ranked l).Pairwise RankedCandidate.Before := by
  rw [List.pairwise_iff_getElem] at h ⊢
  intro i j hi hj hij
  simp only [ranked, List.length_mapIdx, List.getElem_mapIdx] at hi hj ⊢
  exact ⟨(h i j hi hj hij).eligible, (h i j hi hj hij).ranked⟩

omit [Unicode] [LowerCase] in
/-- Ranking changes the ranks alone. -/
theorem mem_ranked {l : List RankedCandidate} {c : RankedCandidate} (h : c ∈ ranked l) :
    ∃ d ∈ l, d.employeeId = c.employeeId ∧ d.eligible = c.eligible ∧ d.matchingSkills = c.matchingSkills := by
  obtain ⟨i, hi, rfl⟩ := List.mem_mapIdx.mp h
  exact ⟨l[i], List.getElem_mem hi, rfl, rfl, rfl⟩

omit [Unicode] [LowerCase] in
theorem ranked_ids (l : List RankedCandidate) : (ranked l).map (·.employeeId) = l.map (·.employeeId) :=
  List.ext_getElem (by simp [ranked]) fun i _ _ => by simp [ranked]

omit [Unicode] [LowerCase] in
theorem ranked_ranks (l : List RankedCandidate) : (ranked l).map (·.rank) = List.range' 1 (ranked l).length :=
  List.ext_getElem (by simp [ranked]) fun i _ _ => by simp [ranked, Nat.add_comm]

omit [Unicode] [LowerCase] in
/-- The candidates are all that are listed, or none for want of data. -/
theorem rankingResult_cases (candidates : List RankedCandidate) (missing : List MissingData) :
    (rankingResult candidates missing).status ≠ .insufficientData ∧
        (rankingResult candidates missing).candidates = candidates ∨
      (rankingResult candidates missing).status = .insufficientData ∧ (rankingResult candidates missing).candidates = [] ∧
        candidates.any (·.eligible) = false := by
  unfold rankingResult
  split
  · exact .inl ⟨fun h => (by cases h), rfl⟩
  · rename_i hany
    split
    · exact .inr ⟨rfl, rfl, by simpa using hany⟩
    · exact .inl ⟨fun h => (by cases h), rfl⟩

/-- Each of the others is listed. -/
theorem exists_listed (he : e ∈ others snapshot sourceEmployeeId) :
    ∃ c ∈ ranked (listing snapshot sourceEmployeeId), c.employeeId = e.employeeId ∧
      c.eligible = isEligible (requiredSkills snapshot sourceEmployeeId) e := by
  have hmem : candidateOf (requiredSkills snapshot sourceEmployeeId) e ∈ listing snapshot sourceEmployeeId :=
    (sortOn_perm _ _).symm.subset (List.mem_map_of_mem he)
  obtain ⟨i, hi, hget⟩ := List.getElem_of_mem hmem
  refine ⟨_, List.mem_mapIdx.mpr ⟨i, hi, rfl⟩, ?_, ?_⟩
  · rw [hget]
    rfl
  · rw [hget]
    rfl

/-- What is returned of candidates are employees that are listed. -/
theorem candidates_listed {missing : List MissingData} {c : RankedCandidate}
    (h : c ∈ (rankingResult (ranked (listing snapshot sourceEmployeeId)) missing).candidates) :
    ∃ e ∈ others snapshot sourceEmployeeId, e.employeeId = c.employeeId ∧
      isEligible (requiredSkills snapshot sourceEmployeeId) e = c.eligible ∧
      matchingSkills (requiredSkills snapshot sourceEmployeeId) e = c.matchingSkills := by
  have hc : c ∈ ranked (listing snapshot sourceEmployeeId) := by
    rcases rankingResult_cases (ranked (listing snapshot sourceEmployeeId)) missing with hall | hnone
    · rwa [hall.2] at h
    · rw [hnone.2.1] at h
      cases h
  obtain ⟨d, hd, hid, heligible, hmatching⟩ := mem_ranked hc
  obtain ⟨e, he, rfl⟩ := List.mem_map.mp ((sortOn_perm _ _).subset hd)
  exact ⟨e, he, hid, heligible, hmatching⟩

/-! ## Any order -/

section
variable {employees : List EmployeeSummary}

theorem requiredSkills_perm (hids : (snapshot.employees.map (·.employeeId)).Nodup)
    (h : snapshot.employees.Perm employees) :
    requiredSkills { snapshot with employees := employees } sourceEmployeeId = requiredSkills snapshot sourceEmployeeId := by
  have hsource : snapshot.employees.find? (·.employeeId == sourceEmployeeId) =
      employees.find? (·.employeeId == sourceEmployeeId) := find?_perm h (countP_key_le hids sourceEmployeeId)
  rw [requiredSkills, requiredSkills, hsource]

omit [Unicode] [LowerCase] in
theorem others_perm (h : snapshot.employees.Perm employees) :
    (others { snapshot with employees := employees } sourceEmployeeId).Perm (others snapshot sourceEmployeeId) :=
  (h.filter _).symm

/-- For distinct ids the keys differ. -/
theorem listing_perm (hids : (snapshot.employees.map (·.employeeId)).Nodup) (h : snapshot.employees.Perm employees) :
    listing { snapshot with employees := employees } sourceEmployeeId = listing snapshot sourceEmployeeId := by
  rw [listing, listing, requiredSkills_perm hids h]
  refine (sortOn_eq_of_perm ((others_perm h).symm.map _) fun c hc d hd hkey => ?_).symm
  obtain ⟨e, he, rfl⟩ := List.mem_map.mp hc
  obtain ⟨f, hf, rfl⟩ := List.mem_map.mp hd
  have hid : e.employeeId = f.employeeId := by
    have hlast := congrArg (fun key => (ofLex (ofLex (ofLex key).2).2).2) hkey
    simpa [RankedCandidate.key, candidateOf] using hlast
  rw [List.inj_on_of_nodup_map hids (List.mem_filter.mp he).1 (List.mem_filter.mp hf).1 hid]

omit [Unicode] [LowerCase] in
theorem validateMissing_ok {missing checked : List MissingData} :
    validateMissing missing = .ok checked ↔ (missing.all fun item => item.entity.length ≤ 128) = true ∧ missing = checked := by
  rw [validateMissing]
  split
  · rename_i h
    exact ⟨fun hok => ⟨h, Except.ok.inj hok⟩, fun hok => congrArg Except.ok hok.2⟩
  · rename_i h
    exact ⟨fun hok => (by cases hok), fun hok => absurd hok.1 h⟩

/-- What is returned is the result of the listing, with the data that is missing. -/
theorem rankReassignmentCandidates_ok : rankReassignmentCandidates snapshot sourceEmployeeId = .ok r ↔
    ∃ missing, validateMissing ((others snapshot sourceEmployeeId).flatMap
        (candidateMissing (requiredSkills snapshot sourceEmployeeId))) = .ok missing ∧
      rankingResult (ranked (listing snapshot sourceEmployeeId)) missing = r := by
  rw [rankReassignmentCandidates, except_bind_ok]
  simp only [Except.ok.injEq]

/-- The same candidates are returned for every order of the employees. -/
theorem ranking_perm (hids : (snapshot.employees.map (·.employeeId)).Nodup)
    (hr : rankReassignmentCandidates snapshot sourceEmployeeId = .ok r) (h : snapshot.employees.Perm employees) :
    ∃ r', rankReassignmentCandidates { snapshot with employees := employees } sourceEmployeeId = .ok r' ∧
      r'.candidates = r.candidates := by
  obtain ⟨missing, hmissing, rfl⟩ := rankReassignmentCandidates_ok.mp hr
  obtain ⟨hall, rfl⟩ := validateMissing_ok.mp hmissing
  have hothers : (others { snapshot with employees := employees } sourceEmployeeId).Perm
      (others snapshot sourceEmployeeId) := others_perm h
  have hperm := hothers.flatMap_right (candidateMissing (requiredSkills snapshot sourceEmployeeId))
  refine ⟨_, rankReassignmentCandidates_ok.mpr ⟨_, validateMissing_ok.mpr ⟨?_, rfl⟩, rfl⟩, ?_⟩
  · rw [requiredSkills_perm hids h, hperm.all_eq]
    exact hall
  · rw [requiredSkills_perm hids h, listing_perm hids h]
    -- what is missing counts only by whether it is none
    have hnone : ∀ l l' : List MissingData, l.Perm l' →
        (rankingResult (ranked (listing snapshot sourceEmployeeId)) l).candidates =
          (rankingResult (ranked (listing snapshot sourceEmployeeId)) l').candidates := by
      intro l l' hl
      have hiff : l = [] ↔ l' = [] := ⟨fun he => (he ▸ hl).nil_eq.symm, fun he => (he ▸ hl.symm).nil_eq.symm⟩
      unfold rankingResult
      simp only [ne_eq, hiff]
      split
      · rfl
      · split <;> rfl
    exact hnone _ _ hperm

end

/-! ## The law -/

/-- Someone taken for a candidate without a known workload would be an eligible one. -/
theorem workloadsKnown_of_sound (hids : (snapshot.employees.map (·.employeeId)).Nodup)
    (hr : rankReassignmentCandidates snapshot sourceEmployeeId = .ok r)
    (hsound : RankingSound snapshot sourceEmployeeId r) : WorkloadsKnown snapshot sourceEmployeeId := by
  intro e he hnone hskills capacity hcapacity
  by_contra hpos
  have heligible : isEligible (requiredSkills snapshot sourceEmployeeId) e = true :=
    isEligible_iff.mpr ⟨⟨capacity, hcapacity, not_le.mp hpos, by simpa [hnone] using hpos⟩, hskills⟩
  obtain ⟨c, hc, hid, hce⟩ := exists_listed he
  have hmem : c ∈ r.candidates := by
    obtain ⟨missing, _, rfl⟩ := rankReassignmentCandidates_ok.mp hr
    rcases rankingResult_cases (ranked (listing snapshot sourceEmployeeId)) missing with hall | hno
    · rwa [hall.2]
    · exact absurd (hce.trans heligible) (List.any_eq_false.mp hno.2.2 c hc)
  obtain ⟨f, hf, hfid, hsuitable⟩ := hsound.suitable c hmem (hce.trans heligible)
  obtain rfl : f = e :=
    List.inj_on_of_nodup_map hids (List.mem_filter.mp hf).1 (List.mem_filter.mp he).1 (hfid.trans hid)
  obtain ⟨_, remaining, _, hremaining, _⟩ := hsuitable.hours
  rw [hnone] at hremaining
  cases hremaining

theorem sound_of_workloadsKnown (hids : (snapshot.employees.map (·.employeeId)).Nodup)
    (hr : rankReassignmentCandidates snapshot sourceEmployeeId = .ok r)
    (hknown : WorkloadsKnown snapshot sourceEmployeeId) : RankingSound snapshot sourceEmployeeId r := by
  obtain ⟨missing, _, rfl⟩ := rankReassignmentCandidates_ok.mp hr
  have hcases := rankingResult_cases (ranked (listing snapshot sourceEmployeeId)) missing
  constructor
  · intro hstatus
    rcases hcases with hall | hno
    · rw [hall.2, ranked_ids]
      exact ((sortOn_perm _ _).map _).trans (by rw [List.map_map]; exact .refl _)
    · exact absurd hno.1 hstatus
  · intro hstatus
    rcases hcases with hall | hno
    · exact absurd hstatus hall.1
    · exact hno.2.1
  · rcases hcases with hall | hno
    · rw [hall.2]
      exact ranked_ranks _
    · rw [hno.2.1]
      rfl
  · rcases hcases with hall | hno
    · rw [hall.2]
      exact ranked_before (listing_before snapshot sourceEmployeeId)
    · rw [hno.2.1]
      exact .nil
  · intro c hc
    obtain ⟨e, he, hid, _, hmatching⟩ := candidates_listed hc
    exact ⟨e, he, hid, hmatching ▸ List.perm_insertionSort _ _⟩
  · intro c hc hce
    obtain ⟨e, he, hid, heligible, _⟩ := candidates_listed hc
    obtain ⟨⟨capacity, hcapacity, hpos, hheadroom⟩, hskills⟩ := isEligible_iff.mp (heligible.trans hce)
    refine ⟨e, he, hid, ?_, hskills⟩
    cases hremaining : e.remainingHours with
    | none => exact absurd (hknown e he hremaining hskills capacity hcapacity) (not_le.mpr hpos)
    | some remaining => exact ⟨capacity, remaining, hcapacity, rfl, by simpa [hremaining] using hheadroom⟩
  · exact fun employees h => ranking_perm hids hr h

/-- A ranking that is returned is sound, complete, ordered and canonical exactly when no
    employee with an unknown workload is taken for a candidate. -/
theorem ranking_sound_iff (hids : (snapshot.employees.map (·.employeeId)).Nodup)
    (hr : rankReassignmentCandidates snapshot sourceEmployeeId = .ok r) :
    RankingSound snapshot sourceEmployeeId r ↔ WorkloadsKnown snapshot sourceEmployeeId :=
  ⟨workloadsKnown_of_sound hids hr, sound_of_workloadsKnown hids hr⟩

end

/-! ## Someone whose workload is unknown -/

section

/-- The capitals of ASCII are lowered. -/
@[reducible] def LowerCase.ascii : LowerCase := ⟨fun s => String.ofList (s.toList.map Char.toLower)⟩

attribute [local instance] Unicode.ascii LowerCase.ascii

/-- The source, and one other with this workload. -/
def twoEmployees (remainingHours : Option Rat) : DashboardSnapshot :=
  sampleSnapshot [sampleEmployee "EMP-1" "Ada", { sampleEmployee "EMP-2" "Bob" with
    remainingHours := remainingHours }] []

theorem twoEmployees_ranked (remainingHours : Option Rat) :
    ∃ r, rankReassignmentCandidates (twoEmployees remainingHours) "EMP-1" = .ok r := ⟨_, rfl⟩

/-- With an unknown workload Bob is eligible all the same. -/
theorem unknown_reads_as_free : ∃ r, rankReassignmentCandidates (twoEmployees none) "EMP-1" = .ok r ∧
    ¬ RankingSound (twoEmployees none) "EMP-1" r := by
  obtain ⟨r, hr⟩ := twoEmployees_ranked none
  refine ⟨r, hr, fun h => ?_⟩
  have hnobody := workloadsKnown_of_sound (by decide) hr h { sampleEmployee "EMP-2" "Bob" with remainingHours := none }
    (by decide) rfl (fun skill hskill => (by cases hskill)) 40 rfl
  exact absurd hnobody (by decide)

/-- Where the workload is known Bob is ranked as he should be. -/
theorem known_is_ranked : ∃ r, rankReassignmentCandidates (twoEmployees (some 10)) "EMP-1" = .ok r ∧
    RankingSound (twoEmployees (some 10)) "EMP-1" r := by
  obtain ⟨r, hr⟩ := twoEmployees_ranked (some 10)
  refine ⟨r, hr, (ranking_sound_iff (by decide) hr).mpr fun e he hnone => ?_⟩
  obtain rfl := List.mem_singleton.mp he
  cases hnone

end

end WorkforceRisk.Evidence
