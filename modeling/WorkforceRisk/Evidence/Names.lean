/-
  WorkforceRisk.Evidence.Names — three ways to find employees in a text by their names
  (services/agent-api/src/agent_api: grounding.py `_mentioned_employee_ids`,
  evidence/focus.py `_named_employees`, evidence/collectors.py the source employee of
  `UniversalEvidenceCollector.collect`).

  The first goes through the employees, longer names first, and blanks out what it finds;
  the second takes all matches together, longer ones first, then those further left. The
  third takes the first employee whose name is anywhere in the text, inside a word too.

  Proved (`one_resolution_iff`): the first two keep the same matches exactly when one choice
  of matches gives way in both orders to what comes before, and no blank makes or uncovers
  a match (`clear_iff`); and then the third is their one employee exactly when nobody listed
  before has a name somewhere in the text.
-/

import WorkforceRisk.Evidence.Derivation
import WorkforceRisk.Evidence.Grounding
import WorkforceRisk.Lib.Selection

namespace WorkforceRisk.Evidence

open Lib Persistence Historical Dashboard

def NameMatch.overlaps (a b : NameMatch) : Bool := a.start < b.stop && b.start < a.stop

/-- A match, and the name it is of. -/
structure Hit extends NameMatch where
  displayName : String
  deriving DecidableEq

def Hit.overlaps (a b : Hit) : Bool := a.toNameMatch.overlaps b.toNameMatch

section
variable [Unicode]

/-- The name stands at a place of the text. -/
def standsAt (name text : List Char) (i : Nat) : Bool := name.isPrefixOf (text.drop i)

/-- It stands there with no character of a word on either side. -/
def occursAt (name text : List Char) (i : Nat) : Bool := nameAt name (text.take i).getLast? (text.drop i)

/-- The places where it does. -/
def occurrences (name text : List Char) : List Nat := (List.range (text.length + 1)).filter (occursAt name text)

/-- A character of a word is at the place. -/
def wordAt (text : List Char) (i : Nat) : Bool := text[i]?.any Unicode.isWord

def foldedName (e : EmployeeSummary) : List Char := (casefold e.displayName).toList

/-- What `finditer` finds of an employee's name in a text. -/
def foundIn (text : List Char) (e : EmployeeSummary) : List Hit :=
  (spans (casefold e.displayName) (String.ofList text)).map fun span => ⟨⟨span.1, span.2, e.employeeId⟩, e.displayName⟩

/-- All matches of all names. -/
def hits (employees : List EmployeeSummary) (folded : String) : List Hit := employees.flatMap (foundIn folded.toList)

def longerFirst (employees : List EmployeeSummary) : List EmployeeSummary :=
  employees.insertionSort fun a b => b.displayName.length ≤ a.displayName.length

def sortedHits (employees : List EmployeeSummary) (folded : String) : List Hit :=
  (hits employees folded).insertionSort fun a b => a.before b.toNameMatch

/-- The spans of some matches. -/
def spansOf (found : List Hit) : List (Nat × Nat) := found.map fun m => (m.start, m.stop)

/-- Those of some employees' names. -/
def ofNames (chosen : List Hit) (employees : List EmployeeSummary) : List Hit :=
  chosen.filter fun m => m.displayName ∈ employees.map (·.displayName)

/-- A round of `_mentioned_employee_ids`, keeping what it finds. -/
def blankOut (state : List Char × List Hit) (e : EmployeeSummary) : List Char × List Hit :=
  (blank (spansOf (foundIn state.1 e)) state.1, state.2 ++ foundIn state.1 e)

/-- The matches `_mentioned_employee_ids` finds, and those `_named_employees` accepts. -/
def mentionedHits (employees : List EmployeeSummary) (folded : String) : List Hit :=
  ((longerFirst employees).foldl blankOut (folded.toList, [])).2

def acceptedHits (employees : List EmployeeSummary) (folded : String) : List Hit :=
  accept Hit.overlaps (sortedHits employees folded)

/-- The first two resolvers keep the same matches. -/
def KeepSame (employees : List EmployeeSummary) (folded : String) : Prop :=
  ∀ m, m ∈ mentionedHits employees folded ↔ m ∈ acceptedHits employees folded

/-- One choice of matches suits both orders, and its blanks change no match. -/
structure Clear (employees : List EmployeeSummary) (folded : String) (chosen : List Hit) : Prop where
  /-- No two of them overlap, and each of the other matches overlaps one of them before it:
      of a name that is longer or, as long, listed before; -/
  byName : IsSelection Hit.overlaps (hits (longerFirst employees) folded) chosen
  /-- and one that is longer or, as long, further left or, there too, listed before. -/
  byPlace : IsSelection Hit.overlaps (sortedHits employees folded) chosen
  /-- With those of the names before it blanked out, a name is found where it was found and
      overlaps none of them. -/
  clean : ∀ done e rest, longerFirst employees = done ++ e :: rest → ∀ m,
    m ∈ foundIn (blank (spansOf (ofNames chosen done)) folded.toList) e ↔
      m ∈ foundIn folded.toList e ∧ ∀ a ∈ ofNames chosen done, m.overlaps a = false

/-- Whom `collect` ranks candidates for: the one it is told, or the first whose name is in
    the question. -/
def sourceEmployeeId (question : String) (employees : List EmployeeSummary) (told : Option String) : Option String :=
  match told with
  | some employeeId => some employeeId
  | none =>
    (employees.find? fun e => contains (casefold question) (casefold e.displayName)).map (·.employeeId)

def candidateRanking [LowerCase] (question : String) (snapshot : DashboardSnapshot) (told : Option String) :
    Except Error (Option CandidateRankingResult) :=
  match sourceEmployeeId question snapshot.employees told with
  | some employeeId => (rankReassignmentCandidates snapshot employeeId).map some
  | none => .ok none

/-- The one employee that is named has the id. -/
def OnlyNamed (snapshot : DashboardSnapshot) (question employeeId : String) : Prop :=
  ∀ other, other ∈ (namedEmployees snapshot.employees (casefold question)).map (·.employeeId) ↔ other = employeeId

structure OneResolution [LowerCase] (snapshot : DashboardSnapshot) (question : String) : Prop where
  same : ∀ employeeId, employeeId ∈ mentionedEmployeeIds (·.employeeId) (·.displayName) question snapshot.employees ↔
    employeeId ∈ (namedEmployees snapshot.employees (casefold question)).map (·.employeeId)
  ranked : ∀ employeeId, OnlyNamed snapshot question employeeId →
    sourceEmployeeId question snapshot.employees none = some employeeId ∧
      candidateRanking question snapshot none = (rankReassignmentCandidates snapshot employeeId).map some

/-- Of the one employee the choice is of, nobody listed before has a name somewhere in the text. -/
def FirstListed (snapshot : DashboardSnapshot) (question : String) (chosen : List Hit) : Prop :=
  ∀ employeeId, chosen ≠ [] → (∀ m ∈ chosen, m.employeeId = employeeId) → ∀ before e after,
    snapshot.employees = before ++ e :: after → contains (casefold question) (casefold e.displayName) = true →
    e.employeeId = employeeId ∨
      ∃ f ∈ before, f.employeeId = employeeId ∧ contains (casefold question) (casefold f.displayName) = true

variable {name text : List Char} {i : Nat}

omit [Unicode] in
theorem standsAt_iff : standsAt name text i = true ↔ ∀ k, k < name.length → text[i + k]? = name[k]? := by
  rw [standsAt, List.isPrefixOf_iff_prefix, List.prefix_iff_getElem?]
  constructor
  · intro h k hk
    rw [← List.getElem?_drop, h k hk, List.getElem?_eq_getElem hk]
  · intro h k hk
    rw [List.getElem?_drop, h k hk, List.getElem?_eq_getElem hk]

theorem occursAt_iff : occursAt name text i = true ↔
    standsAt name text i = true ∧ (text.take i).getLast?.any Unicode.isWord = false ∧
      wordAt text (i + name.length) = false := by
  rw [occursAt, nameAt, Bool.and_eq_true, Bool.and_eq_true, Bool.not_eq_true', Bool.not_eq_true', ← standsAt, wordAt,
    List.drop_drop, List.head?_drop]
  tauto

theorem mem_occurrences : i ∈ occurrences name text ↔ i ≤ text.length ∧ occursAt name text i = true := by
  rw [occurrences, List.mem_filter, List.mem_range, Nat.lt_succ_iff]

theorem prefix_of_mem (h : i ∈ occurrences name text) : name <+: text.drop i := by
  have hstands := (occursAt_iff.mp (mem_occurrences.mp h).2).1
  rwa [standsAt, List.isPrefixOf_iff_prefix] at hstands

/-! ## What `finditer` finds -/

theorem mem_here {past rest : List Char} (htext : text = past ++ rest) :
    past.length ∈ occurrences name text ↔ nameAt name past.getLast? rest = true := by
  rw [mem_occurrences, occursAt, htext]
  simp

/-- It finds occurrences. -/
theorem spansFrom_sound {past rest : List Char} {skip : Nat} (htext : text = past ++ rest) {span : Nat × Nat}
    (h : span ∈ spansFrom name past.length past.getLast? skip rest) :
    span.1 ∈ occurrences name text ∧ span.2 = span.1 + name.length := by
  induction rest generalizing past skip with
  | nil =>
    unfold spansFrom at h
    split at h
    · rename_i hhere
      rw [List.mem_singleton.mp h]
      exact ⟨(mem_here htext).mpr (Bool.and_eq_true_iff.mp hhere).2, rfl⟩
    · cases h
  | cons x rest ih =>
    have hnext : text = (past ++ [x]) ++ rest := by rw [htext, List.append_assoc]; rfl
    have hlast : (past ++ [x]).getLast? = some x := by simp
    have hlength : (past ++ [x]).length = past.length + 1 := by simp
    unfold spansFrom at h
    split at h
    · rename_i hhere
      rcases List.mem_cons.mp h with rfl | h
      · exact ⟨(mem_here htext).mpr (Bool.and_eq_true_iff.mp hhere).2, rfl⟩
      · exact ih hnext (by rw [hlast, hlength]; exact h)
    · exact ih hnext (by rw [hlast, hlength]; exact h)

theorem spansFrom_from {before : Option Char} {position skip : Nat} {rest : List Char} {span : Nat × Nat}
    (h : span ∈ spansFrom name position before skip rest) : position + skip ≤ span.1 := by
  induction rest generalizing position before skip with
  | nil =>
    unfold spansFrom at h
    split at h
    · rename_i hhere
      rw [Bool.and_eq_true, beq_iff_eq] at hhere
      rw [List.mem_singleton.mp h, hhere.1]
      exact Nat.le_refl _
    · cases h
  | cons x rest ih =>
    unfold spansFrom at h
    split at h
    · rename_i hhere
      rw [Bool.and_eq_true, beq_iff_eq] at hhere
      rcases List.mem_cons.mp h with rfl | h
      · rw [hhere.1]
        exact Nat.le_refl _
      · have := ih h
        omega
    · have := ih h
      omega

/-- They do not overlap. -/
theorem spansFrom_apart {before : Option Char} {position skip : Nat} {rest : List Char} :
    (spansFrom name position before skip rest).Pairwise fun a b => a.2 ≤ b.1 := by
  induction rest generalizing position before skip with
  | nil =>
    unfold spansFrom
    split
    · exact List.pairwise_singleton _ _
    · exact .nil
  | cons x rest ih =>
    unfold spansFrom
    split
    · refine List.pairwise_cons.mpr ⟨fun span hspan => ?_, ih⟩
      have := spansFrom_from hspan
      dsimp only
      omega
    · exact ih

/-- An occurrence is found, or begins inside one that is. -/
theorem spansFrom_covers {past rest : List Char} {skip : Nat} (htext : text = past ++ rest) {i : Nat}
    (hi : i ∈ occurrences name text) (hfrom : past.length + skip ≤ i) :
    ∃ span ∈ spansFrom name past.length past.getLast? skip rest, span.1 ≤ i ∧ (span.1 = i ∨ i < span.2) := by
  induction rest generalizing past skip with
  | nil =>
    have hle := (mem_occurrences.mp hi).1
    rw [htext, List.append_nil] at hle
    obtain rfl : i = past.length := by omega
    obtain rfl : skip = 0 := by omega
    refine ⟨(past.length, past.length + name.length), ?_, Nat.le_refl _, Or.inl rfl⟩
    rw [spansFrom, (mem_here htext).mp hi]
    exact List.mem_singleton_self _
  | cons x rest ih =>
    have hnext : text = (past ++ [x]) ++ rest := by rw [htext, List.append_assoc]; rfl
    have hlater : ∀ skip, past.length + 1 + skip ≤ i →
        ∃ span ∈ spansFrom name (past.length + 1) (some x) skip rest, span.1 ≤ i ∧ (span.1 = i ∨ i < span.2) := by
      intro skip hle
      have := ih hnext (by rw [List.length_append]; exact hle : (past ++ [x]).length + skip ≤ i)
      simpa using this
    unfold spansFrom
    split
    · by_cases hhere : i = past.length ∨ i < past.length + name.length
      · refine ⟨_, List.mem_cons_self, by dsimp only; omega, ?_⟩
        exact hhere.imp Eq.symm id
      · obtain ⟨span, hspan, hover⟩ := hlater (name.length - 1) (by omega)
        exact ⟨span, List.mem_cons_of_mem _ hspan, hover⟩
    · rename_i hnone
      refine hlater (skip - 1) ?_
      by_cases hskip : skip = 0
      · have hne : i ≠ past.length := by
          intro heq
          rw [heq] at hi
          exact hnone (by rw [hskip, (mem_here htext).mp hi]; rfl)
        omega
      · omega

end

/-! ## Blanks -/

section
variable [Unicode] {name text : List Char} {i : Nat}

/-- One of the spans is over the place. -/
def covered (spans : List (Nat × Nat)) (i : Nat) : Bool := spans.any fun span => span.1 ≤ i && i < span.2

omit [Unicode] in
theorem covered_iff {spans : List (Nat × Nat)} {i : Nat} :
    covered spans i = true ↔ ∃ span ∈ spans, span.1 ≤ i ∧ i < span.2 := by
  simp [covered]

omit [Unicode] in
theorem getElem?_blank (spans : List (Nat × Nat)) (text : List Char) (i : Nat) :
    (blank spans text)[i]? = text[i]?.map fun c => if covered spans i then ' ' else c := by
  rw [blank, List.getElem?_map, List.getElem?_zipIdx]
  cases text[i]? with
  | none => rfl
  | some c =>
    simp only [Option.map_some, Nat.zero_add]
    rfl

omit [Unicode] in
theorem length_blank (spans : List (Nat × Nat)) (text : List Char) : (blank spans text).length = text.length := by
  rw [blank, List.length_map, List.length_zipIdx]

omit [Unicode] in
theorem blank_nil (text : List Char) : blank [] text = text := by
  refine List.ext_getElem? fun i => ?_
  rw [getElem?_blank]
  simp [covered]

omit [Unicode] in
theorem blank_blank (spans spans' : List (Nat × Nat)) (text : List Char) :
    blank spans' (blank spans text) = blank (spans ++ spans') text := by
  refine List.ext_getElem? fun i => ?_
  rw [getElem?_blank, getElem?_blank, getElem?_blank, Option.map_map]
  congr 1
  funext c
  have happend : covered (spans ++ spans') i = (covered spans i || covered spans' i) := List.any_append
  rw [Function.comp, happend]
  cases covered spans i <;> cases covered spans' i <;> rfl

theorem before_word (hi : i ≤ text.length) :
    (text.take i).getLast?.any Unicode.isWord = false ↔ i = 0 ∨ wordAt text (i - 1) = false := by
  rw [List.getLast?_take]
  by_cases hzero : i = 0
  · simp [hzero]
  · rw [if_neg hzero, wordAt, List.getElem?_eq_getElem (show i - 1 < text.length by omega)]
    simp [hzero]

/-- Where it occurs, told by the characters beside it. -/
theorem occursAt_beside (hi : i ≤ text.length) : occursAt name text i = true ↔
    standsAt name text i = true ∧ (i = 0 ∨ wordAt text (i - 1) = false) ∧ wordAt text (i + name.length) = false := by
  rw [occursAt_iff, before_word hi]

/-- An occurrence that no blank is over stays one. -/
theorem mem_occurrences_blank {spans : List (Nat × Nat)} (hword : Unicode.isWord ' ' = false)
    (hi : i ∈ occurrences name text) (hfree : ∀ k, k < name.length → covered spans (i + k) = false) :
    i ∈ occurrences name (blank spans text) := by
  have hwordAt : ∀ j, wordAt text j = false → wordAt (blank spans text) j = false := by
    intro j hj
    rw [wordAt] at hj
    rw [wordAt, getElem?_blank]
    cases htext : text[j]? with
    | none => rfl
    | some c =>
      rw [htext, Option.any_some] at hj
      cases covered spans j with
      | false => exact hj
      | true => exact hword
  obtain ⟨hle, hoccurs⟩ := mem_occurrences.mp hi
  obtain ⟨hstands, hbefore, hafter⟩ := (occursAt_beside hle).mp hoccurs
  have hle' : i ≤ (blank spans text).length := by rw [length_blank]; exact hle
  refine mem_occurrences.mpr ⟨hle', (occursAt_beside hle').mpr ⟨standsAt_iff.mpr fun k hk => ?_,
    hbefore.imp_right (hwordAt _), hwordAt _ hafter⟩⟩
  rw [getElem?_blank, hfree k hk, ← standsAt_iff.mp hstands k hk]
  simp

end

/-! ## The matches, in the two orders -/

section
variable [Unicode] {employees done : List EmployeeSummary} {folded : String} {text : List Char} {e : EmployeeSummary}
  {m : Hit}

theorem place_of_mem (h : m ∈ foundIn text e) :
    m.start ∈ occurrences (foldedName e) text ∧ m.stop = m.start + (foldedName e).length ∧
      m.employeeId = e.employeeId ∧ m.displayName = e.displayName := by
  obtain ⟨span, hspan, rfl⟩ := List.mem_map.mp h
  rw [spans, String.toList_ofList] at hspan
  obtain ⟨hstart, hstop⟩ := spansFrom_sound (List.nil_append _).symm hspan
  exact ⟨hstart, hstop, rfl, rfl⟩

/-- A match is told by its name and where it starts. -/
theorem eq_of_mem (h : m ∈ foundIn text e) :
    m = ⟨⟨m.start, m.start + (foldedName e).length, e.employeeId⟩, e.displayName⟩ := by
  obtain ⟨_, hstop, hid, hname⟩ := place_of_mem h
  rw [← hstop, ← hid, ← hname]

omit [Unicode] in
theorem overlaps_comm (a b : Hit) : a.overlaps b = b.overlaps a := Bool.and_comm _ _

omit [Unicode] in
theorem overlaps_iff {a b : Hit} : a.overlaps b = true ↔ a.start < b.stop ∧ b.start < a.stop := by
  rw [Hit.overlaps, NameMatch.overlaps, Bool.and_eq_true, decide_eq_true_iff, decide_eq_true_iff]

/-- Matches of one name do not overlap. -/
theorem foundIn_apart {a : Hit} (ha : a ∈ foundIn text e) (hm : m ∈ foundIn text e) (hne : m ≠ a) :
    m.overlaps a = false := by
  have hpairwise : (foundIn text e).Pairwise fun a b => a.stop ≤ b.start ∨ b.stop ≤ a.start := by
    rw [foundIn, List.pairwise_map]
    exact spansFrom_apart.imp Or.inl
  have : Std.Symm fun a b : Hit => a.stop ≤ b.start ∨ b.stop ≤ a.start := ⟨fun _ _ => Or.symm⟩
  have happart := hpairwise.forall hm ha hne
  rw [Bool.eq_false_iff, ne_eq, overlaps_iff]
  omega

theorem mem_hits : m ∈ hits employees folded ↔ ∃ e ∈ employees, m ∈ foundIn folded.toList e := List.mem_flatMap

omit [Unicode] in
theorem mem_longerFirst : e ∈ longerFirst employees ↔ e ∈ employees := List.mem_insertionSort _

theorem mem_sortedHits : m ∈ sortedHits employees folded ↔ m ∈ hits employees folded := List.mem_insertionSort _

omit [Unicode] in
/-- Of the names of some employees are those whose name is one of theirs. -/
theorem mem_ofNames {chosen : List Hit} :
    m ∈ ofNames chosen done ↔ m ∈ chosen ∧ ∃ f ∈ done, f.displayName = m.displayName := by
  rw [ofNames, List.mem_filter, decide_eq_true_iff, List.mem_map]

/-- Of all matches those of a name are what is found of it. -/
theorem found_of_name (hnames : (employees.map (·.displayName)).Nodup) (he : e ∈ employees)
    (hm : m ∈ hits employees folded) (hname : m.displayName = e.displayName) : m ∈ foundIn folded.toList e := by
  obtain ⟨f, hf, hfound⟩ := mem_hits.mp hm
  have hsame := (place_of_mem hfound).2.2.2.symm.trans hname
  exact List.inj_on_of_nodup_map hnames hf he hsame ▸ hfound

end

/-! ## Longer names first, each blanked out -/

section
variable [Unicode] {employees done : List EmployeeSummary} {folded : String} {e : EmployeeSummary} {m : Hit}

omit [Unicode] in
/-- The blanks over some matches are over their places. -/
theorem covered_spansOf {found : List Hit} {i : Nat} :
    covered (spansOf found) i = true ↔ ∃ m ∈ found, m.start ≤ i ∧ i < m.stop := by
  simp [covered_iff, spansOf]

omit [Unicode] in
theorem blank_congr {spans spans' : List (Nat × Nat)} (h : ∀ i, covered spans i = covered spans' i) (text : List Char) :
    blank spans text = blank spans' text := by
  refine List.ext_getElem? fun i => ?_
  rw [getElem?_blank, getElem?_blank]
  simp only [h]

omit [Unicode] in
theorem blank_spansOf_congr {found found' : List Hit} (h : ∀ m, m ∈ found ↔ m ∈ found') (text : List Char) :
    blank (spansOf found) text = blank (spansOf found') text :=
  blank_congr (fun i => by rw [Bool.eq_iff_iff, covered_spansOf, covered_spansOf]; simp only [h]) text

/-- What overlaps no blank is found still, or begins inside something of the name that is. -/
theorem found_or_inside (hword : Unicode.isWord ' ' = false) {blanked : List Hit} (hm : m ∈ foundIn folded.toList e)
    (hfree : ∀ a ∈ blanked, m.overlaps a = false) : ∃ a ∈ foundIn (blank (spansOf blanked) folded.toList) e,
      a = m ∨ (a.start < m.start ∧ m.start < a.stop) := by
  obtain ⟨hstart, hstop, _, _⟩ := place_of_mem hm
  have hstill : m.start ∈ occurrences (foldedName e) (blank (spansOf blanked) folded.toList) := by
    refine mem_occurrences_blank hword hstart fun k hk => ?_
    rw [Bool.eq_false_iff, ne_eq, covered_spansOf]
    intro hcovered
    obtain ⟨a, ha, hover⟩ := hcovered
    have hapart := hfree a ha
    rw [Bool.eq_false_iff, ne_eq, overlaps_iff] at hapart
    omega
  obtain ⟨span, hspan, hle, hplace⟩ := spansFrom_covers (List.nil_append _).symm hstill (by simp : 0 + 0 ≤ m.start)
  have hfound : (⟨⟨span.1, span.2, e.employeeId⟩, e.displayName⟩ : Hit) ∈
      foundIn (blank (spansOf blanked) folded.toList) e := by
    refine List.mem_map.mpr ⟨span, ?_, rfl⟩
    rw [spans, String.toList_ofList]
    exact hspan
  refine ⟨_, hfound, ?_⟩
  by_cases hsame : span.1 = m.start
  · left
    rw [eq_of_mem hm, eq_of_mem hfound]
    simp only [hsame]
  · exact Or.inr ⟨by dsimp only; omega, hplace.resolve_left hsame⟩

/-- What is found of some employees' names, each blanked out. -/
def foundAfter (folded : String) (done : List EmployeeSummary) : List Hit :=
  (done.foldl blankOut (folded.toList, [])).2

theorem remaining_eq (folded : String) (done : List EmployeeSummary) :
    (done.foldl blankOut (folded.toList, [])).1 = blank (spansOf (foundAfter folded done)) folded.toList := by
  induction done using List.reverseRecOn with
  | nil => exact (blank_nil _).symm
  | append_singleton done e ih =>
    have hspans : ∀ found found' : List Hit, spansOf (found ++ found') = spansOf found ++ spansOf found' := fun _ _ =>
      List.map_append
    rw [foundAfter, List.foldl_append, List.foldl_cons, List.foldl_nil, blankOut, hspans, ← blank_blank, ← foundAfter, ih]

/-- The round of one more name. -/
theorem foundAfter_snoc (folded : String) (done : List EmployeeSummary) (e : EmployeeSummary) :
    foundAfter folded (done ++ [e]) =
      foundAfter folded done ++ foundIn (blank (spansOf (foundAfter folded done)) folded.toList) e := by
  rw [foundAfter, List.foldl_append, List.foldl_cons, List.foldl_nil, blankOut, remaining_eq]
  rfl

/-- What more rounds find is of their names. -/
theorem mem_foundAfter_append (rest : List EmployeeSummary) (hm : m ∈ foundAfter folded (done ++ rest)) :
    m ∈ foundAfter folded done ∨ ∃ f ∈ rest, f.displayName = m.displayName := by
  induction rest using List.reverseRecOn with
  | nil => exact Or.inl (by simpa using hm)
  | append_singleton rest e ih =>
    rw [← List.append_assoc, foundAfter_snoc, List.mem_append] at hm
    rcases hm with hm | hm
    · refine (ih hm).imp_right fun hname => ?_
      obtain ⟨f, hf, hname⟩ := hname
      exact ⟨f, List.mem_append_left _ hf, hname⟩
    · exact Or.inr ⟨e, by simp, (place_of_mem hm).2.2.2.symm⟩

theorem foundAfter_subset (rest : List EmployeeSummary) (hm : m ∈ foundAfter folded done) :
    m ∈ foundAfter folded (done ++ rest) := by
  induction rest using List.reverseRecOn with
  | nil => rwa [List.append_nil]
  | append_singleton rest e ih =>
    rw [← List.append_assoc, foundAfter_snoc]
    exact List.mem_append_left _ ih

theorem name_of_foundAfter (hm : m ∈ foundAfter folded done) : ∃ f ∈ done, f.displayName = m.displayName :=
  (mem_foundAfter_append done (show m ∈ foundAfter folded ([] ++ done) from hm)).resolve_left fun h => by cases h

end

/-! ## Where they keep the same matches -/

section
variable [Unicode] {employees done rest : List EmployeeSummary} {folded : String} {e : EmployeeSummary} {chosen : List Hit}
  {m : Hit}

omit [Unicode] in
theorem mem_of_split (hsplit : longerFirst employees = done ++ e :: rest) : e ∈ employees :=
  mem_longerFirst.mp (by rw [hsplit]; simp)

variable (hnames : (employees.map (·.displayName)).Nodup)
include hnames

omit [Unicode] in
/-- No name comes twice. -/
theorem names_of_split (hsplit : longerFirst employees = done ++ e :: rest) {f : EmployeeSummary} (hf : f ∈ done) :
    ∀ g ∈ e :: rest, f.displayName ≠ g.displayName := by
  have hnodup : ((longerFirst employees).map (·.displayName)).Nodup :=
    (((List.perm_insertionSort _ _).map _).nodup_iff).mpr hnames
  rw [hsplit, List.map_append, List.nodup_append] at hnodup
  exact fun g hg => hnodup.2.2 _ (List.mem_map_of_mem hf) _ (List.mem_map_of_mem hg)

/-- Of a clear choice those of a name are what is found of it free of those before. -/
theorem mem_chosen_iff (h : Clear employees folded chosen) (hsplit : longerFirst employees = done ++ e :: rest) :
    m ∈ ofNames chosen (done ++ [e]) ↔
      m ∈ ofNames chosen done ∨ (m ∈ foundIn folded.toList e ∧ ∀ a ∈ ofNames chosen done, m.overlaps a = false) := by
  constructor
  · intro hm
    by_cases hin : m ∈ ofNames chosen done
    · exact Or.inl hin
    obtain ⟨hchosen, f, hf, hname⟩ := mem_ofNames.mp hm
    have hnot : f ∉ done := fun hf => hin (mem_ofNames.mpr ⟨hchosen, f, hf, hname⟩)
    obtain rfl : f = e := by simpa [hnot] using hf
    refine Or.inr ⟨found_of_name hnames (mem_of_split hsplit) (mem_sortedHits.mp (h.byPlace.subset m hchosen)) hname.symm,
      fun a ha => ?_⟩
    rw [Bool.eq_false_iff]
    intro hover
    exact hin (h.byName.apart m hchosen a (mem_ofNames.mp ha).1 hover ▸ ha)
  · rintro (hm | ⟨hfound, hfree⟩)
    · obtain ⟨hchosen, f, hf, hname⟩ := mem_ofNames.mp hm
      exact mem_ofNames.mpr ⟨hchosen, f, List.mem_append_left _ hf, hname⟩
    refine mem_ofNames.mpr ⟨?_, e, by simp, (place_of_mem hfound).2.2.2.symm⟩
    by_contra hout
    obtain ⟨pre, post, hcut⟩ := List.append_of_mem hfound
    have hplace : hits (longerFirst employees) folded = (hits done folded ++ pre) ++ m :: (post ++ hits rest folded) := by
      rw [hsplit, hits, List.flatMap_append, List.flatMap_cons, hcut]
      simp [hits]
    obtain ⟨a, ha, hchosen, hover⟩ := h.byName.gaveWay _ m _ hplace hout
    rcases List.mem_append.mp ha with ha | ha
    · obtain ⟨f, hf, hmatch⟩ := mem_hits.mp ha
      have hfalse := hfree a (mem_ofNames.mpr ⟨hchosen, f, hf, (place_of_mem hmatch).2.2.2.symm⟩)
      rw [hfalse] at hover
      cases hover
    · have hsame : a ∈ foundIn folded.toList e := by rw [hcut]; exact List.mem_append_left _ ha
      rw [foundIn_apart hsame hfound fun heq => hout (heq ▸ hchosen)] at hover
      cases hover

/-- A clear choice is what each of the two keeps. -/
theorem Clear.keepSame (h : Clear employees folded chosen) :
    (∀ m, m ∈ mentionedHits employees folded ↔ m ∈ chosen) ∧ ∀ m, m ∈ acceptedHits employees folded ↔ m ∈ chosen := by
  refine ⟨fun m => ?_, fun m => mem_accept_iff h.byPlace⟩
  have hloop : ∀ done rest, longerFirst employees = done ++ rest →
      ∀ m, m ∈ foundAfter folded done ↔ m ∈ ofNames chosen done := by
    intro done
    induction done using List.reverseRecOn with
    | nil =>
      intro rest _ m
      exact iff_of_false (fun hm => by cases hm) fun hm => by simpa using (mem_ofNames.mp hm).2
    | append_singleton done e ih =>
      intro rest hsplit m
      have hcut : longerFirst employees = done ++ e :: rest := by rw [hsplit, List.append_assoc]; rfl
      have ih := ih (e :: rest) hcut
      rw [foundAfter_snoc, List.mem_append, ih, blank_spansOf_congr ih, h.clean done e rest hcut,
        mem_chosen_iff hnames h hcut]
  have hall : m ∈ ofNames chosen (longerFirst employees) ↔ m ∈ chosen := by
    rw [mem_ofNames]
    refine and_iff_left_of_imp fun hm => ?_
    obtain ⟨f, hf, hmatch⟩ := mem_hits.mp (h.byName.subset m hm)
    exact ⟨f, hf, (place_of_mem hmatch).2.2.2.symm⟩
  rw [← hall, ← hloop _ [] (List.append_nil _).symm]
  rfl

/-- Where both keep the same, what overlaps nothing blanked out is found. -/
theorem KeepSame.found (hword : Unicode.isWord ' ' = false) (h : KeepSame employees folded)
    (hsplit : longerFirst employees = done ++ e :: rest) (hm : m ∈ foundIn folded.toList e)
    (hfree : ∀ a ∈ foundAfter folded done, m.overlaps a = false) :
    m ∈ foundIn (blank (spansOf (foundAfter folded done)) folded.toList) e := by
  obtain ⟨a, ha, rfl | hinside⟩ := found_or_inside hword hm hfree
  · exact ha
  have hkept : a ∈ acceptedHits employees folded := by
    refine (h a).mp ?_
    rw [mentionedHits, hsplit, List.append_cons, ← foundAfter]
    exact foundAfter_subset rest (foundAfter_snoc folded done e ▸ List.mem_append_right _ ha)
  have hsame := found_of_name hnames (mem_of_split hsplit) (mem_sortedHits.mp (accept_subset hkept)) (place_of_mem ha).2.2.2
  have hne : m ≠ a := fun heq => by rw [heq] at hinside; exact Nat.lt_irrefl _ hinside.1
  have hapart := foundIn_apart hsame hm hne
  rw [Bool.eq_false_iff, ne_eq, overlaps_iff, (place_of_mem hm).2.1] at hapart
  omega

/-- What is kept of some names is what is found of them. -/
theorem KeepSame.ofNames_iff (h : KeepSame employees folded) (hsplit : longerFirst employees = done ++ e :: rest) :
    m ∈ ofNames (acceptedHits employees folded) done ↔ m ∈ foundAfter folded done := by
  have hall : mentionedHits employees folded = foundAfter folded (done ++ e :: rest) := by rw [← hsplit]; rfl
  rw [mem_ofNames, ← h, hall]
  constructor
  · intro hm
    obtain ⟨hfound, f, hf, hname⟩ := hm
    refine (mem_foundAfter_append _ hfound).resolve_right fun hlater => ?_
    obtain ⟨g, hg, hname'⟩ := hlater
    exact names_of_split hnames hsplit hf g hg (hname.trans hname'.symm)
  · exact fun hm => ⟨foundAfter_subset _ hm, name_of_foundAfter hm⟩

/-- What both keep then is a clear choice. -/
theorem KeepSame.clear (hword : Unicode.isWord ' ' = false) (h : KeepSame employees folded) :
    Clear employees folded (acceptedHits employees folded) := by
  have hselection : IsSelection Hit.overlaps (sortedHits employees folded) (acceptedHits employees folded) :=
    isSelection_accept overlaps_comm
  have hhits : ∀ m, m ∈ hits (longerFirst employees) folded ↔ m ∈ hits employees folded := fun m => by
    simp only [mem_hits, mem_longerFirst]
  refine ⟨⟨fun m hm => (hhits m).mpr (mem_sortedHits.mp (hselection.subset m hm)), hselection.apart,
    fun before m after hplace hout => ?_⟩, hselection, fun done e rest hsplit m => ?_⟩
  · obtain ⟨e, he, hm⟩ := mem_hits.mp (show m ∈ hits (longerFirst employees) folded by rw [hplace]; simp)
    obtain ⟨done, rest, hsplit⟩ := List.append_of_mem he
    obtain ⟨a, ha, hover⟩ : ∃ a ∈ foundAfter folded done, m.overlaps a = true := by
      by_contra hnone
      refine hout ((h m).mp ?_)
      have hfound := h.found hnames hword hsplit hm fun a ha => by
        rw [Bool.eq_false_iff]
        exact fun hover => hnone ⟨a, ha, hover⟩
      rw [mentionedHits, hsplit, List.append_cons, ← foundAfter]
      exact foundAfter_subset rest (foundAfter_snoc folded done e ▸ List.mem_append_right _ hfound)
    obtain ⟨hkept, f, hf, hname⟩ := mem_ofNames.mp ((h.ofNames_iff hnames hsplit).mpr ha)
    refine ⟨a, ?_, hkept, hover⟩
    -- all matches of the names before stand before it
    have hearlier : a ∈ hits done folded :=
      mem_hits.mpr ⟨f, hf, found_of_name hnames (mem_longerFirst.mp (by rw [hsplit]; simp [hf]))
        (mem_sortedHits.mp (hselection.subset a hkept)) hname.symm⟩
    have hnot : m ∉ hits done folded := by
      intro hin
      obtain ⟨g, hg, hmatch⟩ := mem_hits.mp hin
      exact names_of_split hnames hsplit hg e List.mem_cons_self
        ((place_of_mem hmatch).2.2.2.symm.trans (place_of_mem hm).2.2.2)
    rw [hsplit, hits, List.flatMap_append] at hplace
    rcases List.append_eq_append_iff.mp hplace with ⟨t, ht, _⟩ | ⟨t, ht, hrest⟩
    · rw [ht]
      exact List.mem_append_left _ hearlier
    · cases t with
      | nil =>
        rw [List.append_nil] at ht
        exact ht ▸ hearlier
      | cons x t =>
        obtain ⟨rfl, _⟩ := List.cons.inj hrest
        exact absurd (show m ∈ hits done folded by rw [hits, ht]; simp) hnot
  · have hsame := fun m => h.ofNames_iff (m := m) hnames hsplit
    rw [blank_spansOf_congr hsame]
    constructor
    · intro hm
      have hkept : m ∈ acceptedHits employees folded := by
        refine (h m).mp ?_
        rw [mentionedHits, hsplit, List.append_cons, ← foundAfter]
        exact foundAfter_subset rest (foundAfter_snoc folded done e ▸ List.mem_append_right _ hm)
      have hname := (place_of_mem hm).2.2.2
      refine ⟨found_of_name hnames (mem_of_split hsplit) (mem_sortedHits.mp (hselection.subset m hkept)) hname,
        fun a ha => ?_⟩
      rw [Bool.eq_false_iff]
      intro hover
      obtain ⟨ha, f, hf, hname'⟩ := mem_ofNames.mp ha
      rw [← hselection.apart m hkept a ha hover] at hname'
      exact names_of_split hnames hsplit hf e List.mem_cons_self (hname'.trans hname)
    · exact fun hm => h.found hnames hword hsplit hm.1 fun a ha => hm.2 a ((hsame a).mpr ha)

/-- They keep the same matches exactly when there is a clear choice. -/
theorem clear_iff (hword : Unicode.isWord ' ' = false) :
    (∃ chosen, Clear employees folded chosen) ↔ KeepSame employees folded := by
  refine ⟨fun h => ?_, fun h => ⟨_, h.clear hnames hword⟩⟩
  obtain ⟨chosen, hchosen⟩ := h
  obtain ⟨hmentioned, haccepted⟩ := hchosen.keepSame hnames
  exact fun m => (hmentioned m).trans (haccepted m).symm

end

/-! ## The three -/

section
variable [Unicode] {employees : List EmployeeSummary} {folded : String}

/-- One round of `_mentioned_employee_ids`. -/
def mention (state : List Char × List String) (e : EmployeeSummary) : List Char × List String :=
  let found := spans (casefold e.displayName) (String.ofList state.1)
  if found.isEmpty then state else (blank found state.1, state.2 ++ [e.employeeId])

theorem mentionedEmployeeIds_eq (question : String) :
    mentionedEmployeeIds (·.employeeId) (·.displayName) question employees =
      ((longerFirst employees).foldl mention ((casefold question).toList, [])).2 := rfl

theorem mention_remaining (state : List Char × List String) (e : EmployeeSummary) :
    (mention state e).1 = blank (spansOf (foundIn state.1 e)) state.1 := by
  have hspans : spansOf (foundIn state.1 e) = spans (casefold e.displayName) (String.ofList state.1) := by
    rw [spansOf, foundIn, List.map_map]
    exact List.map_id _
  rw [mention, hspans]
  cases spans (casefold e.displayName) (String.ofList state.1) with
  | nil => exact (blank_nil _).symm
  | cons span rest => rfl

theorem mem_mention_ids {state : List Char × List String} {e : EmployeeSummary} {employeeId : String} :
    employeeId ∈ (mention state e).2 ↔
      employeeId ∈ state.2 ∨ ∃ m ∈ foundIn state.1 e, m.employeeId = employeeId := by
  rw [mention, foundIn]
  cases spans (casefold e.displayName) (String.ofList state.1) with
  | nil => simp
  | cons span rest =>
    rw [if_neg (by simp), List.mem_append, List.mem_singleton]
    refine or_congr_right ⟨fun hid => ⟨_, List.mem_cons_self, hid.symm⟩, fun hin => ?_⟩
    obtain ⟨m, hm, hid⟩ := hin
    obtain ⟨_, _, rfl⟩ := List.mem_map.mp hm
    exact hid.symm

/-- The first names those of the matches it finds. -/
theorem mem_mentioned_ids {question employeeId : String} :
    employeeId ∈ mentionedEmployeeIds (·.employeeId) (·.displayName) question employees ↔
      ∃ m ∈ mentionedHits employees (casefold question), m.employeeId = employeeId := by
  have hloop : ∀ (rest : List EmployeeSummary) (state : List Char × List String) (kept : List Char × List Hit),
      state.1 = kept.1 →
      (∀ id, id ∈ state.2 ↔ ∃ m ∈ kept.2, m.employeeId = id) →
      ∀ id, id ∈ (rest.foldl mention state).2 ↔ ∃ m ∈ (rest.foldl blankOut kept).2, m.employeeId = id := by
    intro rest
    induction rest with
    | nil => exact fun _ _ _ hids => hids
    | cons e rest ih =>
      intro state kept hremaining hids
      refine ih _ _ ?_ fun id => ?_
      · rw [mention_remaining, hremaining]
        rfl
      · rw [mem_mention_ids, hids, hremaining, blankOut]
        simp only [List.mem_append, or_and_right, exists_or]
  rw [mentionedEmployeeIds_eq]
  exact hloop _ _ _ rfl (fun id => by simp) employeeId

/-- What `namedEmployees` finds, without the texts. -/
theorem nameMatches_eq : (employees.flatMap fun e => (spans (casefold e.displayName) folded).map
    fun (start, stop) => (⟨start, stop, e.employeeId⟩ : NameMatch)) = (hits employees folded).map Hit.toNameMatch := by
  simp only [hits, foundIn, List.map_flatMap, List.map_map, String.ofList_toList]
  rfl

/-- Where no id is in the text, the second names those of the matches it accepts. -/
theorem mem_named_ids (hids : ∀ e ∈ employees, spans (casefold e.employeeId) folded = []) {employeeId : String} :
    employeeId ∈ (namedEmployees employees folded).map (·.employeeId) ↔
      ∃ m ∈ acceptedHits employees folded, m.employeeId = employeeId := by
  have hnone : employees.filter (fun e => !(spans (casefold e.employeeId) folded).isEmpty) = [] :=
    List.filter_eq_nil_iff.mpr fun e he => by simp [hids e he]
  have haccepted : acceptMatches (((hits employees folded).map Hit.toNameMatch).insertionSort fun a b => a.before b) =
      (acceptedHits employees folded).map Hit.toNameMatch := by
    rw [← List.map_insertionSort (fun a b : Hit => a.before b.toNameMatch) _ Hit.toNameMatch _ fun _ _ _ _ => Iff.rfl]
    exact accept_map Hit.toNameMatch _
  have hnamed : namedEmployees employees folded = employees.filter fun e =>
      e.employeeId ∈ (acceptedHits employees folded).map (·.employeeId) := by
    unfold namedEmployees
    dsimp only
    rw [hnone, nameMatches_eq, haccepted, List.map_map]
    rfl
  rw [hnamed, List.mem_map]
  constructor
  · intro hin
    obtain ⟨e, he, rfl⟩ := hin
    exact List.mem_map.mp (by simpa using (List.mem_filter.mp he).2)
  · intro hin
    obtain ⟨m, hm, rfl⟩ := hin
    obtain ⟨e, he, hmatch⟩ := mem_hits.mp (mem_sortedHits.mp (accept_subset hm))
    have hid := (place_of_mem hmatch).2.2.1
    exact ⟨e, List.mem_filter.mpr ⟨he, by simpa using ⟨m, hm, hid⟩⟩, hid.symm⟩

/-- The name of a match is somewhere in the text. -/
theorem contains_of_hit {question : String} {m : Hit} (hm : m ∈ hits employees (casefold question)) :
    ∃ e ∈ employees, contains (casefold question) (casefold e.displayName) = true := by
  obtain ⟨e, he, hmatch⟩ := mem_hits.mp hm
  have hplace := prefix_of_mem (place_of_mem hmatch).1
  exact ⟨e, he, contains_iff.mpr (hplace.isInfix.trans (List.drop_suffix _ _).isInfix)⟩

omit [Unicode] in
/-- What is found first is no later than anything that could be. -/
theorem find?_before {α : Type} {p : α → Bool} {l before after : List α} {first a : α} (h : l.find? p = some first)
    (hsplit : l = before ++ a :: after) (ha : p a = true) : first = a ∨ first ∈ before := by
  rw [hsplit, List.find?_append, List.find?_cons_of_pos ha] at h
  cases hbefore : before.find? p with
  | none =>
    rw [hbefore, Option.none_or, Option.some.injEq] at h
    exact Or.inl h.symm
  | some b =>
    rw [hbefore, Option.some_or, Option.some.injEq] at h
    exact Or.inr (h ▸ List.mem_of_find?_eq_some hbefore)

/-- The first whose name is in the text has the id, exactly when none before has another. -/
theorem source_iff {question employeeId : String} {employees : List EmployeeSummary}
    (hsome : ∃ e ∈ employees, contains (casefold question) (casefold e.displayName) = true) :
    sourceEmployeeId question employees none = some employeeId ↔
      ∀ before e after, employees = before ++ e :: after →
        contains (casefold question) (casefold e.displayName) = true →
        e.employeeId = employeeId ∨ ∃ f ∈ before, f.employeeId = employeeId ∧
          contains (casefold question) (casefold f.displayName) = true := by
  obtain ⟨first, hfind⟩ := Option.isSome_iff_exists.mp (List.find?_isSome.mpr hsome)
  obtain ⟨hfirst, past, rest, hsplit, hpast⟩ := List.find?_eq_some_iff_append.mp hfind
  rw [sourceEmployeeId, hfind, Option.map_some, Option.some.injEq]
  constructor
  · intro hid before e after hlist hin
    rcases find?_before hfind hlist hin with rfl | hbefore
    · exact Or.inl hid
    · exact Or.inr ⟨first, hbefore, hid, hfirst⟩
  · intro hall
    rcases hall past first rest hsplit hfirst with hid | ⟨f, hf, _, hin⟩
    · exact hid
    · have hfree := hpast f hf
      simp [hin] at hfree

theorem one_resolution_iff [LowerCase] (snapshot : DashboardSnapshot) (question : String)
    (hnames : (snapshot.employees.map (·.displayName)).Nodup)
    (hids : ∀ e ∈ snapshot.employees, spans (casefold e.employeeId) (casefold question) = [])
    (hword : Unicode.isWord ' ' = false) :
    ((∃ chosen, Clear snapshot.employees (casefold question) chosen) ↔ KeepSame snapshot.employees (casefold question)) ∧
      ∀ chosen, Clear snapshot.employees (casefold question) chosen →
        (OneResolution snapshot question ↔ FirstListed snapshot question chosen) := by
  refine ⟨clear_iff hnames hword, fun chosen hclear => ?_⟩
  obtain ⟨hmentioned, haccepted⟩ := hclear.keepSame hnames
  have honly : ∀ employeeId, OnlyNamed snapshot question employeeId ↔
      chosen ≠ [] ∧ ∀ m ∈ chosen, m.employeeId = employeeId := by
    intro employeeId
    unfold OnlyNamed
    simp only [mem_named_ids hids, haccepted]
    constructor
    · intro h
      obtain ⟨m, hm, _⟩ := (h employeeId).mpr rfl
      exact ⟨List.ne_nil_of_mem hm, fun m hm => (h m.employeeId).mp ⟨m, hm, rfl⟩⟩
    · intro h other
      obtain ⟨m, hm⟩ := List.exists_mem_of_ne_nil _ h.1
      exact ⟨fun ⟨m, hm, hid⟩ => hid ▸ h.2 m hm, fun heq => ⟨m, hm, (h.2 m hm).trans heq.symm⟩⟩
  have hsource : ∀ employeeId, chosen ≠ [] →
      (sourceEmployeeId question snapshot.employees none = some employeeId ↔ ∀ before e after,
        snapshot.employees = before ++ e :: after → contains (casefold question) (casefold e.displayName) = true →
        e.employeeId = employeeId ∨
          ∃ f ∈ before, f.employeeId = employeeId ∧ contains (casefold question) (casefold f.displayName) = true) := by
    intro employeeId hne
    obtain ⟨m, hm⟩ := List.exists_mem_of_ne_nil _ hne
    exact source_iff (contains_of_hit (mem_sortedHits.mp (hclear.byPlace.subset m hm)))
  constructor
  · exact fun h employeeId hne hall =>
      (hsource employeeId hne).mp (h.ranked employeeId ((honly employeeId).mpr ⟨hne, hall⟩)).1
  · intro h
    refine ⟨fun employeeId => ?_, fun employeeId hnamed => ?_⟩
    · rw [mem_mentioned_ids, mem_named_ids hids]
      simp only [hmentioned, haccepted]
    · obtain ⟨hne, hall⟩ := (honly employeeId).mp hnamed
      have hid := (hsource employeeId hne).mpr (h employeeId hne hall)
      exact ⟨hid, by rw [candidateRanking, hid]⟩

end

/-! ## A tie, a name inside a word, and a name inside a longer one -/

attribute [local instance] Unicode.ascii LowerCase.ascii

/-- Two employees, by their names. -/
def pair (first second : String) : DashboardSnapshot :=
  sampleSnapshot [sampleEmployee "EMP-1" first, sampleEmployee "EMP-2" second] []

/-- No id is in the text, and yet the three do not find the same. -/
theorem ties_and_parts_of_words :
    ((∀ e ∈ (pair "Lee Ann" "Ann Lee").employees, spans (casefold e.employeeId) (casefold "Ann Lee Ann") = []) ∧
      ¬ OneResolution (pair "Lee Ann" "Ann Lee") "Ann Lee Ann") ∧
    ((∀ e ∈ (pair "Ana" "Bob").employees, spans (casefold e.employeeId) (casefold "Anabel and Bob") = []) ∧
      ¬ OneResolution (pair "Ana" "Bob") "Anabel and Bob") := by
  refine ⟨⟨by decide, fun h => ?_⟩, ⟨by decide, fun h => ?_⟩⟩
  · exact absurd ((h.same "EMP-1").mp (by decide)) (by decide)
  · have hnamed : (namedEmployees (pair "Ana" "Bob").employees (casefold "Anabel and Bob")).map (·.employeeId) =
        ["EMP-2"] := by decide
    have honly : OnlyNamed (pair "Ana" "Bob") "Anabel and Bob" "EMP-2" := by
      intro other
      rw [hnamed, List.mem_singleton]
    exact absurd (h.ranked "EMP-2" honly).1 (by decide)

/-- The tables of the ASCII characters, and of one that is two when folded. -/
@[reducible] def sharpTables : Unicode :=
  { Unicode.ascii with casefold := fun c => if c = 'ß' then ['s', 's'] else [c.toLower] }

theorem longer_name_listed_first :
    OneResolution (pair "Ann Lee" "Ann") "Is Ann Lee at risk?" ∧
      letI := sharpTables
      OneResolution (pair "Eva Blum" "Max Weiß") "Eva Blum is overloaded" := by
  constructor
  · have hnames : ((pair "Ann Lee" "Ann").employees.map (·.displayName)).Nodup := by decide
    have hlaw := one_resolution_iff (pair "Ann Lee" "Ann") "Is Ann Lee at risk?" hnames (by decide) rfl
    obtain ⟨chosen, hclear⟩ := hlaw.1.mpr fun m => Eq.to_iff (congrArg (m ∈ ·) (by decide))
    refine (hlaw.2 chosen hclear).mpr fun employeeId _ hall => ?_
    obtain rfl : "EMP-1" = employeeId :=
      hall ⟨⟨3, 10, "EMP-1"⟩, "Ann Lee"⟩ (((hclear.keepSame hnames).2 _).mp (by decide))
    exact (source_iff ⟨sampleEmployee "EMP-1" "Ann Lee", by decide, by decide⟩).mp (by decide)
  · let _ := sharpTables
    have hnames : ((pair "Eva Blum" "Max Weiß").employees.map (·.displayName)).Nodup := by decide
    have hlaw := one_resolution_iff (pair "Eva Blum" "Max Weiß") "Eva Blum is overloaded" hnames (by decide) rfl
    obtain ⟨chosen, hclear⟩ := hlaw.1.mpr fun m => Eq.to_iff (congrArg (m ∈ ·) (by decide))
    refine (hlaw.2 chosen hclear).mpr fun employeeId _ hall => ?_
    obtain rfl : "EMP-1" = employeeId :=
      hall ⟨⟨0, 8, "EMP-1"⟩, "Eva Blum"⟩ (((hclear.keepSame hnames).2 _).mp (by decide))
    exact (source_iff ⟨sampleEmployee "EMP-1" "Eva Blum", by decide, by decide⟩).mp (by decide)

end WorkforceRisk.Evidence
