/-
  WorkforceRisk.Evidence.Dependencies — what an accepted answer says of dependencies
  (services/agent-api/src/agent_api/grounding.py `validate_universal_claims`,
  `validate_focused_claims`; the text of a dependency from dashboard/service.py).

  Both checks take the phrases `A is blocked by B` that `re.findall` returns and look for the
  text of B in the dependencies of A, joined into one text. They do not look at where a key
  ends, nor at the relationship, nor at a phrase that begins with the key that one before it
  ends with: that one begins inside another, and is not returned.

  Proved (`dependency_claims_iff`):
    1. whatever answer is accepted, its phrases are real dependencies, exactly when no task's
       key has the form of a key: behind a phrase of an allowed key the focused check passes
       over one of a task;
    2. of the universal check alone, exactly when nothing of the form of a key occurs in a
       task's dependencies: else another phrase may begin behind one that is accepted;
    3. of the phrases that are returned, exactly when everything of that form that occurs in a
       task's dependencies is the key of one that the task is blocked by.
  For the only-if parts answers of nothing but phrases are accepted, by what `re` and
  `str.upper` are documented to make of characters (`TextTables.Documented`).
-/

import Mathlib.Algebra.Order.BigOperators.Group.List
import Mathlib.Algebra.Order.Group.Nat
import WorkforceRisk.Evidence.Phrases
import WorkforceRisk.Lib.Transactions
import WorkforceRisk.Lib.Windows

namespace WorkforceRisk.Evidence

open Lib Persistence Historical Dashboard Jira Regex

section
variable [TextTables]

/-- The text of the blocker is somewhere in the dependencies. -/
def Occurs (dependencies : List String) (blocker : String) : Prop :=
  contains (upper (String.intercalate " " dependencies)) blocker = true

/-- One of the dependencies is one that the issue is blocked by. -/
def IsBlockedBy (dependencies : List String) (blocker : String) : Prop :=
  ∃ link : JiraIssueLink, link.relationship = "is blocked by" ∧ link.dependency ∈ dependencies ∧
    upper link.issueKey = blocker

/-- The task is the snapshot's, and is blocked by the issue. -/
def IsDependency (snapshot : DashboardSnapshot) (blocked blocker : String) : Prop :=
  ∃ task ∈ snapshot.tasks, upper task.key = blocked ∧ IsBlockedBy task.dependencies blocker

/-- What an answer tells, if the universal check accepts it, are dependencies of the snapshot. -/
def UniversalIsReal (snapshot : DashboardSnapshot) (told : String → List (String × String)) : Prop :=
  ∀ bundle answer, bundle.projectSnapshot = some snapshot → validateUniversalClaims answer bundle = .ok () →
    ∀ blocked blocker, (blocked, blocker) ∈ told answer → IsDependency snapshot blocked blocker

/-- So is what it tells of the tasks in the evidence, if the focused check accepts it. -/
def FocusedIsReal (snapshot : DashboardSnapshot) (told : String → List (String × String)) : Prop :=
  ∀ evidence allowed answer, (∀ t ∈ evidence.tasks, ∃ task ∈ snapshot.tasks, taskEvidence snapshot task = t) →
    validateFocusedClaims answer evidence allowed = .ok () →
    ∀ blocked blocker, (blocked, blocker) ∈ told answer → blocked ∈ evidence.tasks.map (fun t => upper t.key) →
      IsDependency snapshot blocked blocker

/-- Accepted phrases are dependencies of the snapshot. -/
structure ClaimsAreReal (snapshot : DashboardSnapshot) (told : String → List (String × String)) : Prop where
  universal : UniversalIsReal snapshot told
  focused : FocusedIsReal snapshot told

/-- What looks like a key in a task's dependencies is one that it is blocked by. -/
def KeysTell (snapshot : DashboardSnapshot) : Prop :=
  ∀ task ∈ snapshot.tasks, IsKey (upper task.key) → ∀ blocker, IsKey blocker →
    Occurs task.dependencies blocker → IsBlockedBy task.dependencies blocker

/-- Nothing in a task's dependencies looks like a key. -/
def NoKeyTold (snapshot : DashboardSnapshot) : Prop :=
  ∀ task ∈ snapshot.tasks, IsKey (upper task.key) → ∀ blocker, IsKey blocker → ¬ Occurs task.dependencies blocker

/-- No task's key looks like one. -/
def NoKeys (snapshot : DashboardSnapshot) : Prop := ∀ task ∈ snapshot.tasks, ¬ IsKey (upper task.key)

/-! ## The checks -/

omit [TextTables] in
/-- A round that requires something goes on or raises. -/
theorem require_round {ok : Bool} {message : String} {s : ForInStep Unit}
    (h : (do GroundingValidationError.require ok message; pure (ForInStep.yield ())) = .ok s) :
    s = .yield () ∧ ok = true := by
  obtain ⟨_, hok, hs⟩ := except_bind_ok.mp h
  cases hs
  exact ⟨rfl, require_ok.mp hok⟩

/-- Of an accepted answer each phrase is of a task, and its blocker occurs there. -/
theorem universal_claim {answer : String} {bundle : UniversalEvidenceBundle} {snapshot : DashboardSnapshot}
    (hs : bundle.projectSnapshot = some snapshot) (h : validateUniversalClaims answer bundle = .ok ())
    {blocked blocker : String} (hclaim : (blocked, blocker) ∈ dependencyClaims answer) :
    ∃ task ∈ snapshot.tasks, upper task.key = blocked ∧ Occurs task.dependencies blocker := by
  unfold validateUniversalClaims at h
  rw [hs] at h
  dsimp only at h
  obtain ⟨_, _, h⟩ := except_bind_ok.mp h
  obtain ⟨_, hloop, _⟩ := except_bind_ok.mp h
  obtain ⟨m, hm, hpair⟩ := List.mem_map.mp hclaim
  obtain ⟨rfl, rfl⟩ := Prod.mk.inj hpair
  have hround := of_forIn_ok (fun m s hround => by
    split at hround
    · cases hround
    · exact (require_round hround).1) hloop m hm
  split at hround
  · cases hround
  · rename_i task hfind
    exact ⟨task, List.mem_reverse.mp (List.mem_of_find?_eq_some hfind), by simpa using List.find?_some hfind,
      (require_round hround).2⟩

omit [TextTables] in
theorem mem_latestBy {α : Type} {key : α → String} {items : List α} {a : α} (h : a ∈ latestBy key items) :
    a ∈ items := by
  obtain ⟨k, _, hfind⟩ := List.mem_filterMap.mp h
  exact List.mem_reverse.mp (List.mem_of_find?_eq_some hfind)

omit [TextTables] in
theorem exists_latestBy {α : Type} {key : α → String} {items : List α} {k : String} (h : k ∈ items.map key) :
    ∃ a ∈ latestBy key items, key a = k := by
  obtain ⟨a, ha, hkey⟩ := List.mem_map.mp h
  have hsome : (items.reverse.find? (key · == k)).isSome = true :=
    List.find?_isSome.mpr ⟨a, List.mem_reverse.mpr ha, by simpa using hkey⟩
  obtain ⟨b, hfind⟩ := Option.isSome_iff_exists.mp hsome
  exact ⟨b, List.mem_filterMap.mpr ⟨k, List.mem_eraseDups.mpr h, hfind⟩, by simpa using List.find?_some hfind⟩

/-- So does the focused check, where the task is in its evidence. -/
theorem focused_claim {answer : String} {evidence : AnswerEvidenceSet} {allowed : List String}
    (h : validateFocusedClaims answer evidence allowed = .ok ()) {blocked blocker : String}
    (hclaim : (blocked, blocker) ∈ dependencyClaims answer)
    (hblocked : blocked ∈ evidence.tasks.map fun t => upper t.key) :
    ∃ t ∈ evidence.tasks, upper t.key = blocked ∧ Occurs t.dependencies blocker := by
  unfold validateFocusedClaims at h
  dsimp only at h
  obtain ⟨_, _, h⟩ := except_bind_ok.mp h
  obtain ⟨_, _, h⟩ := except_bind_ok.mp h
  obtain ⟨_, hloop, _⟩ := except_bind_ok.mp h
  obtain ⟨m, hm, hpair⟩ := List.mem_map.mp hclaim
  obtain ⟨rfl, rfl⟩ := Prod.mk.inj hpair
  have hround := of_forIn_ok (fun m s hround => by
    split at hround
    · exact (require_round hround).1
    · exact (require_round hround).1) hloop m hm
  split at hround
  · rename_i hnone
    obtain ⟨t, ht, hkey⟩ := exists_latestBy hblocked
    exact absurd (List.find?_eq_none.mp hnone t ht) (by simpa using hkey)
  · rename_i t hfind
    exact ⟨t, mem_latestBy (List.mem_of_find?_eq_some hfind), by simpa using List.find?_some hfind,
      (require_round hround).2⟩

theorem claimsAreReal_of_keysTell {snapshot : DashboardSnapshot} (h : KeysTell snapshot) :
    ClaimsAreReal snapshot dependencyClaims := by
  constructor
  · intro bundle answer hs hok blocked blocker hclaim
    obtain ⟨task, htask, rfl, hoccurs⟩ := universal_claim hs hok hclaim
    obtain ⟨hblocked, hblocker⟩ := phrases_keys (dependencyClaims_subset hclaim)
    exact ⟨task, htask, rfl, h task htask hblocked blocker hblocker hoccurs⟩
  · intro evidence allowed answer hof hok blocked blocker hclaim hin
    obtain ⟨t, ht, rfl, hoccurs⟩ := focused_claim hok hclaim hin
    obtain ⟨hblocked, hblocker⟩ := phrases_keys (dependencyClaims_subset hclaim)
    obtain ⟨task, htask, rfl⟩ := hof t ht
    exact ⟨task, htask, rfl, h task htask hblocked blocker hblocker hoccurs⟩

/-- An answer with a phrase is then refused. -/
theorem universalIsReal_of_noKeyTold {snapshot : DashboardSnapshot} (h : NoKeyTold snapshot) :
    UniversalIsReal snapshot phrases := by
  intro bundle answer hs hok blocked blocker hphrase
  obtain ⟨⟨blocked', blocker'⟩, hclaim⟩ := exists_claim hphrase
  obtain ⟨task, htask, rfl, hoccurs⟩ := universal_claim hs hok hclaim
  obtain ⟨hblocked, hblocker⟩ := phrases_keys (dependencyClaims_subset hclaim)
  exact absurd hoccurs (h task htask hblocked blocker' hblocker)

/-- No phrase is then of a task. -/
theorem focusedIsReal_of_noKeys {snapshot : DashboardSnapshot} (h : NoKeys snapshot) : FocusedIsReal snapshot phrases := by
  intro evidence allowed answer hof _ blocked blocker hphrase hin
  obtain ⟨t, ht, rfl⟩ := List.mem_map.mp hin
  obtain ⟨task, htask, rfl⟩ := hof t ht
  exact absurd (phrases_keys hphrase).1 (h task htask)

end

section
variable [TextTables] (tables : TextTables.Documented)
include tables

/-! ## Nothing else is claimed in a text of phrases -/

/-- The words that claims of levels and hours have before a blank. -/
def claimWords : List String :=
  ["low", "medium", "high", "critical", "insufficient-data", "h", "hour", "hours", "capacity"]

/-- Read from their ends, a text and a word part at some ASCII character. -/
def parts : List Char → List Char → Bool
  | x :: xs, c :: cs => (x.toNat < 128 && c.toNat < 128 && c.toLower != x.toLower) || parts xs cs
  | _, _ => false

theorem not_spells_of_parts {pre w t : List Char} {word : String} (hw : w <:+ pre) (ht : t <:+ pre)
    (h : parts w.reverse word.toList.reverse = true) : ¬ Spells TextTables.variants t word := by
  intro hspells
  have hword := List.reverse_prefix.mpr hw
  have htext := List.reverse_prefix.mpr ht
  have hboth := List.forall₂_reverse_iff.mpr hspells
  generalize w.reverse = w' at h hword
  generalize t.reverse = t' at htext hboth
  generalize word.toList.reverse = cs at h hboth
  generalize pre.reverse = p at hword htext
  clear hspells hw ht
  induction hboth generalizing w' p with
  | nil => cases w' <;> cases h
  | @cons x c t' cs hx _ ih =>
    cases w' with
    | nil => cases h
    | cons y w' =>
      cases p with
      | nil => simp at htext
      | cons z p =>
        obtain ⟨rfl, hword'⟩ := List.cons_prefix_cons.mp hword
        obtain ⟨rfl, htext'⟩ := List.cons_prefix_cons.mp htext
        simp only [parts, Bool.or_eq_true, Bool.and_eq_true, decide_eq_true_eq, bne_iff_ne] at h
        rcases h with ⟨⟨hy, hc⟩, hne⟩ | h
        · exact hne (tables.ascii x c hx hy hc)
        · exact ih _ h _ hword' htext'

/-- A text that ends with a digit does not end with a word. -/
theorem not_spells_of_digit {pre t past cs : List Char} {d c : Char} {word : String} (hpre : past ++ [d] <:+ pre)
    (hd : isDecimal d = true) (ht : t <:+ pre) (hword : word.toList = cs ++ [c]) (hc : c.toNat < 128)
    (hdigit : c.isDigit = false) : ¬ Spells TextTables.variants t word := by
  intro hspells
  rw [Spells, hword] at hspells
  obtain ⟨x, hx, hlast⟩ : ∃ x, c ∈ TextTables.variants x ∧ ∃ t', t = t' ++ [x] := by
    have hboth := List.forall₂_reverse_iff.mpr hspells
    rw [List.reverse_append, List.reverse_singleton, List.singleton_append] at hboth
    obtain ⟨x, t', hx, _, ht'⟩ := List.forall₂_cons_right_iff.mp hboth
    exact ⟨x, hx, t'.reverse, by rw [← List.reverse_reverse t, ht']; simp⟩
  obtain ⟨t', rfl⟩ := hlast
  obtain rfl : x = d := by
    obtain ⟨u, hu⟩ := hpre
    obtain ⟨v, hv⟩ := ht
    have hsame : (v ++ t') ++ [x] = (u ++ past) ++ [d] := by
      rw [List.append_assoc, List.append_assoc, hu, hv]
    simpa using (List.append_inj_right' hsame rfl)
  have hsome : (Unicode.decimal x).isSome = true := isDecimal_eq tables ▸ hd
  obtain rfl := tables.decimal x c hx (Or.inr hsome)
  rw [tables.decimal_ascii c hc, hdigit] at hsome
  cases hsome

/-- In no part of phrases does one of the words stand before a blank. -/
theorem no_claim_word {a sentence t rest : List Char} {bs : List (List Char)} (ha : KeyText a) (hbs : ∀ b ∈ bs, KeyText b)
    (hin : sentence <:+: phrase a bs) {c : Cursor} (hat : At sentence c) {s : Char} (hrest : c.rest = t ++ s :: rest)
    (hs : Unicode.isSpace s = true) {word : String} (hword : word ∈ claimWords) :
    ¬ Spells TextTables.variants t word := by
  obtain ⟨past, hsentence, _⟩ := hat
  obtain ⟨u, v, hphrase⟩ := hin
  have hjoin : List.intercalate [' '] (phraseWords a bs) = (u ++ past ++ t) ++ s :: (rest ++ v) := by
    rw [← phrase, ← hphrase, hsentence, hrest]
    simp
  obtain ⟨w, hw, hsuffix⟩ := word_before_blank (phraseWords_not_space tables ha hbs) hjoin hs
  have ht : t <:+ u ++ past ++ t := List.suffix_append _ _
  rcases mem_phraseWords ha hbs (List.mem_of_mem_dropLast hw) with hkey | hw
  · have hlast : ∀ word ∈ claimWords, word.toList.getLast?.any (fun c => c.toNat < 128 && !c.isDigit) = true := by decide
    obtain ⟨c, hc, hletter⟩ := (Option.any_eq_true _ _).mp (hlast word hword)
    rw [Bool.and_eq_true, decide_eq_true_eq, Bool.not_eq_true'] at hletter
    obtain ⟨_, past', d, rfl, hd⟩ := hkey.ends tables
    exact not_spells_of_digit tables hsuffix hd ht (List.dropLast_append_getLast? c hc).symm hletter.1 hletter.2
  · have hparts : ∀ w ∈ blockedByWords, ∀ word ∈ claimWords, parts w.reverse word.toList.reverse = true := by decide
    exact not_spells_of_parts tables hsuffix ht (hparts w hw word hword)

section
variable {a sentence : List Char} {bs : List (List Char)} (ha : KeyText a) (hbs : ∀ b ∈ bs, KeyText b)
  (hin : sentence <:+: phrase a bs)
include ha hbs hin

/-- A pattern that asks for such a word and then for blanks is not found. -/
theorem not_word_then_blank {c d e : Cursor} (hat : At sentence c) {word : String} (hword : word ∈ claimWords)
    (hblank : Reaches (Pattern.ignoreCase (plus Pattern.space)) d e)
    (h : ∃ t, Spells TextTables.variants t word ∧ c.rest = t ++ d.rest) : False := by
  obtain ⟨t, hspells, hsplit⟩ := h
  obtain ⟨s, rest, hrest, hs⟩ := reaches_blank tables hblank
  exact no_claim_word tables ha hbs hin hat (hsplit.trans (by rw [hrest])) hs hword hspells

theorem no_riskClaim : Pattern.riskClaim.search sentence = none := by
  refine search_none fun c c' hat h => ?_
  obtain ⟨c₁, hedge, _, ⟨d, hlevel, rfl⟩, e, hblank, _⟩ := h
  have hword : ∀ word ∈ claimWords, ¬ Reaches (Pattern.ignoreCase (lit word)) c₁ d := by
    intro word hword h
    obtain ⟨t, hspells, hsplit⟩ := reaches_lit h
    exact not_word_then_blank tables ha hbs hin (hedge.at hat) hword hblank ⟨t, hspells, hsplit⟩
  rcases hlevel with h | h | h | h | h
  · exact hword "low" (by decide) h
  · exact hword "medium" (by decide) h
  · exact hword "high" (by decide) h
  · exact hword "critical" (by decide) h
  · exact hword "insufficient-data" (by decide) h

theorem no_overageClaim : Pattern.overageClaim.search sentence = none := by
  refine search_none fun c c' hat h => ?_
  obtain ⟨d, hword, e, hblank, _⟩ := h
  exact not_word_then_blank tables ha hbs hin hat (by decide) hblank (reaches_lit hword)

theorem no_availableClaim : Pattern.availableClaim.search sentence = none := by
  refine search_none fun c c' hat h => ?_
  obtain ⟨c₁, hdecimal, c₂, hmany, d, hhours, e, hblank, _⟩ := h
  have hat₂ : At sentence c₂ := hmany.at (hdecimal.at hat)
  rcases hhours with h | ⟨d₁, hhour, _, hs | rfl, rfl⟩
  · exact not_word_then_blank tables ha hbs hin hat₂ (by decide) hblank (reaches_lit h)
  · obtain ⟨t, hspells, hsplit⟩ := reaches_lit hhour
    obtain ⟨t', hspells', hsplit'⟩ := reaches_lit hs
    have hhours : Spells TextTables.variants (t ++ t') "hours" := List.rel_append hspells hspells'
    exact not_word_then_blank tables ha hbs hin hat₂ (by decide) hblank
      ⟨t ++ t', hhours, by rw [hsplit, hsplit', List.append_assoc]⟩
  · exact not_word_then_blank tables ha hbs hin hat₂ (by decide) hblank (reaches_lit hhour)

/-- So no employee is told anything of in it. -/
theorem checkSentence_phrase (bundle : UniversalEvidenceBundle) (employee : EmployeeSummary) :
    checkSentence bundle employee sentence = .ok () := by
  rw [checkSentence, checkClassification, checkOverage, no_riskClaim tables ha hbs hin, no_availableClaim tables ha hbs hin,
    no_overageClaim tables ha hbs hin]
  rfl

end

/-! ## Answers that are accepted -/

/-- The answer is accepted where the blocker of the phrase that is returned occurs in the
    dependencies of its task. -/
theorem universal_phrase {a b : List Char} {bs : List (List Char)} (ha : KeyText a) (hbs : ∀ b ∈ bs, KeyText b)
    {bundle : UniversalEvidenceBundle} {snapshot : DashboardSnapshot} (hs : bundle.projectSnapshot = some snapshot)
    {task : TaskSummary}
    (hfind : snapshot.tasks.reverse.find? (fun task => upper task.key == upper (String.ofList a)) = some task)
    (hclaims : dependencyClaims (String.ofList (phrase a bs)) = [(upper (String.ofList a), upper (String.ofList b))])
    (hoccurs : Occurs task.dependencies (upper (String.ofList b))) :
    validateUniversalClaims (String.ofList (phrase a bs)) bundle = .ok () := by
  have hsentences : ∀ sentence ∈ sentences (String.ofList (phrase a bs)), ∀ employee,
      checkSentence bundle employee sentence.toList = .ok () := by
    intro sentence hsentence employee
    obtain ⟨piece, hpiece, rfl⟩ := List.mem_map.mp hsentence
    rw [String.toList_ofList] at hpiece ⊢
    exact checkSentence_phrase tables ha hbs (isInfix_of_mem_split hpiece) bundle employee
  unfold validateUniversalClaims
  rw [hs]
  refine except_bind_ok.mpr ⟨(), forIn_ok fun sentence hsentence => ?_,
    except_bind_ok.mpr ⟨(), forIn_ok fun m hm => ?_, rfl⟩⟩
  · split
    · split
      · rw [hsentences sentence hsentence]
        rfl
      · rfl
    · rfl
  · have hpair := List.mem_map_of_mem (f := namedIssues) hm
    rw [← dependencyClaims, hclaims, List.mem_singleton, namedIssues, Prod.mk.injEq] at hpair
    dsimp only
    rw [hpair.1, hfind, hpair.2]
    dsimp only
    rw [require_ok.mpr hoccurs]
    rfl

/-- An employee whose name is a line end. -/
def unnamed (id : String) : AnswerEmployeeEvidence :=
  { employeeId := id, displayName := "\n", role := none, skills := [], capacityHours := none, remainingHours := none,
    availableCapacityHours := none, activeTasks := 0, riskLevel := .low, topRisk := "", taskKeys := [] }

theorem checkClassifications_unnamed {answer : String} (h : '\n' ∉ answer.toList) (ids : List String) :
    checkClassifications answer (ids.map unnamed) = .ok () := by
  have hnone : (Pattern.name "\n").findAll answer.toList = [] := by
    refine findAll_none fun c c' hat hreaches => ?_
    obtain ⟨c₁, h₁, c₂, hlit, _⟩ := hreaches
    obtain ⟨t, ht, hsplit⟩ := reaches_lit hlit
    obtain ⟨past, hpast, _⟩ := hat
    obtain ⟨y, t, hy, _, rfl⟩ := List.forall₂_cons_right_iff.mp ht
    obtain rfl := tables.space y '\n' hy (Or.inl tables.newline)
    refine h ?_
    rw [hpast, ← h₁.2, hsplit]
    simp
  have hblank : ∀ text : List Char, blank [] text = text := fun text => by simp [blank]
  refine except_bind_ok.mpr ⟨answer.toList, foldlM_fixed fun employee hemployee => ?_, rfl⟩
  obtain ⟨id, _, rfl⟩ := List.mem_map.mp ((List.perm_insertionSort _ _).subset hemployee)
  dsimp only [unnamed]
  rw [hnone, List.map_nil, hblank]
  rfl

omit tables in
/-- Where every key is allowed, a phrase of no task in the evidence is accepted. -/
theorem focused_allowed {answer : String} {evidence : AnswerEvidenceSet} {allowed : List String}
    (hkeys : ∀ key ∈ issueKeys (upper answer), key ∈ allowed.map upper)
    (hdependencies : ∀ task ∈ evidence.tasks, ∀ d ∈ task.dependencies, ∀ key ∈ issueKeys (upper d), key ∈ allowed.map upper)
    (hclaims : ∀ claim ∈ dependencyClaims answer, (∀ t ∈ evidence.tasks, upper t.key ≠ claim.1) ∧
      claim.1 ∈ allowed.map upper)
    (hids : ∀ m ∈ Pattern.employeeId.findAll (upper answer).toList,
      String.ofList m.text ∈ evidence.employees.map fun e => upper e.employeeId)
    (hlevels : checkClassifications answer evidence.employees = .ok ()) :
    validateFocusedClaims answer evidence allowed = .ok () := by
  unfold validateFocusedClaims
  refine except_bind_ok.mpr ⟨(), require_ok.mpr ?_, except_bind_ok.mpr ⟨(), forIn_ok fun key hin => ?_,
    except_bind_ok.mpr ⟨(), forIn_ok fun m hm => ?_, except_bind_ok.mpr ⟨(), require_ok.mpr ?_, hlevels⟩⟩⟩⟩
  · rw [List.isEmpty_iff, List.filter_eq_nil_iff]
    intro key hkey
    simp only [decide_eq_true_eq, not_not, List.mem_append]
    exact Or.inl (Or.inr (hkeys key hkey))
  · obtain ⟨hdependency, hunknown⟩ := List.mem_filter.mp hin
    obtain ⟨task, htask, hkey⟩ := List.mem_flatMap.mp (List.mem_eraseDups.mp hdependency)
    obtain ⟨d, hd, hkey⟩ := List.mem_flatMap.mp hkey
    simp only [decide_eq_true_eq, List.mem_append, not_or] at hunknown
    exact absurd (hdependencies task htask d hd key hkey) hunknown.2
  · obtain ⟨hnone, hallowed⟩ := hclaims _ (List.mem_map_of_mem (f := namedIssues) hm)
    have hfind : (latestBy (fun task : AnswerTaskEvidence => upper task.key) evidence.tasks).find?
        (fun task => upper task.key == (namedIssues m).1) = none :=
      List.find?_eq_none.mpr fun task htask => by simpa using hnone task (mem_latestBy htask)
    dsimp only [namedIssues] at hfind hallowed ⊢
    rw [hfind, decide_eq_true hallowed]
    rfl
  · rw [List.isEmpty_iff, List.filter_eq_nil_iff]
    intro id hid
    obtain ⟨m, hm, rfl⟩ := List.mem_map.mp hid
    simpa using hids m hm

/-- So is one that begins with another key, and with it the phrase inside. -/
theorem focused_phrase {x a c : List Char} (hx : KeyText x) (ha : KeyText a) (hc : KeyText c)
    (hne : upper (String.ofList x) ≠ upper (String.ofList a)) {t : AnswerTaskEvidence}
    (hkey : upper t.key = upper (String.ofList a)) : ∃ employees allowed,
      validateFocusedClaims (String.ofList (phrase x [a, c])) ⟨"", [t], [], employees, false, []⟩ allowed = .ok () := by
  let known := issueKeys (upper (String.ofList (phrase x [a, c]))) ++ t.dependencies.flatMap fun d => issueKeys (upper d)
  let ids := (Pattern.employeeId.findAll (upper (String.ofList (phrase x [a, c]))).toList).map fun m => String.ofList m.text
  have hallowed : ∀ key ∈ known, upper key = key → key ∈ (String.ofList x :: known).map upper := fun key hin hupper =>
    List.mem_map.mpr ⟨key, List.mem_cons_of_mem _ hin, hupper⟩
  refine ⟨ids.map unnamed, String.ofList x :: known, focused_allowed ?_ ?_ ?_ ?_ ?_⟩
  · exact fun key hin => hallowed key (List.mem_append_left _ hin) (upper_issueKey tables hin)
  · intro task htask d hd key hin
    rw [List.mem_singleton.mp htask] at hd
    exact hallowed key (List.mem_append_right _ (List.mem_flatMap.mpr ⟨d, hd, hin⟩)) (upper_issueKey tables hin)
  · intro claim hclaim
    rw [dependencyClaims_overlap tables hx ha hc] at hclaim
    rw [List.mem_singleton.mp hclaim]
    refine ⟨fun task htask => ?_, List.mem_map_of_mem List.mem_cons_self⟩
    rw [List.mem_singleton.mp htask, hkey]
    exact hne.symm
  · intro m hm
    rw [List.map_map]
    exact List.mem_map.mpr ⟨_, List.mem_map_of_mem hm, upper_of_infix tables (findAll_text hm)⟩
  · dsimp only
    refine checkClassifications_unnamed tables ?_ ids
    rw [String.toList_ofList]
    exact newline_not_mem tables hx (by simp [ha, hc])

/-! ## A key of no dependency -/

omit [TextTables] tables in
theorem toList_dependency {link : JiraIssueLink} (h : link.relationship = "is blocked by") :
    link.dependency.toList = "is blocked by: ".toList ++ link.issueKey.toList := by
  rw [JiraIssueLink.dependency, h]
  simp

omit [TextTables] tables in
theorem issueKey_of_dependency {link : JiraIssueLink} (h : link.relationship = "is blocked by") :
    String.ofList (link.dependency.toList.drop 15) = link.issueKey := by
  rw [toList_dependency h, show 15 = "is blocked by: ".toList.length from rfl, List.drop_left, String.ofList_toList]

/-- Some key is of no dependency of a snapshot. -/
theorem exists_unreal (snapshot : DashboardSnapshot) :
    ∃ c, KeyText c ∧ ∀ blocked, ¬ IsDependency snapshot blocked (upper (String.ofList c)) := by
  let blockers := snapshot.tasks.flatMap fun task => task.dependencies.map fun d => upper (String.ofList (d.toList.drop 15))
  let n := (blockers.map String.length).sum
  refine ⟨keyOfOnes 'A' n, keyText_keyOfOnes tables rfl n, fun blocked hreal => ?_⟩
  obtain ⟨task, htask, _, link, hrel, hmem, hkey⟩ := hreal
  have hin : upper (String.ofList (keyOfOnes 'A' n)) ∈ blockers :=
    List.mem_flatMap.mpr ⟨task, htask, List.mem_map.mpr ⟨link.dependency, hmem, by rw [issueKey_of_dependency hrel, hkey]⟩⟩
  have hle : (String.ofList (keyOfOnes 'A' n)).length ≤ n := by
    rw [← upper_keyOfOnes tables rfl n]
    exact List.le_sum_of_mem (List.mem_map_of_mem hin)
  simp [keyOfOnes] at hle
  omega

end

/-- A bundle of a snapshot alone. -/
def projectBundle (snapshot : DashboardSnapshot) : UniversalEvidenceBundle :=
  ⟨⟨.project, [], [.jiraIssues], false⟩, none, some snapshot, []⟩

/-- Of tasks with different keys, each is the one its key is looked up as. -/
theorem find_task [TextTables] {tasks : List TaskSummary} (hkeys : (tasks.map fun task => upper task.key).Nodup)
    {task : TaskSummary} (htask : task ∈ tasks) :
    tasks.reverse.find? (fun other => upper other.key == upper task.key) = some task := by
  refine find?_eq_of_mem (countP_key_le ?_ _) (List.mem_reverse.mpr htask) (by simp)
  rw [List.map_reverse]
  exact List.nodup_reverse.mpr hkeys

theorem keysTell_of_claimsAreReal [TextTables] (tables : TextTables.Documented) {snapshot : DashboardSnapshot}
    (hkeys : (snapshot.tasks.map fun task => upper task.key).Nodup) (h : ClaimsAreReal snapshot dependencyClaims) :
    KeysTell snapshot := by
  intro task htask hblocked blocker hblocker hoccurs
  obtain ⟨a, ha, hakey⟩ := hblocked
  obtain ⟨b, hb, rfl⟩ := hblocker
  have hclaims := dependencyClaims_phrase tables ha hb
  have hfind := find_task hkeys htask
  rw [← hakey] at hfind
  obtain ⟨other, hother, hkey, hreal⟩ := h.universal (projectBundle snapshot) _ rfl
    (universal_phrase tables ha (by simpa using hb) rfl hfind hclaims hoccurs) _ _ (hclaims ▸ List.mem_singleton_self _)
  rw [hakey] at hkey
  exact List.inj_on_of_nodup_map hkeys hother htask hkey ▸ hreal

/-- Behind a phrase that is accepted another one may begin, of any key. -/
theorem noKeyTold_of_universalIsReal [TextTables] (tables : TextTables.Documented) {snapshot : DashboardSnapshot}
    (hkeys : (snapshot.tasks.map fun task => upper task.key).Nodup) (h : UniversalIsReal snapshot phrases) :
    NoKeyTold snapshot := by
  intro task htask hblocked blocker hblocker hoccurs
  obtain ⟨a, ha, hakey⟩ := hblocked
  obtain ⟨b, hb, rfl⟩ := hblocker
  obtain ⟨c, hc, hunreal⟩ := exists_unreal tables snapshot
  have hfind := find_task hkeys htask
  rw [← hakey] at hfind
  exact hunreal _ (h (projectBundle snapshot) _ rfl
    (universal_phrase tables ha (by simp [hb, hc]) rfl hfind (dependencyClaims_overlap tables ha hb hc) hoccurs) _ _
    (overlap_mem_phrases tables hb hc))

/-- Behind a phrase of an allowed key one of a task may begin, of any key. -/
theorem noKeys_of_focusedIsReal [TextTables] (tables : TextTables.Documented) {snapshot : DashboardSnapshot}
    (h : FocusedIsReal snapshot phrases) : NoKeys snapshot := by
  intro task htask hblocked
  obtain ⟨a, ha, hakey⟩ := hblocked
  obtain ⟨c, hc, hunreal⟩ := exists_unreal tables snapshot
  obtain ⟨x, hx, hne⟩ : ∃ x, KeyText x ∧ upper (String.ofList x) ≠ upper (String.ofList a) := by
    by_cases hsame : upper (String.ofList (keyOfOnes 'A' 0)) = upper (String.ofList a)
    · refine ⟨keyOfOnes 'B' 0, keyText_keyOfOnes tables rfl 0, ?_⟩
      rw [← hsame, upper_keyOfOnes tables rfl, upper_keyOfOnes tables rfl]
      decide
    · exact ⟨keyOfOnes 'A' 0, keyText_keyOfOnes tables rfl 0, hsame⟩
  obtain ⟨employees, allowed, hok⟩ := focused_phrase tables hx ha hc hne (t := taskEvidence snapshot task) hakey.symm
  refine hunreal _ (h _ _ _ (fun t ht => ?_) hok _ _ (overlap_mem_phrases tables ha hc) ?_)
  · exact ⟨task, htask, (List.mem_singleton.mp ht).symm⟩
  · rw [hakey]
    exact List.mem_singleton_self _

theorem dependency_claims_iff [TextTables] (tables : TextTables.Documented) (snapshot : DashboardSnapshot)
    (hkeys : (snapshot.tasks.map fun task => upper task.key).Nodup) :
    (ClaimsAreReal snapshot phrases ↔ NoKeys snapshot) ∧ (UniversalIsReal snapshot phrases ↔ NoKeyTold snapshot) ∧
      (ClaimsAreReal snapshot dependencyClaims ↔ KeysTell snapshot) := by
  have huniversal : UniversalIsReal snapshot phrases ↔ NoKeyTold snapshot :=
    ⟨noKeyTold_of_universalIsReal tables hkeys, universalIsReal_of_noKeyTold⟩
  refine ⟨⟨fun h => noKeys_of_focusedIsReal tables h.focused, fun h => ?_⟩, huniversal,
    keysTell_of_claimsAreReal tables hkeys, claimsAreReal_of_keysTell⟩
  exact ⟨huniversal.mpr fun task htask hkey => absurd hkey (h task htask), focusedIsReal_of_noKeys h⟩

/-! ## A part of a key, a dependency the other way, and a phrase inside another -/

attribute [local instance] TextTables.ascii

/-- A project of one issue, and what it is linked to. -/
def linkedSnapshot (key : String) (links : List JiraIssueLink) : DashboardSnapshot :=
  sampleSnapshot [] [bareService.task { sampleRow with key := key, links := links }]

def linkedBundle (key : String) (links : List JiraIssueLink) : UniversalEvidenceBundle :=
  projectBundle (linkedSnapshot key links)

/-- Of one link, its key is the only blocker. -/
theorem isBlockedBy_link {link : JiraIssueLink} {blocker : String} (h : IsBlockedBy [link.dependency] blocker) :
    startsWith link.dependency "is blocked by: " = true ∧
      upper (String.ofList (link.dependency.toList.drop 15)) = blocker := by
  obtain ⟨other, hrel, hmem, hkey⟩ := h
  rw [← List.mem_singleton.mp hmem, startsWith_iff, issueKey_of_dependency hrel]
  exact ⟨toList_dependency hrel ▸ List.prefix_append _ _, hkey⟩

/-- A key that is part of another, a dependency the other way, and a phrase that begins inside
    one that is real. -/
theorem part_of_key_is_accepted :
    (validateUniversalClaims "WFD-4 is blocked by WFD-1." (linkedBundle "WFD-4" [⟨"is blocked by", "WFD-12"⟩]) = .ok () ∧
      ("WFD-4", "WFD-1") ∈ phrases "WFD-4 is blocked by WFD-1." ∧
      ¬ IsDependency (linkedSnapshot "WFD-4" [⟨"is blocked by", "WFD-12"⟩]) "WFD-4" "WFD-1") ∧
    (validateUniversalClaims "WFD-4 is blocked by WFD-2." (linkedBundle "WFD-4" [⟨"blocks", "WFD-2"⟩]) = .ok () ∧
      ("WFD-4", "WFD-2") ∈ phrases "WFD-4 is blocked by WFD-2." ∧
      ¬ IsDependency (linkedSnapshot "WFD-4" [⟨"blocks", "WFD-2"⟩]) "WFD-4" "WFD-2") ∧
    (validateUniversalClaims "AB-4 is blocked by AB-2 is blocked by AB-9."
        (linkedBundle "AB-4" [⟨"is blocked by", "AB-2"⟩]) = .ok () ∧
      ("AB-2", "AB-9") ∈ phrases "AB-4 is blocked by AB-2 is blocked by AB-9." ∧
      ¬ IsDependency (linkedSnapshot "AB-4" [⟨"is blocked by", "AB-2"⟩]) "AB-2" "AB-9") := by
  refine ⟨⟨rfl, by decide, fun h => ?_⟩, ⟨rfl, by decide, fun h => ?_⟩, ⟨rfl, by decide, fun h => ?_⟩⟩
  · obtain ⟨task, htask, _, hblocked⟩ := h
    obtain rfl := List.mem_singleton.mp htask
    exact absurd (isBlockedBy_link hblocked).2 (by decide)
  · obtain ⟨task, htask, _, hblocked⟩ := h
    obtain rfl := List.mem_singleton.mp htask
    exact absurd (isBlockedBy_link hblocked).1 (by decide)
  · obtain ⟨task, htask, hkey, _⟩ := h
    obtain rfl := List.mem_singleton.mp htask
    exact absurd hkey (by decide)

theorem one_key_is_told :
    ClaimsAreReal (linkedSnapshot "AB-4" [⟨"is blocked by", "AB-2"⟩]) dependencyClaims ∧
      ¬ UniversalIsReal (linkedSnapshot "AB-4" [⟨"is blocked by", "AB-2"⟩]) phrases ∧
      ClaimsAreReal (linkedSnapshot "4" [⟨"is blocked by", "AB-2"⟩]) phrases := by
  have hlinked := dependency_claims_iff documented_ascii (linkedSnapshot "AB-4" [⟨"is blocked by", "AB-2"⟩]) (by decide)
  have hkeyless := dependency_claims_iff documented_ascii (linkedSnapshot "4" [⟨"is blocked by", "AB-2"⟩]) (by decide)
  refine ⟨hlinked.2.2.mpr fun task htask _ blocker hblocker hoccurs => ?_, fun h => ?_,
    hkeyless.1.mpr fun task htask hkey => ?_⟩
  · obtain rfl := List.mem_singleton.mp htask
    obtain ⟨hhyphen, hblank, hlength⟩ := isKey_ascii hblocker
    -- of the parts of the one dependency only its key is like one
    have hparts : ∀ t ∈ "IS BLOCKED BY: AB-2".toList.tails.flatMap List.inits, '-' ∈ t → ' ' ∉ t → 4 ≤ t.length →
        t = "AB-2".toList := by decide +kernel
    have hinside : blocker.toList ∈ "IS BLOCKED BY: AB-2".toList.tails.flatMap List.inits := by
      obtain ⟨u, v, huv⟩ := contains_iff.mp hoccurs
      refine List.mem_flatMap.mpr ⟨blocker.toList ++ v, (List.mem_tails _ _).mpr ⟨u, ?_⟩,
        (List.mem_inits _ _).mpr (List.prefix_append _ _)⟩
      rw [← List.append_assoc, huv]
      rfl
    refine ⟨⟨"is blocked by", "AB-2"⟩, rfl, by decide, ?_⟩
    rw [← String.toList_inj, hparts _ hinside hhyphen hblank hlength]
    rfl
  · have hkey : ∀ d, isDecimal d = true → KeyText ['A', 'B', '-', d] := fun d hd =>
      .mk 'A' ['B'] '-' [d] rfl (List.forall_mem_singleton.mpr rfl) (by simp) (by simp) rfl
        (List.forall_mem_singleton.mpr hd) (by simp)
    exact hlinked.2.1.mp h _ (List.mem_singleton_self _) ⟨_, hkey '4' rfl, rfl⟩ "AB-2" ⟨_, hkey '2' rfl, rfl⟩ rfl
  · obtain rfl := List.mem_singleton.mp htask
    exact absurd (isKey_ascii hkey).1 (by decide)

end WorkforceRisk.Evidence
