/-
  WorkforceRisk.Scenario.Lifecycle — seeding and cleaning up, over and over
  (scripts/jira: mcp_scenario.py, rest_cleanup.py, cleanup_dev.py, seed_dev.py).

  Jira answers the cleanup's search by at most a hundred issues that have the tag, in an
  order of its own. A deletion may be refused, or take place with its answer lost; what is
  deleted takes its links with it. Nobody else writes.

  Proved: wherever a cleanup is stopped only issues with the tag are gone
  (`cleanup_always`); one that returns has deleted as many of them as it says, a hundred or
  all (`completed_cleanup`). After any order of seedings and cleanups, each stopped anywhere,
  a seeding that completes leaves what it would have left at first (`lifecycle_converges`).
-/

import WorkforceRisk.Lib.Worlds
import WorkforceRisk.Scenario.Cleanup
import WorkforceRisk.Scenario.Convergence

namespace WorkforceRisk.Scenario

open Lib Persistence Historical Evidence

variable {ε V : Type}

/-! ## Jira -/

def issueKey (number : Nat) : String := "WRD-" ++ Nat.repr number

theorem issueKey_inj {m n : Nat} (h : issueKey m = issueKey n) : m = n := by
  have hdigits : Nat.toDigits 10 m = Nat.toDigits 10 n := String.ofList_injective (append_inj h)
  rw [← Nat.ofDigitChars_ten_toDigits (n := m), hdigits, Nat.ofDigitChars_ten_toDigits]

namespace Jira

/-- Without some issues, and the links that they had. -/
def without (jira : Jira) (gone : Nat → Bool) : Jira where
  issues := jira.issues.without gone
  links := jira.links.filter fun link => !gone link.inwardIssue && !gone link.outwardIssue
  known link hlink := by
    obtain ⟨hlink, hkept⟩ := List.mem_filter.mp hlink
    obtain ⟨hin, hout⟩ := jira.known link hlink
    simp only [Bool.and_eq_true, Bool.not_eq_true'] at hkept
    exact ⟨Labelled.mem_numbers_without.mpr ⟨hin, hkept.1⟩, Labelled.mem_numbers_without.mpr ⟨hout, hkept.2⟩⟩

theorem ext_of {jira jira' : Jira} (hissues : jira.issues = jira'.issues) (hlinks : jira.links = jira'.links) :
    jira = jira' := by
  cases jira
  cases jira'
  cases hissues
  cases hlinks
  rfl

theorem without_without (jira : Jira) (gone more : Nat → Bool) :
    (jira.without gone).without more = jira.without fun n => gone n || more n := by
  refine ext_of (Labelled.without_without _ _ _) ?_
  unfold without
  dsimp only
  rw [List.filter_filter]
  refine List.filter_congr fun link _ => ?_
  cases gone link.inwardIssue <;> cases gone link.outwardIssue <;> simp

theorem without_none (jira : Jira) : jira.without (fun _ => false) = jira := by
  refine ext_of ?_ (List.filter_eq_self.mpr fun _ _ => rfl)
  unfold without Labelled.without
  simp

theorem joins_without_le (jira : Jira) (gone : Nat → Bool) (m n : Nat) : (jira.without gone).joins m n ≤ jira.joins m n :=
  List.Sublist.countP_le List.filter_sublist

end Jira

/-- An issue as a search tells it. -/
def told (item : Nat × List String) : Json :=
  .obj [("key", .str (issueKey item.1)), ("fields", .obj [("labels", .arr (item.2.map .str))])]

/-- The numbers of some keys. -/
def named (keys : List String) (number : Nat) : Bool := decide (issueKey number ∈ keys)

inductive CleanWorld (ownershipTag : String) : Jira → (call : CleanupCall) → call.Answer ε → Jira → Prop
  | found {jira : Jira} {order : List (Nat × List String)} : order.Perm (jira.issues.search ownershipTag) →
      CleanWorld ownershipTag jira (.searchJiraIssuesUsingJql (GuardedRestCleanup.cleanupJql ownershipTag))
        (.ok [("issues", .arr ((order.take 100).map told))]) jira
  | unavailable {jira : Jira} {jql : String} (failed : Failed ε) :
      CleanWorld ownershipTag jira (.searchJiraIssuesUsingJql jql) (.error failed) jira
  /-- Deleted, whatever comes back. -/
  | deleted {jira : Jira} {key : String} (answer : Except (Failed ε) Nat) :
      CleanWorld ownershipTag jira (.delete key) answer (jira.without (named [key]))
  | refused {jira : Jira} {key : String} {answer : Except (Failed ε) Nat} : answer ≠ .ok 204 →
      CleanWorld ownershipTag jira (.delete key) answer jira

/-! ## A cleanup -/

/-- Some issues with the tag are gone, with their links. -/
def Cleaned (ownershipTag : String) (jira jira' : Jira) : Prop :=
  ∃ gone, (∀ n, gone n = true → jira.issues.Bears ownershipTag n) ∧ jira' = jira.without gone

theorem Cleaned.refl (ownershipTag : String) (jira : Jira) : Cleaned ownershipTag jira jira :=
  ⟨fun _ => false, ⟨fun n h => (by cases h), jira.without_none.symm⟩⟩

/-- One more. -/
theorem Cleaned.delete {ownershipTag key : String} {jira jira' : Jira} (h : Cleaned ownershipTag jira jira')
    (hkey : ∃ n, jira.issues.Bears ownershipTag n ∧ issueKey n = key) :
    Cleaned ownershipTag jira (jira'.without (named [key])) := by
  obtain ⟨gone, hgone, rfl⟩ := h
  obtain ⟨n, hn, rfl⟩ := hkey
  refine ⟨_, fun m hm => ?_, Jira.without_without _ _ _⟩
  rcases Bool.or_eq_true_iff.mp hm with hm | hm
  · exact hgone m hm
  · rw [issueKey_inj (List.mem_singleton.mp (of_decide_eq_true hm))]
    exact hn

open GuardedRestCleanup

theorem deleteAll_always {ownershipTag : String} {jira : Jira} : ∀ {keys : List String},
    (∀ key ∈ keys, ∃ n, jira.issues.Bears ownershipTag n ∧ issueKey n = key) →
    ∀ {jira₁ : Jira}, Cleaned ownershipTag jira jira₁ →
      (deleteAll (ε := ε) keys).Always (CleanWorld ownershipTag) (Cleaned ownershipTag jira) jira₁ fun r jira₂ =>
        Cleaned ownershipTag jira jira₂ ∧ (r = .ok () → jira₂ = jira₁.without (named keys)) := by
  intro keys
  induction keys with
  | nil =>
    intro _ jira₁ h
    refine ⟨h, fun _ => ?_⟩
    have hnone : named [] = fun _ => false := funext fun n => decide_eq_false List.not_mem_nil
    rw [hnone, Jira.without_none]
  | cons key keys ih =>
    intro hkeys jira₁ h
    obtain ⟨hkey, hrest⟩ := List.forall_mem_cons.mp hkeys
    have hboth : ∀ jira₁ : Jira,
        (jira₁.without (named [key])).without (named keys) = jira₁.without (named (key :: keys)) := by
      intro jira₁
      rw [Jira.without_without]
      congr 1
      funext n
      simp [named, Bool.decide_or]
    apply Proc.always_andThen
    apply Proc.always_andThen
    refine Proc.always_perform h fun answer jira₂ hworld => ?_
    cases hworld with
    | deleted _ =>
      have hdeleted := h.delete hkey
      cases answer with
      | error failed => exact ⟨hdeleted, fun he => by cases he⟩
      | ok status =>
        dsimp only
        split
        · exact ⟨hdeleted, fun he => by cases he⟩
        · refine (ih hrest hdeleted).mono fun r jira₃ hr => ⟨hr.1, fun hok => ?_⟩
          rw [hr.2 hok, hboth]
    | refused hne =>
      cases answer with
      | error failed => exact ⟨h, fun he => by cases he⟩
      | ok status =>
        dsimp only
        split
        · exact ⟨h, fun he => by cases he⟩
        · rename_i hstatus
          exact absurd (congrArg Except.ok (not_not.mp hstatus)) hne

theorem ownedKeys_told {ownershipTag : String} {found : List (Nat × List String)}
    (h : ∀ item ∈ found, ownershipTag ∈ item.2) :
    ownedKeys (ε := ε) ownershipTag [("issues", .arr (found.map told))] = .ok (found.map fun item => issueKey item.1) := by
  have hone : ∀ item ∈ found, ownedKey (ε := ε) ownershipTag (told item) = .ok (issueKey item.1) := by
    intro item hitem
    have htagged : tagged ownershipTag (item.2.map .str) = true :=
      List.any_eq_true.mpr ⟨_, List.mem_map_of_mem (h item hitem), beq_self_eq_true _⟩
    have hkey : startsWith (issueKey item.1) "WRD-" = true := by simp [startsWith, issueKey]
    show (if startsWith (issueKey item.1) "WRD-" && tagged ownershipTag (item.2.map .str) then _ else _) = _
    rw [hkey, htagged]
    rfl
  show (found.map told).mapM (ownedKey ownershipTag) = _
  refine mapM_ok_of_related ?_
  rw [List.forall₂_map_left_iff, List.forall₂_map_right_iff, List.forall₂_same]
  exact hone

/-- What a cleanup leaves: it is as clean as it was stopped, and one that returns took all that it was told of. -/
def Leaves (ownershipTag : String) (jira : Jira) (r : Except (Failed ε) Nat) (jira' : Jira) : Prop :=
  Cleaned ownershipTag jira jira' ∧ ∀ n, r = .ok n → ∃ order : List (Nat × List String), order.Perm (jira.issues.search ownershipTag) ∧
    n = (order.take 100).length ∧ jira' = jira.without fun m => decide (m ∈ (order.take 100).map Prod.fst)

theorem cleanup_leaves {environment projectKey ownershipTag : String} {jira : Jira} :
    (cleanup environment projectKey ownershipTag).Always (CleanWorld (ε := ε) ownershipTag) (Cleaned ownershipTag jira) jira
      (Leaves ownershipTag jira) := by
  have hstart := Cleaned.refl ownershipTag jira
  unfold cleanup
  split
  · exact ⟨hstart, fun n h => by cases h⟩
  apply Proc.always_andThen
  refine Proc.always_perform hstart fun answer jira' hworld => ?_
  cases hworld with
  | unavailable failed => exact ⟨hstart, fun n h => by cases h⟩
  | @found order hperm =>
    have hbears : ∀ item ∈ order.take 100, item ∈ jira.issues.items ∧ ownershipTag ∈ item.2 :=
      fun item hitem => Labelled.mem_search.mp (hperm.subset (List.mem_of_mem_take hitem))
    dsimp only
    rw [ownedKeys_told fun item hitem => (hbears item hitem).2]
    dsimp only
    have hkeys : ∀ key ∈ sortedKeys ((order.take 100).map fun item => issueKey item.1),
        ∃ n, jira.issues.Bears ownershipTag n ∧ issueKey n = key := by
      intro key hkey
      obtain ⟨item, hitem, rfl⟩ := List.mem_map.mp (List.mem_mergeSort.mp hkey)
      exact ⟨item.1, ⟨item.2, (hbears item hitem).1, (hbears item hitem).2⟩, rfl⟩
    apply Proc.always_andThen
    refine (deleteAll_always hkeys hstart).mono fun r jira' hr => ?_
    cases r with
    | error failed => exact ⟨hr.1, fun n h => by cases h⟩
    | ok _ =>
      refine ⟨hr.1, fun n h => ⟨order, hperm, ?_, ?_⟩⟩
      · cases h
        rw [List.length_map]
      · rw [hr.2 rfl]
        congr 1
        funext n
        refine decide_eq_decide.mpr ?_
        unfold sortedKeys
        rw [List.mem_mergeSort, List.mem_map, List.mem_map]
        exact exists_congr fun item => and_congr_right fun _ => ⟨issueKey_inj, fun h => h ▸ rfl⟩

theorem filter_notMem_left {α β : Type} [DecidableEq β] (f : α → β) {a b : List α} (h : ((a ++ b).map f).Nodup) :
    (a ++ b).filter (fun x => !decide (f x ∈ a.map f)) = b := by
  rw [List.map_append, List.nodup_append] at h
  have hleft : a.filter (fun x => !decide (f x ∈ a.map f)) = [] :=
    List.filter_eq_nil_iff.mpr fun x hx => by simp [List.mem_map_of_mem hx]
  have hright : b.filter (fun x => !decide (f x ∈ a.map f)) = b := by
    refine List.filter_eq_self.mpr fun x hx => ?_
    rw [Bool.not_eq_true', decide_eq_false_iff_not]
    exact fun hin => h.2.2 _ hin _ (List.mem_map_of_mem hx) rfl
  rw [List.filter_append, hleft, hright, List.nil_append]

/-- The issues with the tag that are left, where a hundred of them at most are taken. -/
theorem left_of_taken {ownershipTag : String} {jira : Jira} {order : List (Nat × List String)}
    (hperm : order.Perm (jira.issues.search ownershipTag)) :
    ((jira.without fun m => decide (m ∈ (order.take 100).map Prod.fst)).issues.search ownershipTag).Perm (order.drop 100) := by
  have hdistinct : ((order.take 100 ++ order.drop 100).map Prod.fst).Nodup := by
    rw [List.take_append_drop]
    exact (hperm.map Prod.fst).nodup_iff.mpr (jira.issues.distinct.sublist (List.filter_sublist.map _))
  have hfilter : (jira.without fun m => decide (m ∈ (order.take 100).map Prod.fst)).issues.search ownershipTag =
      (jira.issues.search ownershipTag).filter fun item => !decide (item.1 ∈ (order.take 100).map Prod.fst) := by
    unfold Jira.without Labelled.without Labelled.search
    dsimp only
    rw [List.filter_filter, List.filter_filter]
    exact List.filter_congr fun item _ => Bool.and_comm _ _
  have hkept := filter_notMem_left Prod.fst hdistinct
  rw [List.take_append_drop] at hkept
  rw [hfilter, ← hkept]
  have hsame := hperm.filter fun item => !decide (item.1 ∈ (order.take 100).map Prod.fst)
  exact hsame.symm

/-- Wherever a cleanup is stopped it has taken issues with the tag only. One that returns has taken a hundred or all,
    and says how many. -/
theorem cleanup_cleans {environment projectKey ownershipTag : String} {jira jira' : Jira}
    {p : CleanupProc ε (Except (Failed ε) Nat)}
    (h : Proc.Reaches (CleanWorld (ε := ε) ownershipTag) (cleanup environment projectKey ownershipTag) jira p jira') :
    Cleaned ownershipTag jira jira' ∧ ∀ n, p = .ret (.ok n) →
      n = min 100 (jira.issues.search ownershipTag).length ∧
      (jira'.issues.search ownershipTag).length + n = (jira.issues.search ownershipTag).length ∧
      (n < 100 → ∀ m, ¬ jira'.issues.Bears ownershipTag m) := by
  refine ⟨cleanup_leaves.reached h fun r jira' hr => hr.1, ?_⟩
  rintro n rfl
  obtain ⟨order, hperm, rfl, rfl⟩ := (cleanup_leaves.returned h).2 n rfl
  have hleft := left_of_taken hperm
  have hlength := hperm.length_eq
  have hcount := hleft.length_eq
  rw [List.length_drop] at hcount
  rw [List.length_take]
  refine ⟨by omega, by omega, fun hfew => Labelled.search_nil_iff.mp ?_⟩
  exact List.length_eq_zero_iff.mp (by omega)

/-- Deletions that succeed, one after another. -/
theorem deleteAll_reaches (ownershipTag : String) : ∀ (keys : List String) (jira : Jira),
    ∃ jira', Proc.Reaches (CleanWorld (ε := ε) ownershipTag) (deleteAll keys) jira (.ret (.ok ())) jira' := by
  intro keys
  induction keys with
  | nil => exact fun jira => ⟨jira, .here _ _⟩
  | cons key keys ih =>
    intro jira
    obtain ⟨jira', hrest⟩ := ih (jira.without (named [key]))
    have hkey : Proc.Reaches (CleanWorld (ε := ε) ownershipTag) (JiraRestDeleteClient.deleteIssue key) jira (.ret (.ok ()))
        (jira.without (named [key])) := .next (.ok 204) (.deleted _) (.here _ _)
    exact ⟨jira', hkey.andThen hrest⟩

/-- In dev and WRD a cleanup can always be completed. -/
theorem cleanup_can_complete (ownershipTag : String) (jira : Jira) : ∃ n jira',
    Proc.Reaches (CleanWorld (ε := ε) ownershipTag) (cleanup "dev" "WRD" ownershipTag) jira (.ret (.ok n)) jira' := by
  have htagged : ∀ item ∈ (jira.issues.search ownershipTag).take 100, ownershipTag ∈ item.2 :=
    fun item hitem => (Labelled.mem_search.mp (List.mem_of_mem_take hitem)).2
  let keys := ((jira.issues.search ownershipTag).take 100).map fun item => issueKey item.1
  obtain ⟨jira', hdeleted⟩ := deleteAll_reaches (ε := ε) ownershipTag (sortedKeys keys) jira
  refine ⟨keys.length, jira', .next _ (.found (List.Perm.refl _)) ?_⟩
  rw [Proc.bind]
  dsimp only
  rw [ownedKeys_told htagged]
  exact hdeleted.andThen (.here _ _)

/-! ## Seedings and cleanups -/

section
variable [Unicode] {listing : Listing} {scenario : ScenarioDefinition V} {jira jira' : Jira}

/-- What any seedings and cleanups of a scenario may make of Jira, each stopped anywhere or not at all. -/
inductive Lifecycle (ε : Type) (listing : Listing) (scenario : ScenarioDefinition V) (jira : Jira) : Jira → Prop
  | start : Lifecycle ε listing scenario jira jira
  | seeded {jira' : Jira} (calls : Nat) : Lifecycle ε listing scenario jira jira' →
      Lifecycle ε listing scenario jira ((RovoScenarioSeeder.seed scenario).stopped (answer listing) calls jira')
  | cleaned {jira' jira'' : Jira} {p : CleanupProc ε (Except (Failed ε) Nat)} : Lifecycle ε listing scenario jira jira' →
      Proc.Reaches (CleanWorld (ε := ε) scenario.ownershipTag)
        (cleanup scenario.environment scenario.projectKey scenario.ownershipTag) jira' p jira'' →
      Lifecycle ε listing scenario jira jira''

omit [Unicode] in
/-- A cleanup takes no label to a second issue, and links nothing. -/
theorem Sound.cleaned {ownershipTag : String} (h : Sound scenario jira) (hcleaned : Cleaned ownershipTag jira jira') :
    Sound scenario jira' := by
  obtain ⟨gone, _, rfl⟩ := hcleaned
  have hhosts : ∀ n, Hosts scenario (jira.without gone) n → Hosts scenario jira n := by
    rintro n ⟨label, hlabel, hbears⟩
    exact ⟨label, hlabel, (Labelled.bears_without.mp hbears).1⟩
  exact
    { exclusive := h.exclusive.without gone
      one_link := fun m n hm hn => (jira.joins_without_le gone m n).trans (h.one_link m n (hhosts m hm) (hhosts n hn)) }

theorem Lifecycle.sound (hcompletes : Completes scenario) (hown : OwnLabels scenario) (hsound : Sound scenario jira)
    (h : Lifecycle ε listing scenario jira jira') : Sound scenario jira' := by
  induction h with
  | start => exact hsound
  | seeded calls _ ih =>
    exact Proc.Keeps.stopped (I := Sound scenario) (fun _ _ h => h.1) (seed_keeps listing hcompletes hown ih)
  | cleaned _ hrun ih => exact ih.cleaned (cleanup_leaves.reached hrun fun _ _ hr => hr.1)

/-- After any seedings and cleanups, wherever each was stopped, a seeding that completes converges. -/
theorem lifecycle_converges (hown : OwnLabels scenario) (hunseeded : Unseeded scenario jira)
    (hlife : Lifecycle ε listing scenario jira jira') {result : OperationResult} {jira'' : Jira}
    (hrun : (RovoScenarioSeeder.seed scenario).exec (answer listing) jira' = (.ok result, jira'')) :
    Converged listing scenario jira'' := by
  have hcompletes : Completes scenario := by
    refine (seed_ok_iff listing scenario jira').exec.1.mp ⟨result, ?_⟩
    rw [hrun]
  have hsound := hlife.sound hcompletes hown (sound_of_unseeded hunseeded)
  have hseeded := (seed_keeps listing hcompletes hown hsound).exec
  rw [hrun] at hseeded
  exact converged_of_seeded hcompletes hown hsound (hseeded.2 result rfl)

end

/-! ## Seeded, cleaned up and seeded again -/

section
attribute [local instance] Unicode.ascii

theorem twoStages_own : OwnLabels twoStages where
  external := fun issue hissue other hother _ => by
    rw [List.mem_singleton.mp hissue, List.mem_singleton.mp hother]
  profile := by decide +kernel

theorem twoStages_completes : Completes twoStages where
  scope := rfl
  fields issue hissue := by
    rw [List.mem_singleton.mp hissue]
    exact ⟨⟨issueLabels loginTask, "High", 20677, none⟩, rfl⟩
  dependencies issue hissue dependency hin := by
    rw [List.mem_singleton.mp hissue] at hin
    cases hin

/-- Half a seeding, a whole cleanup, and a seeding. -/
theorem cleaned_seeds_again : ∃ jira' result jira'', Lifecycle Empty ⟨id, List.Perm.refl⟩ twoStages .empty jira' ∧
    (RovoScenarioSeeder.seed twoStages).exec (answer ⟨id, List.Perm.refl⟩) jira' = (.ok result, jira'') ∧
    Converged ⟨id, List.Perm.refl⟩ twoStages jira'' := by
  obtain ⟨n, jira', hcleaned⟩ := cleanup_can_complete (ε := Empty) fixtureTag
    ((RovoScenarioSeeder.seed twoStages).stopped (answer ⟨id, List.Perm.refl⟩) 16 .empty)
  have hlife : Lifecycle Empty ⟨id, List.Perm.refl⟩ twoStages .empty jira' := .cleaned (.seeded 16 .start) hcleaned
  obtain ⟨result, hresult⟩ := (seed_ok_iff ⟨id, List.Perm.refl⟩ twoStages jira').exec.1.mpr twoStages_completes
  have hunseeded : Unseeded twoStages Jira.empty := by
    rintro label - number ⟨labels, hitem, -⟩
    cases hitem
  exact ⟨jira', result, _, hlife, Prod.ext hresult rfl,
    lifecycle_converges twoStages_own hunseeded hlife (Prod.ext hresult rfl)⟩

/-- Two issues, of which one has the tag. -/
def twoIssues : Jira := (Jira.empty.create [fixtureTag, "workforce-external:primary-risk-task"]).create ["backlog"]

theorem tagged_issue_is_cleaned : ∃ jira', Cleaned fixtureTag twoIssues jira' ∧ (∀ m, ¬ jira'.issues.Bears fixtureTag m) ∧
    Proc.Reaches (CleanWorld (ε := Empty) fixtureTag) (cleanup "dev" "WRD" fixtureTag) twoIssues (.ret (.ok 1)) jira' := by
  obtain ⟨n, jira', h⟩ := cleanup_can_complete (ε := Empty) fixtureTag twoIssues
  obtain ⟨hcleaned, hcounted⟩ := cleanup_cleans h
  obtain ⟨hn, _, hnone⟩ := hcounted n rfl
  have hone : (twoIssues.issues.search fixtureTag).length = 1 := by decide
  rw [hone] at hn
  subst hn
  exact ⟨jira', hcleaned, hnone (by decide), h⟩

end

end WorkforceRisk.Scenario
