/-
  WorkforceRisk.Scenario.Convergence — seeding again after runs that were interrupted.

  Runs of the seeder stop before any of their calls (`interrupted`); then one completes. What
  it has to leave is `Converged`: one issue for each profile and each external id, one Blocks
  link for each dependency, what verifies, and what a further run does not add to. The seeder
  finds its issues by their labels, so one issue's own labels must not have what another is
  found by (`OwnLabels`). Proved (`converges_iff`): it converges if they have not, and,
  where a run completes at all (`Completes`), only then.
-/

import WorkforceRisk.Scenario.SeedingRuns
import WorkforceRisk.Scenario.Stepping

namespace WorkforceRisk.Scenario

open Lib Persistence Historical

section
variable [Unicode] {V : Type}

structure Converged (listing : Listing) (scenario : ScenarioDefinition V) (jira : Jira) : Prop where
  one_each : ∀ label ∈ scenarioLabels scenario, ∃! number, jira.issues.Bears label number
  apart : ∀ label ∈ scenarioLabels scenario, ∀ label' ∈ scenarioLabels scenario, ∀ number,
    jira.issues.Bears label number → jira.issues.Bears label' number → label = label'
  one_link : ∀ issue ∈ scenario.issues, ∀ dependency ∈ issue.dependencies, ∀ m n,
    jira.issues.Bears (externalLabel dependency) m → jira.issues.Bears (externalLabel issue.externalId) n →
      jira.joins m n = 1
  verified : ∃ result, (RovoScenarioVerifier.verify scenario).exec (answer listing) jira = (.ok result, jira) ∧
    result.valid = true
  settled : ∀ result jira', (RovoScenarioSeeder.seed scenario).exec (answer listing) jira = (.ok result, jira') →
    result.created = 0 ∧ jira'.issues.numbers = jira.issues.numbers ∧ jira'.links = jira.links

/-- No issue of the scenario is there yet. -/
def Unseeded (scenario : ScenarioDefinition V) (jira : Jira) : Prop :=
  ∀ label ∈ scenarioLabels scenario, ∀ number, ¬ jira.issues.Bears label number

/-- Runs one after another, each stopped before its call after the first so many. -/
def interrupted (listing : Listing) (scenario : ScenarioDefinition V) (jira : Jira) (stops : List Nat) : Jira :=
  stops.foldl (fun jira n => (RovoScenarioSeeder.seed scenario).stopped (answer listing) n jira) jira

def Converges (listing : Listing) (scenario : ScenarioDefinition V) : Prop :=
  ∀ jira, Unseeded scenario jira → ∀ stops result jira',
    (RovoScenarioSeeder.seed scenario).exec (answer listing) (interrupted listing scenario jira stops) =
      (.ok result, jira') → Converged listing scenario jira'

/-! ## Runs that are interrupted -/

variable {listing : Listing} {scenario : ScenarioDefinition V}

omit [Unicode] in
theorem sound_of_unseeded {jira : Jira} (h : Unseeded scenario jira) : Sound scenario jira where
  exclusive := ⟨fun label m _ hlabel hm => absurd hm (h label hlabel m),
    fun label _ n hlabel _ hn => absurd hn (h label hlabel n)⟩
  one_link m _ hm := by
    obtain ⟨label, hlabel, hbears⟩ := hm
    exact absurd hbears (h label hlabel m)

/-- Runs that stop on their way leave it as sound. -/
theorem sound_interrupted (hcompletes : Completes scenario) (hown : OwnLabels scenario) (stops : List Nat) :
    ∀ {jira : Jira}, Sound scenario jira → Sound scenario (interrupted listing scenario jira stops) := by
  induction stops with
  | nil => exact fun h => h
  | cons n stops ih =>
    intro jira h
    have hstopped : Sound scenario ((RovoScenarioSeeder.seed scenario).stopped (answer listing) n jira) :=
      Proc.Keeps.stopped (I := Sound scenario) (fun _ _ h => h.1) (seed_keeps listing hcompletes hown h)
    exact ih hstopped

/-! ## After a run that completes -/

omit [Unicode] in
theorem search_single (listing : Listing) {jira : Jira} (hsound : Sound scenario jira) {label : String} {n : Nat} {labels : List String}
    (hlabel : label ∈ scenarioLabels scenario) (hitem : (n, labels) ∈ jira.issues.items) (hmem : label ∈ labels) :
    jira.search listing label = [jira.found (n, labels)] := by
  have hone : jira.issues.search label = [(n, labels)] := by
    refine List.perm_singleton.mp ((List.perm_ext_iff_of_nodup ?_ (List.nodup_singleton _)).mpr fun item => ?_)
    · exact (List.Nodup.of_map _ jira.issues.distinct).filter _
    · rw [Labelled.mem_search, List.mem_singleton]
      constructor
      · rintro ⟨hin, hl⟩
        obtain rfl : item.1 = n := hsound.exclusive.once label item.1 n hlabel ⟨item.2, hin, hl⟩ ⟨labels, hitem, hmem⟩
        exact Prod.ext rfl (Labelled.labels_unique hin hitem)
      · rintro rfl
        exact ⟨hitem, hmem⟩
  unfold Jira.search
  rw [hone, List.map_singleton, List.perm_singleton.mp (listing.perm [jira.found (n, labels)])]
  rfl

/-- What verifies: every issue has one in Jira with its labels. -/
theorem verifyIssues_ok {jira : Jira} (hsound : Sound scenario jira) {issues : List ScenarioIssue}
    (hissues : issues ⊆ scenario.issues)
    (hfields : ∀ issue ∈ issues, ∃ fields, jiraFields scenario.anchorDate issue = .ok fields)
    (hitems : ∀ issue ∈ issues, ∃ n, (n, issueLabels issue) ∈ jira.issues.items) (found : List String × List String) :
    (RovoScenarioVerifier.verifyIssues scenario.anchorDate issues found).exec (answer listing) jira = (.ok found, jira) := by
  induction issues with
  | nil => rfl
  | cons issue issues ih =>
    obtain ⟨fields, hok⟩ := hfields issue List.mem_cons_self
    obtain ⟨n, hitem⟩ := hitems issue List.mem_cons_self
    have hfound := search_single listing hsound (externalLabel_mem (hissues List.mem_cons_self)) hitem
      (externalLabel_mem_issueLabels.mpr (.inl rfl))
    have hall : (issueLabels issue).all (jira.found (n, issueLabels issue)).labels.contains = true := by
      simp [Jira.found]
    have hfirst : (RovoScenarioVerifier.verifyIssue scenario.anchorDate issue found).exec (answer listing) jira =
        (.ok found, jira) := by
      have hsearch : (searchIssues (externalLabel issue.externalId)).exec (answer listing) jira =
          (jira.search listing (externalLabel issue.externalId), jira) := rfl
      unfold RovoScenarioVerifier.verifyIssue
      rw [Proc.exec_bind, hsearch, hfound]
      dsimp only
      rw [hok]
      dsimp only
      rw [jiraFields_labels hok, if_pos hall]
      rfl
    unfold RovoScenarioVerifier.verifyIssues Proc.andThen
    rw [Proc.exec_bind, hfirst]
    exact ih (fun other hother => hissues (List.mem_cons_of_mem _ hother))
      (fun other hother => hfields other (List.mem_cons_of_mem _ hother))
      (fun other hother => hitems other (List.mem_cons_of_mem _ hother))

theorem verify_valid {jira : Jira} (hsound : Sound scenario jira) (hcompletes : Completes scenario)
    (hitems : ∀ issue ∈ scenario.issues, ∃ n, (n, issueLabels issue) ∈ jira.issues.items) :
    ∃ result, (RovoScenarioVerifier.verify scenario).exec (answer listing) jira = (.ok result, jira) ∧
      result.valid = true := by
  unfold RovoScenarioVerifier.verify
  rw [hcompletes.scope]
  dsimp only
  unfold Proc.andThen
  rw [Proc.exec_bind, verifyIssues_ok hsound (List.Subset.refl _) hcompletes.fields hitems]
  exact ⟨_, rfl, rfl⟩

theorem issueEntries_nodup : ((issueEntries scenario.issues).map Prod.fst).Nodup := by
  unfold issueEntries
  rw [List.map_map]
  have hlabels := scenario.externalIds_unique.map (f := externalLabel) fun _ _ => append_inj
  rw [List.map_map] at hlabels
  exact hlabels

theorem oneOf_entries (hown : OwnLabels scenario) : Labelled.OneOf (· ∈ scenarioLabels scenario)
    (profileEntries scenario.profiles ++ issueEntries scenario.issues) := by
  intro entry hentry
  rcases List.mem_append.mp hentry with hentry | hentry
  · exact oneOf_profileEntries entry hentry
  · exact oneOf_issueEntries hown entry hentry

theorem scenarioLabels_eq : scenarioLabels scenario =
    (profileEntries scenario.profiles ++ issueEntries scenario.issues).map Prod.fst := by
  unfold scenarioLabels profileEntries issueEntries
  rw [List.map_append, List.map_map, List.map_map]
  rfl

theorem bears_of_seeded (hown : OwnLabels scenario) {jira jira' : Jira} {result : OperationResult}
    (hsound : Sound scenario jira) (h : Seeded scenario jira result jira') {label : String}
    (hlabel : label ∈ scenarioLabels scenario) : ∃ n, jira'.issues.Bears label n := by
  rw [scenarioLabels_eq] at hlabel
  obtain ⟨entry, hentry, rfl⟩ := List.mem_map.mp hlabel
  exact h.puts.bears_all (oneOf_entries hown) hsound.exclusive entry hentry

/-- A run that completes leaves all that is wanted. -/
theorem converged_of_seeded (hcompletes : Completes scenario) (hown : OwnLabels scenario) {jira jira' : Jira} {result : OperationResult}
    (hsound : Sound scenario jira) (h : Seeded scenario jira result jira') : Converged listing scenario jira' := by
  have hone := oneOf_entries hown
  have hdependency : ∀ issue ∈ scenario.issues, ∀ dependency ∈ issue.dependencies,
      externalLabel dependency ∈ scenarioLabels scenario := by
    intro issue hissue dependency hin
    obtain ⟨other, hother, rfl⟩ := List.mem_map.mp (hcompletes.dependencies issue hissue dependency hin)
    exact externalLabel_mem hother
  refine ⟨fun label hlabel => ?_, fun label hlabel label' hlabel' number => ?_, ?_, ?_, ?_⟩
  · obtain ⟨n, hn⟩ := bears_of_seeded hown hsound h hlabel
    exact ⟨n, hn, fun m hm => h.sound.exclusive.once label m n hlabel hm hn⟩
  · exact h.sound.exclusive.apart label label' number hlabel hlabel'
  · intro issue hissue dependency hin m n hm hn
    refine Nat.le_antisymm (h.sound.one_link m n ⟨_, hdependency issue hissue dependency hin, hm⟩
      ⟨_, externalLabel_mem hissue, hn⟩) ?_
    exact h.joined issue hissue dependency hin m n hm hn
  · -- The issues were written last, each once.
    refine verify_valid h.sound hcompletes fun issue hissue => ?_
    obtain ⟨jira₁, hprofiles, hissues⟩ := Labelled.puts_append.mp h.puts
    exact hissues.item_all (oneOf_issueEntries hown) (hprofiles.exclusive oneOf_profileEntries hsound.exclusive)
      issueEntries_nodup _ (List.mem_map.mpr ⟨issue, hissue, rfl⟩)
  · intro result₂ jira₂ hagain
    have hseeded : Seeded scenario jira' result₂ jira₂ := by
      have hkeeps := (seed_keeps listing hcompletes hown h.sound).exec
      rw [hagain] at hkeeps
      exact hkeeps.2 result₂ rfl
    have hnumbers : jira₂.issues.numbers = jira'.issues.numbers := by
      refine hseeded.puts.numbers_eq hone h.sound.exclusive fun entry hentry => ?_
      exact h.puts.bears_all hone hsound.exclusive entry hentry
    have hback : ∀ label ∈ scenarioLabels scenario, ∀ m, jira₂.issues.Bears label m → jira'.issues.Bears label m := by
      intro label hlabel m hm
      obtain ⟨k, hk⟩ := bears_of_seeded hown hsound h hlabel
      have hk₂ := hseeded.puts.bears_mono hone h.sound.exclusive hlabel hk
      rw [hseeded.sound.exclusive.once label m k hlabel hm hk₂]
      exact hk
    refine ⟨?_, hnumbers, hseeded.same fun issue hissue dependency hin m n hm hn => ?_⟩
    · have hcounted := hseeded.counted
      rw [hnumbers] at hcounted
      omega
    · exact h.joined issue hissue dependency hin m n (hback _ (hdependency issue hissue dependency hin) m hm)
        (hback _ (externalLabel_mem hissue) n hn)

/-! ## When issues have what others are found by -/

/-- Labels with an external id of the scenario's. -/
def hasExternal (scenario : ScenarioDefinition V) (labels : List String) : Bool :=
  scenario.issues.any fun issue => labels.contains (externalLabel issue.externalId)

omit [Unicode] in
theorem hasExternal_iff {labels : List String} : hasExternal scenario labels = true ↔
    ∃ issue ∈ scenario.issues, externalLabel issue.externalId ∈ labels := by
  simp [hasExternal]

/-- In an empty Jira there is an issue for each only if each was added, and none is found by another. -/
theorem ownLabels_of_converged {jira₁ jira' : Jira}
    (hprofiles : Labelled.Puts (profileEntries scenario.profiles) Jira.empty.issues jira₁.issues)
    (hissues : Labelled.Puts (issueEntries scenario.issues) jira₁.issues jira'.issues)
    (h : Converged listing scenario jira') : OwnLabels scenario := by
  have hnone : jira₁.issues.count (hasExternal scenario) = 0 := by
    refine List.countP_eq_zero.mpr fun item hitem => ?_
    rw [hasExternal_iff]
    rintro ⟨issue, -, hin⟩
    rcases hprofiles.item_cases hitem with hold | ⟨entry, hentry, heq⟩
    · cases hold
    · obtain ⟨profile, -, rfl⟩ := List.mem_map.mp hentry
      rw [← heq] at hin
      exact externalLabel_notMem_profileLabels hin
  have hmem : ∀ label ∈ (issueEntries scenario.issues).map Prod.fst, label ∈ scenarioLabels scenario := by
    intro label hlabel
    rw [scenarioLabels_eq, List.map_append]
    exact List.mem_append_right _ hlabel
  have hexternal : ∀ label ∈ (issueEntries scenario.issues).map Prod.fst, ∀ labels : List String, label ∈ labels →
      hasExternal scenario labels = true := by
    intro label hlabel labels hin
    obtain ⟨entry, hentry, rfl⟩ := List.mem_map.mp hlabel
    obtain ⟨issue, hissue, rfl⟩ := List.mem_map.mp hentry
    exact hasExternal_iff.mpr ⟨issue, hissue, hin⟩
  have hleast := Labelled.length_le_count (p := hasExternal scenario) (s := jira'.issues) issueEntries_nodup
    (fun label hlabel => (h.one_each label (hmem label hlabel)).exists)
    (fun label hlabel label' hlabel' => h.apart label (hmem label hlabel) label' (hmem label' hlabel')) hexternal
  obtain ⟨hmost, hall⟩ := hissues.count_le (p := hasExternal scenario) fun entry hentry => by
    refine ⟨?_, hexternal entry.1 (List.mem_map.mpr ⟨entry, hentry, rfl⟩)⟩
    obtain ⟨issue, hissue, rfl⟩ := List.mem_map.mp hentry
    exact hasExternal_iff.mpr ⟨issue, hissue, externalLabel_mem_issueLabels.mpr (.inl rfl)⟩
  rw [List.length_map] at hleast
  obtain ⟨-, hwritten⟩ := hall (by omega)
  have hbears : ∀ issue ∈ scenario.issues, ∃ n, jira'.issues.Bears (externalLabel issue.externalId) n ∧
      ∀ label ∈ issueLabels issue, jira'.issues.Bears label n := by
    intro issue hissue
    obtain ⟨n, hitem⟩ := hwritten _ (List.mem_map.mpr ⟨issue, hissue, rfl⟩)
    exact ⟨n, ⟨_, hitem, externalLabel_mem_issueLabels.mpr (.inl rfl)⟩, fun label hin => ⟨_, hitem, hin⟩⟩
  constructor
  · intro issue hissue other hother hin
    obtain ⟨n, hself, hlabels⟩ := hbears issue hissue
    have hlabel := hlabels _ (externalLabel_mem_issueLabels.mpr (.inr hin))
    exact append_inj (h.apart _ (externalLabel_mem hother) _ (externalLabel_mem hissue) n hlabel hself)
  · intro issue hissue profile hprofile hin
    obtain ⟨n, hself, hlabels⟩ := hbears issue hissue
    have hlabel := hlabels _ (profileLabel_mem_issueLabels.mpr hin)
    exact append_ne_append names_apart.2.2 _ _
      (h.apart _ (externalLabel_mem hissue) _ (profileLabel_mem hprofile) n hself hlabel)

theorem ownLabels_of_converges (h : Converges listing scenario) (hcompletes : Completes scenario) :
    OwnLabels scenario := by
  obtain ⟨hiff, hputs⟩ := (seed_ok_iff listing scenario .empty).exec
  obtain ⟨result, hresult⟩ := hiff.mpr hcompletes
  obtain ⟨jira₁, hprofiles, hissues⟩ := hputs hcompletes
  have hunseeded : Unseeded scenario Jira.empty := by
    rintro label - number ⟨labels, hitem, -⟩
    cases hitem
  exact ownLabels_of_converged hprofiles hissues (h .empty hunseeded [] result _ (Prod.ext hresult rfl))

/-- Seeding converges exactly if no issue has what another is found by, or no run completes. -/
theorem converges_iff (listing : Listing) (scenario : ScenarioDefinition V) :
    Converges listing scenario ↔ (Completes scenario → OwnLabels scenario) := by
  constructor
  · exact ownLabels_of_converges
  · intro h jira hunseeded stops result jira' hrun
    have hiff := (seed_ok_iff listing scenario (interrupted listing scenario jira stops)).exec.1
    rw [hrun] at hiff
    have hcompletes := hiff.mp ⟨result, rfl⟩
    have hown := h hcompletes
    have hsound : Sound scenario (interrupted listing scenario jira stops) :=
      sound_interrupted hcompletes hown stops (sound_of_unseeded hunseeded)
    have hseeded := (seed_keeps listing hcompletes hown hsound).exec
    rw [hrun] at hseeded
    exact converged_of_seeded hcompletes hown hsound (hseeded.2 result rfl)

end

/-! ## An issue labelled with another's id -/

theorem apiReport_hours : (PyFloat.finite 20).positive = true ∧ (PyFloat.finite 18).nonnegative = true := by decide

theorem apiReport_difficulty : (1 : Int) ≤ 4 ∧ (4 : Int) ≤ 5 := by decide

def apiReport : ScenarioIssue :=
  ⟨"api-report", "Build risk report API", "EMP-001", .finite 20, .finite 18, 3, "high", 4, ["python"],
    ["primary-risk-task"], none, none, true, none,
    [fixtureTag, "workforce-employee:EMP-001", "workforce-external:primary-risk-task"], loginTask_employee,
    apiReport_hours.1, apiReport_hours.2, apiReport_difficulty, unpaired_ok⟩

theorem twoTasks_unique : ([loginTask, apiReport].map (·.externalId)).Nodup := by decide

theorem twoTasks_tagged : ∀ issue ∈ [loginTask, apiReport], fixtureTag ∈ issue.labels := by decide +kernel

theorem twoTasks_labels : ∀ issue ∈ [loginTask, apiReport],
    issue.labels.filter isEmployeeLabel = ["workforce-employee:" ++ issue.workforceEmployeeId] := by decide +kernel

def twoTasks : ScenarioDefinition FieldValue :=
  ⟨fixtureTag, "dev", "WRD", 20675, sampleProfiles, [loginTask, apiReport], [], sampleProfiles_all, sampleProfiles_two,
    twoTasks_unique, twoTasks_tagged, twoTasks_labels⟩

/-- One issue's labels have another's external id. -/
theorem label_of_another_diverges : letI := Unicode.ascii
    ¬ ∀ (listing : Listing) (scenario : ScenarioDefinition FieldValue), Converges listing scenario := by
  let tables := Unicode.ascii
  intro h
  have hcompletes : Completes twoTasks := by
    refine ⟨rfl, fun issue hissue => ?_, by decide +kernel⟩
    rcases List.mem_cons.mp hissue with rfl | hissue
    · exact ⟨⟨issueLabels loginTask, "High", 20677, none⟩, rfl⟩
    · rw [List.mem_singleton.mp hissue]
      exact ⟨⟨issueLabels apiReport, "High", 20678, none⟩, rfl⟩
  have hown := ownLabels_of_converges (h ⟨id, List.Perm.refl⟩ twoTasks) hcompletes
  have hsame := hown.external apiReport (List.mem_cons_of_mem _ List.mem_cons_self) loginTask List.mem_cons_self
    (by decide +kernel)
  exact absurd hsame (by decide)

end WorkforceRisk.Scenario
