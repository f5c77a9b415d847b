/-
  WorkforceRisk.Scenario.SeedingRuns — what a run of the seeder does.

  A run is its three loops, over the profiles, the issues and their dependencies. Each issue
  is written for its label (`Wrote`), and the seeder learns its number and the links it has
  (`Learnt`). Proved: a run completes exactly if nothing in the scenario makes it raise
  (`seed_ok_iff`); and if no issue's own labels have what another is found by, then between
  any two of its calls each label is on one issue at most and no two issues are linked twice
  (`Sound`), and one that completes has written every profile and issue and linked every
  dependency that was not (`Seeded`; `seed_keeps`).
-/

import WorkforceRisk.Scenario.Seeding

namespace WorkforceRisk.Scenario

open Lib Persistence Historical

section
variable [Unicode] {V : Type}

/-- What the profiles and issues of a scenario are found by. -/
def scenarioLabels (scenario : ScenarioDefinition V) : List String :=
  scenario.profiles.map (fun profile => profileLabel profile.employeeId) ++
    scenario.issues.map fun issue => externalLabel issue.externalId

/-- How many Blocks links join two issues, in either direction. -/
def Jira.joins (jira : Jira) (m n : Nat) : Nat :=
  jira.links.countP fun link => link.type == "Blocks" && s(link.inwardIssue, link.outwardIssue) == s(m, n)

/-- Nothing in the scenario makes a run raise. -/
structure Completes (scenario : ScenarioDefinition V) : Prop where
  scope : validateScenarioScope scenario.environment scenario.projectKey = .ok ()
  fields : ∀ issue ∈ scenario.issues, ∃ fields, jiraFields scenario.anchorDate issue = .ok fields
  dependencies : ∀ issue ∈ scenario.issues, ∀ dependency ∈ issue.dependencies,
    dependency ∈ scenario.issues.map (·.externalId)

/-- No issue has what another, or a profile, is found by. -/
structure OwnLabels (scenario : ScenarioDefinition V) : Prop where
  external : ∀ issue ∈ scenario.issues, ∀ other ∈ scenario.issues,
    externalLabel other.externalId ∈ issue.labels → other.externalId = issue.externalId
  profile : ∀ issue ∈ scenario.issues, ∀ profile ∈ scenario.profiles, profileLabel profile.employeeId ∉ issue.labels

/-! ## What is searched for and written -/

omit [Unicode] in
theorem search_nil {listing : Listing} {jira : Jira} {label : String} (h : jira.search listing label = []) (n : Nat) :
    ¬ jira.issues.Bears label n := by
  have hempty : listing.arrange ((jira.issues.search label).map jira.found) = [] := by
    rcases List.take_eq_nil_iff.mp h with h | h
    · exact absurd h (by decide)
    · exact h
  have hnil := (List.nil_perm.mp (hempty ▸ listing.perm ((jira.issues.search label).map jira.found)))
  exact Labelled.search_nil_iff.mp (List.map_eq_nil_iff.mp hnil) n

omit [Unicode] in
theorem mem_search {listing : Listing} {jira : Jira} {label : String} {found : FoundIssue}
    (h : found ∈ jira.search listing label) :
    found = jira.found (found.key, found.labels) ∧ (found.key, found.labels) ∈ jira.issues.items ∧ label ∈ found.labels := by
  obtain ⟨item, hitem, rfl⟩ := List.mem_map.mp ((listing.perm _).subset (List.mem_of_mem_take h))
  obtain ⟨hitem, hlabel⟩ := Labelled.mem_search.mp hitem
  exact ⟨rfl, hitem, hlabel⟩

/-- A Blocks link of an issue, told by its two ends. -/
def Jira.Linked (jira : Jira) (n : Nat) (pair : Sym2 Nat) : Prop :=
  ∃ link ∈ jira.links, link.type = "Blocks" ∧ (link.inwardIssue = n ∨ link.outwardIssue = n) ∧
    s(link.inwardIssue, link.outwardIssue) = pair

omit [Unicode] in
theorem mem_linkedIssuePairs {jira : Jira} {item : Nat × List String} {pair : Sym2 Nat} :
    pair ∈ linkedIssuePairs (jira.found item) ↔ jira.Linked item.1 pair := by
  unfold linkedIssuePairs Jira.found Jira.Linked
  simp only [List.mem_filterMap, List.mem_flatMap, Link.entries, List.mem_append]
  constructor
  · rintro ⟨entry, ⟨link, hlink, hentry⟩, hpair⟩
    refine ⟨link, hlink, ?_⟩
    rcases hentry with hentry | hentry
    · split at hentry
      · rename_i hn
        rw [List.mem_singleton.mp hentry] at hpair
        split at hpair
        · rename_i htype
          refine ⟨htype, .inl hn, ?_⟩
          rw [hn]
          exact Option.some.inj hpair
        · cases hpair
      · cases hentry
    · split at hentry
      · rename_i hn
        rw [List.mem_singleton.mp hentry] at hpair
        split at hpair
        · rename_i htype
          refine ⟨htype, .inr hn, ?_⟩
          rw [hn, Sym2.eq_swap]
          exact Option.some.inj hpair
        · cases hpair
      · cases hentry
  · rintro ⟨link, hlink, htype, hn | hn, rfl⟩
    · refine ⟨⟨link.type, none, some link.outwardIssue⟩, ⟨link, hlink, .inl ?_⟩, ?_⟩
      · rw [if_pos hn]
        exact List.mem_singleton.mpr rfl
      · rw [if_pos htype, ← hn]
        rfl
    · refine ⟨⟨link.type, some link.inwardIssue, none⟩, ⟨link, hlink, .inr ?_⟩, ?_⟩
      · rw [if_pos hn]
        exact List.mem_singleton.mpr rfl
      · rw [if_pos htype, ← hn, Sym2.eq_swap]
        rfl

omit [Unicode] in
/-- Two issues are joined if a link of the one leads to the other. -/
theorem joins_pos {jira : Jira} {m n : Nat} : 0 < jira.joins m n ↔ jira.Linked m s(m, n) := by
  unfold Jira.joins Jira.Linked
  rw [List.countP_pos_iff]
  simp only [Bool.and_eq_true, beq_iff_eq]
  refine exists_congr fun link => and_congr_right fun _ => and_congr_right fun _ => ?_
  refine ⟨fun h => ⟨?_, h⟩, And.right⟩
  rcases Sym2.eq_iff.mp h with ⟨hm, -⟩ | ⟨-, hm⟩
  · exact .inl hm
  · exact .inr hm

omit [Unicode] in
theorem joins_comm (jira : Jira) (m n : Nat) : jira.joins m n = jira.joins n m := by
  unfold Jira.joins
  rw [Sym2.eq_swap]

omit [Unicode] in
/-- A new issue has no links. -/
theorem not_linked_next (jira : Jira) (pair : Sym2 Nat) : ¬ jira.Linked jira.issues.next pair := by
  rintro ⟨link, hlink, -, heq | heq, -⟩
  · exact jira.issues.next_notMem (heq ▸ (jira.known link hlink).1)
  · exact jira.issues.next_notMem (heq ▸ (jira.known link hlink).2)

theorem jiraFields_labels {anchorDate : Date} {issue : ScenarioIssue} {fields : JiraFields}
    (h : jiraFields anchorDate issue = .ok fields) : fields.labels = issueLabels issue := by
  unfold jiraFields at h
  cases hdue : addDays anchorDate issue.dueOffsetDays with
  | error e => rw [hdue] at h; cases h
  | ok due =>
    rw [hdue] at h
    cases hpriority : jiraPriority issue.priority with
    | error e => rw [hpriority] at h; cases h
    | ok priority => rw [hpriority] at h; cases h; rfl

/-! ## One issue -/

section
variable {listing : Listing} {I : Jira → Prop} {α : Type} {Q : α → Jira → Prop} {jira : Jira}

omit [Unicode]

theorem keeps_search {label : String} {f : List FoundIssue → Session α} (hI : I jira)
    (h : (f (jira.search listing label)).Keeps (answer listing) I jira Q) :
    ((searchIssues label).bind f).Keeps (answer listing) I jira Q := ⟨hI, h⟩

theorem keeps_create {labels : List String} {f : Nat → Session α} (hI : I jira)
    (h : (f jira.issues.next).Keeps (answer listing) I (jira.create labels) Q) :
    ((createIssue labels).bind f).Keeps (answer listing) I jira Q := ⟨hI, h⟩

theorem keeps_edit {key : Nat} {labels : List String} {f : Unit → Session α} (hI : I jira)
    (h : (f ()).Keeps (answer listing) I (jira.edit key labels) Q) :
    ((editIssue key labels).bind f).Keeps (answer listing) I jira Q := ⟨hI, h⟩

theorem keeps_link {type : String} {m n : Nat} {f : Unit → Session α} (hI : I jira)
    (h : (f ()).Keeps (answer listing) I (jira.link ⟨type, m, n⟩) Q) :
    ((createLink type m n).bind f).Keeps (answer listing) I jira Q := ⟨hI, h⟩

end

/-- The issue that a label stands for is written, and counted if it is new. -/
structure Wrote (label : String) (labels : List String) (p : Progress) (jira : Jira) (p' : Progress) (jira' : Jira)
    (n : Nat) : Prop where
  put : Labelled.Put label labels jira.issues jira'.issues n
  links : jira'.links = jira.links
  counted : p'.created + jira.issues.numbers.length = p.created + jira'.issues.numbers.length

variable {listing : Listing} {I : Jira → Prop}

theorem seedProfile_keeps {profile : ScenarioProfile} {p : Progress} {jira : Jira} (hI : I jira) :
    (RovoScenarioSeeder.seedProfile profile p).Keeps (answer listing) I jira fun p' jira' =>
      (∃ n, Wrote (profileLabel profile.employeeId) (profileLabels profile) p jira p' jira' n) ∧
        p'.issueKeys = p.issueKeys ∧ p'.existingLinks = p.existingLinks := by
  unfold RovoScenarioSeeder.seedProfile
  refine keeps_search hI ?_
  cases hfound : jira.search listing (profileLabel profile.employeeId) with
  | nil =>
    refine keeps_create hI ⟨⟨_, .added (search_nil hfound), rfl, ?_⟩, rfl, rfl⟩
    simp only [Jira.create, Labelled.numbers_add, List.length_append, List.length_singleton]
    omega
  | cons first rest =>
    obtain ⟨-, hitem, hlabel⟩ := mem_search (hfound ▸ List.mem_cons_self : first ∈ jira.search listing _)
    refine keeps_edit hI ⟨⟨_, .relabelled ⟨_, hitem, hlabel⟩, rfl, ?_⟩, rfl, rfl⟩
    simp only [Jira.edit, Labelled.numbers_relabel]

/-- What the seeder learns of an issue: its number and the links it has. -/
structure Learnt (externalId : String) (n : Nat) (p : Progress) (jira : Jira) (p' : Progress) : Prop where
  keys : p'.issueKeys = p.issueKeys.set externalId n
  links : ∀ pair, pair ∈ p'.existingLinks ↔ pair ∈ p.existingLinks ∨ jira.Linked n pair

theorem seedIssue_keeps {anchorDate : Date} {issue : ScenarioIssue} {p : Progress} {jira : Jira} (hI : I jira) :
    (RovoScenarioSeeder.seedIssue anchorDate issue p).Keeps (answer listing) I jira fun r jira' =>
      (∀ e, r = .error e → jira' = jira ∧ ∀ fields, jiraFields anchorDate issue ≠ .ok fields) ∧
      ∀ p', r = .ok p' → (∃ fields, jiraFields anchorDate issue = .ok fields) ∧
        ∃ n, Wrote (externalLabel issue.externalId) (issueLabels issue) p jira p' jira' n ∧
          Learnt issue.externalId n p jira p' := by
  unfold RovoScenarioSeeder.seedIssue
  refine keeps_search hI ?_
  cases hfields : jiraFields anchorDate issue with
  | error e => exact ⟨fun _ _ => ⟨rfl, fun _ h => (by cases h)⟩, fun _ h => (by cases h)⟩
  | ok fields =>
    rw [← jiraFields_labels hfields]
    cases hfound : jira.search listing (externalLabel issue.externalId) with
    | nil =>
      refine keeps_create hI ⟨fun _ h => (by cases h), ?_⟩
      rintro p' ⟨⟩
      refine ⟨⟨_, rfl⟩, _, ⟨.added (search_nil hfound), rfl, ?_⟩, rfl, fun pair => ?_⟩
      · simp only [Jira.create, Labelled.numbers_add, List.length_append, List.length_singleton]
        omega
      · simp only [not_linked_next, or_false]
    | cons first rest =>
      obtain ⟨hfirst, hitem, hlabel⟩ := mem_search (hfound ▸ List.mem_cons_self : first ∈ jira.search listing _)
      refine keeps_edit hI ⟨fun _ h => (by cases h), ?_⟩
      rintro p' ⟨⟩
      refine ⟨⟨_, rfl⟩, _, ⟨.relabelled ⟨_, hitem, hlabel⟩, rfl, ?_⟩, rfl, fun pair => ?_⟩
      · simp only [Jira.edit, Labelled.numbers_relabel]
      · rw [List.mem_append, hfirst, mem_linkedIssuePairs]
        exact Iff.rfl

/-! ## All of them -/

structure WroteAll (entries : List (String × List String)) (p : Progress) (jira : Jira) (p' : Progress) (jira' : Jira) :
    Prop where
  puts : Labelled.Puts entries jira.issues jira'.issues
  links : jira'.links = jira.links
  counted : p'.created + jira.issues.numbers.length = p.created + jira'.issues.numbers.length

omit [Unicode] in
theorem WroteAll.refl (p : Progress) (jira : Jira) : WroteAll [] p jira p jira := ⟨.nil _, rfl, rfl⟩

omit [Unicode] in
theorem Wrote.cons {label : String} {labels : List String} {entries : List (String × List String)}
    {p p' p'' : Progress} {jira jira' jira'' : Jira} {n : Nat} (h : Wrote label labels p jira p' jira' n)
    (hrest : WroteAll entries p' jira' p'' jira'') : WroteAll ((label, labels) :: entries) p jira p'' jira'' := by
  refine ⟨.cons h.put hrest.puts, hrest.links.trans h.links, ?_⟩
  have h₁ := h.counted
  have h₂ := hrest.counted
  omega

def profileEntries (profiles : List ScenarioProfile) : List (String × List String) :=
  profiles.map fun profile => (profileLabel profile.employeeId, profileLabels profile)

def issueEntries (issues : List ScenarioIssue) : List (String × List String) :=
  issues.map fun issue => (externalLabel issue.externalId, issueLabels issue)

/-- Writing one of these keeps `I`. -/
def KeptBy (I : Jira → Prop) (entries : List (String × List String)) : Prop :=
  ∀ entry ∈ entries, ∀ jira jira' n, I jira → Labelled.Put entry.1 entry.2 jira.issues jira'.issues n →
    jira'.links = jira.links → I jira'

theorem seedProfiles_keeps {profiles : List ScenarioProfile} (hkept : KeptBy I (profileEntries profiles)) :
    ∀ {p : Progress} {jira : Jira}, I jira →
      (RovoScenarioSeeder.seedProfiles profiles p).Keeps (answer listing) I jira fun p' jira' =>
        I jira' ∧ WroteAll (profileEntries profiles) p jira p' jira' ∧
          p'.issueKeys = p.issueKeys ∧ p'.existingLinks = p.existingLinks := by
  induction profiles with
  | nil => exact fun {p jira} hI => ⟨hI, .refl p jira, rfl, rfl⟩
  | cons profile profiles ih =>
    intro p jira hI
    have hrest : KeptBy I (profileEntries profiles) := fun entry hentry => hkept entry (List.mem_cons_of_mem _ hentry)
    refine Proc.keeps_bind ((seedProfile_keeps hI).mono ?_)
    rintro p₁ jira₁ ⟨⟨n, hwrote⟩, hkeys, hlinks⟩
    have hI₁ : I jira₁ := hkept _ List.mem_cons_self jira jira₁ n hI hwrote.put hwrote.links
    refine (ih hrest hI₁).mono ?_
    rintro p₂ jira₂ ⟨hI₂, hall, hkeys₂, hlinks₂⟩
    exact ⟨hI₂, hwrote.cons hall, hkeys₂.trans hkeys, hlinks₂.trans hlinks⟩

/-- What seeding the issues leaves, if it does not raise. -/
structure SeededIssues (anchorDate : Date) (issues : List ScenarioIssue) (p : Progress) (jira : Jira) (p' : Progress)
    (jira' : Jira) : Prop where
  fields : ∀ issue ∈ issues, ∃ fields, jiraFields anchorDate issue = .ok fields
  wrote : WroteAll (issueEntries issues) p jira p' jira'
  keyed : ∀ externalId, (p'.issueKeys.get? externalId).isSome = true ↔
    externalId ∈ issues.map (·.externalId) ∨ (p.issueKeys.get? externalId).isSome = true

theorem seedIssues_keeps (listing : Listing) (anchorDate : Date) {issues : List ScenarioIssue} (hkept : KeptBy I (issueEntries issues)) :
    ∀ (p : Progress) (jira : Jira), I jira →
      (RovoScenarioSeeder.seedIssues anchorDate issues p).Keeps (answer listing) I jira fun r jira' =>
        I jira' ∧ (∀ e, r = .error e → ∃ issue ∈ issues, ∀ fields, jiraFields anchorDate issue ≠ .ok fields) ∧
          ∀ p', r = .ok p' → SeededIssues anchorDate issues p jira p' jira' := by
  induction issues with
  | nil =>
    intro p jira hI
    refine ⟨hI, fun _ h => (by cases h), ?_⟩
    rintro p' ⟨⟩
    exact ⟨fun _ h => (by cases h), .refl p jira, fun _ => by simp⟩
  | cons issue issues ih =>
    intro p jira hI
    have hrest : KeptBy I (issueEntries issues) := fun entry hentry => hkept entry (List.mem_cons_of_mem _ hentry)
    refine Proc.keeps_andThen ((seedIssue_keeps hI).mono ?_) ((seedIssue_keeps hI).mono ?_)
    · rintro r jira₁ ⟨-, hok⟩ p₁ hr
      obtain ⟨hfields, n, hwrote, hlearnt⟩ := hok p₁ hr
      have hI₁ : I jira₁ := hkept _ List.mem_cons_self jira jira₁ n hI hwrote.put hwrote.links
      refine (ih hrest p₁ jira₁ hI₁).mono ?_
      rintro r₂ jira₂ ⟨hI₂, herror, hok₂⟩
      refine ⟨hI₂, fun e he => ?_, fun p₂ hp₂ => ?_⟩
      · obtain ⟨bad, hbad, hraises⟩ := herror e he
        exact ⟨bad, List.mem_cons_of_mem _ hbad, hraises⟩
      · have hseeded := hok₂ p₂ hp₂
        refine ⟨?_, hwrote.cons hseeded.wrote, fun externalId => ?_⟩
        · intro other hother
          rcases List.mem_cons.mp hother with rfl | hother
          · exact hfields
          · exact hseeded.fields other hother
        · rw [hseeded.keyed, hlearnt.keys, Dict.get?_set, List.map_cons, List.mem_cons]
          by_cases hid : issue.externalId = externalId
          · simp [hid]
          · simp [hid, Ne.symm hid]
    · rintro r jira₁ ⟨herror, -⟩ e hr
      obtain ⟨rfl, hraises⟩ := herror e hr
      exact ⟨hI, fun _ _ => ⟨issue, List.mem_cons_self, hraises⟩, fun _ h => (by cases h)⟩

/-! ## What holds between the calls -/

variable {scenario : ScenarioDefinition V}

/-- An issue of the scenario's. -/
def Hosts (scenario : ScenarioDefinition V) (jira : Jira) (n : Nat) : Prop :=
  ∃ label ∈ scenarioLabels scenario, jira.issues.Bears label n

/-- Each label is on one issue at most, no issue has two, and no two issues are linked twice. -/
structure Sound (scenario : ScenarioDefinition V) (jira : Jira) : Prop where
  exclusive : jira.issues.Exclusive (· ∈ scenarioLabels scenario)
  one_link : ∀ m n, Hosts scenario jira m → Hosts scenario jira n → jira.joins m n ≤ 1

omit [Unicode] in
/-- What is written for a label of the scenario. -/
theorem sound_put {jira jira' : Jira} {label : String} {labels : List String} {n : Nat} (h : Sound scenario jira)
    (hlabel : label ∈ scenarioLabels scenario)
    (hlabels : ∀ l ∈ scenarioLabels scenario, (l ∈ labels ↔ l = label))
    (hput : Labelled.Put label labels jira.issues jira'.issues n) (hlinks : jira'.links = jira.links) :
    Sound scenario jira' := by
  refine ⟨hput.exclusive hlabels hlabel h.exclusive, ?_⟩
  -- An issue that is new has no links; the others were the scenario's before.
  have hold : ∀ m, Hosts scenario jira' m → Hosts scenario jira m ∨ m = jira.issues.next := by
    rintro m ⟨l, hl, hbears⟩
    by_cases hne : l = label
    · rw [hne, hput.bears_self hlabels hlabel h.exclusive] at hbears
      rcases hput.old_or_new with hwas | hnew
      · exact .inl ⟨label, hlabel, hbears ▸ hwas⟩
      · exact .inr (hbears.trans hnew)
    · exact .inl ⟨l, hl, (hput.bears_iff hlabels hlabel h.exclusive hl hne m).mp hbears⟩
  have hnew : ∀ m, jira.joins jira.issues.next m = 0 := fun m =>
    Nat.eq_zero_of_not_pos fun hpos => not_linked_next jira _ (joins_pos.mp hpos)
  intro m k hm hk
  have hjoins : jira'.joins m k = jira.joins m k := by unfold Jira.joins; rw [hlinks]
  rw [hjoins]
  rcases hold m hm with hm | rfl
  · rcases hold k hk with hk | rfl
    · exact h.one_link m k hm hk
    · rw [joins_comm, hnew]
      exact Nat.zero_le 1
  · rw [hnew]
    exact Nat.zero_le 1

omit [Unicode] in
theorem profileLabel_mem {profile : ScenarioProfile} (h : profile ∈ scenario.profiles) :
    profileLabel profile.employeeId ∈ scenarioLabels scenario :=
  List.mem_append_left _ (List.mem_map.mpr ⟨profile, h, rfl⟩)

omit [Unicode] in
theorem externalLabel_mem {issue : ScenarioIssue} (h : issue ∈ scenario.issues) :
    externalLabel issue.externalId ∈ scenarioLabels scenario :=
  List.mem_append_right _ (List.mem_map.mpr ⟨issue, h, rfl⟩)

omit [Unicode] in
theorem scenarioLabel_cases {label : String} (h : label ∈ scenarioLabels scenario) :
    (∃ profile ∈ scenario.profiles, label = profileLabel profile.employeeId) ∨
      ∃ issue ∈ scenario.issues, label = externalLabel issue.externalId := by
  rcases List.mem_append.mp h with h | h
  · obtain ⟨profile, hprofile, rfl⟩ := List.mem_map.mp h
    exact .inl ⟨profile, hprofile, rfl⟩
  · obtain ⟨issue, hissue, rfl⟩ := List.mem_map.mp h
    exact .inr ⟨issue, hissue, rfl⟩

/-- A profile has only what it is found by. -/
theorem oneOf_profileEntries : Labelled.OneOf (· ∈ scenarioLabels scenario) (profileEntries scenario.profiles) := by
  intro entry hentry
  obtain ⟨profile, hprofile, rfl⟩ := List.mem_map.mp hentry
  refine ⟨profileLabel_mem hprofile, fun label hlabel => ?_⟩
  rcases scenarioLabel_cases hlabel with ⟨other, -, rfl⟩ | ⟨issue, -, rfl⟩
  · exact profileLabel_mem_profileLabels.trans ⟨fun h => h ▸ rfl, append_inj⟩
  · exact iff_of_false externalLabel_notMem_profileLabels (append_ne_append names_apart.2.2 _ _)

/-- So has an issue, if its own labels have not what another is found by. -/
theorem oneOf_issueEntries (hown : OwnLabels scenario) :
    Labelled.OneOf (· ∈ scenarioLabels scenario) (issueEntries scenario.issues) := by
  intro entry hentry
  obtain ⟨issue, hissue, rfl⟩ := List.mem_map.mp hentry
  refine ⟨externalLabel_mem hissue, fun label hlabel => ?_⟩
  rcases scenarioLabel_cases hlabel with ⟨profile, hprofile, rfl⟩ | ⟨other, hother, rfl⟩
  · rw [profileLabel_mem_issueLabels]
    exact iff_of_false (hown.profile issue hissue profile hprofile)
      (append_ne_append names_apart.2.2 _ _).symm
  · rw [externalLabel_mem_issueLabels]
    constructor
    · rintro (heq | hin)
      · rw [heq]
      · rw [hown.external issue hissue other hother hin]
    · exact fun heq => .inl (append_inj heq)

omit [Unicode] in
theorem keptBy_of_oneOf {entries : List (String × List String)}
    (h : Labelled.OneOf (· ∈ scenarioLabels scenario) entries) : KeptBy (Sound scenario) entries := by
  intro entry hentry jira jira' n hsound hput hlinks
  obtain ⟨hlabel, hlabels⟩ := h entry hentry
  exact sound_put hsound hlabel hlabels hput hlinks

/-! ## What the seeder has learnt -/

/-- The keys it has are those of the issues, and the links it knows are all that they have. -/
structure Tracked (scenario : ScenarioDefinition V) (p : Progress) (jira : Jira) : Prop where
  keys : ∀ externalId n, p.issueKeys.get? externalId = some n →
    externalLabel externalId ∈ scenarioLabels scenario ∧ jira.issues.Bears (externalLabel externalId) n
  real : ∀ pair ∈ p.existingLinks, ∃ n, jira.Linked n pair
  all : ∀ externalId n, p.issueKeys.get? externalId = some n → ∀ pair, jira.Linked n pair → pair ∈ p.existingLinks

theorem tracked_learnt {p p' : Progress} {jira jira' : Jira} {issue : ScenarioIssue} {n : Nat} (h : Tracked scenario p jira)
    (hsound : Sound scenario jira) (hissue : issue ∈ scenario.issues)
    (hlabels : ∀ l ∈ scenarioLabels scenario, (l ∈ issueLabels issue ↔ l = externalLabel issue.externalId))
    (hwrote : Wrote (externalLabel issue.externalId) (issueLabels issue) p jira p' jira' n)
    (hlearnt : Learnt issue.externalId n p jira p') : Tracked scenario p' jira' := by
  have hlabel := externalLabel_mem hissue
  have hlinked : ∀ m pair, jira'.Linked m pair ↔ jira.Linked m pair := by
    intro m pair
    unfold Jira.Linked
    rw [hwrote.links]
  refine ⟨fun externalId m hm => ?_, fun pair hpair => ?_, fun externalId m hm pair hpair => ?_⟩
  · rw [hlearnt.keys, Dict.get?_set] at hm
    split at hm
    · rename_i hid
      rw [← hid, ← Option.some.inj hm]
      exact ⟨hlabel, (hwrote.put.bears_self hlabels hlabel hsound.exclusive n).mpr rfl⟩
    · obtain ⟨hmem, hbears⟩ := h.keys externalId m hm
      exact ⟨hmem, hwrote.put.bears_mono hlabels hlabel hsound.exclusive hmem hbears⟩
  · simp only [hlinked]
    rcases (hlearnt.links pair).mp hpair with hpair | hpair
    · exact h.real pair hpair
    · exact ⟨n, hpair⟩
  · rw [hlinked] at hpair
    rw [hlearnt.links]
    rw [hlearnt.keys, Dict.get?_set] at hm
    split at hm
    · rw [← Option.some.inj hm] at hpair
      exact .inr hpair
    · exact .inl (h.all externalId m hm pair hpair)

theorem seedIssues_tracks (hown : OwnLabels scenario) {issues : List ScenarioIssue} (hissues : issues ⊆ scenario.issues) :
    ∀ {p : Progress} {jira : Jira}, Sound scenario jira → Tracked scenario p jira →
      (RovoScenarioSeeder.seedIssues scenario.anchorDate issues p).Keeps (answer listing) (Sound scenario) jira
        fun r jira' => ∀ p', r = .ok p' → Tracked scenario p' jira' := by
  induction issues with
  | nil =>
    intro p jira _ htracked p' hp'
    cases hp'
    exact htracked
  | cons issue issues ih =>
    intro p jira hsound htracked
    refine Proc.keeps_andThen ((seedIssue_keeps hsound).mono ?_) ((seedIssue_keeps hsound).mono ?_)
    · rintro r jira₁ ⟨-, hok⟩ p₁ hr
      obtain ⟨-, n, hwrote, hlearnt⟩ := hok p₁ hr
      have hissue : issue ∈ scenario.issues := hissues List.mem_cons_self
      obtain ⟨hlabel, hlabels⟩ := oneOf_issueEntries hown _ (List.mem_map.mpr ⟨issue, hissue, rfl⟩)
      exact ih (fun other hother => hissues (List.mem_cons_of_mem _ hother))
        (sound_put hsound hlabel hlabels hwrote.put hwrote.links)
        (tracked_learnt htracked hsound hissue hlabels hwrote hlearnt)
    · intro r jira₁ _ e _ p' hp'
      cases hp'

/-! ## Links -/

omit [Unicode] in
theorem joins_link (jira : Jira) (link : Link) (m n : Nat) (hknown : link.inwardIssue ∈ jira.issues.numbers ∧
    link.outwardIssue ∈ jira.issues.numbers) (htype : link.type = "Blocks") : (jira.link link).joins m n =
      jira.joins m n + if s(link.inwardIssue, link.outwardIssue) = s(m, n) then 1 else 0 := by
  unfold Jira.joins Jira.link
  rw [dif_pos hknown]
  simp only [List.countP_append, List.countP_singleton, htype, beq_self_eq_true, Bool.true_and, beq_iff_eq]

omit [Unicode] in
theorem linked_link (jira : Jira) (link : Link) (n : Nat) (pair : Sym2 Nat) (hknown : link.inwardIssue ∈ jira.issues.numbers ∧
    link.outwardIssue ∈ jira.issues.numbers) (htype : link.type = "Blocks") : (jira.link link).Linked n pair ↔
      jira.Linked n pair ∨ (link.inwardIssue = n ∨ link.outwardIssue = n) ∧
        s(link.inwardIssue, link.outwardIssue) = pair := by
  unfold Jira.Linked Jira.link
  rw [dif_pos hknown]
  simp only [List.mem_append, List.mem_singleton, or_and_right, exists_or, exists_eq_left, htype, true_and]

omit [Unicode] in
theorem issues_link (jira : Jira) (link : Link) : (jira.link link).issues = jira.issues := by
  unfold Jira.link
  split <;> rfl

omit [Unicode] in
/-- Two issues of the seeding are joined when their pair is among the links it knows. -/
theorem Tracked.joined_iff {p : Progress} {jira : Jira} (h : Tracked scenario p jira) {externalId : String} {m : Nat}
    (hkey : p.issueKeys.get? externalId = some m) (n : Nat) : 0 < jira.joins m n ↔ s(m, n) ∈ p.existingLinks := by
  rw [joins_pos]
  refine ⟨h.all _ _ hkey _, fun hpair => ?_⟩
  obtain ⟨_, link, hlink, htype, -, hends⟩ := h.real _ hpair
  refine ⟨link, hlink, htype, ?_, hends⟩
  rcases Sym2.eq_iff.mp hends with ⟨hm, -⟩ | ⟨-, hm⟩
  · exact .inl hm
  · exact .inr hm

omit [Unicode] in
/-- What is linked of two issues that were not joined. -/
theorem sound_link {jira : Jira} {m n : Nat} (h : Sound scenario jira)
    (hknown : n ∈ jira.issues.numbers ∧ m ∈ jira.issues.numbers) (hjoins : ¬ 0 < jira.joins m n) :
    Sound scenario (jira.link ⟨"Blocks", n, m⟩) := by
  refine ⟨?_, ?_⟩
  · rw [issues_link]
    exact h.exclusive
  · unfold Hosts
    intro i j hi hj
    rw [issues_link] at hi hj
    rw [joins_link jira ⟨"Blocks", n, m⟩ i j hknown rfl]
    split
    · -- No other two are joined by it.
      rename_i hpair
      have hsame : jira.joins i j = jira.joins m n := by
        unfold Jira.joins
        rw [← hpair, Sym2.eq_swap]
      rw [hsame, Nat.eq_zero_of_not_pos hjoins]
    · exact h.one_link i j hi hj

omit [Unicode] in
theorem tracked_link {p : Progress} {jira : Jira} {m n : Nat} (h : Tracked scenario p jira)
    (hknown : n ∈ jira.issues.numbers ∧ m ∈ jira.issues.numbers) :
    Tracked scenario { p with existingLinks := p.existingLinks ++ [s(m, n)] } (jira.link ⟨"Blocks", n, m⟩) := by
  have hlinked := fun i pair => linked_link jira ⟨"Blocks", n, m⟩ i pair hknown rfl
  refine ⟨fun externalId i hi => ?_, fun pair hpair => ?_, fun externalId i hi pair hpair => ?_⟩
  · rw [issues_link]
    exact h.keys externalId i hi
  · rcases List.mem_append.mp hpair with hpair | hpair
    · obtain ⟨i, hi⟩ := h.real pair hpair
      exact ⟨i, (hlinked i pair).mpr (.inl hi)⟩
    · rw [List.mem_singleton.mp hpair]
      exact ⟨m, (hlinked m _).mpr (.inr ⟨.inr rfl, Sym2.eq_swap⟩)⟩
  · rcases (hlinked i pair).mp hpair with hpair | ⟨-, hpair⟩
    · exact List.mem_append_left _ (h.all externalId i hi pair hpair)
    · refine List.mem_append_right _ (List.mem_singleton.mpr ?_)
      rw [← hpair, Sym2.eq_swap]

/-- What linking some of the dependencies leaves, if it does not raise. -/
structure LinkedIssues (dependencies : List (String × String)) (p : Progress) (jira : Jira) (p' : Progress)
    (jira' : Jira) : Prop where
  issues : jira'.issues = jira.issues
  created : p'.created = p.created
  keys : p'.issueKeys = p.issueKeys
  more : ∀ m n, jira.joins m n ≤ jira'.joins m n
  joined : ∀ dependency ∈ dependencies, ∀ m n, p.issueKeys.get? dependency.1 = some m →
    p.issueKeys.get? dependency.2 = some n → 0 < jira'.joins m n
  same : (∀ dependency ∈ dependencies, ∀ m n, p.issueKeys.get? dependency.1 = some m →
    p.issueKeys.get? dependency.2 = some n → 0 < jira.joins m n) → jira'.links = jira.links

omit [Unicode] in
theorem linkIssue_keeps {dependency : String × String} {p : Progress} {jira : Jira} (hsound : Sound scenario jira)
    (htracked : Tracked scenario p jira) (hissue : (p.issueKeys.get? dependency.2).isSome = true) :
    (RovoScenarioSeeder.linkIssue dependency p).Keeps (answer listing) (Sound scenario) jira fun r jira' =>
      Sound scenario jira' ∧
        ∀ p', r = .ok p' → Tracked scenario p' jira' ∧ LinkedIssues [dependency] p jira p' jira' := by
  unfold RovoScenarioSeeder.linkIssue
  obtain ⟨issueKey, hissueKey⟩ := Option.isSome_iff_exists.mp hissue
  cases hkey : p.issueKeys.get? dependency.1 with
  | none => exact ⟨hsound, fun _ h => (by cases h)⟩
  | some key =>
    rw [hissueKey]
    dsimp only
    have hjoins := htracked.joined_iff hkey issueKey
    by_cases hexists : s(key, issueKey) ∈ p.existingLinks
    · rw [if_pos hexists]
      refine ⟨hsound, ?_⟩
      rintro p' ⟨⟩
      refine ⟨htracked, rfl, rfl, rfl, fun _ _ => Nat.le_refl _, ?_, fun _ => rfl⟩
      intro d hd m n hm hn
      rw [List.mem_singleton.mp hd] at hm hn
      rw [hkey] at hm
      rw [hissueKey] at hn
      rw [← Option.some.inj hm, ← Option.some.inj hn]
      exact hjoins.mpr hexists
    · rw [if_neg hexists]
      have hknown : issueKey ∈ jira.issues.numbers ∧ key ∈ jira.issues.numbers :=
        ⟨Labelled.mem_numbers_of_bears (htracked.keys _ _ hissueKey).2,
          Labelled.mem_numbers_of_bears (htracked.keys _ _ hkey).2⟩
      have hcount := fun m n => joins_link jira ⟨"Blocks", issueKey, key⟩ m n hknown rfl
      refine keeps_link hsound ⟨sound_link hsound hknown fun hpos => hexists (hjoins.mp hpos), ?_⟩
      rintro p' ⟨⟩
      refine ⟨tracked_link htracked hknown, issues_link _ _, rfl, rfl, ?_, ?_, ?_⟩
      · intro m n
        rw [hcount]
        exact Nat.le_add_right _ _
      · intro d hd m n hm hn
        rw [List.mem_singleton.mp hd] at hm hn
        rw [hkey] at hm
        rw [hissueKey] at hn
        rw [← Option.some.inj hm, ← Option.some.inj hn, hcount, if_pos Sym2.eq_swap]
        exact Nat.succ_pos _
      · intro hall
        exact absurd (hjoins.mp (hall dependency (List.mem_singleton.mpr rfl) key issueKey hkey hissueKey)) hexists

omit [Unicode] in
theorem LinkedIssues.cons {dependency : String × String} {dependencies : List (String × String)}
    {p p' p'' : Progress} {jira jira' jira'' : Jira} (h : LinkedIssues [dependency] p jira p' jira')
    (hrest : LinkedIssues dependencies p' jira' p'' jira'') : LinkedIssues (dependency :: dependencies) p jira p'' jira'' := by
  have hfirst : dependency ∈ [dependency] := List.mem_singleton.mpr rfl
  refine ⟨hrest.issues.trans h.issues, hrest.created.trans h.created, hrest.keys.trans h.keys, ?_, ?_, ?_⟩
  · exact fun m n => (h.more m n).trans (hrest.more m n)
  · intro d hd m n hm hn
    rcases List.mem_cons.mp hd with rfl | hd
    · exact (h.joined d hfirst m n hm hn).trans_le (hrest.more m n)
    · rw [← h.keys] at hm hn
      exact hrest.joined d hd m n hm hn
  · intro hall
    rw [← h.same fun d hd => hall d (List.mem_cons.mpr (.inl (List.mem_singleton.mp hd)))]
    refine hrest.same fun d hd m n hm hn => ?_
    rw [h.keys] at hm hn
    exact (hall d (List.mem_cons_of_mem _ hd) m n hm hn).trans_le (h.more m n)

omit [Unicode] in
theorem linkIssues_keeps (listing : Listing) (dependencies : List (String × String)) : ∀ {p : Progress} {jira : Jira},
    Sound scenario jira → Tracked scenario p jira →
      (∀ dependency ∈ dependencies, (p.issueKeys.get? dependency.2).isSome = true) →
      (RovoScenarioSeeder.linkIssues dependencies p).Keeps (answer listing) (Sound scenario) jira fun r jira' =>
        Sound scenario jira' ∧ ∀ p', r = .ok p' → LinkedIssues dependencies p jira p' jira' := by
  induction dependencies with
  | nil =>
    intro p jira hsound _ _
    refine ⟨hsound, ?_⟩
    rintro p' ⟨⟩
    exact ⟨rfl, rfl, rfl, fun _ _ => Nat.le_refl _, fun _ h => (by cases h), fun _ => rfl⟩
  | cons dependency dependencies ih =>
    intro p jira hsound htracked hissues
    have hfirst := hissues dependency List.mem_cons_self
    refine Proc.keeps_andThen ((linkIssue_keeps hsound htracked hfirst).mono ?_)
      ((linkIssue_keeps hsound htracked hfirst).mono ?_)
    · rintro r jira₁ ⟨hsound₁, hok⟩ p₁ hr
      obtain ⟨htracked₁, hlinked⟩ := hok p₁ hr
      refine (ih hsound₁ htracked₁ fun d hd => ?_).mono ?_
      · rw [hlinked.keys]
        exact hissues d (List.mem_cons_of_mem _ hd)
      · rintro r₂ jira₂ ⟨hsound₂, hok₂⟩
        exact ⟨hsound₂, fun p₂ hp₂ => hlinked.cons (hok₂ p₂ hp₂)⟩
    · rintro r jira₁ ⟨hsound₁, -⟩ e _
      exact ⟨hsound₁, fun _ h => (by cases h)⟩

/-! ## A run -/

omit [Unicode] in
theorem mem_dependencies {issues : List ScenarioIssue} {dependency : String × String} :
    dependency ∈ RovoScenarioSeeder.dependencies issues ↔
      ∃ issue ∈ issues, dependency.1 ∈ issue.dependencies ∧ dependency.2 = issue.externalId := by
  unfold RovoScenarioSeeder.dependencies
  simp only [List.mem_flatMap, List.mem_map]
  refine exists_congr fun issue => and_congr_right fun _ => ?_
  constructor
  · rintro ⟨name, hname, rfl⟩
    exact ⟨hname, rfl⟩
  · rintro ⟨hname, hid⟩
    exact ⟨dependency.1, hname, Prod.ext rfl hid.symm⟩

/-- What a run does that completes. -/
structure Seeded (scenario : ScenarioDefinition V) (jira : Jira) (result : OperationResult) (jira' : Jira) : Prop where
  sound : Sound scenario jira'
  puts : Labelled.Puts (profileEntries scenario.profiles ++ issueEntries scenario.issues) jira.issues jira'.issues
  counted : result.created + jira.issues.numbers.length = jira'.issues.numbers.length
  more : ∀ m n, jira.joins m n ≤ jira'.joins m n
  joined : ∀ issue ∈ scenario.issues, ∀ dependency ∈ issue.dependencies, ∀ m n,
    jira'.issues.Bears (externalLabel dependency) m → jira'.issues.Bears (externalLabel issue.externalId) n →
      0 < jira'.joins m n
  same : (∀ issue ∈ scenario.issues, ∀ dependency ∈ issue.dependencies, ∀ m n,
    jira'.issues.Bears (externalLabel dependency) m → jira'.issues.Bears (externalLabel issue.externalId) n →
      0 < jira.joins m n) → jira'.links = jira.links

omit [Unicode] in
/-- The number of an issue that has been seeded is the one that bears its label. -/
theorem key_iff {p : Progress} {jira : Jira} (htracked : Tracked scenario p jira) (hsound : Sound scenario jira)
    {externalId : String} (hkeyed : (p.issueKeys.get? externalId).isSome = true) (n : Nat) :
    p.issueKeys.get? externalId = some n ↔ jira.issues.Bears (externalLabel externalId) n := by
  obtain ⟨m, hm⟩ := Option.isSome_iff_exists.mp hkeyed
  obtain ⟨hlabel, hbears⟩ := htracked.keys externalId m hm
  refine ⟨fun h => (htracked.keys externalId n h).2, fun h => ?_⟩
  rw [hm, hsound.exclusive.once _ m n hlabel hbears h]

/-- The three parts of a run together. -/
theorem seeded_of_parts {jira jira₁ jira₂ jira₃ : Jira} {p p₁ p₂ p₃ : Progress}
    (hcompletes : Completes scenario) (hcreated : p.created = 0) (hkeys : ∀ externalId, p₁.issueKeys.get? externalId = none)
    (hprofiles : WroteAll (profileEntries scenario.profiles) p jira p₁ jira₁)
    (hissues : SeededIssues scenario.anchorDate scenario.issues p₁ jira₁ p₂ jira₂)
    (htracked : Tracked scenario p₂ jira₂) (hsound : Sound scenario jira₂) (hsound' : Sound scenario jira₃)
    (hlinked : LinkedIssues (RovoScenarioSeeder.dependencies scenario.issues) p₂ jira₂ p₃ jira₃) :
    Seeded scenario jira ⟨p₃.created, p₃.changed, 0⟩ jira₃ := by
  have hkeyed : ∀ externalId, (p₂.issueKeys.get? externalId).isSome = true ↔
      externalId ∈ scenario.issues.map (·.externalId) := by
    intro externalId
    rw [hissues.keyed, hkeys]
    simp
  have hknown : ∀ issue ∈ scenario.issues, ∀ dependency ∈ issue.dependencies,
      (p₂.issueKeys.get? dependency).isSome = true := fun issue hissue dependency hdependency =>
    (hkeyed dependency).mpr (hcompletes.dependencies issue hissue dependency hdependency)
  have hown : ∀ issue ∈ scenario.issues, (p₂.issueKeys.get? issue.externalId).isSome = true := fun issue hissue =>
    (hkeyed _).mpr (List.mem_map.mpr ⟨issue, hissue, rfl⟩)
  have hjoins : ∀ m n, jira₂.joins m n = jira.joins m n := by
    intro m n
    unfold Jira.joins
    rw [hissues.wrote.links, hprofiles.links]
  refine ⟨hsound', ?_, ?_, fun m n => ?_, fun issue hissue dependency hdependency m n hm hn => ?_, fun hall => ?_⟩
  · rw [hlinked.issues]
    exact Labelled.puts_append.mpr ⟨_, hprofiles.puts, hissues.wrote.puts⟩
  · have h₁ := hprofiles.counted
    have h₂ := hissues.wrote.counted
    rw [hlinked.issues]
    show p₃.created + _ = _
    rw [hlinked.created]
    omega
  · rw [← hjoins]
    exact hlinked.more m n
  · rw [hlinked.issues] at hm hn
    exact hlinked.joined (dependency, issue.externalId) (mem_dependencies.mpr ⟨issue, hissue, hdependency, rfl⟩) m n
      ((key_iff htracked hsound (hknown issue hissue dependency hdependency) m).mpr hm)
      ((key_iff htracked hsound (hown issue hissue) n).mpr hn)
  · rw [hlinked.same ?_, hissues.wrote.links, hprofiles.links]
    intro pair hpair m n hm hn
    obtain ⟨issue, hissue, hdependency, hid⟩ := mem_dependencies.mp hpair
    rw [hid] at hn
    rw [hjoins]
    refine hall issue hissue pair.1 hdependency m n ?_ ?_
    · rw [hlinked.issues]
      exact (key_iff htracked hsound (hknown issue hissue pair.1 hdependency) m).mp hm
    · rw [hlinked.issues]
      exact (key_iff htracked hsound (hown issue hissue) n).mp hn

theorem seed_keeps (listing : Listing) (hcompletes : Completes scenario) (hown : OwnLabels scenario) {jira : Jira} (hsound : Sound scenario jira) :
    (RovoScenarioSeeder.seed scenario).Keeps (answer listing) (Sound scenario) jira fun r jira' =>
      Sound scenario jira' ∧ ∀ result, r = .ok result → Seeded scenario jira result jira' := by
  unfold RovoScenarioSeeder.seed
  rw [hcompletes.scope]
  dsimp only
  refine Proc.keeps_bind ((seedProfiles_keeps (keptBy_of_oneOf oneOf_profileEntries) hsound).mono ?_)
  rintro p₁ jira₁ ⟨hsound₁, hprofiles, hkeys₁, hlinks₁⟩
  have htracked₁ : Tracked scenario p₁ jira₁ := by
    refine ⟨fun externalId n hn => ?_, fun pair hpair => ?_, fun externalId n hn => ?_⟩
    · rw [hkeys₁] at hn
      cases hn
    · rw [hlinks₁] at hpair
      cases hpair
    · rw [hkeys₁] at hn
      cases hn
  have hissues := (seedIssues_keeps listing scenario.anchorDate
    (keptBy_of_oneOf (oneOf_issueEntries hown)) p₁ jira₁ hsound₁).and
      (seedIssues_tracks hown (List.Subset.refl _) hsound₁ htracked₁)
  refine Proc.keeps_andThen (hissues.mono ?_) (hissues.mono ?_)
  · rintro r jira₂ ⟨⟨hsound₂, -, hok⟩, htracked⟩ p₂ hr
    have hseeded := hok p₂ hr
    have htracked₂ := htracked p₂ hr
    have hkeyed : ∀ issue ∈ scenario.issues, (p₂.issueKeys.get? issue.externalId).isSome = true := fun issue hissue =>
      (hseeded.keyed _).mpr (.inl (List.mem_map.mpr ⟨issue, hissue, rfl⟩))
    have hlinking := linkIssues_keeps listing (RovoScenarioSeeder.dependencies scenario.issues)
      hsound₂ htracked₂ fun dependency hdependency => by
        obtain ⟨issue, hissue, -, hid⟩ := mem_dependencies.mp hdependency
        rw [hid]
        exact hkeyed issue hissue
    refine Proc.keeps_andThen (hlinking.mono ?_) (hlinking.mono ?_)
    · rintro r₃ jira₃ ⟨hsound₃, hok₃⟩ p₃ hr₃
      refine ⟨hsound₃, ?_⟩
      rintro result ⟨⟩
      have hnone : ∀ externalId, p₁.issueKeys.get? externalId = none := by
        intro externalId
        rw [hkeys₁]
        rfl
      exact seeded_of_parts hcompletes rfl hnone hprofiles hseeded htracked₂ hsound₂ hsound₃ (hok₃ p₃ hr₃)
    · rintro r₃ jira₃ ⟨hsound₃, -⟩ e _
      exact ⟨hsound₃, fun _ h => (by cases h)⟩
  · rintro r jira₂ ⟨⟨hsound₂, -, -⟩, -⟩ e _
    exact ⟨hsound₂, fun _ h => (by cases h)⟩

/-! ## Whether it completes -/

omit [Unicode] in
theorem not_ok_of_error {α : Type} (e : Raised) : ¬ ∃ a : α, Except.error e = Except.ok a := by
  rintro ⟨_, h⟩
  cases h

omit [Unicode] in
/-- Linking raises exactly if a dependency is not known. -/
theorem linkIssues_ok_iff (listing : Listing) (dependencies : List (String × String)) : ∀ {p : Progress} (jira : Jira),
    (∀ dependency ∈ dependencies, (p.issueKeys.get? dependency.2).isSome = true) →
      (RovoScenarioSeeder.linkIssues dependencies p).Keeps (answer listing) (fun _ => True) jira fun r jira' =>
        ((∃ p', r = .ok p') ↔ ∀ dependency ∈ dependencies, (p.issueKeys.get? dependency.1).isSome = true) ∧
          jira'.issues = jira.issues := by
  induction dependencies with
  | nil => exact fun {p} _ _ => ⟨⟨fun _ _ h => (by cases h), fun _ => ⟨p, rfl⟩⟩, rfl⟩
  | cons dependency dependencies ih =>
    intro p jira h
    have hrest : ∀ d ∈ dependencies, (p.issueKeys.get? d.2).isSome = true := fun d hd => h d (List.mem_cons_of_mem _ hd)
    obtain ⟨issueKey, hissueKey⟩ := Option.isSome_iff_exists.mp (h dependency List.mem_cons_self)
    unfold RovoScenarioSeeder.linkIssues RovoScenarioSeeder.linkIssue
    cases hkey : p.issueKeys.get? dependency.1 with
    | none =>
      refine ⟨iff_of_false (not_ok_of_error _) fun hall => ?_, rfl⟩
      have hsome := hall dependency List.mem_cons_self
      rw [hkey] at hsome
      cases hsome
    | some key =>
      have hcons : (∀ d ∈ dependency :: dependencies, (p.issueKeys.get? d.1).isSome = true) ↔
          ∀ d ∈ dependencies, (p.issueKeys.get? d.1).isSome = true := by
        simp [hkey]
      rw [hissueKey, hcons]
      dsimp only
      split
      · exact ih jira hrest
      · refine ⟨trivial, (ih (p := { p with existingLinks := p.existingLinks ++ [s(key, issueKey)] }) _ hrest).mono ?_⟩
        rintro r jira' ⟨hok, hissues⟩
        exact ⟨hok, hissues.trans (issues_link _ _)⟩

omit [Unicode] in
theorem keptBy_true (entries : List (String × List String)) : KeptBy (fun _ => True) entries :=
  fun _ _ _ _ _ _ _ _ => trivial

/-- A run completes exactly if nothing in the scenario makes it raise: it has written its
    profiles, then its issues. -/
theorem seed_ok_iff (listing : Listing) (scenario : ScenarioDefinition V) (jira : Jira) :
    (RovoScenarioSeeder.seed scenario).Keeps (answer listing) (fun _ => True) jira fun r jira' =>
      ((∃ result, r = .ok result) ↔ Completes scenario) ∧ (Completes scenario → ∃ jira₁ : Jira,
        Labelled.Puts (profileEntries scenario.profiles) jira.issues jira₁.issues ∧
        Labelled.Puts (issueEntries scenario.issues) jira₁.issues jira'.issues) := by
  unfold RovoScenarioSeeder.seed
  cases hscope : validateScenarioScope scenario.environment scenario.projectKey with
  | error e =>
    have hnot : ¬ Completes scenario := fun h => by
      rw [h.scope] at hscope
      cases hscope
    exact ⟨iff_of_false (not_ok_of_error _) hnot, fun h => absurd h hnot⟩
  | ok _ =>
    dsimp only
    refine Proc.keeps_bind ((seedProfiles_keeps (keptBy_true _) trivial).mono ?_)
    rintro p₁ jira₁ ⟨-, hprofiles, hkeys, -⟩
    have hissues := seedIssues_keeps listing scenario.anchorDate
      (keptBy_true (issueEntries scenario.issues)) p₁ jira₁ trivial
    refine Proc.keeps_andThen (hissues.mono ?_) (hissues.mono ?_)
    · rintro r jira₂ ⟨-, -, hok⟩ p₂ hr
      have hseeded := hok p₂ hr
      have hkeyed : ∀ externalId, (p₂.issueKeys.get? externalId).isSome = true ↔
          externalId ∈ scenario.issues.map (·.externalId) := by
        intro externalId
        rw [hseeded.keyed, hkeys]
        exact or_iff_left Bool.false_ne_true
      have hknown : (∀ dependency ∈ RovoScenarioSeeder.dependencies scenario.issues,
          (p₂.issueKeys.get? dependency.1).isSome = true) ↔ Completes scenario := by
        refine ⟨fun h => ⟨hscope, hseeded.fields, fun issue hissue name hname => ?_⟩, fun h dependency hdependency => ?_⟩
        · exact (hkeyed name).mp (h (name, issue.externalId) (mem_dependencies.mpr ⟨issue, hissue, hname, rfl⟩))
        · obtain ⟨issue, hissue, hname, -⟩ := mem_dependencies.mp hdependency
          exact (hkeyed _).mpr (h.dependencies issue hissue _ hname)
      have hlinking := linkIssues_ok_iff listing (RovoScenarioSeeder.dependencies scenario.issues) (p := p₂) jira₂ fun dependency hdependency => by
          obtain ⟨issue, hissue, -, hid⟩ := mem_dependencies.mp hdependency
          rw [hid]
          exact (hkeyed _).mpr (List.mem_map.mpr ⟨issue, hissue, rfl⟩)
      rw [hknown] at hlinking
      refine Proc.keeps_andThen (hlinking.mono ?_) (hlinking.mono ?_)
      · rintro r₃ jira₃ ⟨hiff, hsame⟩ p₃ hr₃
        refine ⟨iff_of_true ⟨_, rfl⟩ (hiff.mp ⟨p₃, hr₃⟩), fun _ => ⟨jira₁, hprofiles.puts, ?_⟩⟩
        rw [hsame]
        exact hseeded.wrote.puts
      · rintro r₃ jira₃ ⟨hiff, hsame⟩ e he
        have hnot : ¬ Completes scenario := fun h => by
          obtain ⟨p₃, hp₃⟩ := hiff.mpr h
          rw [hp₃] at he
          cases he
        exact ⟨iff_of_false (not_ok_of_error _) hnot, fun h => absurd h hnot⟩
    · rintro r jira₂ ⟨-, herror, -⟩ e he
      have hnot : ¬ Completes scenario := fun h => by
        obtain ⟨issue, hissue, hraises⟩ := herror e he
        obtain ⟨fields, hfields⟩ := h.fields issue hissue
        exact hraises fields hfields
      exact ⟨iff_of_false (not_ok_of_error _) hnot, fun h => absurd h hnot⟩

end

end WorkforceRisk.Scenario
