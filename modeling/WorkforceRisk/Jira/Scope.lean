/-
  WorkforceRisk.Jira.Scope — whether a search stays in its project
  (packages/jira-mcp-client/src/jira_mcp_client/client.py `search_issues`).

  The guard wants one text `project = "KEY"` in a query, of the project's key, and no word
  OR. It does not ask where that text stands: under a NOT the query finds the other projects
  (`negated_scope_escapes`), and in a text in single quotes it is no clause at all.

  Proved: all searches that reach Jira are confined to their project exactly if the guard
  refuses the query or every way of it is shut (`search_confined_iff`). A query of a caller,
  which starts with the project's clause, is (`confined_of_guarded`): there the guard only
  has to rule out an OR.
-/

import WorkforceRisk.Evidence.Numbers
import WorkforceRisk.Jira.Client
import WorkforceRisk.Lib.JqlQuery
import WorkforceRisk.Lib.RegexSemantics

namespace WorkforceRisk.Jira

open Lib Lib.Breaker Lib.Jql Historical Evidence Persistence

namespace JiraEvidenceClient

section
variable [TextTables] {client : JiraEvidenceClient} {jql projectKey : String}

theorem checkQuery_ok_iff : client.checkQuery jql projectKey = .ok () ↔ projectKey ∈ client.allowedProjects ∧
    scopedProjects jql = [projectKey] ∧ Pattern.disjunction.search jql.toList = none ∧ jql.toList.length ≤ 1000 := by
  unfold checkQuery
  by_cases hallowed : projectKey ∈ client.allowedProjects
  · by_cases hscoped : scopedProjects jql = [projectKey]
    · by_cases hor : Pattern.disjunction.search jql.toList = none
      · by_cases hlength : jql.toList.length ≤ 1000
        · simp [hallowed, hscoped, hor, hlength, Nat.not_lt.mpr hlength]
        · simp [hallowed, hscoped, hor, hlength, Nat.not_le.mp hlength]
      · simp [hallowed, hscoped, hor, Option.isSome_iff_ne_none]
    · simp [hallowed, hscoped]
  · simp [hallowed]

/-- A search asks Jira, at some time and in some state of the circuit, exactly if the guard lets it. -/
theorem search_called_iff {α : Type} : (∃ circuit, ∃ reading : Reading α, ∃ now,
    Event.called now ∈ (client.searchIssues circuit jql projectKey reading).events) ↔
      client.checkQuery jql projectKey = .ok () := by
  constructor
  · rintro ⟨circuit, reading, now, hcalled⟩
    unfold searchIssues at hcalled
    cases hcheck : client.checkQuery jql projectKey with
    | error error =>
      rw [hcheck] at hcalled
      cases hcalled
    | ok _ => rfl
  · intro hcheck
    let reading : Reading α := ⟨0, fun _ => ⟨0, .raised⟩, 0⟩
    refine ⟨.fresh, reading, 0, ?_⟩
    have hread : client.searchIssues .fresh jql projectKey reading =
        JiraEvidenceClient.Served.after [] (client.read .fresh reading) := by
      unfold searchIssues
      rw [hcheck]
      rfl
    obtain ⟨n, hn⟩ := Nat.exists_eq_succ_of_ne_zero (Nat.one_le_iff_ne_zero.mp client.maxAttempts.2)
    rw [hread]
    show Event.called 0 ∈ [] ++ (client.read .fresh reading).events
    rw [List.nil_append, read, hn]
    exact List.mem_cons_self

/-- Every search that reaches Jira stays in its project. -/
def SearchConfined (client : JiraEvidenceClient) (jql projectKey : String) : Prop :=
  ∀ circuit, ∀ reading : Reading (List JiraIssueEvidence), ∀ now,
    Event.called now ∈ (client.searchIssues circuit jql projectKey reading).events →
      Confined projectKey.toList jql.toList

theorem search_confined_iff (client : JiraEvidenceClient) (jql projectKey : String) :
    client.SearchConfined jql projectKey ↔
      ¬ (projectKey ∈ client.allowedProjects ∧ scopedProjects jql = [projectKey] ∧
        Pattern.disjunction.search jql.toList = none ∧ jql.toList.length ≤ 1000) ∨
      ∀ filter, Jql.Reads jql.toList filter → ∃ f, filter = some f ∧ ∀ way ∈ f.ways true, Shut projectKey.toList way := by
  rw [← checkQuery_ok_iff, ← confined_iff, ← imp_iff_not_or, ← search_called_iff (α := List JiraIssueEvidence)]
  constructor
  · rintro h ⟨circuit, reading, now, hcalled⟩
    exact h circuit reading now hcalled
  · intro h circuit reading now hcalled
    exact h ⟨circuit, reading, now, hcalled⟩

end

/-! ## A negated scope -/

def readsWorkforce : JiraEvidenceClient := ⟨["WRD"], ⟨2, Nat.zero_lt_two⟩, ⟨1, Nat.zero_lt_one⟩, 30⟩

def negatedScope : String := "NOT project = \"WRD\""

theorem negatedScope_guarded : letI := TextTables.ascii
    readsWorkforce.checkQuery negatedScope "WRD" = .ok () := by rfl

/-- The query asks for the issues of the other projects. -/
theorem negatedScope_reads : Jql.Reads negatedScope.toList
    (some (.not (.clause (.compare "project".toList .equals (.text "WRD".toList))))) := by
  refine ⟨[.word "NOT".toList, .word "project".toList, .equals, .text "WRD".toList], by decide +kernel, ?_⟩
  have hclause : Terminal [.word "project".toList, .equals, .text "WRD".toList]
      (signed true (.compare (lower "project".toList) .equals (.text "WRD".toList))) :=
    .compare rfl rfl (.text rfl)
  exact .filtered (.conjunction (.negation (.not rfl (.terminal hclause)))) .nil

theorem negated_scope_escapes : letI := TextTables.ascii
    ¬ readsWorkforce.SearchConfined negatedScope "WRD" := by
  let _ := TextTables.ascii
  intro h
  obtain ⟨circuit, reading, now, hcalled⟩ :=
    (search_called_iff (α := List JiraIssueEvidence)).mpr negatedScope_guarded
  let issue : Issue := ⟨"OTHER".toList, fun _ _ => False, fun _ hboth => hboth.1⟩
  have hfound : Matches some (some (.not (.clause (.compare "project".toList .equals (.text "WRD".toList))))) issue := by
    rintro _ ⟨⟩
    have hnames : projectNames (.compare "project".toList .equals (.text "WRD".toList)) = some ["WRD".toList] := rfl
    refine (asked_false hnames).mpr fun name hname => ?_
    rw [List.mem_singleton.mp hname]
    decide
  exact absurd (h circuit reading now hcalled _ negatedScope_reads some rfl issue hfound) (by decide)

end JiraEvidenceClient

/-! ## The queries of the callers -/

section
variable [TextTables]

/-- Of `re.IGNORECASE` and of words, what is documented of ASCII characters. -/
structure ScopeTables : Prop where
  upper : ∀ c : Char, c.toNat < 128 → c.toUpper ∈ TextTables.variants c
  word_ascii : ∀ c : Char, c.toNat < 128 → Unicode.isWord c = (c.isAlphanum || c == '_')

omit [TextTables] in
theorem isWordChar_of_alphanum {c : Char} (h : (c.isAlphanum || c == '_') = true) : isWordChar c = true := by
  have hreserved : (Jql.reserved.all fun d => !(d.isAlphanum || d == '_')) = true := by rfl
  unfold isWordChar
  have hnot : Jql.reserved.contains c = false := by
    refine Bool.eq_false_iff.mpr fun hin => ?_
    have hout := List.all_eq_true.mp hreserved c (List.contains_iff_mem.mp hin)
    rw [h] at hout
    cases hout
  have hblank : 32 < c.toNat := by
    rcases (Bool.or_eq_true _ _).mp h with h | h
    · rcases (Bool.or_eq_true _ _).mp h with h | h
      · rcases (Bool.or_eq_true _ _).mp h with h | h
        · exact lt_of_lt_of_le (by decide) (UInt32.le_iff_toNat_le.mp (of_decide_eq_true h).1)
        · have hsmall := ((Bool.and_eq_true _ _).mp h).1
          exact lt_of_lt_of_le (by decide) (UInt32.le_iff_toNat_le.mp (of_decide_eq_true hsmall))
      · exact lt_of_lt_of_le (by decide) (digit_bounds h).1
    · rw [beq_iff_eq.mp h]
      decide
  rw [hnot, decide_eq_true hblank]
  rfl

/-- What is of no word in a query is of no word in a pattern. -/
theorem not_word_of_not_wordChar (tables : ScopeTables) {c : Char} (h : isWordChar c = false) :
    Unicode.isWord c = false := by
  refine Bool.eq_false_iff.mpr fun hword => ?_
  by_cases hascii : c.toNat < 128
  · rw [tables.word_ascii c hascii] at hword
    rw [isWordChar_of_alphanum hword] at h
    cases h
  · have hreserved : (Jql.reserved.all fun d => decide (d.toNat < 128)) = true := by rfl
    unfold isWordChar at h
    have hnot : Jql.reserved.contains c = false :=
      Bool.eq_false_iff.mpr fun hin =>
        hascii (of_decide_eq_true (List.all_eq_true.mp hreserved c (List.contains_iff_mem.mp hin)))
    rw [hnot, decide_eq_true (by omega : 32 < c.toNat)] at h
    cases h

theorem not_word_beside (tables : ScopeTables) {c : Option Char} (h : c.any isWordChar = false) :
    c.any Unicode.isWord = false := by
  cases c with
  | none => rfl
  | some c => exact not_word_of_not_wordChar tables h

/-- A word OR of a query is found. -/
theorem disjunction_found (tables : ScopeTables) {text w : List Char} (h : Stands text w) (hor : lower w = "or".toList) :
    Pattern.disjunction.search text ≠ none := by
  obtain ⟨before, after, rfl, hbefore, hafter⟩ := h
  have hspelled : w.map Char.toLower = ['o', 'r'] := hor
  obtain ⟨o, rest, rfl, ho, hrest⟩ := List.map_eq_cons_iff.mp hspelled
  obtain ⟨r, rest, rfl, hr, hrest⟩ := List.map_eq_cons_iff.mp hrest
  obtain rfl := List.map_eq_nil_iff.mp hrest
  have hletter : ∀ {c small : Char}, c.toLower = small → small.isAlpha = true → small.toNat < 128 →
      small.toUpper ∈ TextTables.variants c ∧ Unicode.isWord c = true := by
    rintro c _ rfl halpha hascii
    obtain ⟨hupper, hsame⟩ := toUpper_of_toLower hascii
    have hc := toNat_lt_of_toLower hascii
    rw [← hupper, tables.word_ascii c hc, Char.isAlphanum, hsame, halpha]
    exact ⟨tables.upper c hc, rfl⟩
  obtain ⟨hoIn, hoWord⟩ := hletter ho rfl (by decide)
  obtain ⟨hrIn, hrWord⟩ := hletter hr rfl (by decide)
  have hspells : Regex.Spells TextTables.variants [o, r] "OR" := .cons hoIn (.cons hrIn .nil)
  have hleads : Regex.Leads Pattern.disjunction ⟨before.getLast?, [o, r] ++ after, []⟩ ⟨some r, after, []⟩ := by
    have hstart : boundary before.getLast? ([o, r] ++ after).head? = true := by
      unfold boundary
      rw [not_word_beside tables hbefore]
      exact congrArg (false != ·) hoWord
    have hstop : boundary (some r) after.head? = true := by
      unfold boundary
      rw [not_word_beside tables hafter]
      exact congrArg (· != false) hrWord
    exact Regex.leads_seq (Regex.leads_look hstart) (Regex.leads_seq (Regex.leads_lit hspells)
      (Regex.leads_seq (Regex.leads_look hstop) Regex.leads_empty))
  have hhere : Regex.here Pattern.disjunction (before.getLast?.or none) ([o, r] ++ after) = some ⟨some r, after, []⟩ := by
    rw [Option.or_none]
    exact hleads _ some _ rfl
  have hshorter : after.length < ([o, r] ++ after).length := by
    rw [List.length_append]
    exact Nat.lt_add_of_pos_left (Nat.zero_lt_succ _)
  obtain ⟨m, hm, -⟩ := Regex.findFrom_covers before hhere hshorter (Nat.zero_le _)
  intro hnone
  rw [Regex.search, List.head?_eq_none_iff, Regex.findAll, List.append_assoc] at hnone
  rw [hnone] at hm
  cases hm

/-! ## The queries of the callers -/

omit [TextTables]

/-- Characters of a text in quotes are read one by one. -/
theorem scan_quoted {key : List Char} (h : ∀ c ∈ key, c ≠ '"' ∧ c ≠ '\\') : ∀ read : List Char,
    scan (.quoted '"' read) key = some ([], .quoted '"' (read ++ key)) := by
  induction key with
  | nil =>
    intro read
    rw [List.append_nil]
    rfl
  | cons c key ih =>
    intro read
    obtain ⟨hc, hkey⟩ := List.forall_mem_cons.mp h
    rw [scan, next, if_neg hc.1, if_neg hc.2, Option.bind_some, ih hkey, List.append_assoc]
    rfl

theorem key_chars {projectKey : String} (h : isProjectKey projectKey = true) :
    ∀ c ∈ projectKey.toList, c.isUpper = true ∨ c.isDigit = true := by
  unfold isProjectKey at h
  generalize projectKey.toList = key at h ⊢
  cases key with
  | nil => exact fun c hc => by cases hc
  | cons first key =>
    rw [isProjectKeyChars, Bool.and_eq_true, Bool.and_eq_true] at h
    refine List.forall_mem_cons.mpr ⟨.inl h.1.1, fun c hc => ?_⟩
    have hmore := List.all_eq_true.mp h.2 c hc
    rwa [Bool.or_eq_true] at hmore

/-- What a key has is neither a quote nor a backslash nor a hyphen, and is in capital letters. -/
theorem key_char_plain {c : Char} (h : c.isUpper = true ∨ c.isDigit = true) :
    (c ≠ '"' ∧ c ≠ '\\') ∧ c ≠ '-' ∧ c.toUpper = c := by
  have hbounds : 48 ≤ c.toNat ∧ c.toNat ≤ 90 := by
    rcases h with h | h
    · have hupper := of_decide_eq_true h
      exact ⟨le_trans (by decide) (UInt32.le_iff_toNat_le.mp hupper.1), UInt32.le_iff_toNat_le.mp hupper.2⟩
    · exact ⟨(digit_bounds h).1, (digit_bounds h).2.trans (by decide)⟩
  have hne : ∀ d : Char, d.toNat < 48 ∨ 90 < d.toNat → c ≠ d := by
    rintro d hd rfl
    omega
  refine ⟨⟨hne _ (.inl (by decide)), hne _ (.inr (by decide))⟩, hne _ (.inl (by decide)), ?_⟩
  refine dif_neg fun hlower => ?_
  have hle : 97 ≤ c.toNat := UInt32.le_iff_toNat_le.mp hlower.1
  omega

/-- The beginning of a query that asks for a project. -/
theorem lex_project {projectKey : String} (hkey : isProjectKey projectKey = true) {rest : List Char} {tokens : List Token}
    (h : lex ("project = \"".toList ++ (projectKey.toList ++ ("\" AND ".toList ++ rest))) = some tokens) :
    ∃ more, tokens = .word "project".toList :: .equals :: .text projectKey.toList :: .word "AND".toList :: more := by
  have hfield : scan .between "project = \"".toList = some ([.word "project".toList, .equals], .quoted '"' []) := by rfl
  have hname : scan (.quoted '"' []) projectKey.toList = some ([], .quoted '"' projectKey.toList) :=
    scan_quoted (fun c hc => (key_char_plain (key_chars hkey c hc)).1) []
  have hand : scan (.quoted '"' projectKey.toList) "\" AND ".toList =
      some ([.text projectKey.toList, .word "AND".toList], .between) := by rfl
  obtain ⟨scanned, hscanned, h⟩ := Option.bind_eq_some_iff.mp h
  obtain ⟨last, -, rfl⟩ := Option.map_eq_some_iff.mp h
  simp only [scan_append, hfield, hname, hand, Option.bind_some] at hscanned
  cases hrest : scan .between rest with
  | none =>
    rw [hrest] at hscanned
    cases hscanned
  | some more =>
    rw [hrest] at hscanned
    cases hscanned
    exact ⟨_, rfl⟩

/-- A query that the guard lets through and that starts with the clause of the project is
    confined to it. -/
theorem confined_of_guarded [TextTables] (tables : ScopeTables) {client : JiraEvidenceClient} {jql projectKey : String}
    {rest : List Char} (hcheck : client.checkQuery jql projectKey = .ok ()) (hkey : isProjectKey projectKey = true)
    (hjql : jql.toList = "project = \"".toList ++ (projectKey.toList ++ ("\" AND ".toList ++ rest))) :
    Confined projectKey.toList jql.toList := by
  obtain ⟨-, -, hor, -⟩ := JiraEvidenceClient.checkQuery_ok_iff.mp hcheck
  refine confined_of_leading (fun tokens htokens => ?_) (fun tokens htokens t ht => ?_)
    (show nameOf (.word "project".toList) = some "project".toList from rfl) rfl
    (show nameOf (.text projectKey.toList) = some projectKey.toList from rfl) ?_
  · rw [hjql] at htokens
    obtain ⟨more, rfl⟩ := lex_project hkey htokens
    exact ⟨_, rfl, fun h => by cases h⟩
  · cases t with
    | word w =>
      refine Bool.eq_false_iff.mpr fun hword => ?_
      exact disjunction_found tables (stands_of_mem_lex htokens ht) (beq_iff_eq.mp hword) hor
    | _ => rfl
  · refine (List.map_congr_left fun c hc => ?_).trans (List.map_id _)
    exact (key_char_plain (key_chars hkey c hc)).2.2

/-- The query of `JiraRiskEvidenceProvider.get_current_dossier`. -/
def dossierJql (projectKey employeeId : String) : String :=
  "project = \"" ++ projectKey ++ "\" AND labels = \"workforce-employee:" ++ employeeId ++
    "\" AND labels != \"workforce-record:employee-profile\" AND statusCategory != Done ORDER BY duedate ASC, key ASC"

/-- A dossier is searched for in its project, whatever stands for the employee. -/
theorem dossier_confined [TextTables] (tables : ScopeTables) (client : JiraEvidenceClient) {projectKey : String}
    (hkey : isProjectKey projectKey = true) (employeeId : String) :
    client.SearchConfined (dossierJql projectKey employeeId) projectKey := by
  intro circuit reading now hcalled
  have hcheck := JiraEvidenceClient.search_called_iff.mp ⟨circuit, reading, now, hcalled⟩
  have hjql : (dossierJql projectKey employeeId).toList = "project = \"".toList ++ (projectKey.toList ++
      ("\" AND ".toList ++ ("labels = \"workforce-employee:" ++ employeeId ++
        "\" AND labels != \"workforce-record:employee-profile\" AND statusCategory != Done ORDER BY duedate ASC, key ASC").toList)) := by
    unfold dossierJql
    simp only [String.toList_append, List.append_assoc]
    rfl
  exact confined_of_guarded tables hcheck hkey hjql

theorem ascii_scopeTables : letI := TextTables.ascii
    ScopeTables :=
  letI := TextTables.ascii
  ⟨fun _ _ => List.mem_cons_of_mem _ (List.mem_cons_of_mem _ List.mem_cons_self), fun _ _ => rfl⟩

end

end WorkforceRisk.Jira
