/-
  WorkforceRisk.Tasks.Confinement — whether a question about tasks stays in its project
  (services/agent-api/src/agent_api/task_queries.py `parse_task_query`,
  `JiraTaskQueryTool.query`).

  An issue that a question names is looked at for its project, and a search starts with the
  project's clause, whatever employee is put into it. The issue of the answer before is taken
  as the request has it: with one issue of another project there, the question reads that
  one (`prior_issue_strays`).

  Proved: a question stays inside exactly if it does not stray so (`stays_inside_iff`).
-/

import WorkforceRisk.Jira.Scope
import WorkforceRisk.Tasks.Query

namespace WorkforceRisk.Tasks

open Lib Lib.Breaker Lib.Jql Persistence Historical Evidence
open WorkforceRisk.Jira (JiraEvidenceClient JiraIssueEvidence Reading ScopeTables key_chars key_char_plain
  confined_of_guarded)

/-- The project of an issue's key. -/
def projectPart (issueKey : String) : String := (WorkforceRisk.Jira.partition issueKey).1

/-- What is asked for is of a project. -/
def Asked.Inside (projectKey : String) : Asked → Prop
  | nothing => True
  | issue issueKey => projectPart issueKey = projectKey
  | search jql key => key = projectKey ∧ Confined projectKey.toList jql.toList

section
variable [TextTables] {client : JiraEvidenceClient} {question : String} {references : EntityReferences} {today : Date}
  {previous : Option GroundedAnswerContext}

/-- A query names no issue but of the project, the client's guard takes its search or
    nothing is asked, and whatever the tool asks of Jira is of the project. -/
structure StaysInside (client : JiraEvidenceClient) (question : String) (references : EntityReferences) (today : Date)
    (previous : Option GroundedAnswerContext) : Prop where
  keys : ∀ query, parseTaskQuery question references today previous = .ok query →
    ∀ issueKey ∈ query.issueKey, projectPart issueKey = references.projectKey
  guarded : ∀ query, parseTaskQuery question references today previous = .ok query → ∀ jql ∈ query.jql,
    client.checkQuery jql references.projectKey = .ok () ∨ ∀ circuit, ∀ reading : Reading (List JiraIssueEvidence),
      (client.searchIssues circuit jql references.projectKey reading).events = []
  reads : ∀ circuit answers correlationId now,
    Event.called now ∈ (JiraTaskQueryTool.query client circuit answers today question references correlationId
      previous).events →
      (JiraTaskQueryTool.query client circuit answers today question references correlationId previous).asked.Inside
        references.projectKey

/-- A question speaks of the task of an answer that had one, of another project. -/
def Strays (question : String) (references : EntityReferences) (previous : Option GroundedAnswerContext) : Prop :=
  refersBack question = true ∧ ∃ context prior, previous = some context ∧ context.issues = [prior] ∧
    projectPart prior.key ≠ references.projectKey

/-! ## What a question is read as -/

/-- The queries that a question can be read as. -/
inductive Parsed (question : String) (references : EntityReferences) (previous : Option GroundedAnswerContext) :
    TaskQuery → Prop
  | prior (context : GroundedAnswerContext) (prior : TaskFact) (hback : refersBack question = true)
      (hprevious : previous = some context) (hissues : context.issues = [prior]) : Parsed question references previous
        ⟨.referencedTaskAssignee, references.projectKey, some prior.key, none, none, none⟩
  | ambiguous : Parsed question references previous ⟨.ambiguousReferent, references.projectKey, none, none, none, none⟩
  | named (kind : TaskQueryKind) (issueKey : String)
      (hstart : startsWith issueKey (references.projectKey ++ "-") = true) :
      Parsed question references previous ⟨kind, references.projectKey, some issueKey, none, none, none⟩
  | search (kind : TaskQueryKind) (employeeId : Option String) (dueBy : Option Date) (rest : String) :
      Parsed question references previous
        ⟨kind, references.projectKey, none, employeeId, dueBy, some (projectQuery references.projectKey rest)⟩

theorem referencedTask_parsed {query : TaskQuery} (hback : refersBack question = true)
    (h : referencedTask references previous = .ok query) : Parsed question references previous query := by
  unfold referencedTask at h
  cases previous with
  | none => cases h
  | some context =>
    rw [Option.map_some, Option.getD_some] at h
    split at h
    · cases h
    · rename_i prior hissues
      cases h
      exact .prior context prior hback rfl hissues
    · cases h
      exact .ambiguous

theorem employeeTasks_parsed {query : TaskQuery} (h : employeeTasks question references today = .ok query) :
    Parsed question references previous query := by
  obtain ⟨employeeId, -, h⟩ := except_bind_ok.mp h
  split at h
  · cases hdue : tomorrow today with
    | error e =>
      rw [hdue] at h
      cases h
    | ok dueBy =>
      rw [hdue] at h
      cases h
      exact .search _ _ _ _
  · cases h

theorem parse_parsed {query : TaskQuery} (h : parseTaskQuery question references today previous = .ok query) :
    Parsed question references previous query := by
  unfold parseTaskQuery at h
  split at h
  · rename_i hback
    exact referencedTask_parsed hback h
  · split at h
    · rename_i issueKey _
      unfold namedIssue at h
      split at h
      · rename_i hstart
        rw [← Except.ok.inj h]
        exact .named _ issueKey hstart
      · cases h
    · split at h
      · rw [← Except.ok.inj h]
        exact .search _ none none _
      · exact employeeTasks_parsed h

omit [TextTables] in
/-- What a query asks for is what it names. -/
theorem asks_ok {query : TaskQuery} {asked : Asked} (h : query.asks = .ok asked) : asked = .nothing ∨
    (∃ issueKey, query.issueKey = some issueKey ∧ asked = .issue issueKey) ∨
    ∃ jql, query.jql = some jql ∧ asked = .search jql query.projectKey := by
  unfold TaskQuery.asks at h
  split at h
  · cases h
    exact .inl rfl
  iterate 4
    · split at h
      · rename_i issueKey hissue
        cases h
        exact .inr (.inl ⟨issueKey, hissue, rfl⟩)
      · cases h
  · split at h
    · rename_i jql _ _ hjql _ _
      cases h
      exact .inr (.inr ⟨jql, hjql, rfl⟩)
    · cases h
  · split at h
    · rename_i jql hjql
      cases h
      exact .inr (.inr ⟨jql, hjql, rfl⟩)
    · cases h

/-! ## What is inside -/

omit [TextTables] in
theorem projectPart_eq {issueKey : String} (hstart : startsWith issueKey (references.projectKey ++ "-") = true) :
    projectPart issueKey = references.projectKey := by
  obtain ⟨rest, hrest⟩ := startsWith_iff.mp hstart
  have hplain : ∀ c ∈ references.projectKey.toList, (c != '-') = true := fun c hc =>
    bne_iff_ne.mpr (key_char_plain (key_chars references.projectKey_ok c hc)).2.1
  have hhyphen : "-".toList = ['-'] := rfl
  unfold projectPart WorkforceRisk.Jira.partition
  rw [← hrest, String.toList_append, hhyphen, List.append_assoc, List.singleton_append,
    List.takeWhile_append_of_pos hplain, List.takeWhile_cons_of_neg (by decide), List.append_nil, String.ofList_toList]

theorem search_inside (tables : ScopeTables) {rest : String} {circuit : Circuit Rat}
    {reading : Reading (List JiraIssueEvidence)} {now : Rat} (hcalled : Event.called now ∈ (client.searchIssues circuit
      (projectQuery references.projectKey rest) references.projectKey reading).events) :
    Confined references.projectKey.toList (projectQuery references.projectKey rest).toList := by
  have hcheck := JiraEvidenceClient.search_called_iff.mp ⟨circuit, reading, now, hcalled⟩
  have hjql : (projectQuery references.projectKey rest).toList =
      "project = \"".toList ++ (references.projectKey.toList ++ ("\" AND ".toList ++ rest.toList)) := by
    unfold projectQuery
    simp only [String.toList_append, List.append_assoc]
  exact confined_of_guarded tables hcheck references.projectKey_ok hjql

theorem key_inside (h : ¬ Strays question references previous) {query : TaskQuery}
    (hparsed : Parsed question references previous query) :
    ∀ issueKey ∈ query.issueKey, projectPart issueKey = references.projectKey := by
  cases hparsed with
  | prior context prior hback hprevious hissues =>
    rintro _ ⟨⟩
    by_contra hother
    exact h ⟨hback, context, prior, hprevious, hissues, hother⟩
  | ambiguous =>
    rintro _ ⟨⟩
  | named kind issueKey hstart =>
    rintro _ ⟨⟩
    exact projectPart_eq hstart
  | search kind employeeId dueBy rest =>
    rintro _ ⟨⟩

theorem parsed_project {query : TaskQuery} (hparsed : Parsed question references previous query) :
    query.projectKey = references.projectKey ∧
      ∀ jql ∈ query.jql, ∃ rest, jql = projectQuery references.projectKey rest := by
  cases hparsed with
  | search kind employeeId dueBy rest =>
    refine ⟨rfl, ?_⟩
    rintro _ ⟨⟩
    exact ⟨rest, rfl⟩
  | _ =>
    refine ⟨rfl, ?_⟩
    rintro _ ⟨⟩

/-- What a query asks Jira for is inside, unless the question strays. -/
theorem asked_inside (tables : ScopeTables) (h : ¬ Strays question references previous) {query : TaskQuery}
    (hparsed : Parsed question references previous query) {asked : Asked} (hasks : query.asks = .ok asked)
    {circuit : Circuit Rat} {answers : Answers} {now : Rat}
    (hread : Event.called now ∈ (asked.read client circuit answers).events) : asked.Inside references.projectKey := by
  rcases asks_ok hasks with rfl | ⟨issueKey, hissue, rfl⟩ | ⟨jql, hjql, rfl⟩
  · trivial
  · exact key_inside h hparsed issueKey hissue
  · obtain ⟨hproject, hstarts⟩ := parsed_project hparsed
    obtain ⟨rest, rfl⟩ := hstarts jql hjql
    rw [hproject] at hread ⊢
    exact ⟨rfl, search_inside tables hread⟩

/-- What was asked in a run that asked Jira. -/
theorem query_called {circuit : Circuit Rat} {answers : Answers} {correlationId : String} {now : Rat} {run : QueryRun}
    (hrun : JiraTaskQueryTool.query client circuit answers today question references correlationId previous = run)
    (hcalled : Event.called now ∈ run.events) :
    ∃ query, parseTaskQuery question references today previous = .ok query ∧ query.asks = .ok run.asked ∧
      Event.called now ∈ (run.asked.read client circuit answers).events := by
  unfold JiraTaskQueryTool.query at hrun
  cases hparse : parseTaskQuery question references today previous with
  | error e =>
    rw [hparse] at hrun
    subst hrun
    cases hcalled
  | ok query =>
    rw [hparse] at hrun
    cases hasks : query.asks with
    | error e =>
      simp only [hasks] at hrun
      subst hrun
      cases hcalled
    | ok asked =>
      simp only [hasks] at hrun
      subst hrun
      exact ⟨query, rfl, hasks, hcalled⟩

theorem query_inside (tables : ScopeTables) (h : ¬ Strays question references previous) {circuit : Circuit Rat}
    {answers : Answers} {correlationId : String} {now : Rat} {run : QueryRun}
    (hrun : JiraTaskQueryTool.query client circuit answers today question references correlationId previous = run)
    (hcalled : Event.called now ∈ run.events) : run.asked.Inside references.projectKey := by
  obtain ⟨query, hparse, hasks, hread⟩ := query_called hrun hcalled
  exact asked_inside tables h (parse_parsed hparse) hasks hread

theorem stays_inside_iff (tables : ScopeTables) (client : JiraEvidenceClient) (question : String)
    (references : EntityReferences) (today : Date) (previous : Option GroundedAnswerContext) :
    StaysInside client question references today previous ↔ ¬ Strays question references previous := by
  constructor
  · rintro h ⟨hback, context, prior, rfl, hissues, hother⟩
    have hparse : parseTaskQuery question references today (some context) =
        .ok ⟨.referencedTaskAssignee, references.projectKey, some prior.key, none, none, none⟩ := by
      unfold parseTaskQuery referencedTask
      rw [if_pos hback, Option.map_some, Option.getD_some, hissues]
    exact hother (h.keys _ hparse _ rfl)
  · intro h
    refine ⟨fun query hparse => key_inside h (parse_parsed hparse), fun query hparse jql hjql => ?_,
      fun circuit answers correlationId now hcalled => ?_⟩
    · cases hcheck : client.checkQuery jql references.projectKey with
      | ok _ => exact .inl rfl
      | error e =>
        refine .inr fun circuit reading => ?_
        unfold JiraEvidenceClient.searchIssues
        rw [hcheck]
    · exact query_inside tables h rfl hcalled

end

/-! ## The task of the answer before -/

theorem sampleReferences_length : ∀ e ∈ (none : Option String), e.length ≤ 128 := fun _ h => by cases h

theorem sampleReferences_key : isProjectKey "WFD" = true := by decide

def sampleReferences : EntityReferences := ⟨none, "WFD", sampleReferences_length, sampleReferences_key⟩

def readsBoth : JiraEvidenceClient := ⟨["WFD", "OTHER"], ⟨2, Nat.zero_lt_two⟩, ⟨1, Nat.zero_lt_one⟩, 30⟩

/-- A list of what is done asks for nothing else. -/
theorem done_tasks_stay_inside : letI := TextTables.ascii
    StaysInside readsBoth "Which tasks are done?" sampleReferences 20000 none := by
  let _ := TextTables.ascii
  refine (stays_inside_iff WorkforceRisk.Jira.ascii_scopeTables readsBoth "Which tasks are done?" sampleReferences 20000
    none).mpr ?_
  rintro ⟨-, context, -, hprevious, -⟩
  cases hprevious

def otherTask : TaskFact := ⟨"OTHER-1", "Login", "Done", none, none, none, none, []⟩

def otherAnswer : GroundedAnswerContext := ⟨"issue_status", none, [otherTask], [], false⟩

theorem refersBack_that_task : letI := TextTables.ascii
    refersBack "Who did that task?" = true := by decide +kernel

theorem prior_issue_strays : letI := TextTables.ascii
    ¬ StaysInside readsBoth "Who did that task?" sampleReferences 20000 (some otherAnswer) := by
  let _ := TextTables.ascii
  intro h
  have hparse : parseTaskQuery "Who did that task?" sampleReferences 20000 (some otherAnswer) =
      .ok ⟨.referencedTaskAssignee, "WFD", some "OTHER-1", none, none, none⟩ := by
    unfold parseTaskQuery
    rw [if_pos refersBack_that_task]
    rfl
  exact absurd (h.keys _ hparse _ rfl) (by decide)

end WorkforceRisk.Tasks
