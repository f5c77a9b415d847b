/-
  WorkforceRisk.Scenario.Seeding — a scenario written to Jira
  (scripts/jira/mcp_scenario.py `RovoScenarioSeeder`, `RovoScenarioVerifier`).

  Jira is a store of numbered issues with labels and of links between them; the issue
  numbered `n` has the key WRD-n. It is read and written by the calls of four tools. A
  search tells every issue that has exactly the label, fifty at most and in an order of
  Jira's own (`Listing`). Of what is sent, an issue's labels are kept: its other fields are
  not read back.
-/

import Mathlib.Data.Sym.Sym2
import WorkforceRisk.Lib.Labelled
import WorkforceRisk.Lib.Process
import WorkforceRisk.Scenario.Fields
import WorkforceRisk.Scenario.Store

namespace WorkforceRisk.Scenario

open Lib Persistence Historical

/-! ## Jira -/

structure Link where
  type : String
  inwardIssue : Nat
  outwardIssue : Nat

structure Jira where
  issues : Labelled String
  links : List Link
  known : ∀ link ∈ links, link.inwardIssue ∈ issues.numbers ∧ link.outwardIssue ∈ issues.numbers

namespace Jira

def empty : Jira := ⟨.empty, [], fun _ h => absurd h List.not_mem_nil⟩

def create (jira : Jira) (labels : List String) : Jira where
  issues := jira.issues.add labels
  links := jira.links
  known link hlink := by
    rw [Labelled.numbers_add]
    exact (jira.known link hlink).imp (List.mem_append_left _) (List.mem_append_left _)

def edit (jira : Jira) (number : Nat) (labels : List String) : Jira where
  issues := jira.issues.relabel number labels
  links := jira.links
  known link hlink := by
    rw [Labelled.numbers_relabel]
    exact jira.known link hlink

/-- Issues that are there are linked. -/
def link (jira : Jira) (new : Link) : Jira :=
  if h : new.inwardIssue ∈ jira.issues.numbers ∧ new.outwardIssue ∈ jira.issues.numbers then
    { jira with
      links := jira.links ++ [new]
      known := by
        intro link hlink
        rcases List.mem_append.mp hlink with hlink | hlink
        · exact jira.known link hlink
        · rw [List.mem_singleton.mp hlink]
          exact h }
  else jira

end Jira

/-- A link as one of its issues shows it: by the other. -/
structure LinkEntry where
  type : String
  inwardIssue : Option Nat
  outwardIssue : Option Nat

def Link.entries (number : Nat) (link : Link) : List LinkEntry :=
  (if link.inwardIssue = number then [⟨link.type, none, some link.outwardIssue⟩] else []) ++
    if link.outwardIssue = number then [⟨link.type, some link.inwardIssue, none⟩] else []

structure FoundIssue where
  key : Nat
  labels : List String
  issuelinks : List LinkEntry

/-- The order in which a search lists its matches. -/
structure Listing where
  arrange : List FoundIssue → List FoundIssue
  perm : ∀ found, (arrange found).Perm found

inductive Tool where
  | searchJiraIssuesUsingJql (label : String)
  | createJiraIssue (labels : List String)
  | editJiraIssue (key : Nat) (labels : List String)
  | createIssueLink (type : String) (inwardIssue outwardIssue : Nat)

def Tool.Reply : Tool → Type
  | searchJiraIssuesUsingJql _ => List FoundIssue
  | createJiraIssue _ => Nat
  | editJiraIssue _ _ => Unit
  | createIssueLink _ _ _ => Unit

def Jira.found (jira : Jira) (item : Nat × List String) : FoundIssue :=
  ⟨item.1, item.2, jira.links.flatMap (Link.entries item.1)⟩

def Jira.search (listing : Listing) (jira : Jira) (label : String) : List FoundIssue :=
  (listing.arrange ((jira.issues.search label).map jira.found)).take 50

/-- What Jira answers to a tool's call, and is left as. -/
def answer (listing : Listing) : (tool : Tool) → Jira → tool.Reply × Jira
  | .searchJiraIssuesUsingJql label, jira => (jira.search listing label, jira)
  | .createJiraIssue labels, jira => (jira.issues.next, jira.create labels)
  | .editJiraIssue key labels, jira => ((), jira.edit key labels)
  | .createIssueLink type inward outward, jira => ((), jira.link ⟨type, inward, outward⟩)

abbrev Session := Proc Tool Tool.Reply

def searchIssues (label : String) : Session (List FoundIssue) := Proc.call (Tool.searchJiraIssuesUsingJql label) Proc.ret

def createIssue (labels : List String) : Session Nat := Proc.call (Tool.createJiraIssue labels) Proc.ret

def editIssue (key : Nat) (labels : List String) : Session Unit := Proc.call (Tool.editJiraIssue key labels) Proc.ret

def createLink (type : String) (inwardIssue outwardIssue : Nat) : Session Unit :=
  Proc.call (Tool.createIssueLink type inwardIssue outwardIssue) Proc.ret

/-! ## The seeder -/

/-- `linked_issue_pairs`. -/
def linkedIssuePairs (issue : FoundIssue) : List (Sym2 Nat) :=
  issue.issuelinks.filterMap fun link =>
    if link.type = "Blocks" then (link.inwardIssue.or link.outwardIssue).map fun other => s(issue.key, other) else none

/-- How far a seeding is. -/
structure Progress where
  created : Nat
  changed : Nat
  issueKeys : Dict String Nat
  existingLinks : List (Sym2 Nat)

namespace RovoScenarioSeeder

variable [Unicode]

def seedProfile (profile : ScenarioProfile) (p : Progress) : Session Progress :=
  (searchIssues (profileLabel profile.employeeId)).bind fun
    | [] => (createIssue (profileLabels profile)).bind fun _ =>
        .ret { p with created := p.created + 1 }
    | first :: _ => (editIssue first.key (profileLabels profile)).bind fun _ =>
        .ret { p with changed := p.changed + 1 }

def seedProfiles : List ScenarioProfile → Progress → Session Progress
  | [], p => .ret p
  | profile :: profiles, p => (seedProfile profile p).bind (seedProfiles profiles)

def seedIssue (anchorDate : Date) (issue : ScenarioIssue) (p : Progress) : Session (Except Raised Progress) :=
  (searchIssues (externalLabel issue.externalId)).bind fun found =>
    match jiraFields anchorDate issue with
    | .error error => .ret (.error error)
    | .ok fields => match found with
      | [] => (createIssue fields.labels).bind fun key =>
          .ret (.ok { p with issueKeys := p.issueKeys.set issue.externalId key, created := p.created + 1 })
      | first :: _ => (editIssue first.key fields.labels).bind fun _ =>
          .ret (.ok { p with
            issueKeys := p.issueKeys.set issue.externalId first.key
            existingLinks := p.existingLinks ++ linkedIssuePairs first
            changed := p.changed + 1 })

def seedIssues (anchorDate : Date) : List ScenarioIssue → Progress → Session (Except Raised Progress)
  | [], p => .ret (.ok p)
  | issue :: issues, p => (seedIssue anchorDate issue p).andThen (seedIssues anchorDate issues)

/-- One dependency of an issue: its id and the issue's. -/
def linkIssue (dependency : String × String) (p : Progress) : Session (Except Raised Progress) :=
  match p.issueKeys.get? dependency.1, p.issueKeys.get? dependency.2 with
  | none, _ => .ret (.error (.keyError dependency.1))
  | some _, none => .ret (.error (.keyError dependency.2))
  | some key, some issueKey =>
    if s(key, issueKey) ∈ p.existingLinks then .ret (.ok p)
    else (createLink "Blocks" issueKey key).bind fun _ =>
      .ret (.ok { p with existingLinks := p.existingLinks ++ [s(key, issueKey)] })

def linkIssues : List (String × String) → Progress → Session (Except Raised Progress)
  | [], p => .ret (.ok p)
  | dependency :: dependencies, p => (linkIssue dependency p).andThen (linkIssues dependencies)

/-- The dependencies of the issues, in their order. -/
def dependencies (issues : List ScenarioIssue) : List (String × String) :=
  issues.flatMap fun issue => issue.dependencies.map fun dependency => (dependency, issue.externalId)

variable {V : Type}

/-- `seed`. -/
def seed (scenario : ScenarioDefinition V) : Session (Except Raised OperationResult) :=
  match validateScenarioScope scenario.environment scenario.projectKey with
  | .error error => .ret (.error (.error error))
  | .ok () =>
    (seedProfiles scenario.profiles ⟨0, 0, .empty, []⟩).bind fun p =>
      (seedIssues scenario.anchorDate scenario.issues p).andThen fun p =>
        (linkIssues (dependencies scenario.issues) p).andThen fun p => .ret (.ok ⟨p.created, p.changed, 0⟩)

end RovoScenarioSeeder

/-! ## The verifier -/

structure McpVerificationResult where
  valid : Bool
  missingExternalIds : List String
  mismatchedExternalIds : List String

namespace RovoScenarioVerifier

variable [Unicode]

/-- One issue, with the ids found missing and mismatched so far. -/
def verifyIssue (anchorDate : Date) (issue : ScenarioIssue) (found : List String × List String) :
    Session (Except Raised (List String × List String)) :=
  (searchIssues (externalLabel issue.externalId)).bind fun
    | [only] => match jiraFields anchorDate issue with
      | .error error => .ret (.error error)
      | .ok expected =>
        if expected.labels.all only.labels.contains then .ret (.ok found)
        else .ret (.ok (found.1, found.2 ++ [issue.externalId]))
    | _ => .ret (.ok (found.1 ++ [issue.externalId], found.2))

def verifyIssues (anchorDate : Date) : List ScenarioIssue → List String × List String →
    Session (Except Raised (List String × List String))
  | [], found => .ret (.ok found)
  | issue :: issues, found => (verifyIssue anchorDate issue found).andThen (verifyIssues anchorDate issues)

variable {V : Type}

/-- `verify`. -/
def verify (scenario : ScenarioDefinition V) : Session (Except Raised McpVerificationResult) :=
  match validateScenarioScope scenario.environment scenario.projectKey with
  | .error error => .ret (.error (.error error))
  | .ok () => (verifyIssues scenario.anchorDate scenario.issues ([], [])).andThen fun found =>
      .ret (.ok ⟨found.1.isEmpty && found.2.isEmpty, found.1.mergeSort (fun a b => decide (a ≤ b)),
        found.2.mergeSort (fun a b => decide (a ≤ b))⟩)

end RovoScenarioVerifier

end WorkforceRisk.Scenario
