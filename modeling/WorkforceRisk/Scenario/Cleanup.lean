/-
  WorkforceRisk.Scenario.Cleanup — a scenario deleted from Jira (scripts/jira/rest_cleanup.py).

  The issues with the scenario's tag are searched for; all that is found is checked before
  the first is deleted, then they are deleted one by one in the order of their keys. The
  search answers any object, and the search and each deletion may fail.

  Proved: whatever Jira answers, nothing is deleted outside dev and WRD, nothing where one
  issue that was found is not of WRD or lacks the tag, and nothing that was not found; the
  deletions follow the sorted keys, each after the one before succeeded
  (`deletes_what_was_checked`, `deleted_all_found`).
-/

import WorkforceRisk.Evidence.Text
import WorkforceRisk.Lib.StateGraph
import WorkforceRisk.Lib.Transactions
import WorkforceRisk.Scenario.Definition

namespace WorkforceRisk.Scenario

open Lib Persistence Evidence

/-- How a cleanup ends: its own exceptions, or one of a transport's. -/
inductive Failed (ε : Type) where
  | raised (error : Error)
  | transport (exception : ε)

inductive CleanupCall where
  | searchJiraIssuesUsingJql (jql : String)
  /-- The request that deletes an issue. -/
  | delete (issueKey : String)

/-- The object that was found, and a response's status. -/
abbrev CleanupCall.Answer (ε : Type) : CleanupCall → Type
  | searchJiraIssuesUsingJql _ => Except (Failed ε) (List (String × Json))
  | delete _ => Except (Failed ε) Nat

abbrev CleanupProc (ε α : Type) := Proc CleanupCall (CleanupCall.Answer ε) α

variable {ε : Type}

namespace JiraRestDeleteClient

def deleteIssue (issueKey : String) : CleanupProc ε (Except (Failed ε) Unit) :=
  Proc.andThen (Proc.perform (CleanupCall.delete issueKey)) fun status =>
    if status ≠ 204 then .ret (.error (.raised (.runtimeError ("Jira cleanup failed safely with HTTP " ++ toString status))))
    else .ret (.ok ())

end JiraRestDeleteClient

namespace GuardedRestCleanup

def cleanupJql (ownershipTag : String) : String := "project = \"WRD\" AND labels = \"" ++ ownershipTag ++ "\""

/-- `ownership_tag in labels`. -/
def tagged (ownershipTag : String) (labels : List Json) : Bool :=
  labels.any fun
    | .str label => label == ownershipTag
    | _ => false

/-- An issue's key, when it is one of WRD that has the tag. -/
def ownedKey (ownershipTag : String) : Json → Except (Failed ε) String
  | .obj issue =>
    let labels := match issue.lookup "fields" with
      | some (.obj fields) => fields.lookup "labels"
      | _ => none
    match issue.lookup "key", labels with
    | some (.str key), some (.arr labels) =>
      if startsWith key "WRD-" && tagged ownershipTag labels then .ok key
      else .error (.raised (.permissionError "cleanup search escaped WRD ownership scope"))
    | _, _ => .error (.raised (.permissionError "cleanup search escaped WRD ownership scope"))
  | _ => .error (.raised (.runtimeError "Jira cleanup search returned an invalid issue"))

/-- The issues of a response, which may be in its `data`. -/
def foundIssues (response : List (String × Json)) : Option (List Json) :=
  match (response.lookup "data").getD (.obj response) with
  | .obj data => match data.lookup "issues" with
    | some (.arr issues) => some issues
    | _ => none
  | _ => none

/-- Their keys, if all are the scenario's. -/
def ownedKeys (ownershipTag : String) (response : List (String × Json)) : Except (Failed ε) (List String) :=
  match foundIssues response with
  | some issues => issues.mapM (ownedKey ownershipTag)
  | none => .error (.raised (.runtimeError "Jira cleanup search returned an invalid response"))

def deleteAll : List String → CleanupProc ε (Except (Failed ε) Unit)
  | [] => .ret (.ok ())
  | key :: keys => (JiraRestDeleteClient.deleteIssue key).andThen fun _ => deleteAll keys

def sortedKeys (keys : List String) : List String := keys.mergeSort fun a b => decide (a ≤ b)

/-- `cleanup`, which tells how many were deleted. -/
def cleanup (environment projectKey ownershipTag : String) : CleanupProc ε (Except (Failed ε) Nat) :=
  match validateScenarioScope environment projectKey with
  | .error error => .ret (.error (.raised error))
  | .ok () =>
    Proc.andThen (Proc.perform (CleanupCall.searchJiraIssuesUsingJql (cleanupJql ownershipTag))) fun response =>
    match ownedKeys ownershipTag response with
    | .error error => .ret (.error error)
    | .ok keys => (deleteAll (sortedKeys keys)).andThen fun _ => .ret (.ok keys.length)

/-! ## What was found -/

/-- An issue of WRD with the tag. -/
def Owned (ownershipTag : String) (issue : Json) (key : String) : Prop :=
  startsWith key "WRD-" = true ∧ ∃ members fields labels, issue = .obj members ∧ members.lookup "key" = some (.str key) ∧
    members.lookup "fields" = some (.obj fields) ∧ fields.lookup "labels" = some (.arr labels) ∧
    .str ownershipTag ∈ labels

theorem mem_of_tagged {ownershipTag : String} {labels : List Json} (h : tagged ownershipTag labels = true) :
    .str ownershipTag ∈ labels := by
  obtain ⟨label, hlabel, h⟩ := List.any_eq_true.mp h
  cases label with
  | str s => exact beq_iff_eq.mp h ▸ hlabel
  | null => cases h
  | bool b => cases h
  | num n => cases h
  | arr xs => cases h
  | obj members => cases h

theorem owned_of_key {ownershipTag key : String} {issue : Json} (h : ownedKey (ε := ε) ownershipTag issue = .ok key) :
    Owned ownershipTag issue key := by
  unfold ownedKey at h
  split at h
  · rename_i members
    dsimp only at h
    split at h
    · rename_i key' labels hkey hlabels
      split at h
      · rename_i howned
        cases h
        rw [Bool.and_eq_true] at howned
        split at hlabels
        · rename_i fields hfields
          exact ⟨howned.1, members, fields, labels, rfl, hkey, hfields, hlabels, mem_of_tagged howned.2⟩
        · cases hlabels
      · cases h
    · cases h
  · cases h

theorem owned_of_keys {ownershipTag : String} {response : List (String × Json)} {keys : List String}
    (h : ownedKeys (ε := ε) ownershipTag response = .ok keys) :
    ∃ issues, foundIssues response = some issues ∧ List.Forall₂ (Owned ownershipTag) issues keys := by
  unfold ownedKeys at h
  split at h
  · rename_i issues hissues
    exact ⟨issues, hissues, (mapM_ok_related h).imp fun _ _ => owned_of_key⟩
  · cases h

/-! ## What a cleanup does -/

abbrev Done (ε : Type) := List (Exchange CleanupCall (CleanupCall.Answer ε))

/-- A search, then these deletions, all of which succeeded. -/
def deleted (ownershipTag : String) (response : List (String × Json)) (keys : List String) : Done ε :=
  ⟨.searchJiraIssuesUsingJql (cleanupJql ownershipTag), .ok response⟩ :: keys.map fun key => ⟨.delete key, .ok 204⟩

/-- In dev and WRD, and all that was found is the scenario's. -/
structure Checked (environment projectKey ownershipTag : String) (response : List (String × Json)) (keys : List String) :
    Prop where
  scope : environment = "dev" ∧ projectKey = "WRD"
  owned : ∃ issues, foundIssues response = some issues ∧ List.Forall₂ (Owned ownershipTag) issues keys

/-- What may be asked next. -/
def MayAsk (environment projectKey ownershipTag : String) (t : Done ε) : CleanupCall → Prop
  | .searchJiraIssuesUsingJql jql =>
    t = [] ∧ (environment = "dev" ∧ projectKey = "WRD") ∧ jql = cleanupJql ownershipTag
  | .delete key => ∃ response keys before after, Checked environment projectKey ownershipTag response keys ∧
      sortedKeys keys = before ++ key :: after ∧ t = deleted ownershipTag response before

variable {environment projectKey ownershipTag : String} {response : List (String × Json)} {keys : List String}

theorem scope_ok (h : validateScenarioScope environment projectKey = .ok ()) :
    environment = "dev" ∧ projectKey = "WRD" := by
  unfold validateScenarioScope at h
  split at h
  · cases h
  split at h
  · cases h
  · rename_i henvironment hproject
    exact ⟨by simpa using henvironment, by simpa using hproject⟩

/-- The rest of the keys, deleted in their order. -/
theorem deleteAll_sat (hchecked : Checked environment projectKey ownershipTag response keys) :
    ∀ {after before : List String}, sortedKeys keys = before ++ after →
      (deleteAll after).Sat (Proc.recorded (MayAsk (ε := ε) environment projectKey ownershipTag))
        (deleted ownershipTag response before) fun r t => r = .ok () → t = deleted ownershipTag response (sortedKeys keys) := by
  intro after
  induction after with
  | nil =>
    intro before hsplit _
    rw [hsplit, List.append_nil]
  | cons key after ih =>
    intro before hsplit
    apply Proc.sat_andThen
    apply Proc.sat_andThen
    refine Proc.sat_perform ⟨response, keys, before, after, hchecked, hsplit, rfl⟩ fun answer => ?_
    cases answer with
    | error failed => exact fun h => by cases h
    | ok status =>
      dsimp only
      split
      · exact fun h => by cases h
      · rename_i hstatus
        have hnext : deleted ownershipTag response before ++ [⟨.delete key, .ok status⟩] =
            (deleted ownershipTag response (before ++ [key]) : Done ε) := by
          rw [not_not.mp hstatus]
          simp [deleted]
        rw [Proc.recorded_next, hnext]
        exact ih (by rw [hsplit, List.append_assoc]; rfl)

theorem cleanup_sat : (cleanup environment projectKey ownershipTag).Sat
    (Proc.recorded (MayAsk (ε := ε) environment projectKey ownershipTag)) []
    fun r t => ∀ n, r = .ok n → ∃ response keys, Checked environment projectKey ownershipTag response keys ∧
      t = deleted ownershipTag response (sortedKeys keys) ∧ n = keys.length := by
  unfold cleanup
  split
  · intro n h
    cases h
  rename_i hscope
  apply Proc.sat_andThen
  refine Proc.sat_perform ⟨rfl, scope_ok hscope, rfl⟩ fun answer => ?_
  cases answer with
  | error failed =>
    intro n h
    cases h
  | ok response =>
    dsimp only
    split
    · intro n h
      cases h
    · rename_i keys hkeys
      have hchecked : Checked environment projectKey ownershipTag response keys := ⟨scope_ok hscope, owned_of_keys hkeys⟩
      apply Proc.sat_andThen
      refine (deleteAll_sat hchecked (List.nil_append _).symm).mono fun r t hr => ?_
      cases r with
      | error failed =>
        intro n h
        cases h
      | ok _ =>
        intro n h
        cases h
        exact ⟨response, keys, hchecked, hr rfl, rfl⟩

/-- Whatever Jira answers, an issue is deleted only in dev and WRD, when all that was found has been checked, and in its
    turn. -/
theorem deletes_what_was_checked {t : Done ε} {p : CleanupProc ε (Except (Failed ε) Nat)}
    (h : (cleanup environment projectKey ownershipTag).Runs t p) {before after : Done ε}
    {x : Exchange CleanupCall (CleanupCall.Answer ε)} (ht : t = before ++ x :: after) :
    MayAsk environment projectKey ownershipTag before x.asked :=
  cleanup_sat.asked h before x after ht

/-- A cleanup that returns has deleted all that it found, and says how many. -/
theorem deleted_all_found {t : Done ε} {n : Nat}
    (h : (cleanup environment projectKey ownershipTag).Runs t (.ret (.ok n))) :
    ∃ response keys, Checked environment projectKey ownershipTag response keys ∧
      t = deleted ownershipTag response (sortedKeys keys) ∧ n = keys.length :=
  cleanup_sat.returned h n rfl

/-! ## Two issues -/

def demoIssue (key : String) : Json :=
  .obj [("key", .str key), ("fields", .obj [("labels", .arr [.str "backlog", .str "demo"])])]

def demoResponse : List (String × Json) := [("data", .obj [("issues", .arr [demoIssue "WRD-10", demoIssue "WRD-2"])])]

theorem demo_runs : (cleanup (ε := Empty) "dev" "WRD" "demo").Runs (deleted "demo" demoResponse ["WRD-10", "WRD-2"])
    (.ret (.ok 2)) := by
  have hsorted : sortedKeys ["WRD-10", "WRD-2"] = ["WRD-10", "WRD-2"] := List.mergeSort_of_pairwise (by decide)
  refine .next _ ?_
  show ((deleteAll (sortedKeys ["WRD-10", "WRD-2"])).andThen fun _ => .ret (.ok 2)).Runs _ _
  rw [hsorted]
  exact .next _ (.next _ (.done _))

theorem demo_second_in_turn : MayAsk (ε := Empty) "dev" "WRD" "demo" (deleted "demo" demoResponse ["WRD-10"]) (.delete "WRD-2") :=
  deletes_what_was_checked demo_runs (rfl : _ = deleted "demo" demoResponse ["WRD-10"] ++ ⟨.delete "WRD-2", .ok 204⟩ :: [])

end GuardedRestCleanup

end WorkforceRisk.Scenario
