/-
  WorkforceRisk.Jira.Mutation — the assignee mutation client
  (packages/jira-mcp-client/src/jira_mcp_client/mutation.py).

  One attempt: read the assignee, edit it, read it back. Every exception of the transport
  becomes an outcome; after an edit has been sent, anything but a rejection or a
  verified read-back is `uncertain`, and nothing is sent twice.

  The transport is a parameter, as it is of the client. The `proposalId` beside a call is
  not sent: it says for which proposal the client edits, so that runs can be talked about.
-/

import WorkforceRisk.Lib.Process
import WorkforceRisk.Persistence.Values

namespace WorkforceRisk.Jira

open Lib Persistence

inductive ToolCall where
  | getJiraIssue (issueKey correlationId : String)
  | editJiraIssue (issueKey accountId correlationId : String)
  deriving DecidableEq, Repr

inductive MutationOutcome where
  | executedVerified
  | executionFailed
  | uncertain
  | stale
  deriving DecidableEq, Repr

structure ReassignmentMutation where
  environment : String
  projectKey : String
  issueKey : String
  expectedAssigneeId : String
  proposedAssigneeId : String
  proposalId : Uuid
  idempotencyKey : String
  correlationId : String
  key_ok : 8 ≤ idempotencyKey.length

structure MutationReceipt where
  outcome : MutationOutcome
  observedAssigneeId : Option String := none
  editAttempted : Bool := false
  safeErrorCode : Option String := none
  deriving DecidableEq

abbrev Mapping := List (String × Json)

def asMapping : Json → Option Mapping
  | .obj members => some members
  | _ => none

/-- The members of `json[key]`, where both are mappings. -/
def submapping (json : Json) (key : String) : Option Mapping :=
  (asMapping json).bind fun members => (member members key).bind asMapping

def assigneeFromResponse (response : Mapping) : Option String :=
  let data := (member response "data").getD (.obj response)
  let data := ((submapping data "data").map .obj).getD data
  let assignee := (submapping data "fields").bind fun fields => (member fields "assignee").bind asMapping
  match assignee.bind (member · "accountId") with
  | some (.str value) => if value = "" then none else some value
  | _ => none

/-- What `issue_key.partition("-")` has before a separator. -/
def issueProject (issueKey : String) : Option (List Char) :=
  match issueKey.toList.span (· ≠ '-') with
  | (_, []) => none
  | (project, _ :: _) => some project

structure JiraAssigneeMutationClient where
  environment : String
  allowedProjects : List String

namespace JiraAssigneeMutationClient

def isRefused (client : JiraAssigneeMutationClient) (command : ReassignmentMutation) : Bool :=
  client.environment != "dev" || command.environment != client.environment ||
    issueProject command.issueKey != some command.projectKey.toList ||
    !client.allowedProjects.contains command.projectKey

variable {E : Type} {R : E → Type} (transport : ToolCall → Option Uuid → Proc E R (Except Error Mapping))

def readAssignee (issueKey correlationId : String) : Proc E R (Except Error (Option String)) :=
  (transport (.getJiraIssue issueKey correlationId) none).andThen fun response =>
    .ret (.ok (assigneeFromResponse response))

/-- The read-back after an edit. -/
def verify (command : ReassignmentMutation) : Proc E R (Except Error MutationReceipt) :=
  (readAssignee transport command.issueKey command.correlationId).bind fun
    | .error _ => .ret (.ok
        { outcome := .uncertain, editAttempted := true, safeErrorCode := some "jira_verification_read_failed" })
    | .ok observed =>
      if observed = some command.proposedAssigneeId then
        .ret (.ok { outcome := .executedVerified, observedAssigneeId := observed, editAttempted := true })
      else .ret (.ok { outcome := .uncertain, observedAssigneeId := observed, editAttempted := true,
                       safeErrorCode := some "jira_verification_mismatch" })

/-- The edit. A write-side error is ambiguous. -/
def edit (command : ReassignmentMutation) : Proc E R (Except Error MutationReceipt) :=
  (transport (.editJiraIssue command.issueKey command.proposedAssigneeId command.correlationId)
      (some command.proposalId)).bind fun
    | .error _ => .ret (.ok
        { outcome := .uncertain, editAttempted := true, safeErrorCode := some "jira_write_outcome_unknown" })
    | .ok response =>
      if member response "status" = some (.str "error") then
        .ret (.ok { outcome := .executionFailed, editAttempted := true, safeErrorCode := some "jira_write_rejected" })
      else verify transport command

def execute (client : JiraAssigneeMutationClient) (command : ReassignmentMutation) :
    Proc E R (Except Error MutationReceipt) :=
  if client.isRefused command then
    .ret (.error (.permissionError "Jira mutation is disabled for this environment or project"))
  else
    (readAssignee transport command.issueKey command.correlationId).bind fun
      | .error _ => .ret (.ok
          { outcome := .executionFailed, safeErrorCode := some "jira_precondition_read_failed" })
      | .ok current =>
        if current ≠ some command.expectedAssigneeId then
          .ret (.ok { outcome := .stale, observedAssigneeId := current })
        else edit transport command

end JiraAssigneeMutationClient

end WorkforceRisk.Jira
