/-
  WorkforceRisk.Jira.SingleEdit — one attempt of the assignee mutation client against any
  transport.

  The transport behaves as it likes: its n-th call returns some response or raises some
  exception (`behaviour n`). `attempt` is the client's run against it, with the exchanges
  it made in order. `Ending` lists what a run can have exchanged, and what it returns for
  that; every run is one of these (`attempt_ending`).

  Proved from the list (`single_guarded_edit`): at most one edit, and that one permitted
  and preceded by a read of the expected assignee; `executed_verified` exactly when the
  edit was no error and the read after it shows the proposed assignee; an exception from
  the edit on is `uncertain`; `stale` and a failed first read come without an edit.
-/

import WorkforceRisk.Jira.Mutation

namespace WorkforceRisk.Jira

open Lib Persistence

/-- A call, and the response or the exception it got. -/
abbrev Exchange := ToolCall × Except Error Mapping

def exchange (behaviour : Nat → Except Error Mapping) (tool : ToolCall) (made : List Exchange) :
    Except Error Mapping × List Exchange :=
  (behaviour made.length, made ++ [(tool, behaviour made.length)])

def isEditCall : ToolCall → Bool
  | .editJiraIssue .. => true
  | .getJiraIssue .. => false

namespace JiraAssigneeMutationClient

/-- What `execute` returns against a transport, and the exchanges it made. -/
def attempt (client : JiraAssigneeMutationClient) (command : ReassignmentMutation)
    (behaviour : Nat → Except Error Mapping) : Except Error MutationReceipt × List Exchange :=
  (client.execute (R := fun _ : ToolCall => Except Error Mapping) (fun tool _ => .perform tool) command).exec
    (exchange behaviour) []

/-- The environment is dev and the command's, and the issue is of the command's project,
    which is allowed. -/
structure Permits (client : JiraAssigneeMutationClient) (command : ReassignmentMutation) : Prop where
  dev : client.environment = "dev"
  environment : command.environment = client.environment
  project : issueProject command.issueKey = some command.projectKey.toList
  allowed : command.projectKey ∈ client.allowedProjects

theorem isRefused_iff {client : JiraAssigneeMutationClient} {command : ReassignmentMutation} :
    client.isRefused command = false ↔ client.Permits command := by
  simp only [isRefused, Bool.or_eq_false_iff, bne_eq_false_iff_eq, Bool.not_eq_false', List.contains_iff_mem]
  constructor
  · intro h
    exact ⟨h.1.1.1, h.1.1.2, h.1.2, h.2⟩
  · intro h
    exact ⟨⟨⟨h.dev, h.environment⟩, h.project⟩, h.allowed⟩

def readCall (command : ReassignmentMutation) : ToolCall := .getJiraIssue command.issueKey command.correlationId

def editCall (command : ReassignmentMutation) : ToolCall :=
  .editJiraIssue command.issueKey command.proposedAssigneeId command.correlationId

@[simp] theorem isEditCall_readCall (command : ReassignmentMutation) : isEditCall (readCall command) = false := rfl

@[simp] theorem isEditCall_editCall (command : ReassignmentMutation) : isEditCall (editCall command) = true := rfl

def isErrorResponse (response : Mapping) : Bool := member response "status" == some (.str "error")

/-- The exchanges a run can end after, and what it returns. -/
inductive Ending (client : JiraAssigneeMutationClient) (command : ReassignmentMutation) :
    List Exchange → Except Error MutationReceipt → Prop where
  | refused (message : String) : ¬ client.Permits command → Ending client command [] (.error (.permissionError message))
  | unread {e : Error} : Ending client command [(readCall command, .error e)]
      (.ok { outcome := .executionFailed, safeErrorCode := some "jira_precondition_read_failed" })
  | stale {r : Mapping} : assigneeFromResponse r ≠ some command.expectedAssigneeId →
      Ending client command [(readCall command, .ok r)]
        (.ok { outcome := .stale, observedAssigneeId := assigneeFromResponse r })
  | ambiguous {r : Mapping} {e : Error} : client.Permits command →
      assigneeFromResponse r = some command.expectedAssigneeId →
      Ending client command [(readCall command, .ok r), (editCall command, .error e)]
        (.ok { outcome := .uncertain, editAttempted := true, safeErrorCode := some "jira_write_outcome_unknown" })
  | rejected {r w : Mapping} : client.Permits command →
      assigneeFromResponse r = some command.expectedAssigneeId → isErrorResponse w = true →
      Ending client command [(readCall command, .ok r), (editCall command, .ok w)]
        (.ok { outcome := .executionFailed, editAttempted := true, safeErrorCode := some "jira_write_rejected" })
  | unverified {r w : Mapping} {e : Error} : client.Permits command →
      assigneeFromResponse r = some command.expectedAssigneeId → isErrorResponse w = false →
      Ending client command [(readCall command, .ok r), (editCall command, .ok w), (readCall command, .error e)]
        (.ok { outcome := .uncertain, editAttempted := true, safeErrorCode := some "jira_verification_read_failed" })
  | verified {r w b : Mapping} : client.Permits command →
      assigneeFromResponse r = some command.expectedAssigneeId → isErrorResponse w = false →
      assigneeFromResponse b = some command.proposedAssigneeId →
      Ending client command [(readCall command, .ok r), (editCall command, .ok w), (readCall command, .ok b)]
        (.ok { outcome := .executedVerified, observedAssigneeId := assigneeFromResponse b, editAttempted := true })
  | mismatched {r w b : Mapping} : client.Permits command →
      assigneeFromResponse r = some command.expectedAssigneeId → isErrorResponse w = false →
      assigneeFromResponse b ≠ some command.proposedAssigneeId →
      Ending client command [(readCall command, .ok r), (editCall command, .ok w), (readCall command, .ok b)]
        (.ok { outcome := .uncertain, observedAssigneeId := assigneeFromResponse b, editAttempted := true,
               safeErrorCode := some "jira_verification_mismatch" })

section
variable {behaviour : Nat → Except Error Mapping} {made : List Exchange}

theorem exec_perform (tool : ToolCall) :
    (Proc.perform tool : Proc ToolCall (fun _ => Except Error Mapping) _).exec (exchange behaviour) made =
      (behaviour made.length, made ++ [(tool, behaviour made.length)]) := rfl

theorem exec_readAssignee (issueKey correlationId : String) :
    (readAssignee (R := fun _ : ToolCall => Except Error Mapping) (fun tool _ => .perform tool) issueKey
        correlationId).exec (exchange behaviour) made =
      ((behaviour made.length).map assigneeFromResponse,
        made ++ [(.getJiraIssue issueKey correlationId, behaviour made.length)]) := by
  unfold readAssignee Proc.andThen
  rw [Proc.exec_bind, exec_perform]
  cases behaviour made.length with
  | error e => rfl
  | ok r => rfl

end

theorem attempt_ending (client : JiraAssigneeMutationClient) (command : ReassignmentMutation)
    (behaviour : Nat → Except Error Mapping) :
    Ending client command (client.attempt command behaviour).2 (client.attempt command behaviour).1 := by
  unfold attempt execute
  split
  · rename_i hr
    exact .refused _ fun h => by rw [isRefused_iff.mpr h] at hr; cases hr
  rename_i hr
  have hp : client.Permits command := isRefused_iff.mp (by simpa using hr)
  rw [Proc.exec_bind, exec_readAssignee]
  simp only [List.length_nil, List.nil_append]
  cases behaviour 0 with
  | error e => exact .unread
  | ok r =>
  simp only [Except.map]
  split
  · rename_i hs
    exact .stale hs
  rename_i hs
  have hs := Classical.not_not.mp hs
  unfold edit
  rw [Proc.exec_bind, exec_perform]
  simp only [List.length_singleton, List.singleton_append]
  cases behaviour 1 with
  | error e => exact .ambiguous hp hs
  | ok w =>
  simp only
  split
  · rename_i hw
    exact .rejected hp hs (by simpa [isErrorResponse] using hw)
  rename_i hw
  have hw : isErrorResponse w = false := by simpa [isErrorResponse] using hw
  unfold verify
  rw [Proc.exec_bind, exec_readAssignee]
  simp only [List.length_cons, List.length_nil, List.cons_append, List.nil_append]
  cases behaviour 2 with
  | error e => exact .unverified hp hs hw
  | ok b =>
  simp only [Except.map]
  split
  · rename_i hb
    exact .verified hp hs hw hb
  · rename_i hb
    exact .mismatched hp hs hw hb

/-! ## What the endings have in common -/

def outcomeOf (result : Except Error MutationReceipt) : Option MutationOutcome := result.toOption.map (·.outcome)

def edits (made : List Exchange) : Nat := made.countP fun x => isEditCall x.1

section
variable {client : JiraAssigneeMutationClient} {command : ReassignmentMutation} {made : List Exchange}
  {result : Except Error MutationReceipt}

/-- The run sends no edit, or one, the command's: permitted, and right after a read of the
    expected assignee. -/
theorem Ending.shape (h : Ending client command made result) :
    (∀ x ∈ made, isEditCall x.1 = false) ∨
    ∃ r reply rest, made = (readCall command, .ok r) :: (editCall command, reply) :: rest ∧ client.Permits command ∧
      assigneeFromResponse r = some command.expectedAssigneeId ∧ ∀ x ∈ rest, isEditCall x.1 = false := by
  cases h with
  | refused _ _ => exact Or.inl (by simp)
  | unread => exact Or.inl (by simp)
  | stale _ => exact Or.inl (by simp)
  | ambiguous hp hs => exact Or.inr ⟨_, _, _, rfl, hp, hs, by simp⟩
  | rejected hp hs _ => exact Or.inr ⟨_, _, _, rfl, hp, hs, by simp⟩
  | unverified hp hs _ => exact Or.inr ⟨_, _, _, rfl, hp, hs, by simp⟩
  | verified hp hs _ _ => exact Or.inr ⟨_, _, _, rfl, hp, hs, by simp⟩
  | mismatched hp hs _ _ => exact Or.inr ⟨_, _, _, rfl, hp, hs, by simp⟩

theorem edits_eq_zero : edits made = 0 ↔ ∀ x ∈ made, isEditCall x.1 = false := by
  simp [edits, List.countP_eq_zero]

theorem Ending.edits_le (h : Ending client command made result) : edits made ≤ 1 := by
  obtain hnone | ⟨r, reply, rest, rfl, -, -, hrest⟩ := h.shape
  · rw [edits_eq_zero.mpr hnone]
    exact Nat.zero_le 1
  · have hzero := edits_eq_zero.mpr hrest
    simp only [edits] at hzero
    simp [edits, List.countP_cons, hzero]

theorem Ending.guarded (h : Ending client command made result) {before after : List Exchange} {tool : ToolCall}
    {reply : Except Error Mapping} (hm : made = before ++ (tool, reply) :: after) (ht : isEditCall tool = true) :
    tool = editCall command ∧ client.Permits command ∧
      ∃ r, before = [(readCall command, .ok r)] ∧ assigneeFromResponse r = some command.expectedAssigneeId := by
  obtain hnone | ⟨r, w, rest, rfl, hp, hs, hrest⟩ := h.shape
  · rw [hnone (tool, reply) (by rw [hm]; simp)] at ht
    cases ht
  -- the edit is the second call
  match before, hm with
  | [], hm =>
    cases hm
    cases ht
  | [x], hm =>
    cases hm
    exact ⟨rfl, hp, r, rfl, hs⟩
  | x :: y :: before, hm =>
    cases hm
    rw [hrest (tool, reply) (by simp)] at ht
    cases ht

theorem Ending.verified_iff (h : Ending client command made result) :
    outcomeOf result = some .executedVerified ↔
      ∃ r w b, made = [(readCall command, .ok r), (editCall command, .ok w), (readCall command, .ok b)] ∧
        isErrorResponse w = false ∧ assigneeFromResponse b = some command.proposedAssigneeId := by
  cases h with
  | verified _ _ hw hb => exact ⟨fun _ => ⟨_, _, _, rfl, hw, hb⟩, fun _ => rfl⟩
  | mismatched _ _ _ hb =>
    constructor
    · intro ho
      cases ho
    · intro hex
      obtain ⟨_, _, _, hmade, _, hb'⟩ := hex
      cases hmade
      exact absurd hb' hb
  | _ => simp [outcomeOf, Except.toOption]

/-- What the transport raises from the edit on leaves the outcome uncertain. -/
theorem Ending.uncertain_of_error (h : Ending client command made result) {e : Error} :
    ((editCall command, .error e) ∈ made → outcomeOf result = some .uncertain) ∧
    ∀ x y, made = [x, y, (readCall command, .error e)] → outcomeOf result = some .uncertain := by
  cases h <;> simp [outcomeOf, Except.toOption, readCall, editCall]

theorem Ending.no_edit (h : Ending client command made result) :
    (outcomeOf result = some .stale → edits made = 0) ∧
    ∀ e, made.head? = some (readCall command, .error e) → edits made = 0 := by
  cases h <;> simp [outcomeOf, Except.toOption, edits, List.countP_cons]

/-- `edit_attempted` says whether an edit was sent. -/
theorem Ending.editAttempted_iff (h : Ending client command made result) {receipt : MutationReceipt}
    (hr : result = .ok receipt) : receipt.editAttempted = true ↔ edits made = 1 := by
  cases h <;> cases hr <;> simp [edits, List.countP_cons]

end

/-- One attempt against any transport. -/
theorem single_guarded_edit (client : JiraAssigneeMutationClient) (command : ReassignmentMutation)
    (behaviour : Nat → Except Error Mapping) :
    let result := (client.attempt command behaviour).1
    let made := (client.attempt command behaviour).2
    edits made ≤ 1 ∧
    (∀ before tool reply after, made = before ++ (tool, reply) :: after → isEditCall tool = true →
      tool = editCall command ∧ client.Permits command ∧
        ∃ r, before = [(readCall command, .ok r)] ∧ assigneeFromResponse r = some command.expectedAssigneeId) ∧
    (outcomeOf result = some .executedVerified ↔
      ∃ r w b, made = [(readCall command, .ok r), (editCall command, .ok w), (readCall command, .ok b)] ∧
        isErrorResponse w = false ∧ assigneeFromResponse b = some command.proposedAssigneeId) ∧
    (∀ e, ((editCall command, .error e) ∈ made → outcomeOf result = some .uncertain) ∧
      ∀ x y, made = [x, y, (readCall command, .error e)] → outcomeOf result = some .uncertain) ∧
    (outcomeOf result = some .stale → edits made = 0) ∧
    ∀ e, made.head? = some (readCall command, .error e) → edits made = 0 := by
  intro result made
  have h : Ending client command made result := attempt_ending client command behaviour
  exact ⟨h.edits_le, fun _ _ _ _ hm ht => h.guarded hm ht, h.verified_iff, fun _ => h.uncertain_of_error, h.no_edit⟩

end JiraAssigneeMutationClient

end WorkforceRisk.Jira
