/-
  WorkforceRisk.Jira.Client — the read client and its circuit
  (packages/jira-mcp-client/src/jira_mcp_client/client.py `JiraEvidenceClient`).

  `getIssue` looks at the circuit before it looks at the project, `searchIssues` after the
  project, the query's scope and its size. Both then ask Jira as often as it times out, up
  to a number of attempts, and count an operation that timed out to the end as one failure
  in the circuit they share. An answer, normalized, is what an attempt comes to; any other
  error of an attempt ends the operation and counts for nothing.

  Proved: the events of any run are ones that a breaker accepts that looks before it calls
  (`run_follows`), an operation that calls reports a timeout, and is counted once as a
  failure, exactly when every attempt it has times out (`Tells`), and from both the law of
  the circuit (`read_circuit_holds`).
-/

import Mathlib.Algebra.Order.Ring.Rat
import Mathlib.Tactic.Linarith
import WorkforceRisk.Evidence.Grounding
import WorkforceRisk.Jira.Evidence
import WorkforceRisk.Lib.Breaker

namespace WorkforceRisk.Jira

open Lib Lib.Breaker Evidence

/-! ## Patterns -/

namespace Pattern

open Regex Evidence.Pattern

variable [TextTables]

/-- `\bproject\s*=\s*"([A-Z][A-Z0-9]{1,19})"` -/
def scopedProject : Regex := ignoreCase <|
  seqs [edge, lit "project", many space, lit "=", many space, lit "\"",
    group 1 (seqs [upperLetter, repeated 1 19 upperOrDigit]), lit "\""]

/-- `\bOR\b` -/
def disjunction : Regex := ignoreCase <| seqs [edge, lit "OR", edge]

end Pattern

/-! ## The client -/

inductive ReadError where
  | circuitOpen
  | projectNotAllowed (message : String)
  | valueError (message : String)
  | timeout
  /-- What an attempt raised that was no timeout. -/
  | other
  deriving DecidableEq

/-- What an attempt came to. -/
inductive Outcome (α : Type) where
  | evidence (result : α)
  | timedOut
  | raised

structure Attempt (α : Type) where
  startedAt : Rat
  outcome : Outcome α

/-- What the clock says around an operation, and what each attempt would come to. -/
structure Reading (α : Type) where
  checkedAt : Rat
  attempts : Nat → Attempt α
  endedAt : Rat

/-- Every attempt that may be made times out. -/
def Reading.Exhausts {α : Type} (reading : Reading α) (maxAttempts : Nat) : Prop :=
  ∀ i < maxAttempts, (reading.attempts i).outcome = .timedOut

/-- An operation's events, what it leaves of the circuit, and what it returns. -/
structure Served (α : Type) where
  events : List (Event Rat)
  circuit : Circuit Rat
  result : Except ReadError α

structure JiraEvidenceClient where
  allowedProjects : List String
  maxAttempts : {n : Nat // 1 ≤ n}
  circuitFailureThreshold : {n : Nat // 1 ≤ n}
  circuitResetSeconds : Rat

inductive Ended (α : Type) where
  | evidence (result : α)
  | raised
  | exhausted

/-- At most so many attempts, from the `i`-th on. -/
def attemptsFrom {α : Type} (attempts : Nat → Attempt α) : Nat → Nat → List (Event Rat) × Ended α
  | _, 0 => ([], .exhausted)
  | i, n + 1 => match (attempts i).outcome with
    | .evidence result => ([.called (attempts i).startedAt], .evidence result)
    | .timedOut => (.called (attempts i).startedAt :: (attemptsFrom attempts (i + 1) n).1,
        (attemptsFrom attempts (i + 1) n).2)
    | .raised => ([.called (attempts i).startedAt], .raised)

/-- `issue_key.partition("-")`: what stands before the first hyphen, and whether there is one. -/
def partition (issueKey : String) : String × Bool :=
  (String.ofList (issueKey.toList.takeWhile (· != '-')), decide ('-' ∈ issueKey.toList))

/-- `re.findall` of the projects a query is scoped to. -/
def scopedProjects [TextTables] (jql : String) : List String :=
  (Pattern.scopedProject.findAll jql.toList).map fun found => String.ofList ((found.group 1).getD [])

namespace JiraEvidenceClient

variable (client : JiraEvidenceClient) {α : Type}

/-- The circuit lets an operation through, reset if it was open long enough. -/
def checkCircuit (circuit : Circuit Rat) (now : Rat) : Option (List (Event Rat) × Circuit Rat) :=
  match circuit.openedAt with
  | none => some ([], circuit)
  | some openedAt => if now - openedAt < client.circuitResetSeconds then none else some ([.reset now], .fresh)

/-- The attempts of an operation that was let through, and what they leave of the circuit. -/
def read (circuit : Circuit Rat) (reading : Reading α) : Served α :=
  match attemptsFrom reading.attempts 0 client.maxAttempts.1 with
  | (events, .evidence result) => ⟨events ++ [.succeeded], ⟨0, circuit.openedAt⟩, .ok result⟩
  | (events, .raised) => ⟨events, circuit, .error .other⟩
  | (events, .exhausted) =>
    if client.circuitFailureThreshold.1 ≤ circuit.failures + 1 then
      ⟨events ++ [.failed reading.endedAt, .opened reading.endedAt],
        ⟨circuit.failures + 1, some reading.endedAt⟩, .error .timeout⟩
    else ⟨events ++ [.failed reading.endedAt], ⟨circuit.failures + 1, circuit.openedAt⟩, .error .timeout⟩

def Served.after (events : List (Event Rat)) (served : Served α) : Served α :=
  ⟨events ++ served.events, served.circuit, served.result⟩

def getIssue (circuit : Circuit Rat) (issueKey : String) (reading : Reading α) : Served α :=
  match client.checkCircuit circuit reading.checkedAt with
  | none => ⟨[], circuit, .error .circuitOpen⟩
  | some (events, circuit) =>
    if (partition issueKey).2 && client.allowedProjects.contains (partition issueKey).1 then
      Served.after events (client.read circuit reading)
    else ⟨events, circuit, .error (.projectNotAllowed ("Jira project is not allowed: " ++ (partition issueKey).1))⟩

section
variable [TextTables]

/-- What `search_issues` asks of a query before it asks anything of the circuit. -/
def checkQuery (jql projectKey : String) : Except ReadError Unit :=
  if !client.allowedProjects.contains projectKey then
    .error (.projectNotAllowed ("Jira project is not allowed: " ++ projectKey))
  else if scopedProjects jql != [projectKey] || (Pattern.disjunction.search jql.toList).isSome then
    .error (.projectNotAllowed "JQL is not bound to the authorized project")
  else if 1000 < jql.toList.length then .error (.valueError "JQL exceeds size limit")
  else .ok ()

def searchIssues (circuit : Circuit Rat) (jql projectKey : String) (reading : Reading α) : Served α :=
  match client.checkQuery jql projectKey with
  | .error error => ⟨[], circuit, .error error⟩
  | .ok () => match client.checkCircuit circuit reading.checkedAt with
    | none => ⟨[], circuit, .error .circuitOpen⟩
    | some (events, circuit) => Served.after events (client.read circuit reading)

end

end JiraEvidenceClient

inductive Operation where
  | getIssue (issueKey : String) (reading : Reading JiraIssueEvidence)
  | searchIssues (jql projectKey : String) (reading : Reading (List JiraIssueEvidence))

/-- What an operation did, and how it failed. -/
structure Done where
  events : List (Event Rat)
  error : Option ReadError

def Served.done {α : Type} (served : Served α) : Done :=
  ⟨served.events, match served.result with
    | .ok _ => none
    | .error error => some error⟩

namespace JiraEvidenceClient

variable (client : JiraEvidenceClient) [TextTables]

def perform (circuit : Circuit Rat) : Operation → Done × Circuit Rat
  | .getIssue issueKey reading =>
    ((client.getIssue circuit issueKey reading).done, (client.getIssue circuit issueKey reading).circuit)
  | .searchIssues jql projectKey reading =>
    ((client.searchIssues circuit jql projectKey reading).done,
      (client.searchIssues circuit jql projectKey reading).circuit)

def run : Circuit Rat → List Operation → List Done
  | _, [] => []
  | circuit, operation :: later =>
    (client.perform circuit operation).1 :: run (client.perform circuit operation).2 later

/-- What a run leaves of the circuit. -/
def circuitAfter : Circuit Rat → List Operation → Circuit Rat
  | circuit, [] => circuit
  | circuit, operation :: later => circuitAfter (client.perform circuit operation).2 later

/-- What happens at the circuit in a run of a new client. -/
def trace (operations : List Operation) : List (Event Rat) :=
  (client.run .fresh operations).flatMap Done.events

end JiraEvidenceClient

/-! ## What an operation does at the circuit -/

section
variable {α : Type} {attempts : Nat → Attempt α}

theorem attemptsFrom_called {n : Nat} : ∀ {i : Nat}, ∀ e ∈ (attemptsFrom attempts i n).1,
    ∃ j, j < i + n ∧ e = .called (attempts j).startedAt := by
  induction n with
  | zero => intro i e he; cases he
  | succ n ih =>
    intro i e he
    have hhere : ∀ e ∈ [Event.called (attempts i).startedAt],
        ∃ j, j < i + (n + 1) ∧ e = .called (attempts j).startedAt :=
      fun e he => ⟨i, by omega, List.mem_singleton.mp he⟩
    unfold attemptsFrom at he
    cases ho : (attempts i).outcome with
    | evidence result =>
      rw [ho] at he
      exact hhere e he
    | timedOut =>
      rw [ho] at he
      rcases List.mem_cons.mp he with he | he
      · exact hhere e (List.mem_singleton.mpr he)
      · obtain ⟨j, hj, he⟩ := ih e he
        exact ⟨j, by omega, he⟩
    | raised =>
      rw [ho] at he
      exact hhere e he

/-- Exhausted attempts have all timed out, and all were made. -/
theorem attemptsFrom_exhausted {n : Nat} : ∀ {i : Nat}, (attemptsFrom attempts i n).2 = .exhausted ↔
    ∀ j, j < n → (attempts (i + j)).outcome = .timedOut := by
  induction n with
  | zero => intro i; exact iff_of_true rfl fun j hj => absurd hj (Nat.not_lt_zero j)
  | succ n ih =>
    intro i
    unfold attemptsFrom
    cases ho : (attempts i).outcome with
    | evidence result =>
      refine iff_of_false (by simp) fun h => ?_
      have := h 0 n.succ_pos
      rw [Nat.add_zero, ho] at this
      cases this
    | raised =>
      refine iff_of_false (by simp) fun h => ?_
      have := h 0 n.succ_pos
      rw [Nat.add_zero, ho] at this
      cases this
    | timedOut =>
      dsimp only
      rw [ih]
      constructor
      · intro h j hj
        cases j with
        | zero => exact ho
        | succ j =>
          have := h j (by omega)
          rwa [Nat.add_right_comm, Nat.add_assoc] at this
      · intro h j hj
        have := h (j + 1) (by omega)
        rwa [Nat.add_right_comm, Nat.add_assoc]

theorem attemptsFrom_some {i n : Nat} (hn : 1 ≤ n) : (attemptsFrom attempts i n).1 ≠ [] := by
  obtain ⟨n, rfl⟩ := Nat.exists_eq_add_of_le' hn
  unfold attemptsFrom
  cases (attempts i).outcome <;> simp

theorem attemptsFrom_length {n : Nat} : ∀ {i : Nat}, (attemptsFrom attempts i n).1.length ≤ n := by
  induction n with
  | zero => intro i; exact Nat.le_refl 0
  | succ n ih =>
    intro i
    unfold attemptsFrom
    cases (attempts i).outcome with
    | evidence result => exact Nat.le_add_left 1 n
    | timedOut => exact Nat.succ_le_succ ih
    | raised => exact Nat.le_add_left 1 n

end

namespace JiraEvidenceClient

variable {client : JiraEvidenceClient} {circuit : Circuit Rat} {α : Type} {reading : Reading α} {served : Served α}

/-- How an operation ends: the circuit or a check refuses it, at first or once the circuit
    has been looked at, or it reads. -/
inductive Handled (client : JiraEvidenceClient) (circuit : Circuit Rat) (reading : Reading α) : Served α → Prop where
  | refused (error : ReadError) (h : error ≠ .timeout)
      (hopen : error = .circuitOpen → client.checkCircuit circuit reading.checkedAt = none) :
      Handled client circuit reading ⟨[], circuit, .error error⟩
  | turnedAway (events : List (Event Rat)) (next : Circuit Rat) (error : ReadError) (h : error ≠ .timeout)
      (hopen : error ≠ .circuitOpen) (hcheck : client.checkCircuit circuit reading.checkedAt = some (events, next)) :
      Handled client circuit reading ⟨events, next, .error error⟩
  | read (events : List (Event Rat)) (next : Circuit Rat)
      (hcheck : client.checkCircuit circuit reading.checkedAt = some (events, next)) :
      Handled client circuit reading (Served.after events (client.read next reading))

theorem getIssue_handled (client : JiraEvidenceClient) (circuit : Circuit Rat) (issueKey : String)
    (reading : Reading α) : Handled client circuit reading (client.getIssue circuit issueKey reading) := by
  unfold getIssue
  cases hcheck : client.checkCircuit circuit reading.checkedAt with
  | none => exact .refused _ (by simp) fun _ => hcheck
  | some checked =>
    obtain ⟨events, next⟩ := checked
    dsimp only
    split
    · exact .read events next hcheck
    · exact .turnedAway events next _ (by simp) (by simp) hcheck

theorem checkQuery_error [TextTables] {jql projectKey : String} {error : ReadError}
    (h : client.checkQuery jql projectKey = .error error) : error ≠ .timeout ∧ error ≠ .circuitOpen := by
  unfold checkQuery at h
  split at h
  · cases h
    simp
  · split at h
    · cases h
      simp
    · split at h
      · cases h
        simp
      · cases h

theorem searchIssues_handled [TextTables] (client : JiraEvidenceClient) (circuit : Circuit Rat)
    (jql projectKey : String) (reading : Reading α) :
    Handled client circuit reading (client.searchIssues circuit jql projectKey reading) := by
  unfold searchIssues
  cases hquery : client.checkQuery jql projectKey with
  | error error =>
    obtain ⟨htimeout, hopen⟩ := checkQuery_error hquery
    exact .refused error htimeout fun he => absurd he hopen
  | ok _ =>
    cases hcheck : client.checkCircuit circuit reading.checkedAt with
    | none => exact .refused _ (by simp) fun _ => hcheck
    | some checked => exact .read checked.1 checked.2 hcheck

/-- A circuit that lets an operation through is closed then. -/
theorem checkCircuit_some {now : Rat} {events : List (Event Rat)} {next : Circuit Rat}
    (hsettled : circuit.settled client.circuitFailureThreshold.1 = true)
    (h : client.checkCircuit circuit now = some (events, next)) :
    follow client.circuitFailureThreshold.1 client.circuitResetSeconds circuit events = some next ∧
      next.closed client.circuitFailureThreshold.1 = true ∧ ∀ e ∈ events, e = .reset now := by
  unfold checkCircuit at h
  cases hopened : circuit.openedAt with
  | none =>
    rw [hopened] at h
    cases h
    refine ⟨rfl, ?_, fun e he => by cases he⟩
    unfold Circuit.settled at hsettled
    unfold Circuit.closed
    rw [hopened] at hsettled ⊢
    exact hsettled
  | some openedAt =>
    rw [hopened] at h
    dsimp only at h
    split at h
    · cases h
    · rename_i helapsed
      cases h
      have hallow : Breaker.allow client.circuitFailureThreshold.1 client.circuitResetSeconds circuit (.reset now) =
          some .fresh := allow_reset.mpr ⟨openedAt, hopened, not_lt.mp helapsed, rfl⟩
      refine ⟨?_, closed_iff.mpr ⟨rfl, client.circuitFailureThreshold.2⟩, fun e he => List.mem_singleton.mp he⟩
      rw [follow, hallow]
      rfl

/-- The calls of an operation that was let through, and how it ends. -/
inductive Reads (client : JiraEvidenceClient) (circuit : Circuit Rat) (reading : Reading α) (calls : List (Event Rat)) :
    Served α → Prop where
  | succeeded (result : α) (hsome : ¬ reading.Exhausts client.maxAttempts.1) : Reads client circuit reading calls
      ⟨calls ++ [.succeeded], ⟨0, circuit.openedAt⟩, .ok result⟩
  | raised (hsome : ¬ reading.Exhausts client.maxAttempts.1) :
      Reads client circuit reading calls ⟨calls, circuit, .error .other⟩
  | failed (hall : reading.Exhausts client.maxAttempts.1)
      (h : circuit.failures + 1 < client.circuitFailureThreshold.1) : Reads client circuit reading calls
      ⟨calls ++ [.failed reading.endedAt], ⟨circuit.failures + 1, circuit.openedAt⟩, .error .timeout⟩
  | opened (hall : reading.Exhausts client.maxAttempts.1)
      (h : client.circuitFailureThreshold.1 ≤ circuit.failures + 1) : Reads client circuit reading calls
      ⟨calls ++ [.failed reading.endedAt, .opened reading.endedAt], ⟨circuit.failures + 1, some reading.endedAt⟩,
        .error .timeout⟩

theorem exhausts_iff {maxAttempts : Nat} :
    reading.Exhausts maxAttempts ↔ (attemptsFrom reading.attempts 0 maxAttempts).2 = .exhausted := by
  rw [attemptsFrom_exhausted]
  simp only [Nat.zero_add]
  rfl

theorem read_reads (client : JiraEvidenceClient) (circuit : Circuit Rat) (reading : Reading α) :
    Reads client circuit reading (attemptsFrom reading.attempts 0 client.maxAttempts.1).1
      (client.read circuit reading) := by
  have hexhausts : reading.Exhausts client.maxAttempts.1 ↔
      (attemptsFrom reading.attempts 0 client.maxAttempts.1).2 = .exhausted := exhausts_iff
  unfold read
  cases hattempts : attemptsFrom reading.attempts 0 client.maxAttempts.1 with
  | mk calls ended =>
    rw [hattempts] at hexhausts
    cases ended with
    | evidence result => exact .succeeded result fun h => nomatch hexhausts.mp h
    | raised => exact .raised fun h => nomatch hexhausts.mp h
    | exhausted =>
      dsimp only
      split
      · rename_i hreached
        exact .opened (hexhausts.mpr rfl) hreached
      · rename_i hbelow
        exact .failed (hexhausts.mpr rfl) (not_le.mp hbelow)

theorem Reads.follows {calls : List (Event Rat)} (h : Reads client circuit reading calls served)
    (hclosed : circuit.closed client.circuitFailureThreshold.1 = true) (hcalls : ∀ e ∈ calls, ∃ now, e = .called now) :
    follow client.circuitFailureThreshold.1 client.circuitResetSeconds circuit served.events = some served.circuit ∧
      served.circuit.settled client.circuitFailureThreshold.1 = true := by
  obtain ⟨hnone, hbelow⟩ := closed_iff.mp hclosed
  have hsame : follow client.circuitFailureThreshold.1 client.circuitResetSeconds circuit calls = some circuit :=
    follow_of_called hclosed hcalls
  cases h with
  | succeeded result _ =>
    exact ⟨follow_snoc.mpr ⟨circuit, hsame, allow_succeeded.mpr ⟨hclosed, rfl⟩⟩,
      settled_of_lt client.circuitFailureThreshold.2⟩
  | raised _ => exact ⟨hsame, settled_of_lt hbelow⟩
  | failed _ h =>
    exact ⟨follow_snoc.mpr ⟨circuit, hsame, allow_failed.mpr ⟨hclosed, rfl⟩⟩, settled_of_lt h⟩
  | opened _ h =>
    refine ⟨?_, rfl⟩
    show follow _ _ circuit (calls ++ .failed reading.endedAt :: [.opened reading.endedAt]) = _
    rw [List.append_cons]
    refine follow_snoc.mpr ⟨⟨circuit.failures + 1, circuit.openedAt⟩, ?_, allow_opened.mpr ⟨?_, rfl⟩⟩
    · exact follow_snoc.mpr ⟨circuit, hsame, allow_failed.mpr ⟨hclosed, rfl⟩⟩
    · exact not_settled_iff.mpr ⟨hnone, h⟩

/-- An operation is refused for the circuit only where the circuit lets none through. -/
theorem Handled.checkCircuit_none (h : Handled client circuit reading served)
    (hopen : served.done.error = some .circuitOpen) : client.checkCircuit circuit reading.checkedAt = none := by
  cases h with
  | refused error _ hnone => exact hnone (Option.some.inj hopen)
  | turnedAway events next error _ hnot _ => exact absurd (Option.some.inj hopen) hnot
  | read events next _ =>
    have hreads := read_reads client next reading
    generalize client.read next reading = served at hreads hopen
    cases hreads with
    | succeeded result _ => cases hopen
    | raised _ => cases hopen
    | failed _ _ => cases hopen
    | opened _ _ => cases hopen

/-- An operation keeps to the rules of a breaker. -/
theorem Handled.follows (h : Handled client circuit reading served)
    (hsettled : circuit.settled client.circuitFailureThreshold.1 = true) :
    follow client.circuitFailureThreshold.1 client.circuitResetSeconds circuit served.events = some served.circuit ∧
      served.circuit.settled client.circuitFailureThreshold.1 = true := by
  cases h with
  | refused error _ _ => exact ⟨rfl, hsettled⟩
  | turnedAway events next error _ _ hcheck =>
    obtain ⟨hevents, hclosed, -⟩ := checkCircuit_some hsettled hcheck
    exact ⟨hevents, settled_of_closed hclosed⟩
  | read events next hcheck =>
    obtain ⟨hevents, hclosed, -⟩ := checkCircuit_some hsettled hcheck
    have hreads := read_reads client next reading
    obtain ⟨hread, hdone⟩ := hreads.follows hclosed fun e he => by
      obtain ⟨j, -, he⟩ := attemptsFrom_called e he
      exact ⟨_, he⟩
    refine ⟨?_, hdone⟩
    show follow _ _ circuit (events ++ (client.read next reading).events) = _
    rw [follow_append, hevents]
    exact hread

/-- What the events of an operation tell of its calls, its outcome and its times. -/
structure Faithful (client : JiraEvidenceClient) (reading : Reading α) (served : Served α) : Prop where
  calls : served.events.countP Event.isCall ≤ client.maxAttempts.1
  failed : (∃ now, Event.failed now ∈ served.events) ↔ served.done.error = some .timeout
  once : served.events.countP Event.isFailure ≤ 1
  succeeded : Event.succeeded ∈ served.events ↔ served.done.error = none
  timeout : served.done.error = some .timeout ↔
    (∃ now, Event.called now ∈ served.events) ∧ reading.Exhausts client.maxAttempts.1
  reset_time : ∀ now, Event.reset now ∈ served.events → now = reading.checkedAt
  called_time : ∀ now, Event.called now ∈ served.events →
    ∃ i, i < client.maxAttempts.1 ∧ now = (reading.attempts i).startedAt

theorem checkCircuit_events {now : Rat} {events : List (Event Rat)} {next : Circuit Rat}
    (h : client.checkCircuit circuit now = some (events, next)) : ∀ e ∈ events, e = .reset now := by
  intro e he
  unfold checkCircuit at h
  split at h
  · cases h
    cases he
  · split at h
    · cases h
    · cases h
      exact List.mem_singleton.mp he

/-- A reset, the calls, and then only what says how the operation ended. -/
theorem faithful_of_tail {events : List (Event Rat)} (calls tail : List (Event Rat))
    (hevents : ∀ e ∈ events, e = .reset reading.checkedAt)
    (hcalls : ∀ e ∈ calls, ∃ i, i < client.maxAttempts.1 ∧ e = .called (reading.attempts i).startedAt)
    (hlength : calls.length ≤ client.maxAttempts.1)
    (htail : ∀ e ∈ tail, e.isCall = false ∧ ∀ now, e ≠ .reset now) (honce : tail.countP Event.isFailure ≤ 1)
    (hserved : served.events = events ++ (calls ++ tail))
    (htimeout : served.done.error = some .timeout ↔ calls ≠ [] ∧ reading.Exhausts client.maxAttempts.1)
    (hfailed : (∃ now, Event.failed now ∈ tail) ↔ served.done.error = some .timeout)
    (hsucceeded : Event.succeeded ∈ tail ↔ served.done.error = none) : Faithful client reading served := by
  have hmem : ∀ e ∈ served.events, e = .reset reading.checkedAt ∨
      (∃ i, i < client.maxAttempts.1 ∧ e = .called (reading.attempts i).startedAt) ∨ e ∈ tail := by
    intro e he
    rw [hserved, List.mem_append, List.mem_append] at he
    exact he.imp (hevents e) (Or.imp_left (hcalls e))
  refine ⟨?_, ?_, ?_, ?_, ?_, fun now h => ?_, fun now h => ?_⟩
  · have hbefore : events.countP Event.isCall = 0 :=
      List.countP_eq_zero.mpr fun e he => by rw [hevents e he]; exact Bool.false_ne_true
    have hafter : tail.countP Event.isCall = 0 :=
      List.countP_eq_zero.mpr fun e he => by rw [(htail e he).1]; exact Bool.false_ne_true
    have hcount := calls.countP_le_length (p := Event.isCall)
    rw [hserved, List.countP_append, List.countP_append]
    omega
  · rw [← hfailed]
    refine exists_congr fun now => ⟨fun h => ?_, fun h => ?_⟩
    · rcases hmem _ h with h | h | h
      · cases h
      · obtain ⟨i, -, h⟩ := h
        cases h
      · exact h
    · rw [hserved]
      exact List.mem_append_right _ (List.mem_append_right _ h)
  · have hbefore : events.countP Event.isFailure = 0 :=
      List.countP_eq_zero.mpr fun e he => by rw [hevents e he]; exact Bool.false_ne_true
    have hcalled : calls.countP Event.isFailure = 0 := List.countP_eq_zero.mpr fun e he => by
      obtain ⟨i, -, rfl⟩ := hcalls e he
      exact Bool.false_ne_true
    rw [hserved, List.countP_append, List.countP_append]
    omega
  · rw [← hsucceeded]
    refine ⟨fun h => ?_, fun h => ?_⟩
    · rcases hmem _ h with h | h | h
      · cases h
      · obtain ⟨i, -, h⟩ := h
        cases h
      · exact h
    · rw [hserved]
      exact List.mem_append_right _ (List.mem_append_right _ h)
  · rw [htimeout]
    refine and_congr_left' ⟨fun h => ?_, fun h => ?_⟩
    · obtain ⟨e, he⟩ := List.exists_mem_of_ne_nil _ h
      obtain ⟨i, -, rfl⟩ := hcalls e he
      refine ⟨(reading.attempts i).startedAt, ?_⟩
      rw [hserved]
      exact List.mem_append_right _ (List.mem_append_left _ he)
    · obtain ⟨now, h⟩ := h
      rw [hserved, List.mem_append, List.mem_append] at h
      rcases h with h | h | h
      · cases hevents _ h
      · exact List.ne_nil_of_mem h
      · exact absurd (htail _ h).1 (by simp [Event.isCall])
  · rcases hmem _ h with h | h | h
    · cases h
      rfl
    · obtain ⟨i, -, h⟩ := h
      cases h
    · exact absurd rfl ((htail _ h).2 now)
  · rcases hmem _ h with h | h | h
    · cases h
    · obtain ⟨i, hi, h⟩ := h
      cases h
      exact ⟨i, hi, rfl⟩
    · exact absurd (htail _ h).1 (by simp [Event.isCall])

theorem Handled.faithful (h : Handled client circuit reading served) : Faithful client reading served := by
  cases h with
  | refused error herror _ =>
    have hnone : ∀ e ∈ ([] : List (Event Rat)), e = .reset reading.checkedAt := fun e he => by cases he
    refine faithful_of_tail [] [] hnone ?_ ?_ ?_ ?_ rfl ?_ ?_ ?_
    all_goals simp [Served.done, herror]
  | turnedAway events next error herror _ hcheck =>
    refine faithful_of_tail [] [] (checkCircuit_events hcheck) ?_ ?_ ?_ ?_ (by simp) ?_ ?_ ?_
    all_goals simp [Served.done, herror]
  | read events next hcheck =>
    have hevents := checkCircuit_events hcheck
    have hreads := read_reads client next reading
    have hcalls : ∀ e ∈ (attemptsFrom reading.attempts 0 client.maxAttempts.1).1,
        ∃ i, i < client.maxAttempts.1 ∧ e = .called (reading.attempts i).startedAt := by
      intro e he
      obtain ⟨i, hi, he⟩ := attemptsFrom_called e he
      exact ⟨i, by omega, he⟩
    have hlength : (attemptsFrom reading.attempts 0 client.maxAttempts.1).1.length ≤ client.maxAttempts.1 :=
      attemptsFrom_length
    have hsome : (attemptsFrom reading.attempts 0 client.maxAttempts.1).1 ≠ [] :=
      attemptsFrom_some client.maxAttempts.2
    generalize (attemptsFrom reading.attempts 0 client.maxAttempts.1).1 = calls at hcalls hlength hreads hsome
    generalize client.read next reading = served at hreads
    cases hreads with
    | succeeded result hnot =>
      refine faithful_of_tail calls [.succeeded] hevents hcalls hlength ?_ ?_ rfl ?_ ?_ ?_
      all_goals simp [Served.done, Served.after, Event.isCall, Event.isFailure, hnot]
    | raised hnot =>
      refine faithful_of_tail calls [] hevents hcalls hlength ?_ ?_ (by simp [Served.after]) ?_ ?_ ?_
      · exact fun e he => nomatch he
      · exact Nat.zero_le 1
      all_goals simp [Served.done, Served.after, hnot]
    | failed hall _ =>
      refine faithful_of_tail calls [.failed reading.endedAt] hevents hcalls hlength ?_ ?_ rfl ?_ ?_ ?_
      all_goals simp [Served.done, Served.after, Event.isCall, Event.isFailure, hall, hsome]
    | opened hall _ =>
      refine faithful_of_tail calls [.failed reading.endedAt, .opened reading.endedAt] hevents hcalls hlength
        ?_ Nat.le.refl rfl ?_ ?_ ?_
      all_goals simp [Served.done, Served.after, Event.isCall, hall, hsome]

end JiraEvidenceClient

/-! ## Runs -/

namespace Operation

def checkedAt : Operation → Rat
  | getIssue _ reading => reading.checkedAt
  | searchIssues _ _ reading => reading.checkedAt

def startedAt (i : Nat) : Operation → Rat
  | getIssue _ reading => (reading.attempts i).startedAt
  | searchIssues _ _ reading => (reading.attempts i).startedAt

def endedAt : Operation → Rat
  | getIssue _ reading => reading.endedAt
  | searchIssues _ _ reading => reading.endedAt

/-- Every attempt it may make times out. -/
def Exhausts (maxAttempts : Nat) : Operation → Prop
  | getIssue _ reading => reading.Exhausts maxAttempts
  | searchIssues _ _ reading => reading.Exhausts maxAttempts

/-- The clock does not go back during an operation. -/
def InTime (client : JiraEvidenceClient) (operation : Operation) : Prop :=
  ∀ i < client.maxAttempts.1, operation.checkedAt ≤ operation.startedAt i ∧ operation.startedAt i ≤ operation.endedAt

end Operation

namespace JiraEvidenceClient

variable [TextTables] {client : JiraEvidenceClient} {circuit : Circuit Rat}

theorem perform_follows (operation : Operation) (hsettled : circuit.settled client.circuitFailureThreshold.1 = true) :
    follow client.circuitFailureThreshold.1 client.circuitResetSeconds circuit
        (client.perform circuit operation).1.events = some (client.perform circuit operation).2 ∧
      (client.perform circuit operation).2.settled client.circuitFailureThreshold.1 = true := by
  cases operation with
  | getIssue issueKey reading => exact (getIssue_handled client circuit issueKey reading).follows hsettled
  | searchIssues jql projectKey reading =>
    exact (searchIssues_handled client circuit jql projectKey reading).follows hsettled

/-- What an operation's events tell: its calls, that it is counted once as a failure if it
    reports a timeout, and that it does so exactly when it calls and every attempt it has
    times out. -/
structure Tells (client : JiraEvidenceClient) (operation : Operation) (done : Done) : Prop where
  calls : done.events.countP Event.isCall ≤ client.maxAttempts.1
  failed : (∃ now, Event.failed now ∈ done.events) ↔ done.error = some .timeout
  once : done.events.countP Event.isFailure ≤ 1
  succeeded : Event.succeeded ∈ done.events ↔ done.error = none
  timeout : done.error = some .timeout ↔
    (∃ now, Event.called now ∈ done.events) ∧ operation.Exhausts client.maxAttempts.1

theorem perform_tells (operation : Operation) : Tells client operation (client.perform circuit operation).1 := by
  cases operation with
  | getIssue issueKey reading =>
    obtain ⟨hcalls, hfailed, honce, hsucceeded, htimeout, -, -⟩ := (getIssue_handled client circuit issueKey reading).faithful
    exact ⟨hcalls, hfailed, honce, hsucceeded, htimeout⟩
  | searchIssues jql projectKey reading =>
    obtain ⟨hcalls, hfailed, honce, hsucceeded, htimeout, -, -⟩ :=
      (searchIssues_handled client circuit jql projectKey reading).faithful
    exact ⟨hcalls, hfailed, honce, hsucceeded, htimeout⟩

theorem run_tells {operations : List Operation} : ∀ {circuit : Circuit Rat},
    List.Forall₂ (Tells client) operations (client.run circuit operations) := by
  induction operations with
  | nil => intro _; exact .nil
  | cons operation later ih => intro _; exact .cons (perform_tells operation) ih

theorem run_follows_from {operations : List Operation} : ∀ {circuit : Circuit Rat},
    circuit.settled client.circuitFailureThreshold.1 = true →
      follow client.circuitFailureThreshold.1 client.circuitResetSeconds circuit
          ((client.run circuit operations).flatMap Done.events) = some (client.circuitAfter circuit operations) ∧
        (client.circuitAfter circuit operations).settled client.circuitFailureThreshold.1 = true := by
  induction operations with
  | nil => intro circuit hsettled; exact ⟨rfl, hsettled⟩
  | cons operation later ih =>
    intro circuit hsettled
    obtain ⟨hevents, hnext⟩ := perform_follows operation hsettled
    obtain ⟨hrest, hfinal⟩ := ih hnext
    refine ⟨?_, hfinal⟩
    rw [run, List.flatMap_cons, follow_append, hevents]
    exact hrest

/-- The events of a run are those of a breaker that looks before it calls. -/
theorem run_follows (client : JiraEvidenceClient) (operations : List Operation) :
    follow client.circuitFailureThreshold.1 client.circuitResetSeconds .fresh (client.trace operations) =
        some (client.circuitAfter .fresh operations) ∧
      (client.circuitAfter .fresh operations).settled client.circuitFailureThreshold.1 = true :=
  run_follows_from (settled_of_lt client.circuitFailureThreshold.2)

/-- An operation is refused for the circuit only while it is open. -/
theorem perform_circuitOpen {operation : Operation}
    (h : (client.perform circuit operation).1.error = some .circuitOpen) :
    ∃ openedAt, circuit.openedAt = some openedAt ∧ operation.checkedAt - openedAt < client.circuitResetSeconds := by
  have hcheck : client.checkCircuit circuit operation.checkedAt = none := by
    cases operation with
    | getIssue issueKey reading => exact (getIssue_handled client circuit issueKey reading).checkCircuit_none h
    | searchIssues jql projectKey reading =>
      exact (searchIssues_handled client circuit jql projectKey reading).checkCircuit_none h
  unfold checkCircuit at hcheck
  split at hcheck
  · cases hcheck
  · rename_i openedAt hopen
    split at hcheck
    · rename_i hless
      exact ⟨openedAt, hopen, hless⟩
    · cases hcheck

/-- When an operation's events happened. -/
theorem perform_times (client : JiraEvidenceClient) (circuit : Circuit Rat) (operation : Operation) :
    (∀ now, Event.reset now ∈ (client.perform circuit operation).1.events → now = operation.checkedAt) ∧
    ∀ now, Event.called now ∈ (client.perform circuit operation).1.events →
      ∃ i, i < client.maxAttempts.1 ∧ now = operation.startedAt i := by
  cases operation with
  | getIssue issueKey reading =>
    obtain ⟨-, -, -, -, -, hreset, hcalled⟩ := (getIssue_handled client circuit issueKey reading).faithful
    exact ⟨hreset, hcalled⟩
  | searchIssues jql projectKey reading =>
    obtain ⟨-, -, -, -, -, hreset, hcalled⟩ := (searchIssues_handled client circuit jql projectKey reading).faithful
    exact ⟨hreset, hcalled⟩

/-- No call of a run starts before one of its operations looks at the clock. -/
theorem run_called {operations : List Operation} (htime : ∀ operation ∈ operations, operation.InTime client) :
    ∀ {circuit : Circuit Rat}, ∀ now, Event.called now ∈ (client.run circuit operations).flatMap Done.events →
      ∃ operation ∈ operations, operation.checkedAt ≤ now := by
  induction operations with
  | nil => intro _ now h; cases h
  | cons operation later ih =>
    intro circuit now h
    rw [run, List.flatMap_cons, List.mem_append] at h
    rcases h with h | h
    · obtain ⟨i, hi, rfl⟩ := (perform_times client circuit operation).2 now h
      exact ⟨operation, List.mem_cons_self, (htime operation List.mem_cons_self i hi).1⟩
    · obtain ⟨operation, hmem, hle⟩ := ih (fun o ho => htime o (List.mem_cons_of_mem _ ho)) now h
      exact ⟨operation, List.mem_cons_of_mem _ hmem, hle⟩

/-- No reset looks at the clock after a call that comes after it. -/
theorem run_before {operations : List Operation} (htime : ∀ operation ∈ operations, operation.InTime client)
    (hclock : operations.Pairwise fun a b => a.endedAt ≤ b.checkedAt) : ∀ {circuit : Circuit Rat},
      ((client.run circuit operations).flatMap Done.events).Pairwise Event.Before := by
  induction operations with
  | nil => intro _; exact .nil
  | cons operation later ih =>
    intro circuit
    obtain ⟨hnext, hclock⟩ := List.pairwise_cons.mp hclock
    have hlater := fun o (ho : o ∈ later) => htime o (List.mem_cons_of_mem _ ho)
    obtain ⟨hreset, hcalled⟩ := perform_times client circuit operation
    have hhere := htime operation List.mem_cons_self
    have hspan : operation.checkedAt ≤ operation.endedAt :=
      (hhere 0 client.maxAttempts.2).1.trans (hhere 0 client.maxAttempts.2).2
    rw [run, List.flatMap_cons, List.pairwise_append]
    -- A reset of this operation comes before its own calls, and before all later operations.
    refine ⟨List.pairwise_of_forall_mem_list fun a ha b hb => ?_, ih hlater hclock, fun a ha b hb => ?_⟩
    · cases a with
      | reset now =>
        cases b with
        | called start =>
          rw [hreset now ha]
          obtain ⟨i, hi, rfl⟩ := hcalled start hb
          exact (hhere i hi).1
        | _ => trivial
      | _ => trivial
    · cases a with
      | reset now =>
        cases b with
        | called start =>
          rw [hreset now ha]
          obtain ⟨o, ho, hle⟩ := run_called hlater start hb
          exact hspan.trans ((hnext o ho).trans hle)
        | _ => trivial
      | _ => trivial

/-- The law of the read circuit, over any run of a new client: what each operation tells; no
    call, and no reset, comes within the reset time of the last opening, and none is refused
    later; and the circuit opens with the failure that reaches the threshold, and no other way. -/
theorem read_circuit_holds (client : JiraEvidenceClient) (operations : List Operation)
    (htime : ∀ operation ∈ operations, operation.InTime client)
    (hclock : operations.Pairwise fun a b => a.endedAt ≤ b.checkedAt) :
    List.Forall₂ (Tells client) operations (client.run .fresh operations) ∧
    (∀ before now after openedAt, client.trace operations = before ++ .called now :: after →
      lastOpened before = some openedAt → client.circuitResetSeconds ≤ now - openedAt) ∧
    (∀ before now after, client.trace operations = before ++ .reset now :: after →
      ∃ openedAt, lastOpened before = some openedAt ∧ client.circuitResetSeconds ≤ now - openedAt) ∧
    (∀ before operation later, operations = before ++ operation :: later →
      (client.perform (client.circuitAfter .fresh before) operation).1.error = some .circuitOpen →
      ∃ openedAt, lastOpened (client.trace before) = some openedAt ∧
        operation.checkedAt - openedAt < client.circuitResetSeconds) ∧
    (∀ before now after, client.trace operations = before ++ .failed now :: after →
      ((∃ later rest, after = .opened later :: rest) ↔
        failures (before ++ [.failed now]) = client.circuitFailureThreshold.1)) ∧
    ∀ before now after, client.trace operations = before ++ .opened now :: after →
      ∃ earlier failedAt, before = earlier ++ [.failed failedAt] := by
  obtain ⟨hfollow, hsettled⟩ := run_follows client operations
  have horder : (client.trace operations).Pairwise Event.Before := run_before htime hclock
  refine ⟨run_tells, fun before now after openedAt h hlast => ?_, fun before now after h => ?_,
    fun before operation later _ hopen => ?_, fun before now after h => ?_, fun before now after h => ?_⟩
  · rw [h] at hfollow horder
    exact follow_calls hfollow horder hlast
  · rw [h] at hfollow
    exact follow_resets hfollow
  · obtain ⟨openedAt, hat, hless⟩ := perform_circuitOpen hopen
    exact ⟨openedAt, follow_openedAt (run_follows client before).1 hat, hless⟩
  · rw [h] at hfollow
    exact follow_opens hfollow hsettled
  · rw [h] at hfollow
    exact follow_opened client.circuitFailureThreshold.2 hfollow

end JiraEvidenceClient

namespace JiraEvidenceClient

/-- Two attempts an operation, and one operation that times out opens the circuit. -/
def oneStrike : JiraEvidenceClient := ⟨["WFD"], ⟨2, Nat.zero_lt_two⟩, ⟨1, Nat.zero_lt_one⟩, 30⟩

/-- An issue that times out, another asked for at once, and a third a minute later. -/
def threeReads : List Operation := [0, 10, 60].map fun now =>
  .getIssue "WFD-1" ⟨now, fun i => ⟨now + if i = 0 then 0 else 4, .timedOut⟩, now + 8⟩

/-- The first read opens the circuit, the second is refused, and the third resets it and opens
    it again. -/
theorem read_circuit_holds_three : letI := TextTables.ascii
    oneStrike.trace threeReads = [.called 0, .called 4, .failed 8, .opened 8, .reset 60, .called 60, .called 64,
      .failed 68, .opened 68] ∧
    (oneStrike.run .fresh threeReads).map Done.error = [some .timeout, some .circuitOpen, some .timeout] ∧
    List.Forall₂ (Tells oneStrike) threeReads (oneStrike.run .fresh threeReads) ∧
    failures [Event.called (0 : Rat), .called 4, .failed 8] = 1 ∧ 30 ≤ (64 : Rat) - 8 := by
  let tables := TextTables.ascii
  have htime : ∀ operation ∈ threeReads, operation.InTime oneStrike := by
    intro operation hoperation i _
    obtain ⟨now, -, rfl⟩ := List.mem_map.mp hoperation
    show now ≤ now + (if i = 0 then 0 else 4) ∧ now + (if i = 0 then 0 else 4) ≤ now + 8
    split <;> constructor <;> linarith
  have hclock : threeReads.Pairwise fun a b => a.endedAt ≤ b.checkedAt := by
    rw [threeReads, List.pairwise_map]
    simp only [Operation.endedAt, Operation.checkedAt]
    norm_num
  have htrace : oneStrike.trace threeReads = [.called 0, .called 4, .failed 8, .opened 8, .reset 60, .called 60,
      .called 64, .failed 68, .opened 68] := by decide +kernel
  obtain ⟨htells, hcalls, -, -, hopens, -⟩ := read_circuit_holds oneStrike threeReads htime hclock
  refine ⟨htrace, by decide +kernel, htells, (hopens [.called 0, .called 4] 8 _ htrace).mp ⟨8, _, rfl⟩, ?_⟩
  exact hcalls [.called 0, .called 4, .failed 8, .opened 8, .reset 60, .called 60] 64 [.failed 68, .opened 68] 8 htrace rfl

end JiraEvidenceClient

end WorkforceRisk.Jira
