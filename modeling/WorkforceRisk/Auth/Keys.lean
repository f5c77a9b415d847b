/-
  WorkforceRisk.Auth.Keys — the table of API keys and the commands that write it
  (scripts/security/manage_api_keys.py, `ApiKeyService.generate` of auth/api_keys.py,
  packages/persistence/src/workforce_persistence/bootstrap.py).

  A command prepares one transaction and runs it. What a run draws (a token's bytes, a
  uuid, the clock) is part of the command; what becomes of its transaction is `Fate`. A
  run's commands are listed the last one first, in the order they commit. Two bootstraps
  that both miss the row end as one after the other: the unique digest refuses the second.
  Neither arguments nor variables carry a NUL, which the columns would refuse.

  Proved: an execution changes rows by revoking them and adds rows behind them
  (`evolves`), so no row is lost; a row keeps all but its revocation (`foldr_aged`), and
  is revoked exactly when an execution since revokes it (`revokedAt_foldr`).
-/

import WorkforceRisk.Auth.ApiKeys
import WorkforceRisk.Lib.Base64
import WorkforceRisk.Lib.Rows
import WorkforceRisk.Lib.Table
import WorkforceRisk.Persistence.Calendar

namespace WorkforceRisk.Auth

open Historical Persistence Contracts Evidence

namespace Keys

open Lib

/-! ## The table -/

structure KeyRow extends ApiKeyPrincipal where
  id : Uuid

instance : Keyed KeyRow := Keyed.byIdAnd KeyRow.id fun row => row.keyDigest

abbrev KeyTable := Table KeyRow

/-- What a `VARCHAR(n)` column keeps of a text: only spaces are cut off. -/
def varchar (n : Nat) (text : String) : Option String :=
  if text.length ≤ n then some text
  else if (text.toList.drop n).all (· == ' ') then some (String.ofList (text.toList.take n))
  else none

/-- The row as its columns keep it. -/
def KeyRow.stored (row : KeyRow) : Option KeyRow := do
  let actorId ← varchar 128 row.actorId
  let displayLabel ← varchar 128 row.displayLabel
  let keyDigest ← varchar 128 row.keyDigest
  let role ← varchar 32 row.role
  let environment ← varchar 16 row.environment
  return { row with actorId, displayLabel, keyDigest, role, environment }

inductive Statement where
  | add (row : KeyRow)
  | addUnlessThere (row : KeyRow)
  | setRevoked (recordId : Uuid) (now : DateTime)

def insertRow (t : KeyTable) (row : KeyRow) : Option KeyTable := row.stored.bind t.insert

/-- A transaction that commits; `none` is the database's refusal. -/
def Statement.perform (t : KeyTable) : Statement → Option KeyTable
  | .add row => insertRow t row
  | .addUnlessThere row =>
    match t.find? fun r => r.keyDigest == row.keyDigest with
    | some _ => some t
    | none => insertRow t row
  | .setRevoked recordId now =>
    some (t.update (fun r => r.id == recordId) (fun r => { r with revokedAt := some now }) fun _ => rfl)

/-! ## The commands -/

/-- The arguments of `create`, as the parser lets them through. -/
structure CreateArgs where
  actorId : String
  label : String
  role : ApplicationRole
  environment : Environment
  project : List String
  expiresDays : Int
  offered : environment ≠ .test
  given : project ≠ []

inductive Command where
  | create (args : CreateArgs) (token : List UInt8) (id : Uuid) (now : DateTime)
  | revoke (recordId : Uuid) (now : DateTime)
  /-- `bootstrap`, with the variables that only it reads. -/
  | bootstrap (initialApiKey appEnvironment jiraProjectKey : Option String) (id : Uuid) (now : DateTime)

/-- How a command ends. -/
inductive Ending where
  | printed (lines : List String)
  | systemExit (message : String)
  | raised (error : Persistence.Raised)
  | databaseError
  deriving DecidableEq

/-- A variable that is neither missing nor empty. -/
def nonEmpty (value : Option String) : Option String := value.filter (· != "")

/-- `secrets.token_urlsafe`. -/
def tokenUrlsafe (token : List UInt8) : String := String.ofList (Base64.stripped (Base64.encode token))

/-- `now + timedelta(days=days)`. -/
def addDays (now : DateTime) (days : Int) : Except Persistence.Raised DateTime :=
  if days < -2147483648 ∨ 2147483647 < days then .error (.overflowError "Python int too large to convert to C int")
  else if 999999999 < days.natAbs then
    .error (.overflowError s!"days={days}; must have magnitude <= 999999999")
  else if Date.midnight (-719162) ≤ now + days * 86400000000 ∧ now + days * 86400000000 < Date.midnight 2932897 then
    .ok (now + days * 86400000000)
  else .error (.overflowError "date value out of range")

section
variable [KeyDigest]

/-- `ApiKeyService.generate`, with the bytes of its token. -/
def generate (pepper actorId displayLabel : String) (role : ApplicationRole) (environment : Environment)
    (projectScopes : List String) (now : DateTime) (expiresAt : Option DateTime) (token : List UInt8) :
    String × ApiKeyRecord :=
  let rawKey := "wrk_" ++ environment.value ++ "_" ++ tokenUrlsafe token
  (rawKey, {
    actorId, displayLabel, keyDigest := KeyDigest.hexdigest pepper rawKey, role, environment, projectScopes,
    createdAt := now, expiresAt, revokedAt := none })

/-- The row that `create` adds for a record. -/
def rowOf (id : Uuid) (record : ApiKeyRecord) : KeyRow where
  id
  actorId := record.actorId
  displayLabel := record.displayLabel
  keyDigest := record.keyDigest
  role := record.role.value
  environment := record.environment.value
  projectScopes := record.projectScopes
  createdAt := record.createdAt
  expiresAt := record.expiresAt
  revokedAt := none

def shortPepper : Persistence.Raised := .error (.valueError "API-key HMAC pepper must contain at least 32 bytes")

def buildInitialPrincipal (rawKey pepper environment projectKey : String) (now : DateTime) :
    Except Persistence.Raised ApiKeyPrincipal :=
  if pepper.utf8ByteSize < 32 then .error shortPepper
  else if startsWith rawKey ("wrk_" ++ environment ++ "_") then .ok
    { actorId := "initial-" ++ environment ++ "-manager"
      displayLabel := "Initial " ++ environment ++ " manager"
      keyDigest := KeyDigest.hexdigest pepper rawKey
      role := "manager"
      environment
      projectScopes := [projectKey]
      createdAt := now
      expiresAt := none
      revokedAt := none }
  else .error (.error (.valueError "initial API key does not match the environment"))

/-- What becomes of a transaction. -/
inductive Fate where
  | done
  /-- It commits, and the answer is lost. -/
  | lost
  | refused
  deriving DecidableEq

/-- A command, the variables it finds, and what becomes of its transaction. -/
structure Execution where
  databaseUrl : Option String
  pepper : Option String
  command : Command
  fate : Fate

/-- The bootstrap's message when a variable is missing. -/
def missingConfiguration (required : List (String × Option String)) : String :=
  "missing bootstrap configuration: " ++ ", ".intercalate ((required.filter (nonEmpty ·.2 == none)).map (·.1))

/-- The transaction of an execution and what it prints behind it. -/
def Execution.prepare (e : Execution) : Except Ending (Statement × List String) :=
  match e.command with
  | .create args token id now =>
    if nonEmpty e.databaseUrl = none then .error (.systemExit "--database-url or DATABASE_URL is required")
    else match nonEmpty e.pepper with
      | none => .error (.systemExit "API_KEY_HMAC_PEPPER is required")
      | some pepper =>
        if pepper.utf8ByteSize < 32 then .error (.raised shortPepper)
        else match addDays now args.expiresDays with
          | .error overflow => .error (.raised overflow)
          | .ok expiresAt =>
            let (rawKey, record) := generate pepper args.actorId args.label args.role args.environment args.project
              now (some expiresAt) token
            .ok (.add (rowOf id record), ["API key (shown once):", rawKey])
  | .revoke recordId now =>
    if nonEmpty e.databaseUrl = none then .error (.systemExit "--database-url or DATABASE_URL is required")
    else .ok (.setRevoked recordId now, ["revoked record " ++ uuidText recordId])
  | .bootstrap initialApiKey appEnvironment jiraProjectKey id now =>
    match nonEmpty e.databaseUrl, nonEmpty initialApiKey, nonEmpty e.pepper, nonEmpty appEnvironment,
        nonEmpty jiraProjectKey with
    | some _, some rawKey, some pepper, some environment, some projectKey =>
      match buildInitialPrincipal rawKey pepper environment projectKey now with
      | .error error => .error (.raised error)
      | .ok principal => .ok (.addUnlessThere { principal with id }, [])
    | _, _, _, _, _ => .error (.raised (.error (.runtimeError (missingConfiguration
        [("DATABASE_URL", e.databaseUrl), ("INITIAL_API_KEY", initialApiKey), ("API_KEY_HMAC_PEPPER", e.pepper),
          ("APP_ENVIRONMENT", appEnvironment), ("JIRA_PROJECT_KEY", jiraProjectKey)]))))

def execute (e : Execution) (t : KeyTable) : KeyTable × Ending :=
  match e.prepare with
  | .error ending => (t, ending)
  | .ok (statement, lines) =>
    match e.fate, statement.perform t with
    | .done, some t' => (t', .printed lines)
    | .lost, some t' => (t', .databaseError)
    | _, _ => (t, .databaseError)

/-- The table after executions, the last one first, from an empty one. -/
def tableAfter (executions : List Execution) : KeyTable := executions.foldr (fun e t => (execute e t).1) Table.empty

/-- What a preparation comes to, command by command. -/
inductive Execution.Prepares (e : Execution) : Except Ending (Statement × List String) → Prop
  | stops {ending : Ending} (hsilent : ∀ lines, ending ≠ .printed lines)
      (hurl : ∀ recordId now, e.command = .revoke recordId now → nonEmpty e.databaseUrl = none) :
      Prepares e (.error ending)
  | creates {args : CreateArgs} {token : List UInt8} {id : Uuid} {now : DateTime} {pepper rawKey : String}
      {record : ApiKeyRecord} (hcommand : e.command = .create args token id now)
      (hpepper : e.pepper = some pepper ∧ 32 ≤ pepper.utf8ByteSize)
      (hgenerate : generate pepper args.actorId args.label args.role args.environment args.project now
        (some (now + args.expiresDays * 86400000000)) token = (rawKey, record)) :
      Prepares e (.ok (.add (rowOf id record), ["API key (shown once):", rawKey]))
  | setsRevoked {recordId : Uuid} {now : DateTime} (hcommand : e.command = .revoke recordId now)
      (hurl : nonEmpty e.databaseUrl ≠ none) :
      Prepares e (.ok (.setRevoked recordId now, ["revoked record " ++ uuidText recordId]))
  | bootstraps {initialApiKey appEnvironment jiraProjectKey : Option String} {id : Uuid} {now : DateTime}
      {pepper rawKey environment projectKey : String} {principal : ApiKeyPrincipal}
      (hcommand : e.command = .bootstrap initialApiKey appEnvironment jiraProjectKey id now)
      (hpepper : e.pepper = some pepper) (henvironment : appEnvironment = some environment)
      (hprincipal : buildInitialPrincipal rawKey pepper environment projectKey now = .ok principal) :
      Prepares e (.ok (.addUnlessThere { principal with id }, []))

omit [KeyDigest] in
theorem nonEmpty_some {value : Option String} {text : String} (h : nonEmpty value = some text) : value = some text :=
  (Option.filter_eq_some_iff.mp h).1

omit [KeyDigest] in
theorem addDays_ok {now : DateTime} {days : Int} {expiry : DateTime} (h : addDays now days = .ok expiry) :
    expiry = now + days * 86400000000 := by
  unfold addDays at h
  split at h
  · cases h
  split at h
  · cases h
  split at h
  · cases h
    rfl
  · cases h

theorem Execution.prepares (e : Execution) : e.Prepares e.prepare := by
  unfold Execution.prepare
  split
  · rename_i args token id now hcommand
    have hother : ∀ recordId at', e.command = .revoke recordId at' → nonEmpty e.databaseUrl = none := by
      intro recordId at' hrevoke
      rw [hcommand] at hrevoke
      cases hrevoke
    split
    · exact .stops (fun lines h => by cases h) hother
    split
    · exact .stops (fun lines h => by cases h) hother
    rename_i pepper hpepper
    split
    · exact .stops (fun lines h => by cases h) hother
    rename_i hlong
    split
    · exact .stops (fun lines h => by cases h) hother
    · rename_i expiry hexpiry
      rw [addDays_ok hexpiry]
      exact .creates hcommand ⟨nonEmpty_some hpepper, by omega⟩ rfl
  · rename_i recordId now hcommand
    split
    · rename_i hurl
      exact .stops (fun lines h => by cases h) fun _ _ _ => hurl
    · rename_i hurl
      exact .setsRevoked hcommand hurl
  · rename_i initialApiKey appEnvironment jiraProjectKey id now hcommand
    have hother : ∀ recordId at', e.command = .revoke recordId at' → nonEmpty e.databaseUrl = none := by
      intro recordId at' hrevoke
      rw [hcommand] at hrevoke
      cases hrevoke
    split
    · rename_i url rawKey pepper environment projectKey _ _ hpepper henvironment _
      split
      · exact .stops (fun lines h => by cases h) hother
      · rename_i principal hprincipal
        exact .bootstraps hcommand (nonEmpty_some hpepper) (nonEmpty_some henvironment) hprincipal
    · exact .stops (fun lines h => by cases h) hother

/-! ## What an execution does to the rows -/

/-- The execution revokes the record. -/
def Execution.revokes (e : Execution) (id : Uuid) : Bool :=
  match e.command with
  | .revoke recordId _ => recordId == id && (nonEmpty e.databaseUrl).isSome && e.fate != .refused
  | _ => false

/-- A row as an execution leaves it. -/
def Execution.aged (e : Execution) (row : KeyRow) : KeyRow :=
  match e.command with
  | .revoke _ now => if e.revokes row.id then { row with revokedAt := some now } else row
  | _ => row

/-- The row that a statement adds. -/
def Statement.asks : Statement → Option KeyRow
  | .add row | .addUnlessThere row => some row
  | .setRevoked _ _ => none

/-- The row that an execution asks the database to add. -/
def Execution.grants (e : Execution) : Option KeyRow :=
  match e.prepare with
  | .ok (statement, _) => statement.asks
  | .error _ => none

/-- The rows that an execution adds, behind those there were. -/
def Execution.added (e : Execution) (t : KeyTable) : List KeyRow := (execute e t).1.rows.drop t.rows.length

section
variable {t t' : KeyTable} {asked row : KeyRow} {statement : Statement}

omit [KeyDigest] in
theorem insertRow_some (h : insertRow t asked = some t') :
    ∃ kept, asked.stored = some kept ∧ t'.rows = t.rows ++ [kept] := by
  obtain ⟨kept, hkept, hinsert⟩ := Option.bind_eq_some_iff.mp h
  exact ⟨kept, hkept, Table.insert_rows hinsert⟩

omit [KeyDigest] in
/-- What is asked for is added as the columns keep it, or is not. -/
theorem Statement.perform_asks (hasks : statement.asks = some asked) (h : statement.perform t = some t') :
    t' = t ∨ ∃ kept, asked.stored = some kept ∧ t'.rows = t.rows ++ [kept] := by
  cases statement with
  | add r =>
    cases hasks
    exact .inr (insertRow_some h)
  | addUnlessThere r =>
    cases hasks
    rw [Statement.perform] at h
    split at h
    · cases h
      exact .inl rfl
    · exact .inr (insertRow_some h)
  | setRevoked recordId now => cases hasks

end

section
variable {e : Execution} {t : KeyTable} {asked row : KeyRow} {statement : Statement} {lines : List String}

theorem execute_stops {ending : Ending} (h : e.prepare = .error ending) : execute e t = (t, ending) := by
  rw [execute, h]

/-- What a prepared transaction leaves. -/
theorem execute_table (h : e.prepare = .ok (statement, lines)) :
    (execute e t).1 = if e.fate = .refused then t else (statement.perform t).getD t := by
  rw [execute, h]
  dsimp only
  cases e.fate with
  | refused => rfl
  | done =>
    cases statement.perform t with
    | none => rfl
    | some t' => rfl
  | lost =>
    cases statement.perform t with
    | none => rfl
    | some t' => rfl

/-- A command adds a row, or revokes a record. -/
theorem prepare_ok (h : e.prepare = .ok (statement, lines)) :
    (∃ asked, statement.asks = some asked ∧ ∀ recordId now, e.command ≠ .revoke recordId now) ∨
      ∃ recordId now, e.command = .revoke recordId now ∧ statement = .setRevoked recordId now ∧
        nonEmpty e.databaseUrl ≠ none := by
  have hprepares := e.prepares
  rw [h] at hprepares
  cases hprepares with
  | creates hcommand _ _ =>
    exact .inl ⟨_, rfl, fun recordId now hrevoke => by rw [hcommand] at hrevoke; cases hrevoke⟩
  | setsRevoked hcommand hurl => exact .inr ⟨_, _, hcommand, rfl, hurl⟩
  | bootstraps hcommand _ _ _ =>
    exact .inl ⟨_, rfl, fun recordId now hrevoke => by rw [hcommand] at hrevoke; cases hrevoke⟩

omit [KeyDigest] in
theorem aged_self (h : ∀ recordId now, e.command ≠ .revoke recordId now) : e.aged row = row := by
  unfold Execution.aged
  split
  · rename_i recordId now hcommand
    exact absurd hcommand (h recordId now)
  · rfl

/-- The table is left as it was, changed by a revocation, or a row longer. -/
theorem execute_rows : ∃ more, (execute e t).1.rows = t.rows.map e.aged ++ more ∧
    ∀ row ∈ more, ∃ asked, e.grants = some asked ∧ asked.stored = some row := by
  cases hprepare : e.prepare with
  | error ending =>
    have hself : ∀ row, e.aged row = row := by
      intro row
      unfold Execution.aged
      split
      · rename_i recordId now hcommand
        have hprepares := e.prepares
        rw [hprepare] at hprepares
        cases hprepares with
        | stops _ hurl => simp [Execution.revokes, hcommand, hurl recordId now hcommand]
      · rfl
    refine ⟨[], ?_, by simp⟩
    rw [execute_stops hprepare, List.append_nil]
    exact (List.map_id'' hself t.rows).symm
  | ok prepared =>
    obtain ⟨statement, lines⟩ := prepared
    rw [execute_table hprepare]
    rcases prepare_ok hprepare with ⟨asked, hasks, hother⟩ | ⟨recordId, now, hcommand, rfl, hurl⟩
    · have hself : t.rows.map e.aged = t.rows := List.map_id'' (fun row => aged_self hother) t.rows
      have hgrants : e.grants = some asked := by rw [Execution.grants, hprepare, ← hasks]
      rw [hself]
      by_cases hfate : e.fate = .refused
      · exact ⟨[], by simp [hfate], by simp⟩
      · rw [if_neg hfate]
        cases hperform : statement.perform t with
        | none => exact ⟨[], by simp, by simp⟩
        | some t' =>
          rcases Statement.perform_asks hasks hperform with rfl | ⟨kept, hkept, hrows⟩
          · exact ⟨[], by simp, by simp⟩
          · refine ⟨[kept], hrows, fun row hrow => ?_⟩
            rw [List.mem_singleton.mp hrow]
            exact ⟨asked, hgrants, hkept⟩
    · refine ⟨[], ?_, by simp⟩
      rw [List.append_nil]
      by_cases hfate : e.fate = .refused
      · have hself : ∀ row, e.aged row = row := fun row => by
          simp [Execution.aged, Execution.revokes, hcommand, hfate]
        rw [if_pos hfate]
        exact (List.map_id'' hself t.rows).symm
      · rw [if_neg hfate]
        refine List.map_congr_left fun row _ => ?_
        have hsome : (nonEmpty e.databaseUrl).isSome = true := Option.isSome_iff_ne_none.mpr hurl
        simp only [Execution.aged, Execution.revokes, hcommand, hsome, Table.change, beq_iff_eq, Bool.and_true]
        by_cases hid : row.id = recordId
        · simp [hid, hfate]
        · simp [hid, Ne.symm hid]

theorem evolves : Evolves (fun t : KeyTable => t.rows) (fun e t => (execute e t).1) Execution.aged Execution.added where
  rows_step e t := by
    obtain ⟨more, hrows, _⟩ := execute_rows (e := e) (t := t)
    rw [Execution.added, hrows, List.drop_left' (List.length_map _)]

theorem mem_added (h : row ∈ e.added t) : ∃ asked, e.grants = some asked ∧ asked.stored = some row := by
  obtain ⟨more, hrows, hmore⟩ := execute_rows (e := e) (t := t)
  rw [Execution.added, hrows, List.drop_left' (List.length_map _)] at h
  exact hmore row h

end

/-! ## Runs -/

section
variable {past later executions : List Execution} {row asked : KeyRow} {e : Execution}

omit [KeyDigest] in
theorem aged_eq : ∃ revokedAt, e.aged row = { row with revokedAt } := by
  unfold Execution.aged
  split
  · split
    · exact ⟨_, rfl⟩
    · exact ⟨_, rfl⟩
  · exact ⟨_, rfl⟩

omit [KeyDigest] in
/-- All of a row but its revocation is kept. -/
theorem foldr_aged : ∃ revokedAt, later.foldr Execution.aged row = { row with revokedAt } := by
  induction later with
  | nil => exact ⟨_, rfl⟩
  | cons e later ih =>
    obtain ⟨before, hbefore⟩ := ih
    obtain ⟨after, hafter⟩ : ∃ after, e.aged { row with revokedAt := before } = { row with revokedAt := after } :=
      aged_eq
    exact ⟨after, by rw [List.foldr_cons, hbefore, hafter]⟩

omit [KeyDigest] in
theorem revokedAt_aged : (e.aged row).revokedAt = none ↔ row.revokedAt = none ∧ e.revokes row.id = false := by
  unfold Execution.aged
  split
  · split
    · rename_i hrevokes
      simp [hrevokes]
    · rename_i hrevokes
      simp [hrevokes]
  · rename_i hcommand
    have hrevokes : e.revokes row.id = false := by
      unfold Execution.revokes
      split
      · rename_i recordId now h
        exact absurd h (hcommand recordId now)
      · rfl
    simp [hrevokes]

omit [KeyDigest] in
/-- Only an execution since can have revoked a row. -/
theorem revokedAt_foldr : (later.foldr Execution.aged row).revokedAt = none ↔
    row.revokedAt = none ∧ ∀ e ∈ later, e.revokes row.id = false := by
  induction later with
  | nil => simp
  | cons e later ih =>
    have hid : (later.foldr Execution.aged row).id = row.id := by
      obtain ⟨revokedAt, hkept⟩ : ∃ revokedAt, later.foldr Execution.aged row = { row with revokedAt } := foldr_aged
      rw [hkept]
    rw [List.foldr_cons, revokedAt_aged, ih, hid, List.forall_mem_cons]
    tauto

/-- A row stays, as the later executions leave it. -/
theorem row_survives (h : row ∈ (tableAfter past).rows) :
    later.foldr Execution.aged row ∈ (tableAfter (later ++ past)).rows := evolves.survives h

/-- Every row was added by an execution, and is what those after it made of it. -/
theorem row_added : row ∈ (tableAfter executions).rows ↔ ∃ later e past, executions = later ++ e :: past ∧
    ∃ kept ∈ e.added (tableAfter past), later.foldr Execution.aged kept = row := by
  have h : row ∈ (tableAfter executions).rows ↔ (∃ kept ∈ (Table.empty : KeyTable).rows, _) ∨ _ := evolves.mem_run
  rw [h]
  constructor
  · intro hrow
    rcases hrow with ⟨kept, hkept, _⟩ | hrow
    · cases hkept
    · exact hrow
  · exact .inr

end

end

end Keys

end WorkforceRisk.Auth
