/-
  WorkforceRisk.Auth.IssuedKeys — a key that was shown opens what it was made for.

  A shown key's row is in the table of every later run, its digest is no other row's, and
  the rows are all readable when each bootstrap names one of the three environments; so the
  rows in any order find its record.

  Proved (`issued_key_opens_iff`): from the moment a key is shown, and whatever commands
  run after it, the rows in any order authenticate its header exactly in its environment
  and projects, for its role, before it expires and until its record is revoked.
-/

import WorkforceRisk.Auth.Keys
import WorkforceRisk.Evidence.Numbers
import WorkforceRisk.Lib.Transactions

namespace WorkforceRisk.Auth

open Historical Persistence Contracts Evidence

namespace Keys

open Lib

/-- What `hexdigest` of a SHA-256 is documented to be. -/
structure HexDigests [KeyDigest] : Prop where
  length : ∀ pepper rawKey, (KeyDigest.hexdigest pepper rawKey).length = 64
  digits : ∀ pepper rawKey, ∀ c ∈ (KeyDigest.hexdigest pepper rawKey).toList, c ∈ "0123456789abcdef".toList

/-- A bootstrap names one of the environments. -/
def Execution.namesEnvironment (e : Execution) : Prop :=
  match e.command with
  | .bootstrap _ appEnvironment _ _ _ => ∃ environment : Environment, appEnvironment = some environment.value
  | _ => True

/-- What the routes make of the rows they read. -/
def authenticateRows [Unicode] [KeyDigest] (pepper : String) (authorization : Option String)
    (rows : List ApiKeyPrincipal) (environment projectKey : String) (allowedRoles : List ApplicationRole)
    (now : DateTime) : Except Failure IdentifiedPrincipal := do
  let records ← rows.mapM ApiKeyPrincipal.record
  if pepper.utf8ByteSize < 32 then .error .raised
  else authenticate pepper authorization records environment projectKey allowedRoles now

/-! ## Reading the header -/

theorem printable_of_all {text : String}
    (h : (text.toList.all fun c => decide (33 ≤ c.toNat ∧ c.toNat < 127)) = true) :
    ∀ c ∈ text.toList, 33 ≤ c.toNat ∧ c.toNat < 127 :=
  fun c hc => of_decide_eq_true (List.all_eq_true.mp h c hc)

section
variable [Unicode]

/-- A printable key is read from its header. -/
theorem rawKeyOf_bearer (hspace : ∀ c : Char, 33 ≤ c.toNat → c.toNat < 127 → Unicode.isSpace c = false)
    {rawKey : String} (hkey : startsWith rawKey "wrk_" = true)
    (hprintable : ∀ c ∈ rawKey.toList, 33 ≤ c.toNat ∧ c.toNat < 127) :
    rawKeyOf (some ("Bearer " ++ rawKey)) = some rawKey := by
  have hclear : ∀ c ∈ rawKey.toList, Unicode.isSpace c = false := fun c hc =>
    hspace c (hprintable c hc).1 (hprintable c hc).2
  have hstart : startsWith ("Bearer " ++ rawKey) "Bearer " = true := by
    rw [startsWith, decide_eq_true_eq, String.toList_append]
    exact List.prefix_append _ _
  have hrest : ("Bearer " ++ rawKey).toList.drop "Bearer ".length = rawKey.toList := by
    rw [String.toList_append]
    exact List.drop_left' rfl
  have hstrip : strip (String.ofList rawKey.toList) = rawKey := by
    rw [strip, stripBy_eq_self hclear, String.ofList_toList]
  have hany : rawKey.toList.any Unicode.isSpace = false := by
    rw [List.any_eq_false]
    intro c hc
    rw [hclear c hc]
    exact Bool.false_ne_true
  rw [rawKeyOf]
  simp only [hstart, if_true, hrest, hstrip, hkey, hany, Bool.not_false, Bool.and_true]

end

/-! ## The records -/

theorem recordWith_eq {digest : String} {records : List ApiKeyRecord}
    (h : ∀ record ∈ records, ∀ c ∈ record.keyDigest.toList, c.toNat < 128) :
    recordWith digest records = .ok (records.find? (·.keyDigest == digest)) := by
  induction records with
  | nil => rfl
  | cons record records ih =>
    obtain ⟨hfirst, hrest⟩ := List.forall_mem_cons.mp h
    have hascii : record.keyDigest.toList.any (128 ≤ ·.toNat) = false := by
      rw [List.any_eq_false]
      intro c hc
      have := hfirst c hc
      simp only [decide_eq_true_eq, not_le]
      omega
    rw [recordWith, hascii]
    simp only [Bool.false_eq_true, if_false]
    by_cases hdigest : record.keyDigest = digest
    · rw [if_pos hdigest, List.find?_cons_of_pos (by simpa using hdigest)]
    · rw [if_neg hdigest, List.find?_cons_of_neg (by simpa using hdigest), ih hrest]

/-! ## The rows of a run -/

theorem varchar_short {n : Nat} {text : String} (h : text.length ≤ n) : varchar n text = some text := if_pos h

/-- What the columns keep of a row. -/
structure KeptOf (asked row : KeyRow) : Prop where
  id : row.id = asked.id
  actorId : varchar 128 asked.actorId = some row.actorId
  displayLabel : varchar 128 asked.displayLabel = some row.displayLabel
  keyDigest : varchar 128 asked.keyDigest = some row.keyDigest
  role : varchar 32 asked.role = some row.role
  environment : varchar 16 asked.environment = some row.environment
  projectScopes : row.projectScopes = asked.projectScopes
  expiresAt : row.expiresAt = asked.expiresAt
  revokedAt : row.revokedAt = asked.revokedAt

theorem KeyRow.stored_some {asked row : KeyRow} (h : asked.stored = some row) : KeptOf asked row := by
  obtain ⟨actorId, hactor, h⟩ := Option.bind_eq_some_iff.mp h
  obtain ⟨displayLabel, hlabel, h⟩ := Option.bind_eq_some_iff.mp h
  obtain ⟨keyDigest, hdigest, h⟩ := Option.bind_eq_some_iff.mp h
  obtain ⟨role, hrole, h⟩ := Option.bind_eq_some_iff.mp h
  obtain ⟨environment, henvironment, h⟩ := Option.bind_eq_some_iff.mp h
  cases h
  exact ⟨rfl, hactor, hlabel, hdigest, hrole, henvironment, rfl, rfl, rfl⟩

section
variable [KeyDigest] {e : Execution} {asked row : KeyRow} {executions : List Execution}

/-- What a command asks for: the digest of a key under its pepper, and a role. -/
structure Grant (e : Execution) (asked : KeyRow) : Prop where
  digest : ∃ pepper rawKey, e.pepper = some pepper ∧ asked.keyDigest = KeyDigest.hexdigest pepper rawKey
  role : ∃ role : ApplicationRole, asked.role = role.value
  environment : e.namesEnvironment → ∃ environment : Environment, asked.environment = environment.value
  unrevoked : asked.revokedAt = none

theorem grant_of_grants (h : e.grants = some asked) : Grant e asked := by
  unfold Execution.grants at h
  have hprepares := e.prepares
  split at h
  · rename_i statement lines hprepare
    rw [hprepare] at hprepares
    cases hprepares with
    | creates hcommand hpepper hgenerate =>
      cases h
      obtain ⟨_, rfl⟩ := Prod.mk.inj hgenerate
      exact ⟨⟨_, _, hpepper.1, rfl⟩, ⟨_, rfl⟩, fun _ => ⟨_, rfl⟩, rfl⟩
    | setsRevoked _ _ => cases h
    | bootstraps hcommand hpepper henvironment hprincipal =>
      cases h
      unfold buildInitialPrincipal at hprincipal
      split at hprincipal
      · cases hprincipal
      split at hprincipal
      · cases hprincipal
        refine ⟨⟨_, _, hpepper, rfl⟩, ⟨.manager, rfl⟩, fun hnames => ?_, rfl⟩
        unfold Execution.namesEnvironment at hnames
        rw [hcommand] at hnames
        obtain ⟨named, hnamed⟩ := hnames
        rw [henvironment] at hnamed
        exact ⟨named, Option.some.inj hnamed⟩
      · cases hprincipal
  · cases h

/-- The digest of a key fits its column. -/
theorem KeptOf.digest (hhex : HexDigests) {pepper rawKey : String} (hkept : KeptOf asked row)
    (h : asked.keyDigest = KeyDigest.hexdigest pepper rawKey) :
    row.keyDigest = KeyDigest.hexdigest pepper rawKey := by
  have hcolumn := hkept.keyDigest
  rw [h, varchar_short (by rw [hhex.length]; decide)] at hcolumn
  exact (Option.some.inj hcolumn).symm

omit [KeyDigest] in
theorem KeptOf.ofRole {role : ApplicationRole} (hkept : KeptOf asked row) (h : asked.role = role.value) :
    row.role = role.value := by
  have hcolumn := hkept.role
  rw [h, varchar_short (by cases role <;> decide)] at hcolumn
  exact (Option.some.inj hcolumn).symm

omit [KeyDigest] in
theorem KeptOf.ofEnvironment {environment : Environment} (hkept : KeptOf asked row)
    (h : asked.environment = environment.value) : row.environment = environment.value := by
  have hcolumn := hkept.environment
  rw [h, varchar_short (by cases environment <;> decide)] at hcolumn
  exact (Option.some.inj hcolumn).symm

/-- The record of a row whose texts are a role's and an environment's. -/
def KeyRow.recordOf (row : KeyRow) (role : ApplicationRole) (environment : Environment) : ApiKeyRecord where
  actorId := row.actorId
  displayLabel := row.displayLabel
  keyDigest := row.keyDigest
  role
  environment
  projectScopes := row.projectScopes
  createdAt := row.createdAt
  expiresAt := row.expiresAt
  revokedAt := row.revokedAt

omit [KeyDigest] in
theorem record_of_row {role : ApplicationRole} {environment : Environment} (hrole : row.role = role.value)
    (henvironment : row.environment = environment.value) :
    row.toApiKeyPrincipal.record = .ok (row.recordOf role environment) := by
  rw [ApiKeyPrincipal.record, hrole, henvironment, roleOf_value, environmentOf_value]
  rfl

/-- Every row of the table is read, and its digest is ASCII. -/
theorem row_readable (hhex : HexDigests) (hnamed : ∀ e ∈ executions, e.namesEnvironment)
    (h : row ∈ (tableAfter executions).rows) :
    (∃ record, row.toApiKeyPrincipal.record = .ok record ∧ record.keyDigest = row.keyDigest) ∧
      ∀ c ∈ row.keyDigest.toList, c.toNat < 128 := by
  obtain ⟨later, e, past, rfl, kept, hadded, rfl⟩ := row_added.mp h
  obtain ⟨asked, hgrants, hstored⟩ := mem_added hadded
  have hgrant := grant_of_grants hgrants
  have hkept := KeyRow.stored_some hstored
  obtain ⟨revokedAt, haged⟩ : ∃ revokedAt, later.foldr Execution.aged kept = { kept with revokedAt } := foldr_aged
  obtain ⟨role, hrole⟩ := hgrant.role
  obtain ⟨environment, henvironment⟩ := hgrant.environment (hnamed e (by simp))
  obtain ⟨pepper, rawKey, _, hdigest⟩ := hgrant.digest
  rw [haged]
  have hrowRole : ({ kept with revokedAt } : KeyRow).role = role.value := hkept.ofRole hrole
  refine ⟨⟨_, record_of_row hrowRole (hkept.ofEnvironment henvironment), rfl⟩, ?_⟩
  intro c hc
  have hc : c ∈ (KeyDigest.hexdigest pepper rawKey).toList := by rwa [← hkept.digest hhex hdigest]
  have hascii : ("0123456789abcdef".toList.all fun c => decide (c.toNat < 128)) = true := by decide
  exact of_decide_eq_true (List.all_eq_true.mp hascii c (hhex.digits pepper rawKey c hc))

end

/-! ## A key that was shown -/

section
variable [Unicode] [KeyDigest]

/-- Rows that are read in any order hold the one record of a digest. -/
theorem authenticateRows_of_row (hhex : HexDigests) {executions : List Execution}
    (hnamed : ∀ e ∈ executions, e.namesEnvironment) {rows : List ApiKeyPrincipal}
    (hread : rows.Perm ((tableAfter executions).rows.map KeyRow.toApiKeyPrincipal)) {row : KeyRow}
    (hrow : row ∈ (tableAfter executions).rows) {record : ApiKeyRecord}
    (hrecord : row.toApiKeyPrincipal.record = .ok record) {pepper rawKey : String} (hpepper : 32 ≤ pepper.utf8ByteSize)
    {authorization : Option String} (hraw : rawKeyOf authorization = some rawKey)
    (hdigest : row.keyDigest = KeyDigest.hexdigest pepper rawKey) {environment projectKey : String}
    {allowedRoles : List ApplicationRole} {now : DateTime} :
    authenticateRows pepper authorization rows environment projectKey allowedRoles now =
      admitRecord record environment projectKey allowedRoles now := by
  -- every row is read
  have hmem : ∀ row ∈ rows, ∃ r ∈ (tableAfter executions).rows, r.toApiKeyPrincipal = row := fun row hrow =>
    List.mem_map.mp (hread.mem_iff.mp hrow)
  cases hrecords : rows.mapM ApiKeyPrincipal.record with
  | error failure =>
    obtain ⟨before, bad, after, rfl, _, hbad⟩ := mapM_error_iff.mp hrecords
    obtain ⟨r, hr, rfl⟩ := hmem bad (by simp)
    obtain ⟨⟨good, hgood, _⟩, _⟩ := row_readable hhex hnamed hr
    rw [hgood] at hbad
    cases hbad
  | ok records =>
    have hof : ∀ r ∈ records, ∃ row ∈ (tableAfter executions).rows, row.toApiKeyPrincipal.record = .ok r := by
      intro r hr
      obtain ⟨row, hrow, hrecord⟩ := (mem_mapM_ok hrecords r).mp hr
      obtain ⟨keyRow, hkey, rfl⟩ := hmem row hrow
      exact ⟨keyRow, hkey, hrecord⟩
    have hkeep : ∀ {row : KeyRow} {r : ApiKeyRecord}, row ∈ (tableAfter executions).rows →
        row.toApiKeyPrincipal.record = .ok r → r.keyDigest = row.keyDigest := by
      intro row r hrow hr
      obtain ⟨⟨good, hgood, hsame⟩, _⟩ := row_readable hhex hnamed hrow
      rw [hgood] at hr
      cases hr
      exact hsame
    have hascii : ∀ r ∈ records, ∀ c ∈ r.keyDigest.toList, c.toNat < 128 := by
      intro r hr
      obtain ⟨keyRow, hkey, hkeyRecord⟩ := hof r hr
      rw [hkeep hkey hkeyRecord]
      exact (row_readable hhex hnamed hkey).2
    -- the digest is of one row
    have hfound : records.find? (·.keyDigest == KeyDigest.hexdigest pepper rawKey) = some record := by
      cases hfind : records.find? (·.keyDigest == KeyDigest.hexdigest pepper rawKey) with
      | none =>
        have hin : record ∈ records := (mem_mapM_ok hrecords record).mpr
          ⟨row.toApiKeyPrincipal, hread.mem_iff.mpr (List.mem_map_of_mem hrow), hrecord⟩
        have hno := List.find?_eq_none.mp hfind record hin
        rw [hkeep hrow hrecord, hdigest] at hno
        simp at hno
      | some other =>
        obtain ⟨keyRow, hkey, hother⟩ := hof other (List.mem_of_find?_eq_some hfind)
        have hsame : keyRow.keyDigest = row.keyDigest := by
          rw [← hkeep hkey hother, hdigest]
          simpa using List.find?_some hfind
        have heq := (tableAfter executions).eq_of_clashes hkey hrow (clashes_byIdAnd.mpr (.inr hsame))
        rw [heq, hrecord] at hother
        cases hother
        rfl
    rw [authenticateRows, hrecords]
    simp only [bind, Except.bind]
    rw [if_neg (by omega), authenticate, hraw]
    simp only [recordWith_eq hascii, hfound, bind, Except.bind]

/-- The principal is the one a key was created for, its texts as the columns keep them. -/
structure MadeFor (args : CreateArgs) (principal : IdentifiedPrincipal) : Prop where
  actorId : varchar 128 args.actorId = some principal.actorId
  displayLabel : varchar 128 args.label = some principal.displayLabel
  role : principal.role = args.role
  environment : principal.environment = args.environment
  projectScopes : principal.projectScopes = args.project

omit [Unicode] in
/-- What was prepared when a key was shown. -/
theorem prepare_create {e : Execution} {pepper : String} {args : CreateArgs} {token : List UInt8} {id : Uuid}
    {issued : DateTime} {statement : Statement} {lines : List String} (hpepper : e.pepper = some pepper)
    (hcommand : e.command = .create args token id issued) (h : e.prepare = .ok (statement, lines)) :
    32 ≤ pepper.utf8ByteSize ∧ ∃ rawKey record, generate pepper args.actorId args.label args.role args.environment
      args.project issued (some (issued + args.expiresDays * 86400000000)) token = (rawKey, record) ∧
      statement = .add (rowOf id record) ∧ lines = ["API key (shown once):", rawKey] := by
  have hprepares := e.prepares
  rw [h] at hprepares
  cases hprepares with
  | creates hcreate hgiven hgenerate =>
    rw [hcommand] at hcreate
    cases hcreate
    rw [hpepper] at hgiven
    obtain rfl := Option.some.inj hgiven.1
    exact ⟨hgiven.2, _, _, hgenerate, rfl, rfl⟩
  | setsRevoked hrevoke _ =>
    rw [hcommand] at hrevoke
    cases hrevoke
  | bootstraps hbootstrap _ _ _ =>
    rw [hcommand] at hbootstrap
    cases hbootstrap

omit [Unicode] in
/-- What is printed is printed behind a transaction that is known to have committed. -/
theorem execute_printed {e : Execution} {t : KeyTable} {lines : List String} (h : (execute e t).2 = .printed lines) :
    ∃ statement, e.prepare = .ok (statement, lines) ∧ statement.perform t = some (execute e t).1 := by
  unfold execute at h ⊢
  cases hprepare : e.prepare with
  | error ending =>
    have hprepares := e.prepares
    rw [hprepare] at hprepares h
    cases hprepares with
    | stops hsilent _ => exact absurd h (hsilent lines)
  | ok prepared =>
    obtain ⟨statement, printed⟩ := prepared
    rw [hprepare] at h
    dsimp only at h ⊢
    cases hfate : e.fate with
    | refused =>
      rw [hfate] at h
      cases h
    | lost =>
      rw [hfate] at h
      cases hperform : statement.perform t with
      | none =>
        rw [hperform] at h
        cases h
      | some t' =>
        rw [hperform] at h
        cases h
    | done =>
      rw [hfate] at h
      cases hperform : statement.perform t with
      | none =>
        rw [hperform] at h
        cases h
      | some t' =>
        rw [hperform] at h
        cases h
        exact ⟨statement, rfl, hperform⟩

omit [Unicode] in
/-- A shown key's row is in the table then. -/
theorem shown_row {e : Execution} {t : KeyTable} {pepper rawKey : String} {args : CreateArgs} {token : List UInt8}
    {id : Uuid} {issued : DateTime} (hpepper : e.pepper = some pepper)
    (hcommand : e.command = .create args token id issued)
    (h : (execute e t).2 = .printed ["API key (shown once):", rawKey]) :
    32 ≤ pepper.utf8ByteSize ∧ ∃ record kept, generate pepper args.actorId args.label args.role args.environment
      args.project issued (some (issued + args.expiresDays * 86400000000)) token = (rawKey, record) ∧
      KeptOf (rowOf id record) kept ∧ kept ∈ (execute e t).1.rows := by
  obtain ⟨statement, hprepare, hperform⟩ := execute_printed h
  obtain ⟨hlong, shown, record, hgenerate, rfl, hlines⟩ := prepare_create hpepper hcommand hprepare
  simp only [List.cons.injEq, and_true, true_and] at hlines
  subst hlines
  obtain ⟨kept, hkept, hrows⟩ := insertRow_some hperform
  refine ⟨hlong, record, kept, hgenerate, KeyRow.stored_some hkept, ?_⟩
  rw [hrows]
  exact List.mem_append_right _ List.mem_cons_self

theorem issued_key_opens_iff (hhex : HexDigests)
    (hspace : ∀ c : Char, 33 ≤ c.toNat → c.toNat < 127 → Unicode.isSpace c = false) {later past : List Execution}
    {e : Execution} {pepper rawKey : String} {args : CreateArgs} {token : List UInt8} {id : Uuid} {issued : DateTime}
    (hpepper : e.pepper = some pepper) (hcommand : e.command = .create args token id issued)
    (hshown : (execute e (tableAfter past)).2 = .printed ["API key (shown once):", rawKey])
    (hnamed : ∀ other ∈ later ++ e :: past, other.namesEnvironment) {rows : List ApiKeyPrincipal}
    (hread : rows.Perm ((tableAfter (later ++ e :: past)).rows.map KeyRow.toApiKeyPrincipal))
    {environment projectKey : String} {allowedRoles : List ApplicationRole} {now : DateTime}
    {principal : IdentifiedPrincipal} :
    authenticateRows pepper (some ("Bearer " ++ rawKey)) rows environment projectKey allowedRoles now = .ok principal ↔
      environment = args.environment.value ∧ projectKey ∈ args.project ∧ args.role ∈ allowedRoles ∧
        now < issued + args.expiresDays * 86400000000 ∧ (∀ other ∈ later, other.revokes id = false) ∧
        MadeFor args principal := by
  obtain ⟨hlong, record, kept, hgenerate, hkept, hrow⟩ := shown_row hpepper hcommand hshown
  obtain ⟨hrawKey, hrecord⟩ := Prod.mk.inj hgenerate
  subst hrecord
  -- the header tells the key
  have hprintable : ∀ c ∈ rawKey.toList, 33 ≤ c.toNat ∧ c.toNat < 127 := by
    rw [← hrawKey, tokenUrlsafe]
    simp only [String.toList_append, String.toList_ofList, List.forall_mem_append]
    refine ⟨⟨⟨printable_of_all (by decide), ?_⟩, printable_of_all (by decide)⟩,
      fun c hc => Base64.encode_printable token c (Base64.mem_of_mem_stripped hc)⟩
    cases args.environment with
    | dev => exact printable_of_all (by decide)
    | prod => exact printable_of_all (by decide)
    | test => exact printable_of_all (by decide)
  have hstart : startsWith rawKey "wrk_" = true := by
    rw [startsWith, decide_eq_true_eq, ← hrawKey]
    simp only [String.toList_append, List.append_assoc]
    exact List.prefix_append _ _
  have hraw := rawKeyOf_bearer hspace hstart hprintable
  -- the row is there as the later commands leave it
  have hthere : later.foldr Execution.aged kept ∈ (tableAfter (later ++ e :: past)).rows := row_survives hrow
  have hrevoked : (later.foldr Execution.aged kept).revokedAt = none ↔
      kept.revokedAt = none ∧ ∀ other ∈ later, other.revokes kept.id = false := revokedAt_foldr
  obtain ⟨revokedAt, haged⟩ : ∃ revokedAt, later.foldr Execution.aged kept = { kept with revokedAt } := foldr_aged
  rw [haged] at hthere hrevoked
  rw [hkept.revokedAt, hkept.id] at hrevoked
  have hread' : ({ kept with revokedAt } : KeyRow).toApiKeyPrincipal.record =
      .ok (({ kept with revokedAt } : KeyRow).recordOf args.role args.environment) :=
    record_of_row (hkept.ofRole rfl) (hkept.ofEnvironment rfl)
  have hdigest : kept.keyDigest = KeyDigest.hexdigest pepper rawKey := by
    rw [← hrawKey]
    exact hkept.digest hhex rfl
  rw [authenticateRows_of_row hhex hnamed hread hthere hread' hlong hraw hdigest, admitRecord_ok_iff]
  have hrevokedNow : revokedAt = none ↔ ∀ other ∈ later, other.revokes id = false := hrevoked.trans (and_iff_right rfl)
  have hfresh : (∀ expiry ∈ kept.expiresAt, now < expiry) ↔ now < issued + args.expiresDays * 86400000000 := by
    rw [hkept.expiresAt]
    simp [rowOf]
  have hmade : principal = (({ kept with revokedAt } : KeyRow).recordOf args.role args.environment).principal ↔
      MadeFor args principal := by
    constructor
    · intro h
      subst h
      exact ⟨hkept.actorId, hkept.displayLabel, rfl, rfl, hkept.projectScopes⟩
    · intro h
      have hactor : kept.actorId = principal.actorId := Option.some.inj (hkept.actorId.symm.trans h.actorId)
      have hlabel : kept.displayLabel = principal.displayLabel :=
        Option.some.inj (hkept.displayLabel.symm.trans h.displayLabel)
      obtain ⟨⟨role, scopes⟩, actorId, label, env⟩ := principal
      obtain ⟨_, _, rfl, rfl, rfl⟩ := h
      obtain rfl : kept.actorId = actorId := hactor
      obtain rfl : kept.displayLabel = label := hlabel
      rw [ApiKeyRecord.principal, KeyRow.recordOf]
      dsimp only
      rw [hkept.projectScopes]
      rfl
  have hscopes : kept.projectScopes = args.project := hkept.projectScopes
  show revokedAt = none ∧ (∀ expiry ∈ kept.expiresAt, now < expiry) ∧ environment = args.environment.value ∧
    projectKey ∈ kept.projectScopes ∧ args.role ∈ allowedRoles ∧ principal = _ ↔ _
  rw [hrevokedNow, hfresh, hmade, hscopes]
  tauto

end

/-! ## A key, and its header -/

def hexDigit (n : Nat) : Char := "0123456789abcdef".toList.getD (n % 16) '0'

/-- The last characters of a key, two digits each. -/
def spelled (rawKey : String) : List Char :=
  (rawKey.toList.reverse.flatMap (fun c => [hexDigit (c.toNat / 16), hexDigit c.toNat]) ++ List.replicate 64 '0').take 64

@[reducible] def spelling : KeyDigest := ⟨fun _ rawKey => String.ofList (spelled rawKey)⟩

theorem hexDigit_mem (n : Nat) : hexDigit n ∈ "0123456789abcdef".toList := by
  have hall : ∀ m : Fin 16, hexDigit m.val ∈ "0123456789abcdef".toList := by decide
  have hm := hall ⟨n % 16, Nat.mod_lt n (by decide)⟩
  rwa [hexDigit, Nat.mod_mod] at hm

theorem spelling_hex : letI := spelling; HexDigests := by
  let _ := spelling
  refine ⟨fun pepper rawKey => ?_, fun pepper rawKey c hc => ?_⟩
  · show (String.ofList (spelled rawKey)).length = 64
    rw [String.length_ofList, spelled, List.length_take, List.length_append, List.length_replicate]
    omega
  · have hc : c ∈ spelled rawKey := by
      rw [← String.toList_ofList (l := spelled rawKey)]
      exact hc
    rcases List.mem_append.mp (List.mem_of_mem_take hc) with hc | hc
    · obtain ⟨a, _, ha⟩ := List.mem_flatMap.mp hc
      simp only [List.mem_cons, List.not_mem_nil, or_false] at ha
      rcases ha with rfl | rfl
      · exact hexDigit_mem _
      · exact hexDigit_mem _
    · rw [List.eq_of_mem_replicate hc]
      decide

theorem ascii_spaces : letI := Unicode.ascii
    ∀ c : Char, 33 ≤ c.toNat → c.toNat < 127 → Unicode.isSpace c = false := by
  let _ := Unicode.ascii
  intro c h _
  simp only [Unicode.isSpace, Char.isWhitespace, Bool.or_eq_false_iff, decide_eq_false_iff_not]
  refine ⟨⟨⟨?_, ?_⟩, ?_⟩, ?_⟩
  all_goals
    rintro rfl
    exact absurd h (by decide)

def sampleArgs : CreateArgs :=
  ⟨"ops", "Operations", .manager, .dev, ["WRD"], 30, by decide, by decide⟩

/-- A key is created at the epoch, its token all zeros. -/
def sampleCreate : Execution :=
  ⟨some "postgresql", some "0123456789abcdef0123456789abcdef", .create sampleArgs (List.replicate 32 0) 1 0, .done⟩

def sampleKey : String := "wrk_dev_AAAAAAAAAAAAAAAAAAAAAAAAAAAAAAAAAAAAAAAAAAA"

theorem sample_key_opens : letI := Unicode.ascii
    letI := spelling
    authenticateRows "0123456789abcdef0123456789abcdef" (some ("Bearer " ++ sampleKey))
      ((tableAfter [sampleCreate]).rows.map KeyRow.toApiKeyPrincipal) "dev" "WRD" [.manager] 86400000000 =
        .ok ⟨⟨.manager, ["WRD"]⟩, "ops", "Operations", .dev⟩ := by
  let _ := Unicode.ascii
  let _ := spelling
  have hshown : (execute sampleCreate (tableAfter [])).2 = .printed ["API key (shown once):", sampleKey] := by decide
  have hnamed : ∀ other ∈ [] ++ [sampleCreate], other.namesEnvironment := by
    intro other hother
    rw [List.mem_singleton.mp hother]
    trivial
  exact (issued_key_opens_iff spelling_hex ascii_spaces rfl rfl hshown hnamed (List.Perm.refl _)).mpr
    ⟨rfl, by decide, by decide, by decide, by simp, ⟨rfl, rfl, rfl, rfl, rfl⟩⟩

end Keys

end WorkforceRisk.Auth
