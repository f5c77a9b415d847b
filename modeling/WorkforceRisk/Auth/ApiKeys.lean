/-
  WorkforceRisk.Auth.ApiKeys — the API keys of the application
  (services/agent-api/src/agent_api/auth/api_keys.py).

  The keyed digest of a raw key is a parameter (`KeyDigest`); nothing here assumes it
  injective. `KeyDigest.transparent` leaves a key as it is, and only closed traces use it.
  Texts have no lone surrogates, which a header cannot carry.
-/

import WorkforceRisk.Contracts.Principal
import WorkforceRisk.Evidence.Text

namespace WorkforceRisk.Auth

open Historical Persistence Contracts Evidence

class KeyDigest where
  /-- `hmac.new(pepper, raw_key.encode(), hashlib.sha256).hexdigest()`. -/
  hexdigest : (pepper rawKey : String) → String

@[reducible] def KeyDigest.transparent : KeyDigest := ⟨fun _ rawKey => rawKey⟩

structure ApiKeyRecord where
  actorId : String
  displayLabel : String
  keyDigest : String
  role : ApplicationRole
  environment : Environment
  projectScopes : List String
  createdAt : DateTime
  expiresAt : Option DateTime
  revokedAt : Option DateTime

/-- A row of `api_key_principals`, where role and environment are texts. -/
structure ApiKeyPrincipal where
  actorId : String
  displayLabel : String
  keyDigest : String
  role : String
  environment : String
  projectScopes : List String
  createdAt : DateTime
  expiresAt : Option DateTime
  revokedAt : Option DateTime

/-- How authentication fails: with an `ApiKeyAuthenticationError`, or with any other
    exception. -/
inductive Failure where
  | rejected (message : String)
  | raised
  deriving DecidableEq

def ApiKeyPrincipal.record (row : ApiKeyPrincipal) : Except Failure ApiKeyRecord :=
  match roleOf row.role, environmentOf row.environment with
  | some role, some environment => .ok
    { actorId := row.actorId, displayLabel := row.displayLabel, keyDigest := row.keyDigest, role, environment,
      projectScopes := row.projectScopes, createdAt := row.createdAt, expiresAt := row.expiresAt,
      revokedAt := row.revokedAt }
  | _, _ => .error .raised

def ApiKeyRecord.principal (record : ApiKeyRecord) : IdentifiedPrincipal where
  actorId := record.actorId
  displayLabel := record.displayLabel
  role := record.role
  environment := record.environment
  projectScopes := record.projectScopes

/-- The raw key that a header carries. -/
def rawKeyOf [Unicode] (authorization : Option String) : Option String :=
  match authorization with
  | none => none
  | some header =>
    if startsWith header "Bearer " then
      let rawKey := strip (String.ofList (header.toList.drop "Bearer ".length))
      if startsWith rawKey "wrk_" && !rawKey.toList.any Unicode.isSpace then some rawKey else none
    else none

/-- The first record with the digest. `compare_digest` raises on a text that is not ASCII. -/
def recordWith (digest : String) : List ApiKeyRecord → Except Failure (Option ApiKeyRecord)
  | [] => .ok none
  | candidate :: records =>
    if candidate.keyDigest.toList.any (128 ≤ ·.toNat) then .error .raised
    else if candidate.keyDigest = digest then .ok (some candidate)
    else recordWith digest records

/-- What `authenticate` asks of the record it found. -/
def admitRecord (record : ApiKeyRecord) (environment projectKey : String) (allowedRoles : List ApplicationRole)
    (now : DateTime) : Except Failure IdentifiedPrincipal :=
  if record.revokedAt.isSome then .error (.rejected "API key is revoked")
  else if record.expiresAt.any (· ≤ now) then .error (.rejected "API key is expired")
  else if record.environment.value ≠ environment then .error (.rejected "API key environment mismatch")
  else if projectKey ∉ record.projectScopes then .error (.rejected "API key project scope mismatch")
  else if record.role ∉ allowedRoles then .error (.rejected "API key role is not authorized")
  else .ok record.principal

/-- The key is not revoked and not expired. -/
def ApiKeyRecord.standsAt (record : ApiKeyRecord) (now : DateTime) : Bool :=
  record.revokedAt.isNone && record.expiresAt.all (now < ·)

section
variable [Unicode] [KeyDigest]

def authenticate (pepper : String) (authorization : Option String) (records : List ApiKeyRecord)
    (environment projectKey : String) (allowedRoles : List ApplicationRole) (now : DateTime) :
    Except Failure IdentifiedPrincipal :=
  match rawKeyOf authorization with
  | none => .error (.rejected "missing or malformed API key")
  | some rawKey => do
    match ← recordWith (KeyDigest.hexdigest pepper rawKey) records with
    | none => .error (.rejected "unknown API key")
    | some record => admitRecord record environment projectKey allowedRoles now

omit [Unicode] [KeyDigest] in
/-- The record of a key is the first with its digest. -/
theorem recordWith_ok {digest : String} {records : List ApiKeyRecord} {found : Option ApiKeyRecord}
    (h : recordWith digest records = .ok found) : records.find? (·.keyDigest == digest) = found := by
  induction records with
  | nil =>
    cases h
    rfl
  | cons candidate records ih =>
    rw [recordWith] at h
    split at h
    · cases h
    split at h
    · rename_i hdigest
      cases h
      rw [List.find?_cons_of_pos (by simpa using hdigest)]
    · rename_i hdigest
      rw [List.find?_cons_of_neg (by simpa using hdigest)]
      exact ih h

omit [Unicode] [KeyDigest] in
/-- Only a key that stands is admitted. -/
theorem admitRecord_ok {record : ApiKeyRecord} {environment projectKey : String} {allowedRoles : List ApplicationRole}
    {now : DateTime} {principal : IdentifiedPrincipal}
    (h : admitRecord record environment projectKey allowedRoles now = .ok principal) :
    record.standsAt now = true ∧ principal = record.principal := by
  unfold admitRecord at h
  split at h
  · cases h
  rename_i hrevoked
  split at h
  · cases h
  rename_i hexpired
  have hstands : record.standsAt now = true := by
    rw [ApiKeyRecord.standsAt, Bool.and_eq_true]
    refine ⟨by simpa using hrevoked, ?_⟩
    cases he : record.expiresAt with
    | none => rfl
    | some e => simpa [he] using hexpired
  split at h
  · cases h
  split at h
  · cases h
  split at h
  · cases h
  · cases h
    exact ⟨hstands, rfl⟩

/-- Who is authenticated presented a key whose record was found and stands. -/
theorem authenticate_ok {pepper : String} {authorization : Option String} {records : List ApiKeyRecord}
    {environment projectKey : String} {allowedRoles : List ApplicationRole} {now : DateTime}
    {principal : IdentifiedPrincipal}
    (h : authenticate pepper authorization records environment projectKey allowedRoles now = .ok principal) :
    ∃ rawKey record, rawKeyOf authorization = some rawKey ∧
      records.find? (·.keyDigest == KeyDigest.hexdigest pepper rawKey) = some record ∧
      record.standsAt now = true ∧ principal = record.principal := by
  rw [authenticate] at h
  split at h
  · cases h
  · rename_i rawKey hraw
    cases hfound : recordWith (KeyDigest.hexdigest pepper rawKey) records with
    | error failure =>
      rw [hfound] at h
      cases h
    | ok found =>
      rw [hfound] at h
      cases found with
      | none => cases h
      | some record => exact ⟨rawKey, record, hraw, recordWith_ok hfound, admitRecord_ok h⟩

omit [Unicode] [KeyDigest] in
/-- Who is admitted, and as whom. -/
theorem admitRecord_ok_iff {record : ApiKeyRecord} {environment projectKey : String}
    {allowedRoles : List ApplicationRole} {now : DateTime} {principal : IdentifiedPrincipal} :
    admitRecord record environment projectKey allowedRoles now = .ok principal ↔
      record.revokedAt = none ∧ (∀ expiry ∈ record.expiresAt, now < expiry) ∧ environment = record.environment.value ∧
        projectKey ∈ record.projectScopes ∧ record.role ∈ allowedRoles ∧ principal = record.principal := by
  have hexpired : (record.expiresAt.any (· ≤ now)) = true ↔ ¬ ∀ expiry ∈ record.expiresAt, now < expiry := by
    cases record.expiresAt with
    | none => simp
    | some expiry => simp
  constructor
  · intro h
    unfold admitRecord at h
    split at h
    · cases h
    rename_i hrevoked
    split at h
    · cases h
    rename_i hfresh
    split at h
    · cases h
    rename_i henvironment
    split at h
    · cases h
    rename_i hproject
    split at h
    · cases h
    rename_i hrole
    cases h
    rw [hexpired, not_not] at hfresh
    exact ⟨by simpa using hrevoked, hfresh, (not_not.mp henvironment).symm, not_not.mp hproject, not_not.mp hrole, rfl⟩
  · intro h
    obtain ⟨hrevoked, hfresh, henvironment, hproject, hrole, rfl⟩ := h
    rw [admitRecord, if_neg (by simp [hrevoked]), if_neg (by rw [hexpired]; exact not_not.mpr hfresh),
      if_neg (not_not.mpr henvironment.symm), if_neg (not_not.mpr hproject), if_neg (not_not.mpr hrole)]

/-- Who is authenticated presented a key whose record was found and admitted. -/
theorem authenticate_admitted {pepper : String} {authorization : Option String} {records : List ApiKeyRecord}
    {environment projectKey : String} {allowedRoles : List ApplicationRole} {now : DateTime}
    {principal : IdentifiedPrincipal}
    (h : authenticate pepper authorization records environment projectKey allowedRoles now = .ok principal) :
    ∃ rawKey record, rawKeyOf authorization = some rawKey ∧ record ∈ records ∧
      record.keyDigest = KeyDigest.hexdigest pepper rawKey ∧
      admitRecord record environment projectKey allowedRoles now = .ok principal := by
  rw [authenticate] at h
  split at h
  · cases h
  · rename_i rawKey hraw
    cases hfound : recordWith (KeyDigest.hexdigest pepper rawKey) records with
    | error failure =>
      rw [hfound] at h
      cases h
    | ok found =>
      rw [hfound] at h
      cases found with
      | none => cases h
      | some record =>
        have hfind := recordWith_ok hfound
        exact ⟨rawKey, record, hraw, List.mem_of_find?_eq_some hfind, by simpa using List.find?_some hfind, h⟩

end

end WorkforceRisk.Auth
