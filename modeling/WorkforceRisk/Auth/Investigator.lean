/-
  WorkforceRisk.Auth.Investigator — `get_investigator` and its outage cache
  (services/agent-api/src/agent_api/routes/investigations.py, project_access.py).

  A call authenticates the key of its header against the rows it reads, and caches the
  principal under the header's digest for at most a minute. When anything but the
  authentication itself fails, an eligible read is answered from the cache. A refusal
  leaves the entry, and an entry knows nothing of the key's own expiry.

  A history is the calls of one process, the last one first; whatever happens to the rows
  or the database between two calls shows in what the later one reads. The variables of a
  process do not change. `Call.now` is the clock as the call authenticates, `Call.later`
  as it then uses the cache.

  Proved (`keys_stay_rejected_iff`): in a history no key is honoured after it was refused,
  or against the records read last, exactly when no read that the cache answers meets such
  a key. What the cache holds is what the last call stored that authenticated the same
  header (`cacheAfter_eq`), less than a minute ago (`fallsBack_recent`).
-/

import WorkforceRisk.Auth.ApiKeys

namespace WorkforceRisk.Auth

open Historical Persistence Contracts Scans Evidence

/-! ## Projects -/

/-- The variables that are read. -/
structure Settings where
  allowedJiraProjects : Option String
  allowAnonymousRead : Option String
  appEnvironment : Option String
  databaseUrl : Option String
  apiKeyHmacPepper : Option String
  authCacheTtlSeconds : Option String

namespace Settings
variable [Unicode] (settings : Settings)

/-- `entry.strip().partition(":")`, when there is a separator. -/
def projectEntry (entry : String) : Option (String × String) :=
  let text := (strip entry).toList
  if ':' ∈ text then
    some (String.ofList (text.takeWhile (· != ':')), String.ofList ((text.dropWhile (· != ':')).drop 1))
  else none

/-- The keys of `configured_projects` after those that were seen. -/
def projectKeys : List String → List String → Except Error (List String)
  | _, [] => .ok []
  | seen, entry :: entries =>
    match projectEntry entry with
    | none => .error (.runtimeError "ALLOWED_JIRA_PROJECTS is invalid")
    | some (key, name) =>
      if key ∈ seen then .error (.runtimeError "ALLOWED_JIRA_PROJECTS is invalid")
      else if isProjectKey key = false then
        .error (.validationError "key" "String should match pattern '^[A-Z][A-Z0-9]\x7b1,19\x7d$'")
      else if (strip name).length < 1 then
        .error (.validationError "name" "String should have at least 1 character")
      else if 100 < (strip name).length then
        .error (.validationError "name" "String should have at most 100 characters")
      else do
        let keys ← projectKeys (key :: seen) entries
        return key :: keys

def configuredProjects : Except Error (List String) :=
  projectKeys [] (((settings.allowedJiraProjects.getD "WFD:Workforce Real Data,WRD:Workforce Risk Demo").toList.splitOn
    ',').map String.ofList)

def allowsAnonymousReads : Bool := casefold (settings.allowAnonymousRead.getD "false") == "true"

def environment : String := settings.appEnvironment.getD "dev"

def anonymousReadPrincipal (projectKey : String) : Except RouteError IdentifiedPrincipal :=
  match environmentOf settings.environment with
  | none => .error (.raised (.runtimeError "APP_ENVIRONMENT must be dev, prod, or test"))
  | some environment => .ok
    { actorId := "anonymous-demo-viewer", displayLabel := "Public demo viewer", role := .viewer, environment,
      projectScopes := [projectKey] }

/-- How long a principal is cached; `int` may raise. -/
def cacheTtl : Option Duration :=
  (intOf (settings.authCacheTtlSeconds.getD "30")).map fun n => max 1 (min n 60) * 1000000

def pepper : String := settings.apiKeyHmacPepper.getD ""

end Settings

/-! ## A call -/

/-- A call, and what the database answers it: its rows, or none in an outage. -/
structure Call where
  method : String
  path : String
  projectKey : String
  authorization : Option String
  rows : Option (List ApiKeyPrincipal)
  now : DateTime
  later : DateTime

/-- The suffix of a text. -/
def endsWith (text suffix : String) : Bool := decide (suffix.toList <:+ text.toList)

def eligibleCachedRead (call : Call) : Bool :=
  (call.method == "GET" && ["/alerts", "/reports", "/overload-risk"].any (contains call.path)) ||
    (call.method == "POST" && endsWith call.path "/investigations")

abbrev AuthCache := String → Option (DateTime × IdentifiedPrincipal)

def cacheKey [Sha256] (authorization : Option String) : Option String :=
  match authorization with
  | none => none
  | some header => if header = "" then none else some (Sha256.text header)

/-- What is decided before the database is asked. -/
inductive Entrance where
  | answered (answer : Except RouteError IdentifiedPrincipal)
  | admitted

def entrance [Unicode] (settings : Settings) (call : Call) : Entrance :=
  match settings.configuredProjects with
  | .error e => .answered (.error (.raised e))
  | .ok keys =>
    if call.projectKey ∉ keys then .answered (.error (.http 403 "project is not available"))
    else if settings.allowsAnonymousReads then .answered (settings.anonymousReadPrincipal call.projectKey)
    else if settings.databaseUrl.any (· != "") && settings.apiKeyHmacPepper.any (· != "") then .admitted
    else .answered (.error (.http 503 "authentication unavailable"))

def refusalStatus (message : String) : Nat := if contains message "role" || contains message "scope" then 403 else 401

section
variable [Unicode] [Sha256] [KeyDigest]

/-- The principal, and the cache's new entry. -/
abbrev Given := IdentifiedPrincipal × Option (String × DateTime × IdentifiedPrincipal)

/-- The `try` block. -/
def attempt (settings : Settings) (call : Call) : Except Failure Given :=
  match call.rows with
  | none => .error .raised
  | some rows => do
    let records ← rows.mapM ApiKeyPrincipal.record
    if settings.pepper.utf8ByteSize < 32 then .error .raised
    else
      let principal ← authenticate settings.pepper call.authorization records settings.environment call.projectKey
        [.viewer, .manager, .administrator] call.now
      match cacheKey call.authorization with
      | none => .ok (principal, none)
      | some key => match settings.cacheTtl with
        | none => .error .raised
        | some ttl => .ok (principal, some (key, call.later + ttl, principal))

/-- The entry that answers a call when the `try` block raised. -/
def cachedPrincipal (settings : Settings) (call : Call) (entry : Option (DateTime × IdentifiedPrincipal)) :
    Option IdentifiedPrincipal :=
  match entry with
  | none => none
  | some (expiry, principal) =>
    if call.later < expiry ∧ principal.environment.value = settings.environment ∧
        call.projectKey ∈ principal.projectScopes ∧ eligibleCachedRead call = true then some principal
    else none

def getInvestigator (settings : Settings) (cache : AuthCache) (call : Call) :
    Except RouteError IdentifiedPrincipal × AuthCache :=
  match entrance settings call with
  | .answered answer => (answer, cache)
  | .admitted => match attempt settings call with
    | .ok (principal, none) => (.ok principal, cache)
    | .ok (principal, some (key, entry)) => (.ok principal, fun k => if k = key then some entry else cache k)
    | .error (.rejected message) => (.error (.http (refusalStatus message) "not authorized"), cache)
    | .error .raised => match cachedPrincipal settings call ((cacheKey call.authorization).bind cache) with
      | some principal => (.ok principal, cache)
      | none => (.error (.http 503 "authentication unavailable"), cache)

/-! ## Histories -/

variable (settings : Settings)

def cacheAfter : List Call → AuthCache
  | [] => fun _ => none
  | call :: past => (getInvestigator settings (cacheAfter past) call).2

/-- What a call is answered after those before it. -/
def answerTo (past : List Call) (call : Call) : Except RouteError IdentifiedPrincipal :=
  (getInvestigator settings (cacheAfter settings past) call).1

/-- What came of authentication in a call, when it came to that. -/
def outcome (call : Call) : Option (Except Failure Given) :=
  match entrance settings call with
  | .answered _ => none
  | .admitted => some (attempt settings call)

/-- The records a call reads. -/
def recordsRead (call : Call) : Option (List ApiKeyRecord) :=
  match entrance settings call with
  | .answered _ => none
  | .admitted => call.rows.bind fun rows => (rows.mapM ApiKeyPrincipal.record).toOption

/-- The records that were read last. -/
def lastRead (history : List Call) : Option (List ApiKeyRecord) := history.findSome? (recordsRead settings)

/-- What a call stores under a key of the cache. -/
def entryUnder (key : String) (call : Call) : Option (DateTime × IdentifiedPrincipal) :=
  match outcome settings call with
  | some (.ok (_, some (k, entry))) => if key = k then some entry else none
  | _ => none

/-- The call is answered with an authentication error. -/
def refuses (call : Call) : Bool :=
  match outcome settings call with
  | some (.error (.rejected _)) => true
  | _ => false

/-- A call that presents the raw key was refused after the last that cached the header. -/
def refusedSince (rawKey : String) (authorization : Option String) (history : List Call) : Bool :=
  (cacheKey authorization).any fun key =>
    (history.takeWhile fun call => (entryUnder settings key call).isNone).any fun call =>
      refuses settings call && rawKeyOf call.authorization == some rawKey

/-- The record of a raw key among those read last. -/
def lastRecord (rawKey : String) (history : List Call) : Option ApiKeyRecord :=
  (lastRead settings history).bind fun records =>
    records.find? (·.keyDigest == KeyDigest.hexdigest settings.pepper rawKey)

/-- By all that was read and answered, the call's key is still good. -/
def InForce (history : List Call) (call : Call) : Prop :=
  ∃ rawKey record, rawKeyOf call.authorization = some rawKey ∧ lastRecord settings rawKey history = some record ∧
    record.standsAt call.now = true ∧ refusedSince settings rawKey call.authorization history = false

/-- A principal is given for a header only when its key is still good. -/
def KeysStayRejected (history : List Call) : Prop :=
  ∀ call past, call :: past <:+ history → settings.allowsAnonymousReads = false →
    ∀ principal, answerTo settings past call = .ok principal → InForce settings (call :: past) call

/-- A call that neither authenticated nor refused, and that is answered from what the last
    call stored that authenticated its header. -/
def fallsBack (past : List Call) (call : Call) : Bool :=
  match outcome settings call with
  | some (.error .raised) => (cachedPrincipal settings call ((cacheKey call.authorization).bind fun key =>
      past.findSome? (entryUnder settings key))).isSome
  | _ => false

/-- No call falls back on a key that is no longer good. -/
def FallsBackInForce (history : List Call) : Prop :=
  ∀ call past, call :: past <:+ history → settings.allowsAnonymousReads = false →
    fallsBack settings past call = true → InForce settings (call :: past) call

variable {settings} {call : Call} {past history : List Call}

/-! ## The cache of a history -/

/-- A call changes the cache where it stores an entry. -/
theorem getInvestigator_cache {cache : AuthCache} {key : String} :
    (getInvestigator settings cache call).2 key = (entryUnder settings key call).or (cache key) := by
  unfold getInvestigator entryUnder outcome
  cases entrance settings call with
  | answered answer => rfl
  | admitted =>
    cases attempt settings call with
    | ok given =>
      obtain ⟨principal, stored⟩ := given
      cases stored with
      | none => rfl
      | some entry =>
        by_cases hkey : key = entry.1
        · simp [hkey]
        · simp [hkey]
    | error failure =>
      cases failure with
      | rejected message => rfl
      | raised =>
        dsimp only
        split
        · rfl
        · rfl

theorem cacheAfter_eq {key : String} :
    cacheAfter settings history key = history.findSome? (entryUnder settings key) := by
  induction history with
  | nil => rfl
  | cons call past ih =>
    rw [cacheAfter, getInvestigator_cache, ih, List.findSome?_cons]
    cases entryUnder settings key call with
    | none => rfl
    | some entry => rfl

/-! ## Who gets a principal -/

omit [Sha256] [KeyDigest] in
/-- Without anonymous reads only the database or the cache gives a principal. -/
theorem entrance_answered {answer : Except RouteError IdentifiedPrincipal} {principal : IdentifiedPrincipal}
    (h : entrance settings call = .answered answer) (hread : settings.allowsAnonymousReads = false) :
    answer ≠ .ok principal := by
  intro hok
  rw [hok, entrance, hread] at h
  split at h
  · cases h
  split at h
  · cases h
  simp only [Bool.false_eq_true, if_false] at h
  split at h
  · cases h
  · cases h

theorem answerTo_ok (hread : settings.allowsAnonymousReads = false) :
    (∃ principal, answerTo settings past call = .ok principal) ↔
      (∃ given, outcome settings call = some (.ok given)) ∨ fallsBack settings past call = true := by
  have hcache : (cacheKey call.authorization).bind (cacheAfter settings past) =
      (cacheKey call.authorization).bind fun key => past.findSome? (entryUnder settings key) := by
    cases cacheKey call.authorization with
    | none => rfl
    | some key => exact cacheAfter_eq
  rw [fallsBack, answerTo, getInvestigator, outcome, hcache]
  cases hin : entrance settings call with
  | answered answer =>
    have hno : ∀ principal, answer ≠ .ok principal := fun principal => entrance_answered hin hread
    simp [hno]
  | admitted =>
    dsimp only
    cases attempt settings call with
    | ok given =>
      obtain ⟨principal, stored⟩ := given
      cases stored with
      | none => simp
      | some entry => simp
    | error failure =>
      cases failure with
      | rejected message => simp
      | raised =>
        dsimp only
        split
        · rename_i principal hfound
          simp [hfound]
        · rename_i hfound
          simp [hfound]

theorem outcome_some {result : Except Failure Given} (h : outcome settings call = some result) :
    entrance settings call = .admitted ∧ attempt settings call = result := by
  unfold outcome at h
  split at h
  · cases h
  · rename_i hin
    exact ⟨hin, Option.some.inj h⟩

/-- What came of a successful attempt. -/
theorem attempt_ok {given : Given} (h : attempt settings call = .ok given) :
    ∃ rows records, call.rows = some rows ∧ rows.mapM ApiKeyPrincipal.record = .ok records ∧
      authenticate settings.pepper call.authorization records settings.environment call.projectKey
        [.viewer, .manager, .administrator] call.now = .ok given.1 ∧
      (∀ key ∈ cacheKey call.authorization,
        ∃ ttl ∈ settings.cacheTtl, given.2 = some (key, call.later + ttl, given.1)) ∧
      (cacheKey call.authorization = none → given.2 = none) := by
  rw [attempt] at h
  split at h
  · cases h
  rename_i rows hrows
  cases hrecords : rows.mapM ApiKeyPrincipal.record with
  | error failure =>
    rw [hrecords] at h
    cases h
  | ok records =>
    rw [hrecords] at h
    simp only [bind, Except.bind] at h
    split at h
    · cases h
    split at h
    · cases h
    rename_i principal hprincipal
    refine ⟨rows, records, hrows, hrecords, ?_⟩
    split at h
    · rename_i hkey
      cases h
      exact ⟨hprincipal, fun key hk => (by rw [hkey] at hk; cases hk), fun _ => rfl⟩
    · rename_i key hkey
      split at h
      · cases h
      · rename_i ttl httl
        cases h
        refine ⟨hprincipal, fun k hk => ?_, fun hnone => ?_⟩
        · rw [hkey] at hk
          cases hk
          exact ⟨ttl, httl, rfl⟩
        · rw [hkey] at hnone
          cases hnone

omit [Sha256] [KeyDigest] in
theorem cacheTtl_le {ttl : Duration} (h : settings.cacheTtl = some ttl) : ttl ≤ 60000000 := by
  obtain ⟨n, _, hn⟩ := Option.map_eq_some_iff.mp h
  have hle : max 1 (min n 60) ≤ 60 := max_le (by decide) (min_le_right n 60)
  calc ttl = max 1 (min n 60) * 1000000 := hn.symm
    _ ≤ 60 * 1000000 := Int.mul_le_mul_of_nonneg_right hle (by decide)

/-- An entry is of the header of the call that stored it, and ends within a minute. -/
theorem entryUnder_some {key : String} {entry : DateTime × IdentifiedPrincipal}
    (h : entryUnder settings key call = some entry) :
    cacheKey call.authorization = some key ∧ entry.1 ≤ call.later + 60000000 := by
  unfold entryUnder at h
  split at h
  · rename_i principal k stored houtcome
    obtain ⟨rows, records, _, _, _, hstored, hnone⟩ := attempt_ok (outcome_some houtcome).2
    split at h
    · rename_i hk
      cases h
      cases hkey : cacheKey call.authorization with
      | none => cases hnone hkey
      | some key' =>
        obtain ⟨ttl, httl, hentry⟩ := hstored key' hkey
        obtain ⟨hk', he⟩ := Prod.mk.inj (Option.some.inj hentry)
        have hle := cacheTtl_le httl
        rw [hk, hk', he]
        exact ⟨rfl, Int.add_le_add_left hle _⟩
    · cases h
  · cases h

/-- What the cache answers, a call with the same header was given less than a minute ago. -/
theorem fallsBack_recent (h : fallsBack settings past call = true) :
    ∃ earlier ∈ past, cacheKey earlier.authorization = cacheKey call.authorization ∧
      call.later < earlier.later + 60000000 := by
  unfold fallsBack at h
  split at h
  · obtain ⟨principal, hprincipal⟩ := Option.isSome_iff_exists.mp h
    unfold cachedPrincipal at hprincipal
    split at hprincipal
    · cases hprincipal
    · rename_i expiry holder hentry
      split at hprincipal
      · rename_i hlive
        obtain ⟨key, hkey, hfound⟩ := Option.bind_eq_some_iff.mp hentry
        obtain ⟨earlier, hearlier, hunder⟩ := List.exists_of_findSome?_eq_some hfound
        obtain ⟨hkeys, hend⟩ := entryUnder_some hunder
        exact ⟨earlier, hearlier, hkeys.trans hkey.symm, lt_of_lt_of_le hlive.1 hend⟩
      · cases hprincipal
  · cases h

/-- A key that has just been authenticated is good. -/
theorem authenticated_inForce {given : Given}
    (h : outcome settings call = some (.ok given)) : InForce settings (call :: past) call := by
  obtain ⟨hin, hattempt⟩ := outcome_some h
  obtain ⟨rows, records, hrows, hrecords, hauthenticated, hstored, _⟩ := attempt_ok hattempt
  obtain ⟨rawKey, record, hraw, hrecord, hstands, _⟩ := authenticate_ok hauthenticated
  refine ⟨rawKey, record, hraw, ?_, hstands, ?_⟩
  · have hread : recordsRead settings call = some records := by
      rw [recordsRead, hin]
      dsimp only
      rw [hrows, Option.bind_some, hrecords]
      rfl
    rw [lastRecord, lastRead, List.findSome?_cons, hread]
    exact hrecord
  · cases hkey : cacheKey call.authorization with
    | none => simp [refusedSince, hkey]
    | some key =>
      obtain ⟨ttl, _, hentry⟩ := hstored key hkey
      have hunder : entryUnder settings key call = some (call.later + ttl, given.1) := by
        rw [entryUnder, h]
        obtain ⟨principal, stored⟩ := given
        dsimp only at hentry
        rw [hentry]
        simp
      simp [refusedSince, hkey, hunder]

theorem keys_stay_rejected_iff {settings : Settings} {history : List Call} :
    KeysStayRejected settings history ↔ FallsBackInForce settings history := by
  constructor
  · intro h call past hsuffix hread hfalls
    obtain ⟨principal, hanswer⟩ := (answerTo_ok hread).mpr (.inr hfalls)
    exact h call past hsuffix hread principal hanswer
  · intro h call past hsuffix hread principal hanswer
    rcases (answerTo_ok hread).mp ⟨principal, hanswer⟩ with hgiven | hfalls
    · obtain ⟨given, hgiven⟩ := hgiven
      exact authenticated_inForce hgiven
    · exact h call past hsuffix hread hfalls

end

/-! ## A key that was revoked and refused -/

def demoSettings : Settings :=
  ⟨none, none, some "test", some "postgresql", some "0123456789abcdef0123456789abcdef", none⟩

def demoRow (revokedAt : Option DateTime) : ApiKeyPrincipal :=
  ⟨"actor-1", "Viewer", "wrk_1", "viewer", "test", ["WRD"], 0, none, revokedAt⟩

/-- A read of the alerts at a second. -/
def alertsAt (rows : Option (List ApiKeyPrincipal)) (second : Int) : Call :=
  ⟨"GET", "/api/v1/alerts", "WRD", some "Bearer wrk_1", rows, second * 1000000, second * 1000000⟩

/-- The key is authenticated, then revoked, and refused for it. -/
def refusedOnce : List Call := [alertsAt (some [demoRow (some 5)]) 10, alertsAt (some [demoRow none]) 0]

theorem a_refused_key_reads_on : letI := Unicode.ascii
    letI := Sha256.transparent
    letI := KeyDigest.transparent
    ¬ KeysStayRejected demoSettings (alertsAt none 20 :: refusedOnce) := by
  let _ := Unicode.ascii
  let _ := Sha256.transparent
  let _ := KeyDigest.transparent
  intro h
  have hread : demoSettings.allowsAnonymousReads = false := by decide
  have hfalls : fallsBack demoSettings refusedOnce (alertsAt none 20) = true := by decide
  obtain ⟨principal, hanswer⟩ := (answerTo_ok hread).mpr (.inr hfalls)
  obtain ⟨rawKey, record, hraw, hrecord, hstands, _⟩ := h _ _ (List.suffix_refl _) hread principal hanswer
  have hrevoked : (rawKeyOf (alertsAt none 20).authorization).all (fun rawKey =>
      (lastRecord demoSettings rawKey (alertsAt none 20 :: refusedOnce)).all fun record =>
        !record.standsAt (alertsAt none 20).now) = true := by decide
  rw [hraw, Option.all_some, hrecord, Option.all_some, hstands] at hrevoked
  cases hrevoked

end WorkforceRisk.Auth
