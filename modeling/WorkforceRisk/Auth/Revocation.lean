/-
  WorkforceRisk.Auth.Revocation — how long a key is honoured.

  The commands that write the table and the calls of one process, in any order: a history
  lists both, the last one first. A call reads the whole table, in any order of its rows,
  or nothing in an outage; its clocks are its own.

  Proved: whoever is answered holds a key whose record was read in force, by this call or
  by one with the same digest of its header less than a minute ago, and which a command
  had added and none had revoked (`answers_trace_to_keys`). So from the moment a key is
  revoked, its header is answered less than a minute after a call made before
  (`revoked_key_ends`).
-/

import WorkforceRisk.Auth.Investigator
import WorkforceRisk.Auth.IssuedKeys

namespace WorkforceRisk.Auth

open Historical Persistence Contracts Evidence Scans

namespace Keys

open Lib

/-! ## Histories -/

inductive Event where
  | executed (e : Execution)
  | called (call : Call)

def executionsOf (history : List Event) : List Execution :=
  history.filterMap fun
    | .executed e => some e
    | .called _ => none

def callsOf (history : List Event) : List Call :=
  history.filterMap fun
    | .executed _ => none
    | .called call => some call

section
variable [Unicode] [Sha256] [KeyDigest]

/-- The table after a history. -/
def tableOf (history : List Event) : KeyTable := tableAfter (executionsOf history)

/-- A call that reads anything reads the table as it is then. -/
def Consistent (history : List Event) : Prop :=
  ∀ call past, .called call :: past <:+ history →
    ∀ rows ∈ call.rows, rows.Perm ((tableOf past).rows.map KeyRow.toApiKeyPrincipal)

/-- The row's key is in force for a call that reads it, and the principal is the row's. -/
structure Vouches (settings : Settings) (past : List Event) (call : Call) (principal : IdentifiedPrincipal)
    (row : KeyRow) : Prop where
  mem : row ∈ (tableOf past).rows
  digest : ∃ rawKey, rawKeyOf call.authorization = some rawKey ∧
    row.keyDigest = KeyDigest.hexdigest settings.pepper rawKey
  unrevoked : row.revokedAt = none
  unexpired : ∀ expiry ∈ row.expiresAt, call.now < expiry
  actorId : row.actorId = principal.actorId
  displayLabel : row.displayLabel = principal.displayLabel
  role : roleOf row.role = some principal.role
  environment : environmentOf row.environment = some principal.environment
  ofEnvironment : principal.environment.value = settings.environment
  projectScopes : row.projectScopes = principal.projectScopes
  inScope : call.projectKey ∈ principal.projectScopes

/-- A command of the executions added the row, and none since revoked it. -/
def IssuedIn (executions : List Execution) (row : KeyRow) : Prop :=
  ∃ later e past, executions = later ++ e :: past ∧ (∃ asked, e.grants = some asked ∧ KeptOf asked row) ∧
    ∀ other ∈ later, other.revokes row.id = false

variable {settings : Settings} {past history : List Event} {call : Call} {principal : IdentifiedPrincipal}

omit [Unicode] [Sha256] [KeyDigest] in
theorem mem_callsOf {earlier : Call} {before : List Event} (h : .called earlier :: before <:+ past) :
    earlier ∈ callsOf past :=
  List.mem_filterMap.mpr ⟨.called earlier, h.mem List.mem_cons_self, rfl⟩

omit [Unicode] [Sha256] [KeyDigest] in
theorem called_of_mem {earlier : Call} (h : earlier ∈ callsOf past) : ∃ before, .called earlier :: before <:+ past := by
  obtain ⟨event, hmem, hevent⟩ := List.mem_filterMap.mp h
  cases event with
  | executed e => cases hevent
  | called c =>
    cases hevent
    obtain ⟨after, before, hsplit⟩ := List.append_of_mem hmem
    exact ⟨before, after, hsplit.symm⟩

omit [Unicode] [Sha256] in
/-- A row in force was issued, and not revoked since. -/
theorem issued_of_mem {row : KeyRow} (h : row ∈ (tableOf past).rows) (hunrevoked : row.revokedAt = none) :
    IssuedIn (executionsOf past) row := by
  obtain ⟨later, e, before, hsplit, kept, hadded, rfl⟩ := row_added.mp h
  obtain ⟨asked, hgrants, hstored⟩ := mem_added hadded
  obtain ⟨hkept, hsince⟩ := revokedAt_foldr.mp hunrevoked
  obtain ⟨revokedAt, haged⟩ : ∃ revokedAt, later.foldr Execution.aged kept = { kept with revokedAt } := foldr_aged
  have hsame : later.foldr Execution.aged kept = kept := by
    rw [haged] at hunrevoked ⊢
    obtain rfl : revokedAt = none := hunrevoked
    rw [← hkept]
  rw [hsame]
  exact ⟨later, e, before, hsplit, ⟨asked, hgrants, KeyRow.stored_some hstored⟩, hsince⟩

/-! ## Who is answered -/

omit [Unicode] [Sha256] [KeyDigest] in
/-- What a row is read as. -/
theorem record_ok {row : ApiKeyPrincipal} {record : ApiKeyRecord} (h : row.record = .ok record) :
    roleOf row.role = some record.role ∧ environmentOf row.environment = some record.environment ∧
      record.actorId = row.actorId ∧ record.displayLabel = row.displayLabel ∧ record.keyDigest = row.keyDigest ∧
      record.projectScopes = row.projectScopes ∧ record.expiresAt = row.expiresAt ∧
      record.revokedAt = row.revokedAt := by
  unfold ApiKeyPrincipal.record at h
  split at h
  · rename_i role environment hrole henvironment
    cases h
    exact ⟨hrole, henvironment, rfl, rfl, rfl, rfl, rfl, rfl⟩
  · cases h

/-- A call that authenticates reads a row in force. -/
theorem attempt_vouched (hread : ∀ rows ∈ call.rows, rows.Perm ((tableOf past).rows.map KeyRow.toApiKeyPrincipal))
    {given : Given} (h : attempt settings call = .ok given) : ∃ row, Vouches settings past call given.1 row := by
  obtain ⟨rows, records, hrows, hrecords, hauthenticated, _⟩ := attempt_ok h
  obtain ⟨rawKey, record, hraw, hrecord, hdigest, hadmitted⟩ := authenticate_admitted hauthenticated
  obtain ⟨hunrevoked, hunexpired, henvironment, hproject, _, hprincipal⟩ := admitRecord_ok_iff.mp hadmitted
  obtain ⟨columns, hcolumns, hof⟩ := (mem_mapM_ok hrecords record).mp hrecord
  obtain ⟨row, hrow, rfl⟩ := List.mem_map.mp ((hread rows hrows).mem_iff.mp hcolumns)
  obtain ⟨hrole, henvironmentOf, hactor, hlabel, hkey, hscopes, hexpires, hrevoked⟩ := record_ok hof
  rw [hprincipal]
  refine ⟨row, hrow, ⟨rawKey, hraw, hkey.symm.trans hdigest⟩, hrevoked.symm.trans hunrevoked, ?_, hactor.symm,
    hlabel.symm, hrole, henvironmentOf, henvironment.symm, hscopes.symm, hproject⟩
  rw [← hexpires]
  exact hunexpired

omit [Unicode] [Sha256] [KeyDigest] in
/-- A cached principal is the entry's, which has not ended. -/
theorem cachedPrincipal_some {entry : Option (DateTime × IdentifiedPrincipal)}
    (h : cachedPrincipal settings call entry = some principal) :
    ∃ expiry, entry = some (expiry, principal) ∧ call.later < expiry ∧
      principal.environment.value = settings.environment ∧ call.projectKey ∈ principal.projectScopes := by
  unfold cachedPrincipal at h
  split at h
  · cases h
  · split at h
    · rename_i hlive
      cases h
      exact ⟨_, rfl, hlive.1, hlive.2.1, hlive.2.2.1⟩
    · cases h

/-- An answer is given by the call's own authentication, or by the entry of its header. -/
theorem answerTo_given {calls : List Call} (hread : settings.allowsAnonymousReads = false)
    (h : answerTo settings calls call = .ok principal) :
    (∃ stored, outcome settings call = some (.ok (principal, stored))) ∨
      ∃ key expiry, cacheKey call.authorization = some key ∧
        calls.findSome? (entryUnder settings key) = some (expiry, principal) ∧ call.later < expiry ∧
        principal.environment.value = settings.environment ∧ call.projectKey ∈ principal.projectScopes := by
  rw [answerTo, getInvestigator] at h
  rw [outcome]
  cases hin : entrance settings call with
  | answered answer =>
    rw [hin] at h
    exact absurd h (entrance_answered hin hread)
  | admitted =>
    rw [hin] at h
    dsimp only at h ⊢
    cases hattempt : attempt settings call with
    | ok given =>
      obtain ⟨holder, stored⟩ := given
      rw [hattempt] at h
      cases stored with
      | none =>
        cases h
        exact .inl ⟨none, rfl⟩
      | some entry =>
        cases h
        exact .inl ⟨some entry, rfl⟩
    | error failure =>
      rw [hattempt] at h
      cases failure with
      | rejected message => cases h
      | raised =>
        dsimp only at h
        split at h
        · rename_i holder hfound
          cases h
          obtain ⟨expiry, hentry, hlive⟩ := cachedPrincipal_some hfound
          obtain ⟨key, hkey, hcached⟩ := Option.bind_eq_some_iff.mp hentry
          rw [cacheAfter_eq] at hcached
          exact .inr ⟨key, expiry, hkey, hcached, hlive⟩
        · cases h

/-- What a call stored, it was given by a row in force. -/
theorem entryUnder_given {key : String} {expiry : DateTime}
    (h : entryUnder settings key call = some (expiry, principal)) :
    ∃ stored, outcome settings call = some (.ok (principal, stored)) := by
  unfold entryUnder at h
  split at h
  · rename_i holder k entry houtcome
    split at h
    · cases h
      obtain ⟨rows, records, _, _, _, hstored, hnone⟩ := attempt_ok (outcome_some houtcome).2
      cases hkey : cacheKey call.authorization with
      | none => cases hnone hkey
      | some header =>
        obtain ⟨ttl, _, hentry⟩ := hstored header hkey
        obtain ⟨_, hrest⟩ := Prod.mk.inj (Option.some.inj hentry)
        obtain ⟨_, hholder⟩ := Prod.mk.inj hrest
        rw [hholder]
        exact ⟨_, houtcome⟩
    · cases h
  · cases h

/-- Whoever is answered holds a key that a row in force vouched for, less than a minute ago. -/
theorem answer_vouched (hread : settings.allowsAnonymousReads = false) (hconsistent : Consistent history)
    (hsuffix : .called call :: past <:+ history) (h : answerTo settings (callsOf past) call = .ok principal) :
    ∃ earlier before, .called earlier :: before <:+ .called call :: past ∧
      cacheKey earlier.authorization = cacheKey call.authorization ∧
      (earlier = call ∧ before = past ∨ call.later < earlier.later + 60000000) ∧
      principal.environment.value = settings.environment ∧ call.projectKey ∈ principal.projectScopes ∧
      ∃ row, Vouches settings before earlier principal row := by
  rcases answerTo_given hread h with ⟨stored, houtcome⟩ | ⟨key, expiry, hkey, hentry, hlive, henvironment, hscope⟩
  · obtain ⟨row, hrow⟩ := attempt_vouched (hconsistent call past hsuffix) (outcome_some houtcome).2
    exact ⟨call, past, List.suffix_refl _, rfl, .inl ⟨rfl, rfl⟩, hrow.ofEnvironment, hrow.inScope, row, hrow⟩
  · obtain ⟨earlier, hearlier, hunder⟩ := List.exists_of_findSome?_eq_some hentry
    obtain ⟨before, hbefore⟩ := called_of_mem hearlier
    obtain ⟨hkeys, hend⟩ := entryUnder_some hunder
    obtain ⟨stored, houtcome⟩ := entryUnder_given hunder
    have hcall : .called earlier :: before <:+ .called call :: past := hbefore.trans (List.suffix_cons _ past)
    obtain ⟨row, hrow⟩ :=
      attempt_vouched (hconsistent earlier before (hcall.trans hsuffix)) (outcome_some houtcome).2
    exact ⟨earlier, before, hcall, hkeys.trans hkey.symm, .inr (lt_of_lt_of_le hlive hend), henvironment, hscope, row,
      hrow⟩

/-- Whoever is answered holds a key that was issued and in force, less than a minute ago. -/
theorem answers_trace_to_keys (hread : settings.allowsAnonymousReads = false) (hconsistent : Consistent history)
    (hsuffix : .called call :: past <:+ history) (h : answerTo settings (callsOf past) call = .ok principal) :
    ∃ earlier before, .called earlier :: before <:+ .called call :: past ∧
      cacheKey earlier.authorization = cacheKey call.authorization ∧
      (earlier = call ∧ before = past ∨ call.later < earlier.later + 60000000) ∧
      principal.environment.value = settings.environment ∧ call.projectKey ∈ principal.projectScopes ∧
      ∃ row, Vouches settings before earlier principal row ∧ IssuedIn (executionsOf before) row := by
  obtain ⟨earlier, before, hcall, hkeys, hwhen, henvironment, hscope, row, hrow⟩ :=
    answer_vouched hread hconsistent hsuffix h
  exact ⟨earlier, before, hcall, hkeys, hwhen, henvironment, hscope, row, hrow, issued_of_mem hrow.mem hrow.unrevoked⟩

/-! ## A key that is revoked -/

omit [Unicode] [Sha256] in
/-- A row that was revoked is never in force again, and its digest is no other row's. -/
theorem revoked_not_in_force {after : List Event} {revoke : Execution} {row other : KeyRow}
    (hrow : row ∈ (tableOf past).rows) (hrevokes : revoke.revokes row.id = true)
    (hother : other ∈ (tableOf (after ++ .executed revoke :: past)).rows) (hdigest : other.keyDigest = row.keyDigest) :
    other.revokedAt ≠ none := by
  have hexecutions : executionsOf (after ++ .executed revoke :: past) =
      (executionsOf after ++ [revoke]) ++ executionsOf past := by
    rw [executionsOf, List.filterMap_append, List.filterMap_cons]
    simp [executionsOf]
  have hkept : (executionsOf after ++ [revoke]).foldr Execution.aged row ∈
      (tableOf (after ++ .executed revoke :: past)).rows := by
    rw [tableOf, hexecutions]
    exact row_survives hrow
  obtain ⟨revokedAt, haged⟩ :
      ∃ revokedAt, (executionsOf after ++ [revoke]).foldr Execution.aged row = { row with revokedAt } := foldr_aged
  have hsame : (executionsOf after ++ [revoke]).foldr Execution.aged row = other := by
    refine (tableOf (after ++ .executed revoke :: past)).eq_of_clashes hkept hother (clashes_byIdAnd.mpr (.inr ?_))
    rw [haged]
    exact hdigest.symm
  rw [← hsame]
  intro hnone
  have := (revokedAt_foldr.mp hnone).2 revoke (by simp)
  rw [hrevokes] at this
  cases this

theorem revoked_key_ends {middle : List Event} {revoke : Execution} {row : KeyRow} {rawKey : String}
    (hread : settings.allowsAnonymousReads = false)
    (hconsistent : Consistent (.called call :: (middle ++ .executed revoke :: past)))
    (hrow : row ∈ (tableOf past).rows) (hrevokes : revoke.revokes row.id = true)
    (hraw : rawKeyOf call.authorization = some rawKey)
    (hdigest : row.keyDigest = KeyDigest.hexdigest settings.pepper rawKey)
    (hheaders : ∀ earlier ∈ callsOf (middle ++ .executed revoke :: past),
      cacheKey earlier.authorization = cacheKey call.authorization → earlier.authorization = call.authorization)
    (h : answerTo settings (callsOf (middle ++ .executed revoke :: past)) call = .ok principal) :
    ∃ earlier ∈ callsOf past, earlier.authorization = call.authorization ∧ call.later < earlier.later + 60000000 := by
  obtain ⟨earlier, before, hsuffix, hkeys, hwhen, _, _, other, hvouches⟩ :=
    answer_vouched hread hconsistent (List.suffix_refl _) h
  -- the call whose row was in force has the same header, so the same key
  have hheader : earlier.authorization = call.authorization := by
    rcases List.suffix_cons_iff.mp hsuffix with hsame | hearlier
    · cases hsame
      rfl
    · exact hheaders earlier (mem_callsOf hearlier) hkeys
  have hsameDigest : other.keyDigest = row.keyDigest := by
    obtain ⟨otherKey, hother, hotherDigest⟩ := hvouches.digest
    rw [hheader, hraw] at hother
    cases hother
    rw [hotherDigest, hdigest]
  -- after the revocation no row in force has its digest
  have hbefore : ¬ .executed revoke :: past <:+ before := by
    intro hafter
    obtain ⟨after, rfl⟩ := hafter
    exact revoked_not_in_force hrow hrevokes hvouches.mem hsameDigest hvouches.unrevoked
  have hrevoke : .executed revoke :: past <:+ .called call :: (middle ++ .executed revoke :: past) :=
    (List.suffix_append middle _).trans (List.suffix_cons _ _)
  rcases List.suffix_or_suffix_of_suffix hsuffix hrevoke with hbelow | habove
  · rcases List.suffix_cons_iff.mp hbelow with hsame | hpast
    · cases hsame
    · rcases hwhen with ⟨_, hall⟩ | htime
      · rw [hall] at hbefore
        exact absurd (List.suffix_append middle _) hbefore
      · exact ⟨earlier, mem_callsOf hpast, hheader, htime⟩
  · rcases List.suffix_cons_iff.mp habove with hsame | hlater
    · cases hsame
    · exact absurd hlater hbefore

end

/-! ## A revoked key, read on in an outage -/

section

attribute [local instance] Unicode.ascii Sha256.transparent spelling

def sampleSettings : Settings :=
  ⟨none, none, some "dev", some "postgresql", some "0123456789abcdef0123456789abcdef", none⟩

/-- A read of the alerts at a second. -/
def alertsRead (rows : Option (List ApiKeyPrincipal)) (second : Int) : Call :=
  ⟨"GET", "/api/v1/alerts", "WRD", some ("Bearer " ++ sampleKey), rows, second * 1000000, second * 1000000⟩

def firstRead : Call := alertsRead (some ((tableAfter [sampleCreate]).rows.map KeyRow.toApiKeyPrincipal)) 1

def sampleRevoke : Execution := ⟨some "postgresql", none, .revoke 1 5000000, .done⟩

def outageRead : Call := alertsRead none 20

/-- The key is created, read once, and revoked. -/
def samplePast : List Event := [.executed sampleRevoke, .called firstRead, .executed sampleCreate]

theorem samplePast_consistent : Consistent (.called outageRead :: samplePast) := by
  intro call past hsuffix rows hrows
  simp only [samplePast, List.suffix_cons_iff, List.cons.injEq, List.suffix_nil, reduceCtorEq, false_and, false_or,
    or_false, Event.called.injEq] at hsuffix
  rcases hsuffix with ⟨rfl, rfl⟩ | ⟨rfl, rfl⟩
  · cases hrows
  · cases hrows
    exact List.Perm.refl _

theorem sample_answered : ∃ principal, answerTo sampleSettings (callsOf samplePast) outageRead = .ok principal := by
  have hread : sampleSettings.allowsAnonymousReads = false := by decide
  have hfalls : fallsBack sampleSettings (callsOf samplePast) outageRead = true := by decide
  exact (answerTo_ok hread).mpr (.inr hfalls)

theorem sample_traces_to_its_key : ∃ principal earlier before row,
    .called earlier :: before <:+ .called outageRead :: samplePast ∧
      Vouches sampleSettings before earlier principal row ∧ IssuedIn (executionsOf before) row := by
  obtain ⟨principal, hanswer⟩ := sample_answered
  obtain ⟨earlier, before, hsuffix, _, _, _, _, row, hvouches, hissued⟩ :=
    answers_trace_to_keys (by decide) samplePast_consistent (List.suffix_refl _) hanswer
  exact ⟨principal, earlier, before, row, hsuffix, hvouches, hissued⟩

/-- The row of the sample's key is in the table before it is revoked. -/
theorem sample_row : ∃ row ∈ (tableOf [.called firstRead, .executed sampleCreate]).rows, row.id = 1 ∧
    row.keyDigest = KeyDigest.hexdigest sampleSettings.pepper sampleKey := by
  have hshown : (execute sampleCreate (tableAfter [])).2 = .printed ["API key (shown once):", sampleKey] := by decide
  obtain ⟨_, record, kept, hgenerate, hkept, hrow⟩ := shown_row rfl rfl hshown
  obtain ⟨hrawKey, hrecord⟩ := Prod.mk.inj hgenerate
  subst hrecord
  have hdigest : kept.keyDigest = KeyDigest.hexdigest sampleSettings.pepper sampleKey := by
    rw [← hrawKey]
    exact hkept.digest spelling_hex rfl
  exact ⟨kept, hrow, hkept.id, hdigest⟩

theorem sample_read_before_revoked : ∃ earlier ∈ callsOf [.called firstRead, .executed sampleCreate],
    earlier.authorization = outageRead.authorization ∧ outageRead.later < earlier.later + 60000000 := by
  obtain ⟨principal, hanswer⟩ := sample_answered
  obtain ⟨row, hrow, hid, hdigest⟩ := sample_row
  have hstart : startsWith sampleKey "wrk_" = true := by decide
  have hraw := rawKeyOf_bearer ascii_spaces hstart (printable_of_all (by decide))
  have hconsistent : Consistent (.called outageRead :: ([] ++ .executed sampleRevoke ::
      [.called firstRead, .executed sampleCreate])) := samplePast_consistent
  exact revoked_key_ends (by decide) hconsistent hrow (by rw [hid]; decide) hraw hdigest
    (by
      intro earlier hearlier _
      obtain rfl := List.mem_singleton.mp hearlier
      rfl) hanswer

end

end Keys

end WorkforceRisk.Auth
