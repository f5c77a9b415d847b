/-
  WorkforceRisk.Profiles.AuditTrail — concurrent `create` and `update_capacity_audited`
  (packages/persistence/src/workforce_persistence/repositories.py `ProfileRepository`).

  A transaction is one call and what it commits. An update reads the row without a lock,
  compares and sets the version it was told to expect, which waits for and then holds the
  row's lock until it ends, and appends an event with the capacity it read. Every statement
  sees what is committed when it runs (READ COMMITTED); a commit that meets a committed row
  or event under one of its unique keys is refused. Other transactions append events of
  other kinds to the same chain. An expected version below zero is no row's, as zero.

  Proved (`audit_replays`): in every run in which each compare-and-set that goes through
  finds the capacity it read, the trail of every employee carries the versions 1 to n with
  what was in force before each of them, and ends with what the row has. What an open
  update will record is what is in force as long as it holds the lock (`Sound.held`).
-/

import WorkforceRisk.Persistence.AuditChain
import WorkforceRisk.Profiles.Repository

namespace WorkforceRisk.Profiles

open Lib Persistence AuditRepository AuditSessions

/-- The arguments of `update_capacity_audited`. -/
structure CapacityUpdate where
  environment : Environment
  employeeId : String
  expectedVersion : Nat
  capacityHours : Rat
  actorId : String
  correlationId : String

def stateOf (version : Nat) (capacity : Rat) : Json := .obj [("capacity", .num capacity), ("version", .num version)]

def CapacityUpdate.entry (u : CapacityUpdate) (priorCapacity : Rat) : AuditEntry where
  actionType := "profile.updated"
  actorType := "administrator"
  actorId := u.actorId
  subjectIds := [u.employeeId]
  correlationId := u.correlationId
  priorState := some (stateOf u.expectedVersion priorCapacity)
  newState := some (stateOf (u.expectedVersion + 1) u.capacityHours)
  safeMetadata := none

/-! ## Transactions -/

/-- What a transaction changes of the profiles. -/
inductive Change where
  | created (c : ProfileCreate) (ids : DrawnIds)
  | updated (u : CapacityUpdate) (read : EmployeeProfile)
  | nothing

/-- Where a transaction is. -/
inductive Stage where
  | idle
  | inserted (c : ProfileCreate) (ids : DrawnIds)
  | read (u : CapacityUpdate) (row : EmployeeProfile)
  | changed (u : CapacityUpdate) (row : EmployeeProfile)
  | appended (change : Change) (event : AuditEvent)

/-- The events a transaction has added. -/
def Stage.events : Stage → List AuditEvent
  | appended _ event => [event]
  | _ => []

/-- The update whose row lock a transaction holds, and the row as it read it. -/
def Stage.update : Stage → Option (CapacityUpdate × EmployeeProfile)
  | changed u row => some (u, row)
  | appended (.updated u row) _ => some (u, row)
  | _ => none

/-- The committed rows and events, the row locks, the open transactions, and the changes
    of those that committed, in that order. -/
structure ProfileSessions where
  profiles : Table EmployeeProfile
  audit : Table AuditEvent
  locks : Uuid → Option Nat
  stage : Nat → Stage
  committed : List Change

/-- An event of the employee's trail. -/
def isTrailAction (actionType : String) : Bool := actionType ∈ ["profile.created", "profile.updated"]

theorem isTrailAction_created : isTrailAction "profile.created" = true := by decide

theorem isTrailAction_updated : isTrailAction "profile.updated" = true := by decide

def Change.apply (profiles : Table EmployeeProfile) : Change → Option (Table EmployeeProfile)
  | created c ids => profiles.insert (c.profileRow ids)
  | updated u row => some (updateCapacity profiles row.id u.expectedVersion u.capacityHours).1
  | nothing => some profiles

/-- The capacity that a change puts in force for the employee. -/
def Change.capacity (environment : Environment) (employeeId : String) : Change → Option Rat
  | .created c _ => if c.environment = environment ∧ c.employeeId = employeeId then some c.weeklyCapacityHours else none
  | .updated u _ => if u.environment = environment ∧ u.employeeId = employeeId then some u.capacityHours else none
  | .nothing => none

namespace ProfileSessions

def init : ProfileSessions := ⟨.empty, .empty, fun _ => none, fun _ => .idle, []⟩

inductive Action where
  | create (i : Nat) (c : ProfileCreate) (ids : DrawnIds)
  | look (i : Nat) (u : CapacityUpdate)
  | change (i : Nat)
  | append (i : Nat) (id : Uuid) (now : DateTime)
  | appendOther (i : Nat) (environment : Environment) (entry : AuditEntry) (id : Uuid) (now : DateTime)
  | commit (i : Nat)
  | rollback (i : Nat)

def moveTo (s : ProfileSessions) (i : Nat) (stage : Stage) : ProfileSessions := { s with stage := upd s.stage i stage }

/-- The row locks but those of a transaction. -/
def unlocked (s : ProfileSessions) (i : Nat) : Uuid → Option Nat := fun id =>
  if s.locks id = some i then none else s.locks id

/-- The transaction ends and leaves nothing behind. -/
def release (s : ProfileSessions) (i : Nat) : ProfileSessions :=
  { s with locks := s.unlocked i, stage := upd s.stage i .idle }

variable [Sha256]

/-- One statement of a transaction; one that waits for a row lock does nothing. -/
def step (s : ProfileSessions) : Action → ProfileSessions
  | .create i c ids => match s.stage i with
    | .idle => match s.profiles.insert (c.profileRow ids) with
      | some _ => s.moveTo i (.inserted c ids)
      | none => s
    | _ => s
  | .look i u => match s.stage i with
    | .idle => match findProfile s.profiles u.environment u.employeeId with
      | some row => s.moveTo i (.read u row)
      | none => s
    | _ => s
  | .change i => match s.stage i with
    | .read u row => match s.locks row.id with
      | some _ => s
      | none =>
        if (updateCapacity s.profiles row.id u.expectedVersion u.capacityHours).2 then
          { s.moveTo i (.changed u row) with locks := fun id => if id = row.id then some i else s.locks id }
        else s.moveTo i .idle
    | _ => s
  | .append i id now => match s.stage i with
    | .inserted c ids => s.moveTo i (.appended (.created c ids) (next s.audit c.environment c.entry id now))
    | .changed u row =>
      s.moveTo i (.appended (.updated u row) (next s.audit u.environment (u.entry row.weeklyCapacityHours) id now))
    | _ => s
  | .appendOther i environment entry id now => match s.stage i with
    | .idle =>
      if isTrailAction entry.actionType then s
      else s.moveTo i (.appended .nothing (next s.audit environment entry id now))
    | _ => s
  | .commit i => match s.stage i with
    | .appended change event => match s.audit.insert event, change.apply s.profiles with
      | some audit, some profiles =>
        { s.release i with profiles := profiles, audit := audit, committed := s.committed ++ [change] }
      | _, _ => s.release i
    | _ => s
  | .rollback i => s.release i

def run (s : ProfileSessions) (actions : List Action) : ProfileSessions := actions.foldl step s

/-! ## The trail -/

variable (s : ProfileSessions) (environment : Environment) (employeeId : String)

/-- The capacities that were in force for the employee, one after the other. -/
def capacities : List Rat := s.committed.filterMap (Change.capacity environment employeeId)

/-- The committed profile events of the employee, in sequence order. -/
def trail : List AuditEvent :=
  (ordered s.audit.rows environment).filter fun e => isTrailAction e.actionType && e.subjectIds == [employeeId]

/-- What updates record of the capacities that follow a version. -/
def updateStates : Nat → Rat → List Rat → List (Option Json × Option Json)
  | _, _, [] => []
  | version, capacity, c :: cs =>
    (some (stateOf version capacity), some (stateOf (version + 1) c)) :: updateStates (version + 1) c cs

/-- What a trail of these capacities records: a version for each, and for each but the
    first what was in force before it. -/
def trailStates : List Rat → List (Option Json × Option Json)
  | [] => []
  | c :: cs => (none, some (.obj [("version", .num 1)])) :: updateStates 1 c cs

/-- The version a recorded state has. -/
def versionIn : Option Json → Option Json
  | some (.obj members) => member members "version"
  | _ => none

structure Replayed : Prop where
  /-- Each event records what was in force before it and after it. -/
  states : (trail s environment employeeId).map (fun e => (e.priorState, e.newState)) =
    trailStates (capacities s environment employeeId)
  /-- The row has the last version, and what is in force since. -/
  current : (findProfile s.profiles environment employeeId).map (fun p => (p.version, p.weeklyCapacityHours)) =
    (capacities s environment employeeId).getLast?.map fun c => ((capacities s environment employeeId).length, c)

structure AuditReplays : Prop extends Replayed s environment employeeId where
  versions : (trail s environment employeeId).map (fun e => versionIn e.newState) =
    (List.range' 1 (capacities s environment employeeId).length).map fun n => some (.num n)
  /-- The last update recorded what the row has. -/
  last : ∀ p e, findProfile s.profiles environment employeeId = some p →
    (trail s environment employeeId).getLast? = some e → e.priorState ≠ none →
    e.newState = some (stateOf p.version p.weeklyCapacityHours)

/-! ## The condition -/

/-- A compare-and-set that goes through finds the capacity that was read before it. -/
def stepMeets (s : ProfileSessions) : Action → Bool
  | .change i => match s.stage i with
    | .read u row => !(updateCapacity s.profiles row.id u.expectedVersion u.capacityHours).2 ||
      (findProfile s.profiles u.environment u.employeeId).all fun p => p.weeklyCapacityHours == row.weeklyCapacityHours
    | _ => true
  | _ => true

/-- Every step of the run meets it. -/
def meets : ProfileSessions → List Action → Bool
  | _, [] => true
  | s, a :: actions => s.stepMeets a && meets (s.step a) actions

end ProfileSessions

/-! ## Rows -/

section
variable {profiles profiles' : Table EmployeeProfile} {environment : Environment} {employeeId : String}
  {p : EmployeeProfile}

theorem findProfile_updateCapacity {id : Uuid} {expected : Nat} {capacity : Rat} :
    findProfile (updateCapacity profiles id expected capacity).1 environment employeeId =
      (findProfile profiles environment employeeId).map
        (Table.change (isVersion id expected) (EmployeeProfile.setCapacity capacity)) :=
  @Table.find?_update _ _ profiles (isVersion id expected) (EmployeeProfile.setCapacity capacity)
    (EmployeeProfile.setCapacity_key capacity) _ fun _ => rfl

/-- The statement goes through when a row has that id and version. -/
theorem updateCapacity_ok {id : Uuid} {expected : Nat} {capacity : Rat} :
    (updateCapacity profiles id expected capacity).2 = true ↔ ∃ p ∈ profiles.rows, p.id = id ∧ p.version = expected := by
  have hu : ∀ a b, isVersion id expected a = true → isVersion id expected b = true → clashes a b = true := by
    intro a b ha hb
    simp only [isVersion, Bool.and_eq_true, beq_iff_eq] at ha hb
    exact clashes_byIdAnd.mpr (.inl (ha.1.trans hb.1.symm))
  show (profiles.count (isVersion id expected) == 1) = true ↔ _
  rw [beq_iff_eq, Table.count_eq_one hu]
  simp [isVersion]

/-- Rows with one id are one row. -/
theorem eq_of_id {a b : EmployeeProfile} (ha : a ∈ profiles.rows) (hb : b ∈ profiles.rows) (h : a.id = b.id) : a = b :=
  profiles.eq_of_clashes ha hb (clashes_byIdAnd.mpr (.inl h))

/-- What a commit does to the row of an employee that has one: nothing, unless it updates
    that row. -/
theorem apply_found {change : Change} (h : change.apply profiles = some profiles')
    (hp : findProfile profiles environment employeeId = some p) :
    ∃ p', findProfile profiles' environment employeeId = some p' ∧ p'.id = p.id ∧
      ((∀ u row, change = .updated u row → row.id ≠ p.id) → p' = p) := by
  cases change with
  | created c ids =>
    refine ⟨p, ?_, rfl, fun _ => rfl⟩
    have hr := findProfile_eq_some.mp hp
    rw [findProfile_insert h, if_neg, hp]
    intro hkey
    have hne := (not_clashes_byIdAnd.mp (Table.insert_fresh h p hr.1)).2
    exact hne (by rw [hr.2.1, hr.2.2, hkey.1, hkey.2])
  | updated u row =>
    cases h
    refine ⟨Table.change (isVersion row.id u.expectedVersion) (EmployeeProfile.setCapacity u.capacityHours) p,
      by rw [findProfile_updateCapacity, hp, Option.map_some],
      @Table.change_keeps _ _ _ (EmployeeProfile.setCapacity u.capacityHours) EmployeeProfile.id (fun _ => rfl) p,
      fun hne => Table.change_neg ?_⟩
    have : ¬ p.id = row.id := fun he => hne u row rfl he.symm
    simp [isVersion, this]
  | nothing =>
    cases h
    exact ⟨p, hp, rfl, fun _ => rfl⟩

end

/-! ## What a trail records -/

namespace ProfileSessions

theorem updateStates_concat {version : Nat} {capacity c : Rat} {cs : List Rat} :
    updateStates version capacity (cs ++ [c]) = updateStates version capacity cs ++
      [(some (stateOf (version + cs.length) ((cs.getLast?).getD capacity)),
        some (stateOf (version + cs.length + 1) c))] := by
  induction cs generalizing version capacity with
  | nil => rfl
  | cons a cs ih =>
    rw [List.cons_append, updateStates, ih, updateStates, List.cons_append, List.length_cons, List.getLast?_cons]
    simp only [Option.getD_some, show version + 1 + cs.length = version + (cs.length + 1) by omega]

/-- An update of what is in force adds one event. -/
theorem trailStates_concat {capacities : List Rat} {last c : Rat} (h : capacities.getLast? = some last) :
    trailStates (capacities ++ [c]) = trailStates capacities ++
      [(some (stateOf capacities.length last), some (stateOf (capacities.length + 1) c))] := by
  cases capacities with
  | nil => cases h
  | cons a cs =>
    rw [List.getLast?_cons] at h
    cases h
    rw [List.cons_append, trailStates, updateStates_concat, trailStates, List.cons_append, List.length_cons]
    simp only [show 1 + cs.length = cs.length + 1 by omega]

/-- The event of a transaction is of the change it commits with. -/
def Records [Sha256] (event : AuditEvent) : Change → Prop
  | .created c _ => ∃ audit id now, event = next audit c.environment c.entry id now
  | .updated u row => ∃ audit id now, event = next audit u.environment (u.entry row.weeklyCapacityHours) id now
  | .nothing => isTrailAction event.actionType = false

variable [Sha256]

/-- What an open update holds: the lock of the row, which has the version it expected and
    the capacity it read. -/
structure Holds (s : ProfileSessions) (i : Nat) (u : CapacityUpdate) (row : EmployeeProfile) : Prop where
  lock : s.locks row.id = some i
  row : ∃ p, findProfile s.profiles u.environment u.employeeId = some p ∧ p.id = row.id ∧
    p.version = u.expectedVersion ∧ p.weeklyCapacityHours = row.weeklyCapacityHours

/-- What a transaction relies on at its stage. -/
structure Relies (s : ProfileSessions) (i : Nat) (stage : Stage) : Prop where
  fits : Fits s.audit.rows stage.events
  known : ∀ u row, stage = .read u row →
    ∃ p, findProfile s.profiles u.environment u.employeeId = some p ∧ p.id = row.id
  held : ∀ u row, stage.update = some (u, row) → Holds s i u row
  recorded : ∀ change event, stage = .appended change event → Records event change

structure Sound (s : ProfileSessions) : Prop where
  chained : ∀ environment, Chained s.audit.rows environment
  relies : ∀ i, Relies s i (s.stage i)
  replayed : ∀ environment employeeId, Replayed s environment employeeId

variable {s : ProfileSessions} {environment : Environment} {employeeId : String}

/-- A chained trail is in the order its events were stored. -/
theorem trail_eq (h : Chained s.audit.rows environment) : trail s environment employeeId =
    (stored s.audit.rows environment).filter fun e => isTrailAction e.actionType && e.subjectIds == [employeeId] := by
  rw [trail, h.ordered_eq]

/-- What one more committed event adds to a trail. -/
theorem trail_snoc {s' : ProfileSessions} {event : AuditEvent} (h : Chained s.audit.rows environment)
    (h' : Chained s'.audit.rows environment) (hrows : s'.audit.rows = s.audit.rows ++ [event]) :
    trail s' environment employeeId = trail s environment employeeId ++
      if event.environment = environment ∧ isTrailAction event.actionType = true ∧ event.subjectIds = [employeeId] then
        [event] else [] := by
  rw [trail_eq h', trail_eq h, hrows, stored_append, List.filter_append]
  congr 1
  by_cases henv : event.environment = environment
  · by_cases haction : isTrailAction event.actionType = true ∧ event.subjectIds = [employeeId]
    · simp [stored, henv, haction]
    · rw [if_neg (fun h => haction h.2)]
      simp only [not_and] at haction
      simpa [stored, henv] using haction
  · simp [stored, henv]

omit [Sha256] in
/-- A trail and a row that stay are still replayed. -/
theorem Replayed.of_eq {s' : ProfileSessions} (h : Replayed s environment employeeId)
    (htrail : trail s' environment employeeId = trail s environment employeeId)
    (hcapacities : capacities s' environment employeeId = capacities s environment employeeId)
    (hprofile : findProfile s'.profiles environment employeeId = findProfile s.profiles environment employeeId) :
    Replayed s' environment employeeId := by
  constructor
  · rw [htrail, hcapacities]
    exact h.states
  · rw [hprofile, hcapacities]
    exact h.current

/-- Committing keeps every trail. -/
theorem commit_replayed (h : Sound s) {i : Nat} {change : Change} {event : AuditEvent}
    (hstage : s.stage i = .appended change event) {s' : ProfileSessions}
    (hchained : Chained s'.audit.rows environment) (hrows : s'.audit.rows = s.audit.rows ++ [event])
    (happly : change.apply s.profiles = some s'.profiles) (hcommitted : s'.committed = s.committed ++ [change]) :
    Replayed s' environment employeeId := by
  have hold := h.replayed environment employeeId
  have htrail := @trail_snoc _ s environment employeeId s' event (h.chained environment) hchained hrows
  have hcapacities : capacities s' environment employeeId =
      capacities s environment employeeId ++ (change.capacity environment employeeId).toList := by
    rw [capacities, hcommitted, List.filterMap_append]
    cases hc : change.capacity environment employeeId <;> simp [hc, capacities]
  have hrecorded := (h.relies i).recorded change event hstage
  cases change with
  | created c ids =>
    obtain ⟨audit, id, now, rfl⟩ := hrecorded
    have hfind := @findProfile_insert s.profiles s'.profiles environment employeeId (c.profileRow ids) happly
    by_cases hkey : c.environment = environment ∧ c.employeeId = employeeId
    · -- the first profile of the employee starts the trail
      obtain ⟨rfl, rfl⟩ := hkey
      have hnone : capacities s c.environment c.employeeId = [] := by
        have hcurrent := hold.current
        rw [show findProfile s.profiles c.environment c.employeeId = none from findProfile_none happly] at hcurrent
        simpa using hcurrent.symm
      have hstates := hold.states
      rw [hnone] at hstates hcapacities
      rw [if_pos ⟨rfl, isTrailAction_created, rfl⟩] at htrail
      rw [Change.capacity, if_pos ⟨rfl, rfl⟩] at hcapacities
      constructor
      · rw [htrail, List.map_append, hstates, hcapacities]
        rfl
      · rw [hfind.trans (if_pos ⟨rfl, rfl⟩), hcapacities]
        rfl
    · rw [if_neg (fun h => hkey ⟨h.1, (List.cons.inj h.2.2).1⟩), List.append_nil] at htrail
      rw [Change.capacity, if_neg hkey, Option.toList_none, List.append_nil] at hcapacities
      exact hold.of_eq htrail hcapacities (hfind.trans (if_neg hkey))
  | updated u row =>
    obtain ⟨audit, id, now, rfl⟩ := hrecorded
    obtain ⟨p, hp, hid, hversion, hcapacity⟩ := ((h.relies i).held u row (by rw [hstage]; rfl)).row
    have hprofiles : s'.profiles = (updateCapacity s.profiles row.id u.expectedVersion u.capacityHours).1 :=
      (Option.some.inj happly).symm
    have hfind := @findProfile_updateCapacity s.profiles environment employeeId row.id u.expectedVersion u.capacityHours
    rw [← hprofiles] at hfind
    by_cases hkey : u.environment = environment ∧ u.employeeId = employeeId
    · obtain ⟨rfl, rfl⟩ := hkey
      have hcurrent := hold.current
      rw [hp, Option.map_some] at hcurrent
      obtain ⟨last, hlast, hinForce⟩ := Option.map_eq_some_iff.mp hcurrent.symm
      obtain ⟨hlength, hinForce⟩ := Prod.mk.inj hinForce
      rw [if_pos ⟨rfl, isTrailAction_updated, rfl⟩] at htrail
      rw [Change.capacity, if_pos ⟨rfl, rfl⟩] at hcapacities
      constructor
      · rw [htrail, List.map_append, hold.states, hcapacities, Option.toList_some, trailStates_concat hlast, hlength,
          hinForce, hversion, hcapacity]
        rfl
      · rw [hfind, hp, Option.map_some, hcapacities, Option.toList_some, List.getLast?_concat, List.length_append,
          hlength, Table.change_pos (by simp [isVersion, hid, hversion])]
        rfl
    · rw [if_neg (fun h => hkey ⟨h.1, (List.cons.inj h.2.2).1⟩), List.append_nil] at htrail
      rw [Change.capacity, if_neg hkey, Option.toList_none, List.append_nil] at hcapacities
      refine hold.of_eq htrail hcapacities ?_
      rw [hfind]
      cases hother : findProfile s.profiles environment employeeId with
      | none => rfl
      | some q =>
        -- the row that is updated is another employee's
        have hne : isVersion row.id u.expectedVersion q = false := by
          rw [isVersion, Bool.and_eq_false_iff, beq_eq_false_iff_ne]
          refine .inl fun hq => hkey ?_
          obtain ⟨hpmem, hpenv, hpemployee⟩ := findProfile_eq_some.mp hp
          obtain ⟨hqmem, hqenv, hqemployee⟩ := findProfile_eq_some.mp hother
          cases eq_of_id hpmem hqmem (hid.trans hq.symm)
          exact ⟨hpenv.symm.trans hqenv, hpemployee.symm.trans hqemployee⟩
        rw [Option.map_some, Table.change_neg hne]
  | nothing =>
    rw [if_neg (by simp [show isTrailAction event.actionType = false from hrecorded]), List.append_nil] at htrail
    rw [show Change.capacity environment employeeId .nothing = none from rfl, Option.toList_none, List.append_nil]
      at hcapacities
    have hprofiles : s'.profiles = s.profiles := (Option.some.inj happly).symm
    exact hold.of_eq htrail hcapacities (by rw [hprofiles])

/-! ## Every step keeps it -/

theorem relies_idle {i : Nat} (h : ∀ environment, Chained s.audit.rows environment) : Relies s i .idle where
  fits := fits_nil h
  known _ _ hr := by cases hr
  held _ _ hu := by cases hu
  recorded _ _ ha := by cases ha

/-- A stage with nothing to commit yet. -/
theorem relies_started {i : Nat} {stage : Stage} (h : ∀ environment, Chained s.audit.rows environment)
    (hevents : stage.events = []) (hread : ∀ u row, stage ≠ .read u row) (hupdate : stage.update = none) :
    Relies s i stage where
  fits := by rw [hevents]; exact fits_nil h
  known u row hr := absurd hr (hread u row)
  held _ _ hu := by rw [hupdate] at hu; cases hu
  recorded _ _ ha := by rw [ha] at hevents; cases hevents

/-- What is committed and what is locked for it is all a transaction relies on. -/
theorem Relies.of_same {s' : ProfileSessions} {i : Nat} {stage : Stage} (h : Relies s i stage) (ha : s'.audit = s.audit)
    (hp : s'.profiles = s.profiles) (hl : ∀ id, s.locks id = some i → s'.locks id = some i) : Relies s' i stage where
  fits := by rw [ha]; exact h.fits
  known u row hr := by rw [hp]; exact h.known u row hr
  held u row hu := ⟨hl row.id (h.held u row hu).lock, by rw [hp]; exact (h.held u row hu).row⟩
  recorded := h.recorded

/-- One transaction moves on, the others rely on what they did. -/
theorem relies_upd {s' : ProfileSessions} {i : Nat} {stage : Stage} (hi : Relies s' i stage)
    (hj : ∀ j, j ≠ i → Relies s' j (s.stage j)) (j : Nat) : Relies s' j (upd s.stage i stage j) := by
  by_cases hij : j = i
  · rw [hij, upd_same]
    exact hi
  · rw [upd_ne _ _ hij]
    exact hj j hij

omit [Sha256] in
theorem Replayed.of_same {s' : ProfileSessions} (h : Replayed s environment employeeId) (ha : s'.audit = s.audit)
    (hp : s'.profiles = s.profiles) (hc : s'.committed = s.committed) : Replayed s' environment employeeId :=
  h.of_eq (by rw [trail, trail, ha]) (by rw [capacities, capacities, hc]) (by rw [hp])

theorem init_sound : Sound init where
  chained _ := rfl
  relies _ := relies_idle fun _ => rfl
  replayed _ _ := ⟨rfl, rfl⟩

/-- A transaction that moves on without touching what is committed or locked. -/
theorem moveTo_sound (h : Sound s) {i : Nat} {stage : Stage} (hstage : Relies s i stage) : Sound (s.moveTo i stage) where
  chained := h.chained
  relies := relies_upd (hstage.of_same rfl rfl fun _ hl => hl) fun j _ => (h.relies j).of_same rfl rfl fun _ hl => hl
  replayed environment employeeId := (h.replayed environment employeeId).of_same rfl rfl rfl

omit [Sha256] in
theorem unlocked_of_ne {i j : Nat} {id : Uuid} (hij : j ≠ i) (h : s.locks id = some j) : s.unlocked i id = some j := by
  rw [unlocked, h, if_neg (fun he => hij (Option.some.inj he))]

/-- Ending a transaction leaves the locks of the others. -/
theorem release_sound (h : Sound s) (i : Nat) : Sound (s.release i) where
  chained := h.chained
  relies := relies_upd (relies_idle h.chained) fun j hij =>
    (h.relies j).of_same rfl rfl fun _ hl => unlocked_of_ne hij hl
  replayed environment employeeId := (h.replayed environment employeeId).of_same rfl rfl rfl

/-- A compare-and-set that finds the capacity it read takes the lock. -/
theorem change_sound (h : Sound s) {i : Nat} {u : CapacityUpdate} {row : EmployeeProfile}
    (hstage : s.stage i = .read u row) (hfree : s.locks row.id = none)
    (hok : (updateCapacity s.profiles row.id u.expectedVersion u.capacityHours).2 = true)
    (hmeets : s.stepMeets (.change i) = true) :
    Sound { s.moveTo i (.changed u row) with locks := fun id => if id = row.id then some i else s.locks id } := by
  obtain ⟨p, hp, hid⟩ := (h.relies i).known u row hstage
  have hversion : p.version = u.expectedVersion := by
    obtain ⟨q, hq, hqid, hqversion⟩ := updateCapacity_ok.mp hok
    rw [eq_of_id (findProfile_eq_some.mp hp).1 hq (hid.trans hqid.symm), hqversion]
  have hcapacity : p.weeklyCapacityHours = row.weeklyCapacityHours := by
    rw [stepMeets, hstage] at hmeets
    dsimp only at hmeets
    rw [hok, hp] at hmeets
    simpa using hmeets
  refine ⟨h.chained, relies_upd ?_ fun j _ => ?_, fun environment employeeId =>
    (h.replayed environment employeeId).of_same rfl rfl rfl⟩
  · refine ⟨fits_nil h.chained, fun _ _ hr => (by cases hr), fun v r hu => ?_, fun _ _ ha => (by cases ha)⟩
    cases hu
    exact ⟨if_pos rfl, p, hp, hid, hversion, hcapacity⟩
  · refine (h.relies j).of_same rfl rfl fun id hl => (if_neg fun he => ?_).trans hl
    rw [← he, hl] at hfree
    cases hfree

theorem commit_sound (h : Sound s) {i : Nat} {change : Change} {event : AuditEvent}
    (hstage : s.stage i = .appended change event) {audit : Table AuditEvent} {profiles : Table EmployeeProfile}
    (haudit : s.audit.insert event = some audit) (happly : change.apply s.profiles = some profiles) :
    Sound { s.release i with profiles := profiles, audit := audit, committed := s.committed ++ [change] } := by
  have hrows := Table.insert_rows haudit
  have hown : Fits s.audit.rows [event] := by
    have := (h.relies i).fits
    rw [hstage] at this
    exact this
  have hchained : ∀ environment, Chained audit.rows environment :=
    hown.inserted (show s.audit.insertAll [event] = some audit by rw [Table.insertAll, haudit]; rfl)
  refine ⟨hchained, relies_upd (relies_idle hchained) fun j hij => ?_, fun environment employeeId =>
    commit_replayed h hstage (hchained environment) hrows happly rfl⟩
  have hold := h.relies j
  refine ⟨?_, fun u row hr => ?_, fun u row hu => ?_, hold.recorded⟩
  · show Fits audit.rows _
    rw [hrows] at hchained ⊢
    exact hold.fits.others hchained
  · obtain ⟨p, hp, hid⟩ := hold.known u row hr
    obtain ⟨p', hp', hid', _⟩ := apply_found happly hp
    exact ⟨p', hp', hid'.trans hid⟩
  · obtain ⟨hlock, p, hp, hid, hversion, hcapacity⟩ := hold.held u row hu
    obtain ⟨p', hp', _, hsame⟩ := apply_found happly hp
    refine ⟨unlocked_of_ne hij hlock, p, ?_, hid, hversion, hcapacity⟩
    rw [← hsame fun v r hchange he => ?_]
    · exact hp'
    -- the transaction that commits an update of the row holds its lock
    have hlocks := ((h.relies i).held v r (by rw [hstage, hchange]; rfl)).lock
    rw [he, hid, hlock] at hlocks
    exact hij (Option.some.inj hlocks)

/-- An event that is appended continues the chain. -/
theorem relies_appended (h : Sound s) {i : Nat} {change : Change} {environment : Environment} {entry : AuditEntry}
    {id : Uuid} {now : DateTime} (hrecorded : Records (next s.audit environment entry id now) change)
    (hheld : ∀ u row, (Stage.appended change (next s.audit environment entry id now)).update = some (u, row) →
      Holds s i u row) : Relies s i (.appended change (next s.audit environment entry id now)) where
  fits := .inl (next_chained h.chained environment entry id now)
  known _ _ hr := by cases hr
  held := hheld
  recorded _ _ ha := by cases ha; exact hrecorded

/-- A step that meets the condition keeps the invariant. -/
theorem step_sound (h : Sound s) {a : Action} (hmeets : s.stepMeets a = true) : Sound (s.step a) := by
  cases a with
  | create i c ids =>
    simp only [step]
    split
    · split
      · exact moveTo_sound h (relies_started h.chained rfl (fun _ _ hr => by cases hr) rfl)
      · exact h
    · exact h
  | look i u =>
    simp only [step]
    split
    · split
      · rename_i row hrow
        refine moveTo_sound h ⟨fits_nil h.chained, fun v r hr => ?_, fun _ _ hu => (by cases hu),
          fun _ _ ha => (by cases ha)⟩
        cases hr
        exact ⟨row, hrow, rfl⟩
      · exact h
    · exact h
  | change i =>
    simp only [step]
    split
    · rename_i u row hstage
      split
      · exact h
      · rename_i hfree
        split
        · rename_i hok
          exact change_sound h hstage hfree hok hmeets
        · exact moveTo_sound h (relies_idle h.chained)
    · exact h
  | append i id now =>
    simp only [step]
    split
    · exact moveTo_sound h (relies_appended h ⟨_, _, _, rfl⟩ fun _ _ hu => by cases hu)
    · rename_i u row hstage
      refine moveTo_sound h (relies_appended h ⟨_, _, _, rfl⟩ fun v r hu => ?_)
      cases hu
      exact (h.relies i).held u row (by rw [hstage]; rfl)
    · exact h
  | appendOther i environment entry id now =>
    simp only [step]
    split
    · split
      · exact h
      · rename_i haction
        exact moveTo_sound h (relies_appended h (Bool.eq_false_iff.mpr haction) fun _ _ hu => by cases hu)
    · exact h
  | commit i =>
    simp only [step]
    split
    · rename_i change event hstage
      split
      · rename_i audit profiles haudit happly
        exact commit_sound h hstage haudit happly
      · exact release_sound h i
    · exact h
  | rollback i => exact release_sound h i

theorem run_sound {actions : List Action} : ∀ {s : ProfileSessions}, Sound s → s.meets actions = true →
    Sound (s.run actions) := by
  induction actions with
  | nil => exact fun h _ => h
  | cons a actions ih =>
    intro s h hmeets
    rw [meets, Bool.and_eq_true] at hmeets
    exact ih (step_sound h hmeets.1) hmeets.2

/-! ## What the trail tells -/

omit [Sha256] in
theorem updateStates_versions {version : Nat} {capacity : Rat} {cs : List Rat} :
    (updateStates version capacity cs).map (fun states => versionIn states.2) =
      (List.range' (version + 1) cs.length).map fun n => some (.num n) := by
  induction cs generalizing version capacity with
  | nil => rfl
  | cons c cs ih =>
    rw [updateStates, List.map_cons, ih, List.length_cons, List.range'_succ, List.map_cons]
    rfl

omit [Sha256] in
/-- A trail numbers its capacities from one. -/
theorem trailStates_versions {capacities : List Rat} : (trailStates capacities).map (fun states => versionIn states.2) =
    (List.range' 1 capacities.length).map fun n => some (.num n) := by
  cases capacities with
  | nil => rfl
  | cons c cs =>
    rw [trailStates, List.map_cons, updateStates_versions, List.length_cons, List.range'_succ, List.map_cons]
    rfl

omit [Sha256] in
/-- The last update of a trail recorded the last capacity. -/
theorem trailStates_last {capacities : List Rat} {prior new : Option Json} {last : Rat}
    (h : (trailStates capacities).getLast? = some (prior, new)) (hlast : capacities.getLast? = some last)
    (hprior : prior ≠ none) : new = some (stateOf capacities.length last) := by
  rcases List.eq_nil_or_concat capacities with rfl | ⟨before, c, rfl⟩
  · cases hlast
  rw [List.concat_eq_append] at h hlast ⊢
  rw [List.getLast?_concat] at hlast
  cases hlast
  cases hbefore : before.getLast? with
  | none =>
    rw [List.getLast?_eq_none_iff.mp hbefore] at h
    cases h
    exact absurd rfl hprior
  | some a =>
    rw [trailStates_concat hbefore, List.getLast?_concat] at h
    cases h
    rw [List.length_append, List.length_singleton]

omit [Sha256] in
theorem Replayed.audit (h : Replayed s environment employeeId) : AuditReplays s environment employeeId := by
  refine ⟨h, ?_, fun p e hp he hprior => ?_⟩
  · rw [← trailStates_versions, ← h.states, List.map_map]
    rfl
  · have hcurrent := h.current
    rw [hp, Option.map_some] at hcurrent
    obtain ⟨last, hlast, hinForce⟩ := Option.map_eq_some_iff.mp hcurrent.symm
    obtain ⟨hlength, hcapacity⟩ := Prod.mk.inj hinForce
    have hstates := congrArg List.getLast? h.states
    rw [List.getLast?_map, he, Option.map_some] at hstates
    rw [← hlength, ← hcapacity]
    exact trailStates_last hstates.symm hlast hprior

theorem audit_replays {actions : List Action} (h : init.meets actions = true) (environment : Environment)
    (employeeId : String) : AuditReplays (init.run actions) environment employeeId :=
  ((run_sound init_sound h).replayed environment employeeId).audit

end ProfileSessions

/-! ## An update that read a version before the one it expected -/

namespace ProfileSessions

def sampleCreate : ProfileCreate :=
  ⟨.dev, "EMP-001", "Engineer", "Senior", 40, false, none, [], [], [], "admin", "corr-1", 0⟩

def capacityUpdate (expectedVersion : Nat) (capacityHours : Rat) : CapacityUpdate :=
  ⟨.dev, "EMP-001", expectedVersion, capacityHours, "admin", "corr-1"⟩

/-- A profile is created. -/
def created : List Action := [.create 0 sampleCreate ⟨1, id, id, id, 1⟩, .append 0 1 0, .commit 0]

/-- The update that expects version 2 reads version 1; the other commits before it compares. -/
def readAhead : List Action := created ++
  [.look 1 (capacityUpdate 2 30), .look 2 (capacityUpdate 1 20), .change 2, .append 2 2 0, .commit 2, .change 1,
    .append 1 3 0, .commit 1]

/-- Its event records a capacity that was not in force. -/
theorem prior_capacity_is_misattributed : letI := Sha256.transparent
    ¬ AuditReplays (init.run readAhead) .dev "EMP-001" := by
  let _ := Sha256.transparent
  intro h
  exact absurd h.states (by decide)

/-- Each update reads the version it expects. -/
def oneByOne : List Action := created ++
  [.look 1 (capacityUpdate 1 30), .look 2 (capacityUpdate 2 20), .change 1, .append 1 2 0, .commit 1, .rollback 2,
    .look 2 (capacityUpdate 2 20), .change 2, .append 2 3 0, .commit 2]

theorem one_by_one_replays : letI := Sha256.transparent
    AuditReplays (init.run oneByOne) .dev "EMP-001" ∧ capacities (init.run oneByOne) .dev "EMP-001" = [40, 30, 20] := by
  let _ := Sha256.transparent
  exact ⟨audit_replays (by decide) .dev "EMP-001", by decide⟩

end ProfileSessions

end WorkforceRisk.Profiles
