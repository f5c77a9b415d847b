/-
  WorkforceRisk.Persistence.Audit — `AuditRepository.append`
  (packages/persistence/src/workforce_persistence/repositories.py).

  Each environment has one hash chain: an appended event takes the next sequence number
  and the hash of the latest event, and its own hash covers both and everything the event
  says. The latest event is read without a lock; the unique constraints on
  (environment, sequence_number) and (environment, event_hash) refuse the loser of a race.
  The column of the environment holds any text, so its type is a parameter.
-/

import WorkforceRisk.Lib.Table
import WorkforceRisk.Persistence.Values

namespace WorkforceRisk.Persistence

open Lib

structure AuditEvent (Env : Type := Environment) where
  id : Uuid
  environment : Env
  createdAt : DateTime
  sequenceNumber : Nat
  previousHash : Option String
  eventHash : String
  actionType : String
  actorType : String
  actorId : String
  subjectIds : List String
  priorState : Option Json
  newState : Option Json
  correlationId : String
  safeMetadata : Json

instance {Env : Type} [DecidableEq Env] : Keyed (AuditEvent Env) where
  Key := Uuid × Env × Nat × String
  key e := (e.id, e.environment, e.sequenceNumber, e.eventHash)
  clash a b := a.1 == b.1 || (a.2.1 == b.2.1 && (a.2.2.1 == b.2.2.1 || a.2.2.2 == b.2.2.2))
  clash_comm a b := by
    rw [Bool.beq_comm (a := a.1), Bool.beq_comm (a := a.2.1), Bool.beq_comm (a := a.2.2.1),
      Bool.beq_comm (a := a.2.2.2)]

/-- What `append` is told about an event. -/
structure AuditEntry where
  actionType : String
  actorType : String
  actorId : String
  subjectIds : List String
  correlationId : String
  priorState : Option Json
  newState : Option Json
  safeMetadata : Option Json

namespace AuditRepository

variable {Env : Type}

/-- `ORDER BY sequence_number DESC LIMIT 1`, row by row. -/
def later (best : Option (AuditEvent Env)) (e : AuditEvent Env) : Option (AuditEvent Env) :=
  match best with
  | none => some e
  | some b => if b.sequenceNumber < e.sequenceNumber then some e else some b

theorem later_le (best : Option (AuditEvent Env)) (x : AuditEvent Env) : ∃ b, later best x = some b ∧
    x.sequenceNumber ≤ b.sequenceNumber ∧ ∀ e, best = some e → e.sequenceNumber ≤ b.sequenceNumber := by
  cases best with
  | none => exact ⟨x, rfl, Nat.le_refl _, fun _ he => (nomatch he)⟩
  | some b =>
    simp only [later]
    split
    · rename_i hlt
      exact ⟨x, rfl, Nat.le_refl _, fun e he => by cases he; exact Nat.le_of_lt hlt⟩
    · rename_i hge
      exact ⟨b, rfl, Nat.le_of_not_lt hge, fun e he => by cases he; exact Nat.le_refl _⟩

theorem foldl_later {l : List (AuditEvent Env)} :
    ∀ {best : Option (AuditEvent Env)} {e : AuditEvent Env}, e ∈ l ∨ best = some e →
    ∃ b, l.foldl later best = some b ∧ e.sequenceNumber ≤ b.sequenceNumber := by
  induction l with
  | nil =>
    intro best e he
    exact ⟨e, he.resolve_left List.not_mem_nil, Nat.le_refl _⟩
  | cons x l ih =>
    intro best e he
    obtain ⟨b₁, hb₁, hx, hbest⟩ := later_le best x
    obtain ⟨b, hb, hle⟩ := ih (e := b₁) (Or.inr hb₁)
    rcases he with he | he
    · rcases List.mem_cons.mp he with rfl | he
      · exact ⟨b, hb, Nat.le_trans hx hle⟩
      · exact ih (Or.inl he)
    · exact ⟨b, hb, Nat.le_trans (hbest e he) hle⟩

variable [DecidableEq Env]

def latest (audit : Table (AuditEvent Env)) (environment : Env) : Option (AuditEvent Env) :=
  (audit.rows.filter (·.environment == environment)).foldl later none

variable [Sha256]

/-- The hashed fields, under sorted keys. -/
def payload (sequence : Nat) (previousHash : Option String) (entry : AuditEntry) : Json :=
  .obj [("action_type", .str entry.actionType), ("actor_id", .str entry.actorId),
    ("actor_type", .str entry.actorType), ("correlation_id", .str entry.correlationId),
    ("new_state", entry.newState.getD .null), ("previous_hash", .opt .str previousHash),
    ("prior_state", entry.priorState.getD .null), ("safe_metadata", entry.safeMetadata.getD (.obj [])),
    ("sequence", .num sequence), ("subject_ids", .strs entry.subjectIds)]

/-- The event `append` adds. -/
def next (audit : Table (AuditEvent Env)) (environment : Env) (entry : AuditEntry) (id : Uuid) (now : DateTime) :
    AuditEvent Env :=
  let sequence := ((latest audit environment).map (·.sequenceNumber + 1)).getD 1
  let previousHash := (latest audit environment).map (·.eventHash)
  { id := id
    environment := environment
    createdAt := now
    sequenceNumber := sequence
    previousHash := previousHash
    eventHash := Sha256.canonical (payload sequence previousHash entry)
    actionType := entry.actionType
    actorType := entry.actorType
    actorId := entry.actorId
    subjectIds := entry.subjectIds
    priorState := entry.priorState
    newState := entry.newState
    correlationId := entry.correlationId
    safeMetadata := entry.safeMetadata.getD (.obj []) }

def append (audit : Table (AuditEvent Env)) (environment : Env) (entry : AuditEntry) (id : Uuid) (now : DateTime) :
    Except Error (Table (AuditEvent Env)) :=
  match audit.insert (next audit environment entry id now) with
  | some audit' => .ok audit'
  | none => .error (.integrityError "audit_events")

theorem append_rows {audit audit' : Table (AuditEvent Env)} {environment : Env} {entry : AuditEntry} {id : Uuid}
    {now : DateTime} (h : append audit environment entry id now = .ok audit') :
    audit'.rows = audit.rows ++ [next audit environment entry id now] := by
  unfold append at h
  split at h
  · rename_i a ha
    cases h
    exact Table.insert_rows ha
  · cases h

/-- The next event's number is past those of its environment. -/
theorem next_sequence {audit : Table (AuditEvent Env)} {environment : Env} {entry : AuditEntry} {id : Uuid}
    {now : DateTime} {e : AuditEvent Env} (he : e ∈ audit.rows) (henv : e.environment = environment) :
    e.sequenceNumber < (next audit environment entry id now).sequenceNumber := by
  obtain ⟨b, hl, hle⟩ : ∃ b, latest audit environment = some b ∧ e.sequenceNumber ≤ b.sequenceNumber :=
    foldl_later (Or.inl (List.mem_filter.mpr ⟨he, by simpa using henv⟩))
  show _ < ((latest audit environment).map (·.sequenceNumber + 1)).getD 1
  rw [hl]
  exact Nat.lt_succ_of_le hle

/-- Only the id drawn or the hash can stop an event from being appended. -/
theorem next_fresh {audit : Table (AuditEvent Env)} {environment : Env} {entry : AuditEntry} {id : Uuid}
    {now : DateTime} (hid : ∀ e ∈ audit.rows, e.id ≠ id)
    (hhash : ∀ e ∈ audit.rows, e.environment = environment →
      e.eventHash ≠ (next audit environment entry id now).eventHash) :
    ∀ e ∈ audit.rows, clashes e (next audit environment entry id now) = false := by
  intro e he
  show (e.id == id || (e.environment == environment &&
    (e.sequenceNumber == (next audit environment entry id now).sequenceNumber ||
      e.eventHash == (next audit environment entry id now).eventHash))) = false
  simp only [Bool.or_eq_false_iff, beq_eq_false_iff_ne, Bool.and_eq_false_iff]
  refine ⟨hid e he, ?_⟩
  by_cases henv : e.environment = environment
  · exact Or.inr ⟨Nat.ne_of_lt (next_sequence he henv), hhash e he henv⟩
  · exact Or.inl henv

theorem append_of_fresh {audit : Table (AuditEvent Env)} {environment : Env} {entry : AuditEntry} {id : Uuid}
    {now : DateTime} (h : ∀ e ∈ audit.rows, clashes e (next audit environment entry id now) = false) :
    ∃ audit', append audit environment entry id now = .ok audit' := by
  obtain ⟨audit', ha⟩ := Table.insert_of_fresh h
  exact ⟨audit', by unfold append; rw [ha]⟩

end AuditRepository

end WorkforceRisk.Persistence
