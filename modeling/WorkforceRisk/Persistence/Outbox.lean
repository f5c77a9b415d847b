/-
  WorkforceRisk.Persistence.Outbox — `OutboxRepository.append`
  (packages/persistence/src/workforce_persistence/outbox_repository.py).

  An event is stored once for its consumer key: appending under a key the environment
  already has returns the stored event and writes nothing.
-/

import WorkforceRisk.Lib.Table
import WorkforceRisk.Persistence.Values

namespace WorkforceRisk.Persistence

open Lib

structure OutboxEvent where
  id : Uuid
  environment : Environment
  createdAt : DateTime
  consumerKey : String
  eventType : String
  payload : Json
  deliveryAttempts : Nat
  deriving DecidableEq

instance : Keyed OutboxEvent := .byIdAnd (·.id) fun e => (e.environment, e.consumerKey)

namespace OutboxRepository

/-- The event stored under the key, and the table with it. -/
def append (outbox : Table OutboxEvent) (environment : Environment) (consumerKey eventType : String) (payload : Json)
    (createdAt : DateTime) (id : Uuid) : Except Error (Table OutboxEvent × OutboxEvent) :=
  match outbox.find? (fun e => e.environment == environment && e.consumerKey == consumerKey) with
  | some existing => .ok (outbox, existing)
  | none =>
    let event : OutboxEvent :=
      { id := id, environment := environment, createdAt := createdAt, consumerKey := consumerKey,
        eventType := eventType, payload := payload, deliveryAttempts := 0 }
    match outbox.insert event with
    | some outbox' => .ok (outbox', event)
    | none => .error (.integrityError "outbox_events")

/-- An append with a new id always returns an event. -/
theorem append_ok (outbox : Table OutboxEvent) (environment : Environment) (consumerKey eventType : String)
    (payload : Json) (createdAt : DateTime) {id : Uuid} (h : ∀ e ∈ outbox.rows, e.id ≠ id) :
    ∃ outbox' event, append outbox environment consumerKey eventType payload createdAt id = .ok (outbox', event) := by
  unfold append
  split
  · exact ⟨_, _, rfl⟩
  · rename_i hfind
    obtain ⟨outbox', hinsert⟩ := Table.insert_of_fresh (t := outbox)
      (r := ⟨id, environment, createdAt, consumerKey, eventType, payload, 0⟩) fun e he => by
        refine not_clashes_byIdAnd.mpr ⟨h e he, fun hk => ?_⟩
        have hno := Table.find?_none hfind e he
        rw [(Prod.mk.inj hk).1, (Prod.mk.inj hk).2, beq_self_eq_true, beq_self_eq_true] at hno
        cases hno
    simp only [hinsert]
    exact ⟨_, _, rfl⟩

/-- The event an append adds is the one it was told. -/
theorem append_added {outbox outbox' : Table OutboxEvent} {environment : Environment} {consumerKey eventType : String}
    {payload : Json} {createdAt : DateTime} {id : Uuid} {stored event : OutboxEvent}
    (h : append outbox environment consumerKey eventType payload createdAt id = .ok (outbox', stored))
    (hrows : outbox'.rows = outbox.rows ++ [event]) :
    event = ⟨id, environment, createdAt, consumerKey, eventType, payload, 0⟩ := by
  unfold append at h
  split at h
  · cases h
    exact absurd (congrArg List.length hrows) (by simp)
  · simp only at h
    split at h
    · rename_i hins
      cases h
      rw [Table.insert_rows hins] at hrows
      exact (List.singleton_inj.mp (List.append_cancel_left hrows)).symm
    · cases h

end OutboxRepository

end WorkforceRisk.Persistence
