/-
  WorkforceRisk.Notifications.Claims — who holds the claim of a delivery.

  The log says it: a handler holds the claim from the effect that gave it (a row found
  claimable, or inserted) to its mark (`holders`); one that crashed in between holds it
  still, but is not live. `Move` is all an effect of a handler can do.

  Proved: an answered effect is a `Move` (`perform_move`), and the holders of the log are
  the handlers whose protocol state says so, each with a row in the table (`Tracked`).
-/

import WorkforceRisk.Notifications.Worker

namespace WorkforceRisk.Notifications

open Lib Persistence DatabaseDeliveryStore

/-! ## The log -/

namespace Entry

/-- The claim's answer is True. -/
def claims : Entry → Bool
  | ⟨_, .find .., some d, _, _⟩ => isClaimable d.state
  | ⟨_, .insert .., .ok _, _, _⟩ => true
  | _ => false

def marks : Entry → Bool
  | ⟨_, .mark .., _, _, _⟩ => true
  | _ => false

def marksSent : Entry → Bool
  | ⟨_, .mark _ .sent _, _, _, _⟩ => true
  | _ => false

/-- An email is given to the mail service. -/
def sends : Entry → Bool
  | ⟨_, .send .., _, _, _⟩ => true
  | _ => false

/-- The mail service has taken an email. -/
def emails : Entry → Bool
  | ⟨_, .send .., .ok _, _, _⟩ => true
  | _ => false

end Entry

/-- The handlers between a successful claim and its mark. -/
def holders : List Entry → List Nat
  | [] => []
  | e :: log =>
    if e.claims then e.call :: holders log
    else if e.marks then (holders log).filter (· != e.call)
    else holders log

abbrev State := Config Request Request.Reply World

/-- Those that have not crashed. -/
def liveHolders (c : State) : List Nat := (holders c.shared.log).filter fun i => (c.calls i).isLive

def World.answered (w : World) (i : Nat) (request : Request) (reply : request.Reply) (deliveries : Deliveries) :
    World :=
  ⟨deliveries, ⟨i, request, reply, w.deliveries, deliveries⟩ :: w.log⟩

/-- The deliveries with the key's rows marked. -/
def Deliveries.mark (deliveries : Deliveries) (consumerKey : String) (state : DeliveryState) (error : Option String) :
    Deliveries :=
  deliveries.update (·.consumerKey == consumerKey) (NotificationDelivery.marked state error)
    (NotificationDelivery.marked_key state error)

/-- What an effect of handler `i` can do. -/
inductive Move (environment : Environment) (consumerKey : String) (i : Nat) (w : World) :
    Request → Pc → Pc → World → Prop where
  | claimed {d : NotificationDelivery} : w.deliveries.find? (isFor environment consumerKey) = some d →
      isClaimable d.state = true → Move environment consumerKey i w (.find consumerKey environment) .fresh .claimed
        (w.answered i (.find consumerKey environment) (some d) w.deliveries)
  | taken {d : NotificationDelivery} : w.deliveries.find? (isFor environment consumerKey) = some d →
      isClaimable d.state = false → Move environment consumerKey i w (.find consumerKey environment) .fresh
        (.returned (.ok true)) (w.answered i (.find consumerKey environment) (some d) w.deliveries)
  | missing : w.deliveries.find? (isFor environment consumerKey) = none →
      Move environment consumerKey i w (.find consumerKey environment) .fresh .absent
        (w.answered i (.find consumerKey environment) none w.deliveries)
  | inserted {deliveries : Deliveries} {id : Uuid} {now : DateTime} :
      w.deliveries.find? (isFor environment consumerKey) = none →
      deliveries.rows = w.deliveries.rows ++ [newDelivery id now consumerKey environment] →
      Move environment consumerKey i w (.insert consumerKey environment) .absent .claimed
        (w.answered i (.insert consumerKey environment) (.ok ()) deliveries)
  | lost (e : Error) : Move environment consumerKey i w (.insert consumerKey environment) .absent (.returned (.error e))
        (w.answered i (.insert consumerKey environment) (.error e) w.deliveries)
  | emailed (source : String) (email : EmailMessage) (messageId : String) :
      Move environment consumerKey i w (.send source email) .claimed .emailed
        (w.answered i (.send source email) (.ok messageId) w.deliveries)
  | refused (source : String) (email : EmailMessage) (e : String) :
      Move environment consumerKey i w (.send source email) .claimed .refused
        (w.answered i (.send source email) (.error e) w.deliveries)
  | sent (error : Option String) : Move environment consumerKey i w (.mark consumerKey .sent error) .emailed
      (.returned (.ok true)) (w.answered i (.mark consumerKey .sent error) () (w.deliveries.mark consumerKey .sent error))
  | retrying {g : Pc} (error : Option String) : g = .claimed ∨ g = .refused →
      Move environment consumerKey i w (.mark consumerKey .retrying error) g (.returned (.ok false))
        (w.answered i (.mark consumerKey .retrying error) () (w.deliveries.mark consumerKey .retrying error))
  | responded {g : Pc} (result : Except Error Bool) : g.holds = false →
      Move environment consumerKey i w (.respond result) g .done (w.answered i (.respond result) () w.deliveries)

section
variable {environment : Environment} {consumerKey : String}

theorem perform_answered {w w' : World} {i : Nat} {ch : Choice} {request : Request} {reply : request.Reply}
    (h : w.perform i ch request = (reply, w')) :
    ∃ deliveries, answer ch w.deliveries request = (reply, deliveries) ∧ w' = w.answered i request reply deliveries := by
  cases h
  exact ⟨_, rfl, rfl⟩

theorem perform_move {w w' : World} {i : Nat} {g : Pc} {ch : Choice} {request : Request} {reply : request.Reply}
    (ha : (protocol environment consumerKey).allows g request) (h : w.perform i ch request = (reply, w')) :
    Move environment consumerKey i w request g ((protocol environment consumerKey).next g request reply) w' := by
  obtain ⟨deliveries, hans, rfl⟩ := perform_answered h
  cases request with
  | find key env =>
    cases g with
    | fresh =>
      obtain ⟨rfl, rfl⟩ := ha
      obtain ⟨hf, rfl⟩ := Prod.mk.inj hans
      cases reply with
      | none => exact .missing hf
      | some d =>
        cases hc : isClaimable d.state with
        | true => simpa [protocol, hc] using Move.claimed hf hc
        | false => simpa [protocol, hc] using Move.taken hf hc
    | _ => exact False.elim ha
  | insert key env =>
    cases g with
    | absent =>
      obtain ⟨rfl, rfl⟩ := ha
      obtain ⟨rfl, hnone, hrows⟩ | ⟨⟨e, rfl⟩, rfl⟩ := answer_insert hans
      · exact .inserted hnone hrows
      · exact .lost e
    | _ => exact False.elim ha
  | mark key state error =>
    obtain ⟨_, rfl⟩ := Prod.mk.inj hans
    cases g with
    | emailed =>
      obtain ⟨rfl, rfl⟩ := ha
      exact .sent error
    | claimed =>
      obtain ⟨rfl, rfl⟩ := ha
      exact .retrying error (.inl rfl)
    | refused =>
      obtain ⟨rfl, rfl⟩ := ha
      exact .retrying error (.inr rfl)
    | _ => exact False.elim ha
  | send source email =>
    obtain ⟨_, rfl⟩ := Prod.mk.inj hans
    cases g with
    | claimed =>
      cases reply with
      | ok messageId => exact .emailed source email messageId
      | error e => exact .refused source email e
    | _ => exact False.elim ha
  | respond result =>
    obtain ⟨_, rfl⟩ := Prod.mk.inj hans
    cases g with
    | fresh => exact .responded result rfl
    | returned result' => exact .responded result rfl
    | _ => exact False.elim ha

end

/-! ## Where the handlers are -/

section
variable {environment : Environment} {consumerKey : String}

/-- The row of the key after its rows are marked. -/
theorem find_mark {deliveries : Deliveries} {state : DeliveryState} {error : Option String} {d : NotificationDelivery}
    (h : deliveries.find? (isFor environment consumerKey) = some d) :
    (deliveries.mark consumerKey state error).find? (isFor environment consumerKey) = some (d.marked state error) := by
  have hkey := (isFor_iff.mp (Table.find?_holds h)).2
  have hfind : (deliveries.mark consumerKey state error).find? (isFor environment consumerKey) = _ :=
    Table.find?_update fun _ => rfl
  rw [hfind, h, Option.map_some, Table.change_pos (by simpa using hkey)]

/-- A row of the key stays. -/
theorem Move.row {i : Nat} {w w' : World} {request : Request} {g g' : Pc} {d : NotificationDelivery}
    (h : Move environment consumerKey i w request g g' w')
    (hd : w.deliveries.find? (isFor environment consumerKey) = some d) :
    ∃ d', w'.deliveries.find? (isFor environment consumerKey) = some d' := by
  cases h with
  | inserted hnone => cases hd.symm.trans hnone
  | sent error => exact ⟨_, find_mark hd⟩
  | retrying error => exact ⟨_, find_mark hd⟩
  | _ => exact ⟨d, hd⟩

/-- An effect gives its handler the claim, ends it, or leaves the holders as they are. -/
theorem Move.holders {i : Nat} {w w' : World} {request : Request} {g g' : Pc}
    (h : Move environment consumerKey i w request g g' w') :
    (g.holds = false ∧ g'.holds = true ∧ holders w'.log = i :: holders w.log) ∨
    (g.holds = true ∧ g'.holds = false ∧ holders w'.log = (holders w.log).filter (· != i)) ∨
    (g'.holds = g.holds ∧ holders w'.log = holders w.log) := by
  cases h with
  | claimed hf hc => exact .inl ⟨rfl, rfl, if_pos hc⟩
  | taken hf hc => exact .inr (.inr ⟨rfl, if_neg (by simp [Entry.claims, hc])⟩)
  | inserted hnone hrows => exact .inl ⟨rfl, rfl, rfl⟩
  | sent error => exact .inr (.inl ⟨rfl, rfl, rfl⟩)
  | retrying error hg => exact .inr (.inl ⟨by rcases hg with rfl | rfl <;> rfl, rfl, rfl⟩)
  | responded result hg => exact .inr (.inr ⟨hg.symm, rfl⟩)
  | _ => exact .inr (.inr ⟨rfl, rfl⟩)

/-- The claim is given with a row. -/
theorem Move.gives_row {i : Nat} {w w' : World} {request : Request} {g g' : Pc}
    (h : Move environment consumerKey i w request g g' w') (hg : g.holds = false) (hg' : g'.holds = true) :
    ∃ d, w'.deliveries.find? (isFor environment consumerKey) = some d := by
  cases h with
  | claimed hf hc => exact ⟨_, hf⟩
  | inserted hnone hrows =>
    rename_i deliveries id now
    refine ⟨newDelivery id now consumerKey environment, find_of_mem ?_ (isFor_iff.mpr ⟨rfl, rfl⟩)⟩
    rw [World.answered, hrows]
    exact List.mem_append_right _ (List.mem_singleton_self _)
  | emailed => cases hg
  | refused => cases hg
  | _ => cases hg'

/-- The holders of the log are the handlers that know they hold the claim, and hold it by
    a row of the table. -/
structure Tracked (environment : Environment) (consumerKey : String) (c : State) (pc : Nat → Pc) : Prop where
  idle : ∀ i, c.calls i = .idle → pc i = .fresh
  holds : ∀ i, i ∈ holders c.shared.log ↔ (pc i).holds = true
  row : ∀ i ∈ holders c.shared.log, ∃ d, c.shared.deliveries.find? (isFor environment consumerKey) = some d

namespace Tracked

variable {c : State} {pc : Nat → Pc} {i : Nat}

theorem init {w : World} (h : w.log = []) : Tracked environment consumerKey ⟨w, fun _ => .idle⟩ fun _ => .fresh := by
  refine ⟨fun _ _ => rfl, fun i => ?_, fun i hi => ?_⟩
  · simp [h, Notifications.holders, Pc.holds]
  · rw [h] at hi
    cases hi

/-- Where a handler that has started is, whatever it does next. -/
theorem idle_upd (h : Tracked environment consumerKey c pc) {p : Proc Request Request.Reply Unit} {g : Pc} {j : Nat}
    (hj : upd c.calls i (.live p) j = .idle) : upd pc i g j = .fresh := by
  rcases upd_eq_iff.mp hj with ⟨_, hidle⟩ | ⟨hne, hidle⟩
  · cases hidle
  · rw [upd_ne _ _ hne]
    exact h.idle j hidle

theorem start (h : Tracked environment consumerKey c pc) (hi : c.calls i = .idle) {p : Proc Request Request.Reply Unit} :
    Tracked environment consumerKey ⟨c.shared, upd c.calls i (.live p)⟩ (upd pc i .fresh) := by
  refine ⟨fun j hj => h.idle_upd hj, ?_, h.row⟩
  rw [upd_eq_self (h.idle i hi)]
  exact h.holds

theorem crash (h : Tracked environment consumerKey c pc) :
    Tracked environment consumerKey ⟨c.shared, upd c.calls i .crashed⟩ pc := by
  refine ⟨fun j hj => ?_, h.holds, h.row⟩
  rcases upd_eq_iff.mp hj with ⟨_, hidle⟩ | ⟨_, hidle⟩
  · cases hidle
  · exact h.idle j hidle

theorem perform (h : Tracked environment consumerKey c pc) {w' : World} {request : Request} {g' : Pc}
    (hm : Move environment consumerKey i c.shared request (pc i) g' w') {p : Proc Request Request.Reply Unit} :
    Tracked environment consumerKey ⟨w', upd c.calls i (.live p)⟩ (upd pc i g') := by
  have kept : ∀ j ∈ Notifications.holders c.shared.log, ∃ d,
      w'.deliveries.find? (isFor environment consumerKey) = some d := fun j hj => (h.row j hj).elim fun _ hd => hm.row hd
  refine ⟨fun j hj => h.idle_upd hj, fun j => ?_, fun j hj => ?_⟩
  · have hj := h.holds j
    show j ∈ Notifications.holders w'.log ↔ _
    by_cases e : j = i
    · subst e
      rw [upd_same]
      obtain ⟨hg, hg', hl⟩ | ⟨hg, hg', hl⟩ | ⟨hg, hl⟩ := hm.holders
      · simp [hl, hg']
      · simp [hl, hg']
      · rw [hl, hj, hg]
    · rw [upd_ne _ _ e, ← hj]
      obtain ⟨hg, hg', hl⟩ | ⟨hg, hg', hl⟩ | ⟨hg, hl⟩ := hm.holders
      · simp [hl, e]
      · simp [hl, e]
      · rw [hl]
  · have hj : j ∈ Notifications.holders w'.log := hj
    obtain ⟨hg, hg', hl⟩ | ⟨hg, hg', hl⟩ | ⟨hg, hl⟩ := hm.holders
    · exact hm.gives_row hg hg'
    · rw [hl] at hj
      exact kept j (List.mem_filter.mp hj).1
    · rw [hl] at hj
      exact kept j hj

end Tracked

/-! ## The live holders -/

variable {c : State} {i : Nat}

theorem mem_liveHolders : i ∈ liveHolders c ↔ i ∈ holders c.shared.log ∧ (c.calls i).isLive = true := List.mem_filter

/-- A live handler stays live with its next effect. -/
theorem liveHolders_perform {w' : World} {p : Proc Request Request.Reply Unit} (hi : (c.calls i).isLive = true) :
    liveHolders ⟨w', upd c.calls i (.live p)⟩ = (holders w'.log).filter fun j => (c.calls j).isLive := by
  refine List.filter_congr fun j _ => ?_
  by_cases e : j = i
  · subst e
    rw [hi]
    simp [Slot.isLive]
  · exact congrArg Slot.isLive (upd_ne _ _ e)

/-- What an effect does to the live holders. -/
theorem Move.liveHolders {w' : World} {request : Request} {g g' : Pc}
    (h : Move environment consumerKey i c.shared request g g' w') {p : Proc Request Request.Reply Unit}
    (hi : (c.calls i).isLive = true) :
    (g.holds = false ∧ g'.holds = true ∧ liveHolders ⟨w', upd c.calls i (.live p)⟩ = i :: liveHolders c) ∨
    (g.holds = true ∧ g'.holds = false ∧
      liveHolders ⟨w', upd c.calls i (.live p)⟩ = (liveHolders c).filter (· != i)) ∨
    (g'.holds = g.holds ∧ liveHolders ⟨w', upd c.calls i (.live p)⟩ = liveHolders c) := by
  rw [liveHolders_perform hi]
  obtain ⟨hg, hg', hl⟩ | ⟨hg, hg', hl⟩ | ⟨hg, hl⟩ := h.holders
  · exact .inl ⟨hg, hg', by rw [hl, List.filter_cons, if_pos hi]; rfl⟩
  · refine .inr (.inl ⟨hg, hg', ?_⟩)
    rw [hl, List.filter_filter, Notifications.liveHolders, List.filter_filter]
    simp only [Bool.and_comm]
  · exact .inr (.inr ⟨hg, by rw [hl]; rfl⟩)

/-- A handler that starts or crashes gives no one the claim. -/
theorem liveHolders_start {pc : Nat → Pc} (h : Tracked environment consumerKey c pc) (hi : c.calls i = .idle)
    {p : Proc Request Request.Reply Unit} : liveHolders ⟨c.shared, upd c.calls i (.live p)⟩ = liveHolders c := by
  refine List.filter_congr fun j hj => congrArg Slot.isLive (upd_ne _ _ fun e => ?_)
  have := (h.holds j).mp hj
  rw [e, h.idle i hi] at this
  cases this

theorem liveHolders_crash : liveHolders ⟨c.shared, upd c.calls i .crashed⟩ = (liveHolders c).filter (· != i) := by
  rw [liveHolders, liveHolders, List.filter_filter]
  refine List.filter_congr fun j _ => ?_
  by_cases e : j = i
  · subst e
    simp [Slot.isLive]
  · have hj : upd c.calls i .crashed j = c.calls j := upd_ne _ _ e
    simp [hj, e]

end

end WorkforceRisk.Notifications
