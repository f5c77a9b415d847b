/-
  WorkforceRisk.Notifications.Acknowledged — what a handler's True stands for.

  True tells the queue to forget the message. A handler returns it after its own email,
  or at once when the row says that another has the delivery: `sent`, or `sending`. The
  latter is written with the insert, before the email, so it says nothing once its writer
  has crashed: the message is then forgotten with no email (`forgotten_delivery`).

  Proved: in every run in which no handler crashes between its insert and its email
  (`Uninterrupted`), whenever a handler returns True an email has been sent or another
  live handler holds the claim (`acknowledged_kept`).
-/

import WorkforceRisk.Notifications.Claims

namespace WorkforceRisk.Notifications

open Lib Persistence DatabaseDeliveryStore

/-- The delivery's row is inserted. -/
def Entry.inserts : Entry → Bool
  | ⟨_, .insert .., .ok _, _, _⟩ => true
  | _ => false

/-- The handlers that have inserted the row, and neither had their email taken nor marked
    since. -/
def writers : List Entry → List Nat
  | [] => []
  | e :: log => if e.inserts then e.call :: writers log
    else if e.emails || e.marks then (writers log).filter (· != e.call) else writers log

/-- The handler has returned that, and the queue has not heard of it yet. -/
def returns (c : State) (i : Nat) (result : Bool) : Bool :=
  c.asks i fun
    | .respond (.ok r) => r == result
    | _ => false

def Uninterrupted [PyRepr] (environment : Environment) (consumerKey : String) (c : State) :
    (deliverySystem environment consumerKey).Action → Prop
  | .crash i => i ∉ writers c.shared.log
  | _ => True

instance [PyRepr] (environment : Environment) (consumerKey : String) (c : State) :
    ∀ a, Decidable (Uninterrupted environment consumerKey c a)
  | .crash i => inferInstanceAs (Decidable (i ∉ writers c.shared.log))
  | .start .. => isTrue trivial
  | .perform .. => isTrue trivial
  | .other _ => isTrue trivial

/-- While no email was sent, a row that is not claimable has a live writer. -/
structure Unlost (environment : Environment) (consumerKey : String) (c : State) (pc : Nat → Pc) : Prop where
  writer : ∀ j ∈ writers c.shared.log, (pc j).holds = true
  emailed : ∀ j, pc j = .emailed → ∃ e ∈ c.shared.log, e.emails = true
  row : (∀ e ∈ c.shared.log, e.emails = false) →
    ∀ d, c.shared.deliveries.find? (isFor environment consumerKey) = some d →
      isClaimable d.state = true ∨ (d.state = .sending ∧ ∃ j ∈ liveHolders c, j ∈ writers c.shared.log)

section
variable {environment : Environment} {consumerKey : String} {c : State} {pc : Nat → Pc} {i : Nat} {w' : World}
  {request : Request} {g g' : Pc}

theorem init_unlost {deliveries : Deliveries}
    (h : ∀ d, deliveries.find? (isFor environment consumerKey) = some d → isClaimable d.state = true) :
    Unlost environment consumerKey ⟨⟨deliveries, []⟩, fun _ => .idle⟩ fun _ => .fresh :=
  ⟨fun _ hj => (nomatch hj), fun _ hj => (nomatch hj), fun _ d hd => .inl (h d hd)⟩

theorem start_unlost (ht : Tracked environment consumerKey c pc) (h : Unlost environment consumerKey c pc)
    (hi : c.calls i = .idle) {p : Proc Request Request.Reply Unit} :
    Unlost environment consumerKey ⟨c.shared, upd c.calls i (.live p)⟩ (upd pc i .fresh) := by
  rw [upd_eq_self (ht.idle i hi)]
  refine ⟨h.writer, h.emailed, ?_⟩
  rw [liveHolders_start ht hi]
  exact h.row

theorem crash_unlost (h : Unlost environment consumerKey c pc) (hok : i ∉ writers c.shared.log) :
    Unlost environment consumerKey ⟨c.shared, upd c.calls i .crashed⟩ pc := by
  refine ⟨h.writer, h.emailed, fun hno d hd => (h.row hno d hd).imp_right fun hs => ⟨hs.1, ?_⟩⟩
  obtain ⟨j, hj, hw⟩ := hs.2
  rw [liveHolders_crash]
  exact ⟨j, List.mem_filter.mpr ⟨hj, bne_iff_ne.mpr fun e => hok (by rwa [← e])⟩, hw⟩

/-- An effect that inserts, sends and marks nothing, and ends no claim. -/
theorem Unlost.quiet (h : Unlost environment consumerKey c pc) {calls : Nat → Slot Request Request.Reply} {e : Entry}
    (hlog : w'.log = e :: c.shared.log) (hins : e.inserts = false) (hmails : e.emails = false) (hmarks : e.marks = false)
    (hd : w'.deliveries = c.shared.deliveries) (hl : ∀ j ∈ liveHolders c, j ∈ liveHolders ⟨w', calls⟩)
    (hg : (pc i).holds = true → g'.holds = true) (hg' : g' ≠ .emailed) :
    Unlost environment consumerKey ⟨w', calls⟩ (upd pc i g') := by
  have hw : writers w'.log = writers c.shared.log := by
    rw [hlog, writers, hins, hmails, hmarks]
    rfl
  refine ⟨fun j hj => ?_, fun j hj => ?_, fun hno d hf => ?_⟩
  · have hold := h.writer j (hw ▸ hj)
    by_cases e : j = i
    · subst e
      rw [upd_same]
      exact hg hold
    · rwa [upd_ne _ _ e]
  · rcases upd_eq_iff.mp hj with ⟨_, hj⟩ | ⟨_, hj⟩
    · exact absurd hj hg'
    · exact (h.emailed j hj).imp fun m hm => ⟨hlog ▸ List.mem_cons_of_mem _ hm.1, hm.2⟩
  · refine (h.row (fun m hm => hno m (hlog ▸ List.mem_cons_of_mem _ hm)) d (hd ▸ hf)).imp_right fun hs => ⟨hs.1, ?_⟩
    exact hs.2.imp fun j hj => ⟨hl j hj.1, hw ▸ hj.2⟩

/-- A handler that is no longer a writer leaves the others as they are. -/
theorem Unlost.unwritten (h : Unlost environment consumerKey c pc) {j : Nat}
    (hj : j ∈ (writers c.shared.log).filter (· != i)) : (upd pc i g' j).holds = true := by
  obtain ⟨hj, hne⟩ := List.mem_filter.mp hj
  rw [upd_ne _ _ (bne_iff_ne.mp hne)]
  exact h.writer j hj

/-- Who held the claim holds it still after an effect that ends none. -/
theorem Move.still_live (hm : Move environment consumerKey i c.shared request g g' w')
    (hlive : (c.calls i).isLive = true) {p : Proc Request Request.Reply Unit} (hg : g.holds = true → g'.holds = true) :
    ∀ j ∈ Notifications.liveHolders c, j ∈ Notifications.liveHolders ⟨w', upd c.calls i (.live p)⟩ := by
  intro j hj
  obtain ⟨_, _, hl⟩ | ⟨hg₁, hg₂, _⟩ | ⟨_, hl⟩ := hm.liveHolders (p := p) hlive
  · rw [hl]
    exact List.mem_cons_of_mem _ hj
  · rw [hg hg₁] at hg₂
    cases hg₂
  · rwa [hl]

/-- A handler whose email was taken has left that in the log. -/
theorem Unlost.emailed_upd (h : Unlost environment consumerKey c pc) {j : Nat} (m : Entry)
    (hj : upd pc i g' j = .emailed) (hg : g' ≠ .emailed) : ∃ e ∈ m :: c.shared.log, e.emails = true := by
  rcases upd_eq_iff.mp hj with ⟨_, hj⟩ | ⟨_, hj⟩
  · exact absurd hj hg
  · exact (h.emailed j hj).imp fun e he => ⟨List.mem_cons_of_mem _ he.1, he.2⟩

/-- The inserted row has its writer. -/
theorem insert_unlost (h : Unlost environment consumerKey c pc) (hlive : (c.calls i).isLive = true)
    {deliveries : Deliveries} {id : Uuid} {now : DateTime}
    (hnone : c.shared.deliveries.find? (isFor environment consumerKey) = none)
    (hrows : deliveries.rows = c.shared.deliveries.rows ++ [newDelivery id now consumerKey environment])
    {p : Proc Request Request.Reply Unit} :
    Unlost environment consumerKey
      ⟨c.shared.answered i (.insert consumerKey environment) (.ok ()) deliveries, upd c.calls i (.live p)⟩
      (upd pc i .claimed) := by
  refine ⟨fun j hj => ?_, fun j hj => h.emailed_upd _ hj (fun h => nomatch h), fun _ d hd => .inr ?_⟩
  · refine upd_of (P := fun g : Pc => g.holds = true) (fun _ => rfl) fun hne => ?_
    rcases List.mem_cons.mp hj with hi | hj
    · exact absurd hi hne
    · exact h.writer j hj
  · have hnew : newDelivery id now consumerKey environment ∈ deliveries.rows := by
      rw [hrows]
      exact List.mem_append_right _ (List.mem_singleton_self _)
    cases (find_of_mem hnew (isFor_iff.mpr ⟨rfl, rfl⟩)).symm.trans hd
    refine ⟨rfl, i, ?_, List.mem_cons_self⟩
    obtain ⟨_, _, hl⟩ | ⟨hg, _⟩ | ⟨hg, _⟩ := (Move.inserted hnone hrows).liveHolders (p := p) hlive
    · rw [hl]
      exact List.mem_cons_self
    · cases hg
    · cases hg

theorem perform_unlost (ht : Tracked environment consumerKey c pc) (h : Unlost environment consumerKey c pc)
    (hlive : (c.calls i).isLive = true) (hpc : pc i = g)
    (hm : Move environment consumerKey i c.shared request g g' w') {p : Proc Request Request.Reply Unit} :
    Unlost environment consumerKey ⟨w', upd c.calls i (.live p)⟩ (upd pc i g') := by
  have still := hm.still_live hlive (p := p)
  cases hm with
  | inserted hnone hrows => exact insert_unlost h hlive hnone hrows
  | emailed source email messageId =>
    exact ⟨fun j hj => h.unwritten hj, fun _ _ => ⟨_, List.mem_cons_self, rfl⟩,
      fun hno => (nomatch hno _ List.mem_cons_self)⟩
  | sent error =>
    refine ⟨fun j hj => h.unwritten hj, fun j hj => h.emailed_upd _ hj (fun h => nomatch h), fun hno => ?_⟩
    obtain ⟨m, hm, hs⟩ := h.emailed i hpc
    rw [hno m (List.mem_cons_of_mem _ hm)] at hs
    cases hs
  | retrying error hg =>
    refine ⟨fun j hj => h.unwritten hj, fun j hj => h.emailed_upd _ hj (fun h => nomatch h), fun _ d hd => .inl ?_⟩
    obtain ⟨d₀, hd₀⟩ := ht.row i ((ht.holds i).mpr (by rw [hpc]; rcases hg with rfl | rfl <;> rfl))
    cases (find_mark hd₀).symm.trans hd
    rfl
  | responded result hg =>
    exact h.quiet rfl rfl rfl rfl rfl (still fun hh => absurd hh (by simp [hg])) (by simp [hpc, hg]) (fun h => nomatch h)
  | claimed => exact h.quiet rfl rfl rfl rfl rfl (still fun _ => rfl) (fun _ => rfl) (fun h => nomatch h)
  | refused => exact h.quiet rfl rfl rfl rfl rfl (still fun _ => rfl) (fun _ => rfl) (fun h => nomatch h)
  | _ => exact h.quiet rfl rfl rfl rfl rfl (still id) (by rw [hpc]; exact id) (fun h => nomatch h)

/-- A handler that returns True finds the delivery taken, or had its own email taken. -/
theorem Move.returned {w : World} (h : Move environment consumerKey i w request g (.returned (.ok true)) w') :
    g = .emailed ∨ (g = .fresh ∧ ∃ d, w.deliveries.find? (isFor environment consumerKey) = some d ∧
      isClaimable d.state = false) := by
  cases h with
  | taken hf hc => exact .inr ⟨rfl, _, hf, hc⟩
  | sent error => exact .inl rfl

theorem system_unlost [PyRepr] {deliveries : Deliveries}
    (hnew : ∀ d, deliveries.find? (isFor environment consumerKey) = some d → isClaimable d.state = true)
    (h : (deliverySystem environment consumerKey).Path (Uninterrupted environment consumerKey) ⟨deliveries, []⟩ c) :
    ∃ pc, Machine.Follows (protocol environment consumerKey) pc c ∧ Tracked environment consumerKey c pc ∧
      Unlost environment consumerKey c pc :=
  Machine.Path.invariant (I := fun c pc => Tracked environment consumerKey c pc ∧ Unlost environment consumerKey c pc)
    (fun _ => .fresh) delivery_sat (fun _ => .fresh)
    ⟨.init rfl, init_unlost hnew⟩
    (fun c pc i x hI hi _ => ⟨hI.1.start hi, start_unlost hI.1 hI.2 hi⟩)
    (fun c pc i e k ch r w' hI hc ha _ hh => by
      have hm := perform_move ha (Option.some.inj hh)
      exact ⟨hI.1.perform hm, perform_unlost hI.1 hI.2 (by rw [hc]; rfl) rfl hm⟩)
    (fun c pc i hI hok => ⟨hI.1.crash, crash_unlost hI.2 hok⟩)
    (fun c pc x w' _ _ _ => Empty.elim x) h

/-- What a live handler has returned is where it is in its protocol. -/
theorem returns_follows {result : Bool} (hf : Machine.Follows (protocol environment consumerKey) pc c)
    (hr : returns c i result = true) : pc i = .returned (.ok result) := by
  unfold returns Config.asks at hr
  split at hr
  · rename_i e k hc
    simp only at hr
    split at hr
    · rename_i r
      obtain rfl : r = result := by simpa using hr
      have ha : (protocol environment consumerKey).allows (pc i) (.respond (.ok r)) := (hf i _ hc).1
      cases hpc : pc i with
      | fresh =>
        rw [hpc] at ha
        obtain ⟨e, he⟩ := ha
        cases he
      | returned result' =>
        rw [hpc] at ha
        exact congrArg Pc.returned (Eq.symm ha)
      | _ =>
        rw [hpc] at ha
        exact False.elim ha
    · cases hr
  · cases hr

/-- Who finds the delivery taken, with no email sent yet, leaves another live holder. -/
theorem Unlost.taken (hu : Unlost environment consumerKey c pc) (hlive : (c.calls i).isLive = true)
    (hm : Move environment consumerKey i c.shared request .fresh (.returned (.ok true)) w') (hpc : pc i = .fresh)
    {d : NotificationDelivery} (hd : c.shared.deliveries.find? (isFor environment consumerKey) = some d)
    (htaken : isClaimable d.state = false) (hno : ∀ m ∈ c.shared.log, m.emails = false)
    {p : Proc Request Request.Reply Unit} : ∃ j ∈ liveHolders ⟨w', upd c.calls i (.live p)⟩, j ≠ i := by
  obtain hclaim | ⟨_, j, hj, hwriter⟩ := hu.row hno d hd
  · rw [htaken] at hclaim
    cases hclaim
  · refine ⟨j, hm.still_live hlive (fun hg => by cases hg) j hj, fun e => ?_⟩
    have hholds := hu.writer j hwriter
    rw [e, hpc] at hholds
    cases hholds

/-- In every run in which no handler crashes between its insert of the delivery and its
    email: whenever a handler's effect makes it return True, an email has been sent, or
    another live handler holds the claim. -/
theorem acknowledged_kept [PyRepr] {deliveries : Deliveries}
    (hnew : ∀ d, deliveries.find? (isFor environment consumerKey) = some d → isClaimable d.state = true)
    (h : (deliverySystem environment consumerKey).Path (Uninterrupted environment consumerKey) ⟨deliveries, []⟩ c)
    {ch : Choice} {c' : State} (hs : (deliverySystem environment consumerKey).step c (.perform i ch) = some c')
    (hr : returns c' i true = true) :
    (∃ e ∈ c'.shared.log, e.emails = true) ∨ ∃ j ∈ liveHolders c', j ≠ i := by
  obtain ⟨pc, hf, ht, hu⟩ := system_unlost hnew h
  obtain ⟨_, _, ha, _⟩ | ⟨i, ch, e, k, r, w', ha, hc, hh, rfl⟩ | ⟨_, ha, _⟩ | ⟨_, _, ha, _⟩ := Machine.step_cases hs
  · cases ha
  · cases ha
    obtain ⟨hallow, hsat⟩ := hf i _ hc
    have hm := perform_move hallow (Option.some.inj hh)
    obtain ⟨_, _, hw⟩ := perform_answered (Option.some.inj hh)
    have hlog : ∀ m ∈ c.shared.log, m ∈ w'.log := fun m hm => hw ▸ List.mem_cons_of_mem _ hm
    have hret := returns_follows (Machine.follows_upd hf fun p hp => by cases hp; exact hsat r) hr
    rw [upd_same] at hret
    rw [hret] at hm
    obtain hg | ⟨hg, d, hd, htaken⟩ := hm.returned
    · exact .inl ((hu.emailed i hg).imp fun m hm => ⟨hlog m hm.1, hm.2⟩)
    by_cases hno : ∀ m ∈ c.shared.log, m.emails = false
    · rw [hg] at hm
      exact .inr (hu.taken (by rw [hc]; rfl) hm hg hd htaken hno)
    · simp only [not_forall, Bool.not_eq_false] at hno
      obtain ⟨m, hm, hs⟩ := hno
      exact .inl ⟨m, hlog m hm, hs⟩
  · cases ha
  · cases ha

end

/-! ## Crashes -/

section
variable [PyRepr]

/-- A handler crashes before it has looked; the next is at work when a third returns. -/
def crashedDelivery : List (deliverySystem .dev "alert:0:v1").Action :=
  [.start 0 sampleDelivery, .crash 0, .start 1 sampleDelivery, .perform 1 sampleChoice, .perform 1 sampleChoice,
    .start 2 sampleDelivery]

/-- The first handler inserts the delivery and crashes; the message comes again. -/
def forgottenDelivery : List (deliverySystem .dev "alert:0:v1").Action :=
  [.start 0 sampleDelivery, .perform 0 sampleChoice, .perform 0 sampleChoice, .crash 0, .start 1 sampleDelivery]

end

theorem acknowledged_kept_crashed : letI : PyRepr := ⟨Json.text⟩
    ∃ c' : State, returns c' 2 true = true ∧
      ((∃ e ∈ c'.shared.log, e.emails = true) ∨ ∃ j ∈ liveHolders c', j ≠ 2) := by
  let _ : PyRepr := ⟨Json.text⟩
  have run : ((deliverySystem .dev "alert:0:v1").walk (Uninterrupted .dev "alert:0:v1")
      ⟨⟨.empty, []⟩, fun _ => .idle⟩ crashedDelivery).bind (fun c =>
        ((deliverySystem .dev "alert:0:v1").step c (.perform 2 sampleChoice)).map fun c' => returns c' 2 true) =
      some true := by decide
  obtain ⟨c, hc, run⟩ := Option.bind_eq_some_iff.mp run
  obtain ⟨c', hs, hr⟩ := Option.map_eq_some_iff.mp run
  exact ⟨c', hr, acknowledged_kept (fun d hd => by cases hd) (Machine.walk_path .init hc) hs hr⟩

/-- The second handler returns True, with no email sent and no handler left. -/
theorem forgotten_delivery : letI : PyRepr := ⟨Json.text⟩
    ∃ c c', (deliverySystem .dev "alert:0:v1").Path (fun _ _ => True) ⟨.empty, []⟩ c ∧
      (deliverySystem .dev "alert:0:v1").step c (.perform 1 sampleChoice) = some c' ∧ returns c' 1 true = true ∧
      ¬ ((∃ e ∈ c'.shared.log, e.emails = true) ∨ ∃ j ∈ liveHolders c', j ≠ 1) := by
  let _ : PyRepr := ⟨Json.text⟩
  have run : ((deliverySystem .dev "alert:0:v1").walk (fun _ _ => True)
      ⟨⟨.empty, []⟩, fun _ => .idle⟩ forgottenDelivery).bind (fun c =>
        ((deliverySystem .dev "alert:0:v1").step c (.perform 1 sampleChoice)).map fun c' =>
          (returns c' 1 true, c'.shared.log.countP Entry.emails, liveHolders c')) = some (true, 0, []) := by decide
  obtain ⟨c, hc, run⟩ := Option.bind_eq_some_iff.mp run
  obtain ⟨c', hs, hr⟩ := Option.map_eq_some_iff.mp run
  obtain ⟨hret, hno, hl⟩ : returns c' 1 true = true ∧ c'.shared.log.countP Entry.emails = 0 ∧ liveHolders c' = [] :=
    ⟨congrArg Prod.fst hr, congrArg (·.2.1) hr, congrArg (·.2.2) hr⟩
  refine ⟨c, c', Machine.walk_path .init hc, hs, hret, fun h => ?_⟩
  obtain ⟨e, he, hs⟩ | ⟨j, hj, _⟩ := h
  · exact absurd hs (List.countP_eq_zero.mp hno e he)
  · rw [hl] at hj
    cases hj

end WorkforceRisk.Notifications
