/-
  WorkforceRisk.Notifications.Exclusive — one handler at a time for a delivery.

  A claim that finds a row `pending` or `retrying` answers True and writes nothing, so
  that a second handler claims it too while the first is at work (`overlapping_retries`).
  A mark names its row by the consumer key alone, and changes other environments' rows
  of that key with it.

  Proved: in every run in which neither happens (`Unshared`) at most one live handler
  holds the claim, no email is sent after a mark `sent`, and other rows stay as they are
  (`exclusive_delivery`).
-/

import WorkforceRisk.Notifications.Claims

namespace WorkforceRisk.Notifications

open Lib Persistence DatabaseDeliveryStore

def isFind : Request → Bool
  | .find .. => true
  | _ => false

def isMark : Request → Bool
  | .mark .. => true
  | _ => false

/-- The delivery's row is one that a claim takes as it is. -/
def claimable (environment : Environment) (consumerKey : String) (deliveries : Deliveries) : Bool :=
  (deliveries.find? (isFor environment consumerKey)).any fun d => isClaimable d.state

/-- The rows of other messages. -/
def others (environment : Environment) (consumerKey : String) (deliveries : Deliveries) : List NotificationDelivery :=
  deliveries.rows.filter fun d => !isFor environment consumerKey d

/-- A handler finds the delivery claimable only while no other holds its claim, and marks
    it only while no other environment has a row of the key. -/
def Unshared [PyRepr] (environment : Environment) (consumerKey : String) (c : State) :
    (deliverySystem environment consumerKey).Action → Prop
  | .perform i _ =>
    (c.asks i isFind = true → claimable environment consumerKey c.shared.deliveries = true → liveHolders c = []) ∧
    (c.asks i isMark = true →
      ∀ d ∈ c.shared.deliveries.rows, d.consumerKey = consumerKey → d.environment = environment)
  | _ => True

instance [PyRepr] (environment : Environment) (consumerKey : String) (c : State) :
    ∀ a, Decidable (Unshared environment consumerKey c a)
  | .perform .. => inferInstanceAs (Decidable (_ ∧ _))
  | .start .. => isTrue trivial
  | .crash _ => isTrue trivial
  | .other _ => isTrue trivial

/-! ## The invariant -/

structure Exclusive (environment : Environment) (consumerKey : String) (c : State) : Prop where
  single : (liveHolders c).length ≤ 1
  sent : (∃ m ∈ c.shared.log, m.marksSent = true) → liveHolders c = [] ∧
    ∃ d, c.shared.deliveries.find? (isFor environment consumerKey) = some d ∧ d.state = .sent
  emails : ∀ e older, e :: older <:+ c.shared.log → e.sends = true → ∀ m ∈ older, m.marksSent = false
  others : ∀ e ∈ c.shared.log, others environment consumerKey e.after = others environment consumerKey e.before

section
variable {environment : Environment} {consumerKey : String} {c : State} {i : Nat} {w w' : World} {request : Request}
  {g g' : Pc}

/-- A mark where only its own environment has a row of the key. -/
theorem others_mark {deliveries : Deliveries} {state : DeliveryState} {error : Option String}
    (h : ∀ d ∈ deliveries.rows, d.consumerKey = consumerKey → d.environment = environment) :
    others environment consumerKey (deliveries.mark consumerKey state error) =
      others environment consumerKey deliveries := by
  have same : (fun d => !isFor environment consumerKey d) ∘
      Table.change (·.consumerKey == consumerKey) (NotificationDelivery.marked state error) =
        fun d => !isFor environment consumerKey d :=
    funext (Table.change_keeps (fun d => !isFor environment consumerKey d) fun _ => rfl)
  show (deliveries.rows.map _).filter _ = _
  rw [List.filter_map, same]
  refine (List.map_congr_left fun d hd => ?_).trans (List.map_id _)
  obtain ⟨hd, hother⟩ := List.mem_filter.mp hd
  refine Table.change_neg (Bool.eq_false_iff.mpr fun hkey => ?_)
  have hkey : d.consumerKey = consumerKey := by simpa using hkey
  rw [isFor_iff.mpr ⟨h d hd hkey, hkey⟩] at hother
  cases hother

/-- An effect is logged; only a holder's sends, and other messages' rows stay as they are. -/
theorem Move.logged (h : Move environment consumerKey i w request g g' w')
    (hm : isMark request = true → ∀ d ∈ w.deliveries.rows, d.consumerKey = consumerKey → d.environment = environment) :
    ∃ e, w'.log = e :: w.log ∧ (e.sends = true → g.holds = true) ∧
      others environment consumerKey e.after = others environment consumerKey e.before := by
  cases h with
  | inserted hnone hrows =>
    refine ⟨_, rfl, fun hs => absurd hs Bool.false_ne_true, ?_⟩
    rw [others, hrows, List.filter_append, List.filter_cons_of_neg (by simp [isFor, newDelivery])]
    exact List.append_nil _
  | sent error => exact ⟨_, rfl, fun _ => rfl, others_mark (hm rfl)⟩
  | retrying error => exact ⟨_, rfl, fun hs => absurd hs Bool.false_ne_true, others_mark (hm rfl)⟩
  | emailed => exact ⟨_, rfl, fun _ => rfl, rfl⟩
  | refused => exact ⟨_, rfl, fun _ => rfl, rfl⟩
  | _ => exact ⟨_, rfl, fun hs => absurd hs Bool.false_ne_true, rfl⟩

theorem init_exclusive {deliveries : Deliveries} :
    Exclusive environment consumerKey ⟨⟨deliveries, []⟩, fun _ => .idle⟩ := by
  refine ⟨Nat.zero_le 1, fun hm => ?_, fun e older hs => ?_, fun _ he => (nomatch he)⟩
  · obtain ⟨_, hm, _⟩ := hm
    cases hm
  · cases List.suffix_nil.mp hs

/-- What does not touch the log and gives no one the claim. -/
theorem Exclusive.of_live {calls : Nat → Slot Request Request.Reply} (h : Exclusive environment consumerKey c)
    (hl : (liveHolders ⟨c.shared, calls⟩).Sublist (liveHolders c)) :
    Exclusive environment consumerKey ⟨c.shared, calls⟩ := by
  refine ⟨Nat.le_trans hl.length_le h.single, fun hm => ?_, h.emails, h.others⟩
  obtain ⟨hnil, hd⟩ := h.sent hm
  rw [hnil] at hl
  exact ⟨List.sublist_nil.mp hl, hd⟩

theorem start_exclusive {pc : Nat → Pc} (ht : Tracked environment consumerKey c pc)
    (h : Exclusive environment consumerKey c) (hi : c.calls i = .idle) {p : Proc Request Request.Reply Unit} :
    Exclusive environment consumerKey ⟨c.shared, upd c.calls i (.live p)⟩ :=
  h.of_live (by simp [liveHolders_start ht hi])

theorem crash_exclusive (h : Exclusive environment consumerKey c) :
    Exclusive environment consumerKey ⟨c.shared, upd c.calls i .crashed⟩ := by
  refine h.of_live ?_
  rw [liveHolders_crash]
  exact List.filter_sublist

/-- A live handler that holds the claim is the only one, and none has marked `sent`. -/
theorem Exclusive.only {pc : Nat → Pc} (ht : Tracked environment consumerKey c pc)
    (h : Exclusive environment consumerKey c) (hlive : (c.calls i).isLive = true) (hg : (pc i).holds = true) :
    liveHolders c = [i] ∧ ∀ m ∈ c.shared.log, m.marksSent = false := by
  have hmem : i ∈ liveHolders c := mem_liveHolders.mpr ⟨(ht.holds i).mpr hg, hlive⟩
  constructor
  · have hone := h.single
    cases hl : liveHolders c with
    | nil =>
      rw [hl] at hmem
      cases hmem
    | cons a l =>
      rw [hl] at hmem hone
      obtain rfl := List.eq_nil_of_length_eq_zero (Nat.le_zero.mp (Nat.le_of_succ_le_succ hone))
      rw [List.mem_singleton.mp hmem]
  · intro m hm
    refine Bool.eq_false_iff.mpr fun hs => ?_
    rw [(h.sent ⟨m, hm, hs⟩).1] at hmem
    cases hmem

/-- The claim is given only while no live handler holds it, and none has marked `sent`. -/
theorem Exclusive.free {pc : Nat → Pc} (ht : Tracked environment consumerKey c pc)
    (h : Exclusive environment consumerKey c)
    (hok : isFind request = true → claimable environment consumerKey c.shared.deliveries = true → liveHolders c = [])
    (hm : Move environment consumerKey i c.shared request g g' w') (hg : g.holds = false) (hg' : g'.holds = true) :
    liveHolders c = [] ∧ ∀ m ∈ c.shared.log, m.marksSent = false := by
  cases hm with
  | claimed hf hc =>
    refine ⟨hok rfl (by rw [claimable, hf]; exact hc), fun m hm => Bool.eq_false_iff.mpr fun hs => ?_⟩
    obtain ⟨_, d, hd, hsent⟩ := h.sent ⟨m, hm, hs⟩
    cases hf.symm.trans hd
    rw [hsent] at hc
    cases hc
  | inserted hnone hrows =>
    constructor
    · refine List.eq_nil_iff_forall_not_mem.mpr fun j hj => ?_
      obtain ⟨d, hd⟩ := ht.row j (mem_liveHolders.mp hj).1
      cases hnone.symm.trans hd
    · intro m hm
      refine Bool.eq_false_iff.mpr fun hs => ?_
      obtain ⟨_, d, hd, _⟩ := h.sent ⟨m, hm, hs⟩
      cases hnone.symm.trans hd
  | emailed => cases hg
  | refused => cases hg
  | _ => cases hg'

/-- An effect that does not mark `sent` leaves that to an earlier one. -/
theorem marked_earlier {e : Entry} {log : List Entry} (he : e.marksSent = false)
    (hs : ∃ m ∈ e :: log, m.marksSent = true) : ∃ m ∈ log, m.marksSent = true := by
  obtain ⟨m, hm, hs⟩ := hs
  rcases List.mem_cons.mp hm with rfl | hm
  · rw [he] at hs
    cases hs
  · exact ⟨m, hm, hs⟩

/-- One that gives no claim, nor changes a row, leaves the live holders and the row. -/
theorem Exclusive.sent_quiet (h : Exclusive environment consumerKey c) (hlive : (c.calls i).isLive = true)
    (hm : Move environment consumerKey i c.shared request g g' w') {p : Proc Request Request.Reply Unit} {e : Entry}
    (hlog : w'.log = e :: c.shared.log) (he : e.marksSent = false) (hholds : g'.holds = g.holds)
    (hd : w'.deliveries = c.shared.deliveries) (hs : ∃ m ∈ w'.log, m.marksSent = true) :
    liveHolders ⟨w', upd c.calls i (.live p)⟩ = [] ∧
      ∃ d, w'.deliveries.find? (isFor environment consumerKey) = some d ∧ d.state = .sent := by
  obtain ⟨hg, hg', _⟩ | ⟨hg, hg', _⟩ | ⟨_, hl⟩ := hm.liveHolders (p := p) hlive
  · rw [hg, hg'] at hholds
    cases hholds
  · rw [hg, hg'] at hholds
    cases hholds
  · rw [hl, hd]
    exact h.sent (marked_earlier he (hlog ▸ hs))

theorem perform_sent {pc : Nat → Pc} (ht : Tracked environment consumerKey c pc)
    (h : Exclusive environment consumerKey c) (hlive : (c.calls i).isLive = true) (hpc : pc i = g)
    (hok : isFind request = true → claimable environment consumerKey c.shared.deliveries = true → liveHolders c = [])
    (hm : Move environment consumerKey i c.shared request g g' w') {p : Proc Request Request.Reply Unit}
    (hs : ∃ m ∈ w'.log, m.marksSent = true) :
    liveHolders ⟨w', upd c.calls i (.live p)⟩ = [] ∧
      ∃ d, w'.deliveries.find? (isFor environment consumerKey) = some d ∧ d.state = .sent := by
  have hl := hm.liveHolders (p := p) hlive
  have hfree := h.free ht hok hm
  have quiet {e : Entry} := h.sent_quiet hlive hm (p := p) (e := e)
  cases hm with
  | sent error =>
    obtain ⟨hone, _⟩ := h.only ht hlive (hpc ▸ rfl)
    obtain ⟨d, hd⟩ := ht.row i ((ht.holds i).mpr (hpc ▸ rfl))
    refine ⟨?_, _, find_mark hd, rfl⟩
    obtain ⟨hg, _⟩ | ⟨_, _, hl⟩ | ⟨hg, _⟩ := hl
    · cases hg
    · rw [hl, hone]
      simp
    · cases hg
  | retrying error hg =>
    obtain ⟨m, hm, hs⟩ := marked_earlier rfl hs
    rw [(h.only ht hlive (by rw [hpc]; rcases hg with rfl | rfl <;> rfl)).2 m hm] at hs
    cases hs
  | claimed hf hc =>
    obtain ⟨m, hm, hs⟩ := marked_earlier rfl hs
    rw [(hfree rfl rfl).2 m hm] at hs
    cases hs
  | inserted hnone hrows =>
    obtain ⟨m, hm, hs⟩ := marked_earlier rfl hs
    rw [(hfree rfl rfl).2 m hm] at hs
    cases hs
  | responded result hg => exact quiet rfl rfl hg.symm rfl hs
  | _ => exact quiet rfl rfl rfl rfl hs

theorem perform_exclusive {pc : Nat → Pc} (ht : Tracked environment consumerKey c pc)
    (h : Exclusive environment consumerKey c) (hlive : (c.calls i).isLive = true) (hpc : pc i = g)
    (hfind : isFind request = true → claimable environment consumerKey c.shared.deliveries = true → liveHolders c = [])
    (hmark : isMark request = true →
      ∀ d ∈ c.shared.deliveries.rows, d.consumerKey = consumerKey → d.environment = environment)
    (hm : Move environment consumerKey i c.shared request g g' w') {p : Proc Request Request.Reply Unit} :
    Exclusive environment consumerKey ⟨w', upd c.calls i (.live p)⟩ := by
  obtain ⟨entry, hlog, hsends, hothers⟩ := hm.logged hmark
  refine ⟨?_, perform_sent ht h hlive hpc hfind hm, fun e older hs he => ?_, fun e he => ?_⟩
  · obtain ⟨hg, hg', hl⟩ | ⟨_, _, hl⟩ | ⟨_, hl⟩ := hm.liveHolders (p := p) hlive
    · rw [hl, (h.free ht hfind hm hg hg').1]
      exact Nat.le_refl 1
    · rw [hl]
      exact Nat.le_trans (List.length_filter_le _ _) h.single
    · rw [hl]
      exact h.single
  · rcases List.suffix_cons_iff.mp (hlog ▸ hs) with heq | hs
    · cases heq
      exact (h.only ht hlive (hpc ▸ hsends he)).2
    · exact h.emails e older hs he
  · rcases List.mem_cons.mp (hlog ▸ he) with rfl | he
    · exact hothers
    · exact h.others e he

theorem system_exclusive [PyRepr] {deliveries : Deliveries}
    (h : (deliverySystem environment consumerKey).Path (Unshared environment consumerKey) ⟨deliveries, []⟩ c) :
    Exclusive environment consumerKey c := by
  obtain ⟨pc, _, _, hx⟩ := Machine.Path.invariant
    (I := fun c pc => Tracked environment consumerKey c pc ∧ Exclusive environment consumerKey c) (fun _ => .fresh)
    delivery_sat (fun _ => .fresh)
    ⟨.init rfl, init_exclusive⟩
    (fun c pc i x hI hi _ => ⟨hI.1.start hi, start_exclusive hI.1 hI.2 hi⟩)
    (fun c pc i e k ch r w' hI hc ha hok hh => by
      have hm := perform_move ha (Option.some.inj hh)
      obtain ⟨hfind, hmark⟩ := hok
      rw [Config.asks_of_call hc] at hfind hmark
      exact ⟨hI.1.perform hm, perform_exclusive hI.1 hI.2 (by rw [hc]; rfl) rfl hfind hmark hm⟩)
    (fun c pc i hI _ => ⟨hI.1.crash, crash_exclusive hI.2⟩)
    (fun c pc x w' _ _ _ => Empty.elim x) h
  exact hx

/-- In every run whose handlers never find the delivery claimable while another holds it,
    nor mark it while another environment has a row of the key: at most one live handler
    is between a successful claim and its mark, no email is sent once one has marked
    `sent`, and no effect changes a row of another environment or key. -/
theorem exclusive_delivery [PyRepr] {deliveries : Deliveries}
    (h : (deliverySystem environment consumerKey).Path (Unshared environment consumerKey) ⟨deliveries, []⟩ c) :
    (liveHolders c).length ≤ 1 ∧
    (∀ e older, e :: older <:+ c.shared.log → e.sends = true → ∀ m ∈ older, m.marksSent = false) ∧
    ∀ e ∈ c.shared.log, others environment consumerKey e.after = others environment consumerKey e.before :=
  have hx := system_exclusive h
  ⟨hx.single, hx.emails, hx.others⟩

end

/-! ## Retries -/

section
variable [PyRepr]

/-- The first delivery's email is refused, and it returns False. -/
def failedDelivery : List (deliverySystem .dev "alert:0:v1").Action :=
  [.start 0 sampleDelivery, .perform 0 sampleChoice, .perform 0 sampleChoice, .perform 0 refusing,
    .perform 0 sampleChoice, .perform 0 sampleChoice]

/-- The message comes again and its email is sent; a third delivery returns at once. -/
def retriedDelivery : List (deliverySystem .dev "alert:0:v1").Action :=
  failedDelivery ++ [.start 1 sampleDelivery, .perform 1 sampleChoice, .perform 1 sampleChoice,
    .perform 1 sampleChoice, .start 2 sampleDelivery, .perform 2 sampleChoice]

/-- The message comes again twice, and the second handler claims it while the first is at
    work. -/
def overlappingRetries : List (deliverySystem .dev "alert:0:v1").Action :=
  failedDelivery ++ [.start 1 sampleDelivery, .start 2 sampleDelivery, .perform 1 sampleChoice,
    .perform 2 sampleChoice]

end

theorem exclusive_delivery_retried : letI : PyRepr := ⟨Json.text⟩
    ∃ c : State, c.shared.log.countP Entry.sends = 2 ∧ (liveHolders c).length ≤ 1 ∧
      (∀ e older, e :: older <:+ c.shared.log → e.sends = true → ∀ m ∈ older, m.marksSent = false) ∧
      ∀ e ∈ c.shared.log, others .dev "alert:0:v1" e.after = others .dev "alert:0:v1" e.before := by
  let _ : PyRepr := ⟨Json.text⟩
  have run : ((deliverySystem .dev "alert:0:v1").walk (Unshared .dev "alert:0:v1")
      ⟨⟨.empty, []⟩, fun _ => .idle⟩ retriedDelivery).map (·.shared.log.countP Entry.sends) = some 2 := by decide
  obtain ⟨c, hc, hs⟩ := Option.map_eq_some_iff.mp run
  exact ⟨c, hs, exclusive_delivery (Machine.walk_path .init hc)⟩

theorem overlapping_retries : letI : PyRepr := ⟨Json.text⟩
    ∃ c, (deliverySystem .dev "alert:0:v1").Path (fun _ _ => True) ⟨.empty, []⟩ c ∧ ¬ (liveHolders c).length ≤ 1 := by
  let _ : PyRepr := ⟨Json.text⟩
  have run : ((deliverySystem .dev "alert:0:v1").walk (fun _ _ => True)
      ⟨⟨.empty, []⟩, fun _ => .idle⟩ overlappingRetries).map (fun c => (liveHolders c).length) = some 2 := by decide
  obtain ⟨c, hc, hs⟩ := Option.map_eq_some_iff.mp run
  exact ⟨c, Machine.walk_path .init hc, by omega⟩

end WorkforceRisk.Notifications
