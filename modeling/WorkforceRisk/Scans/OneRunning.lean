/-
  WorkforceRisk.Scans.OneRunning — scans of one environment and scope side by side.

  The rule (docs/spec.md) is that a duplicate active scan of an environment and scope is
  rejected or returns the run that is there. A request looks for the run of its window
  only, and a claim looks at its own row only, so a second window's run is claimed while
  the first one's is running: `startsBeside` says when a claim does that, and
  `two_windows_running` is such a run of two posts.

  Proved (`one_running_iff`): as long as no claim starts a run beside another, each
  environment and scope has one running run at most, and the first claim that does breaks
  that. The two are runs of different keys (`startsBeside_keys`). What the rule asks of a
  request is enough too: when none inserts a run beside one that is active, each
  environment and scope has one active run at most (`one_active`).
-/

import WorkforceRisk.Scans.Moves

namespace WorkforceRisk.Scans

open Lib Persistence ScanService

def sameScope (a b : ScanRun) : Bool := a.environment == b.environment && a.scope == b.scope

/-- At most one run of an environment and scope is in such a state. -/
def Single (p : ScanState → Bool) (scans : Table ScanRun) : Prop :=
  ∀ a ∈ scans.rows, ∀ b ∈ scans.rows, sameScope a b = true → p a.state = true → p b.state = true → a = b

instance (p : ScanState → Bool) (scans : Table ScanRun) : Decidable (Single p scans) :=
  inferInstanceAs (Decidable (∀ a ∈ scans.rows, ∀ b ∈ scans.rows, _ → _ → _ → _))

def OneRunning (scans : Table ScanRun) : Prop := Single (· == .running) scans

instance (scans : Table ScanRun) : Decidable (OneRunning scans) := inferInstanceAs (Decidable (Single _ scans))

/-- The effect claims a queued run while one of its environment and scope is running. -/
def startsBeside (scans : Table ScanRun) : Effect → Bool
  | .transition id .queued .running _ => scans.rows.any fun r =>
    isAt id .queued r && scans.rows.any fun o => sameScope r o && o.state == .running
  | _ => false

def Alone [Sha256] (c : State) : scanSystem.Action → Prop
  | .perform i _ => c.asks i (startsBeside c.shared.scans) = false
  | _ => True

def ScanState.isActive : ScanState → Bool
  | .queued | .running => true
  | _ => false

/-- The effect inserts a run while one of its environment and scope is active. -/
def insertsBeside (scans : Table ScanRun) : Effect → Bool
  | .insert environment scope _ _ =>
    scans.rows.any fun o => o.environment == environment && o.scope == scope && o.state.isActive
  | _ => false

/-- What the rule asks of a request. -/
def Admitted [Sha256] (c : State) : scanSystem.Action → Prop
  | .perform i _ => c.asks i (insertsBeside c.shared.scans) = false
  | _ => True

instance [Sha256] (c : State) : ∀ a, Decidable (Alone c a)
  | .perform .. => inferInstanceAs (Decidable (_ = _))
  | .start .. => isTrue trivial
  | .crash _ => isTrue trivial
  | .other _ => isTrue trivial

theorem startsBeside_claim {scans : Table ScanRun} {id : Uuid} {reason : Option String} :
    startsBeside scans (.transition id .queued .running reason) = true ↔
      ∃ r ∈ scans.rows, isAt id .queued r = true ∧ ∃ o ∈ scans.rows, sameScope r o = true ∧ o.state = .running := by
  simp [startsBeside]

theorem startsBeside_eq {scans : Table ScanRun} {effect : Effect} (h : startsBeside scans effect = true) :
    ∃ id reason, effect = .transition id .queued .running reason := by
  unfold startsBeside at h
  split at h
  · exact ⟨_, _, rfl⟩
  · cases h

theorem sameScope_comm {a b : ScanRun} : sameScope a b = sameScope b a := by
  rw [sameScope, sameScope, Bool.beq_comm (a := a.environment), Bool.beq_comm (a := a.scope)]

/-- The two runs have keys of their own: one window has one run. -/
theorem startsBeside_keys {scans : Table ScanRun} {effect : Effect} (h : startsBeside scans effect = true) :
    ∃ r ∈ scans.rows, ∃ o ∈ scans.rows, sameScope r o = true ∧ r.state = .queued ∧ o.state = .running ∧
      r.idempotencyKey ≠ o.idempotencyKey := by
  obtain ⟨id, reason, rfl⟩ := startsBeside_eq h
  obtain ⟨r, hr, hp, o, ho, hsame, hrun⟩ := startsBeside_claim.mp h
  have hqueued : r.state = .queued := by
    simp only [isAt, Bool.and_eq_true, beq_iff_eq] at hp
    exact hp.2
  refine ⟨r, hr, o, ho, hsame, hqueued, hrun, fun hkey => ?_⟩
  simp only [sameScope, Bool.and_eq_true, beq_iff_eq] at hsame
  have hro : r = o := scans.eq_of_clashes hr ho (clashes_byIdAnd.mpr (.inr (Prod.ext hsame.1 hkey)))
  rw [hro, hrun] at hqueued
  cases hqueued

/-! ## What effects keep -/

section
variable {scans scans' : Table ScanRun} {now : DateTime} {id : Uuid} {expected target : ScanState}
  {reason : Option String} {p : ScanState → Bool}

theorem Single.mono {q : ScanState → Bool} (h : Single p scans) (hq : ∀ state, q state = true → p state = true) :
    Single q scans := fun a ha b hb hsame hqa hqb => h a ha b hb hsame (hq _ hqa) (hq _ hqb)

/-- A new run that is in no such state, or alone in one. -/
theorem single_insert {r : ScanRun} (h : Single p scans) (hi : scans.insert r = some scans')
    (hr : ∀ a ∈ scans.rows, sameScope r a = true → p r.state = true → p a.state = false) : Single p scans' := by
  intro a ha b hb hsame hpa hpb
  rcases (Table.mem_insert hi).mp ha with ha | rfl
  · rcases (Table.mem_insert hi).mp hb with hb | rfl
    · exact h a ha b hb hsame hpa hpb
    · rw [hr a ha (sameScope_comm.trans hsame) hpb] at hpa
      cases hpa
  · rcases (Table.mem_insert hi).mp hb with hb | rfl
    · rw [hr b hb hsame hpa] at hpb
      cases hpb
    · rfl

theorem sameScope_change {a b : ScanRun} :
    sameScope (Table.change (isAt id expected) (ScanRun.moved now target reason) a)
      (Table.change (isAt id expected) (ScanRun.moved now target reason) b) = sameScope a b := by
  simp only [sameScope, Table.change]
  split <;> split <;> rfl

/-- A transition keeps the law when two rows in such a state after it were one before. -/
theorem single_moveRun
    (h : ∀ a ∈ scans.rows, ∀ b ∈ scans.rows, sameScope a b = true →
      p (Table.change (isAt id expected) (ScanRun.moved now target reason) a).state = true →
      p (Table.change (isAt id expected) (ScanRun.moved now target reason) b).state = true → a = b) :
    Single p (moveRun scans now id expected target reason) := by
  intro a' ha b' hb hsame hpa hpb
  obtain ⟨a, hma, rfl⟩ := Table.mem_update.mp ha
  obtain ⟨b, hmb, rfl⟩ := Table.mem_update.mp hb
  rw [sameScope_change] at hsame
  rw [h a hma b hmb hsame hpa hpb]

/-- One that takes no run into such a state keeps it. -/
theorem single_leave (h : Single p scans) (hp : p target = true → p expected = true) :
    Single p (moveRun scans now id expected target reason) := by
  have before : ∀ a : ScanRun,
      p (Table.change (isAt id expected) (ScanRun.moved now target reason) a).state = true → p a.state = true := by
    intro a ha
    by_cases hat : isAt id expected a = true
    · rw [Table.change_pos hat] at ha
      simp only [isAt, Bool.and_eq_true, beq_iff_eq] at hat
      rw [hat.2]
      exact hp ha
    · rwa [Table.change_neg (by simpa using hat)] at ha
  exact single_moveRun fun a ha b hb hsame hpa hpb => h a ha b hb hsame (before a hpa) (before b hpb)

/-- A claim beside no running run leaves one at most. -/
theorem oneRunning_claim (h : OneRunning scans)
    (hb : startsBeside scans (.transition id .queued .running reason) = false) :
    OneRunning (moveRun scans now id .queued .running reason) := by
  have beside : ∀ a ∈ scans.rows, ∀ b ∈ scans.rows, sameScope a b = true → isAt id .queued a = true →
      (b.state == .running) ≠ true := by
    intro a ha b hmem hsame hp hrun
    rw [startsBeside_claim.mpr ⟨a, ha, hp, b, hmem, hsame, by simpa using hrun⟩] at hb
    cases hb
  have kept : ∀ a : ScanRun, ¬ isAt id .queued a = true →
      ((Table.change (isAt id .queued) (ScanRun.moved now .running reason) a).state == .running) = true →
        (a.state == .running) = true := by
    intro a hp ha
    rwa [Table.change_neg (by simpa using hp)] at ha
  refine single_moveRun fun a ha b hmem hsame has hbs => ?_
  by_cases hpa : isAt id .queued a = true
  · by_cases hpb : isAt id .queued b = true
    · simp only [isAt, Bool.and_eq_true, beq_iff_eq] at hpa hpb
      exact scans.eq_of_clashes ha hmem (clashes_byIdAnd.mpr (.inl (hpa.1.trans hpb.1.symm)))
    · exact absurd (kept b hpb hbs) (beside a ha b hmem hsame hpa)
  · have har := kept a hpa has
    by_cases hpb : isAt id .queued b = true
    · exact absurd har (beside b hmem a ha (sameScope_comm.trans hsame) hpb)
    · exact h a ha b hmem hsame har (kept b hpb hbs)

/-- A claim beside a running run leaves two. -/
theorem not_oneRunning_claim (hb : startsBeside scans (.transition id .queued .running reason) = true) :
    ¬ OneRunning (moveRun scans now id .queued .running reason) := by
  intro h
  obtain ⟨r, hr, hp, o, ho, hsame, hrun⟩ := startsBeside_claim.mp hb
  have hother : isAt id .queued o = false := by simp [isAt, hrun]
  have heq := h _ (Table.mem_update_pos hr hp) o (Table.mem_update_neg ho hother) hsame rfl (by simp [hrun])
  have hid : (r.moved now .running reason).id = o.id := congrArg ScanRun.id heq
  have hro : r = o := scans.eq_of_clashes hr ho (clashes_byIdAnd.mpr (.inl hid))
  rw [hro, hother] at hp
  cases hp

end

/-! ## Runs -/

section
variable [Sha256] {w w' : World} {i : Nat} {g g' : Pc} {effect : Effect} {scans : Table ScanRun} {c : State}

theorem Move.oneRunning (hm : Move i w effect g g' w') (h : OneRunning w.scans)
    (hb : startsBeside w.scans effect = false) : OneRunning w'.scans := by
  cases hm with
  | inserted hins =>
    refine single_insert h hins fun a _ _ hr => ?_
    cases hr
  | claimed now hqueued => exact oneRunning_claim h hb
  | passed now hother => exact oneRunning_claim h hb
  | stored now moved => exact single_leave h fun _ => rfl
  | _ => exact h

theorem Move.oneActive (hm : Move i w effect g g' w') (h : Single ScanState.isActive w.scans)
    (hb : insertsBeside w.scans effect = false) : Single ScanState.isActive w'.scans := by
  cases hm with
  | inserted hins =>
    refine single_insert h hins fun a ha hsame _ => Bool.eq_false_iff.mpr fun hactive => ?_
    simp only [insertsBeside, List.any_eq_false, Bool.and_eq_true, beq_iff_eq] at hb
    simp only [sameScope, newScanRun, Bool.and_eq_true, beq_iff_eq] at hsame
    exact hb a ha ⟨⟨hsame.1.symm, hsame.2.symm⟩, hactive⟩
  | claimed now hqueued => exact single_leave h fun _ => rfl
  | passed now hother => exact single_leave h fun _ => rfl
  | stored now moved => exact single_leave h fun _ => rfl
  | _ => exact h

/-- What every effect that is not `bad` keeps of the table holds in every run without one. -/
theorem system_keeps {I : Table ScanRun → Prop} {bad : Table ScanRun → Effect → Bool}
    {ok : State → scanSystem.Action → Prop}
    (hm : ∀ {i w effect g g' w'}, Move i w effect g g' w' → I w.scans → bad w.scans effect = false → I w'.scans)
    (hok : ∀ {c i ch}, ok c (.perform i ch) → c.asks i (bad c.shared.scans) = false) (h0 : I scans)
    (h : scanSystem.Path ok ⟨scans, []⟩ c) : I c.shared.scans := by
  have hrun : ∃ pc, Machine.Follows protocol pc c ∧ I c.shared.scans := by
    refine Machine.Path.invariant (I := fun c _ => I c.shared.scans) Start.pc start_sat (fun _ => .idle) h0
      (fun c pc i x hI _ _ => ?_) (fun c pc i e k ch r w' hI hc ha hstep hh => ?_) (fun c pc i hI _ => ?_)
      (fun c pc x w' _ _ _ => Empty.elim x) h
    · exact hI
    · have hbad := hok hstep
      rw [Config.asks_of_call hc] at hbad
      exact hm (perform_move ha (Option.some.inj hh)) hI hbad
    · exact hI
  obtain ⟨pc, _, hI⟩ := hrun
  exact hI

theorem system_oneRunning (h0 : OneRunning scans) (h : scanSystem.Path Alone ⟨scans, []⟩ c) :
    OneRunning c.shared.scans :=
  system_keeps (fun hm => hm.oneRunning) (fun hok => hok) h0 h

/-- In every run whose requests never insert a run while one of its environment and scope
    is queued or running, each environment and scope has at most one such run. -/
theorem one_active (h0 : Single ScanState.isActive scans) (h : scanSystem.Path Admitted ⟨scans, []⟩ c) :
    Single ScanState.isActive c.shared.scans ∧ OneRunning c.shared.scans := by
  have hI : Single ScanState.isActive c.shared.scans := system_keeps (fun hm => hm.oneActive) (fun hok => hok) h0 h
  refine ⟨hI, hI.mono fun state hs => ?_⟩
  rw [beq_iff_eq] at hs
  rw [hs]
  rfl

/-- A step that claims a run beside another breaks the law. -/
theorem not_oneRunning_step {a : scanSystem.Action} {c' : State} (hs : scanSystem.step c a = some c')
    (ha : ¬ Alone c a) : ¬ OneRunning c'.shared.scans := by
  rcases Machine.step_cases hs with ⟨i, x, rfl, rfl⟩ | ⟨i, ch, e, k, r, w', rfl, hc, hh, rfl⟩ | ⟨i, rfl, rfl⟩ |
    ⟨x, s', rfl, hx, rfl⟩
  · exact absurd trivial ha
  · have hb : startsBeside c.shared.scans e = true := by
      rw [← Config.asks_of_call hc (startsBeside c.shared.scans)]
      simpa [Alone] using ha
    obtain ⟨id, reason, rfl⟩ := startsBeside_eq hb
    obtain ⟨scans', hans, rfl⟩ := perform_answered (Option.some.inj hh)
    obtain ⟨_, rfl⟩ := Prod.mk.inj hans
    exact not_oneRunning_claim hb
  · exact absurd trivial ha
  · exact Empty.elim x

/-- In every run whose claims never find their run queued while another of its
    environment and scope is running, each environment and scope has at most one running
    run, and a next step keeps that exactly when it is such a one too. -/
theorem one_running_iff (h0 : OneRunning scans) (h : scanSystem.Path Alone ⟨scans, []⟩ c) :
    OneRunning c.shared.scans ∧
    ∀ a c', scanSystem.step c a = some c' → (OneRunning c'.shared.scans ↔ Alone c a) := by
  refine ⟨system_oneRunning h0 h, fun a c' hs => ⟨fun hone => ?_, fun ha => ?_⟩⟩
  · exact Decidable.byContradiction fun ha => not_oneRunning_step hs ha hone
  · exact system_oneRunning h0 (.step a h ha hs)

/-- The second window is posted while the first one's pipeline runs, and executed after it. -/
def scansInTurn : List scanSystem.Action :=
  [.start 0 (.manual sampleService samplePost), .perform 0 sampleChoice, .perform 0 sampleChoice,
    .perform 0 sampleChoice, .perform 0 sampleChoice, .start 1 (.manual sampleService otherWindow),
    .perform 1 otherChoice, .perform 1 otherChoice, .perform 1 otherChoice, .perform 0 sampleChoice,
    .perform 0 sampleChoice, .perform 1 otherChoice]

/-- Both windows are posted and executed at once. -/
def scansAtOnce : List scanSystem.Action :=
  [.start 0 (.manual sampleService samplePost), .perform 0 sampleChoice, .perform 0 sampleChoice,
    .perform 0 sampleChoice, .perform 0 sampleChoice, .start 1 (.manual sampleService otherWindow),
    .perform 1 otherChoice, .perform 1 otherChoice, .perform 1 otherChoice, .perform 1 otherChoice]

end

theorem one_running_in_turn : letI : Sha256 := .transparent
    ∃ c : State, stateOf c.shared.scans 1 = some .completed ∧ stateOf c.shared.scans 2 = some .running ∧
      OneRunning c.shared.scans ∧
      ∀ a c', scanSystem.step c a = some c' → (OneRunning c'.shared.scans ↔ Alone c a) := by
  let _ : Sha256 := .transparent
  have run : (scanSystem.walk Alone ⟨⟨.empty, []⟩, fun _ => .idle⟩ scansInTurn).map
      (fun c => (stateOf c.shared.scans 1, stateOf c.shared.scans 2)) = some (some .completed, some .running) := by
    decide
  obtain ⟨c, hc, hs⟩ := Option.map_eq_some_iff.mp run
  obtain ⟨hfirst, hsecond⟩ := Prod.mk.inj hs
  exact ⟨c, hfirst, hsecond, one_running_iff (by decide) (Machine.walk_path .init hc)⟩

theorem two_windows_running : letI : Sha256 := .transparent
    ∃ c, scanSystem.Path (fun _ _ => True) ⟨.empty, []⟩ c ∧ ¬ OneRunning c.shared.scans := by
  let _ : Sha256 := .transparent
  have run : (scanSystem.walk (fun _ _ => True) ⟨⟨.empty, []⟩, fun _ => .idle⟩ scansAtOnce).map
      (fun c => decide (OneRunning c.shared.scans)) = some false := by decide
  obtain ⟨c, hc, hs⟩ := Option.map_eq_some_iff.mp run
  exact ⟨c, Machine.walk_path .init hc, of_decide_eq_false hs⟩

end WorkforceRisk.Scans
