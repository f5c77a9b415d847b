/-
  WorkforceRisk.Lib.Breaker — circuit breakers, by what happens at them.

  The events of a breaker in their order: calls of the other system, successes, failures
  that count, the circuit opening, and its reset. `failures` is how many failures there
  were since the last success or reset, `reached` when that number reached the threshold,
  `lastOpened` when the circuit last opened.

  `follow` is the breaker that looks before it calls: calls and their outcomes come while
  the circuit is closed, the failure that reaches the threshold opens it at once, and no
  reset comes before its time. Proved of every run it accepts: no call is within the
  reset time of the last opening, nor a reset (`follow_calls`, `follow_resets`), and the
  circuit opens after the failures that reach the threshold and at no other time
  (`follow_opens`, `follow_opened`).
-/

import Mathlib.Algebra.Order.Group.Defs
import Mathlib.Data.List.Induction

namespace WorkforceRisk.Lib.Breaker

section
variable {τ : Type}

inductive Event (τ : Type) where
  | called (at_ : τ)
  | succeeded
  | failed (at_ : τ)
  | opened (at_ : τ)
  | reset (at_ : τ)
  deriving DecidableEq

structure Circuit (τ : Type) where
  failures : Nat
  openedAt : Option τ

def Circuit.fresh : Circuit τ := ⟨0, none⟩

def Circuit.closed (threshold : Nat) (circuit : Circuit τ) : Bool :=
  circuit.openedAt.isNone && decide (circuit.failures < threshold)

/-- The failure that reached the threshold has opened it. -/
def Circuit.settled (threshold : Nat) (circuit : Circuit τ) : Bool :=
  circuit.openedAt.isSome || decide (circuit.failures < threshold)

def countFailures (n : Nat) : Event τ → Nat
  | .failed _ => n + 1
  | .succeeded => 0
  | .reset _ => 0
  | .called _ => n
  | .opened _ => n

/-- How many failures there were since the last success or reset. -/
def failures (trace : List (Event τ)) : Nat := trace.foldl countFailures 0

def Event.isCall : Event τ → Bool
  | .called _ => true
  | _ => false

def Event.isFailure : Event τ → Bool
  | .failed _ => true
  | _ => false

/-- The failures counted, and when they reached the threshold. -/
def reachStep (threshold : Nat) (s : Nat × Option τ) : Event τ → Nat × Option τ
  | .failed now => (s.1 + 1, if s.1 + 1 = threshold then some now else s.2)
  | .succeeded => (0, none)
  | .reset _ => (0, none)
  | .called _ => s
  | .opened _ => s

/-- When the failures since the last success or reset reached the threshold. -/
def reachedAt (threshold : Nat) (trace : List (Event τ)) : Option τ := (trace.foldl (reachStep threshold) (0, none)).2

/-- No call starts within the reset time of the failure that reached the threshold. -/
def NeverCalledOpen [LE τ] [Sub τ] (threshold : Nat) (resetSeconds : τ) (trace : List (Event τ)) : Prop :=
  ∀ before now after, trace = before ++ .called now :: after → ∀ since, reachedAt threshold before = some since →
    resetSeconds ≤ now - since

def noteOpened (last : Option τ) : Event τ → Option τ
  | .opened now => some now
  | _ => last

/-- When the circuit last opened. -/
def lastOpened (trace : List (Event τ)) : Option τ := trace.foldl noteOpened none

/-- A reset looks at the clock before the calls after it start. -/
def Event.Before [LE τ] : Event τ → Event τ → Prop
  | .reset now, .called later => now ≤ later
  | _, _ => True

theorem closed_iff {threshold : Nat} {circuit : Circuit τ} :
    circuit.closed threshold = true ↔ circuit.openedAt = none ∧ circuit.failures < threshold := by
  simp [Circuit.closed]

theorem not_settled_iff {threshold : Nat} {circuit : Circuit τ} :
    circuit.settled threshold = false ↔ circuit.openedAt = none ∧ threshold ≤ circuit.failures := by
  simp [Circuit.settled]

theorem settled_of_lt {threshold : Nat} {circuit : Circuit τ} (h : circuit.failures < threshold) :
    circuit.settled threshold = true := by
  simp [Circuit.settled, h]

theorem settled_of_closed {threshold : Nat} {circuit : Circuit τ} (h : circuit.closed threshold = true) :
    circuit.settled threshold = true := settled_of_lt (closed_iff.mp h).2

theorem failures_snoc (trace : List (Event τ)) (e : Event τ) :
    failures (trace ++ [e]) = countFailures (failures trace) e := by
  rw [failures, List.foldl_append]
  rfl

theorem lastOpened_snoc (trace : List (Event τ)) (e : Event τ) :
    lastOpened (trace ++ [e]) = noteOpened (lastOpened trace) e := by
  rw [lastOpened, List.foldl_append]
  rfl

end

/-! ## Calls while the circuit is open -/

section
variable {τ : Type} [LE τ] [Sub τ] {threshold : Nat} {resetSeconds : τ}

/-- No call of what follows starts while the circuit is open. -/
def KeepsOff (threshold : Nat) (resetSeconds : τ) : Nat × Option τ → List (Event τ) → Prop
  | _, [] => True
  | s, e :: trace => (∀ now, e = .called now → ∀ since, s.2 = some since → resetSeconds ≤ now - since) ∧
      KeepsOff threshold resetSeconds (reachStep threshold s e) trace

theorem keepsOff_append {before after : List (Event τ)} : ∀ {s : Nat × Option τ},
    KeepsOff threshold resetSeconds s (before ++ after) ↔ KeepsOff threshold resetSeconds s before ∧
      KeepsOff threshold resetSeconds (before.foldl (reachStep threshold) s) after := by
  induction before with
  | nil => intro s; exact (and_iff_right trivial).symm
  | cons e before ih =>
    intro s
    rw [List.cons_append, KeepsOff, KeepsOff, ih, and_assoc]
    rfl

theorem keepsOff_iff {trace : List (Event τ)} : ∀ {s : Nat × Option τ}, KeepsOff threshold resetSeconds s trace ↔
    ∀ before now after, trace = before ++ .called now :: after →
      ∀ since, (before.foldl (reachStep threshold) s).2 = some since → resetSeconds ≤ now - since := by
  induction trace with
  | nil => intro s; exact ⟨fun _ before now after h => by simp at h, fun _ => trivial⟩
  | cons e trace ih =>
    intro s
    rw [KeepsOff, ih]
    constructor
    · intro h before now after hsplit
      cases before with
      | nil =>
        obtain ⟨rfl, -⟩ := List.cons.inj hsplit
        exact h.1 now rfl
      | cons first before =>
        obtain ⟨rfl, hrest⟩ := List.cons.inj hsplit
        exact h.2 before now after hrest
    · intro h
      refine ⟨fun now he => h [] now trace (by rw [he]; rfl), fun before now after hsplit => ?_⟩
      exact h (e :: before) now after (by rw [hsplit]; rfl)

theorem neverCalledOpen_iff {trace : List (Event τ)} :
    NeverCalledOpen threshold resetSeconds trace ↔ KeepsOff threshold resetSeconds (0, none) trace := keepsOff_iff.symm

end

/-! ## The breaker that looks before it calls -/

section
variable {τ : Type} [AddCommGroup τ] [LinearOrder τ] (threshold : Nat) (resetSeconds : τ)

def allow (circuit : Circuit τ) : Event τ → Option (Circuit τ)
  | .called _ => if circuit.closed threshold then some circuit else none
  | .succeeded => if circuit.closed threshold then some ⟨0, circuit.openedAt⟩ else none
  | .failed _ => if circuit.closed threshold then some ⟨circuit.failures + 1, circuit.openedAt⟩ else none
  | .opened now => if circuit.settled threshold then none else some ⟨circuit.failures, some now⟩
  | .reset now => match circuit.openedAt with
    | some openedAt => if resetSeconds ≤ now - openedAt then some .fresh else none
    | none => none

def follow : Circuit τ → List (Event τ) → Option (Circuit τ)
  | circuit, [] => some circuit
  | circuit, e :: trace => (allow threshold resetSeconds circuit e).bind fun circuit => follow circuit trace

variable {threshold resetSeconds} {circuit final : Circuit τ} {trace before after : List (Event τ)} {e : Event τ}

theorem follow_append (before after : List (Event τ)) : ∀ circuit : Circuit τ,
    follow threshold resetSeconds circuit (before ++ after) =
      (follow threshold resetSeconds circuit before).bind fun middle => follow threshold resetSeconds middle after := by
  induction before with
  | nil => intro circuit; rfl
  | cons e before ih =>
    intro circuit
    rw [List.cons_append, follow, follow]
    cases allow threshold resetSeconds circuit e with
    | none => rfl
    | some middle => exact ih middle

theorem follow_cons : follow threshold resetSeconds circuit (e :: trace) = some final ↔
    ∃ next, allow threshold resetSeconds circuit e = some next ∧ follow threshold resetSeconds next trace = some final :=
  Option.bind_eq_some_iff

theorem follow_snoc : follow threshold resetSeconds circuit (trace ++ [e]) = some final ↔
    ∃ middle, follow threshold resetSeconds circuit trace = some middle ∧
      allow threshold resetSeconds middle e = some final := by
  rw [follow_append, Option.bind_eq_some_iff]
  refine exists_congr fun middle => and_congr_right fun _ => ?_
  rw [follow, Option.bind_eq_some_iff]
  exact ⟨fun h => by obtain ⟨c, hc, hend⟩ := h; cases hend; exact hc, fun h => ⟨final, h, rfl⟩⟩

/-- The circuit where an event of a run comes, and after it. -/
theorem follow_split (h : follow threshold resetSeconds circuit (before ++ e :: after) = some final) :
    ∃ middle next, follow threshold resetSeconds circuit before = some middle ∧
      allow threshold resetSeconds middle e = some next ∧ follow threshold resetSeconds next after = some final := by
  rw [follow_append, Option.bind_eq_some_iff] at h
  obtain ⟨middle, hbefore, h⟩ := h
  rw [follow, Option.bind_eq_some_iff] at h
  obtain ⟨next, hallow, hafter⟩ := h
  exact ⟨middle, next, hbefore, hallow, hafter⟩

theorem allow_called {now : τ} {next : Circuit τ} :
    allow threshold resetSeconds circuit (.called now) = some next ↔ circuit.closed threshold = true ∧ circuit = next :=
  Option.ite_none_right_eq_some.trans (by rw [Option.some.injEq])

theorem allow_succeeded {next : Circuit τ} : allow threshold resetSeconds circuit .succeeded = some next ↔
    circuit.closed threshold = true ∧ ⟨0, circuit.openedAt⟩ = next :=
  Option.ite_none_right_eq_some.trans (by rw [Option.some.injEq])

theorem allow_failed {now : τ} {next : Circuit τ} : allow threshold resetSeconds circuit (.failed now) = some next ↔
    circuit.closed threshold = true ∧ ⟨circuit.failures + 1, circuit.openedAt⟩ = next :=
  Option.ite_none_right_eq_some.trans (by rw [Option.some.injEq])

theorem allow_opened {now : τ} {next : Circuit τ} : allow threshold resetSeconds circuit (.opened now) = some next ↔
    circuit.settled threshold = false ∧ ⟨circuit.failures, some now⟩ = next :=
  Option.ite_none_left_eq_some.trans (by rw [Option.some.injEq, Bool.not_eq_true])

theorem allow_reset {now : τ} {next : Circuit τ} : allow threshold resetSeconds circuit (.reset now) = some next ↔
    ∃ openedAt, circuit.openedAt = some openedAt ∧ resetSeconds ≤ now - openedAt ∧ .fresh = next := by
  unfold allow
  cases circuit.openedAt with
  | none => simp
  | some openedAt => simp [Option.ite_none_right_eq_some]

/-- Calls leave a closed circuit as it is. -/
theorem follow_of_called (hclosed : circuit.closed threshold = true) (h : ∀ e ∈ trace, ∃ now, e = .called now) :
    follow threshold resetSeconds circuit trace = some circuit := by
  induction trace with
  | nil => rfl
  | cons e trace ih =>
    obtain ⟨now, rfl⟩ := h e List.mem_cons_self
    rw [follow, allow_called.mpr ⟨hclosed, rfl⟩]
    exact ih fun e he => h e (List.mem_cons_of_mem _ he)

/-- The breaker's count is the failures since the last success or reset. -/
theorem follow_failures (h : follow threshold resetSeconds .fresh trace = some final) :
    failures trace = final.failures := by
  induction trace using List.reverseRecOn generalizing final with
  | nil => cases h; rfl
  | append_singleton trace e ih =>
    obtain ⟨middle, hrun, hallow⟩ := follow_snoc.mp h
    rw [failures_snoc, ih hrun]
    cases e with
    | called now => rw [← (allow_called.mp hallow).2]; rfl
    | succeeded => rw [← (allow_succeeded.mp hallow).2]; rfl
    | failed now => rw [← (allow_failed.mp hallow).2]; rfl
    | opened now => rw [← (allow_opened.mp hallow).2]; rfl
    | reset now =>
      obtain ⟨_, -, -, hnext⟩ := allow_reset.mp hallow
      rw [← hnext]
      rfl

/-- A failure opens the circuit exactly when it is the one that reaches the threshold. -/
theorem follow_opens {now : τ}
    (h : follow threshold resetSeconds .fresh (before ++ .failed now :: after) = some final)
    (hfinal : final.settled threshold = true) :
    (∃ later rest, after = .opened later :: rest) ↔ failures (before ++ [.failed now]) = threshold := by
  obtain ⟨middle, next, hbefore, hallow, hafter⟩ := follow_split h
  obtain ⟨hclosed, rfl⟩ := allow_failed.mp hallow
  obtain ⟨hnone, hlt⟩ := closed_iff.mp hclosed
  rw [failures_snoc, follow_failures hbefore]
  show _ ↔ middle.failures + 1 = threshold
  constructor
  · intro hopened
    obtain ⟨later, rest, rfl⟩ := hopened
    obtain ⟨_, hallow, -⟩ := follow_cons.mp hafter
    have hfull := (not_settled_iff.mp (allow_opened.mp hallow).1).2
    dsimp only at hfull
    omega
  · intro hreached
    have hpending : (⟨middle.failures + 1, middle.openedAt⟩ : Circuit τ).settled threshold = false :=
      not_settled_iff.mpr ⟨hnone, hreached.ge⟩
    have hopen : ¬ (⟨middle.failures + 1, middle.openedAt⟩ : Circuit τ).closed threshold = true := by
      rw [closed_iff]
      intro hc
      have := hc.2
      dsimp only at this
      omega
    cases after with
    | nil =>
      cases hafter
      rw [hpending] at hfinal
      cases hfinal
    | cons e rest =>
      obtain ⟨_, hallow, -⟩ := follow_cons.mp hafter
      cases e with
      | called later => exact absurd (allow_called.mp hallow).1 hopen
      | succeeded => exact absurd (allow_succeeded.mp hallow).1 hopen
      | failed later => exact absurd (allow_failed.mp hallow).1 hopen
      | opened later => exact ⟨later, rest, rfl⟩
      | reset later =>
        obtain ⟨_, hsome, -⟩ := allow_reset.mp hallow
        rw [hnone] at hsome
        cases hsome

/-- Nothing but a failure opens it. -/
theorem follow_opened (hthreshold : 0 < threshold) {now : τ}
    (h : follow threshold resetSeconds .fresh (before ++ .opened now :: after) = some final) :
    ∃ earlier failedAt, before = earlier ++ [.failed failedAt] := by
  obtain ⟨middle, next, hbefore, hallow, -⟩ := follow_split h
  obtain ⟨hnone, hfull⟩ := not_settled_iff.mp (allow_opened.mp hallow).1
  rcases List.eq_nil_or_concat before with rfl | hlast
  · cases hbefore
    exact absurd hthreshold (not_lt.mpr hfull)
  · obtain ⟨earlier, e, hlast⟩ := hlast
    rw [List.concat_eq_append] at hlast
    subst hlast
    obtain ⟨c, -, hallow⟩ := follow_snoc.mp hbefore
    cases e with
    | called later =>
      obtain ⟨hclosed, rfl⟩ := allow_called.mp hallow
      exact absurd (closed_iff.mp hclosed).2 (not_lt.mpr hfull)
    | succeeded =>
      obtain ⟨-, rfl⟩ := allow_succeeded.mp hallow
      exact absurd hthreshold (not_lt.mpr hfull)
    | failed failedAt => exact ⟨earlier, failedAt, rfl⟩
    | opened later =>
      obtain ⟨-, rfl⟩ := allow_opened.mp hallow
      cases hnone
    | reset later =>
      obtain ⟨_, -, -, rfl⟩ := allow_reset.mp hallow
      exact absurd hthreshold (not_lt.mpr hfull)

/-- The last opening stands, or a reset has come since, and not before its time. -/
theorem follow_lastOpened {openedAt : τ} (h : follow threshold resetSeconds .fresh trace = some final)
    (hlast : lastOpened trace = some openedAt) : final.openedAt = some openedAt ∨
      ∃ now, Event.reset now ∈ trace ∧ resetSeconds ≤ now - openedAt := by
  induction trace using List.reverseRecOn generalizing final with
  | nil => cases hlast
  | append_singleton trace e ih =>
    obtain ⟨middle, hrun, hallow⟩ := follow_snoc.mp h
    rw [lastOpened_snoc] at hlast
    have hkeep : final.openedAt = middle.openedAt → noteOpened (lastOpened trace) e = lastOpened trace →
        final.openedAt = some openedAt ∨ ∃ now, Event.reset now ∈ trace ++ [e] ∧ resetSeconds ≤ now - openedAt := by
      intro hsame hnote
      rcases ih hrun (hnote ▸ hlast) with hopen | hreset
      · exact .inl (hsame.trans hopen)
      · obtain ⟨now, hmem, hle⟩ := hreset
        exact .inr ⟨now, List.mem_append_left _ hmem, hle⟩
    cases e with
    | called now => exact hkeep (by rw [← (allow_called.mp hallow).2]) rfl
    | succeeded => exact hkeep (by rw [← (allow_succeeded.mp hallow).2]) rfl
    | failed now => exact hkeep (by rw [← (allow_failed.mp hallow).2]) rfl
    | opened now =>
      cases hlast
      exact .inl (by rw [← (allow_opened.mp hallow).2])
    | reset now =>
      obtain ⟨since, hsince, hle, -⟩ := allow_reset.mp hallow
      rcases ih hrun hlast with hopen | hreset
      · rw [hsince] at hopen
        cases hopen
        exact .inr ⟨now, List.mem_append_right _ (List.mem_singleton.mpr rfl), hle⟩
      · obtain ⟨earlier, hmem, hle⟩ := hreset
        exact .inr ⟨earlier, List.mem_append_left _ hmem, hle⟩

/-- An open circuit was opened when it says. -/
theorem follow_openedAt {openedAt : τ} (h : follow threshold resetSeconds .fresh trace = some final)
    (hopen : final.openedAt = some openedAt) : lastOpened trace = some openedAt := by
  induction trace using List.reverseRecOn generalizing final with
  | nil => cases h; cases hopen
  | append_singleton trace e ih =>
    obtain ⟨middle, hrun, hallow⟩ := follow_snoc.mp h
    rw [lastOpened_snoc]
    cases e with
    | called now => exact ih hrun (by rw [← (allow_called.mp hallow).2] at hopen; exact hopen)
    | succeeded => exact ih hrun (by rw [← (allow_succeeded.mp hallow).2] at hopen; exact hopen)
    | failed now => exact ih hrun (by rw [← (allow_failed.mp hallow).2] at hopen; exact hopen)
    | opened now =>
      rw [← (allow_opened.mp hallow).2] at hopen
      exact hopen
    | reset now =>
      obtain ⟨_, -, -, rfl⟩ := allow_reset.mp hallow
      cases hopen

/-- No reset comes but to an open circuit, and not before its time. -/
theorem follow_resets {now : τ}
    (h : follow threshold resetSeconds .fresh (before ++ .reset now :: after) = some final) :
    ∃ openedAt, lastOpened before = some openedAt ∧ resetSeconds ≤ now - openedAt := by
  obtain ⟨middle, next, hbefore, hallow, -⟩ := follow_split h
  obtain ⟨openedAt, hopen, hle, -⟩ := allow_reset.mp hallow
  exact ⟨openedAt, follow_openedAt hbefore hopen, hle⟩

variable [IsOrderedAddMonoid τ]

/-- No call is made within the reset time of the last opening. -/
theorem follow_calls {now openedAt : τ}
    (h : follow threshold resetSeconds .fresh (before ++ .called now :: after) = some final)
    (horder : (before ++ .called now :: after).Pairwise Event.Before) (hlast : lastOpened before = some openedAt) :
    resetSeconds ≤ now - openedAt := by
  obtain ⟨middle, next, hbefore, hallow, -⟩ := follow_split h
  obtain ⟨hnone, -⟩ := closed_iff.mp (allow_called.mp hallow).1
  rcases follow_lastOpened hbefore hlast with hopen | hreset
  · rw [hnone] at hopen
    cases hopen
  · obtain ⟨earlier, hmem, hle⟩ := hreset
    have hclock : earlier ≤ now := (List.pairwise_append.mp horder).2.2 _ hmem _ List.mem_cons_self
    exact hle.trans (sub_le_sub_right hclock openedAt)

end

end WorkforceRisk.Lib.Breaker
