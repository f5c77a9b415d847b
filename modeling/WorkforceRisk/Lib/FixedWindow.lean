/-
  WorkforceRisk.Lib.FixedWindow — a counter of fixed windows: calls of one party are
  allowed up to a limit in each window, and a window starts at the first call after the
  one before it is over.

  Windows of one party are a length apart (`serveAll_apart`), a call falls in its own
  (`serveAll_within`), and none allows more calls than the limit (`serveAll_granted_le`).
  A half-open interval of the windows' length meets at most two of them, so that it holds
  at most twice the limit (`allowed_in_interval_le`). A call is refused only where its
  window has allowed all it may (`serveAll_refused`).
-/

import Mathlib.Algebra.Order.Field.Basic
import Mathlib.Tactic.Linarith

namespace WorkforceRisk.Lib.FixedWindow

structure Window (τ : Type) where
  started : τ
  count : Nat

/-- A call that was served, with the start of the window it fell in. -/
structure Served (τ : Type) where
  now : τ
  started : τ
  allowed : Bool

section
variable {τ : Type} [Field τ] [LinearOrder τ]

/-- The window of a call: the party's last one, or a new one. -/
def current (length : τ) (now : τ) : Option (Window τ) → Window τ
  | some window => if length ≤ now - window.started then ⟨now, 0⟩ else window
  | none => ⟨now, 0⟩

def serve (limit : Nat) (length : τ) (last : Option (Window τ)) (now : τ) : Served τ × Option (Window τ) :=
  let window := current length now last
  if limit ≤ window.count then (⟨now, window.started, false⟩, last)
  else (⟨now, window.started, true⟩, some ⟨window.started, window.count + 1⟩)

def serveAll (limit : Nat) (length : τ) : Option (Window τ) → List τ → List (Served τ)
  | _, [] => []
  | last, now :: later => (serve limit length last now).1 :: serveAll limit length (serve limit length last now).2 later

/-- How many calls of a list the window that started then has allowed. -/
def granted (started : τ) (l : List (Served τ)) : Nat := l.countP fun call => call.allowed && call.started == started

/-- How many of them were allowed in `[lower, upper)`. -/
def allowedWithin (lower upper : τ) (l : List (Served τ)) : Nat :=
  l.countP fun call => call.allowed && decide (lower ≤ call.now ∧ call.now < upper)

/-- What the last window has allowed, when it is the one that started then. -/
def held (started : τ) (last : Option (Window τ)) : Nat :=
  match last with
  | some window => if window.started = started then window.count else 0
  | none => 0

variable {limit : Nat} {length : τ}

/-- Two windows of one party, the first of them no later. -/
def ApartBy (length : τ) (a b : τ) : Prop := a = b ∨ a + length ≤ b

/-! ## One call -/

theorem current_some (window : Window τ) (now : τ) :
    current length now (some window) = if length ≤ now - window.started then ⟨now, 0⟩ else window := rfl

theorem serve_of_full {last : Option (Window τ)} {now : τ} (h : limit ≤ (current length now last).count) :
    serve limit length last now = (⟨now, (current length now last).started, false⟩, last) := if_pos h

theorem serve_of_room {last : Option (Window τ)} {now : τ} (h : ¬ limit ≤ (current length now last).count) :
    serve limit length last now = (⟨now, (current length now last).started, true⟩,
      some ⟨(current length now last).started, (current length now last).count + 1⟩) := if_neg h

theorem serve_now (last : Option (Window τ)) (now : τ) : (serve limit length last now).1.now = now := by
  by_cases h : limit ≤ (current length now last).count
  · rw [serve_of_full h]
  · rw [serve_of_room h]

theorem serve_started (last : Option (Window τ)) (now : τ) :
    (serve limit length last now).1.started = (current length now last).started := by
  by_cases h : limit ≤ (current length now last).count
  · rw [serve_of_full h]
  · rw [serve_of_room h]

theorem serve_allowed (last : Option (Window τ)) (now : τ) :
    (serve limit length last now).1.allowed = true ↔ (current length now last).count < limit := by
  by_cases h : limit ≤ (current length now last).count
  · rw [serve_of_full h]
    exact ⟨fun hf => (Bool.false_ne_true hf).elim, fun hlt => absurd hlt (not_lt.mpr h)⟩
  · rw [serve_of_room h]
    exact ⟨fun _ => not_le.mp h, fun _ => rfl⟩

/-- A full window is not a new one. -/
theorem current_eq_of_full (hlimit : 0 < limit) {last : Option (Window τ)} {now : τ}
    (h : limit ≤ (current length now last).count) : last = some (current length now last) := by
  cases last with
  | none => exact absurd hlimit (not_lt.mpr h)
  | some window =>
    rw [current_some] at h ⊢
    split at h
    · exact absurd hlimit (not_lt.mpr h)
    · rename_i hopen
      rw [if_neg hopen]

/-- A window that allows any call is there after the call. -/
theorem serve_last (hlimit : 0 < limit) (last : Option (Window τ)) (now : τ) :
    (serve limit length last now).2 = some ⟨(current length now last).started, (current length now last).count +
      if (serve limit length last now).1.allowed then 1 else 0⟩ := by
  by_cases h : limit ≤ (current length now last).count
  · rw [serve_of_full h]
    exact current_eq_of_full hlimit h
  · rw [serve_of_room h]
    rfl

omit [Field τ] in
theorem granted_cons (started : τ) (call : Served τ) (l : List (Served τ)) : granted started (call :: l) =
    (if call.started = started then (if call.allowed then 1 else 0) else 0) + granted started l := by
  unfold granted
  rw [List.countP_cons]
  cases call.allowed <;> simp [Nat.add_comm]

variable [IsStrictOrderedRing τ]

theorem current_within (hlength : 0 < length) {last : Option (Window τ)} {now : τ}
    (hlast : ∀ window ∈ last, window.started ≤ now) :
    (current length now last).started ≤ now ∧ now < (current length now last).started + length := by
  cases last with
  | none => exact ⟨le_refl now, by simpa [current] using hlength⟩
  | some window =>
    rw [current_some]
    split
    · exact ⟨le_refl now, by simpa using hlength⟩
    · rename_i hopen
      exact ⟨hlast window rfl, by linarith [not_le.mp hopen]⟩

theorem current_apart {window : Window τ} {now : τ} :
    ApartBy length window.started (current length now (some window)).started := by
  rw [current_some]
  split
  · rename_i hover
    exact .inr (by linarith)
  · exact .inl rfl

omit [IsStrictOrderedRing τ] in
/-- A window that was there keeps its count. -/
theorem current_count (hlength : 0 < length) (last : Option (Window τ)) (now : τ) :
    (current length now last).count = held (current length now last).started last := by
  cases last with
  | none => rfl
  | some window =>
    rw [current_some]
    split
    · rename_i hover
      have hne : window.started ≠ now := fun h => by rw [h, sub_self] at hover; exact absurd hlength (not_lt.mpr hover)
      exact (if_neg hne).symm
    · exact (if_pos rfl).symm

/-! ## Any calls, in the order of time -/

theorem ApartBy.trans (hlength : 0 < length) {a b c : τ} (hab : ApartBy length a b) (hbc : ApartBy length b c) :
    ApartBy length a c := by
  rcases hab with rfl | hab
  · exact hbc
  · rcases hbc with rfl | hbc
    · exact .inr hab
    · exact .inr (by linarith)

/-- The clock has not gone back behind the last window. -/
theorem serve_clock (hlength : 0 < length) (hlimit : 0 < limit) {last : Option (Window τ)} {now : τ}
    (hlast : ∀ window ∈ last, window.started ≤ now) :
    ∀ window ∈ (serve limit length last now).2, window.started ≤ now := by
  intro window hw
  rw [serve_last hlimit] at hw
  cases hw
  exact (current_within hlength hlast).1

theorem serveAll_within (hlength : 0 < length) (hlimit : 0 < limit) {times : List τ} :
    ∀ {last : Option (Window τ)}, times.Pairwise (· ≤ ·) → (∀ now ∈ times, ∀ window ∈ last, window.started ≤ now) →
      ∀ call ∈ serveAll limit length last times, call.started ≤ call.now ∧ call.now < call.started + length := by
  induction times with
  | nil => intro _ _ _ call hcall; cases hcall
  | cons now later ih =>
    intro last hclock hlast call hcall
    obtain ⟨hnext, hclock⟩ := List.pairwise_cons.mp hclock
    have hhere := hlast now List.mem_cons_self
    rcases List.mem_cons.mp hcall with rfl | hcall
    · rw [serve_now, serve_started]
      exact current_within hlength hhere
    · exact ih hclock (fun t ht window hw => (serve_clock hlength hlimit hhere window hw).trans (hnext t ht)) call hcall

/-- Every later window is the last one or starts a length after it. -/
theorem serveAll_after (hlength : 0 < length) (hlimit : 0 < limit) {times : List τ} :
    ∀ {last : Option (Window τ)} {window : Window τ}, last = some window →
      ∀ call ∈ serveAll limit length last times, ApartBy length window.started call.started := by
  induction times with
  | nil => intro _ _ _ call hcall; cases hcall
  | cons now later ih =>
    intro last window hlast call hcall
    subst hlast
    rcases List.mem_cons.mp hcall with rfl | hcall
    · rw [serve_started]
      exact current_apart
    · exact current_apart.trans hlength (ih (serve_last hlimit _ _) call hcall)

theorem serveAll_apart (hlength : 0 < length) (hlimit : 0 < limit) {times : List τ} :
    ∀ {last : Option (Window τ)},
      (serveAll limit length last times).Pairwise fun a b => ApartBy length a.started b.started := by
  induction times with
  | nil => intro _; exact .nil
  | cons now later ih =>
    intro last
    refine List.pairwise_cons.mpr ⟨fun call hcall => ?_, ih⟩
    rw [serve_started]
    exact serveAll_after hlength hlimit (serve_last hlimit _ _) call hcall

/-- A window that is over allows no more. -/
theorem granted_eq_zero (hlength : 0 < length) (hlimit : 0 < limit) {last : Option (Window τ)} {window : Window τ}
    {started : τ} {times : List τ} (hlast : last = some window) (h : started + length ≤ window.started) :
    granted started (serveAll limit length last times) = 0 := by
  refine List.countP_eq_zero.mpr fun call hcall hgranted => ?_
  simp only [Bool.and_eq_true, beq_iff_eq] at hgranted
  rcases serveAll_after hlength hlimit hlast call hcall with heq | hle
  · linarith [hgranted.2]
  · linarith [hgranted.2]

omit [IsStrictOrderedRing τ] in
theorem held_serve (hlength : 0 < length) (hlimit : 0 < limit) (last : Option (Window τ)) (now started : τ) :
    held started (serve limit length last now).2 = if (current length now last).started = started then
      held started last + (if (serve limit length last now).1.allowed then 1 else 0) else 0 := by
  rw [serve_last hlimit]
  by_cases h : (current length now last).started = started
  · rw [if_pos h, current_count hlength, h]
    exact if_pos rfl
  · rw [if_neg h]
    exact if_neg h

theorem serveAll_granted_le (hlength : 0 < length) (hlimit : 0 < limit) (started : τ) {times : List τ} :
    ∀ {last : Option (Window τ)}, held started last ≤ limit →
      held started last + granted started (serveAll limit length last times) ≤ limit := by
  induction times with
  | nil => intro last h; exact h
  | cons now later ih =>
    intro last h
    rw [serveAll, granted_cons, serve_started]
    have hheld := held_serve hlength hlimit last now started
    by_cases he : (current length now last).started = started
    · rw [if_pos he] at hheld
      rw [if_pos he]
      have hle : held started (serve limit length last now).2 ≤ limit := by
        rw [hheld]
        cases ha : (serve limit length last now).1.allowed with
        | false => simpa using h
        | true =>
          have hroom := (serve_allowed last now).mp ha
          rw [current_count hlength, he] at hroom
          simpa using Nat.succ_le_of_lt hroom
      have := ih hle
      omega
    · rw [if_neg he] at hheld
      rw [if_neg he]
      have hrest := ih (hheld.trans_le (Nat.zero_le limit))
      by_cases hzero : held started last = 0
      · omega
      -- The last window is the one counted: the call's window is a later one.
      · cases last with
        | none => exact absurd rfl hzero
        | some window =>
          have hw : window.started = started := by
            apply Classical.byContradiction
            intro hne
            exact hzero (if_neg hne)
          have hover : started + length ≤ (current length now (some window)).started := by
            have hapart : ApartBy length window.started (current length now (some window)).started := current_apart
            rcases hapart with heq | hle
            · exact absurd (heq.symm.trans hw) he
            · rwa [hw] at hle
          have hnone : granted started (serveAll limit length (serve limit length (some window) now).2 later) = 0 :=
            granted_eq_zero hlength hlimit (serve_last hlimit _ _) hover
          omega

omit [IsStrictOrderedRing τ] in
theorem serveAll_refused (hlength : 0 < length) (hlimit : 0 < limit) {call : Served τ} {after : List (Served τ)}
    {before : List (Served τ)} : ∀ {times : List τ} {last : Option (Window τ)},
      serveAll limit length last times = before ++ call :: after → call.allowed = false →
        limit ≤ held call.started last + granted call.started before := by
  induction before with
  | nil =>
    intro times last h hrefused
    cases times with
    | nil => cases h
    | cons now later =>
      obtain ⟨hcall, -⟩ := List.cons.inj h
      have hfull : limit ≤ (current length now last).count := by
        apply not_lt.mp
        intro hroom
        rw [← serve_allowed, hcall, hrefused] at hroom
        cases hroom
      rw [current_count hlength, ← serve_started, hcall] at hfull
      exact hfull
  | cons first before ih =>
    intro times last h hrefused
    cases times with
    | nil => cases h
    | cons now later =>
      obtain ⟨hfirst, hrest⟩ := List.cons.inj h
      have hfull := ih hrest hrefused
      rw [held_serve hlength hlimit] at hfull
      rw [granted_cons, ← hfirst, serve_started]
      split at hfull
      · rename_i he
        rw [if_pos he]
        omega
      · omega

/-! ## Intervals of the windows' length -/

/-- Windows that are apart and start in an interval of twice their length: they are two. -/
theorem length_le_two (lower : τ) {l : List (Served τ)}
    (hstarts : ∀ call ∈ l, lower - length < call.started ∧ call.started < lower + length)
    (hapart : l.Pairwise fun a b => ApartBy length a.started b.started)
    (hle : ∀ started, (l.countP fun call => call.started == started) ≤ limit) : l.length ≤ 2 * limit := by
  cases l with
  | nil => exact Nat.zero_le _
  | cons first rest =>
    obtain ⟨hnext, hrest⟩ := List.pairwise_cons.mp hapart
    obtain ⟨hfirst, -⟩ := hstarts first List.mem_cons_self
    have hsplit := List.length_eq_countP_add_countP (fun call => call.started == first.started) (l := first :: rest)
    have hone := hle first.started
    -- The calls of the other windows are all after the first call, in one window.
    have hother : (first :: rest).countP (fun call => !(call.started == first.started)) ≤ limit := by
      rw [List.countP_eq_length_filter, List.filter_cons_of_neg (by simp)]
      cases hothers : rest.filter (fun call => !(call.started == first.started)) with
      | nil => exact Nat.zero_le _
      | cons second others =>
        have hlate : ∀ call ∈ second :: others, call ∈ rest ∧ first.started + length ≤ call.started := by
          intro call hcall
          rw [← hothers, List.mem_filter] at hcall
          obtain ⟨hmem, hne⟩ := hcall
          refine ⟨hmem, (hnext call hmem).resolve_left fun heq => ?_⟩
          simp [heq] at hne
        have hpair : (second :: others).Pairwise fun a b => ApartBy length a.started b.started := by
          rw [← hothers]
          exact hrest.filter _
        obtain ⟨hsecond, -⟩ := List.pairwise_cons.mp hpair
        have hsame : ∀ call ∈ second :: others, call.started = second.started := by
          intro call hcall
          rcases List.mem_cons.mp hcall with rfl | hmem
          · rfl
          · rcases hsecond call hmem with heq | hge
            · exact heq.symm
            · have hend := (hstarts call (List.mem_cons_of_mem _ (hlate call hcall).1)).2
              have hstart := (hlate second List.mem_cons_self).2
              linarith
        calc (second :: others).length
            = (second :: others).countP fun call => call.started == second.started :=
              (List.countP_eq_length.mpr fun call hcall => by simp [hsame call hcall]).symm
          _ ≤ (first :: rest).countP fun call => call.started == second.started :=
              List.Sublist.countP_le ((hothers ▸ List.filter_sublist).cons first)
          _ ≤ limit := hle second.started
    simp only [decide_not, Bool.decide_eq_true] at hsplit hother
    omega

/-- Calls that fall in their windows, the windows apart: an interval meets two of them. -/
theorem allowed_in_interval_le {l : List (Served τ)} (lower : τ)
    (hwithin : ∀ call ∈ l, call.started ≤ call.now ∧ call.now < call.started + length)
    (hapart : l.Pairwise fun a b => ApartBy length a.started b.started) (hle : ∀ started, granted started l ≤ limit) :
    allowedWithin lower (lower + length) l ≤ 2 * limit := by
  unfold allowedWithin
  rw [List.countP_eq_length_filter]
  refine length_le_two lower (fun call hcall => ?_) (hapart.filter _) fun started => ?_
  · obtain ⟨hmem, hin⟩ := List.mem_filter.mp hcall
    simp only [Bool.and_eq_true, decide_eq_true_eq] at hin
    obtain ⟨hstarted, hopen⟩ := hwithin call hmem
    exact ⟨by linarith [hin.2.1], by linarith [hin.2.2]⟩
  · refine le_trans ?_ (hle started)
    unfold granted
    rw [List.countP_filter]
    refine List.countP_mono_left fun call _ h => ?_
    simp only [Bool.and_eq_true] at h ⊢
    exact ⟨h.2.1, h.1⟩

end

end WorkforceRisk.Lib.FixedWindow
