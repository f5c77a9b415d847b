/-
  WorkforceRisk.Security.Limits — the in-process rate limiter
  (services/agent-api/src/agent_api/security/limits.py).

  `allow` counts a key's calls in windows of its policy's length; a window starts at the
  first call after the one before it is over. Once more than ten thousand keys have
  windows, every call first deletes those that started sixty seconds ago or earlier,
  whatever their policy. Every policy's window is sixty seconds long, so a purge deletes
  only windows that are over (`policy_window`).

  Proved: what a key is answered in a run is what a counter of that key alone answers,
  which never forgets (`own_run`). The bounds for any run, any keys and any number of
  purges (`rate_limits_hold`) follow from those of the counter.
-/

import WorkforceRisk.Lib.Dict
import WorkforceRisk.Lib.FixedWindow
import Mathlib.Data.Rat.Lemmas
import Mathlib.Algebra.Order.Ring.Rat

namespace WorkforceRisk.Security

open Lib Lib.FixedWindow

structure RouteLimit where
  requests : Nat
  windowSeconds : Nat
  maxBodyBytes : Nat

inductive RouteGroup where
  | investigations
  | scans
  | simulations
  | proposals
  | reports
  | default

/-- `POLICIES`. -/
def policies : RouteGroup → RouteLimit
  | .investigations => ⟨20, 60, 16384⟩
  | .scans => ⟨3, 60, 8192⟩
  | .simulations => ⟨20, 60, 16384⟩
  | .proposals => ⟨10, 60, 16384⟩
  | .reports => ⟨30, 60, 4096⟩
  | .default => ⟨120, 60, 65536⟩

/-- `_windows`. -/
abbrev Windows := Dict String (Window Rat)

/-- The windows left when a call comes in. -/
def purge (windows : Windows) (now : Rat) : Windows :=
  if 10000 < windows.length then windows.keep fun _ window => decide (now - window.started < 60) else windows

/-- `InMemoryRateLimiter.allow`, with the start of the window the call fell in. -/
def allow (windows : Windows) (key : String) (policy : RouteLimit) (now : Rat) : Served Rat × Windows :=
  let windows := purge windows now
  let window := (windows.get? key).getD ⟨now, 0⟩
  let window := if policy.windowSeconds ≤ now - window.started then ⟨now, 0⟩ else window
  if policy.requests ≤ window.count then (⟨now, window.started, false⟩, windows)
  else (⟨now, window.started, true⟩, windows.set key ⟨window.started, window.count + 1⟩)

structure Call where
  key : String
  now : Rat

/-- A run of the limiter: each call with how it was served. -/
def run (group : String → RouteGroup) : Windows → List Call → List (String × Served Rat)
  | _, [] => []
  | windows, call :: calls =>
    (call.key, (allow windows call.key (policies (group call.key)) call.now).1) ::
      run group (allow windows call.key (policies (group call.key)) call.now).2 calls

/-- What a key was answered in a run. -/
def own (key : String) (served : List (String × Served Rat)) : List (Served Rat) :=
  (served.filter fun call => call.1 == key).map Prod.snd

/-- When a key was used. -/
def times (key : String) (calls : List Call) : List Rat := (calls.filter fun call => call.key == key).map Call.now

/-! ## Purging -/

theorem policy_window (group : RouteGroup) : ((policies group).windowSeconds : Rat) = 60 := by
  cases group <;> norm_num [policies]

theorem policy_requests (group : RouteGroup) : 0 < (policies group).requests := by cases group <;> decide

/-- A key's window as the limiter has it: the last one, or none where that one is over. -/
def Remembers (now : Rat) (remembered last : Option (Window Rat)) : Prop :=
  remembered = last ∨ remembered = none ∧ ∃ window, last = some window ∧ 60 ≤ now - window.started

theorem Remembers.later {now later : Rat} {remembered last : Option (Window Rat)} (h : Remembers now remembered last)
    (hle : now ≤ later) : Remembers later remembered last := by
  rcases h with rfl | h
  · exact .inl rfl
  · obtain ⟨hnone, window, hlast, hover⟩ := h
    exact .inr ⟨hnone, window, hlast, by linarith⟩

theorem Remembers.purge {now : Rat} {windows : Windows} {key : String} {last : Option (Window Rat)}
    (h : Remembers now (windows.get? key) last) : Remembers now ((purge windows now).get? key) last := by
  unfold Security.purge
  split
  · rw [Dict.get?_keep]
    rcases h with rfl | h
    · cases hw : windows.get? key with
      | none => exact .inl rfl
      | some window =>
        rw [Option.filter_some]
        split
        · exact .inl rfl
        · rename_i hold
          exact .inr ⟨rfl, window, rfl, by simpa using hold⟩
    · rw [h.1]
      exact .inr ⟨rfl, h.2⟩
  · exact h

/-- A window that is over counts as none. -/
theorem Remembers.current {now : Rat} {remembered last : Option (Window Rat)} (h : Remembers now remembered last) :
    current 60 now remembered = current 60 now last := by
  rcases h with rfl | h
  · rfl
  · obtain ⟨rfl, window, rfl, hover⟩ := h
    rw [current_some, if_pos hover]
    rfl

/-! ## The answers of one key -/

theorem getD_current {length now : Rat} (window : Option (Window Rat)) :
    (if length ≤ now - (window.getD ⟨now, 0⟩).started then ⟨now, 0⟩ else window.getD ⟨now, 0⟩) =
      current length now window := by
  cases window with
  | none =>
    simp only [Option.getD_none, ite_self]
    rfl
  | some window => rfl

/-- A call as its own key's counter sees it. -/
theorem allow_served {windows : Windows} {key : String} (group : RouteGroup) {now : Rat}
    {last : Option (Window Rat)} (h : Remembers now (windows.get? key) last) :
    (allow windows key (policies group) now).1 = (serve (policies group).requests 60 last now).1 ∧
      Remembers now ((allow windows key (policies group) now).2.get? key)
        (serve (policies group).requests 60 last now).2 := by
  have hw := h.purge.current
  rw [← getD_current] at hw
  unfold allow
  dsimp only
  rw [policy_window, hw]
  by_cases hfull : (policies group).requests ≤ (FixedWindow.current 60 now last).count
  · rw [if_pos hfull, serve_of_full hfull]
    exact ⟨rfl, h.purge⟩
  · rw [if_neg hfull, serve_of_room hfull]
    exact ⟨rfl, .inl (Dict.get?_set_self _ _ _)⟩

/-- Beyond the purge a call changes its own key's window only. -/
theorem allow_windows (windows : Windows) (key : String) (policy : RouteLimit) (now : Rat) :
    (allow windows key policy now).2 = Security.purge windows now ∨
      ∃ window, (allow windows key policy now).2 = (Security.purge windows now).set key window := by
  unfold allow
  extract_lets purged window counted
  by_cases h : policy.requests ≤ counted.count
  · exact .inl (congrArg Prod.snd (if_pos h))
  · exact .inr ⟨⟨counted.started, counted.count + 1⟩, congrArg Prod.snd (if_neg h)⟩

/-- A call of another key leaves the key's window, or forgets it once it is over. -/
theorem allow_other {windows : Windows} {key other : String} (policy : RouteLimit) {now : Rat}
    {last : Option (Window Rat)} (hne : other ≠ key) (h : Remembers now (windows.get? key) last) :
    Remembers now ((allow windows other policy now).2.get? key) last := by
  rcases allow_windows windows other policy now with hw | hw
  · rw [hw]
    exact h.purge
  · obtain ⟨window, hw⟩ := hw
    rw [hw, Dict.get?_set_ne _ _ hne]
    exact h.purge

theorem own_cons_self (key : String) (call : Served Rat) (rest : List (String × Served Rat)) :
    own key ((key, call) :: rest) = call :: own key rest := by
  rw [own, List.filter_cons_of_pos (by simp)]
  rfl

theorem own_cons_ne {key other : String} (call : Served Rat) (rest : List (String × Served Rat)) (h : other ≠ key) :
    own key ((other, call) :: rest) = own key rest := by
  rw [own, List.filter_cons_of_neg (by simpa using h)]
  rfl

theorem times_cons_self (call : Call) (calls : List Call) :
    times call.key (call :: calls) = call.now :: times call.key calls := by
  rw [times, List.filter_cons_of_pos (by simp)]
  rfl

theorem times_cons_ne {key : String} {call : Call} (calls : List Call) (h : call.key ≠ key) :
    times key (call :: calls) = times key calls := by
  rw [times, List.filter_cons_of_neg (by simpa using h)]
  rfl

theorem own_run_from (group : String → RouteGroup) (key : String) {calls : List Call} :
    ∀ {windows : Windows} {last : Option (Window Rat)}, calls.Pairwise (fun a b => a.now ≤ b.now) →
      (∀ call ∈ calls, Remembers call.now (windows.get? key) last) →
        own key (run group windows calls) = serveAll (policies (group key)).requests 60 last (times key calls) := by
  induction calls with
  | nil => intro _ _ _ _; rfl
  | cons call calls ih =>
    intro windows last hclock h
    obtain ⟨hnext, hclock⟩ := List.pairwise_cons.mp hclock
    have hhere := h call List.mem_cons_self
    by_cases hk : call.key = key
    · subst hk
      obtain ⟨hserved, hlast⟩ := allow_served (group call.key) hhere
      rw [run, own_cons_self, times_cons_self, serveAll, hserved]
      exact congrArg (_ :: ·) (ih hclock fun later hlater => hlast.later (hnext later hlater))
    · rw [run, own_cons_ne _ _ hk, times_cons_ne calls hk]
      exact ih hclock fun later hlater => (allow_other _ hk hhere).later (hnext later hlater)

theorem own_run (group : String → RouteGroup) (key : String) {calls : List Call}
    (hclock : calls.Pairwise fun a b => a.now ≤ b.now) :
    own key (run group Dict.empty calls) = serveAll (policies (group key)).requests 60 none (times key calls) :=
  own_run_from group key hclock fun _ _ => .inl rfl

/-! ## The bounds -/

/-- What a key is allowed in one of its windows, in any interval of a window's length and
    whatever is purged, and when it is refused. -/
theorem rate_limits_hold (group : String → RouteGroup) (calls : List Call)
    (hclock : calls.Pairwise fun a b => a.now ≤ b.now) (key : String) :
    (∀ started, granted started (own key (run group Dict.empty calls)) ≤ (policies (group key)).requests) ∧
    (∀ lower : Rat, allowedWithin lower (lower + (policies (group key)).windowSeconds)
      (own key (run group Dict.empty calls)) ≤ 2 * (policies (group key)).requests) ∧
    own key (run group Dict.empty calls) =
      serveAll (policies (group key)).requests ((policies (group key)).windowSeconds : Rat) none (times key calls) ∧
    ∀ before call after, own key (run group Dict.empty calls) = before ++ call :: after → call.allowed = false →
      granted call.started before = (policies (group key)).requests := by
  have hlength : (0 : Rat) < 60 := by norm_num
  have hlimit := policy_requests (group key)
  have hown := own_run group key hclock
  have hclock' : (times key calls).Pairwise (· ≤ ·) := List.pairwise_map.mpr (hclock.filter _)
  have hle : ∀ started, granted started (own key (run group Dict.empty calls)) ≤ (policies (group key)).requests := by
    intro started
    have h : held started none + granted started (serveAll (policies (group key)).requests 60 none (times key calls)) ≤
        (policies (group key)).requests := serveAll_granted_le hlength hlimit started (Nat.zero_le _)
    rw [hown]
    omega
  refine ⟨hle, fun lower => ?_, by rw [policy_window]; exact hown, fun before call after h hrefused => ?_⟩
  · rw [policy_window]
    refine allowed_in_interval_le lower ?_ ?_ hle
    · rw [hown]
      exact serveAll_within hlength hlimit hclock' fun _ _ _ hw => (nomatch hw)
    · rw [hown]
      exact serveAll_apart hlength hlimit
  · have hfull := serveAll_refused hlength hlimit (hown ▸ h) hrefused
    have hwhole := hle call.started
    rw [h] at hwhole
    unfold granted at hwhole hfull ⊢
    rw [List.countP_append] at hwhole
    rw [show held call.started (none : Option (Window Rat)) = 0 from rfl] at hfull
    omega

/-- Five scans by one key, the last of them a minute after the first. -/
def burst : List Call := [0, 1, 2, 3, 60].map fun now => ⟨"scans:POST:a", now⟩

theorem rate_limits_hold_burst : burst.Pairwise (fun a b => a.now ≤ b.now) ∧
    granted 0 (own "scans:POST:a" (run (fun _ => .scans) Dict.empty burst)) ≤ 3 ∧
    allowedWithin 2 (2 + 60) (own "scans:POST:a" (run (fun _ => .scans) Dict.empty burst)) ≤ 6 := by
  have hclock : burst.Pairwise fun a b => a.now ≤ b.now := by
    rw [burst, List.pairwise_map]
    norm_num
  obtain ⟨hwindow, hinterval, -⟩ := rate_limits_hold (fun _ => .scans) burst hclock "scans:POST:a"
  exact ⟨hclock, hwindow 0, hinterval 2⟩

end WorkforceRisk.Security
