/-
  WorkforceRisk.Alerts.Rules — where a risk is shown, and when it is told again
  (domain/workforce_risk/alerts/rules.py, state.py).
-/

import WorkforceRisk.Risk.Models

namespace WorkforceRisk.Alerts

open Persistence Risk

inductive AlertState where
  | new
  | acknowledged
  | investigating
  | resolved
  | dismissed
  deriving DecidableEq, Repr

def AlertState.value : AlertState → String
  | new => "new"
  | acknowledged => "acknowledged"
  | investigating => "investigating"
  | resolved => "resolved"
  | dismissed => "dismissed"

/-- The states a manager still has to deal with. -/
def AlertState.isActive : AlertState → Bool
  | new | acknowledged | investigating => true
  | resolved | dismissed => false

/-- `ALLOWED_TRANSITIONS`. -/
def AlertState.allowedTransitions : AlertState → List AlertState
  | new => [acknowledged, investigating, resolved, dismissed]
  | acknowledged => [investigating, resolved, dismissed]
  | investigating => [resolved, dismissed]
  | resolved => [new]
  | dismissed => [new]

def validateTransition (current target : AlertState) (dismissalReason : Option String) : Except Error Unit :=
  if target ∉ current.allowedTransitions then
    .error (.valueError ("illegal alert transition: " ++ current.value ++ " -> " ++ target.value))
  else if target = .dismissed ∧ (dismissalReason = none ∨ dismissalReason = some "") then
    .error (.valueError "dismissal requires a reason")
  else .ok ()

structure AlertRouting where
  createInboxAlert : Bool
  sendEmail : Bool
  prominent : Bool
  deriving DecidableEq, Repr

def routeRisk : Option RiskLevel → AlertRouting
  | some .critical => ⟨true, true, true⟩
  | some .high => ⟨true, true, false⟩
  | some .medium => ⟨true, false, false⟩
  | some .low | none => ⟨false, false, false⟩

def alertDedupKey [Sha256] (subjectId riskType scoringWindow : String) : String :=
  Sha256.text (subjectId ++ ":" ++ riskType ++ ":" ++ scoringWindow)

def rank : RiskLevel → Nat
  | .low => 1
  | .medium => 2
  | .high => 3
  | .critical => 4

def shouldNotify (previousLevel : Option RiskLevel) (currentLevel : RiskLevel) (lastNotifiedAt : Option DateTime)
    (now : DateTime) (cooldown : Duration) (importantNewEvidence : Bool) : Bool :=
  if !(routeRisk (some currentLevel)).sendEmail then false
  else if previousLevel.all fun previous => rank previous < rank currentLevel then true
  else if importantNewEvidence then true
  else lastNotifiedAt.all fun last => cooldown ≤ now - last

/-- What is sent is high or critical. -/
theorem sent_iff {level : RiskLevel} :
    (routeRisk (some level)).sendEmail = true ↔ level = .high ∨ level = .critical := by
  cases level <;> simp [routeRisk]

/-- Above low, a notification is of a level that is sent; after an earlier one it is of a
    higher level, or of important evidence, or the cooldown has passed. -/
theorem shouldNotify_iff {previousLevel : Option RiskLevel} {currentLevel : RiskLevel} {lastNotifiedAt : Option DateTime}
    {now : DateTime} {cooldown : Duration} {importantNewEvidence : Bool} :
    shouldNotify previousLevel currentLevel lastNotifiedAt now cooldown importantNewEvidence = true ↔
      (currentLevel = .high ∨ currentLevel = .critical) ∧
        ((∀ previous, previousLevel = some previous → rank previous < rank currentLevel) ∨
          importantNewEvidence = true ∨ ∀ last, lastNotifiedAt = some last → cooldown ≤ now - last) := by
  rw [← sent_iff]
  unfold shouldNotify
  cases hs : (routeRisk (some currentLevel)).sendEmail with
  | false => simp
  | true =>
    cases previousLevel <;> cases lastNotifiedAt <;> cases importantNewEvidence <;> simp

/-- What reaches the inbox is what is above low. -/
theorem routed_iff {level : RiskLevel} : (routeRisk (some level)).createInboxAlert = true ↔ level ≠ .low := by
  cases level <;> simp [routeRisk]

end WorkforceRisk.Alerts
