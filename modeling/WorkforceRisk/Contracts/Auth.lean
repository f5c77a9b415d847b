/-
  WorkforceRisk.Contracts.Auth — the signed context of an internal call
  (packages/contracts/src/workforce_contracts/auth.py).

  Encoding and signature are left to `Contracts.Token`: `signed` is the context a token
  carries when its signature is the service's, and `none` for any other token. What is
  modelled here is what `verify` then checks of it.
-/

import WorkforceRisk.Persistence.Values

namespace WorkforceRisk.Contracts

open Persistence

inductive ApplicationRole where
  | viewer
  | manager
  | administrator
  deriving DecidableEq, Repr

/-- Of who a request comes from, what the routes read. -/
structure AuthenticatedPrincipal where
  role : ApplicationRole
  projectScopes : List String

structure VerifiedInternalContext where
  actorId : String
  role : ApplicationRole
  environment : Environment
  projectScopes : List String
  correlationId : String
  expiresAt : DateTime

def verify (signed : Option VerifiedInternalContext) (expectedEnvironment : Environment) (requiredProject : String)
    (requiredRoles : List ApplicationRole) (now : DateTime) : Except Error VerifiedInternalContext :=
  match signed with
  | none => .error (.permissionError "invalid internal context signature")
  | some context =>
    if context.expiresAt ≤ now then .error (.permissionError "internal context is expired")
    else if context.environment ≠ expectedEnvironment then
      .error (.permissionError "internal context environment mismatch")
    else if requiredProject ∉ context.projectScopes then
      .error (.permissionError "internal context project mismatch")
    else if context.role ∉ requiredRoles then .error (.permissionError "internal context role mismatch")
    else .ok context

/-- A context that is accepted holds all that was asked of it. -/
theorem verify_ok {signed : Option VerifiedInternalContext} {expectedEnvironment : Environment}
    {requiredProject : String}
    {requiredRoles : List ApplicationRole} {now : DateTime} {context : VerifiedInternalContext} :
    verify signed expectedEnvironment requiredProject requiredRoles now = .ok context ↔
      signed = some context ∧ now < context.expiresAt ∧ context.environment = expectedEnvironment ∧
        requiredProject ∈ context.projectScopes ∧ context.role ∈ requiredRoles := by
  unfold verify
  grind

end WorkforceRisk.Contracts
