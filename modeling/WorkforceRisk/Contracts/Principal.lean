/-
  WorkforceRisk.Contracts.Principal — who a request comes from
  (packages/contracts/src/workforce_contracts/auth.py: `AuthenticatedPrincipal`;
  services/agent-api/src/agent_api/security/environment.py).
-/

import WorkforceRisk.Contracts.Auth
import WorkforceRisk.Scans.Service

namespace WorkforceRisk.Contracts

open Persistence Scans

/-- A principal with all its fields. -/
structure IdentifiedPrincipal extends AuthenticatedPrincipal where
  actorId : String
  displayLabel : String
  environment : Environment

def ApplicationRole.value : ApplicationRole → String
  | .viewer => "viewer"
  | .manager => "manager"
  | .administrator => "administrator"

/-- The role, and the environment, of a text. -/
def roleOf (value : String) : Option ApplicationRole :=
  if value = "viewer" then some .viewer
  else if value = "manager" then some .manager
  else if value = "administrator" then some .administrator
  else none

def environmentOf (value : String) : Option Environment :=
  if value = "dev" then some .dev
  else if value = "prod" then some .prod
  else if value = "test" then some .test
  else none

theorem roleOf_value (role : ApplicationRole) : roleOf role.value = some role := by
  cases role with
  | viewer => rfl
  | manager => rfl
  | administrator => rfl

theorem environmentOf_value (environment : Environment) : environmentOf environment.value = some environment := by
  cases environment with
  | dev => rfl
  | prod => rfl
  | test => rfl

/-- `configured` is the variable JIRA_PROJECT_KEY. -/
def enforceProjectScope (configured : Option String) (projectKey : String) (principal : AuthenticatedPrincipal) :
    Except RouteError Unit :=
  if projectKey ≠ configured.getD "WRD" ∨ projectKey ∉ principal.projectScopes then
    .error (.http 403 "project scope is not authorized")
  else .ok ()

end WorkforceRisk.Contracts
