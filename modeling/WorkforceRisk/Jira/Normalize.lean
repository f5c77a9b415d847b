/-
  WorkforceRisk.Jira.Normalize — Jira's answers as evidence
  (packages/jira-mcp-client/src/jira_mcp_client/normalize.py).

  An issue is read in stages, in the order in which the code raises: the envelope and what
  the issue is about (`readIssue`), its labels, the arguments that the code works out
  (`planOf`), the texts of people (`untrustedOf`), and last what pydantic checks
  (`validated`). A search reads its issues one by one, each in an envelope of its own.

  Pydantic's readers of a number, a truth value and a date, and `datetime.fromisoformat`,
  are parameters (`Validation`), and so is how deep `json.dumps` may go.
-/

import WorkforceRisk.Jira.Evidence
import WorkforceRisk.Jira.Labels
import WorkforceRisk.Lib.PyValue

namespace WorkforceRisk.Jira

open Lib Persistence Historical Evidence Profiles
open PyValue (Object get)

inductive IsoDatetime where
  | aware (t : AwareDatetime)
  | naive (wall : DateTime)

class Validation where
  integer : PyValue → Except String Int
  boolean : PyValue → Except String Bool
  date : PyValue → Except String Date
  awareDatetime : PyValue → Except String AwareDatetime
  /-- `datetime.fromisoformat`, with what its `ValueError` says. -/
  fromisoformat : String → Except String IsoDatetime
  /-- The lists and dicts that `json.dumps` enters before it raises a `RecursionError`. -/
  nesting : Nat

def validationError {α : Type} (field message : String) : Except Raised α :=
  .error (.error (.validationError field message))

def checked {α : Type} (field : String) : Except String α → Except Raised α
  | .ok a => .ok a
  | .error message => validationError field message

/-- `value | None`. -/
def optional {α : Type} (read : PyValue → Except Raised α) : PyValue → Except Raised (Option α)
  | .none => .ok none
  | value => (read value).map some

/-! ## The envelope -/

/-- A member of an answer: a value of JSON, or the time of an envelope read before. -/
inductive Member where
  | value (v : PyValue)
  | datetime (t : AwareDatetime)

abbrev Response := List (String × Member)

inductive Status where
  | success
  | error
  deriving DecidableEq

def Status.value : Status → String
  | .success => "success"
  | .error => "error"

structure JiraMcpEnvelope where
  environment : Environment
  correlationId : String
  evidenceTimestamp : AwareDatetime
  status : Status
  data : Option Object
  error : Option String
  correlationId_ok : correlationId ≠ ""
  success_ok : status = .success → data ≠ none
  error_ok : status = .error → error ≠ none ∧ error ≠ some ""

namespace JiraMcpEnvelope

def fields : List String :=
  ["schema_version", "environment", "correlation_id", "evidence_timestamp", "status", "data", "error"]

def required {α : Type} (raw : Response) (field : String) (read : Member → Except Raised α) : Except Raised α :=
  match raw.lookup field with
  | some member => read member
  | none => validationError field "Field required"

def textField (field : String) : Member → Except Raised String
  | .value (.str s) => .ok s
  | _ => validationError field "Input should be a valid string"

/-- `Literal[…]`, of what the texts stand for. -/
def literalField {α : Type} (field : String) (options : List (String × α)) : Member → Except Raised α
  | .value (.str s) => match options.lookup s with
    | some a => .ok a
    | none => validationError field "Input is not one of the permitted values"
  | _ => validationError field "Input is not one of the permitted values"

def dataField : Member → Except Raised (Option Object)
  | .value .none => .ok none
  | .value (.dict members) => .ok (some members)
  | _ => validationError "data" "Input should be a valid dictionary"

def errorField : Member → Except Raised (Option String)
  | .value .none => .ok none
  | member => (textField "error" member).map some

def environments : List (String × Environment) := [Environment.dev, .prod, .test].map fun e => (e.value, e)

def statuses : List (String × Status) := [Status.success, .error].map fun s => (s.value, s)

section
variable [Validation]

def timeField (field : String) : Member → Except Raised AwareDatetime
  | .value v => checked field (Validation.awareDatetime v)
  | .datetime t => .ok t

/-- `JiraMcpEnvelope.model_validate(raw)`. -/
def modelValidate (raw : Response) : Except Raised JiraMcpEnvelope := do
  let _ ← required raw "schema_version" (literalField "schema_version" [("1.0", ())])
  let environment ← required raw "environment" (literalField "environment" environments)
  let correlationId ← required raw "correlation_id" (textField "correlation_id")
  let evidenceTimestamp ← required raw "evidence_timestamp" (timeField "evidence_timestamp")
  let status ← required raw "status" (literalField "status" statuses)
  let data ← dataField ((raw.lookup "data").getD (.value .none))
  let error ← errorField ((raw.lookup "error").getD (.value .none))
  match raw.find? fun member => !fields.contains member.1 with
  | some extra => validationError extra.1 "Extra inputs are not permitted"
  | none =>
    if hcorrelation : correlationId = "" then
      validationError "correlation_id" "String should have at least 1 character"
    else if hdata : status = .success ∧ data = none then
      validationError "" "successful MCP response requires data"
    else if herror : status = .error ∧ (error = none ∨ error = some "") then
      validationError "" "failed MCP response requires an error"
    else
      return ⟨environment, correlationId, evidenceTimestamp, status, data, error, hcorrelation,
        fun h hnone => hdata ⟨h, hnone⟩, fun h => not_or.mp fun hempty => herror ⟨h, hempty⟩⟩

end

/-- The data of an answer to what was asked for. -/
def responseData (envelope : JiraMcpEnvelope) (expectedEnvironment expectedCorrelationId failed : String) :
    Except Raised Object :=
  if envelope.environment.value ≠ expectedEnvironment then normalizationError "MCP response environment mismatch"
  else if envelope.correlationId ≠ expectedCorrelationId then
    normalizationError "MCP response correlation ID mismatch"
  else match envelope.status, envelope.data with
    | .success, some data => .ok data
    | _, _ => normalizationError ((envelope.error.filter (· ≠ "")).getD failed)

end JiraMcpEnvelope

/-! ## What an issue is about -/

/-- `_object`. -/
def asObject (label : String) : PyValue → Except Raised Object
  | .dict members => .ok members
  | _ => normalizationError (label ++ " must be an object")

def textOf? : PyValue → Option String
  | .str s => some s
  | _ => none

def nonEmptyText (value : PyValue) : Option { s : String // s ≠ "" } :=
  (textOf? value).bind fun s => if h : s = "" then none else some ⟨s, h⟩

/-- `_named`. -/
def named (label : String) (value : PyValue) : Except Raised String :=
  (asObject label value).bind fun object => match nonEmptyText (get object "name") with
    | some name => .ok name.1
    | none => normalizationError (label ++ ".name must be a non-empty string")

structure IssueTexts where
  key : String
  summary : String
  updated : String

def issueTexts (issue fields : Object) : Except Raised IssueTexts :=
  match nonEmptyText (get issue "key"), nonEmptyText (get fields "summary"), nonEmptyText (get fields "updated") with
  | some key, some summary, some updated => .ok ⟨key.1, summary.1, updated.1⟩
  | _, _, _ => normalizationError "issue key, summary, and updated are required"

structure AccountRef extends JiraAccountRef where
  accountType : Option String
  active : Option Bool

/-- A custom field's value, which is no list and no dict. -/
structure CustomField where
  logicalName : String
  rawFieldId : String
  value : PyValue
  value_ok : value.isScalar = true

def customFieldOf (fields : Object) (name : String × String) : Except Raised CustomField :=
  match get fields name.2 with
  | .none => .ok ⟨name.1, name.2, .none, rfl⟩
  | value => (asObject name.2 value).bind fun raw => match raw.lookup "value" with
    | none => normalizationError (name.2 ++ " has an unsupported shape")
    | some v =>
      if h : v.isScalar = true then .ok ⟨name.1, name.2, v, h⟩
      else normalizationError (name.2 ++ " has an unsupported shape")

def labelTexts (fields : Object) : Except Raised (List String) :=
  match (fields.lookup "labels").getD (.list []) with
  | .list items => match items.mapM textOf? with
    | some labels => .ok labels
    | none => normalizationError "labels must be a list of strings"
  | _ => normalizationError "labels must be a list of strings"

section
variable [Validation]

/-- `JiraAccountRef(…)`; of a key that is missing and of a value that is wrong the code
    catches what is raised. -/
def accountRef (raw : Object) : Option AccountRef := do
  let accountId ← nonEmptyText (get raw "accountId")
  let displayName ← nonEmptyText (get raw "displayName")
  let accountType ← match get raw "accountType" with
    | .none => some none
    | value => (textOf? value).map some
  let active ← match get raw "active" with
    | .none => some none
    | value => (Validation.boolean value).toOption.map some
  return ⟨⟨accountId.1, displayName.1, accountId.2, displayName.2⟩, accountType, active⟩

def assigneeOf (fields : Object) : Except Raised (Option AccountRef) :=
  match get fields "assignee" with
  | .none => .ok none
  | value => (asObject "assignee" value).bind fun raw => match accountRef raw with
    | some account => .ok (some account)
    | none => normalizationError "assignee has an invalid shape"

structure IssueReading where
  envelope : JiraMcpEnvelope
  fields : Object
  texts : IssueTexts
  assignee : Option AccountRef
  customFields : List CustomField
  labels : List String

/-- An issue up to its labels. -/
def readIssue (raw : Response) (expectedEnvironment expectedCorrelationId : String)
    (customFields : List (String × String)) : Except Raised IssueReading := do
  let envelope ← JiraMcpEnvelope.modelValidate raw
  let issue ← envelope.responseData expectedEnvironment expectedCorrelationId "Jira MCP read failed"
  let fields ← asObject "issue fields" (get issue "fields")
  let texts ← issueTexts issue fields
  let assignee ← assigneeOf fields
  let custom ← customFields.mapM (customFieldOf fields)
  let labels ← labelTexts fields
  return ⟨envelope, fields, texts, assignee, custom, labels⟩

end

/-! ## What the code works out -/

def priorityOf (fields : Object) : Except Raised (Option String) :=
  if (get fields "priority").truthy then (named "priority" (get fields "priority")).map some else .ok none

def linkOf (raw : PyValue) : Except Raised JiraIssueLink := do
  let link ← asObject "issue link" raw
  let kind ← asObject "issue link type" (get link "type")
  let inward := (link.lookup "inwardIssue").isSome
  let target ← asObject "linked issue" (get link (if inward then "inwardIssue" else "outwardIssue"))
  match textOf? (get kind (if inward then "inward" else "outward")), textOf? (get target "key") with
  | some relationship, some key => .ok ⟨relationship, key⟩
  | _, _ => normalizationError "issue link requires relationship and key"

/-- `_links`. -/
def linksOf (fields : Object) : Except Raised (List JiraIssueLink) :=
  match (fields.lookup "issuelinks").getD (.list []) with
  | .list items => items.mapM linkOf
  | _ => normalizationError "issuelinks must be a list"

/-- `updated.replace("Z", "+00:00")`. -/
def withOffset (updated : String) : String :=
  String.ofList (updated.toList.flatMap fun c => if c = 'Z' then "+00:00".toList else [c])

def bodyOf : PyValue → Option PyValue
  | .dict comment => if (get comment "body").isNone then none else some (get comment "body")
  | _ => none

def commentsOf (fields : Object) : List PyValue :=
  match get fields "comment" with
  | .dict page => match (page.lookup "comments").getD (.list []) with
    | .list comments => comments.filterMap bodyOf
    | _ => []
  | _ => []

/-- What people wrote, by its field. -/
def sources (fields : Object) : List (String × PyValue) :=
  (if (get fields "description").isNone then [] else [("description", get fields "description")]) ++
    (commentsOf fields).map ("comment", ·)

structure UntrustedTextEvidence where
  sourceField : String
  text : String

structure ObservedRef extends EvidenceRef where
  observedAt : AwareDatetime

def fieldIds (customFields : List (String × String)) : List String :=
  ["summary", "status", "priority", "assignee", "duedate", "updated", "labels"] ++ customFields.map (·.2)

def referencesOf (reading : IssueReading) (customFields : List (String × String)) : List ObservedRef :=
  ((fieldIds customFields).filter fun fieldId => !(get reading.fields fieldId).isNone).map fun fieldId =>
    ⟨⟨reading.texts.key, fieldId⟩, reading.envelope.evidenceTimestamp⟩

structure Plan where
  status : String
  priority : Option String
  activityTimestamp : IsoDatetime
  links : List JiraIssueLink

section
variable [Validation]

def activityOf (updated : String) : Except Raised IsoDatetime :=
  match Validation.fromisoformat (withOffset updated) with
  | .ok t => .ok t
  | .error message => .error (.error (.valueError message))

def planOf (reading : IssueReading) : Except Raised Plan := do
  let status ← named "status" (get reading.fields "status")
  let priority ← priorityOf reading.fields
  let activityTimestamp ← activityOf reading.texts.updated
  let links ← linksOf reading.fields
  return ⟨status, priority, activityTimestamp, links⟩

/-- A text as it is, and all else as `json.dumps` writes it. -/
def textOf : PyValue → Except Raised String
  | .str s => .ok s
  | value => match value.dumps Validation.nesting with
    | .ok text => .ok (String.ofList text)
    | .error .tooDeep => .error (.error (.runtimeError "maximum recursion depth exceeded"))
    | .error .tooManyDigits => .error (.error (.valueError "Exceeds the limit for integer string conversion"))

/-- `_untrusted`. -/
def untrustedOf (fields : Object) : Except Raised (List UntrustedTextEvidence) :=
  (sources fields).mapM fun source => (textOf source.2).map fun text => ⟨source.1, text⟩

end

/-! ## What pydantic checks -/

/-- A `JiraIssueEvidence` with all of its fields. -/
structure NormalizedIssue where
  environment : Environment
  correlationId : String
  evidenceTimestamp : AwareDatetime
  key : String
  summary : String
  status : String
  priority : Option String
  assignee : Option AccountRef
  dueDate : Option Date
  originalEstimateSeconds : Option Int
  remainingEstimateSeconds : Option Int
  timeSpentSeconds : Option Int
  workforceEmployeeId : Option String
  difficulty : Option Int
  requiredSkills : List String
  structuredEvidenceComplete : Option Bool
  workloadProfile : Option String
  activityTimestamp : IsoDatetime
  links : List JiraIssueLink
  customFields : List CustomField
  evidenceReferences : List ObservedRef
  untrustedText : List UntrustedTextEvidence
  timeSpent_ok : timeSpentSeconds.all (fun seconds => decide (0 ≤ seconds)) = true
  workforceEmployeeId_ok : workforceEmployeeId.all (isKey 2) = true
  difficulty_ok : difficulty.all (fun level => decide (1 ≤ level ∧ level ≤ 5)) = true
  workloadProfile_ok : workloadProfile.all workloadProfiles.contains = true

section
variable [Validation]

def integerField (field : String) (value : PyValue) : Except Raised Int := checked field (Validation.integer value)

/-- What Jira tells of an estimate, or else its label. -/
def estimateField (field : String) (labelled : Option Int) : PyValue → Except Raised (Option Int)
  | .none => .ok labelled
  | value => (integerField field value).map some

/-- `JiraIssueEvidence(…)`. -/
def validated (reading : IssueReading) (customFields : List (String × String)) (labels : StructuredLabels) (plan : Plan)
    (texts : List UntrustedTextEvidence) : Except Raised NormalizedIssue := do
  let dueDate ← optional (fun value => checked "due_date" (Validation.date value)) (get reading.fields "duedate")
  let original ← estimateField "original_estimate_seconds" labels.originalEstimateSeconds
    (get reading.fields "timeoriginalestimate")
  let remaining ← estimateField "remaining_estimate_seconds" labels.remainingEstimateSeconds
    (get reading.fields "timeestimate")
  let timeSpent ← optional (integerField "time_spent_seconds") (get reading.fields "timespent")
  if hspent : timeSpent.all (fun seconds => decide (0 ≤ seconds)) = true then
    if hemployee : labels.employeeId.all (isKey 2) = true then
      if hdifficulty : labels.difficulty.all (fun level => decide (1 ≤ level ∧ level ≤ 5)) = true then
        if hworkload : labels.workloadProfile.all workloadProfiles.contains = true then
          return {
            environment := reading.envelope.environment
            correlationId := reading.envelope.correlationId
            evidenceTimestamp := reading.envelope.evidenceTimestamp
            key := reading.texts.key
            summary := reading.texts.summary
            status := plan.status
            priority := plan.priority
            assignee := reading.assignee
            dueDate := dueDate
            originalEstimateSeconds := original
            remainingEstimateSeconds := remaining
            timeSpentSeconds := timeSpent
            workforceEmployeeId := labels.employeeId
            difficulty := labels.difficulty
            requiredSkills := labels.skills
            structuredEvidenceComplete := labels.complete
            workloadProfile := labels.workloadProfile
            activityTimestamp := plan.activityTimestamp
            links := plan.links
            customFields := reading.customFields
            evidenceReferences := referencesOf reading customFields
            untrustedText := texts
            timeSpent_ok := hspent
            workforceEmployeeId_ok := hemployee
            difficulty_ok := hdifficulty
            workloadProfile_ok := hworkload }
        else validationError "workload_profile" "Input is not one of the permitted values"
      else validationError "difficulty" "Input should be between 1 and 5"
    else validationError "workforce_employee_id" "String should match pattern '^[A-Z][A-Z0-9_-]\x7b2,63\x7d$'"
  else validationError "time_spent_seconds" "Input should be greater than or equal to 0"

end

/-! ## An issue and a search -/

def objectOf? : PyValue → Option Object
  | .dict members => some members
  | _ => none

/-- The issues of a search. -/
def searchedIssues (data : Object) : Except Raised (List Object) :=
  match get data "issues" with
  | .list items => match items.mapM objectOf? with
    | some issues => .ok issues
    | none => normalizationError "Jira search issues must be a list of objects"
  | _ => normalizationError "Jira search issues must be a list of objects"

/-- Whether an answer tells of more issues than it has. -/
def truncated (data : Object) (count : Nat) : Bool :=
  (get data "nextPageToken").truthy ||
    (match get data "isLast" with
      | .bool false => true
      | _ => false) ||
    match get data "total" with
    | .int total => decide ((count : Int) < total)
    | .bool total => decide (count < total.toNat)
    | _ => false

/-- An issue of a search in an envelope of its own. -/
def responseOf (envelope : JiraMcpEnvelope) (issue : Object) : Response :=
  [("schema_version", .value (.str "1.0")), ("environment", .value (.str envelope.environment.value)),
    ("correlation_id", .value (.str envelope.correlationId)), ("evidence_timestamp", .datetime envelope.evidenceTimestamp),
    ("status", .value (.str "success")), ("data", .value (.dict issue))]

section
variable [Unicode] [Validation]

/-- `normalize_issue`. -/
def normalizeIssue (raw : Response) (expectedEnvironment expectedCorrelationId : String)
    (customFields : List (String × String)) : Except Raised NormalizedIssue := do
  let reading ← readIssue raw expectedEnvironment expectedCorrelationId customFields
  let labels ← structuredLabels reading.labels
  let plan ← planOf reading
  let texts ← untrustedOf reading.fields
  validated reading customFields labels plan texts

/-- The envelope and the issues of a search that is told in full. -/
def readSearch (raw : Response) (expectedEnvironment expectedCorrelationId : String) :
    Except Raised (JiraMcpEnvelope × List Object) := do
  let envelope ← JiraMcpEnvelope.modelValidate raw
  let data ← envelope.responseData expectedEnvironment expectedCorrelationId "Jira MCP search failed"
  let issues ← searchedIssues data
  if truncated data issues.length then normalizationError "Jira search result is truncated"
  else return (envelope, issues)

/-- `normalize_issue_search`. -/
def normalizeIssueSearch (raw : Response) (expectedEnvironment expectedCorrelationId : String)
    (customFields : List (String × String)) : Except Raised (List NormalizedIssue) := do
  let (envelope, issues) ← readSearch raw expectedEnvironment expectedCorrelationId
  issues.mapM fun issue =>
    normalizeIssue (responseOf envelope issue) expectedEnvironment expectedCorrelationId customFields

end

end WorkforceRisk.Jira
