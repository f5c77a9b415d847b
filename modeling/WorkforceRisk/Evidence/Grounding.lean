/-
  WorkforceRisk.Evidence.Grounding — what an answer may say, and what it must
  (services/agent-api/src/agent_api/grounding.py).

  Each check reads the answer with `re` and raises on the first thing it does not find in
  the evidence. The elements of a set are looked at in the order they were found in; the
  interpreter's own order decides there which of several faults is told first.
-/

import WorkforceRisk.Evidence.Focus
import WorkforceRisk.Lib.Regex
import WorkforceRisk.Progress.Observation

namespace WorkforceRisk.Evidence

open Lib Persistence Historical Dashboard Progress

structure GroundingValidationError where
  message : String
  deriving DecidableEq

abbrev Grounded := Except GroundingValidationError Unit

def GroundingValidationError.require (ok : Bool) (message : String) : Grounded :=
  if ok then .ok () else .error ⟨message⟩

open GroundingValidationError (require)

theorem require_ok {ok : Bool} {message : String} : require ok message = .ok () ↔ ok = true := by
  cases ok with
  | true => exact ⟨fun _ => rfl, fun _ => rfl⟩
  | false => exact ⟨fun h => (by cases h), fun h => (by cases h)⟩

/-- Of the bundle, what the checks read. -/
structure UniversalEvidenceBundle where
  plan : EvidencePlan
  answerEvidence : Option AnswerEvidenceSet
  projectSnapshot : Option DashboardSnapshot
  capacityAndWorkload : List CapacityEvidence

/-! ## Patterns -/

namespace Pattern

open Regex

def upperLetter : Regex := set Char.isUpper

def upperOrDigit : Regex := set fun c => c.isUpper || c.isDigit

section
variable [Unicode]

/-- `\b` -/
def edge : Regex := look fun before rest => boundary before rest.head?

/-- `\d` -/
def digit : Regex := set fun c => (Unicode.decimal c).isSome

/-- `\s` -/
def space : Regex := set Unicode.isSpace

/-- `(?<!\w)` -/
def notAfterWord : Regex := look fun before _ => !before.any Unicode.isWord

/-- `(?!\w)` -/
def notBeforeWord : Regex := look fun _ rest => !rest.head?.any Unicode.isWord

/-- `[A-Z][A-Z0-9]{1,19}-\d+` -/
def key : Regex := seqs [upperLetter, repeated 1 19 upperOrDigit, lit "-", plus digit]

/-- `\b[A-Z][A-Z0-9]{1,19}-\d+\b` -/
def issueKey : Regex := seqs [edge, key, edge]

/-- `\bEMP-\d+\b` -/
def employeeId : Regex := seqs [edge, lit "EMP-", plus digit, edge]

/-- `\d+(?:\.\d+)?` -/
def decimal : Regex := seqs [plus digit, opt (seqs [lit ".", plus digit])]

/-- `(?:h|hours?)` -/
def hours : Regex := alt (lit "h") (seqs [lit "hour", opt (lit "s")])

/-- `(?<=[.!?])\s+|\n+` -/
def sentenceEnd : Regex :=
  alt (seqs [look fun before _ => before.any fun c => c ∈ ['.', '!', '?'], plus space]) (plus (lit "\n"))

end

/-- `[.!?\n]` -/
def stop : Regex := oneOf ['.', '!', '?', '\n']

variable [TextTables]

/-- `re.I` -/
def ignoreCase (r : Regex) : Regex := relaxed TextTables.variants r

/-- `\b([A-Z][A-Z0-9]{1,19}-\d+)\b\s+(?:is\s+)?blocked by\s+\b([A-Z][A-Z0-9]{1,19}-\d+)\b` -/
def blockedBy : Regex := ignoreCase <|
  seqs [edge, group 1 key, edge, plus space, opt (seqs [lit "is", plus space]), lit "blocked by", plus space, edge,
    group 2 key, edge]

/-- `^\s*(?:\d+[.)]\s*)?[*_]*key[*_]*\s*(?::|—|-)`, `^` at the start of each line. -/
def heading (key : String) : Regex := ignoreCase <|
  seqs [look fun before _ => before.all (· == '\n'), many space,
    opt (seqs [plus digit, oneOf ['.', ')'], many space]), many (oneOf ['*', '_']), lit key, many (oneOf ['*', '_']),
    many space, oneOf [':', '—', '-']]

/-- `(?<!\w)name(?!\w)` -/
def name (displayName : String) : Regex := ignoreCase <| seqs [notAfterWord, lit displayName, notBeforeWord]

/-- `\b(low|medium|high|critical|insufficient-data)\s+risk\b` -/
def riskClaim : Regex := ignoreCase <|
  seqs [edge, group 1 (alt (lit "low") (alt (lit "medium") (alt (lit "high") (alt (lit "critical")
    (lit "insufficient-data"))))), plus space, lit "risk", edge]

/-- `(\d+(?:\.\d+)?)\s*(?:h|hours?)\s+(?:of\s+)?available` -/
def availableClaim : Regex := ignoreCase <|
  seqs [group 1 decimal, many space, hours, plus space, opt (seqs [lit "of", plus space]), lit "available"]

/-- `capacity\s+by\s+(\d+(?:\.\d+)?)\s*(?:h|hours?)\b` -/
def overageClaim : Regex := ignoreCase <|
  seqs [lit "capacity", plus space, lit "by", plus space, group 1 decimal, many space, hours, edge]

/-- `\bkey\b\s+is assigned to\s+([^,.]+)` -/
def assignedTo (key : String) : Regex := ignoreCase <|
  seqs [edge, lit key, edge, plus space, lit "is assigned to", plus space, group 1 (plus (set fun c => c ∉ [',', '.']))]

/-- `(?:currently|status is)\s+([A-Za-z][A-Za-z ]+?)(?:[,.]|$)` -/
def statusClaim : Regex := ignoreCase <|
  let more := set fun c => c.isAlpha || c == ' '
  seqs [alt (lit "currently") (lit "status is"), plus space, group 1 (seqs [set Char.isAlpha, more, star false more]),
    alt (oneOf [',', '.']) (look fun _ rest => rest == [] || rest == ['\n'])]

end Pattern

/-! ## Reading a text -/

section
variable [Unicode]

/-- The issue keys that are found in a text. -/
def issueKeys (text : String) : List String :=
  ((Pattern.issueKey.findAll text.toList).map fun found => String.ofList found.text).eraseDups

def sentences (text : String) : List String := (Pattern.sentenceEnd.split text.toList).map String.ofList

/-- `float(text)` of digits with or without a part after the point. -/
def decimalOf (text : List Char) : Rat :=
  let whole := text.takeWhile (· != '.')
  let part := (text.drop whole.length).drop 1
  let digits (cs : List Char) : Nat := number (cs.filterMap Unicode.decimal)
  digits whole + (digits part : Rat) / (10 : Rat) ^ part.length

end

/-- What a dictionary by key holds: each key where it was first, with what it was last. -/
def latestBy {α : Type} (key : α → String) (items : List α) : List α :=
  (items.map key).eraseDups.filterMap fun k => items.reverse.find? (key · == k)

/-- The characters of the spans as blanks. -/
def blank (spans : List (Nat × Nat)) (text : List Char) : List Char :=
  text.zipIdx.map fun (c, i) => if spans.any fun span => span.1 ≤ i && i < span.2 then ' ' else c

/-- The level an answer has to give for this one. -/
def claimedLevel (level : Level) : String := if level = .critical then "high" else level.value

/-- `", ".join(sorted(...))` -/
def listed (items : List String) : String := String.intercalate ", " (sortedSet items)

/-- `_mentioned_employee_ids`: longer names first, each blanked out where it was found. -/
def mentionedEmployeeIds [Unicode] {α : Type} (employeeId displayName : α → String) (answer : String)
    (employees : List α) : List String :=
  let ordered := employees.insertionSort fun a b => (displayName b).length ≤ (displayName a).length
  (ordered.foldl (fun (remaining, mentioned) employee =>
    let found := spans (casefold (displayName employee)) (String.ofList remaining)
    if found.isEmpty then (remaining, mentioned) else (blank found remaining, mentioned ++ [employeeId employee]))
    ((casefold answer).toList, [])).2

/-! ## The checks -/

section
variable [TextTables]

/-- The level that is claimed of an employee right where its name stands. -/
def checkClassification (level : Level) (sentence : List Char) : Grounded :=
  match (Pattern.riskClaim.search sentence).bind (·.group 1) with
  | some claimed =>
    require (casefold (String.ofList claimed) == claimedLevel level) "answer changed employee risk classification"
  | none => .ok ()

/-- The levels claimed of the employees, longer names first, each blanked out where it was found. -/
def checkClassifications (answer : String) (employees : List AnswerEmployeeEvidence) : Grounded := do
  let ordered := employees.insertionSort fun a b => b.displayName.length ≤ a.displayName.length
  let _ ← ordered.foldlM (fun remaining employee => do
    let found := (Pattern.name employee.displayName).findAll remaining
    for m in found do
      checkClassification employee.riskLevel
        (((Pattern.stop.split ((remaining.drop m.start).take (m.stop + 80 - m.start))).head?).getD [])
    pure (blank (found.map fun m => (m.start, m.stop)) remaining)) answer.toList
  pure ()

def validateFocusedClaims (answer : String) (evidence : AnswerEvidenceSet) (allowedIssueKeys : List String) :
    Grounded := do
  let tasks := latestBy (fun task => upper task.key) evidence.tasks
  let taskKeys := tasks.map fun task => upper task.key
  let validated := allowedIssueKeys.map upper
  let employeeIds := evidence.employees.map fun e => upper e.employeeId
  let dependencyKeys :=
    (evidence.tasks.flatMap fun task => task.dependencies.flatMap fun d => issueKeys (upper d)).eraseDups
  let unknown := (issueKeys (upper answer)).filter fun key =>
    key ∉ taskKeys ++ dependencyKeys ++ validated ++ employeeIds
  require unknown.isEmpty ("answer mentioned unknown Jira issue(s): " ++ listed unknown)
  for key in dependencyKeys.filter (· ∉ taskKeys ++ validated) do
    require ((Pattern.heading key).search answer.toList).isNone
      ("answer promoted dependency-only Jira issue " ++ key ++ " to focused task")
  for m in Pattern.blockedBy.findAll answer.toList do
    let blocked := upper (String.ofList ((m.group 1).getD []))
    let blocker := upper (String.ofList ((m.group 2).getD []))
    match tasks.find? fun task => upper task.key == blocked with
    | none => require (blocked ∈ validated) "answer invented a Jira dependency"
    | some task =>
      require (contains (upper (String.intercalate " " task.dependencies)) blocker) "answer invented a Jira dependency"
  let unknownEmployees := ((Pattern.employeeId.findAll (upper answer).toList).map fun found =>
    String.ofList found.text).filter (· ∉ employeeIds)
  require unknownEmployees.isEmpty ("answer mentioned unknown employee(s): " ++ listed unknownEmployees)
  checkClassifications answer evidence.employees

/-- A question for employees rather than for their tasks. -/
def isEmployeeQuestion (folded : String) : Bool :=
  mentionsAny folded ["employee", "people", "capacity", "workload", "skill", "who has"] &&
    !mentionsAny folded ["which task", "tasks ", "work is blocked", "deadline"]

/-- Completeness is asked of the employees. -/
def takesEmployeeBranch (evidence : AnswerEvidenceSet) : Bool :=
  !evidence.employees.isEmpty && (isEmployeeQuestion (casefold evidence.questionFocus) || evidence.tasks.isEmpty)

/-- The employees an answer has to name. -/
def requiredEmployees (evidence : AnswerEvidenceSet) : List AnswerEmployeeEvidence :=
  if mentionsAny (casefold evidence.questionFocus) ["cannot be classified", "can't be classified",
      "classified reliably", "unclassified", "insufficient data", "insufficient-data"] then
    evidence.employees.filter fun e => e.riskLevel = .insufficientData
  else evidence.employees

/-- The task keys an answer has to name: those that are required, or all if none is. -/
def expectedKeys (evidence : AnswerEvidenceSet) : List String :=
  if !evidence.requiredTaskKeys.isEmpty then evidence.requiredTaskKeys.map upper
  else evidence.tasks.map fun task => upper task.key

def validateFocusedCompleteness (answer : String) (evidence : AnswerEvidenceSet) : Grounded :=
  if !evidence.exhaustive then .ok ()
  else if takesEmployeeBranch evidence then
    let mentioned := mentionedEmployeeIds (·.employeeId) (·.displayName) answer evidence.employees
    let missing := ((requiredEmployees evidence).filter fun e => e.employeeId ∉ mentioned).map (·.displayName)
    require missing.isEmpty ("answer omitted employee(s): " ++ listed missing)
  else if !evidence.tasks.isEmpty then
    let missing := (expectedKeys evidence).filter (· ∉ issueKeys (upper answer))
    require missing.isEmpty ("answer omitted matching Jira issue(s): " ++ listed missing)
  else .ok ()

/-- `entity.split(":", 1)[-1]` -/
def entityName (entity : String) : String :=
  if ':' ∈ entity.toList then String.ofList ((entity.toList.dropWhile (· != ':')).drop 1) else entity

def validateInsufficiencyClaim (answer : String) (evidence : AnswerEvidenceSet) : Grounded :=
  let folded := casefold answer
  let generic := mentionsAny folded ["not enough information", "do not have enough information",
    "not enough reliable information", "insufficient information", "not possible to confidently", "cannot confidently",
    "provide more details", "clarify the entity", "clarify the question"]
  if !generic || (evidence.tasks.isEmpty && evidence.employees.isEmpty) then .ok ()
  else
    require (evidence.missingData.any fun item => contains folded (casefold (entityName item.entity)) &&
        mentionsAny folded ["estimate", "capacity", "skills", "due date", "priority", "assignee"])
      "answer claimed insufficiency despite usable focused evidence"

/-- A sentence's claim of capacity over an employee's. -/
def checkOverage (employee : EmployeeSummary) (sentence : List Char) : Grounded :=
  match (Pattern.overageClaim.search sentence).bind (·.group 1), employee.remainingHours, employee.capacityHours with
  | some hours, some remaining, some capacity =>
    require (decimalOf hours == max (remaining - capacity) 0) "answer misstated capacity overage"
  | _, _, _ => .ok ()

/-- What a sentence says of the one employee it names. -/
def checkSentence (bundle : UniversalEvidenceBundle) (employee : EmployeeSummary) (sentence : List Char) : Grounded := do
  let capacity := bundle.capacityAndWorkload.find? fun item => item.employeeId == some employee.employeeId
  match (Pattern.availableClaim.search sentence).bind (·.group 1), capacity with
  | some hours, some capacity =>
    require (decimalOf hours == capacity.availableCapacityHours) "answer misstated available capacity"
  | _, _ => .ok ()
  checkClassification employee.level sentence
  checkOverage employee sentence

def validateUniversalClaims (answer : String) (bundle : UniversalEvidenceBundle) : Grounded :=
  match bundle.projectSnapshot with
  | none => .ok ()
  | some snapshot => do
    for sentence in sentences answer do
      match (mentionedEmployeeIds (·.employeeId) (·.displayName) sentence snapshot.employees).eraseDups with
      | [employeeId] => match snapshot.employees.find? (·.employeeId == employeeId) with
        | some employee => checkSentence bundle employee sentence.toList
        | none => .ok ()
      | _ => .ok ()
    for m in Pattern.blockedBy.findAll answer.toList do
      let blocked := upper (String.ofList ((m.group 1).getD []))
      let blocker := upper (String.ofList ((m.group 2).getD []))
      match snapshot.tasks.reverse.find? fun task => upper task.key == blocked with
      | none => .error ⟨"answer invented a Jira dependency"⟩
      | some task =>
        require (contains (upper (String.intercalate " " task.dependencies)) blocker)
          "answer invented a Jira dependency"

/-- The categories whose questions are answered employee by employee. -/
def isEmployeeCategory (category : EvidenceCategory) : Bool :=
  category ∈ [.workforceProfiles, .capacityAndWorkload, .skillsAndSeniority, .riskResults]

def validateUniversalCompleteness (answer : String) (bundle : UniversalEvidenceBundle) : Grounded :=
  match bundle.answerEvidence, bundle.projectSnapshot with
  | some evidence, _ => validateFocusedCompleteness answer evidence
  | none, none => .ok ()
  | none, some snapshot =>
    if !bundle.plan.exhaustive then .ok ()
    else if bundle.plan.scope ≠ .task ∧ bundle.plan.evidenceCategories.any isEmployeeCategory then
      let mentioned := mentionedEmployeeIds (·.employeeId) (·.displayName) answer snapshot.employees
      let missing := (snapshot.employees.filter fun e => e.employeeId ∉ mentioned).map (·.displayName)
      require missing.isEmpty ("answer omitted employee(s): " ++ listed missing)
    else
      let expected := if EvidenceCategory.dependenciesAndBlockers ∈ bundle.plan.evidenceCategories then
          (snapshot.tasks.filter fun task => task.blocker.any (· != "") || !task.dependencies.isEmpty).map
            fun task => upper task.key
        else []
      let missing := expected.filter (· ∉ issueKeys (upper answer))
      require missing.isEmpty ("answer omitted matching Jira issue(s): " ++ listed missing)

/-- What a sentence says of one of the issues it names. -/
def checkFact (facts : List TaskFact) (sentence : String) (sentenceKeys : List String) (fact : TaskFact) (key : String) :
    Grounded := do
  let folded := casefold sentence
  require (!facts.any fun other => contains folded (casefold other.summary) && other.key != fact.key &&
    upper other.key ∉ sentenceKeys) "answer mismatched Jira issue key and summary"
  match ((Pattern.assignedTo key).search sentence.toList).bind (·.group 1) with
  | some assignee =>
    require (fact.assignee.any fun a => casefold (strip (String.ofList assignee)) == casefold a)
      "answer mismatched Jira issue key and assignee"
  | none => .ok ()
  match (Pattern.statusClaim.search sentence.toList).bind (·.group 1) with
  | some status =>
    require (sentenceKeys.length != 1 || casefold (strip (String.ofList status)) == casefold fact.status)
      "answer mismatched Jira issue key and status"
  | none => .ok ()

def validateJiraClaims (answer : String) (evidence : List TaskFact)
    (referencedIssueKeys referencedEmployeeIds : List String) :
    Grounded := do
  let facts := latestBy (fun fact => upper fact.key) evidence
  let allowed := (facts.map fun fact => upper fact.key) ++ referencedIssueKeys.map upper ++
    referencedEmployeeIds.map upper
  let unknown := (issueKeys (upper answer)).filter (· ∉ allowed)
  require unknown.isEmpty ("answer mentioned unknown Jira issue(s): " ++ listed unknown)
  for sentence in sentences answer do
    let sentenceKeys := issueKeys (upper sentence)
    for key in sentenceKeys do
      match facts.find? fun fact => upper fact.key == key with
      | some fact => checkFact facts sentence sentenceKeys fact key
      | none => .ok ()

end

end WorkforceRisk.Evidence
