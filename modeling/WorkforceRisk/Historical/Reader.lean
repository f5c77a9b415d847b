/-
  WorkforceRisk.Historical.Reader — the risk an employee had at an earlier time
  (services/agent-api/src/agent_api/historical_evidence.py).

  `get_at` looks for a date in the question, reads the fifty newest results whose evidence
  was observed before the end of that day, and takes the first; without a date, of the
  results up to today, also the dossier of the second. The order of rows observed at one
  time is the database's own, a rank of the results' ids. The dates are those of a
  calendar without a last day.

  What `re` and `str.casefold` know of a character is a parameter (`Unicode`).
-/

import WorkforceRisk.Lib.Ordering
import WorkforceRisk.Scans.Sink

namespace WorkforceRisk.Historical

open Lib Persistence Risk Scans

/-! ## The date of a question -/

/-- The tables of the Unicode database. -/
class Unicode where
  isWord : Char → Bool
  isSpace : Char → Bool
  /-- The value of a decimal digit. -/
  decimal : Char → Option Nat
  casefold : Char → List Char

/-- The tables of the ASCII characters. -/
@[reducible] def Unicode.ascii : Unicode where
  isWord c := c.isAlphanum || c == '_'
  isSpace c := c.isWhitespace
  decimal c := if c.isDigit then some (c.toNat - '0'.toNat) else none
  casefold c := [c.toLower]

section
variable [Unicode]

/-- `\b` between two characters; the ends of the text are none. -/
def boundary (before after : Option Char) : Bool := before.any Unicode.isWord != after.any Unicode.isWord

/-- `re.search`: the first place of the text where `found` finds something, told the
    character before it. -/
def search {α : Type} (found : Option Char → List Char → Option α) : Option Char → List Char → Option α
  | before, [] => found before []
  | before, c :: text => (found before (c :: text)).or (search found (some c) text)

/-- The values of the digits, if all are decimal. -/
def decimals (digits : List Char) : Option (List Nat) := digits.mapM Unicode.decimal

/-- `int(digits)`. -/
def number (digits : List Nat) : Nat := digits.foldl (fun n d => 10 * n + d) 0

/-- `\b(20\d{2})-(\d{2})-(\d{2})\b` -/
def isoAt (before : Option Char) : List Char → Option (List Char)
  | '2' :: '0' :: y₁ :: y₂ :: '-' :: m₁ :: m₂ :: '-' :: d₁ :: d₂ :: rest =>
    if boundary before (some '2') && (decimals [y₁, y₂, m₁, m₂, d₁, d₂]).isSome && boundary (some d₂) rest.head?
    then some ['2', '0', y₁, y₂, '-', m₁, m₂, '-', d₁, d₂]
    else none
  | _ => none

/-- `date.fromisoformat` of a text in the shape of `isoAt`, of which it takes ASCII digits. -/
def fromIsoformat (text : List Char) : Except Error Date :=
  match text with
  | [y₁, y₂, y₃, y₄, '-', m₁, m₂, '-', d₁, d₂] =>
    if [y₁, y₂, y₃, y₄, m₁, m₂, d₁, d₂].all Char.isDigit then
      let value (digits : List Char) : Nat := number (digits.map fun c => c.toNat - '0'.toNat)
      Date.ofCivil (value [y₁, y₂, y₃, y₄]) (value [m₁, m₂]) (value [d₁, d₂])
    else .error (.valueError ("Invalid isoformat string: '" ++ String.ofList text ++ "'"))
  | _ => .error (.valueError ("Invalid isoformat string: '" ++ String.ofList text ++ "'"))

def months : List (String × Nat) :=
  [("january", 1), ("february", 2), ("march", 3), ("april", 4), ("may", 5), ("june", 6), ("july", 7), ("august", 8),
    ("september", 9), ("october", 10), ("november", 11), ("december", 12)]

/-- `\s+`, and what follows it. -/
def afterSpaces (text : List Char) : Option (List Char) :=
  if text.head?.any Unicode.isSpace then some (text.dropWhile Unicode.isSpace) else none

/-- `\d{1,2}`: its value, its last digit and what follows it. A second digit is never
    left: after the first there is no `\b`, no comma and no space. -/
def dayAt : List Char → Option (Nat × Char × List Char)
  | c :: d :: rest =>
    (Unicode.decimal c).map fun tens => ((Unicode.decimal d).map fun units => (10 * tens + units, d, rest)).getD
      (tens, c, d :: rest)
  | [c] => (Unicode.decimal c).map fun day => (day, c, [])
  | [] => none

/-- `,?\s+(20\d{2})` and `\b` -/
def yearAt (text : List Char) : Option Nat := do
  match ← afterSpaces (if text.head? = some ',' then text.tail else text) with
  | '2' :: '0' :: y₁ :: y₂ :: rest =>
    let digits ← decimals [y₁, y₂]
    if boundary (some y₂) rest.head? then some (2000 + number digits) else none
  | _ => none

/-- `\b(name)\s+(\d{1,2})(?:,?\s+(20\d{2}))?\b`: the year, if there is one, and the day. -/
def monthAt (name : String) (before : Option Char) (text : List Char) : Option (Option Nat × Nat) := do
  if name.toList.isPrefixOf text && boundary before text.head? then
    let day ← dayAt (← afterSpaces (text.drop name.length))
    match yearAt day.2.2 with
    | some year => some (some year, day.1)
    | none => if boundary (some day.2.1) day.2.2.head? then some (none, day.1) else none
  else none

/-- No name starts another, so that at one place at most one is found. -/
def monthDayAt (before : Option Char) (text : List Char) : Option (Option Nat × Nat × Nat) :=
  months.findSome? fun month => (monthAt month.1 before text).map fun found => (found.1, month.2, found.2)

def parseHistoricalDate (question : String) (today : Date) : Except Error (Option Date) :=
  match search isoAt none question.toList with
  | some iso => (fromIsoformat iso).map some
  | none => match search monthDayAt none (question.toList.flatMap Unicode.casefold) with
    | some (year, month, day) => (Date.ofCivil ((year.map Int.ofNat).getD today.civil.1) month day).map some
    | none => .ok none

end

/-! ## The stored results -/

/-- A result beside the evidence it was scored on. -/
structure EvidenceRow where
  snapshot : EvidenceSnapshot
  record : RiskResultRecord
  deriving DecidableEq

/-- `select(EvidenceSnapshot, RiskResultRecord).join(...)`: a snapshot's id is its primary key. -/
def joined (db : Database) : List EvidenceRow :=
  db.risks.rows.filterMap fun record =>
    (db.snapshots.find? (·.id == record.snapshotId)).map fun snapshot => ⟨snapshot, record⟩

/-- Observed later, or at the same time and ranked before. -/
def Newer (rank : Uuid → Nat) (a b : EvidenceRow) : Prop :=
  b.snapshot.observedAt < a.snapshot.observedAt ∨
    a.snapshot.observedAt = b.snapshot.observedAt ∧ rank a.record.id ≤ rank b.record.id

instance (rank : Uuid → Nat) : DecidableRel (Newer rank) := fun _ _ => inferInstanceAs (Decidable (_ ∨ _))

/-- A `RiskResult` read back, with the two times the scored one has too. -/
structure HistoricalRisk where
  result : RiskResult
  scoredAt : DateTime
  evidenceTimestamp : DateTime
  deriving DecidableEq

structure HistoricalRiskContext where
  risk : HistoricalRisk
  dossier : RiskEvidenceDossier
  previousDossier : Option RiskEvidenceDossier
  deriving DecidableEq

def EvidenceRow.risk (row : EvidenceRow) (employeeId : String) : HistoricalRisk :=
  { result :=
      { subjectId := employeeId
        environment := row.snapshot.environment
        score := row.record.score
        level := row.record.level
        confidence := row.record.confidence
        scoringModelVersion := row.record.scoringVersion
        factors := row.record.factors
        thresholds := row.record.thresholds
        evidenceReferences := row.record.evidenceReferences
        missingEvidence := row.record.missingEvidence
        excludedEvidence := row.record.excludedEvidence }
    scoredAt := row.record.createdAt
    evidenceTimestamp := row.snapshot.observedAt }

structure DatabaseHistoricalEvidenceReader where
  environment : Environment
  /-- What `self._today()` answers. -/
  today : Date

namespace DatabaseHistoricalEvidenceReader

def selected (reader : DatabaseHistoricalEvidenceReader) (db : Database) (employeeId : String) (end_ : DateTime) :
    List EvidenceRow :=
  (joined db).filter fun row => row.snapshot.environment == reader.environment &&
    row.snapshot.subjectType == "employee" && row.snapshot.subjectId == employeeId &&
    decide (row.snapshot.observedAt < end_) && row.record.scoreFamily == "employee_overload"

/-- The loop over the rows. `context` is the one found before, if there was one: with the
    first of a dated question, and the second of another, the loop ends. -/
def choose (requested : Option Date) (employeeId projectKey : String) :
    Option HistoricalRiskContext → List EvidenceRow → Except Error HistoricalRiskContext
  | context, [] => match context, requested with
    | some context, none => .ok context
    | _, _ => .error (.valueError "historical evidence is unavailable for the requested date")
  | context, row :: rows => match row.snapshot.riskEvidenceDossier with
    | none => choose requested employeeId projectKey context rows
    | some dossier =>
      if dossier.projectKey ≠ projectKey ∨ dossier.employeeId ≠ employeeId then
        .error (.valueError "historical evidence scope mismatch")
      else match context, requested with
        | none, some _ => .ok ⟨row.risk employeeId, dossier, none⟩
        | none, none => choose requested employeeId projectKey (some ⟨row.risk employeeId, dossier, none⟩) rows
        | some context, some _ => .ok context
        | some context, none => .ok { context with previousDossier := some dossier }

/-- The rows a question about the days before `end_` reads. -/
def newest (reader : DatabaseHistoricalEvidenceReader) (rank : Uuid → Nat) (db : Database) (employeeId : String)
    (end_ : DateTime) : List EvidenceRow :=
  ((reader.selected db employeeId end_).insertionSort (Newer rank)).take 50

def getAt [Unicode] (reader : DatabaseHistoricalEvidenceReader) (rank : Uuid → Nat) (db : Database)
    (question employeeId projectKey : String) : Except Error HistoricalRiskContext := do
  let requested ← parseHistoricalDate question reader.today
  let cutoff : Date := requested.getD reader.today
  choose requested employeeId projectKey none (reader.newest rank db employeeId (Date.midnight (cutoff + 1)))

theorem getAt_eq [Unicode] {reader : DatabaseHistoricalEvidenceReader} {question : String} {requested : Option Date}
    (hq : parseHistoricalDate question reader.today = .ok requested) (rank : Uuid → Nat) (db : Database)
    (employeeId projectKey : String) :
    reader.getAt rank db question employeeId projectKey = choose requested employeeId projectKey none
      (reader.newest rank db employeeId (Date.midnight (requested.getD reader.today + 1))) := by
  rw [getAt, hq]
  rfl

end DatabaseHistoricalEvidenceReader

end WorkforceRisk.Historical
