/-
  WorkforceRisk.Comments.Evidence — what is kept of a comment
  (domain/workforce_risk/comments/lifecycle.py;
  packages/persistence/src/workforce_persistence/repositories.py:
  `CommentEvidenceRepository`; services/workforce-risk-mcp/.../tools/comment_evidence.py).

  `normalize_comment_evidence` asks its repository for one append at most, so it is a
  process over that call: the observation it appends, and what it answers to whatever the
  repository replies, are the process. The repository of the database stores an
  observation once for its comment and fingerprint.

  Proved: two requests that differ in the body only and are classified alike are one
  process (`normalize_body`), so no repository and no caller can tell them apart
  (`comment_text_unseen`); without a signal nothing is appended.
-/

import WorkforceRisk.Comments.Classifier
import WorkforceRisk.Lib.Process
import WorkforceRisk.Lib.Table

namespace WorkforceRisk.Comments

open Lib Persistence Historical

structure CommentLifecycleObservation where
  schemaVersion : String
  classifierVersion : String
  category : CommentCategory
  jiraCommentId : String
  jiraIssueKey : String
  authorReference : String
  authorType : AuthorType
  attributionStatus : AttributionStatus
  commentCreatedAt : AwareDatetime
  updatedAt : AwareDatetime
  retrievedAt : AwareDatetime
  freshness : FreshnessStatus
  availabilityStatus : AvailabilityStatus
  availabilityWindow : Option AvailabilityWindow
  reportOnly : Bool := true
  scoringEligible : Bool := false
  candidateEligible : Bool := false
  proposalEvidenceEligible : Bool := false
  deriving DecidableEq

def AvailabilityWindow.json (w : AvailabilityWindow) : Json :=
  .obj [("starts_at", .str w.startsAt.dumped), ("ends_at", .str w.endsAt.dumped)]

namespace CommentLifecycleObservation

def fromSignal (signal : CommentEvidenceSignal) : CommentLifecycleObservation where
  schemaVersion := signal.schemaVersion
  classifierVersion := signal.classifierVersion
  category := signal.category
  jiraCommentId := signal.jiraCommentId
  jiraIssueKey := signal.jiraIssueKey
  authorReference := signal.authorReference
  authorType := signal.authorType
  attributionStatus := signal.attributionStatus
  commentCreatedAt := signal.createdAt
  updatedAt := signal.updatedAt
  retrievedAt := signal.retrievedAt
  freshness := signal.freshness
  availabilityStatus := signal.availabilityStatus
  availabilityWindow := signal.availabilityWindow

/-- `model_dump(mode="json")`. -/
def dumped (o : CommentLifecycleObservation) : Json := .obj
  [ ("schema_version", .str o.schemaVersion),
    ("classifier_version", .str o.classifierVersion),
    ("category", .str o.category.value),
    ("jira_comment_id", .str o.jiraCommentId),
    ("jira_issue_key", .str o.jiraIssueKey),
    ("author_reference", .str o.authorReference),
    ("author_type", .str o.authorType.value),
    ("attribution_status", .str o.attributionStatus.value),
    ("comment_created_at", .str o.commentCreatedAt.dumped),
    ("updated_at", .str o.updatedAt.dumped),
    ("retrieved_at", .str o.retrievedAt.dumped),
    ("freshness", .str o.freshness.value),
    ("availability_status", .str o.availabilityStatus.value),
    ("availability_window", .opt AvailabilityWindow.json o.availabilityWindow),
    ("report_only", .bool o.reportOnly),
    ("scoring_eligible", .bool o.scoringEligible),
    ("candidate_eligible", .bool o.candidateEligible),
    ("proposal_evidence_eligible", .bool o.proposalEvidenceEligible) ]

def fingerprint [Sha256] (o : CommentLifecycleObservation) : String := Sha256.canonical o.dumped

end CommentLifecycleObservation

/-! ## The repository -/

structure CommentEvidence where
  id : Uuid
  environment : Environment
  createdAt : DateTime
  jiraCommentId : String
  jiraIssueKey : String
  category : CommentCategory
  authorReference : String
  authorType : AuthorType
  attributionStatus : AttributionStatus
  commentCreatedAt : AwareDatetime
  updatedAt : AwareDatetime
  retrievedAt : AwareDatetime
  freshness : FreshnessStatus
  availabilityStatus : AvailabilityStatus
  observationFingerprint : String
  metadataJson : Json

instance : Keyed CommentEvidence :=
  .byIdAnd (·.id) fun r => (r.environment, r.jiraCommentId, r.observationFingerprint)

namespace CommentEvidenceRepository

variable [Sha256]

/-- The row of an observation stored at `now` under the id `id`. -/
def record (environment : Environment) (id : Uuid) (now : DateTime) (o : CommentLifecycleObservation) :
    CommentEvidence where
  id := id
  environment := environment
  createdAt := now
  jiraCommentId := o.jiraCommentId
  jiraIssueKey := o.jiraIssueKey
  category := o.category
  authorReference := o.authorReference
  authorType := o.authorType
  attributionStatus := o.attributionStatus
  commentCreatedAt := o.commentCreatedAt
  updatedAt := o.updatedAt
  retrievedAt := o.retrievedAt
  freshness := o.freshness
  availabilityStatus := o.availabilityStatus
  observationFingerprint := o.fingerprint
  metadataJson := .obj
    [ ("schema_version", .str o.schemaVersion),
      ("classifier_version", .str o.classifierVersion),
      ("availability_window", .opt AvailabilityWindow.json o.availabilityWindow),
      ("report_only", .bool true),
      ("scoring_eligible", .bool false),
      ("candidate_eligible", .bool false),
      ("proposal_evidence_eligible", .bool false) ]

def append (id : Uuid) (now : DateTime) (o : CommentLifecycleObservation) (environment : Environment)
    (rows : Table CommentEvidence) : Except Error Uuid × Table CommentEvidence :=
  let found := rows.find? fun r => r.environment == environment && r.jiraCommentId == o.jiraCommentId &&
    r.observationFingerprint == o.fingerprint
  match found with
  | some existing => (.ok existing.id, rows)
  | none =>
    match rows.insert (record environment id now o) with
    | some rows' => (.ok id, rows')
    | none => (.error (.integrityError "comment_evidence"), rows)

end CommentEvidenceRepository

/-! ## normalize_comment_evidence -/

structure NormalizeCommentRequest where
  environment : Environment
  correlationId : String
  observation : CommentObservation
  correlationId_length : 1 ≤ correlationId.length ∧ correlationId.length ≤ 128

inductive NormalizeStatus where
  | stored
  | noSignal
  deriving DecidableEq, Repr

structure NormalizeCommentResponse where
  schemaVersion : String := "1.0"
  environment : Environment
  correlationId : String
  status : NormalizeStatus
  observationId : Option String := none
  category : Option String := none
  reason : String
  reportOnly : Bool := true
  scoringEligible : Bool := false
  candidateEligible : Bool := false
  proposalEvidenceEligible : Bool := false
  deriving DecidableEq

/-- The call of `CommentObservationStore`. -/
structure Append where
  observation : CommentLifecycleObservation
  environment : Environment

@[reducible] def Append.Reply (_ : Append) : Type := Except Error Uuid

def normalizeCommentEvidence [Unicode] (classifier : CommentClassifier) (serviceEnvironment : String)
    (request : NormalizeCommentRequest) : Proc Append Append.Reply (Except Error NormalizeCommentResponse) :=
  if request.environment.value ≠ serviceEnvironment then .ret (.error (.valueError "request environment mismatch"))
  else
    let classification := classifier.classify request.observation
    match classification.signal with
    | none =>
      .ret (.ok
        { environment := request.environment
          correlationId := request.correlationId
          status := .noSignal
          reason := classification.reason })
    | some signal =>
      let lifecycle := CommentLifecycleObservation.fromSignal signal
      (Proc.perform ⟨lifecycle, request.environment⟩).andThen fun observationId =>
        .ret (.ok
          { environment := request.environment
            correlationId := request.correlationId
            status := .stored
            observationId := some (uuidText observationId)
            category := some lifecycle.category.value
            reason := classification.reason })

/-- The request with another body. -/
def NormalizeCommentRequest.withBody (request : NormalizeCommentRequest) (body : Body) : NormalizeCommentRequest :=
  { request with observation := request.observation.withBody body }

/-! ## The body is not seen -/

section
variable [Unicode] {classifier : CommentClassifier} (serviceEnvironment : String) {request : NormalizeCommentRequest}

/-- Requests whose comments have one result are one process. -/
theorem normalize_body {body : Body}
    (h : classifier.classify (request.withBody body).observation = classifier.classify request.observation) :
    normalizeCommentEvidence classifier serviceEnvironment (request.withBody body) =
      normalizeCommentEvidence classifier serviceEnvironment request := by
  unfold normalizeCommentEvidence
  rw [h]
  rfl

/-- Without a signal there is no call. -/
theorem normalize_unsignalled (h : (classifier.classify request.observation).signal = none) :
    ∃ answer, normalizeCommentEvidence classifier serviceEnvironment request = .ret answer := by
  unfold normalizeCommentEvidence
  split
  · exact ⟨_, rfl⟩
  · simp only [h]
    exact ⟨_, rfl⟩

end

/-- What the database's repository replies to an append. -/
def CommentEvidenceRepository.answer [Sha256] (id : Uuid) (now : DateTime) (call : Append)
    (rows : Table CommentEvidence) : call.Reply × Table CommentEvidence :=
  append id now call.observation call.environment rows

/-- Of two requests that differ in the comment's body and are classified alike, neither the
    repository nor the caller sees which it was; and a comment without a signal leaves the
    stored evidence as it is. -/
theorem comment_text_unseen [Unicode] [Sha256] (classifier : CommentClassifier) (serviceEnvironment : String)
    (request : NormalizeCommentRequest) :
    (∀ request', request' = request.withBody request'.observation.body →
      (classifier.classify request.observation).Alike (classifier.classify request'.observation) →
        (classifier.classify request'.observation).signal.map CommentLifecycleObservation.fromSignal =
          (classifier.classify request.observation).signal.map CommentLifecycleObservation.fromSignal ∧
        normalizeCommentEvidence classifier serviceEnvironment request' =
          normalizeCommentEvidence classifier serviceEnvironment request ∧
        ∀ id now rows, (normalizeCommentEvidence classifier serviceEnvironment request').exec
            (CommentEvidenceRepository.answer id now) rows =
          (normalizeCommentEvidence classifier serviceEnvironment request).exec
            (CommentEvidenceRepository.answer id now) rows) ∧
    ((classifier.classify request.observation).signal = none →
      ∀ id now rows, ((normalizeCommentEvidence classifier serviceEnvironment request).exec
        (CommentEvidenceRepository.answer id now) rows).2 = rows) := by
  constructor
  · intro request' hbody halike
    rw [hbody] at halike ⊢
    have hsame := classify_alike halike
    have hproc := normalize_body serviceEnvironment hsame
    exact ⟨congrArg _ (congrArg _ hsame), hproc, fun id now rows => by rw [hproc]⟩
  · intro hnone id now rows
    obtain ⟨answer, hret⟩ := normalize_unsignalled serviceEnvironment hnone
    rw [hret]
    rfl

def sampleClassifier : CommentClassifier where
  patterns :=
    { version := "1.0"
      categories := [(.blockerReport, ["blocked by"]), (.deadlineConcern, ["miss the deadline"])]
      disqualifiers := ["ignore previous"]
      categories_keys := by decide }
  employees := [("account-1", "employee-1")]
  managers := []
  reviewers := []
  automation := []

/-- A comment of the mapped account. -/
def sampleRequest (body : Body) : NormalizeCommentRequest where
  environment := .dev
  correlationId := "correlation-1"
  observation :=
    { jiraCommentId := "10001", jiraIssueKey := "DEV-1", authorAccountId := some "account-1", body := body,
      createdAt := ⟨0, 0⟩, updatedAt := ⟨0, 0⟩, retrievedAt := ⟨hours 1, 0⟩, availabilityWindow := none,
      commentId_length := by decide, issueKey_length := by decide, account_length := by decide }
  correlationId_length := by decide

theorem comment_text_unseen_blocked : letI := Unicode.ascii; letI := Sha256.transparent
    (normalizeCommentEvidence sampleClassifier "dev" (sampleRequest ⟨"Blocked  by the vendor", by decide⟩)).exec
        (CommentEvidenceRepository.answer 1 0) .empty =
      (normalizeCommentEvidence sampleClassifier "dev" (sampleRequest ⟨"I am blocked by review", by decide⟩)).exec
        (CommentEvidenceRepository.answer 1 0) .empty ∧
    ((normalizeCommentEvidence sampleClassifier "dev" (sampleRequest ⟨"Thank you", by decide⟩)).exec
      (CommentEvidenceRepository.answer 1 0) .empty).2 = .empty := by
  let _ := Unicode.ascii
  let _ := Sha256.transparent
  refine ⟨?_, (comment_text_unseen sampleClassifier "dev" (sampleRequest ⟨"Thank you", by decide⟩)).2 (by decide) _ _ _⟩
  exact ((comment_text_unseen sampleClassifier "dev" (sampleRequest ⟨"I am blocked by review", by decide⟩)).1
    (sampleRequest ⟨"Blocked  by the vendor", by decide⟩) rfl (by decide)).2.2 _ _ _

end WorkforceRisk.Comments
