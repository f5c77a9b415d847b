/-
  WorkforceRisk.Comments.Classifier — what a Jira comment is evidence of
  (domain/workforce_risk/comments/models.py, classifier.py).

  A comment is evidence when its author is mapped, no disqualifier occurs in it, and
  phrases of exactly one category do. The body is read for that and for nothing else: the
  signal of a category is a function of the rest of the observation (`signalOf`), and a
  refusal gives one of three reasons. So two bodies that are classified alike have the
  same result (`classify_alike`).
-/

import WorkforceRisk.Evidence.Text
import WorkforceRisk.Persistence.Calendar

namespace WorkforceRisk.Comments

open Persistence Historical Evidence

inductive CommentCategory where
  | temporaryUnavailabilityReport
  | clarificationRequest
  | technicalHelpRequest
  | blockerReport
  | reviewWaitingReport
  | workloadConcern
  | deadlineConcern
  | missingAccessReport
  | taskFrustrationReport
  | collaborationConcern
  deriving DecidableEq, Repr

def CommentCategory.value : CommentCategory → String
  | temporaryUnavailabilityReport => "temporary_unavailability_report"
  | clarificationRequest => "clarification_request"
  | technicalHelpRequest => "technical_help_request"
  | blockerReport => "blocker_report"
  | reviewWaitingReport => "review_waiting_report"
  | workloadConcern => "workload_concern"
  | deadlineConcern => "deadline_concern"
  | missingAccessReport => "missing_access_report"
  | taskFrustrationReport => "task_frustration_report"
  | collaborationConcern => "collaboration_concern"

inductive AuthorType where
  | employee
  | manager
  | reviewer
  | automation
  | unmapped
  deriving DecidableEq, Repr

def AuthorType.value : AuthorType → String
  | employee => "employee"
  | manager => "manager"
  | reviewer => "reviewer"
  | automation => "automation"
  | unmapped => "unmapped"

inductive AttributionStatus where
  | verified
  | unverified
  deriving DecidableEq, Repr

def AttributionStatus.value : AttributionStatus → String
  | verified => "verified"
  | unverified => "unverified"

inductive AvailabilityStatus where
  | available
  | unavailable
  deriving DecidableEq, Repr

def AvailabilityStatus.value : AvailabilityStatus → String
  | available => "available"
  | unavailable => "unavailable"

inductive FreshnessStatus where
  | current
  | stale
  deriving DecidableEq, Repr

def FreshnessStatus.value : FreshnessStatus → String
  | current => "current"
  | stale => "stale"

structure AvailabilityWindow where
  startsAt : AwareDatetime
  endsAt : AwareDatetime
  ordered : startsAt.instant < endsAt.instant
  deriving DecidableEq

/-- `Field(min_length=1, max_length=10_000)`. -/
abbrev Body := {body : String // 1 ≤ body.length ∧ body.length ≤ 10000}

structure CommentObservation where
  jiraCommentId : String
  jiraIssueKey : String
  authorAccountId : Option String
  body : Body
  createdAt : AwareDatetime
  updatedAt : AwareDatetime
  retrievedAt : AwareDatetime
  availabilityWindow : Option AvailabilityWindow
  commentId_length : 1 ≤ jiraCommentId.length ∧ jiraCommentId.length ≤ 128
  issueKey_length : 1 ≤ jiraIssueKey.length ∧ jiraIssueKey.length ≤ 64
  account_length : ∀ account ∈ authorAccountId, account.length ≤ 256

structure CommentEvidenceSignal where
  schemaVersion : String := "1.0"
  classifierVersion : String
  category : CommentCategory
  jiraCommentId : String
  jiraIssueKey : String
  authorReference : String
  authorType : AuthorType
  attributionStatus : AttributionStatus
  createdAt : AwareDatetime
  updatedAt : AwareDatetime
  retrievedAt : AwareDatetime
  freshness : FreshnessStatus
  availabilityStatus : AvailabilityStatus := .available
  availabilityWindow : Option AvailabilityWindow := none
  extractionConfidence : String := "high"
  reportOnly : Bool := true
  scoringEligible : Bool := false
  candidateEligible : Bool := false
  proposalEvidenceEligible : Bool := false
  timeBoundedImpactAllowed : Bool := false
  deriving DecidableEq

structure CommentClassificationResult where
  signal : Option CommentEvidenceSignal
  authorType : AuthorType
  attributionStatus : AttributionStatus
  reason : String
  deriving DecidableEq

/-! ## The classifier -/

structure PatternConfiguration where
  version : String
  categories : List (CommentCategory × List String)
  disqualifiers : List String
  categories_keys : (categories.map Prod.fst).Nodup

structure CommentClassifier where
  patterns : PatternConfiguration
  employees : List (String × String)
  managers : List String
  reviewers : List String
  automation : List String

/-- The pieces between white space: `str.split()`. -/
def words [Unicode] (s : String) : List (List Char) := (s.toList.splitOnP Unicode.isSpace).filter (!·.isEmpty)

/-- `" ".join(body.casefold().split())`. -/
def normalized [Unicode] (body : String) : String := String.ofList ([' '].intercalate (words (casefold body)))

namespace CommentClassifier

variable (classifier : CommentClassifier)

def author (accountId : Option String) : AuthorType × Option String :=
  match accountId with
  | none => (.unmapped, none)
  | some account =>
    match classifier.employees.lookup account with
    | some employee => (.employee, some employee)
    | none =>
      if account ∈ classifier.managers then (.manager, some account)
      else if account ∈ classifier.reviewers then (.reviewer, some account)
      else if account ∈ classifier.automation then (.automation, some account)
      else (.unmapped, some account)

def freshness (o : CommentObservation) : FreshnessStatus :=
  if o.retrievedAt.instant - o.updatedAt.instant ≤ hours 24 then .current else .stale

/-- The signal of a category. -/
def signalOf (authorType : AuthorType) (authorReference : String) (o : CommentObservation)
    (category : CommentCategory) : CommentEvidenceSignal :=
  let window := if category = .temporaryUnavailabilityReport then o.availabilityWindow else none
  { classifierVersion := classifier.patterns.version
    category := category
    jiraCommentId := o.jiraCommentId
    jiraIssueKey := o.jiraIssueKey
    authorReference := authorReference
    authorType := authorType
    attributionStatus := .verified
    createdAt := o.createdAt
    updatedAt := o.updatedAt
    retrievedAt := o.retrievedAt
    freshness := freshness o
    availabilityWindow := window
    timeBoundedImpactAllowed := window.isSome }

variable [Unicode]

def disqualified (text : String) : Bool := classifier.patterns.disqualifiers.any fun term => contains text (casefold term)

def matching (text : String) : List CommentCategory :=
  (classifier.patterns.categories.filter fun entry => entry.2.any fun phrase => contains text (casefold phrase)).map
    Prod.fst

def unmappedReason : String := "author is missing or not mapped"

def untrustedReason : String := "comment is ambiguous or contains untrusted instructions"

def uncategorisedReason : String := "no single explicit configured category"

/-- The result for an author who is not known. -/
def unattributed : CommentClassificationResult :=
  { signal := none, authorType := .unmapped, attributionStatus := .unverified, reason := unmappedReason }

/-- The result for a known author whose comment is no evidence. -/
def refused (authorType : AuthorType) (reason : String) : CommentClassificationResult :=
  { signal := none, authorType := authorType, attributionStatus := .verified, reason := reason }

def classified (authorType : AuthorType) (signal : CommentEvidenceSignal) : CommentClassificationResult :=
  { signal := some signal
    authorType := authorType
    attributionStatus := .verified
    reason := "one explicit configured category matched" }

def classify (o : CommentObservation) : CommentClassificationResult :=
  let (authorType, authorReference) := classifier.author o.authorAccountId
  match authorReference with
  | none => unattributed
  | some authorReference =>
    if authorType = .unmapped then unattributed
    else
      let text := normalized o.body
      if classifier.disqualified text then refused authorType untrustedReason
      else
        match classifier.matching text with
        | [category] => classified authorType (classifier.signalOf authorType authorReference o category)
        | _ => refused authorType uncategorisedReason

end CommentClassifier

/-! ## What the body decides -/

/-- The observation with another body. -/
def CommentObservation.withBody (o : CommentObservation) (body : Body) : CommentObservation := { o with body := body }

/-- Both no signal for the same reason, or both a signal of the same category. -/
def CommentClassificationResult.Alike (r r' : CommentClassificationResult) : Prop :=
  r.signal.map (·.category) = r'.signal.map (·.category) ∧ (r.signal = none → r.reason = r'.reason)

instance (r r' : CommentClassificationResult) : Decidable (r.Alike r') := inferInstanceAs (Decidable (_ ∧ _))

section
variable [Unicode] {classifier : CommentClassifier} {o : CommentObservation}

open CommentClassifier

/-- A comment of a known author is refused for one of two reasons, or it is the evidence of
    one category. -/
theorem classify_cases {authorType : AuthorType} {reference : String}
    (ha : classifier.author o.authorAccountId = (authorType, some reference)) (hk : authorType ≠ .unmapped) :
    classifier.classify o = refused authorType untrustedReason ∨
    classifier.classify o = refused authorType uncategorisedReason ∨
    ∃ category, classifier.classify o = classified authorType (classifier.signalOf authorType reference o category) := by
  simp only [classify, ha, if_neg hk]
  split
  · exact Or.inl rfl
  split
  · rename_i category _
    exact Or.inr (Or.inr ⟨category, rfl⟩)
  · exact Or.inr (Or.inl rfl)

/-- An author who is not known is all that the comment's result says. -/
theorem classify_unattributed
    (h : ∀ authorType reference, classifier.author o.authorAccountId = (authorType, some reference) →
      authorType = .unmapped) : classifier.classify o = unattributed := by
  unfold classify
  split
  rename_i authorType reference ha
  cases reference with
  | none => rfl
  | some reference => exact if_pos (h authorType reference ha)

/-- Two bodies classified alike have the same result. -/
theorem classify_alike {body : Body} (h : (classifier.classify o).Alike (classifier.classify (o.withBody body))) :
    classifier.classify (o.withBody body) = classifier.classify o := by
  by_cases hknown : ∃ authorType reference, classifier.author o.authorAccountId = (authorType, some reference) ∧
      authorType ≠ .unmapped
  · obtain ⟨authorType, reference, ha, hk⟩ := hknown
    -- the author does not depend on the body, nor does the signal of a category
    have ha' : classifier.author (o.withBody body).authorAccountId = (authorType, some reference) := ha
    have hsignal : ∀ category, classifier.signalOf authorType reference (o.withBody body) category =
        classifier.signalOf authorType reference o category := fun _ => rfl
    rcases classify_cases ha hk with hc | hc | ⟨category, hc⟩ <;>
      rcases classify_cases ha' hk with hc' | hc' | ⟨category', hc'⟩ <;> rw [hc, hc'] at h ⊢
    · exact absurd (h.2 rfl) (by decide : ¬ untrustedReason = uncategorisedReason)
    · cases h.1
    · exact absurd (h.2 rfl) (by decide : ¬ uncategorisedReason = untrustedReason)
    · cases h.1
    · cases h.1
    · cases h.1
    · obtain rfl : category = category' := Option.some.inj h.1
      rw [hsignal]
  · have hun : ∀ authorType reference, classifier.author o.authorAccountId = (authorType, some reference) →
        authorType = .unmapped := fun authorType reference ha =>
      Classical.byContradiction fun hk => hknown ⟨authorType, reference, ha, hk⟩
    rw [classify_unattributed hun, classify_unattributed (o := o.withBody body) hun]

end

end WorkforceRisk.Comments
