/-
  WorkforceRisk.Persistence.DomainChain — the domain's verifier of audit chains
  (domain/workforce_risk/audit/chain.py) beside the repository's.

  `verify_hash_chain` reads events as dicts and hashes all of one but its hash, so also the
  number it checks, `sequence_number`. `AuditRepository.append` hashes the number as
  `sequence`. Proved: of what is stored, however the hashed fields are altered, the two
  verifiers say the same exactly if the environment has no events or the hash of one of
  them covers something that was altered (`verifiers_agree_iff`); an event that is as it
  was written, only the repository takes (`untouched_event_refused`).
-/

import WorkforceRisk.Persistence.Tampering

namespace WorkforceRisk.Persistence

open Lib

namespace DomainChain

open AuditRepository AuditRepository.Tampering

abbrev Event := List (String × Json)

/-- `value == n`, as Python compares them. -/
def isNumber (n : Nat) : Json → Bool
  | .num q => decide (q = n)
  | .bool b => decide (b.toNat = n)
  | _ => false

section
variable {Env : Type}

/-- What an event's hash is checked against. -/
def material (event : Event) : Event := event.filter fun field => field.1 != "event_hash"

/-! ## Exported events -/

/-- The fields that `append` hashes, under the names it hashes them by. -/
def hashedFields (e : AuditEvent Env) : Event :=
  [("action_type", .str e.actionType), ("actor_id", .str e.actorId), ("actor_type", .str e.actorType),
    ("correlation_id", .str e.correlationId), ("new_state", e.newState.getD .null),
    ("previous_hash", .opt .str e.previousHash), ("prior_state", e.priorState.getD .null),
    ("safe_metadata", e.safeMetadata), ("sequence", .num e.sequenceNumber), ("subject_ids", .strs e.subjectIds)]

/-- An event as a dict: the hashed fields, with the number as `sequence` kept or not, and
    `sequence_number` and `event_hash`. -/
def exported (keepSequence : Bool) (e : AuditEvent Env) : Event :=
  ((hashedFields e).filter fun field => keepSequence || field.1 != "sequence") ++
    [("sequence_number", .num e.sequenceNumber), ("event_hash", .str e.eventHash)]

theorem mem_sortedMembers_keys (members : Event) {key : String} :
    key ∈ (sortMembers (Json.sortedMembers members)).map Prod.fst ↔ key ∈ members.map Prod.fst := by
  have hkeys : (Json.sortedMembers members).map Prod.fst = members.map Prod.fst := by
    induction members with
    | nil => rfl
    | cons field members ih => rw [Json.sortedMembers, List.map_cons, List.map_cons, ih]
  rw [← hkeys]
  exact ((List.perm_insertionSort _ _).map Prod.fst).mem_iff

/-- Objects with one canonical text have the same keys. -/
theorem keys_of_sorted {a b : Event} (h : (Json.obj a).sorted = (Json.obj b).sorted) (key : String) :
    key ∈ a.map Prod.fst ↔ key ∈ b.map Prod.fst := by
  rw [← mem_sortedMembers_keys a, Json.obj.inj h, mem_sortedMembers_keys]

theorem sequenceNumber_mem_material (keepSequence : Bool) (e : AuditEvent Env) :
    "sequence_number" ∈ (material (exported keepSequence e)).map Prod.fst := by
  have hfield : ("sequence_number", Json.num e.sequenceNumber) ∈ exported keepSequence e :=
    List.mem_append_right _ List.mem_cons_self
  exact List.mem_map.mpr ⟨_, List.mem_filter.mpr ⟨hfield, rfl⟩, rfl⟩

/-- The hash that an exported event shows is its own. -/
theorem member_eventHash (keepSequence : Bool) (e : AuditEvent Env) :
    member (exported keepSequence e) "event_hash" = some (.str e.eventHash) := by
  have hfields : ((hashedFields e).filter fun field => keepSequence || field.1 != "sequence").find?
      (fun field => field.1 == "event_hash") = none := by
    refine List.find?_eq_none.mpr fun field hfield => ?_
    have hname : field.1 ∈ (hashedFields e).map Prod.fst := List.mem_map_of_mem (List.mem_filter.mp hfield).1
    have hnames : ∀ name ∈ (hashedFields e).map Prod.fst, (name == "event_hash") = false := by
      show ∀ name ∈ ["action_type", "actor_id", "actor_type", "correlation_id", "new_state", "previous_hash",
        "prior_state", "safe_metadata", "sequence", "subject_ids"], (name == "event_hash") = false
      decide
    rw [hnames _ hname]
    exact Bool.false_ne_true
  rw [member, exported, List.find?_append, hfields]
  rfl

/-! ## The verifier -/

variable [Sha256]

def eventHash (payload : Event) : String := Sha256.canonical (.obj payload)

def verifyFrom : Nat → Option String → List Event → Bool
  | _, _, [] => true
  | expectedSequence, previous, event :: events =>
    if ¬ isNumber expectedSequence ((member event "sequence_number").getD .null) then false
    else if (member event "previous_hash").getD .null ≠ .opt .str previous then false
    else if (member event "event_hash").getD .null ≠ .str (eventHash (material event)) then false
    else verifyFrom (expectedSequence + 1) (some (eventHash (material event))) events

def verifyHashChain (events : List Event) : Bool := verifyFrom 1 none events

/-- No event that `append` hashed is one to the domain, whatever else was altered. -/
theorem verifyHashChain_false {digest : Json → String} (hd : Sha256.Ideal digest) {keepSequence : Bool}
    {e written : AuditEvent Env} (hhash : e.eventHash = Sha256.canonical (rebuilt written)) (events : List Event) :
    verifyHashChain (exported keepSequence e :: events) = false := by
  have hdiffer : (member (exported keepSequence e) "event_hash").getD .null ≠
      .str (eventHash (material (exported keepSequence e))) := by
    rw [member_eventHash, Option.getD_some, hhash]
    intro h
    have hkeys := keys_of_sorted (hd.canonical_inj.mp (Json.str.inj h)) "sequence_number"
    have hnone : "sequence_number" ∉ (hashedFields written).map Prod.fst := by
      show "sequence_number" ∉ ["action_type", "actor_id", "actor_type", "correlation_id", "new_state",
        "previous_hash", "prior_state", "safe_metadata", "sequence", "subject_ids"]
      decide
    exact hnone (hkeys.mpr (sequenceNumber_mem_material keepSequence e))
  unfold verifyHashChain verifyFrom
  rw [if_pos hdiffer, ite_self, ite_self]

/-! ## The two verifiers -/

/-- It alters no column of an event but the hashed ones. -/
structure AltersHashed (alteration : AuditEvent Env → AuditEvent Env) : Prop where
  id : ∀ e, (alteration e).id = e.id
  environment : ∀ e, (alteration e).environment = e.environment
  createdAt : ∀ e, (alteration e).createdAt = e.createdAt
  eventHash : ∀ e, (alteration e).eventHash = e.eventHash

variable [DecidableEq Env] {digest : Json → String} {rows : List (AuditEvent Env)} {environment : Env}
  {alteration : AuditEvent Env → AuditEvent Env}

omit [Sha256] in
theorem stored_map (ha : AltersHashed alteration) :
    stored (rows.map alteration) environment = (stored rows environment).map alteration := by
  rw [stored, stored, List.filter_map]
  congr 1
  exact List.filter_congr fun e _ => by rw [Function.comp_apply, ha.environment]

/-- The repository takes what is altered exactly if no hash covers what was altered. -/
theorem verifyRows_altered_iff (hd : Sha256.Ideal digest) (h : Chained rows environment)
    (ha : AltersHashed alteration) :
    verifyRows (rows.map alteration) environment = true ↔
      ∀ e ∈ rows, e.environment = environment → covered (alteration e) = covered e := by
  constructor
  · intro hv e he henv
    have hin : alteration e ∈ ordered (rows.map alteration) environment :=
      mem_ordered.mpr ⟨List.mem_map_of_mem he, (ha.environment e).trans henv⟩
    have haltered : Sha256.canonical (rebuilt (alteration e)) = (alteration e).eventHash :=
      HashChain.verifyFrom_digest hv hin
    have hwritten : Sha256.canonical (rebuilt e) = e.eventHash :=
      HashChain.verifyFrom_digest h (List.mem_filter.mpr ⟨he, by simpa using henv⟩)
    exact hd.canonical_inj.mp (by rw [haltered, hwritten, ha.eventHash])
  · intro hcovered
    have hdigest : ∀ a b : AuditEvent Env, chain.digest a = chain.digest b ↔ covered a = covered b :=
      fun a b => hd.canonical_inj
    have hshow : ∀ a b : AuditEvent Env, covered a = covered b →
        chain.number a = chain.number b ∧ chain.previous a = chain.previous b :=
      fun a b hab => ⟨(covered_iff.mp hab).1, (covered_iff.mp hab).2.1⟩
    have hseen : (stored rows environment).map (chain.seen covered) =
        (stored (rows.map alteration) environment).map (chain.seen covered) := by
      rw [stored_map ha, List.map_map]
      refine List.map_congr_left fun e he => ?_
      obtain ⟨hin, henv⟩ := List.mem_filter.mp he
      have hsame := hcovered e hin (by simpa using henv)
      rw [Function.comp_apply, HashChain.seen, HashChain.seen, hsame]
      exact congrArg (Prod.mk _) (ha.eventHash e).symm
    exact Chained.verifies ((HashChain.verifyFrom_congr hdigest hshow hseen).mp h)

/-- The domain takes an environment's events, altered or not, only if there are none. -/
theorem verifyHashChain_altered_iff (hd : Sha256.Ideal digest) (h : Chained rows environment)
    (ha : AltersHashed alteration) (keepSequence : Bool) :
    verifyHashChain ((ordered (rows.map alteration) environment).map (exported keepSequence)) = true ↔
      ∀ e ∈ rows, e.environment ≠ environment := by
  constructor
  · intro hv e he henv
    have hin : alteration e ∈ ordered (rows.map alteration) environment :=
      mem_ordered.mpr ⟨List.mem_map_of_mem he, (ha.environment e).trans henv⟩
    obtain ⟨first, rest, hfirst⟩ := List.exists_cons_of_ne_nil (List.ne_nil_of_mem hin)
    have hmem : first ∈ ordered (rows.map alteration) environment := hfirst ▸ List.mem_cons_self
    obtain ⟨hrow, hfirstEnv⟩ := mem_ordered.mp hmem
    obtain ⟨written, hwritten, rfl⟩ := List.mem_map.mp hrow
    have hstored : written ∈ stored rows environment :=
      List.mem_filter.mpr ⟨hwritten, by simpa using (ha.environment written).symm.trans hfirstEnv⟩
    have hhash : (alteration written).eventHash = Sha256.canonical (rebuilt written) :=
      (ha.eventHash written).trans (HashChain.verifyFrom_digest h hstored).symm
    rw [hfirst, List.map_cons, verifyHashChain_false hd hhash] at hv
    cases hv
  · intro hnone
    have hempty : ordered (rows.map alteration) environment = [] := by
      refine List.eq_nil_iff_forall_not_mem.mpr fun e he => ?_
      obtain ⟨hrow, henv⟩ := mem_ordered.mp he
      obtain ⟨written, hwritten, rfl⟩ := List.mem_map.mp hrow
      exact hnone written hwritten ((ha.environment written).symm.trans henv)
    rw [hempty]
    rfl

/-- However the hashed fields of committed events are altered, the two verifiers agree exactly
    if the environment has no events or what the hash of one covers was altered. -/
theorem verifiers_agree_iff (hd : Sha256.Ideal digest) (actions : List (AuditSessions.Action Env)) (environment : Env)
    (ha : AltersHashed alteration) (keepSequence : Bool) :
    (verifyRows ((AuditSessions.init.run actions).committed.rows.map alteration) environment =
      verifyHashChain ((ordered ((AuditSessions.init.run actions).committed.rows.map alteration) environment).map
        (exported keepSequence))) ↔
      (∀ e ∈ (AuditSessions.init.run actions).committed.rows, e.environment ≠ environment) ∨
      ∃ e ∈ (AuditSessions.init.run actions).committed.rows, e.environment = environment ∧
        covered (alteration e) ≠ covered e := by
  have h := (AuditSessions.run_sound AuditSessions.init_sound actions).chained environment
  have hrepository := verifyRows_altered_iff hd h ha
  have hdomain := verifyHashChain_altered_iff hd h ha keepSequence
  constructor
  · intro hagree
    by_cases hnone : ∀ e ∈ (AuditSessions.init.run actions).committed.rows, e.environment ≠ environment
    · exact .inl hnone
    · right
      have hrefused : ¬ verifyRows _ environment = true := fun hv => hnone (hdomain.mp (hagree ▸ hv))
      have haltered := mt hrepository.mpr hrefused
      simpa using haltered
  · rintro (hnone | ⟨e, he, henv, hne⟩)
    · rw [hdomain.mpr hnone]
      exact hrepository.mpr fun e he henv => absurd henv (hnone e he)
    · have hrefused : ¬ verifyRows _ environment = true := fun hv => hne (hrepository.mp hv e he henv)
      have hdomainRefused := mt hdomain.mp fun hnone => hnone e he henv
      rw [Bool.not_eq_true] at hrefused hdomainRefused
      rw [hrefused, hdomainRefused]

end

/-! ## One event -/

def oneEvent : List (AuditSessions.Action Environment) := [.append 0 .dev (sampleEntry "created") 1 0, .commit 0]

def forged (e : AuditEvent) : AuditEvent := { e with actorId := "q" }

theorem forged_altersHashed : AltersHashed forged := ⟨fun _ => rfl, fun _ => rfl, fun _ => rfl, fun _ => rfl⟩

theorem oneEvent_rows [Sha256] : (AuditSessions.init.run oneEvent).committed.rows = [sampleFirst] := rfl

theorem verifiers_agree_forged : letI := Sha256.coded
    verifyRows ((AuditSessions.init.run oneEvent).committed.rows.map forged) .dev =
      verifyHashChain ((ordered ((AuditSessions.init.run oneEvent).committed.rows.map forged) .dev).map
        (exported true)) := by
  let _ := Sha256.coded
  refine (verifiers_agree_iff Sha256.coded_ideal oneEvent .dev forged_altersHashed true).mpr
    (.inr ⟨sampleFirst, ?_, rfl, ?_⟩)
  · rw [oneEvent_rows]
    exact List.mem_cons_self
  · decide

/-- An event that is stored as it was written: the repository takes it and the domain does not. -/
theorem untouched_event_refused : letI := Sha256.coded
    ¬ ∀ (actions : List (AuditSessions.Action Environment)) (environment : Environment)
      (alteration : AuditEvent → AuditEvent), AltersHashed alteration →
      verifyRows ((AuditSessions.init.run actions).committed.rows.map alteration) environment =
        verifyHashChain ((ordered ((AuditSessions.init.run actions).committed.rows.map alteration) environment).map
          (exported true)) := by
  let _ := Sha256.coded
  intro h
  have hagree := h oneEvent .dev id ⟨fun _ => rfl, fun _ => rfl, fun _ => rfl, fun _ => rfl⟩
  have hrepository : verifyRows (((AuditSessions.init.run oneEvent).committed.rows.map id)) Environment.dev = true := by
    rw [List.map_id, oneEvent_rows]
    exact (sampleStart_chained .dev).verifies
  have hhash : sampleFirst.eventHash = Sha256.canonical (rebuilt sampleFirst) := rfl
  have hdomain : verifyHashChain [exported true (sampleFirst : AuditEvent)] = false :=
    verifyHashChain_false Sha256.coded_ideal hhash []
  have hordered : ordered [(sampleFirst : AuditEvent)] .dev = [sampleFirst] := (sampleStart_chained .dev).ordered_eq
  rw [hrepository, List.map_id, oneEvent_rows, hordered] at hagree
  rw [List.map_singleton, hdomain] at hagree
  cases hagree

end DomainChain

end WorkforceRisk.Persistence
