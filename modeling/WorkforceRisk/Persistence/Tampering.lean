/-
  WorkforceRisk.Persistence.Tampering — what `verify_chain` sees of a change made past the
  repository.

  The hash of an event covers its number, the hash before it and what it says; not its
  id, its time and its environment. Nothing says how long a chain is to be, so that its
  newest events can be taken away (`newest_deleted`), and an event that is given another
  environment is missed only by those after it.

  Proved: of the deletions, reorderings and edits of a verified chain's events, exactly
  which ones `verify_chain` detects (`tampering_detected_iff`).
-/

import WorkforceRisk.Persistence.AuditChain
import WorkforceRisk.Persistence.Canonical

namespace WorkforceRisk.Persistence

open Lib

namespace AuditRepository

section
variable {Env : Type} [DecidableEq Env]

/-- Changes of stored rows that compute no hash. -/
inductive Tampering (Env : Type) where
  | delete (picked : AuditEvent Env → Bool)
  | swap (a b : AuditEvent Env)
  | edit (e e' : AuditEvent Env)

namespace Tampering

/-- Two events in each other's place. -/
def swapped (a b r : AuditEvent Env) : AuditEvent Env :=
  if r.id = a.id then { r with sequenceNumber := b.sequenceNumber }
  else if r.id = b.id then { r with sequenceNumber := a.sequenceNumber }
  else r

def edited (e e' r : AuditEvent Env) : AuditEvent Env := if r.id = e.id then e' else r

def apply (environment : Env) (rows : List (AuditEvent Env)) : Tampering Env → List (AuditEvent Env)
  | delete picked => rows.filter fun r => !(r.environment == environment && picked r)
  | swap a b => rows.map (swapped a b)
  | edit e e' => rows.map (edited e e')

/-- It deletes events of the environment's chain, reorders two of them, or changes fields
    of one: its hash alone, or anything but its hash. -/
def Changes (environment : Env) (rows : List (AuditEvent Env)) : Tampering Env → Prop
  | delete picked => ∃ e ∈ rows, e.environment = environment ∧ picked e = true
  | swap a b => a ∈ rows ∧ b ∈ rows ∧ a.environment = environment ∧ b.environment = environment ∧ a ≠ b
  | edit e e' => e ∈ rows ∧ e.environment = environment ∧ e' ≠ e ∧
      (e'.eventHash = e.eventHash ∨ e' = { e with eventHash := e'.eventHash })

variable [Sha256]

/-- What an event's hash covers. -/
def covered (e : AuditEvent Env) : Json := (rebuilt e).sorted

/-- It leaves an event after one that is gone from the chain, or changes what the chain
    shows of one. -/
def Shows (environment : Env) (rows : List (AuditEvent Env)) : Tampering Env → Prop
  | delete picked => ∃ a ∈ rows, ∃ b ∈ rows, a.environment = environment ∧ b.environment = environment ∧
      picked a = true ∧ picked b = false ∧ a.sequenceNumber < b.sequenceNumber
  | swap _ _ => True
  | edit e e' =>
    if e'.environment = environment then covered e' ≠ covered e ∨ e'.eventHash ≠ e.eventHash
    else ∃ b ∈ rows, b.environment = environment ∧ e.sequenceNumber < b.sequenceNumber

end Tampering

open Tampering

variable {rows l : List (AuditEvent Env)} {environment : Env}

/-! ## The order of a chain -/

theorem mem_ordered {e : AuditEvent Env} : e ∈ ordered rows environment ↔ e ∈ rows ∧ e.environment = environment := by
  rw [ordered, List.mem_insertionSort, List.mem_filter, beq_iff_eq]

omit [DecidableEq Env] in
theorem eq_of_number (hl : l.Pairwise fun a b => a.sequenceNumber < b.sequenceNumber) {a b : AuditEvent Env}
    (ha : a ∈ l) (hb : b ∈ l) (h : a.sequenceNumber = b.sequenceNumber) : a = b := by
  have : Std.Symm fun a b : AuditEvent Env => a.sequenceNumber ≠ b.sequenceNumber := ⟨fun _ _ => Ne.symm⟩
  apply Classical.byContradiction
  intro hne
  exact (hl.imp Nat.ne_of_lt).forall ha hb hne h

/-- The events of an environment have one order. -/
theorem ordered_unique (hl : l.Pairwise fun a b => a.sequenceNumber < b.sequenceNumber)
    (hp : l.Perm (stored rows environment)) : ordered rows environment = l := by
  have : Std.Total fun a b : AuditEvent Env => a.sequenceNumber ≤ b.sequenceNumber := ⟨fun _ _ => Nat.le_total _ _⟩
  have : IsTrans (AuditEvent Env) fun a b => a.sequenceNumber ≤ b.sequenceNumber := ⟨fun _ _ _ => Nat.le_trans⟩
  have hperm : (ordered rows environment).Perm l := (List.perm_insertionSort _ _).trans hp.symm
  refine List.Perm.eq_of_pairwise (fun a b ha hb hab hba => ?_) (List.pairwise_insertionSort _ _)
    (hl.imp Nat.le_of_lt) hperm
  exact eq_of_number hl (hperm.mem_iff.mp ha) hb (Nat.le_antisymm hab hba)

theorem payload_keys : ["action_type", "actor_id", "actor_type", "correlation_id", "new_state", "previous_hash",
    "prior_state", "safe_metadata", "sequence", "subject_ids"].Pairwise (· ≤ ·) := by decide +kernel

omit [DecidableEq Env] in
/-- The hash covers all columns but the id, the environment, the time and the hash. -/
theorem covered_iff {a b : AuditEvent Env} : covered a = covered b ↔
    a.sequenceNumber = b.sequenceNumber ∧ a.previousHash = b.previousHash ∧ a.actionType = b.actionType ∧
      a.actorType = b.actorType ∧ a.actorId = b.actorId ∧ a.subjectIds = b.subjectIds ∧
      a.correlationId = b.correlationId ∧
      (a.priorState.getD .null).sorted = (b.priorState.getD .null).sorted ∧
      (a.newState.getD .null).sorted = (b.newState.getD .null).sorted ∧
      a.safeMetadata.sorted = b.safeMetadata.sorted := by
  have hsorted : ∀ e : AuditEvent Env, covered e = .obj (Json.sortedMembers
      [("action_type", .str e.actionType), ("actor_id", .str e.actorId), ("actor_type", .str e.actorType),
        ("correlation_id", .str e.correlationId), ("new_state", e.newState.getD .null),
        ("previous_hash", .opt .str e.previousHash), ("prior_state", e.priorState.getD .null),
        ("safe_metadata", e.safeMetadata), ("sequence", .num e.sequenceNumber),
        ("subject_ids", .strs e.subjectIds)]) := fun e => congrArg Json.obj (sortMembers_of_keys payload_keys)
  rw [hsorted, hsorted]
  simp only [Json.sortedMembers, Json.obj.injEq, List.cons.injEq, Prod.mk.injEq, true_and, and_true,
    Json.sorted_optStr, Json.sorted_strs, Json.sorted, Json.str.injEq, Json.num.injEq, Rat.natCast_inj]
  constructor
  · intro h
    obtain ⟨haction, hactor, htype, hcorrelation, hnew, hprev, hprior, hmeta, hseq, hsub⟩ := h
    exact ⟨hseq, hprev, haction, htype, hactor, hsub, hcorrelation, hprior, hnew, hmeta⟩
  · intro h
    obtain ⟨hseq, hprev, haction, htype, hactor, hsub, hcorrelation, hprior, hnew, hmeta⟩ := h
    exact ⟨haction, hactor, htype, hcorrelation, hnew, hprev, hprior, hmeta, hseq, hsub⟩

variable [Sha256] {audit : Table (AuditEvent Env)} {digest : Json → String}

/-! ## Deletions -/

omit [DecidableEq Env] [Sha256] in
/-- Keeping all that comes before something kept keeps a prefix. -/
theorem filter_prefix {keep : AuditEvent Env → Bool} (hl : l.Pairwise fun a b => a.sequenceNumber < b.sequenceNumber)
    (h : ∀ a ∈ l, ∀ b ∈ l, keep b = true → a.sequenceNumber < b.sequenceNumber → keep a = true) :
    l.filter keep <+: l := by
  induction l with
  | nil => exact List.nil_prefix
  | cons a l ih =>
    obtain ⟨ha, hl⟩ := List.pairwise_cons.mp hl
    cases hk : keep a with
    | true =>
      rw [List.filter_cons_of_pos hk, List.prefix_cons_inj]
      exact ih hl fun x hx y hy => h x (List.mem_cons_of_mem _ hx) y (List.mem_cons_of_mem _ hy)
    | false =>
      have hnone : (a :: l).filter keep = [] := by
        refine List.filter_eq_nil_iff.mpr fun b hb hkb => ?_
        rcases List.mem_cons.mp hb with rfl | hb
        · rw [hk] at hkb
          cases hkb
        · rw [h a List.mem_cons_self b (List.mem_cons_of_mem _ hb) hkb (ha b hb)] at hk
          cases hk
      rw [hnone]
      exact List.nil_prefix

omit [DecidableEq Env] in
/-- A chain that loses events is one as long as none is left after one that is gone. -/
theorem verify_filter {keep : AuditEvent Env → Bool} (hv : chain.verifyFrom 1 none l = true) :
    chain.verifyFrom 1 none (l.filter keep) = false ↔
      ∃ a ∈ l, ∃ b ∈ l, keep a = false ∧ keep b = true ∧ a.sequenceNumber < b.sequenceNumber := by
  have hl := HashChain.pairwise_number hv
  constructor
  · intro hf
    apply Classical.byContradiction
    intro hno
    have hp : l.filter keep <+: l := filter_prefix hl fun a ha b hb hkb hlt => by
      refine Bool.not_eq_false _ ▸ fun hka => hno ⟨a, ha, b, hb, hka, hkb, hlt⟩
    rw [HashChain.verifyFrom_prefix hv hp] at hf
    cases hf
  · intro h
    obtain ⟨a, ha, b, hb, hka, hkb, hlt⟩ := h
    refine Bool.eq_false_iff.mpr fun hv' => ?_
    have hnumbers := HashChain.verifyFrom_numbers hv'
    -- what is left has the numbers from 1 on, and so an event with that of `a`
    have hbn : b.sequenceNumber ∈ List.range' 1 (l.filter keep).length :=
      hnumbers ▸ List.mem_map_of_mem (List.mem_filter.mpr ⟨hb, hkb⟩)
    have han : a.sequenceNumber ∈ List.range' 1 (l.filter keep).length := by
      have hpos : 1 ≤ a.sequenceNumber := HashChain.number_ge hv ha
      rw [List.mem_range'_1] at hbn ⊢
      omega
    rw [← hnumbers] at han
    obtain ⟨c, hc, hcn⟩ := List.mem_map.mp han
    obtain ⟨hc, hkc⟩ := List.mem_filter.mp hc
    rw [eq_of_number hl hc ha hcn, hka] at hkc
    cases hkc

/-- The rows of a chain without some of its events. -/
theorem verifyRows_filter (keep : AuditEvent Env → Bool) {rows' : List (AuditEvent Env)}
    (hv : verifyRows rows environment = true)
    (hs : stored rows' environment = (stored rows environment).filter keep) :
    verifyRows rows' environment = false ↔ ∃ a ∈ rows, ∃ b ∈ rows, a.environment = environment ∧
      b.environment = environment ∧ keep a = false ∧ keep b = true ∧ a.sequenceNumber < b.sequenceNumber := by
  have hl := HashChain.pairwise_number hv
  have heq : ordered rows' environment = (ordered rows environment).filter keep := by
    refine ordered_unique (hl.filter _) ?_
    rw [hs]
    exact (List.perm_insertionSort _ _).filter _
  rw [verifyRows, heq, verify_filter hv]
  constructor
  · intro h
    obtain ⟨a, ha, b, hb, h⟩ := h
    exact ⟨a, (mem_ordered.mp ha).1, b, (mem_ordered.mp hb).1, (mem_ordered.mp ha).2, (mem_ordered.mp hb).2, h⟩
  · intro h
    obtain ⟨a, ha, b, hb, hea, heb, h⟩ := h
    exact ⟨a, mem_ordered.mpr ⟨ha, hea⟩, b, mem_ordered.mpr ⟨hb, heb⟩, h⟩

/-! ## Edits -/

/-- An event that keeps its hash in a verified chain keeps all that the hash covers. -/
theorem covered_of_hash (hd : Sha256.Ideal digest) (hv : verifyRows rows environment = true) {e e' : AuditEvent Env}
    (he : e ∈ rows) (henv : e.environment = environment) {rows' : List (AuditEvent Env)}
    (hv' : verifyRows rows' environment = true) (he' : e' ∈ rows') (henv' : e'.environment = environment)
    (hh : e'.eventHash = e.eventHash) : covered e' = covered e := by
  have hseen : chain.seen covered e' = chain.seen covered e :=
    HashChain.seen_of_hash (fun _ _ => hd.canonical_inj) hv (mem_ordered.mpr ⟨he, henv⟩)
      (HashChain.verifyFrom_digest hv' (mem_ordered.mpr ⟨he', henv'⟩)) hh.symm
  exact (Prod.mk.inj hseen).1

omit [Sha256] in
theorem event_eq_of_id {a b : AuditEvent Env} (ha : a ∈ audit.rows) (hb : b ∈ audit.rows) (h : a.id = b.id) : a = b :=
  audit.eq_of_clashes ha hb (by simp [clashes, Keyed.clash, Keyed.key, h])

omit [DecidableEq Env] [Sha256] in
theorem mem_edited {e e' : AuditEvent Env} (he : e ∈ rows) : e' ∈ rows.map (edited e e') :=
  List.mem_map.mpr ⟨e, he, if_pos rfl⟩

/-- An edit of what no hash covers changes nothing that is verified. -/
theorem verifyRows_edited (hd : Sha256.Ideal digest) (hv : verifyChain audit environment = true)
    {e e' : AuditEvent Env} (he : e ∈ audit.rows) (henv : e.environment = environment)
    (henv' : e'.environment = environment) (hc : covered e' = covered e) (hh : e'.eventHash = e.eventHash) :
    verifyRows (audit.rows.map (edited e e')) environment = true := by
  have hl : (ordered audit.rows environment).Pairwise _ := HashChain.pairwise_number hv
  have cases : ∀ r ∈ audit.rows, edited e e' r = r ∨ (r = e ∧ edited e e' r = e') := by
    intro r hr
    by_cases h : r.id = e.id
    · exact .inr ⟨event_eq_of_id hr he h, if_pos h⟩
    · exact .inl (if_neg h)
  have heq : ordered (audit.rows.map (edited e e')) environment =
      (ordered audit.rows environment).map (edited e e') := by
    refine ordered_unique (List.pairwise_map.mpr (hl.imp_of_mem fun ha hb hab => ?_)) ?_
    · have same : ∀ r ∈ ordered audit.rows environment, (edited e e' r).sequenceNumber = r.sequenceNumber := by
        intro r hr
        rcases cases r (mem_ordered.mp hr).1 with h | ⟨rfl, h⟩
        · rw [h]
        · rw [h, (covered_iff.mp hc).1]
      rw [same _ ha, same _ hb]
      exact hab
    · have hs : stored (audit.rows.map (edited e e')) environment =
          (stored audit.rows environment).map (edited e e') := by
        rw [stored, List.filter_map]
        refine congrArg _ (List.filter_congr fun r hr => ?_)
        rcases cases r hr with h | ⟨rfl, h⟩
        · rw [Function.comp, h]
        · rw [Function.comp, h, henv, henv']
      rw [hs]
      exact (List.perm_insertionSort _ _).map _
  rw [verifyRows, heq]
  have hlinks : ∀ a b : AuditEvent Env, covered a = covered b →
      a.sequenceNumber = b.sequenceNumber ∧ a.previousHash = b.previousHash :=
    fun _ _ hc => ⟨(covered_iff.mp hc).1, (covered_iff.mp hc).2.1⟩
  refine (HashChain.verifyFrom_congr (fun _ _ => hd.canonical_inj) hlinks ?_).mpr hv
  rw [List.map_map]
  refine List.map_congr_left fun r hr => ?_
  rcases cases r (mem_ordered.mp hr).1 with h | ⟨rfl, h⟩
  · rw [Function.comp, h]
  · exact Prod.ext (by rw [Function.comp, h]; exact hc) (by rw [Function.comp, h]; exact hh)

omit [Sha256] in
/-- An event given another environment is gone from its own. -/
theorem stored_moved {e e' : AuditEvent Env} (henv' : e'.environment ≠ environment) :
    stored (audit.rows.map (edited e e')) environment =
      (stored audit.rows environment).filter fun r => r.id != e.id := by
  have hkeep : ∀ r ∈ audit.rows, ((edited e e' r).environment == environment) =
      (r.id != e.id && r.environment == environment) := by
    intro r hr
    by_cases h : r.id = e.id
    · rw [edited, if_pos h]
      simp [h, henv']
    · rw [edited, if_neg h]
      simp [h]
  rw [stored, stored, List.filter_map, List.filter_filter]
  refine (congrArg _ (List.filter_congr hkeep)).trans ((List.map_congr_left fun r hr => ?_).trans (List.map_id _))
  have hid : r.id ≠ e.id := by
    have := (List.mem_filter.mp hr).2
    simp only [Bool.and_eq_true, bne_iff_ne] at this
    exact this.1
  exact if_neg hid

/-- Two events in each other's place have each other's number, which their hashes cover. -/
theorem verifyRows_swapped (hd : Sha256.Ideal digest) (hv : verifyChain audit environment = true)
    {a b : AuditEvent Env} (ha : a ∈ audit.rows) (hb : b ∈ audit.rows) (hea : a.environment = environment)
    (heb : b.environment = environment) (hne : a ≠ b) :
    verifyRows (audit.rows.map (swapped a b)) environment = false := by
  refine Bool.eq_false_iff.mpr fun hv' => hne ?_
  have hmem : { a with sequenceNumber := b.sequenceNumber } ∈ audit.rows.map (swapped a b) :=
    List.mem_map.mpr ⟨a, ha, if_pos rfl⟩
  have hc := covered_of_hash hd hv ha hea hv' hmem hea rfl
  exact eq_of_number (HashChain.pairwise_number hv) (mem_ordered.mpr ⟨ha, hea⟩) (mem_ordered.mpr ⟨hb, heb⟩)
    (covered_iff.mp hc).1.symm

/-- A new hash is not that of the event. -/
theorem verifyRows_rehashed (hv : verifyChain audit environment = true) {e e' : AuditEvent Env} (he : e ∈ audit.rows)
    (henv : e.environment = environment) (henv' : e'.environment = environment)
    (hfield : e' = { e with eventHash := e'.eventHash }) (hh : e'.eventHash ≠ e.eventHash) :
    verifyRows (audit.rows.map (edited e e')) environment = false := by
  refine Bool.eq_false_iff.mpr fun hv' => hh ?_
  have hsame : rebuilt e' = rebuilt e := by rw [hfield]; rfl
  have hdigest' : Sha256.canonical (rebuilt e') = e'.eventHash :=
    HashChain.verifyFrom_digest hv' (mem_ordered.mpr ⟨mem_edited he, henv'⟩)
  have hdigest : Sha256.canonical (rebuilt e) = e.eventHash :=
    HashChain.verifyFrom_digest hv (mem_ordered.mpr ⟨he, henv⟩)
  rw [← hdigest', ← hdigest, hsame]

/-- An edit within the environment shows when the hash covers it, or is changed. -/
theorem verifyRows_edited_iff (hd : Sha256.Ideal digest) (hv : verifyChain audit environment = true)
    {e e' : AuditEvent Env} (he : e ∈ audit.rows) (henv : e.environment = environment)
    (henv' : e'.environment = environment)
    (hhash : e'.eventHash = e.eventHash ∨ e' = { e with eventHash := e'.eventHash }) :
    verifyRows (audit.rows.map (edited e e')) environment = false ↔
      covered e' ≠ covered e ∨ e'.eventHash ≠ e.eventHash := by
  constructor
  · intro hf
    apply Classical.byContradiction
    intro hno
    obtain ⟨hc, hh⟩ := not_or.mp hno
    rw [verifyRows_edited hd hv he henv henv' (Decidable.not_not.mp hc) (Decidable.not_not.mp hh)] at hf
    cases hf
  · intro hshow
    by_cases hh : e'.eventHash = e.eventHash
    · refine Bool.eq_false_iff.mpr fun hv' => ?_
      have hc : covered e' = covered e := covered_of_hash hd hv he henv hv' (mem_edited he) henv' hh
      exact hshow.elim (fun hne => hne hc) fun hne => hne hh
    · exact verifyRows_rehashed hv he henv henv' (hhash.resolve_left hh) hh

/-- An edit out of the environment is a deletion from its chain. -/
theorem verifyRows_moved (hv : verifyChain audit environment = true) {e e' : AuditEvent Env} (he : e ∈ audit.rows)
    (henv : e.environment = environment) (henv' : e'.environment ≠ environment) :
    verifyRows (audit.rows.map (edited e e')) environment = false ↔
      ∃ b ∈ audit.rows, b.environment = environment ∧ e.sequenceNumber < b.sequenceNumber := by
  refine (verifyRows_filter (fun r => r.id != e.id) hv (stored_moved henv')).trans ?_
  constructor
  · intro h
    obtain ⟨a, ha, b, hb, _, heb, hae, _, hlt⟩ := h
    rw [event_eq_of_id ha he (by simpa using hae)] at hlt
    exact ⟨b, hb, heb, hlt⟩
  · intro h
    obtain ⟨b, hb, heb, hlt⟩ := h
    refine ⟨e, he, b, hb, henv, heb, by simp, bne_iff_ne.mpr fun hid => ?_, hlt⟩
    rw [event_eq_of_id hb he hid] at hlt
    exact Nat.lt_irrefl _ hlt

/-- `verify_chain` detects a deletion if and only if it leaves an event after one that is
    gone; every reordering; and an edit if and only if it changes what the event's hash
    covers or the hash, or takes the event out of the environment from before another. -/
theorem tampering_detected_iff (hd : Sha256.Ideal digest) {t : Tampering Env}
    (hv : verifyChain audit environment = true) (ht : t.Changes environment audit.rows) :
    verifyRows (t.apply environment audit.rows) environment = false ↔ t.Shows environment audit.rows := by
  cases t with
  | delete picked =>
    refine (verifyRows_filter (fun r => !picked r) hv ?_).trans ?_
    · rw [stored, stored, List.filter_filter, apply, List.filter_filter]
      refine List.filter_congr fun r _ => ?_
      cases r.environment == environment <;> simp
    · simp [Shows]
  | swap a b =>
    obtain ⟨ha, hb, hea, heb, hne⟩ := ht
    exact iff_of_true (verifyRows_swapped hd hv ha hb hea heb hne) trivial
  | edit e e' =>
    obtain ⟨he, henv, _, hhash⟩ := ht
    by_cases henv' : e'.environment = environment
    · rw [Shows, if_pos henv']
      exact verifyRows_edited_iff hd hv he henv henv' hhash
    · rw [Shows, if_neg henv']
      exact verifyRows_moved hv he henv henv'

end

/-! ## A sample chain -/

open Tampering

def sampleEntry (action : String) : AuditEntry := ⟨action, "system", "p", ["p"], "c", none, none, none⟩

section
variable [Sha256] {digest : Json → String}

def sampleFirst : AuditEvent := next .empty .dev (sampleEntry "created") 1 0

def sampleStart : Table AuditEvent := ⟨[sampleFirst], List.pairwise_singleton _ _⟩

/-- The latest of two events of the dev environment. -/
def sampleSecond : AuditEvent := next sampleStart .dev (sampleEntry "executed") 2 1

theorem sampleStart_chained (environment : Environment) : Chained sampleStart.rows environment := by
  have hempty : ∀ e, Chained (Table.empty : Table AuditEvent).rows e := fun _ => rfl
  exact next_chained hempty .dev (sampleEntry "created") 1 0 environment

/-- Two appended events are a chain. -/
theorem sample_appended (hd : Sha256.Ideal digest) : ∃ audit,
    append .empty .dev (sampleEntry "created") 1 0 = .ok sampleStart ∧
      append sampleStart .dev (sampleEntry "executed") 2 1 = .ok audit ∧
      audit.rows = [sampleFirst, sampleSecond] ∧ verifyChain audit .dev = true := by
  have hfresh : ∀ e ∈ sampleStart.rows, clashes e sampleSecond = false := by
    intro e he
    rw [List.mem_singleton.mp he]
    refine next_fresh (fun e he => ?_) (fun e he _ hh => ?_) sampleFirst List.mem_cons_self
    · rw [List.mem_singleton.mp he]
      exact Nat.ne_of_lt (Nat.lt_succ_self 1)
    · rw [List.mem_singleton.mp he] at hh
      have hnumber : 1 = 2 := (covered_iff.mp (hd.canonical_inj.mp hh : covered sampleFirst = covered sampleSecond)).1
      omega
  obtain ⟨audit, ha⟩ := append_of_fresh hfresh
  have hrows : audit.rows = [sampleFirst, sampleSecond] := append_rows ha
  refine ⟨audit, rfl, ha, hrows, Chained.verifies ?_⟩
  rw [hrows]
  exact next_chained sampleStart_chained .dev (sampleEntry "executed") 2 1 .dev

end

theorem tampering_detected_actor : letI := Sha256.coded
    ∃ audit, append sampleStart .dev (sampleEntry "executed") 2 1 = .ok audit ∧
      verifyRows ((Tampering.edit sampleFirst { sampleFirst with actorId := "q" }).apply .dev audit.rows) .dev =
        false := by
  let _ := Sha256.coded
  obtain ⟨audit, _, ha, hrows, hv⟩ := sample_appended Sha256.coded_ideal
  have ht : Changes .dev audit.rows (.edit sampleFirst { sampleFirst with actorId := "q" }) := by
    refine ⟨by rw [hrows]; exact List.mem_cons_self, rfl, fun h => ?_, .inl rfl⟩
    exact absurd (congrArg AuditEvent.actorId h) (by decide)
  exact ⟨audit, ha, (tampering_detected_iff Sha256.coded_ideal hv ht).mpr (Or.inl (by decide))⟩

/-- The newest event is deleted, and the chain verifies. -/
theorem newest_deleted : letI := Sha256.coded
    Sha256.Ideal Json.codeText ∧ ∃ audit, append .empty .dev (sampleEntry "created") 1 0 = .ok sampleStart ∧
      append sampleStart .dev (sampleEntry "executed") 2 1 = .ok audit ∧ verifyChain audit .dev = true ∧
      Changes .dev audit.rows (.delete fun e => e.id == 2) ∧
      verifyRows ((Tampering.delete fun e => e.id == 2).apply .dev audit.rows) .dev = true := by
  let _ := Sha256.coded
  obtain ⟨audit, hfirst, ha, hrows, hv⟩ := sample_appended Sha256.coded_ideal
  refine ⟨Sha256.coded_ideal, audit, hfirst, ha, hv, ?_, ?_⟩
  · exact ⟨sampleSecond, by rw [hrows]; exact List.mem_cons_of_mem _ List.mem_cons_self, rfl, rfl⟩
  · rw [hrows]
    exact (sampleStart_chained .dev).verifies

end AuditRepository

end WorkforceRisk.Persistence
