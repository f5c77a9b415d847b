/-
  WorkforceRisk.Persistence.AuditChain — `AuditRepository.verify_chain`, and the chain
  that concurrent transactions write
  (packages/persistence/src/workforce_persistence/repositories.py).

  A transaction appends any number of events: each append first flushes the events added
  before (autoflush), reads the latest event among the committed ones and its own, and
  adds one that the next flush inserts. A flush or a commit that meets a committed event
  under one of its unique keys is refused, and the transaction rolled back.

  Proved: after any steps of any number of transactions the chain of every environment
  verifies, with the numbers 1 to n, and the stored events are those of the transactions
  that committed (`audit_integrity`). What a transaction has added continues the chain of
  the committed events, or one of its numbers is taken (`Fits`).
-/

import Mathlib.Data.List.Induction
import Mathlib.Data.List.Sort
import WorkforceRisk.Lib.HashChain
import WorkforceRisk.Lib.Process
import WorkforceRisk.Persistence.Audit

namespace WorkforceRisk.Persistence

open Lib

namespace AuditRepository

section
variable {Env : Type} [DecidableEq Env]

/-- The events of an environment, `ORDER BY sequence_number`. -/
def ordered (rows : List (AuditEvent Env)) (environment : Env) : List (AuditEvent Env) :=
  (rows.filter (·.environment == environment)).insertionSort fun a b => a.sequenceNumber ≤ b.sequenceNumber

variable [Sha256]

/-- The payload rebuilt from the columns of an event. -/
def rebuilt (e : AuditEvent Env) : Json :=
  payload e.sequenceNumber e.previousHash
    { actionType := e.actionType
      actorType := e.actorType
      actorId := e.actorId
      subjectIds := e.subjectIds
      correlationId := e.correlationId
      priorState := e.priorState
      newState := e.newState
      safeMetadata := some e.safeMetadata }

def chain : HashChain (AuditEvent Env) String where
  number := AuditEvent.sequenceNumber
  previous := AuditEvent.previousHash
  hash := AuditEvent.eventHash
  digest e := Sha256.canonical (rebuilt e)

def verifyRows (rows : List (AuditEvent Env)) (environment : Env) : Bool :=
  chain.verifyFrom 1 none (ordered rows environment)

def verifyChain (audit : Table (AuditEvent Env)) (environment : Env) : Bool := verifyRows audit.rows environment

/-! ## Appending to a chain -/

/-- The events of an environment, as they were stored. -/
def stored (rows : List (AuditEvent Env)) (environment : Env) : List (AuditEvent Env) :=
  rows.filter (·.environment == environment)

/-- The events of an environment are a chain in the order they were stored. -/
def Chained (rows : List (AuditEvent Env)) (environment : Env) : Prop :=
  chain.verifyFrom 1 none (stored rows environment) = true

variable {rows own more : List (AuditEvent Env)} {environment : Env}

omit [Sha256] in
theorem stored_append : stored (rows ++ more) environment = stored rows environment ++ stored more environment :=
  List.filter_append ..

/-- A chain is in the order of its numbers already. -/
theorem Chained.ordered_eq (h : Chained rows environment) : ordered rows environment = stored rows environment :=
  List.Pairwise.insertionSort_eq ((HashChain.pairwise_number h).imp Nat.le_of_lt)

theorem Chained.verifies (h : Chained rows environment) : verifyRows rows environment = true := by
  rw [verifyRows, h.ordered_eq]
  exact h

omit [DecidableEq Env] [Sha256] in
theorem foldl_later_last {l : List (AuditEvent Env)}
    (h : l.Pairwise fun a b => a.sequenceNumber < b.sequenceNumber) : l.foldl later none = l.getLast? := by
  induction l using List.reverseRecOn with
  | nil => rfl
  | append_singleton l e ih =>
    obtain ⟨hl, _, hle⟩ := List.pairwise_append.mp h
    rw [List.foldl_append, ih hl, List.getLast?_append, List.getLast?_singleton, Option.some_or]
    cases hlast : l.getLast? with
    | none => rfl
    | some b => exact if_pos (hle b (List.mem_of_getLast? hlast) e (List.mem_singleton_self _))

/-- The event appended to chains continues its own. -/
theorem next_chained {audit : Table (AuditEvent Env)} (h : ∀ environment, Chained audit.rows environment) (env : Env)
    (entry : AuditEntry) (id : Uuid) (now : DateTime) :
    ∀ environment, Chained (audit.rows ++ [next audit env entry id now]) environment := by
  intro environment
  rw [Chained, stored_append]
  by_cases henv : env = environment
  · subst henv
    have hlatest : latest audit env = (stored audit.rows env).getLast? :=
      foldl_later_last (HashChain.pairwise_number (h env))
    rw [show stored [next audit env entry id now] env = [next audit env entry id now] by simp [stored, next]]
    refine HashChain.verifyFrom_snoc.mpr ⟨h env, ?_, ?_, rfl⟩
    · show ((latest audit env).map (·.sequenceNumber + 1)).getD 1 = _
      rw [hlatest]
      have hnumbers := h env
      rw [Chained] at hnumbers
      rcases List.eq_nil_or_concat (stored audit.rows env) with hnil | ⟨l, e, hl⟩
      · rw [hnil]
        rfl
      · rw [hl, List.concat_eq_append] at hnumbers ⊢
        obtain ⟨_, hlast, _⟩ := HashChain.verifyFrom_snoc.mp hnumbers
        replace hlast : e.sequenceNumber = 1 + l.length := hlast
        simp [hlast]
        omega
    · show (latest audit env).map (·.eventHash) = _
      rw [hlatest, HashChain.lastHash_eq, Option.or_none]
      rfl
  · rw [show stored [next audit env entry id now] environment = [] by simp [stored, next, henv], List.append_nil]
    exact h environment

end

end AuditRepository

/-! ## Transactions -/

/-- The committed events, those each open transaction has added, and the transactions that
    ended with their events, each with whether it committed. -/
structure AuditSessions (Env : Type) [DecidableEq Env] where
  committed : Table (AuditEvent Env)
  added : Nat → List (AuditEvent Env)
  ended : List (List (AuditEvent Env) × Bool)

namespace AuditSessions

open AuditRepository

variable {Env : Type} [DecidableEq Env]

def init : AuditSessions Env := ⟨.empty, fun _ => [], []⟩

/-- The transaction leaves nothing behind. -/
def rollback (s : AuditSessions Env) (i : Nat) : AuditSessions Env :=
  { s with added := upd s.added i [], ended := s.ended ++ [(s.added i, false)] }

def commit (s : AuditSessions Env) (i : Nat) (audit : Table (AuditEvent Env)) : AuditSessions Env :=
  { committed := audit, added := upd s.added i [], ended := s.ended ++ [(s.added i, true)] }

inductive Action (Env : Type) where
  | append (i : Nat) (environment : Env) (entry : AuditEntry) (id : Uuid) (now : DateTime)
  | commit (i : Nat)
  | rollback (i : Nat)

variable [Sha256]

/-- A transaction appends, commits or rolls back; one whose events are refused is rolled
    back. -/
def step (s : AuditSessions Env) : Action Env → AuditSessions Env
  | .append i environment entry id now =>
    match s.committed.insertAll (s.added i) with
    | none => s.rollback i
    | some view => { s with added := upd s.added i (s.added i ++ [next view environment entry id now]) }
  | .commit i =>
    match s.committed.insertAll (s.added i) with
    | none => s.rollback i
    | some audit => s.commit i audit
  | .rollback i => s.rollback i

def run (s : AuditSessions Env) (actions : List (Action Env)) : AuditSessions Env := actions.foldl step s

/-- The events of a transaction continue the committed chains, or one of them is refused. -/
def Fits (committed own : List (AuditEvent Env)) : Prop :=
  (∀ environment, Chained (committed ++ own) environment) ∨ ∃ a ∈ committed, ∃ e ∈ own, clashes a e = true

theorem fits_nil {committed : List (AuditEvent Env)} (h : ∀ environment, Chained committed environment) :
    Fits committed [] := .inl (by simpa using h)

/-- Events that go in together continue the chains. -/
theorem Fits.inserted {committed view : Table (AuditEvent Env)} {own : List (AuditEvent Env)}
    (h : Fits committed.rows own) (hv : committed.insertAll own = some view) :
    ∀ environment, Chained view.rows environment := by
  rw [Table.insertAll_rows hv]
  refine h.resolve_right fun hclash => ?_
  obtain ⟨a, ha, e, he, hc⟩ := hclash
  rw [(Table.insertAll_ok.mp ⟨view, hv⟩).1 a ha e he] at hc
  cases hc

/-- Two transactions with events of one environment have the same first number for them. -/
theorem Fits.others {committed more own : List (AuditEvent Env)} (h : Fits committed own)
    (hmore : ∀ environment, Chained (committed ++ more) environment) : Fits (committed ++ more) own := by
  rcases h with hown | hclash
  · by_cases hmeet : ∃ environment, stored more environment ≠ [] ∧ stored own environment ≠ []
    · obtain ⟨environment, hm, ho⟩ := hmeet
      obtain ⟨m, ms, hm⟩ := List.exists_cons_of_ne_nil hm
      obtain ⟨o, os, ho⟩ := List.exists_cons_of_ne_nil ho
      have first : ∀ {l : List (AuditEvent Env)} {e : AuditEvent Env} {es : List (AuditEvent Env)},
          Chained (committed ++ l) environment → stored l environment = e :: es →
            e ∈ l ∧ e.environment = environment ∧ e.sequenceNumber = 1 + (stored committed environment).length := by
        intro l e es hl hes
        have he : e ∈ stored l environment := hes ▸ List.mem_cons_self
        rw [Chained, stored_append, hes] at hl
        exact ⟨(List.mem_filter.mp he).1, by simpa using (List.mem_filter.mp he).2, HashChain.number_after hl⟩
      obtain ⟨hm, hme, hmn⟩ := first (hmore environment) hm
      obtain ⟨ho, hoe, hon⟩ := first (hown environment) ho
      refine .inr ⟨m, List.mem_append_right _ hm, o, ho, ?_⟩
      simp [clashes, Keyed.clash, Keyed.key, hme, hoe, hmn, hon]
    · refine .inl fun environment => ?_
      by_cases hm : stored more environment = []
      · have := hown environment
        rw [Chained, stored_append] at this
        rw [Chained, stored_append, stored_append, hm, List.append_nil]
        exact this
      · have ho : stored own environment = [] := Decidable.not_not.mp fun ho => hmeet ⟨environment, hm, ho⟩
        rw [Chained, stored_append, ho, List.append_nil]
        exact hmore environment
  · obtain ⟨a, ha, hclash⟩ := hclash
    exact .inr ⟨a, List.mem_append_left _ ha, hclash⟩

theorem fits_upd {committed v : List (AuditEvent Env)} {added : Nat → List (AuditEvent Env)} {i : Nat}
    (hv : Fits committed v) (h : ∀ j, Fits committed (added j)) (j : Nat) : Fits committed (upd added i v j) := by
  by_cases e : j = i
  · rw [e, upd_same]
    exact hv
  · rw [upd_ne _ _ e]
    exact h j

structure Sound (s : AuditSessions Env) : Prop where
  chained : ∀ environment, Chained s.committed.rows environment
  fits : ∀ i, Fits s.committed.rows (s.added i)
  ended : s.committed.rows = (s.ended.filter (·.2)).flatMap (·.1)

theorem init_sound : Sound (init : AuditSessions Env) :=
  ⟨fun _ => rfl, fun _ => fits_nil fun _ => rfl, rfl⟩

theorem rollback_sound {s : AuditSessions Env} (h : Sound s) (i : Nat) : Sound (s.rollback i) := by
  refine ⟨h.chained, fits_upd (fits_nil h.chained) h.fits, ?_⟩
  rw [rollback, List.filter_append, List.flatMap_append]
  simpa using h.ended

theorem commit_sound {s : AuditSessions Env} (h : Sound s) {i : Nat} {audit : Table (AuditEvent Env)}
    (ha : s.committed.insertAll (s.added i) = some audit) : Sound (s.commit i audit) := by
  have hrows := Table.insertAll_rows ha
  have hchained := (h.fits i).inserted ha
  refine ⟨hchained, fits_upd (fits_nil hchained) fun j => ?_, ?_⟩
  · show Fits audit.rows (s.added j)
    rw [hrows] at hchained ⊢
    exact (h.fits j).others hchained
  · show audit.rows = _
    rw [commit, List.filter_append, List.flatMap_append, hrows, h.ended]
    simp

theorem step_sound {s : AuditSessions Env} (h : Sound s) (a : Action Env) : Sound (s.step a) := by
  cases a with
  | append i environment entry id now =>
    simp only [step]
    split
    · exact rollback_sound h i
    · rename_i view hv
      have hnext := next_chained ((h.fits i).inserted hv) environment entry id now
      rw [Table.insertAll_rows hv] at hnext
      simp only [List.append_assoc] at hnext
      exact ⟨h.chained, fits_upd (.inl hnext) h.fits, h.ended⟩
  | commit i =>
    simp only [step]
    split
    · exact rollback_sound h i
    · rename_i audit ha
      exact commit_sound h ha
  | rollback i => exact rollback_sound h i

theorem run_sound {s : AuditSessions Env} (h : Sound s) (actions : List (Action Env)) : Sound (s.run actions) := by
  induction actions generalizing s with
  | nil => exact h
  | cons a actions ih => exact ih (step_sound h a)

/-- Whatever transactions append, commit and roll back, in any order: the chain of every
    environment verifies, its numbers are 1 to n, and the stored events are those of the
    transactions that committed. -/
theorem audit_integrity (actions : List (Action Env)) :
    (∀ environment, verifyChain ((init : AuditSessions Env).run actions).committed environment = true ∧
      (ordered ((init : AuditSessions Env).run actions).committed.rows environment).map (·.sequenceNumber) =
        List.range' 1 (((init : AuditSessions Env).run actions).committed.count (·.environment == environment))) ∧
    ((init : AuditSessions Env).run actions).committed.rows =
      (((init : AuditSessions Env).run actions).ended.filter (·.2)).flatMap (·.1) := by
  have h : Sound ((init : AuditSessions Env).run actions) := run_sound init_sound actions
  refine ⟨fun environment => ⟨(h.chained environment).verifies, ?_⟩, h.ended⟩
  rw [(h.chained environment).ordered_eq]
  refine (HashChain.verifyFrom_numbers (h.chained environment)).trans ?_
  rw [Table.count, List.countP_eq_length_filter]
  rfl

end AuditSessions

end WorkforceRisk.Persistence
