/-
  WorkforceRisk.Progress.History — what the progress tables hold after a list of readings.

  Said of the readings alone: the one a task was read at last (`lastOf`), the events each
  further one stands for (`derivedAt`), whether two show the same evidence in the same
  work week (`SameEvidence`). `Represents before db` says the tables hold just that: a
  task's row is its last reading, the snapshots are those of the evidence read, and the
  digests of the events are those derived.

  Proved: `recordObservation` goes through exactly when the reading returns to no earlier
  evidence of its week and stamps no event twice (`recordObservation_ok_iff`), and then
  the tables represent one reading more (`recordObservation_keeps`).
-/

import WorkforceRisk.Progress.Repository

namespace WorkforceRisk.Progress

open Lib Persistence

/-! ## Readings -/

/-- The last reading of a task. -/
def lastOf (before : List Reading) (issue : Issue) : Option Reading :=
  (before.filter fun r => r.issue == issue).getLast?

theorem lastOf_snoc (before : List Reading) (r : Reading) (issue : Issue) :
    lastOf (before ++ [r]) issue = if r.issue = issue then some r else lastOf before issue := by
  unfold lastOf
  rw [List.filter_append]
  by_cases h : r.issue = issue
  · rw [if_pos h, List.filter_cons_of_pos (by simpa using h)]
    exact List.getLast?_concat
  · rw [if_neg h, List.filter_cons_of_neg (by simpa using h), List.filter_nil, List.append_nil]

theorem lastOf_mem {before : List Reading} {issue : Issue} {p : Reading} (h : lastOf before issue = some p) :
    p ∈ before ∧ p.issue = issue := by
  have hp := List.mem_filter.mp (List.mem_of_getLast? h)
  exact ⟨hp.1, by simpa using hp.2⟩

/-- The events `now` stands for, after the readings `before`. -/
def derivedAt (before : List Reading) (now : Reading) : List DerivedProgressEvent :=
  match lastOf before now.issue with
  | none => []
  | some p => deriveProgressEvents p.observation now.observation

section
variable [Sha256]

/-- One task, one work week, one fingerprint. -/
def Reading.SameEvidence (a b : Reading) : Prop :=
  a.issue = b.issue ∧ a.weekStart = b.weekStart ∧ a.observation.fingerprint = b.observation.fingerprint

instance (a b : Reading) : Decidable (a.SameEvidence b) := inferInstanceAs (Decidable (_ ∧ _))

def digestsAt (before : List Reading) (now : Reading) : List String :=
  (derivedAt before now).map now.eventFingerprint

/-- Some reading of the environment derived an event of this digest. -/
def Stamped (before : List Reading) (environment digest : String) : Prop :=
  ∃ first r rest, before = first ++ r :: rest ∧ r.environment = environment ∧ digest ∈ digestsAt first r

theorem stamped_snoc {before : List Reading} {r : Reading} {environment digest : String} :
    Stamped (before ++ [r]) environment digest ↔
      Stamped before environment digest ∨ r.environment = environment ∧ digest ∈ digestsAt before r := by
  constructor
  · intro h'
    obtain ⟨first, a, rest, h, ha⟩ := h'
    rcases List.eq_nil_or_concat rest with rfl | ⟨rest, b, rfl⟩
    · obtain ⟨rfl, hr⟩ := List.append_inj' h rfl
      cases hr
      exact .inr ha
    · rw [List.concat_eq_append, ← List.cons_append, ← List.append_assoc] at h
      exact .inl ⟨first, a, rest, (List.append_inj' h rfl).1, ha⟩
  · intro h'
    rcases h' with ⟨first, a, rest, rfl, ha⟩ | ha
    · exact ⟨first, a, rest ++ [r], by simp, ha⟩
    · exact ⟨before, r, [], rfl, ha⟩

/-- The evidence of `now` was read before in its week, and something else in between. -/
def Returns (before : List Reading) (now : Reading) : Prop :=
  (∃ a ∈ before, a.SameEvidence now) ∧ ∀ p, lastOf before now.issue = some p → ¬ p.SameEvidence now

/-- Of the events of `now`, two have one digest, or one has the digest of an earlier event. -/
def Restamps (before : List Reading) (now : Reading) : Prop :=
  ¬ (digestsAt before now).Nodup ∨ ∃ d ∈ digestsAt before now, Stamped before now.environment d

end

/-! ## Tables and readings -/

structure IsWeekOf (w : WorkWeek) (r : Reading) : Prop where
  environment : w.environment = r.environment
  projectKey : w.projectKey = r.observation.projectKey
  weekStart : w.weekStart = r.weekStart

def InWeek (weeks : Table WorkWeek) (id : Uuid) (r : Reading) : Prop := ∃ w ∈ weeks.rows, w.id = id ∧ IsWeekOf w r

theorem InWeek.widen {weeks weeks' : Table WorkWeek} (h : ∀ w ∈ weeks.rows, w ∈ weeks'.rows) {id : Uuid}
    {r : Reading} : InWeek weeks id r → InWeek weeks' id r
  | ⟨w, hw, hr⟩ => ⟨w, h w hw, hr⟩

/-- A stored week id is that of the reading's week exactly when it is in that week. -/
theorem inWeek_iff {weeks : Table WorkWeek} {week : WorkWeek} {r p : Reading} {id : Uuid}
    (hw : week ∈ weeks.rows) (hr : IsWeekOf week r) (hp : InWeek weeks id p) (hi : p.issue = r.issue) :
    id = week.id ↔ p.weekStart = r.weekStart := by
  obtain ⟨w, hmem, rfl, hwp⟩ := hp
  simp only [Reading.issue, Prod.mk.injEq] at hi
  constructor
  · intro hid
    have := weeks.eq_of_clashes hmem hw (clashes_byIdAnd.mpr (.inl hid))
    rw [← hwp.weekStart, this, hr.weekStart]
  · intro hs
    have hkey : (w.environment, w.projectKey, w.weekStart) = (week.environment, week.projectKey, week.weekStart) := by
      rw [hwp.environment, hwp.projectKey, hwp.weekStart, hr.environment, hr.projectKey, hr.weekStart, hi.1, hi.2.1, hs]
    rw [weeks.eq_of_clashes hmem hw (clashes_byIdAnd.mpr (.inr hkey))]

section
variable [Sha256]

structure Holds (weeks : Table WorkWeek) (c : TaskCurrentState) (r : Reading) : Prop where
  state : c.state = r.observation
  fingerprint : c.evidenceFingerprint = r.observation.fingerprint
  lastObservedAt : c.lastObservedAt = r.observation.capturedAt.instant
  week : InWeek weeks c.workWeekId r

structure SnapshotOf (weeks : Table WorkWeek) (s : TaskProgressSnapshot) (r : Reading) : Prop where
  issue : s.issue = r.issue
  fingerprint : s.evidenceFingerprint = r.observation.fingerprint
  week : InWeek weeks s.workWeekId r

structure Represents (before : List Reading) (db : Database) : Prop where
  unseen : ∀ issue, lastOf before issue = none → currentState db issue = none
  states : ∀ issue p, lastOf before issue = some p → ∃ c, currentState db issue = some c ∧ Holds db.weeks c p
  snapshots : ∀ s ∈ db.snapshots.rows, ∃ a ∈ before, SnapshotOf db.weeks s a
  snapshotted : ∀ a ∈ before, ∃ s ∈ db.snapshots.rows, SnapshotOf db.weeks s a
  events : ∀ environment digest, (∃ e ∈ db.events.rows, e.environment = environment ∧ e.eventFingerprint = digest) ↔
    Stamped before environment digest

theorem represents_empty : Represents [] .empty where
  unseen _ _ := rfl
  states _ _ h := (nomatch h)
  snapshots _ hs := (nomatch hs)
  snapshotted _ ha := (nomatch ha)
  events _ _ := ⟨fun ⟨_, he, _⟩ => (nomatch he), fun ⟨first, _, _, h, _⟩ => absurd h (by simp)⟩

/-! ## Weeks -/

theorem Represents.widen {before : List Reading} {db : Database} {weeks : Table WorkWeek} (h : Represents before db)
    (hw : ∀ w ∈ db.weeks.rows, w ∈ weeks.rows) : Represents before { db with weeks } where
  unseen := h.unseen
  states issue p hp := by
    obtain ⟨c, hc, hcp⟩ := h.states issue p hp
    exact ⟨c, hc, hcp.state, hcp.fingerprint, hcp.lastObservedAt, hcp.week.widen hw⟩
  snapshots s hs := by
    obtain ⟨a, ha, hsa⟩ := h.snapshots s hs
    exact ⟨a, ha, hsa.issue, hsa.fingerprint, hsa.week.widen hw⟩
  snapshotted a ha := by
    obtain ⟨s, hs, hsa⟩ := h.snapshotted a ha
    exact ⟨s, hs, hsa.issue, hsa.fingerprint, hsa.week.widen hw⟩
  events := h.events

/-- A reading's week is found or made. -/
theorem workWeek_ok {before : List Reading} {db : Database} (h : Represents before db) (r : Reading) :
    ∃ db' week, workWeek db r = .ok (db', week) ∧ Represents before db' ∧ week ∈ db'.weeks.rows ∧ IsWeekOf week r := by
  unfold workWeek
  split
  · rename_i week hfind
    have hp := Table.find?_holds hfind
    simp only [Bool.and_eq_true, beq_iff_eq] at hp
    exact ⟨db, week, rfl, h, Table.find?_mem hfind, hp.1.1, hp.1.2, hp.2⟩
  · rename_i hfind
    obtain ⟨weeks, hweeks⟩ := Table.insert_of_fresh (t := db.weeks)
      (r := ⟨db.weeks.fresh WorkWeek.id, r.environment, r.observation.capturedAt.instant, r.observation.projectKey,
        r.weekStart, r.weekStart + 4⟩) fun w hw => by
      refine not_clashes_byIdAnd.mpr ⟨db.weeks.ne_fresh WorkWeek.id hw, fun hk => ?_⟩
      have hno := Table.find?_none hfind w hw
      simp only [Prod.mk.injEq] at hk
      simp [hk] at hno
    refine ⟨{ db with weeks }, _, by simp only [hweeks]; rfl, ?_, (Table.mem_insert hweeks).mpr (.inr rfl),
      rfl, rfl, rfl⟩
    exact h.widen fun w hw => (Table.mem_insert hweeks).mpr (.inl hw)

/-! ## One reading more -/

/-- Storing a task's state never clashes, and touches no other task's. -/
theorem storeState_ok (db : Database) (week : WorkWeek) (r : Reading) (progressed : Bool) :
    ∃ t, storeState db r week progressed = .ok t ∧ ∀ issue, t.find? (·.issue == issue) = if r.issue = issue then
        some (match currentState db issue with
          | none => newState r week
          | some c => observed r week progressed c)
      else currentState db issue := by
  unfold storeState
  cases hc : currentState db r.issue with
  | none =>
    obtain ⟨t, ht⟩ := Table.insert_of_fresh (t := db.states) (r := newState r week) fun c hcm => by
      refine not_clashes_byUnique.mpr fun he => ?_
      have hno := Table.find?_none hc c hcm
      rw [he, newState_issue, beq_self_eq_true] at hno
      cases hno
    refine ⟨t, inserted_ok.mpr ht, fun issue => ?_⟩
    rw [Table.find?_insert ht, show db.states.find? (·.issue == issue) = currentState db issue from rfl]
    by_cases hi : r.issue = issue
    · subst hi
      rw [hc, if_pos (by simp), if_pos rfl]
      rfl
    · rw [if_neg hi, if_neg (by simpa using hi), Option.or_none]
  | some c =>
    refine ⟨_, rfl, fun issue => ?_⟩
    rw [Table.find?_update (f := observed r week progressed) (q := fun c => c.issue == issue) fun _ => rfl,
      show db.states.find? (·.issue == issue) = currentState db issue from rfl]
    by_cases hi : r.issue = issue
    · subst hi
      rw [if_pos rfl, hc, Option.map_some, Table.change_pos (Table.find?_holds hc)]
    · rw [if_neg hi]
      cases hci : currentState db issue with
      | none => rfl
      | some d =>
        have := Table.find?_holds hci
        rw [Option.map_some, Table.change_neg]
        simp only [beq_iff_eq] at this
        simpa [this] using fun h => hi h.symm

section
variable {before : List Reading} {db : Database} {week : WorkWeek} {r : Reading}

theorem derivedFrom_eq (h : Represents before db) : derivedFrom (currentState db r.issue) r = derivedAt before r := by
  unfold derivedFrom derivedAt
  cases hl : lastOf before r.issue with
  | none => rw [h.unseen _ hl]
  | some p =>
    obtain ⟨c, hc, hcp⟩ := h.states _ p hl
    rw [hc]
    simp only [hcp.state]

/-- A snapshot is due unless the task's last reading shows the same evidence. -/
theorem isChanged_iff (h : Represents before db) (hw : week ∈ db.weeks.rows) (hr : IsWeekOf week r) :
    isChanged (currentState db r.issue) r week = true ↔
      ∀ p, lastOf before r.issue = some p → ¬ p.SameEvidence r := by
  unfold isChanged
  cases hl : lastOf before r.issue with
  | none => simp [h.unseen _ hl]
  | some p =>
    obtain ⟨c, hc, hcp⟩ := h.states _ p hl
    have hi := (lastOf_mem hl).2
    simp only [hc, Bool.or_eq_true, bne_iff_ne, ne_eq, Option.some.injEq, forall_eq', Reading.SameEvidence, hi,
      true_and, hcp.fingerprint, inWeek_iff hw hr hcp.week hi]
    tauto

/-- The snapshot of `r` clashes with the snapshots of its own evidence. -/
theorem snapshot_clash_iff {s : TaskProgressSnapshot} {a : Reading} (hw : week ∈ db.weeks.rows) (hr : IsWeekOf week r)
    (hs : SnapshotOf db.weeks s a) : clashes s (snapshotRow r week) = true ↔ a.SameEvidence r := by
  rw [clashes_byUnique]
  simp only [Prod.mk.injEq, hs.issue, hs.fingerprint]
  constructor
  · intro h'
    obtain ⟨hi, hid, hf⟩ := h'
    exact ⟨hi, (inWeek_iff hw hr hs.week hi).mp hid, hf⟩
  · intro h'
    obtain ⟨hi, hws, hf⟩ := h'
    exact ⟨hi, (inWeek_iff hw hr hs.week hi).mpr hws, hf⟩

theorem storeSnapshot_ok_iff (h : Represents before db) (hw : week ∈ db.weeks.rows) (hr : IsWeekOf week r) :
    (∃ t, storeSnapshot db r week = .ok t) ↔ ¬ Returns before r := by
  have hch := isChanged_iff h hw hr
  unfold storeSnapshot Returns
  split
  · rename_i hc
    simp only [inserted_ok]
    constructor
    · intro h' h''
      obtain ⟨t, ht⟩ := h'
      obtain ⟨⟨a, ha, hsame⟩, _⟩ := h''
      obtain ⟨s, hs, hsa⟩ := h.snapshotted a ha
      have hclash := Table.insert_fresh ht s hs
      rw [(snapshot_clash_iff hw hr hsa).mpr hsame] at hclash
      cases hclash
    · intro hno
      refine Table.insert_of_fresh fun s hs => ?_
      obtain ⟨a, ha, hsa⟩ := h.snapshots s hs
      rw [Bool.eq_false_iff]
      exact fun hclash => hno ⟨⟨a, ha, (snapshot_clash_iff hw hr hsa).mp hclash⟩, hch.mp hc⟩
  · rename_i hc
    exact ⟨fun _ hret => hc (hch.mpr hret.2), fun _ => ⟨_, rfl⟩⟩

theorem SnapshotOf.of_sameEvidence {weeks : Table WorkWeek} {s : TaskProgressSnapshot} {a b : Reading}
    (h : SnapshotOf weeks s a) (hab : a.SameEvidence b) : SnapshotOf weeks s b := by
  obtain ⟨w, hw, hid, hwa⟩ := h.week
  obtain ⟨hi, hws, hf⟩ := hab
  refine ⟨h.issue.trans hi, h.fingerprint.trans hf, w, hw, hid, ?_⟩
  simp only [Reading.issue, Prod.mk.injEq] at hi
  exact ⟨hwa.environment.trans hi.1, hwa.projectKey.trans hi.2.1, hwa.weekStart.trans hws⟩

theorem storeSnapshot_keeps (h : Represents before db) (hw : week ∈ db.weeks.rows) (hr : IsWeekOf week r)
    {t : Table TaskProgressSnapshot} (ht : storeSnapshot db r week = .ok t) :
    (∀ s ∈ t.rows, ∃ a ∈ before ++ [r], SnapshotOf db.weeks s a) ∧
      ∀ a ∈ before ++ [r], ∃ s ∈ t.rows, SnapshotOf db.weeks s a := by
  have hch := isChanged_iff h hw hr
  have old : ∀ s ∈ db.snapshots.rows, ∃ a ∈ before ++ [r], SnapshotOf db.weeks s a := fun s hs => by
    obtain ⟨a, ha, hsa⟩ := h.snapshots s hs
    exact ⟨a, List.mem_append_left _ ha, hsa⟩
  unfold storeSnapshot at ht
  split at ht
  · have hrow : SnapshotOf db.weeks (snapshotRow r week) r := ⟨rfl, rfl, week, hw, rfl, hr⟩
    have hmem (s) := Table.mem_insert (a := s) (inserted_ok.mp ht)
    refine ⟨fun s hs => ?_, fun a ha => ?_⟩
    · rcases (hmem s).mp hs with hs | rfl
      · exact old s hs
      · exact ⟨r, List.mem_append_right _ List.mem_cons_self, hrow⟩
    · rcases List.mem_append.mp ha with ha | ha
      · obtain ⟨s, hs, hsa⟩ := h.snapshotted a ha
        exact ⟨s, (hmem s).mpr (.inl hs), hsa⟩
      · rw [List.mem_singleton.mp ha]
        exact ⟨_, (hmem _).mpr (.inr rfl), hrow⟩
  · rename_i hc
    cases ht
    refine ⟨old, fun a ha => ?_⟩
    rcases List.mem_append.mp ha with ha | ha
    · exact h.snapshotted a ha
    · -- nothing is stored: the last reading's snapshot is this one's too
      rw [List.mem_singleton.mp ha]
      rw [hch] at hc
      push Not at hc
      obtain ⟨p, hp, hsame⟩ := hc
      obtain ⟨s, hs, hsp⟩ := h.snapshotted p (lastOf_mem hp).1
      exact ⟨s, hs, hsp.of_sameEvidence hsame⟩

theorem storeState_keeps (h : Represents before db) (hw : week ∈ db.weeks.rows) (hr : IsWeekOf week r)
    {progressed : Bool} {t : Table TaskCurrentState} (ht : storeState db r week progressed = .ok t) :
    (∀ issue, lastOf (before ++ [r]) issue = none → t.find? (·.issue == issue) = none) ∧
      ∀ issue p, lastOf (before ++ [r]) issue = some p →
        ∃ c, t.find? (·.issue == issue) = some c ∧ Holds db.weeks c p := by
  obtain ⟨t', ht', hfind⟩ := storeState_ok db week r progressed
  rw [ht] at ht'
  cases ht'
  have hweek : InWeek db.weeks week.id r := ⟨week, hw, rfl, hr⟩
  refine ⟨fun issue hl => ?_, fun issue p hl => ?_⟩
  · rw [lastOf_snoc] at hl
    by_cases hi : r.issue = issue
    · rw [if_pos hi] at hl
      cases hl
    · rw [hfind, if_neg hi]
      exact h.unseen issue (by rwa [if_neg hi] at hl)
  · rw [lastOf_snoc] at hl
    rw [hfind]
    by_cases hi : r.issue = issue
    · rw [if_pos hi] at hl ⊢
      cases hl
      refine ⟨_, rfl, ?_⟩
      cases currentState db issue with
      | none => exact ⟨rfl, rfl, rfl, hweek⟩
      | some c => exact ⟨rfl, rfl, rfl, hweek⟩
    · rw [if_neg hi] at hl ⊢
      exact h.states issue p hl

theorem event_clash_iff {e : TaskProgressEvent} {d : DerivedProgressEvent} :
    clashes e (eventRow r week d) = true ↔
      e.environment = r.environment ∧ e.eventFingerprint = r.eventFingerprint d := by
  rw [clashes_byUnique]
  simp [eventRow]

theorem storeEvents_ok_iff (week : WorkWeek) (h : Represents before db) :
    (∃ t, db.events.insertAll ((derivedAt before r).map (eventRow r week)) = some t) ↔ ¬ Restamps before r := by
  have hpair : ((derivedAt before r).map (eventRow r week)).Pairwise (fun a b => clashes a b = false) ↔
      (digestsAt before r).Nodup := by
    rw [digestsAt, List.Nodup, List.pairwise_map, List.pairwise_map]
    simp only [← Bool.not_eq_true, event_clash_iff]
    simp [eventRow]
  have hfresh : (∀ e ∈ db.events.rows, ∀ d ∈ (derivedAt before r).map (eventRow r week), clashes e d = false) ↔
      ∀ d ∈ digestsAt before r, ¬ Stamped before r.environment d := by
    simp only [digestsAt, List.forall_mem_map, ← h.events, ← Bool.not_eq_true, event_clash_iff]
    exact ⟨fun hno d hd ⟨e, he, hed⟩ => hno e he d hd hed, fun hno e he d hd hed => hno d hd ⟨e, he, hed⟩⟩
  rw [Table.insertAll_ok, hpair, hfresh, Restamps]
  push Not
  exact and_comm

theorem storeEvents_keeps (h : Represents before db) {t : Table TaskProgressEvent}
    (ht : db.events.insertAll ((derivedAt before r).map (eventRow r week)) = some t) (environment digest : String) :
    (∃ e ∈ t.rows, e.environment = environment ∧ e.eventFingerprint = digest) ↔
      Stamped (before ++ [r]) environment digest := by
  rw [Table.insertAll_rows ht, stamped_snoc, ← h.events]
  simp only [List.mem_append, List.mem_map, or_and_right, exists_or, digestsAt]
  refine or_congr_right ⟨?_, ?_⟩
  · intro h'
    obtain ⟨_, ⟨d, hd, rfl⟩, he, rfl⟩ := h'
    exact ⟨he, d, hd, rfl⟩
  · intro h'
    obtain ⟨he, d, hd, rfl⟩ := h'
    exact ⟨_, ⟨d, hd, rfl⟩, he, rfl⟩

theorem recordObservation_ok_iff {s : Session} (h : Represents before s.db) :
    (∃ s', recordObservation s r = .ok s') ↔ ¬ Returns before r ∧ ¬ Restamps before r := by
  obtain ⟨db, week, hweek, hdb, hw, hr⟩ := workWeek_ok h r
  obtain ⟨states, hstates, _⟩ := storeState_ok db week r ((derivedAt before r).any (·.structuredProgress))
  rw [← storeSnapshot_ok_iff hdb hw hr, ← storeEvents_ok_iff week hdb]
  simp only [recordObservation_cases, hweek, Except.ok.injEq, Prod.mk.injEq]
  constructor
  · intro h'
    obtain ⟨_, _, _, snapshots, _, events, ⟨rfl, rfl⟩, hsnap, _, hev, _⟩ := h'
    rw [derivedFrom_eq hdb] at hev
    exact ⟨⟨snapshots, hsnap⟩, events, hev⟩
  · intro h'
    obtain ⟨⟨snapshots, hsnap⟩, events, hev⟩ := h'
    rw [← derivedFrom_eq hdb] at hstates hev
    exact ⟨_, db, week, snapshots, states, events, ⟨rfl, rfl⟩, hsnap, hstates, hev, rfl⟩

theorem recordObservation_keeps {s s' : Session} (h : Represents before s.db) (hs : recordObservation s r = .ok s') :
    Represents (before ++ [r]) s'.db := by
  obtain ⟨db, week, hweek, hdb, hw, hr⟩ := workWeek_ok h r
  obtain ⟨_, _, snapshots, states, events, hweek', hsnap, hstates, hev, rfl⟩ := recordObservation_cases.mp hs
  rw [hweek] at hweek'
  cases hweek'
  rw [derivedFrom_eq hdb] at hev
  obtain ⟨hsnapshots, hsnapshotted⟩ := storeSnapshot_keeps hdb hw hr hsnap
  obtain ⟨hunseen, hst⟩ := storeState_keeps hdb hw hr hstates
  exact ⟨hunseen, hst, hsnapshots, hsnapshotted, storeEvents_keeps hdb hev⟩

end

end

end WorkforceRisk.Progress
