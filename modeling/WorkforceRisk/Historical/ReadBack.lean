/-
  WorkforceRisk.Historical.ReadBack — whether the reader returns what the scans stored.

  The reader orders by the first observation of a scan's evidence. A scan whose evidence
  was seen before is older to it than it is, or tied with the scan that saw it first; and
  a result stored after the day in question counts as one of the day its evidence was
  first observed.

  Proved: after any calls of `persist` for one employee and project, exactly when the
  reader reads back the last scan, its previous dossier the one before, and for a dated
  question no result of a later day, whichever order the database gives the rows of one
  time (`history_reads_back_iff`).
-/

import WorkforceRisk.Historical.Recorded

namespace WorkforceRisk.Historical

open Lib Persistence Risk Scans DatabaseHistoricalEvidenceReader

section
variable [Sha256]

/-- Of the scans whose evidence was first observed before `end_`, `s` is one of those
    whose evidence was first observed last. -/
def Newest (all scans : List ScanResult) (end_ : DateTime) (s : ScanResult) : Prop :=
  s ∈ scans ∧ firstObserved all s < end_ ∧
    ∀ t ∈ scans, firstObserved all t < end_ → firstObserved all t ≤ firstObserved all s

/-- The evidence of the last scan is new, and that of a scan before it is not newer. -/
def LastIsNewest (earlier : List ScanResult) (last : ScanResult) (end_ : DateTime) : Prop :=
  firstObserved (earlier ++ [last]) last < end_ ∧ ∀ s ∈ earlier, firstObserved (earlier ++ [last]) s < end_ →
    firstObserved (earlier ++ [last]) s < firstObserved (earlier ++ [last]) last

/-- Of the scans before the last, those whose evidence is the newest have the dossier of
    the one before the last. -/
def BeforeIsNewest (earlier : List ScanResult) (last : ScanResult) (end_ : DateTime) : Prop :=
  ∀ s, Newest (earlier ++ [last]) earlier end_ s → ∀ previous, earlier.getLast? = some previous →
    (stored (earlier ++ [last]) s).evidenceDossier.map dossierContent = previous.evidenceDossier.map dossierContent

/-- When the reader answers a question with the date, or without, from the right scans. -/
def Settled (earlier : List ScanResult) (last : ScanResult) (today : Date) : Option Date → Prop
  | none => LastIsNewest earlier last (today + 1).midnight ∧ BeforeIsNewest earlier last (today + 1).midnight
  | some date => ∀ s, Newest (earlier ++ [last]) (earlier ++ [last]) (date + 1).midnight s →
      s.now < (date + 1).midnight

/-- The result and the dossier of the last scan, beside the dossier of the latest scan
    before it with other evidence. -/
def ReadsLast (earlier : List ScanResult) (last : ScanResult) (context : HistoricalRiskContext) : Prop :=
  context.risk = ⟨last.result, last.now, last.inputData.evidenceTimestamp.instant⟩ ∧
  some (dossierContent context.dossier) = last.evidenceDossier.map dossierContent ∧
  ∀ previous, context.previousDossier = some previous →
    ∃ other, earlier.reverse.find? (fun s => evidenceContent s ≠ evidenceContent last) = some other ∧
      some (dossierContent previous) = other.evidenceDossier.map dossierContent

/-- What the answer to a question is to be after the scan `last`: that scan, or for a date
    no result stored after it. -/
def ReadsBack [Unicode] (reader : DatabaseHistoricalEvidenceReader) (rank : Uuid → Nat) (db : Database)
    (question employee project : String) (earlier : List ScanResult) (last : ScanResult) : Prop :=
  match parseHistoricalDate question reader.today with
  | .error _ => True
  | .ok none => ∃ context, reader.getAt rank db question employee project = .ok context ∧ ReadsLast earlier last context
  | .ok (some date) => ∀ context, reader.getAt rank db question employee project = .ok context →
      context.risk.scoredAt < (date + 1).midnight

/-! ## The first rows -/

instance (rank : Uuid → Nat) : Std.Total (Newer rank) where
  total a b := by
    rcases Int.lt_trichotomy a.snapshot.observedAt b.snapshot.observedAt with h | h | h
    · exact .inr (.inl h)
    · rcases Nat.le_total (rank a.record.id) (rank b.record.id) with hr | hr
      · exact .inl (.inr ⟨h, hr⟩)
      · exact .inr (.inr ⟨h.symm, hr⟩)
    · exact .inl (.inl h)

instance (rank : Uuid → Nat) : IsTrans EvidenceRow (Newer rank) where
  trans a b c hab hbc := by
    rcases hab with hab | ⟨hab, hr⟩
    · rcases hbc with hbc | ⟨hbc, _⟩
      · exact .inl (Int.lt_trans hbc hab)
      · exact .inl (hbc ▸ hab)
    · rcases hbc with hbc | ⟨hbc, hr'⟩
      · exact .inl (hab ▸ hbc)
      · exact .inr ⟨hab.trans hbc, Nat.le_trans hr hr'⟩

/-- Ranks that put one result before all others, or after them. -/
def rankedFirst (id : Uuid) : Uuid → Nat := fun other => if other = id then 0 else 1

def rankedLast (id : Uuid) : Uuid → Nat := fun other => if other = id then 1 else 0

omit [Sha256] in
theorem eq_of_rankedFirst {id other : Uuid} (h : rankedFirst id other ≤ rankedFirst id id) : other = id := by
  simp only [rankedFirst, if_pos] at h
  split at h
  · assumption
  · omega

omit [Sha256] in
theorem eq_of_rankedLast {id other : Uuid} (h : rankedLast id id ≤ rankedLast id other) : other = id := by
  simp only [rankedLast, if_pos] at h
  split at h
  · assumption
  · omega

variable {environment : Environment} {employee project : String} {db : Database} {scans : List ScanResult}
  {rank : Uuid → Nat} {a b x : EvidenceRow} {rows rest : List EvidenceRow} {d d' : RiskEvidenceDossier}

omit [Sha256] in
theorem choose_dated {date : Date} (ha : a.snapshot.riskEvidenceDossier = some d) (hp : d.projectKey = project)
    (he : d.employeeId = employee) :
    choose (some date) employee project none (a :: rest) = .ok ⟨a.risk employee, d, none⟩ := by
  simp [choose, ha, hp, he]

omit [Sha256] in
theorem choose_one (ha : a.snapshot.riskEvidenceDossier = some d) (hp : d.projectKey = project)
    (he : d.employeeId = employee) : choose none employee project none [a] = .ok ⟨a.risk employee, d, none⟩ := by
  simp [choose, ha, hp, he]

omit [Sha256] in
theorem choose_two (ha : a.snapshot.riskEvidenceDossier = some d) (hp : d.projectKey = project)
    (he : d.employeeId = employee) (hb : b.snapshot.riskEvidenceDossier = some d') (hp' : d'.projectKey = project)
    (he' : d'.employeeId = employee) :
    choose none employee project none (a :: b :: rest) = .ok ⟨a.risk employee, d, some d'⟩ := by
  simp [choose, ha, hp, he, hb, hp', he']

variable {reader : DatabaseHistoricalEvidenceReader} {end_ : DateTime} {s t : ScanResult}

/-- What the reader selects, in its order. -/
def sorted (reader : DatabaseHistoricalEvidenceReader) (rank : Uuid → Nat) (db : Database) (employee : String)
    (end_ : DateTime) : List EvidenceRow := (reader.selected db employee end_).insertionSort (Newer rank)

namespace History

variable (h : History reader.environment employee project scans db)
include h

theorem mem_selected : a ∈ reader.selected db employee end_ ↔ a ∈ joined db ∧ a.snapshot.observedAt < end_ := by
  rw [selected, List.mem_filter]
  refine and_congr_right fun ha => ?_
  obtain ⟨t, ht, hreads⟩ := h.scan_of ha
  have hsub := h.subject _ (stored_mem ht).1
  rw [hreads.snapshot, hreads.record]
  simp [evidenceOf, recordOf, hsub]

theorem sorted_nodup (rank : Uuid → Nat) (end_ : DateTime) : (sorted reader rank db employee end_).Nodup :=
  (List.perm_insertionSort _ _).nodup_iff.mpr ((h.createdAt_nodup.of_map).filter _)

/-- Every row has a dossier of the employee and the project. -/
theorem dossier_of (ha : a ∈ joined db) :
    ∃ d, a.snapshot.riskEvidenceDossier = some d ∧ d.employeeId = employee ∧ d.projectKey = project := by
  obtain ⟨t, ht, hreads⟩ := h.scan_of ha
  rw [hreads.dossier]
  exact h.dossiers _ (stored_mem ht).1

theorem mem_sorted (rank : Uuid → Nat) :
    a ∈ sorted reader rank db employee end_ ↔ a ∈ joined db ∧ a.snapshot.observedAt < end_ := by
  rw [sorted, List.mem_insertionSort, h.mem_selected]

theorem first_mem (hs : sorted reader rank db employee end_ = a :: rest) :
    a ∈ joined db ∧ a.snapshot.observedAt < end_ :=
  (h.mem_sorted rank).mp (by rw [hs]; exact List.mem_cons_self)

theorem second_mem (hs : sorted reader rank db employee end_ = a :: b :: rest) :
    b ∈ joined db ∧ b.snapshot.observedAt < end_ :=
  (h.mem_sorted rank).mp (by rw [hs]; exact List.mem_cons_of_mem _ List.mem_cons_self)

/-- The first row is that of a scan whose evidence is among the newest. -/
theorem first_newest (hs : sorted reader rank db employee end_ = a :: rest) :
    ∃ t, Reads reader.environment scans t a ∧ Newest scans scans end_ t := by
  obtain ⟨hjoined, hend⟩ := h.first_mem hs
  obtain ⟨t, ht, hreads⟩ := h.scan_of hjoined
  refine ⟨t, hreads, ht, hreads.observedAt ▸ hend, fun u hu huend => ?_⟩
  obtain ⟨y, hy, hyreads⟩ := h.row_of hu
  have hya := sort_first hs (h.mem_selected.mpr ⟨hy, hyreads.observedAt ▸ huend⟩)
  rw [Newer, hreads.observedAt, hyreads.observedAt] at hya
  rcases hya with hlt | ⟨heq, _⟩
  · exact Int.le_of_lt hlt
  · exact Int.le_of_eq heq.symm

/-- Put before all others, a row of the newest is the first. -/
theorem rankedFirst_first (hx : x ∈ joined db) (hreads : Reads reader.environment scans t x)
    (ht : Newest scans scans end_ t) :
    ∃ rest, sorted reader (rankedFirst x.record.id) db employee end_ = x :: rest := by
  have hmem := (h.mem_sorted (rankedFirst x.record.id)).mpr ⟨hx, hreads.observedAt ▸ ht.2.1⟩
  cases hs : sorted reader (rankedFirst x.record.id) db employee end_ with
  | nil => rw [hs] at hmem; cases hmem
  | cons a rest =>
    obtain ⟨hjoined, hend⟩ := h.first_mem hs
    obtain ⟨u, hu, hureads⟩ := h.scan_of hjoined
    have hax := sort_first hs (h.mem_selected.mpr ⟨hx, hreads.observedAt ▸ ht.2.1⟩)
    rw [Newer, hreads.observedAt, hureads.observedAt] at hax
    rcases hax with hlt | ⟨_, hrank⟩
    · exact absurd (ht.2.2 u hu (hureads.observedAt ▸ hend)) (Int.not_le.mpr hlt)
    · rw [joined_unique hjoined hx (eq_of_rankedFirst hrank)]
      exact ⟨rest, rfl⟩

/-- A question with a date is answered with the first row. -/
theorem dated_answer (date : Date) (hs : sorted reader rank db employee end_ = a :: rest) :
    ∃ context, choose (some date) employee project none (reader.newest rank db employee end_) = .ok context ∧
      context.risk = a.risk employee := by
  obtain ⟨d, hd, he, hp⟩ := h.dossier_of (h.first_mem hs).1
  rw [newest, ← sorted, hs, List.take_succ_cons]
  exact ⟨_, choose_dated hd hp he, rfl⟩

/-- One without a date with the first row, and the dossier of the second. -/
theorem undated_answer (hs : sorted reader rank db employee end_ = a :: rest) :
    ∃ context, choose none employee project none (reader.newest rank db employee end_) = .ok context ∧
      context.risk = a.risk employee ∧ some context.dossier = a.snapshot.riskEvidenceDossier ∧
      context.previousDossier = rest.head?.bind (·.snapshot.riskEvidenceDossier) := by
  obtain ⟨d, hd, he, hp⟩ := h.dossier_of (h.first_mem hs).1
  rw [newest, ← sorted, hs, List.take_succ_cons, hd]
  cases rest with
  | nil => exact ⟨_, choose_one hd hp he, rfl, rfl, rfl⟩
  | cons b rest =>
    obtain ⟨d', hd', he', hp'⟩ := h.dossier_of (h.second_mem hs).1
    rw [List.take_succ_cons]
    exact ⟨_, choose_two hd hp he hd' hp' he', rfl, rfl, hd'.symm⟩

theorem dated_iff {date : Date} :
    (∀ rank context, choose (some date) employee project none (reader.newest rank db employee end_) = .ok context →
      context.risk.scoredAt < end_) ↔ ∀ s, Newest scans scans end_ s → s.now < end_ := by
  constructor
  · intro hall s hs
    obtain ⟨x, hx, hreads⟩ := h.row_of hs.1
    obtain ⟨rest, hfirst⟩ := h.rankedFirst_first hx hreads hs
    obtain ⟨context, hc, hrisk⟩ := h.dated_answer date hfirst
    have := hall _ context hc
    rw [hrisk, hreads.risk (h.subject s hs.1)] at this
    exact this
  · intro hall rank context hc
    cases hs : sorted reader rank db employee end_ with
    | nil =>
      rw [newest, ← sorted, hs] at hc
      cases hc
    | cons a rest =>
      obtain ⟨t, hreads, ht⟩ := h.first_newest hs
      obtain ⟨context', hc', hrisk⟩ := h.dated_answer date hs
      rw [hc'] at hc
      cases hc
      rw [hrisk, hreads.risk (h.subject t ht.1)]
      exact hall t ht

end History

/-! ## A question without a date -/

section
variable {earlier : List ScanResult} {last : ScanResult} {today : Date}
  (h : History reader.environment employee project (earlier ++ [last]) db)
include h

theorem now_lt (ht : t ∈ earlier) : t.now < last.now :=
  (List.pairwise_append.mp h.times).2.2 t ht last (List.mem_singleton_self _)

omit [Sha256] h in
theorem mem_earlier (ht : t ∈ earlier ++ [last]) (hne : t.now ≠ last.now) : t ∈ earlier := by
  rcases List.mem_append.mp ht with ht | ht
  · exact ht
  · exact absurd (congrArg ScanResult.now (List.mem_singleton.mp ht)) hne

/-- A row of an earlier scan is not that of the last. -/
theorem row_ne (hb : Reads reader.environment (earlier ++ [last]) t b) (ht : t ∈ earlier)
    (ha : Reads reader.environment (earlier ++ [last]) last a) : b ≠ a := by
  intro hba
  have hnow : t.now = last.now := hb.createdAt.symm.trans ((congrArg (·.record.createdAt) hba).trans ha.createdAt)
  exact absurd (now_lt h ht) (hnow ▸ Int.lt_irrefl _)

theorem last_first (hl : LastIsNewest earlier last end_) (hx : x ∈ joined db)
    (hreads : Reads reader.environment (earlier ++ [last]) last x) (rank : Uuid → Nat) :
    ∃ rest, sorted reader rank db employee end_ = x :: rest := by
  have hmem := (h.mem_sorted rank).mpr ⟨hx, hreads.observedAt ▸ hl.1⟩
  cases hs : sorted reader rank db employee end_ with
  | nil => rw [hs] at hmem; cases hmem
  | cons a rest =>
    obtain ⟨t, htreads, ht⟩ := h.first_newest hs
    by_cases hnow : t.now = last.now
    · rw [h.row_eq (h.first_mem hs).1 hx htreads hreads hnow]
      exact ⟨rest, rfl⟩
    · have hlt := hl.2 t (mem_earlier ht.1 hnow) ht.2.1
      have hle := ht.2.2 last (List.mem_append_right _ (List.mem_singleton_self _)) hl.1
      exact absurd hle (Int.not_le.mpr hlt)

/-- The second row is that of an earlier scan whose evidence is among the newest. -/
theorem second_newest (hreads : Reads reader.environment (earlier ++ [last]) last a)
    (hs : sorted reader rank db employee end_ = a :: b :: rest) :
    ∃ t, Reads reader.environment (earlier ++ [last]) t b ∧ Newest (earlier ++ [last]) earlier end_ t := by
  have hne : b ≠ a := by
    have hnodup := h.sorted_nodup rank end_
    rw [hs] at hnodup
    exact fun hba => (List.nodup_cons.mp hnodup).1 (hba ▸ List.mem_cons_self)
  obtain ⟨hjoined, hend⟩ := h.second_mem hs
  obtain ⟨t, ht, htreads⟩ := h.scan_of hjoined
  have htearlier : t ∈ earlier :=
    mem_earlier ht fun hnow => hne (h.row_eq hjoined (h.first_mem hs).1 htreads hreads hnow)
  refine ⟨t, htreads, htearlier, htreads.observedAt ▸ hend, fun u hu huend => ?_⟩
  obtain ⟨y, hy, hyreads⟩ := h.row_of (List.mem_append_left _ hu)
  have hby := sort_second hs (h.mem_selected.mpr ⟨hy, hyreads.observedAt ▸ huend⟩) (row_ne h hyreads hu hreads)
  rw [Newer, htreads.observedAt, hyreads.observedAt] at hby
  rcases hby with hlt | ⟨heq, _⟩
  · exact Int.le_of_lt hlt
  · exact Int.le_of_eq heq.symm

/-- After the row of the last scan, a row of the newest before it that is put before all
    others is the second. -/
theorem rankedFirst_second (hreads : Reads reader.environment (earlier ++ [last]) last x) (hb : b ∈ joined db)
    (hbreads : Reads reader.environment (earlier ++ [last]) t b) (ht : Newest (earlier ++ [last]) earlier end_ t)
    (hs : sorted reader (rankedFirst b.record.id) db employee end_ = x :: rest) : rest.head? = some b := by
  have hne := row_ne h hbreads ht.1 hreads
  have hmem := (h.mem_sorted (rankedFirst b.record.id)).mpr ⟨hb, hbreads.observedAt ▸ ht.2.1⟩
  rw [hs] at hmem
  cases rest with
  | nil => exact absurd (List.mem_singleton.mp hmem) hne
  | cons c rest =>
    obtain ⟨u, hureads, hu⟩ := second_newest h hreads hs
    have hcb := sort_second hs (h.mem_selected.mpr ⟨hb, hbreads.observedAt ▸ ht.2.1⟩) hne
    rw [Newer, hureads.observedAt, hbreads.observedAt] at hcb
    rcases hcb with hlt | ⟨_, hrank⟩
    · exact absurd (ht.2.2 u hu.1 hu.2.1) (Int.not_le.mpr hlt)
    · rw [joined_unique (h.second_mem hs).1 hb (eq_of_rankedFirst hrank)]
      rfl

omit h in
theorem last_stored (hl : LastIsNewest earlier last end_) (ht : t ∈ earlier) : t.fingerprint ≠ last.fingerprint := by
  intro hfp
  have hsame : firstObserved (earlier ++ [last]) last = firstObserved (earlier ++ [last]) t := by
    unfold firstObserved
    rw [stored_append ht rfl, stored_append ht hfp]
  exact absurd (hl.2 t ht (hsame ▸ hl.1)) (hsame ▸ Int.lt_irrefl _)

omit h in
/-- The latest scan with other evidence is the one before the last. -/
theorem find_other (hl : LastIsNewest earlier last end_) {previous : ScanResult}
    (hp : earlier.getLast? = some previous) :
    earlier.reverse.find? (fun s => evidenceContent s ≠ evidenceContent last) = some previous := by
  obtain ⟨init, hinit⟩ := List.getLast?_eq_some_iff.mp hp
  have hother : evidenceContent previous ≠ evidenceContent last :=
    fun heq => last_stored hl (List.mem_of_getLast? hp) (fingerprint_of_content heq)
  rw [hinit, List.reverse_append, List.reverse_singleton, List.singleton_append, List.find?_cons_of_pos (by simpa)]

/-- Ranked last, the row of the last scan is the first only if its evidence is newer than all. -/
theorem lastIsNewest_of (hx : x ∈ joined db) (hreads : Reads reader.environment (earlier ++ [last]) last x)
    {context : HistoricalRiskContext}
    (hc : choose none employee project none (reader.newest (rankedLast x.record.id) db employee end_) = .ok context)
    (hback : ReadsLast earlier last context) : LastIsNewest earlier last end_ := by
  cases hs : sorted reader (rankedLast x.record.id) db employee end_ with
  | nil =>
    rw [newest, ← sorted, hs] at hc
    cases hc
  | cons a rest =>
    obtain ⟨context', hc', hrisk, _⟩ := h.undated_answer hs
    rw [hc'] at hc
    cases hc
    obtain ⟨t, htreads, ht⟩ := h.first_newest hs
    have hnow : t.now = last.now := by
      have hsame := hback.1
      rw [hrisk, htreads.risk (h.subject t ht.1)] at hsame
      exact (HistoricalRisk.mk.inj hsame).2.1
    have hax : a = x := h.row_eq (h.first_mem hs).1 hx htreads hreads hnow
    subst hax
    refine ⟨hreads.observedAt ▸ (h.first_mem hs).2, fun s hsearlier hsend => ?_⟩
    obtain ⟨y, hy, hyreads⟩ := h.row_of (List.mem_append_left [last] hsearlier)
    have hay := sort_first hs (h.mem_selected.mpr ⟨hy, hyreads.observedAt ▸ hsend⟩)
    rw [Newer, hreads.observedAt, hyreads.observedAt] at hay
    rcases hay with hlt | ⟨_, hrank⟩
    · exact hlt
    · exact absurd (joined_unique hy hx (eq_of_rankedLast hrank)) (row_ne h hyreads hsearlier hreads)

/-- Ranked first, the row of each of the newest before the last is the second. -/
theorem beforeIsNewest_of (hl : LastIsNewest earlier last end_) (hx : x ∈ joined db)
    (hreads : Reads reader.environment (earlier ++ [last]) last x)
    (hall : ∀ rank, ∃ context,
      choose none employee project none (reader.newest rank db employee end_) = .ok context ∧
        ReadsLast earlier last context) : BeforeIsNewest earlier last end_ := by
  intro s hs previous hp
  obtain ⟨y, hy, hyreads⟩ := h.row_of (List.mem_append_left [last] hs.1)
  obtain ⟨rest, hfirst⟩ := last_first h hl hx hreads (rankedFirst y.record.id)
  obtain ⟨context, hc, _, _, hback⟩ := hall (rankedFirst y.record.id)
  obtain ⟨context', hc', _, _, hprevious⟩ := h.undated_answer hfirst
  rw [hc'] at hc
  cases hc
  rw [rankedFirst_second h hreads hy hyreads hs hfirst] at hprevious
  obtain ⟨d, hd, _⟩ := h.dossier_of hy
  obtain ⟨other, hother, hsame⟩ := hback d (hprevious.trans hd)
  rw [find_other hl hp] at hother
  cases hother
  rw [← hyreads.dossier, hd]
  exact hsame

theorem readsLast_of (hl : LastIsNewest earlier last end_) (hbefore : BeforeIsNewest earlier last end_)
    (rank : Uuid → Nat) : ∃ context,
      choose none employee project none (reader.newest rank db employee end_) = .ok context ∧
        ReadsLast earlier last context := by
  have hmem : last ∈ earlier ++ [last] := List.mem_append_right _ (List.mem_singleton_self _)
  obtain ⟨x, hx, hreads⟩ := h.row_of hmem
  obtain ⟨rest, hfirst⟩ := last_first h hl hx hreads rank
  obtain ⟨context, hc, hrisk, hdossier, hprevious⟩ := h.undated_answer hfirst
  have hstored : stored (earlier ++ [last]) last = last := stored_new fun t ht => last_stored hl ht
  refine ⟨context, hc, ?_, ?_, fun previous hp => ?_⟩
  · rw [hrisk, hreads.risk (h.subject last hmem), firstObserved, hstored]
  · rw [← hstored, ← hreads.dossier, ← hdossier]
    rfl
  · rw [hprevious] at hp
    cases rest with
    | nil => cases hp
    | cons b rest =>
      obtain ⟨t, htreads, ht⟩ := second_newest h hreads hfirst
      obtain ⟨other, hother⟩ := Option.isSome_iff_exists.mp (List.getLast?_isSome.mpr (List.ne_nil_of_mem ht.1))
      have hdossier : b.snapshot.riskEvidenceDossier = some previous := hp
      refine ⟨other, find_other hl hother, ?_⟩
      rw [← hbefore t ht other hother, ← htreads.dossier, hdossier]
      rfl

end

/-- After any calls of `persist` for one employee and project, a question is answered from
    what the scans stored, whatever order the database gives rows of one time, exactly
    when: without a date, the last scan's evidence was first observed by then and after
    that of every scan before it, of which the newest has the dossier of the one before;
    with a date, the scans whose evidence was first observed last by its end are stored
    by its end. -/
theorem history_reads_back_iff [Unicode] (reader : DatabaseHistoricalEvidenceReader) (calls : List ScanResult)
    (employee project question : String) (earlier : List ScanResult) (last : ScanResult)
    (hof : ∀ s ∈ calls, s.result.subjectId = employee ∧
      ∃ d, s.evidenceDossier = some d ∧ d.employeeId = employee ∧ d.projectKey = project)
    (htimes : calls.Pairwise (·.now < ·.now))
    (hscans : Transaction.committed (persist reader.environment) .empty calls = earlier ++ [last]) :
    (∀ rank, ReadsBack reader rank (Transaction.after (persist reader.environment) .empty calls) question employee
      project earlier last) ↔
    ∀ requested, parseHistoricalDate question reader.today = .ok requested →
      Settled earlier last reader.today requested := by
  have hsub : (earlier ++ [last]).Sublist calls := hscans ▸ Transaction.committed_sublist
  have h : History reader.environment employee project (earlier ++ [last])
      (Transaction.after (persist reader.environment) .empty calls) := by
    refine ⟨?_, fun t ht => (hof t (hsub.subset ht)).1, fun t ht => (hof t (hsub.subset ht)).2, htimes.sublist hsub⟩
    rw [← hscans]
    exact recorded_after reader.environment calls fun t ht => (hof t (hsub.subset (hscans ▸ ht))).1
  unfold ReadsBack
  cases hq : parseHistoricalDate question reader.today with
  | error e =>
    exact iff_of_true (fun _ => trivial) fun _ h => by cases h
  | ok requested =>
    simp only [getAt_eq hq, Except.ok.injEq, forall_eq']
    cases requested with
    | some date => exact h.dated_iff
    | none =>
      constructor
      · intro hall
        obtain ⟨x, hx, hreads⟩ := h.row_of (List.mem_append_right earlier (List.mem_singleton_self last))
        obtain ⟨context, hc, hback⟩ := hall (rankedLast x.record.id)
        have hl := lastIsNewest_of h hx hreads hc hback
        exact ⟨hl, beforeIsNewest_of h hl hx hreads hall⟩
      · intro hset rank
        exact readsLast_of h hset.1 hset.2 rank

end

/-! ## Evidence that comes back -/

/-- A scan that found so many overdue tasks, read and stored at `at_`. -/
def sampleScan (project : String) (overdueTasks : Nat) (at_ : DateTime) : ScanResult :=
  { inputData :=
      { employeeId := "employee-1"
        environment := .dev
        remainingEstimatedHours := none
        availableCapacityHours := none
        overdueTasks := some overdueTasks
        blockedOrBlockingTasks := some 0
        urgentHighPriorityTasks := some 0
        dueSoonTasks := some 0
        activeTasks := some 4
        concurrentProjects := some 1
        staleTasks := some 0
        evidenceTimestamp := ⟨at_, 0⟩
        evidenceReferences := [] }
    result :=
      { subjectId := "employee-1"
        environment := .dev
        score := none
        level := none
        confidence := .insufficientData
        scoringModelVersion := "employee-overload-v1"
        factors := []
        thresholds := []
        evidenceReferences := []
        missingEvidence := []
        excludedEvidence := [] }
    evidenceDossier := some
      { employeeId := "employee-1"
        projectKey := project
        observedAt := ⟨at_, 0⟩
        availableCapacityHours := 32
        totalRemainingHours := none
        tasks := []
        overdueTaskKeys := (List.range overdueTasks).map toString
        dueSoonTaskKeys := []
        blockedTaskKeys := []
        missingEvidence := []
        evidenceReferences := [] }
    correlationId := "scan-1"
    now := at_ }

def sampleReader : DatabaseHistoricalEvidenceReader := ⟨.dev, 20689⟩

def sampleQuestion : String := "Has this employee's situation improved?"

theorem sampleQuestion_undated : letI := Unicode.ascii
    parseHistoricalDate sampleQuestion sampleReader.today = .ok none := by
  let _ := Unicode.ascii
  have hq : (parseHistoricalDate sampleQuestion sampleReader.today).toOption = some none := by decide +kernel
  cases h : parseHistoricalDate sampleQuestion sampleReader.today with
  | error e => rw [h] at hq; cases hq
  | ok requested => rw [h] at hq; rw [Option.some.inj hq]

/-- None overdue at eight, one at nine, two at ten. -/
def sampleGrowth : List ScanResult :=
  [sampleScan "WFD" 0 1787558400000000, sampleScan "WFD" 1 1787562000000000, sampleScan "WFD" 2 1787565600000000]

theorem history_reads_back_growth : letI := Sha256.transparent; letI := Unicode.ascii
    ReadsBack sampleReader (fun _ => 0) (Transaction.after (persist .dev) .empty sampleGrowth) sampleQuestion
      "employee-1" "WFD" (sampleGrowth.take 2) (sampleScan "WFD" 2 1787565600000000) := by
  let _ := Sha256.transparent
  let _ := Unicode.ascii
  have hscans : Transaction.committed (persist .dev) .empty sampleGrowth = sampleGrowth :=
    Transaction.committed_sublist.eq_of_length (by decide +kernel)
  have hof : ∀ s ∈ sampleGrowth, s.result.subjectId = "employee-1" ∧
      ∃ d, s.evidenceDossier = some d ∧ d.employeeId = "employee-1" ∧ d.projectKey = "WFD" := by
    intro s hs
    simp only [sampleGrowth, List.mem_cons, List.not_mem_nil, or_false] at hs
    rcases hs with rfl | rfl | rfl <;> exact ⟨rfl, _, rfl, rfl, rfl⟩
  refine (history_reads_back_iff sampleReader sampleGrowth _ _ _ (sampleGrowth.take 2)
    (sampleScan "WFD" 2 1787565600000000) hof (by decide) hscans).mpr ?_ fun _ => 0
  intro requested hq
  rw [sampleQuestion_undated] at hq
  cases hq
  refine ⟨⟨by decide +kernel, by decide +kernel⟩, fun s hs previous hp => ?_⟩
  obtain ⟨hmem, _, hnewest⟩ := hs
  rcases List.mem_cons.mp hmem with rfl | hmem
  · exact absurd (hnewest (sampleScan "WFD" 1 1787562000000000) (List.mem_cons_of_mem _ List.mem_cons_self)
      (by decide +kernel)) (by decide +kernel)
  · rw [List.mem_singleton.mp hmem, ← Option.some.inj hp]
    decide +kernel

/-- None overdue at eight, one at nine, none again at ten. -/
def sampleReturn : List ScanResult :=
  [sampleScan "WFD" 0 1787558400000000, sampleScan "WFD" 1 1787562000000000, sampleScan "WFD" 0 1787565600000000]

/-- The answer is the scan of nine. -/
theorem returning_evidence_stale : letI := Sha256.transparent; letI := Unicode.ascii
    Transaction.committed (persist .dev) .empty sampleReturn = sampleReturn ∧
      ¬ ReadsBack sampleReader (fun _ => 0) (Transaction.after (persist .dev) .empty sampleReturn) sampleQuestion
        "employee-1" "WFD" (sampleReturn.take 2) (sampleScan "WFD" 0 1787565600000000) := by
  let _ := Sha256.transparent
  let _ := Unicode.ascii
  refine ⟨Transaction.committed_sublist.eq_of_length (by decide +kernel), ?_⟩
  unfold ReadsBack
  rw [sampleQuestion_undated]
  intro h
  obtain ⟨context, hc, hrisk, _⟩ := h
  have hread : ((sampleReader.getAt (fun _ => 0) (Transaction.after (persist .dev) .empty sampleReturn) sampleQuestion
      "employee-1" "WFD").toOption.map (·.risk.scoredAt)) = some 1787562000000000 := by decide +kernel
  rw [hc] at hread
  have hat : context.risk.scoredAt = 1787562000000000 := Option.some.inj hread
  rw [hrisk] at hat
  exact absurd hat (by decide)

end WorkforceRisk.Historical
