/-
  WorkforceRisk.Scans.ExactlyOnce — a window is scanned at most once.

  Any number of requests and executions run on one table, which may hold runs already.
  An execution may be given any ticket: one that says it is a duplicate must be a
  request's (`Issued`), since `execute` believes its state; any other is checked against
  the row by the claim.

  A call knows something of the run of its ticket (`Pc.Knows`): a claim makes it the only
  owner of a running run whose pipeline has not run yet, and what it returns in the end is
  stored. Only the owner can take that away (`Pc.Knows.kept`), and a last state is for
  good (`Move.kept`).

  Proved (`scan_exactly_once`): the pipeline runs at most once for the tickets of a
  window, a run only advances, and a last state an execution returned is the stored one.
-/

import WorkforceRisk.Scans.Moves

namespace WorkforceRisk.Scans

open Lib Persistence ScanService

/-! ## The log -/

namespace Entry

/-- The pipeline runs for a ticket of the run. -/
def runs (id : Uuid) : Entry → Bool
  | ⟨_, .run ticket _ _, _⟩ => ticket.scanRunId == id
  | _ => false

/-- A request for the window returns a ticket of the run. -/
def issues (environment scope window : String) (id : Uuid) : Entry → Bool
  | ⟨_, .issue env s w ticket, _⟩ => env == environment && s == scope && w == window && ticket.scanRunId == id
  | _ => false

def gives (ticket : ScanTicket) : Entry → Bool
  | ⟨_, .issue _ _ _ t, _⟩ => t == ticket
  | _ => false

/-- An execution of the ticket returns the state. -/
def returns (ticket : ScanTicket) (state : ScanState) : Entry → Bool
  | ⟨_, .finish t s, _⟩ => t == ticket && s == state
  | _ => false

/-- The pipeline runs for a ticket of the window's run. -/
def runsFor (log : List Entry) (environment scope window : String) : Entry → Bool
  | ⟨_, .run ticket _ _, _⟩ => log.any (issues environment scope window ticket.scanRunId)
  | _ => false

end Entry

def runsOf (log : List Entry) (id : Uuid) : Nat := log.countP (Entry.runs id)

def windowRuns (log : List Entry) (environment scope window : String) : Nat :=
  log.countP (Entry.runsFor log environment scope window)

/-- A run appears queued, is claimed, and ends. -/
def Advances (before after : Option ScanState) : Prop :=
  after = before ∨ (before = none ∧ after = some .queued) ∨ (before = some .queued ∧ after = some .running) ∨
    (before = some .running ∧ ∃ state, state.isFinal = true ∧ after = some state)

/-- A ticket that an execution takes for a duplicate is one a request has returned. -/
def Issued [Sha256] (c : State) : scanSystem.Action → Prop
  | .start _ (.execute ticket _ _) => ticket.duplicate = true → c.shared.log.any (·.gives ticket) = true
  | _ => True

instance [Sha256] (c : State) : ∀ a, Decidable (Issued c a)
  | .start _ (.execute ..) => inferInstanceAs (Decidable (_ → _))
  | .start _ (.request ..) => isTrue trivial
  | .start _ (.manual ..) => isTrue trivial
  | .start _ (.status ..) => isTrue trivial
  | .perform .. => isTrue trivial
  | .crash _ => isTrue trivial
  | .other _ => isTrue trivial

/-! ## What calls know -/

/-- A last state is the run's. -/
def Kept (scans : Table ScanRun) (id : Uuid) (state : ScanState) : Prop :=
  state.isFinal = true → stateOf scans id = some state

/-- What a duplicate says of how its run ended is so. -/
def Sound (scans : Table ScanRun) (ticket : ScanTicket) : Prop :=
  ticket.duplicate = true → Kept scans ticket.scanRunId ticket.state

/-- The run a call has claimed and not given its last state yet. -/
def Pc.owns : Pc → Option Uuid
  | .claimed ticket => some ticket.scanRunId
  | .ended ticket _ => some ticket.scanRunId
  | _ => none

theorem targetOf_isFinal (outcome : Except String PipelineResult) : (targetOf outcome).1.isFinal = true := by
  cases outcome with
  | error e => rfl
  | ok result =>
    show (if result.degraded then ScanState.completedDegraded else .completed).isFinal = true
    split <;> rfl

section
variable [Sha256]

def Pc.Knows (w : World) : Pc → Prop
  | .ticketed environment scope window ticket =>
    Named w.scans environment (scanWindowKey environment scope window) ticket.scanRunId ∧ Sound w.scans ticket
  | .holding ticket => Sound w.scans ticket
  | .claimed ticket =>
    stateOf w.scans ticket.scanRunId = some .running ∧ runsOf w.log ticket.scanRunId = 0
  | .ended ticket target => stateOf w.scans ticket.scanRunId = some .running ∧ target.isFinal = true
  | .returning ticket state => Kept w.scans ticket.scanRunId state
  | _ => True

def Entry.Knows (scans : Table ScanRun) : Entry → Prop
  | ⟨_, .issue environment scope window ticket, _⟩ =>
    Named scans environment (scanWindowKey environment scope window) ticket.scanRunId ∧ Sound scans ticket
  | ⟨_, .finish ticket state, _⟩ => Kept scans ticket.scanRunId state
  | _ => True

variable {w w' : World} {i : Nat} {g g' : Pc} {effect : Effect} {id : Uuid}

theorem Move.kept (h : Move i w effect g g' w') {state : ScanState} (hk : Kept w.scans id state) :
    Kept w'.scans id state := by
  intro hfinal
  have hstate := hk hfinal
  rcases h.shift id with hs | ⟨hs, _⟩ | ⟨hs, _⟩ | ⟨hs, _⟩
  · exact hs.trans hstate
  · cases hs.symm.trans hstate
  · cases hs.symm.trans hstate
    cases hfinal
  · cases hs.symm.trans hstate
    cases hfinal

theorem Move.sound (h : Move i w effect g g' w') {ticket : ScanTicket} (hs : Sound w.scans ticket) :
    Sound w'.scans ticket := fun hdup => h.kept (hs hdup)

/-- Only its owner ends a run. -/
theorem Move.running (h : Move i w effect g g' w') (hs : stateOf w.scans id = some .running) (ho : g.owns ≠ some id) :
    stateOf w'.scans id = some .running := by
  rcases h.shift id with he | ⟨hn, _⟩ | ⟨hq, _⟩ | ⟨_, ticket, target, rfl, rfl, _⟩
  · exact he.trans hs
  · cases hn.symm.trans hs
  · cases hq.symm.trans hs
  · exact absurd rfl ho

/-- A call comes to own a run by its claim. -/
theorem Move.owns (h : Move i w effect g g' w') (ho : g'.owns = some id) :
    g.owns = some id ∨ stateOf w.scans id = some .queued := by
  cases h with
  | claimed now hqueued =>
    cases ho
    exact .inr hqueued
  | ended outcome => exact .inl ho
  | _ => cases ho

/-- Only the claimer of a run runs its pipeline. -/
theorem Move.runs (h : Move i w effect g g' w') (id : Uuid) : runsOf w'.log id = runsOf w.log id ∨
    (runsOf w'.log id = runsOf w.log id + 1 ∧ (∃ ticket, g = .claimed ticket ∧ ticket.scanRunId = id) ∧
      w'.scans = w.scans) := by
  cases h with
  | ended outcome =>
    rename_i ticket scope correlationId
    by_cases e : ticket.scanRunId = id
    · exact .inr ⟨List.countP_cons_of_pos (by simpa [Entry.runs] using e), ⟨ticket, rfl, e⟩, rfl⟩
    · exact .inl (List.countP_cons_of_neg (by simpa [Entry.runs] using e))
  | _ => exact .inl (List.countP_cons_of_neg Bool.false_ne_true)

/-- What a call knows another one's effect does not change. -/
theorem Pc.Knows.kept {q : Pc} (hq : q.Knows w) (h : Move i w effect g g' w')
    (hother : ∀ id, q.owns = some id → g.owns ≠ some id) : q.Knows w' := by
  cases q with
  | ticketed environment scope window ticket => exact ⟨h.named hq.1, h.sound hq.2⟩
  | holding ticket => exact h.sound hq
  | claimed ticket =>
    have hne := hother _ rfl
    refine ⟨h.running hq.1 hne, ?_⟩
    rcases h.runs ticket.scanRunId with hr | ⟨_, ⟨t, rfl, he⟩, _⟩
    · exact hr.trans hq.2
    · exact absurd (congrArg some he) hne
  | ended ticket target => exact ⟨h.running hq.1 (hother _ rfl), hq.2⟩
  | returning ticket state => exact h.kept hq
  | _ => trivial

theorem Entry.Knows.kept {m : Entry} (hm : m.Knows w.scans) (h : Move i w effect g g' w') : m.Knows w'.scans := by
  obtain ⟨j, e, r⟩ := m
  cases e with
  | issue environment scope window ticket => exact ⟨h.named hm.1, h.sound hm.2⟩
  | finish ticket state => exact h.kept hm
  | _ => trivial

/-- What a call learns by its own effect. -/
theorem Move.learns (h : Move i w effect g g' w') (hg : g.Knows w)
    (hunrun : ∀ id, stateOf w.scans id = some .queued → runsOf w.log id = 0) : g'.Knows w' := by
  cases h with
  | found hf =>
    have hmem := Table.find?_mem hf
    exact ⟨⟨_, hmem, Table.find?_holds hf, rfl⟩, fun _ _ => stateOf_of_mem hmem⟩
  | inserted hins =>
    refine ⟨⟨_, (Table.mem_insert hins).mpr (.inr rfl), ?_, rfl⟩, fun hdup => ?_⟩
    · simp [hasKey, newScanRun]
    · cases hdup
  | issued => exact hg.2
  | claimed now hqueued => exact ⟨stateOf_moveRun hqueued, hunrun _ hqueued⟩
  | passed now hother =>
    intro hfinal
    cases hfinal
  | ended outcome => exact ⟨hg.1, targetOf_isFinal outcome⟩
  | stored now moved => exact fun _ => stateOf_moveRun hg.1
  | _ => trivial

/-- What the new entry of the log says is so. -/
theorem Move.logged (h : Move i w effect g g' w') (hg : g.Knows w) :
    ∃ m, w'.log = m :: w.log ∧ m.Knows w'.scans := by
  cases h with
  | issued => exact ⟨_, rfl, hg⟩
  | repeated hdup => exact ⟨_, rfl, hg hdup⟩
  | finished => exact ⟨_, rfl, hg⟩
  | _ => exact ⟨_, rfl, trivial⟩

/-- Who owns a run knows that it runs. -/
theorem Pc.Knows.running {q : Pc} (hq : q.Knows w) (ho : q.owns = some id) : stateOf w.scans id = some .running := by
  cases q with
  | claimed ticket =>
    cases ho
    exact hq.1
  | ended ticket target =>
    cases ho
    exact hq.1
  | _ => cases ho

/-! ## The invariant -/

structure Tracked (w : World) (pc : Nat → Pc) : Prop where
  knows : ∀ i, (pc i).Knows w
  entries : ∀ m ∈ w.log, m.Knows w.scans
  single : ∀ i j id, (pc i).owns = some id → (pc j).owns = some id → i = j
  unrun : ∀ id, stateOf w.scans id = none ∨ stateOf w.scans id = some .queued → runsOf w.log id = 0
  once : ∀ id, runsOf w.log id ≤ 1

namespace Tracked

variable {pc : Nat → Pc}

theorem init {scans : Table ScanRun} : Tracked ⟨scans, []⟩ fun _ => .idle := by
  refine ⟨fun _ => trivial, fun m hm => ?_, fun i j id hi => ?_, fun _ _ => rfl, fun _ => Nat.zero_le 1⟩
  · cases hm
  · cases hi

/-- A call that starts owns no run yet. -/
theorem start (h : Tracked w pc) (hg : g.Knows w) (ho : g.owns = none) : Tracked w (upd pc i g) := by
  have owner : ∀ j id, (upd pc i g j).owns = some id → (pc j).owns = some id := by
    intro j id hj
    by_cases e : j = i
    · subst e
      rw [upd_same, ho] at hj
      cases hj
    · rwa [upd_ne _ _ e] at hj
  refine ⟨fun j => ?_, h.entries, fun j k id hj hk => h.single j k id (owner j id hj) (owner k id hk), h.unrun, h.once⟩
  exact upd_of (fun _ => hg) fun _ => h.knows j

/-- No other call owns what a call owns after its effect. -/
theorem apart (h : Tracked w pc) (hm : Move i w effect (pc i) g' w') {j : Nat} (hne : j ≠ i) (ho : g'.owns = some id) :
    (pc j).owns ≠ some id := by
  intro hj
  rcases hm.owns ho with hi | hqueued
  · exact hne (h.single j i id hj hi)
  · cases hqueued.symm.trans ((h.knows j).running hj)

theorem single_perform (h : Tracked w pc) (hm : Move i w effect (pc i) g' w') {j k : Nat}
    (hj : (upd pc i g' j).owns = some id) (hk : (upd pc i g' k).owns = some id) : j = k := by
  by_cases ej : j = i
  · by_cases ek : k = i
    · rw [ej, ek]
    · rw [ej, upd_same] at hj
      rw [upd_ne _ _ ek] at hk
      exact absurd hk (h.apart hm ek hj)
  · rw [upd_ne _ _ ej] at hj
    by_cases ek : k = i
    · rw [ek, upd_same] at hk
      exact absurd hj (h.apart hm ej hk)
    · rw [upd_ne _ _ ek] at hk
      exact h.single j k id hj hk

/-- A run that is queued after an effect was not claimed before it. -/
theorem unclaimed_before (h : Tracked w pc) (hm : Move i w effect (pc i) g' w')
    (hs : stateOf w'.scans id = none ∨ stateOf w'.scans id = some .queued) :
    stateOf w.scans id = none ∨ stateOf w.scans id = some .queued := by
  rcases hm.shift id with he | ⟨hn, _⟩ | ⟨hq, _⟩ | ⟨_, ticket, target, hg, _, ht⟩
  · rwa [he] at hs
  · exact .inl hn
  · exact .inr hq
  · have hfinal := h.knows i
    rw [hg] at hfinal
    rw [ht] at hs
    rcases hs with hs | hs
    · cases hs
    · cases hs
      cases hfinal.2

theorem perform (h : Tracked w pc) (hm : Move i w effect (pc i) g' w') : Tracked w' (upd pc i g') := by
  have hlearns := hm.learns (h.knows i) fun id hq => h.unrun id (.inr hq)
  obtain ⟨new, hlog, hnew⟩ := hm.logged (h.knows i)
  refine ⟨fun j => ?_, fun m hmem => ?_, fun j k id hj hk => h.single_perform hm hj hk, fun id hs => ?_, fun id => ?_⟩
  · refine upd_of (fun _ => hlearns) fun e => ?_
    exact (h.knows j).kept hm fun id hj hi => e (h.single j i id hj hi)
  · rcases List.mem_cons.mp (hlog ▸ hmem) with rfl | hold
    · exact hnew
    · exact (h.entries m hold).kept hm
  · have hbefore := h.unclaimed_before hm hs
    rcases hm.runs id with hr | ⟨_, ⟨ticket, hg, rfl⟩, _⟩
    · exact hr.trans (h.unrun id hbefore)
    · -- the pipeline runs of a run that is running
      have hrunning := (h.knows i).running (by rw [hg]; rfl)
      rw [hrunning] at hbefore
      simp at hbefore
  · have honce := h.once id
    rcases hm.runs id with hr | ⟨hr, ⟨ticket, hg, rfl⟩, _⟩
    · omega
    · have hzero := h.knows i
      rw [hg] at hzero
      have hzero := hzero.2
      omega

end Tracked

/-! ## Runs -/

variable {scans : Table ScanRun} {c : State}

theorem Start.pc_knows {x : Start} (hx : Issued c (.start i x)) (h : ∀ m ∈ c.shared.log, m.Knows c.shared.scans) :
    x.pc.Knows c.shared := by
  cases x with
  | execute ticket scope correlationId =>
    intro hdup
    obtain ⟨m, hm, hg⟩ := List.any_eq_true.mp (hx hdup)
    have hk := h m hm
    obtain ⟨j, e, r⟩ := m
    cases e with
    | issue environment s window t =>
      obtain rfl : t = ticket := by simpa [Entry.gives] using hg
      exact hk.2 hdup
    | _ => cases hg
  | _ => trivial

theorem system_tracked (h : scanSystem.Path Issued ⟨scans, []⟩ c) :
    ∃ pc, Machine.Follows protocol pc c ∧ Tracked c.shared pc := by
  refine Machine.Path.invariant (I := fun c pc => Tracked c.shared pc) Start.pc start_sat (fun _ => .idle) .init
    (fun c pc i x hI _ hok => ?_) (fun c pc i e k ch r w' hI _ ha _ hh => ?_) (fun c pc i hI _ => hI)
    (fun c pc x w' _ _ _ => Empty.elim x) h
  · refine hI.start (Start.pc_knows hok hI.entries) ?_
    cases x <;> rfl
  · exact hI.perform (perform_move ha (Option.some.inj hh))

/-- A run that a request for the window has returned is the window's. -/
theorem Tracked.named {pc : Nat → Pc} (h : Tracked w pc) {environment scope window : String}
    (hi : w.log.any (·.issues environment scope window id) = true) :
    Named w.scans environment (scanWindowKey environment scope window) id := by
  obtain ⟨m, hm, hi⟩ := List.any_eq_true.mp hi
  have hk := h.entries m hm
  obtain ⟨j, e, r⟩ := m
  cases e with
  | issue env s win ticket =>
    simp only [Entry.issues, Bool.and_eq_true, beq_iff_eq] at hi
    obtain ⟨⟨⟨rfl, rfl⟩, rfl⟩, rfl⟩ := hi
    exact hk.1
  | _ => cases hi

theorem windowRuns_le {pc : Nat → Pc} (h : Tracked w pc) (environment scope window : String) :
    windowRuns w.log environment scope window ≤ 1 := by
  by_cases hnone : ∃ m ∈ w.log, m.runsFor w.log environment scope window = true
  · obtain ⟨m, _, hm⟩ := hnone
    obtain ⟨j, e, r⟩ := m
    cases e with
    | run ticket s correlationId =>
      -- the tickets of a window are of one run
      refine Nat.le_trans (List.countP_mono_left fun e _ he => ?_) (h.once ticket.scanRunId)
      obtain ⟨j', e, r'⟩ := e
      cases e with
      | run t s' corr =>
        have hsame := (h.named he).unique (h.named hm)
        simpa [Entry.runs] using hsame
      | _ => cases he
    | _ => cases hm
  · have hzero : windowRuns w.log environment scope window = 0 :=
      List.countP_eq_zero.mpr fun m hm hr => hnone ⟨m, hm, hr⟩
    omega

theorem step_advances (h : scanSystem.Path Issued ⟨scans, []⟩ c) {a : scanSystem.Action} {c' : State}
    (hs : scanSystem.step c a = some c') (id : Uuid) :
    Advances (stateOf c.shared.scans id) (stateOf c'.shared.scans id) := by
  obtain ⟨pc, hF, hT⟩ := system_tracked h
  rcases Machine.step_cases hs with ⟨i, x, rfl, rfl⟩ | ⟨i, ch, e, k, r, w', rfl, hcall, hh, rfl⟩ | ⟨i, rfl, rfl⟩ |
    ⟨x, s', rfl, hx, rfl⟩
  · exact .inl rfl
  · have hm := perform_move (hF i _ hcall).1 (Option.some.inj hh)
    rcases hm.shift id with he | hnew | ⟨hq, hr, _⟩ | ⟨hr, ticket, target, hg, _, ht⟩
    · exact .inl he
    · exact .inr (.inl hnew)
    · exact .inr (.inr (.inl ⟨hq, hr⟩))
    · have hfinal := hT.knows i
      rw [hg] at hfinal
      exact .inr (.inr (.inr ⟨hr, target, hfinal.2, ht⟩))
  · exact .inl rfl
  · exact Empty.elim x

/-- In every run of requests and executions: for the tickets of a window the pipeline runs
    at most once, a run is queued, then running, then in one last state, and the last
    state an execution returned is the one its run has. -/
theorem scan_exactly_once (h : scanSystem.Path Issued ⟨scans, []⟩ c) :
    (∀ environment scope window, windowRuns c.shared.log environment scope window ≤ 1) ∧
    (∀ a c', scanSystem.step c a = some c' → ∀ id,
      Advances (stateOf c.shared.scans id) (stateOf c'.shared.scans id)) ∧
    ∀ m ∈ c.shared.log, ∀ ticket state, m.returns ticket state = true → state.isFinal = true →
      stateOf c.shared.scans ticket.scanRunId = some state := by
  obtain ⟨pc, _, hT⟩ := system_tracked h
  refine ⟨windowRuns_le hT, fun a c' hs => step_advances h hs, fun m hm ticket state hr => ?_⟩
  have hk := hT.entries m hm
  obtain ⟨j, e, r⟩ := m
  cases e with
  | finish t s =>
    simp only [Entry.returns, Bool.and_eq_true, beq_iff_eq] at hr
    obtain ⟨rfl, rfl⟩ := hr
    exact hk
  | _ => cases hr

/-- Two posts of one window: both find no run, and one loses its insert. The run is
    claimed for the other's ticket, which a third call executes again, and a request that
    comes late gets a duplicate of the failed run and executes it. -/
def racingScans : List scanSystem.Action :=
  [.start 0 (.manual sampleService samplePost), .start 1 (.manual sampleService samplePost),
    .perform 0 sampleChoice, .perform 1 otherChoice, .perform 0 sampleChoice, .perform 1 otherChoice,
    .perform 0 sampleChoice, .perform 0 sampleChoice,
    .start 2 (.execute ⟨1, .queued, false⟩ "WFD" "correlation-2"), .perform 2 sampleChoice, .perform 2 sampleChoice,
    .perform 0 failing, .perform 0 sampleChoice, .perform 0 sampleChoice,
    .start 3 (.request sampleService "WFD" "morning" "correlation-3"), .perform 3 otherChoice, .perform 3 otherChoice,
    .start 4 (.execute ⟨1, .failed, true⟩ "WFD" "correlation-3"), .perform 4 otherChoice]

end

theorem scan_exactly_once_raced : letI : Sha256 := .transparent
    ∃ c : State, windowRuns c.shared.log "test" "WFD" "morning" = 1 ∧ stateOf c.shared.scans 1 = some .failed ∧
      (∀ environment scope window, windowRuns c.shared.log environment scope window ≤ 1) ∧
      (∀ a c', scanSystem.step c a = some c' → ∀ id,
        Advances (stateOf c.shared.scans id) (stateOf c'.shared.scans id)) ∧
      ∀ m ∈ c.shared.log, ∀ ticket state, m.returns ticket state = true → state.isFinal = true →
        stateOf c.shared.scans ticket.scanRunId = some state := by
  let _ : Sha256 := .transparent
  have run : (scanSystem.walk Issued ⟨⟨.empty, []⟩, fun _ => .idle⟩ racingScans).map
      (fun c => (windowRuns c.shared.log "test" "WFD" "morning", stateOf c.shared.scans 1)) =
        some (1, some .failed) := by decide
  obtain ⟨c, hc, hs⟩ := Option.map_eq_some_iff.mp run
  obtain ⟨hruns, hstate⟩ := Prod.mk.inj hs
  exact ⟨c, hruns, hstate, scan_exactly_once (Machine.walk_path .init hc)⟩

end WorkforceRisk.Scans
