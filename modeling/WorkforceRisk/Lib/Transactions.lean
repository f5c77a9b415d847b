/-
  WorkforceRisk.Lib.Transactions — batches of steps that commit whole or not at all.

  A transaction runs one step for each item of its batch, on a state of its own; a step
  that raises rolls the whole batch back, and the next transaction starts from the state
  before it. `Stepwise` says a transaction is such a fold of a step.

  Proved: what a series of transactions leaves is what the items of the committed ones
  leave in one fold (`foldlM_committed`), and all of them commit exactly when the fold
  over all items goes through (`all_commit_iff`). Where a relation `R` between the items
  so far and the state is kept by the step, and tells whether the step goes through,
  `foldlM_ok_iff` reads that off the items alone.
-/

import Mathlib.Data.List.Forall2

namespace WorkforceRisk.Lib

variable {σ α β ε ρ : Type}

theorem except_bind_ok {x : Except ε α} {f : α → Except ε β} {b : β} :
    (x >>= f) = .ok b ↔ ∃ a, x = .ok a ∧ f a = .ok b := by
  cases x with
  | error e => exact ⟨fun h => (nomatch h), fun ⟨_, h, _⟩ => (nomatch h)⟩
  | ok a => exact ⟨fun h => ⟨a, rfl, h⟩, fun ⟨_, h, h'⟩ => by cases h; exact h'⟩

theorem exists_ok_of_any {x : Except ε α} {p : α → Bool} (h : x.toOption.any p = true) : ∃ a, x = .ok a ∧ p a = true := by
  cases x with
  | error e => cases h
  | ok a => exact ⟨a, rfl, h⟩

theorem exists_ok_of_map {x : Except ε α} {f : α → β} {b : β} (h : x.toOption.map f = some b) :
    ∃ a, x = .ok a ∧ f a = b := by
  cases x with
  | error e => cases h
  | ok a => exact ⟨a, rfl, Option.some.inj h⟩

/-- A loop goes through when each round goes on. -/
theorem forIn_ok {f : α → Unit → Except ε (ForInStep Unit)} {l : List α}
    (h : ∀ a ∈ l, f a () = .ok (.yield ())) : forIn l () f = .ok () := by
  induction l with
  | nil => rfl
  | cons a l ih =>
    obtain ⟨ha, hl⟩ := List.forall_mem_cons.mp h
    rw [List.forIn_cons, except_bind_ok]
    exact ⟨_, ha, ih hl⟩

/-- Of rounds that only go on or raise, each has then gone on. -/
theorem of_forIn_ok {f : α → Unit → Except ε (ForInStep Unit)} (hf : ∀ a s, f a () = .ok s → s = .yield ())
    {l : List α} {u : Unit} (h : forIn l () f = .ok u) : ∀ a ∈ l, f a () = .ok (.yield ()) := by
  induction l with
  | nil => exact fun a ha => (by cases ha)
  | cons a l ih =>
    rw [List.forIn_cons, except_bind_ok] at h
    obtain ⟨s, hs, hrest⟩ := h
    obtain rfl := hf a s hs
    exact List.forall_mem_cons.mpr ⟨hs, ih hrest⟩

/-- A `mapM` goes through an item and the others. -/
theorem mapM_cons_ok {f : α → Except ε β} {a : α} {l : List α} {bs : List β} :
    (a :: l).mapM f = .ok bs ↔ ∃ c cs, f a = .ok c ∧ l.mapM f = .ok cs ∧ c :: cs = bs := by
  rw [List.mapM_cons, except_bind_ok]
  constructor
  · intro h
    obtain ⟨c, hc, h⟩ := h
    obtain ⟨cs, hcs, h⟩ := except_bind_ok.mp h
    exact ⟨c, cs, hc, hcs, Except.ok.inj h⟩
  · intro h
    obtain ⟨c, cs, hc, hcs, rfl⟩ := h
    exact ⟨c, hc, except_bind_ok.mpr ⟨cs, hcs, rfl⟩⟩

/-- What a `mapM` that goes through gives: the value of each item. -/
theorem mem_mapM_ok {f : α → Except ε β} {l : List α} :
    ∀ {bs : List β}, l.mapM f = .ok bs → ∀ b, b ∈ bs ↔ ∃ a ∈ l, f a = .ok b := by
  induction l with
  | nil =>
    intro bs h b
    cases h
    exact ⟨fun hb => (by cases hb), fun ⟨_, ha, _⟩ => (by cases ha)⟩
  | cons a l ih =>
    intro bs h b
    obtain ⟨c, cs, hc, hcs, rfl⟩ := mapM_cons_ok.mp h
    simp only [List.mem_cons, ih hcs, exists_eq_or_imp, hc, Except.ok.injEq]
    exact or_congr_left eq_comm

/-- Item by item. -/
theorem mapM_ok_related {f : α → Except ε β} {l : List α} :
    ∀ {bs : List β}, l.mapM f = .ok bs → List.Forall₂ (fun a b => f a = .ok b) l bs := by
  induction l with
  | nil => intro bs h; cases h; exact .nil
  | cons a l ih =>
    intro bs h
    obtain ⟨c, cs, hc, hcs, rfl⟩ := mapM_cons_ok.mp h
    exact .cons hc (ih hcs)

theorem mapM_ok_of_related {f : α → Except ε β} {l : List α} :
    ∀ {bs : List β}, List.Forall₂ (fun a b => f a = .ok b) l bs → l.mapM f = .ok bs := by
  induction l with
  | nil => intro bs h; cases h; rfl
  | cons a l ih =>
    intro bs h
    obtain ⟨c, cs, hc, hcs, rfl⟩ := List.forall₂_cons_left_iff.mp h
    exact mapM_cons_ok.mpr ⟨c, cs, hc, ih hcs, rfl⟩

/-- A `mapM` raises what the first item that raises does. -/
theorem mapM_error_iff {f : α → Except ε β} {e : ε} {l : List α} : l.mapM f = .error e ↔
    ∃ before a after, l = before ++ a :: after ∧ (∀ b ∈ before, ∃ c, f b = .ok c) ∧ f a = .error e := by
  induction l with
  | nil =>
    refine iff_of_false (fun h => by cases h) ?_
    rintro ⟨before, a, after, h, -⟩
    cases before <;> cases h
  | cons x l ih =>
    rw [List.mapM_cons]
    cases hx : f x with
    | error e' =>
      constructor
      · intro h
        have he : e' = e := Except.error.inj h
        exact ⟨[], x, l, rfl, fun _ hb => (by cases hb), hx.trans (congrArg _ he)⟩
      · rintro ⟨before, a, after, h, hbefore, ha⟩
        cases before with
        | nil =>
          obtain ⟨rfl, rfl⟩ := List.cons.inj h
          exact congrArg Except.error (Except.error.inj (hx.symm.trans ha))
        | cons b before =>
          obtain ⟨rfl, -⟩ := List.cons.inj h
          obtain ⟨c, hc⟩ := hbefore x List.mem_cons_self
          rw [hx] at hc
          cases hc
    | ok c =>
      have hrest : (Except.ok c >>= fun c => l.mapM f >>= fun cs => pure (c :: cs)) = Except.error e ↔
          l.mapM f = .error e := by
        cases l.mapM f with
        | error e' => exact Iff.rfl
        | ok cs => exact iff_of_false (fun h => by cases h) fun h => by cases h
      rw [hrest, ih]
      constructor
      · rintro ⟨before, a, after, rfl, hbefore, ha⟩
        exact ⟨x :: before, a, after, rfl, List.forall_mem_cons.mpr ⟨⟨c, hx⟩, hbefore⟩, ha⟩
      · rintro ⟨before, a, after, h, hbefore, ha⟩
        cases before with
        | nil =>
          obtain ⟨rfl, rfl⟩ := List.cons.inj h
          rw [hx] at ha
          cases ha
        | cons b before =>
          obtain ⟨rfl, rfl⟩ := List.cons.inj h
          exact ⟨before, a, after, rfl, (List.forall_mem_cons.mp hbefore).2, ha⟩

/-- What holds of the values pair by pair, of the items they are of. -/
theorem pairwise_mapM_iff {f : α → Except ε β} {R : β → β → Prop} {l : List α} :
    ∀ {bs : List β}, l.mapM f = .ok bs →
      (bs.Pairwise R ↔ l.Pairwise fun x y => ∀ a b, f x = .ok a → f y = .ok b → R a b) := by
  induction l with
  | nil => intro bs h; cases h; exact iff_of_true .nil .nil
  | cons x l ih =>
    intro bs h
    obtain ⟨c, cs, hc, hcs, rfl⟩ := mapM_cons_ok.mp h
    rw [List.pairwise_cons, List.pairwise_cons, ih hcs]
    refine and_congr_left fun _ => ⟨fun hall y hy a b ha hb => ?_, fun hall b hb => ?_⟩
    · obtain rfl := Except.ok.inj (hc.symm.trans ha)
      exact hall b ((mem_mapM_ok hcs b).mpr ⟨y, hy, hb⟩)
    · obtain ⟨y, hy, hvalue⟩ := (mem_mapM_ok hcs b).mp hb
      exact hall y hy c b hc hvalue

theorem mapM_ok_of_mem {f : α → Except ε β} {l : List α} :
    ∀ {bs : List β}, l.mapM f = .ok bs → ∀ a ∈ l, ∃ b, f a = .ok b := by
  induction l with
  | nil => intro bs _ a ha; cases ha
  | cons a l ih =>
    intro bs h
    obtain ⟨c, cs, hc, hcs, _⟩ := mapM_cons_ok.mp h
    exact List.forall_mem_cons.mpr ⟨⟨c, hc⟩, ih hcs⟩

/-- What holds of each item after those before it, read off a longer list. -/
theorem forall_split_cons {P : List α → α → Prop} {a : α} {l : List α} :
    (∀ first b rest, a :: l = first ++ b :: rest → P first b) ↔
      P [] a ∧ ∀ first b rest, l = first ++ b :: rest → P (a :: first) b := by
  constructor
  · exact fun h => ⟨h [] a l rfl, fun first b rest hl => h (a :: first) b rest (congrArg (a :: ·) hl)⟩
  · intro h' first b rest h
    obtain ⟨ha, hl⟩ := h'
    cases first with
    | nil =>
      cases h
      exact ha
    | cons c first =>
      cases h
      exact hl first b rest rfl

/-! ## Folds of a step -/

section
variable {step : σ → α → Except ε σ}

@[simp] theorem foldlM_cons_ok {a : α} {l : List α} {s s' : σ} :
    (a :: l).foldlM step s = .ok s' ↔ ∃ t, step s a = .ok t ∧ l.foldlM step t = .ok s' := by
  rw [List.foldlM_cons, except_bind_ok]

@[simp] theorem foldlM_append_ok {l l' : List α} {s s' : σ} :
    (l ++ l').foldlM step s = .ok s' ↔ ∃ t, l.foldlM step s = .ok t ∧ l'.foldlM step t = .ok s' := by
  rw [List.foldlM_append, except_bind_ok]

/-- Items that change nothing. -/
theorem foldlM_fixed {l : List α} {s : σ} (h : ∀ a ∈ l, step s a = .ok s) : l.foldlM step s = .ok s := by
  induction l with
  | nil => rfl
  | cons a l ih =>
    obtain ⟨ha, hl⟩ := List.forall_mem_cons.mp h
    exact foldlM_cons_ok.mpr ⟨s, ha, ih hl⟩

/-- A fold on a state with more in it is one on the part its step reads. -/
theorem foldlM_on_part {τ : Type} {wide : τ → α → Except ε τ} (part : τ → σ)
    (h : ∀ t a, (wide t a).map part = step (part t) a) {l : List α} :
    ∀ {t : τ}, (l.foldlM wide t).map part = l.foldlM step (part t) := by
  induction l with
  | nil => intro t; rfl
  | cons a l ih =>
    intro t
    rw [List.foldlM_cons, List.foldlM_cons, ← h t a]
    cases wide t a with
    | error e => rfl
    | ok u => exact ih

variable {R : List α → σ → Prop}

/-- A relation to the items so far that one step keeps, a fold keeps. -/
theorem foldlM_keeps (keeps : ∀ before s a s', R before s → step s a = .ok s' → R (before ++ [a]) s') {l : List α} :
    ∀ before {s s'}, R before s → l.foldlM step s = .ok s' → R (before ++ l) s' := by
  induction l with
  | nil =>
    intro before s s' hR h
    cases h
    simpa using hR
  | cons a l ih =>
    intro before s s' hR h
    obtain ⟨t, ha, hl⟩ := foldlM_cons_ok.mp h
    simpa using ih _ (keeps before s a t hR ha) hl

/-- A fold goes through exactly when each item is one its step accepts after those before it. -/
theorem foldlM_ok_iff {Accepts : List α → α → Prop}
    (keeps : ∀ before s a s', R before s → step s a = .ok s' → R (before ++ [a]) s')
    (accepts : ∀ before s a, R before s → ((∃ s', step s a = .ok s') ↔ Accepts before a)) {l : List α} :
    ∀ {before s}, R before s →
      ((∃ s', l.foldlM step s = .ok s') ↔ ∀ first a rest, l = first ++ a :: rest → Accepts (before ++ first) a) := by
  induction l with
  | nil =>
    intro before s _
    exact ⟨fun _ first a rest h => absurd h (by simp), fun _ => ⟨s, rfl⟩⟩
  | cons a l ih =>
    intro before s hR
    rw [forall_split_cons, List.append_nil, ← accepts before s a hR]
    simp only [foldlM_cons_ok]
    constructor
    · intro h'
      obtain ⟨s', t, ha, hl⟩ := h'
      refine ⟨⟨t, ha⟩, fun first b rest h => ?_⟩
      simpa using (ih (keeps before s a t hR ha)).mp ⟨s', hl⟩ first b rest h
    · intro h'
      obtain ⟨⟨t, ha⟩, hrest⟩ := h'
      obtain ⟨s', hl⟩ := (ih (keeps before s a t hR ha)).mpr fun first b rest h => by
        simpa using hrest first b rest h
      exact ⟨s', t, ha, hl⟩

end

/-! ## Transactions -/

/-- A state, and what running a batch on it leaves and returns. -/
abbrev Transaction (σ β ε ρ : Type) := σ → β → Except ε (σ × ρ)

namespace Transaction

/-- Running a batch is folding `step` over its items. -/
def Stepwise (run : Transaction σ β ε ρ) (step : σ → α → Except ε σ) (items : β → List α) : Prop :=
  ∀ s b, (run s b).map Prod.fst = (items b).foldlM step s

variable (run : Transaction σ β ε ρ)

/-- What a series of transactions leaves: one that raises leaves nothing. -/
def after : σ → List β → σ
  | s, [] => s
  | s, b :: bs => match run s b with
    | .ok (s', _) => after s' bs
    | .error _ => after s bs

/-- What each transaction of a series returned or raised. -/
def outcomes : σ → List β → List (Except ε ρ)
  | _, [] => []
  | s, b :: bs => match run s b with
    | .ok (s', r) => .ok r :: outcomes s' bs
    | .error e => .error e :: outcomes s bs

/-- The batches of a series that committed. -/
def committed : σ → List β → List β
  | _, [] => []
  | s, b :: bs => match run s b with
    | .ok (s', _) => b :: committed s' bs
    | .error _ => committed s bs

def AllCommit (s : σ) (bs : List β) : Prop := ∀ outcome ∈ outcomes run s bs, ∃ r, outcome = .ok r

variable {run} {step : σ → α → Except ε σ} {items : β → List α}

theorem Stepwise.of_ok (h : Stepwise run step items) {s s' : σ} {b : β} {r : ρ} (hb : run s b = .ok (s', r)) :
    (items b).foldlM step s = .ok s' := by
  rw [← h s b, hb]
  rfl

theorem Stepwise.to_ok (h : Stepwise run step items) {s s' : σ} {b : β} (hb : (items b).foldlM step s = .ok s') :
    ∃ r, run s b = .ok (s', r) := by
  rw [← h s b] at hb
  cases hr : run s b with
  | error e => rw [hr] at hb; cases hb
  | ok p =>
    rw [hr] at hb
    cases hb
    exact ⟨p.2, rfl⟩

theorem committed_sublist {bs : List β} : ∀ {s : σ}, (committed run s bs).Sublist bs := by
  induction bs with
  | nil => intro s; exact .slnil
  | cons b bs ih =>
    intro s
    unfold committed
    split
    · exact ih.cons_cons b
    · exact ih.cons b

theorem after_append {bs bs' : List β} : ∀ {s : σ}, after run s (bs ++ bs') = after run (after run s bs) bs' := by
  induction bs with
  | nil => intro s; rfl
  | cons b bs ih =>
    intro s
    rw [List.cons_append, after, after]
    split
    · exact ih
    · exact ih

theorem after_cons {s : σ} {b : β} {bs : List β} : after run s (b :: bs) = after run (after run s [b]) bs :=
  @after_append _ _ _ _ run [b] bs s

/-- A series of transactions leaves what the items of the committed ones leave. -/
theorem foldlM_committed (h : Stepwise run step items) (bs : List β) :
    ∀ {s : σ}, ((committed run s bs).flatMap items).foldlM step s = .ok (after run s bs) := by
  induction bs with
  | nil => intro s; rfl
  | cons b bs ih =>
    intro s
    unfold committed after
    split
    · rename_i s' r hb
      rw [List.flatMap_cons]
      exact foldlM_append_ok.mpr ⟨s', h.of_ok hb, ih⟩
    · exact ih

theorem all_commit_iff (h : Stepwise run step items) {bs : List β} :
    ∀ {s : σ}, AllCommit run s bs ↔ ∃ s', (bs.flatMap items).foldlM step s = .ok s' := by
  induction bs with
  | nil => intro s; exact ⟨fun _ => ⟨s, rfl⟩, fun _ _ ho => (nomatch ho)⟩
  | cons b bs ih =>
    intro s
    unfold AllCommit outcomes
    rw [List.flatMap_cons]
    simp only [foldlM_append_ok]
    split
    · rename_i s' r hb
      constructor
      · intro hall
        obtain ⟨s'', hs⟩ := ih.mp fun o ho => hall o (List.mem_cons_of_mem _ ho)
        exact ⟨s'', s', h.of_ok hb, hs⟩
      · intro h' o ho
        obtain ⟨s'', t, ht, hs⟩ := h'
        obtain ⟨_, hr⟩ := h.to_ok ht
        rw [hb] at hr
        cases hr
        rcases List.mem_cons.mp ho with rfl | ho
        · exact ⟨r, rfl⟩
        · exact ih.mpr ⟨s'', hs⟩ o ho
    · rename_i e hb
      constructor
      · intro hall
        obtain ⟨_, hr⟩ := hall _ List.mem_cons_self
        cases hr
      · intro h'
        obtain ⟨_, t, ht, _⟩ := h'
        obtain ⟨_, hr⟩ := h.to_ok ht
        rw [hb] at hr
        cases hr

/-- Every series of transactions keeps what each step keeps of the committed items. -/
theorem after_keeps {R : List α → σ → Prop} (h : Stepwise run step items)
    (keeps : ∀ before s a s', R before s → step s a = .ok s' → R (before ++ [a]) s') {s : σ} (hs : R [] s)
    (bs : List β) : R ((committed run s bs).flatMap items) (after run s bs) := by
  simpa using foldlM_keeps keeps [] hs (foldlM_committed h bs)

end Transaction

end WorkforceRisk.Lib
