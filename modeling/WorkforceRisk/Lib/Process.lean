/-
  WorkforceRisk.Lib.Process — the calls of a service as processes, and their interleavings.

  A call is a `Proc`: it has returned, or it waits for the reply to one atomic effect (a
  committed transaction, a request to another system) and goes on with that reply. A
  `Machine` says how the shared state answers an effect. In a run of it any number of
  calls are started at any time, each step is one effect of one call, a call may crash
  between any two of its effects, and steps no call takes happen in between.

  A `Protocol` is the automaton a call follows: which effects it may perform next, and
  where each reply leads. `Proc.Sat` says a call follows one, whatever the replies
  (`sat_bind`, `sat_andThen` compose it). `Reach.invariant` is the rule for
  interleavings: an invariant of the shared state together with what each call knows at
  its protocol state holds in every reachable configuration, if each effect keeps the
  invariant, moves its own call on, and leaves true what the other calls know.

  `Path` is a run whose condition may look at every call; its rule (`Path.invariant`)
  keeps an invariant of the whole configuration and of where each call is in its
  protocol. `Proc.exec` is a call by itself, answered by one function, and `Proc.stopped`
  one that ends on its way; `Proc.Keeps` is what every state of either satisfies.
-/

namespace WorkforceRisk.Lib

inductive Proc (E : Type) (R : E → Type) (α : Type) where
  | ret (a : α)
  | call (e : E) (k : R e → Proc E R α)

/-- Which effects a call may perform at each state, and where a reply leads. -/
structure Protocol (E : Type) (R : E → Type) (G : Type) where
  allows : G → E → Prop
  next : G → (e : E) → R e → G

namespace Proc

variable {E : Type} {R : E → Type} {α β ε G : Type}

def bind : Proc E R α → (α → Proc E R β) → Proc E R β
  | ret a, f => f a
  | call e k, f => call e fun r => (k r).bind f

def perform (e : E) : Proc E R (R e) := call e ret

/-- Go on with the value; an exception ends the call. -/
def andThen (p : Proc E R (Except ε α)) (f : α → Proc E R (Except ε β)) : Proc E R (Except ε β) :=
  p.bind fun
    | .ok a => f a
    | .error e => ret (.error e)

/-- From state `g` the call follows `A`, and what it returns satisfies `Q`. -/
def Sat (A : Protocol E R G) : Proc E R α → G → (α → G → Prop) → Prop
  | ret a, g, Q => Q a g
  | call e k, g, Q => A.allows g e ∧ ∀ r, (k r).Sat A (A.next g e r) Q

/-- The call by itself: what it returns, and what is left of the state its answers change. -/
def exec {σ : Type} (answer : (e : E) → σ → R e × σ) : Proc E R α → σ → α × σ
  | ret a, s => (a, s)
  | call e k, s => (k (answer e s).1).exec answer (answer e s).2

theorem exec_bind {σ : Type} {answer : (e : E) → σ → R e × σ} {p : Proc E R α} {f : α → Proc E R β} :
    ∀ {s : σ}, (p.bind f).exec answer s = (f (p.exec answer s).1).exec answer (p.exec answer s).2 := by
  induction p with
  | ret a => intro s; rfl
  | call e k ih => intro s; exact ih _

variable {A : Protocol E R G}

theorem Sat.mono {p : Proc E R α} {Q Q' : α → G → Prop} (hQ : ∀ a g, Q a g → Q' a g) :
    ∀ {g}, p.Sat A g Q → p.Sat A g Q' := by
  induction p with
  | ret a => intro g h; exact hQ a g h
  | call e k ih => intro g h; exact ⟨h.1, fun r => ih r (h.2 r)⟩

theorem sat_bind {p : Proc E R α} {f : α → Proc E R β} {Q : β → G → Prop} :
    ∀ {g}, p.Sat A g (fun a g' => (f a).Sat A g' Q) → (p.bind f).Sat A g Q := by
  induction p with
  | ret a => intro g h; exact h
  | call e k ih => intro g h; exact ⟨h.1, fun r => ih r (h.2 r)⟩

theorem sat_perform {e : E} {g : G} {Q : R e → G → Prop} (ha : A.allows g e) (hr : ∀ r, Q r (A.next g e r)) :
    (perform e : Proc E R (R e)).Sat A g Q := ⟨ha, hr⟩

theorem sat_andThen {p : Proc E R (Except ε α)} {f : α → Proc E R (Except ε β)} {Q : Except ε β → G → Prop} {g : G}
    (h : p.Sat A g fun r g' => match r with
      | .ok a => (f a).Sat A g' Q
      | .error e => Q (.error e) g') : (p.andThen f).Sat A g Q := by
  apply sat_bind
  refine h.mono fun r g' hr => ?_
  cases r with
  | ok a => exact hr
  | error e => exact hr

/-! ## A call by itself -/

section
variable {σ : Type} (answer : (e : E) → σ → R e × σ)

/-- What a call leaves that stops before its effect after the first `n`. -/
def stopped : Nat → Proc E R α → σ → σ
  | _, ret _, s => s
  | 0, call _ _, s => s
  | n + 1, call e k, s => (k (answer e s).1).stopped n (answer e s).2

/-- Each effect is asked for in a state with `I`, and what is returned and left satisfies `Q`. -/
def Keeps (I : σ → Prop) : Proc E R α → σ → (α → σ → Prop) → Prop
  | ret a, s, Q => Q a s
  | call e k, s, Q => I s ∧ (k (answer e s).1).Keeps I (answer e s).2 Q

variable {answer} {I : σ → Prop}

theorem Keeps.mono {p : Proc E R α} {Q Q' : α → σ → Prop} (hQ : ∀ a s, Q a s → Q' a s) :
    ∀ {s}, p.Keeps answer I s Q → p.Keeps answer I s Q' := by
  induction p with
  | ret a => intro s h; exact hQ a s h
  | call e k ih => intro s h; exact ⟨h.1, ih _ h.2⟩

theorem Keeps.and {p : Proc E R α} {Q Q' : α → σ → Prop} : ∀ {s}, p.Keeps answer I s Q → p.Keeps answer I s Q' →
    p.Keeps answer I s fun a s' => Q a s' ∧ Q' a s' := by
  induction p with
  | ret a => intro s h h'; exact ⟨h, h'⟩
  | call e k ih => intro s h h'; exact ⟨h.1, ih _ h.2 h'.2⟩

theorem keeps_bind {p : Proc E R α} {f : α → Proc E R β} {Q : β → σ → Prop} :
    ∀ {s}, (p.Keeps answer I s fun a s' => (f a).Keeps answer I s' Q) → (p.bind f).Keeps answer I s Q := by
  induction p with
  | ret a => intro s h; exact h
  | call e k ih => intro s h; exact ⟨h.1, ih _ h.2⟩

theorem keeps_andThen {p : Proc E R (Except ε α)} {f : α → Proc E R (Except ε β)} {Q : Except ε β → σ → Prop} {s : σ}
    (hok : p.Keeps answer I s fun r s' => ∀ a, r = .ok a → (f a).Keeps answer I s' Q)
    (herror : p.Keeps answer I s fun r s' => ∀ e, r = .error e → Q (.error e) s') :
    (p.andThen f).Keeps answer I s Q := by
  apply keeps_bind
  refine (hok.and herror).mono fun r s' hr => ?_
  cases r with
  | ok a => exact hr.1 a rfl
  | error e => exact hr.2 e rfl

/-- What is returned at the end. -/
theorem Keeps.exec {p : Proc E R α} {Q : α → σ → Prop} :
    ∀ {s}, p.Keeps answer I s Q → Q (p.exec answer s).1 (p.exec answer s).2 := by
  induction p with
  | ret a => intro s h; exact h
  | call e k ih => intro s h; exact ih _ h.2

/-- What is left when it stops on the way. -/
theorem Keeps.stopped {p : Proc E R α} {Q : α → σ → Prop} (hQ : ∀ a s, Q a s → I s) :
    ∀ {s n}, p.Keeps answer I s Q → I (p.stopped answer n s) := by
  induction p with
  | ret a =>
    intro s n h
    cases n with
    | zero => exact hQ a s h
    | succ n => exact hQ a s h
  | call e k ih =>
    intro s n h
    cases n with
    | zero => exact h.1
    | succ n => exact ih _ h.2

end

end Proc

/-! ## Machines and their runs -/

structure Machine (E : Type) (R : E → Type) (σ : Type) where
  /-- What an answer depends on besides the state: drawn ids, clocks, other systems. -/
  Choice : Type
  /-- The answer to an effect of call `i`, and the state it leaves. -/
  handle : (i : Nat) → (e : E) → Choice → σ → Option (R e × σ)
  Start : Type
  start : Start → Proc E R Unit
  /-- The steps of everyone else. -/
  Other : Type
  other : Other → σ → Option σ

inductive Slot (E : Type) (R : E → Type) where
  | idle
  | live (p : Proc E R Unit)
  | crashed

def Slot.isLive {E : Type} {R : E → Type} : Slot E R → Bool
  | .live _ => true
  | _ => false

structure Config (E : Type) (R : E → Type) (σ : Type) where
  shared : σ
  calls : Nat → Slot E R

/-- The next effect of call `i` is one of those. -/
def Config.asks {E : Type} {R : E → Type} {σ : Type} (c : Config E R σ) (i : Nat) (p : E → Bool) : Bool :=
  match c.calls i with
  | .live (.call e _) => p e
  | _ => false

theorem Config.asks_of_call {E : Type} {R : E → Type} {σ : Type} {c : Config E R σ} {i : Nat} {e : E}
    {k : R e → Proc E R Unit} (h : c.calls i = .live (.call e k)) (p : E → Bool) : c.asks i p = p e := by
  rw [Config.asks, h]

def upd {α : Type} (f : Nat → α) (i : Nat) (v : α) : Nat → α := fun j => if j = i then v else f j

@[simp] theorem upd_same {α : Type} (f : Nat → α) (i : Nat) (v : α) : upd f i v i = v := by simp [upd]

theorem upd_ne {α : Type} (f : Nat → α) {i j : Nat} (v : α) (h : j ≠ i) : upd f i v j = f j := by simp [upd, h]

theorem upd_eq_iff {α : Type} {f : Nat → α} {i j : Nat} {v a : α} :
    upd f i v j = a ↔ (j = i ∧ v = a) ∨ (j ≠ i ∧ f j = a) := by
  by_cases h : j = i
  · simp [upd, h]
  · simp [upd, h]

theorem upd_eq_self {α : Type} {f : Nat → α} {i : Nat} {v : α} (h : f i = v) : upd f i v = f := by
  funext j
  by_cases e : j = i
  · rw [e, upd_same, h]
  · exact upd_ne f v e

/-- What holds of the new value, and of the others as they were. -/
theorem upd_of {α : Type} {f : Nat → α} {i j : Nat} {v : α} {P : α → Prop} (hi : j = i → P v)
    (hj : j ≠ i → P (f j)) : P (upd f i v j) := by
  by_cases e : j = i
  · rw [e, upd_same]
    exact hi e
  · rw [upd_ne f v e]
    exact hj e

namespace Machine

variable {E : Type} {R : E → Type} {σ : Type}

inductive Action (M : Machine E R σ) where
  | start (i : Nat) (x : M.Start)
  | perform (i : Nat) (ch : M.Choice)
  | crash (i : Nat)
  | other (x : M.Other)

def step (M : Machine E R σ) (c : Config E R σ) : M.Action → Option (Config E R σ)
  | .start i x =>
    match c.calls i with
    | .idle => some ⟨c.shared, upd c.calls i (.live (M.start x))⟩
    | _ => none
  | .perform i ch =>
    match c.calls i with
    | .live (.call e k) => (M.handle i e ch c.shared).map fun a => ⟨a.2, upd c.calls i (.live (k a.1))⟩
    | _ => none
  | .crash i => some ⟨c.shared, upd c.calls i .crashed⟩
  | .other x => (M.other x c.shared).map fun s => ⟨s, c.calls⟩

/-- The effect a step performs, when it performs one, is one `ok` lets pass in its state. -/
def Permits (M : Machine E R σ) (ok : σ → E → Prop) (c : Config E R σ) : M.Action → Prop
  | .perform i _ => ∀ e k, c.calls i = .live (.call e k) → ok c.shared e
  | _ => True

/-- The configurations of the runs from `s₀` whose steps all meet `ok`. -/
inductive Reach (M : Machine E R σ) (ok : σ → E → Prop) (s₀ : σ) : Config E R σ → Prop
  | init : Reach M ok s₀ ⟨s₀, fun _ => .idle⟩
  | step {c c' : Config E R σ} (a : M.Action) : Reach M ok s₀ c → M.Permits ok c a → M.step c a = some c' →
      Reach M ok s₀ c'

/-- Every run. -/
def anyStep : σ → E → Prop := fun _ _ => True

variable {M : Machine E R σ} {ok : σ → E → Prop} {s₀ : σ}

instance : DecidableRel (anyStep : σ → E → Prop) := fun _ _ => isTrue trivial

instance [DecidableRel ok] (c : Config E R σ) : (a : M.Action) → Decidable (M.Permits ok c a)
  | .perform i _ =>
    match h : c.calls i with
    | .live (.call e k) => decidable_of_iff (ok c.shared e)
        ⟨fun ho e' k' h' => by cases h.symm.trans h'; exact ho, fun hp => hp e k h⟩
    | .live (.ret a) => isTrue fun _ _ h' => by cases h.symm.trans h'
    | .idle => isTrue fun _ _ h' => by cases h.symm.trans h'
    | .crashed => isTrue fun _ _ h' => by cases h.symm.trans h'
  | .start .. => isTrue trivial
  | .crash _ => isTrue trivial
  | .other _ => isTrue trivial

/-- Take the actions one by one, as long as they are permitted. -/
def run (M : Machine E R σ) (ok : σ → E → Prop) [DecidableRel ok] : Config E R σ → List M.Action → Option (Config E R σ)
  | c, [] => some c
  | c, a :: as => if M.Permits ok c a then (M.step c a).bind (run M ok · as) else none

theorem run_reach [DecidableRel ok] {as : List M.Action} :
    ∀ {c c' : Config E R σ}, M.Reach ok s₀ c → M.run ok c as = some c' → M.Reach ok s₀ c' := by
  induction as with
  | nil =>
    intro c c' h hr
    cases hr
    exact h
  | cons a as ih =>
    intro c c' h hr
    simp only [run] at hr
    split at hr
    · rename_i hp
      obtain ⟨c₁, h₁, h₂⟩ := Option.bind_eq_some_iff.mp hr
      exact ih (.step a h hp h₁) h₂
    · cases hr

/-- What a step does: it starts a call, answers one effect of one call, crashes a call,
    or is a step of everyone else. -/
theorem step_cases {c c' : Config E R σ} {a : M.Action} (h : M.step c a = some c') :
    (∃ i x, a = .start i x ∧ c' = ⟨c.shared, upd c.calls i (.live (M.start x))⟩) ∨
    (∃ i ch e k r s', a = .perform i ch ∧ c.calls i = .live (.call e k) ∧ M.handle i e ch c.shared = some (r, s') ∧
      c' = ⟨s', upd c.calls i (.live (k r))⟩) ∨
    (∃ i, a = .crash i ∧ c' = ⟨c.shared, upd c.calls i .crashed⟩) ∨
    (∃ x s', a = .other x ∧ M.other x c.shared = some s' ∧ c' = ⟨s', c.calls⟩) := by
  cases a with
  | start i x =>
    simp only [step] at h
    split at h
    · exact Or.inl ⟨i, x, rfl, (Option.some.inj h).symm⟩
    · cases h
  | perform i ch =>
    simp only [step] at h
    split at h
    · rename_i e k hc
      obtain ⟨⟨r, s'⟩, hh, he⟩ := Option.map_eq_some_iff.mp h
      exact Or.inr (Or.inl ⟨i, ch, e, k, r, s', rfl, hc, hh, he.symm⟩)
    · cases h
  | crash i => exact Or.inr (Or.inr (Or.inl ⟨i, rfl, (Option.some.inj h).symm⟩))
  | other x =>
    obtain ⟨s', hs, he⟩ := Option.map_eq_some_iff.mp h
    exact Or.inr (Or.inr (Or.inr ⟨x, s', rfl, hs, he.symm⟩))

section
variable {G : Type} {A : Protocol E R G} {I : σ → Prop} {Q : σ → Nat → G → Prop}

/-- Every live call follows the protocol from a state at which `Q` holds of it. -/
def Knows (A : Protocol E R G) (Q : σ → Nat → G → Prop) (c : Config E R σ) : Prop :=
  ∀ i p, c.calls i = .live p → ∃ g, p.Sat A g (fun _ _ => True) ∧ Q c.shared i g

theorem knows_upd {c : Config E R σ} {s' : σ} {i : Nat} {x : Slot E R} (hk : Knows A Q c)
    (hi : ∀ p, x = .live p → ∃ g, p.Sat A g (fun _ _ => True) ∧ Q s' i g)
    (hf : ∀ j g, j ≠ i → Q c.shared j g → Q s' j g) : Knows A Q ⟨s', upd c.calls i x⟩ := by
  intro j p hj
  by_cases e : j = i
  · subst e
    exact hi p (by simpa using hj)
  · obtain ⟨g, hg, hq⟩ := hk j p (by rw [← hj]; exact (upd_ne _ _ e).symm)
    exact ⟨g, hg, hf j g e hq⟩

/-- The rule for interleavings. -/
theorem Reach.invariant (g₀ : M.Start → G) (hstart : ∀ x, (M.start x).Sat A (g₀ x) fun _ _ => True) (h0 : I s₀)
    (hs : ∀ s i x, I s → Q s i (g₀ x))
    (hp : ∀ s i e g ch r s', I s → Q s i g → A.allows g e → ok s e → M.handle i e ch s = some (r, s') →
      I s' ∧ Q s' i (A.next g e r) ∧ ∀ j g', j ≠ i → Q s j g' → Q s' j g')
    (ho : ∀ s x s', I s → M.other x s = some s' → I s' ∧ ∀ j g, Q s j g → Q s' j g)
    {c : Config E R σ} (h : M.Reach ok s₀ c) : I c.shared ∧ Knows A Q c := by
  induction h with
  | init => exact ⟨h0, fun i p hi => by cases hi⟩
  | step a _ hok hst ih =>
    obtain ⟨hI, hK⟩ := ih
    rcases step_cases hst with ⟨i, x, rfl, rfl⟩ | ⟨i, ch, e, k, r, s', rfl, hc, hh, rfl⟩ | ⟨i, rfl, rfl⟩ |
      ⟨x, s', rfl, hx, rfl⟩
    · refine ⟨hI, knows_upd hK (fun p hp => ?_) fun _ _ _ hq => hq⟩
      cases hp
      exact ⟨g₀ x, hstart x, hs _ i x hI⟩
    · obtain ⟨g, ⟨ha, hsat⟩, hq⟩ := hK i _ hc
      obtain ⟨hI', hq', hf⟩ := hp _ i e g ch r s' hI hq ha (hok e k hc) hh
      refine ⟨hI', knows_upd hK (fun p hp => ?_) hf⟩
      cases hp
      exact ⟨A.next g e r, hsat r, hq'⟩
    · exact ⟨hI, knows_upd hK (fun p hp => by cases hp) fun _ _ _ hq => hq⟩
    · obtain ⟨hI', hf⟩ := ho _ x s' hI hx
      refine ⟨hI', fun j p hj => ?_⟩
      obtain ⟨g, hg, hq⟩ := hK j p hj
      exact ⟨g, hg, hf j g hq⟩

end

/-! ## Runs that look at every call -/

/-- The configurations of the runs from `s₀` whose steps all meet `ok`. -/
inductive Path (M : Machine E R σ) (ok : Config E R σ → M.Action → Prop) (s₀ : σ) : Config E R σ → Prop
  | init : Path M ok s₀ ⟨s₀, fun _ => .idle⟩
  | step {c c' : Config E R σ} (a : M.Action) : Path M ok s₀ c → ok c a → M.step c a = some c' → Path M ok s₀ c'

/-- Take the actions one by one, as long as they meet `ok`. -/
def walk (M : Machine E R σ) (ok : Config E R σ → M.Action → Prop) [∀ c a, Decidable (ok c a)] :
    Config E R σ → List M.Action → Option (Config E R σ)
  | c, [] => some c
  | c, a :: as => if ok c a then (M.step c a).bind (walk M ok · as) else none

section
variable {G : Type} {A : Protocol E R G} {okc : Config E R σ → M.Action → Prop}

theorem walk_path [∀ c a, Decidable (okc c a)] {as : List M.Action} :
    ∀ {c c' : Config E R σ}, M.Path okc s₀ c → M.walk okc c as = some c' → M.Path okc s₀ c' := by
  induction as with
  | nil =>
    intro c c' h hr
    cases hr
    exact h
  | cons a as ih =>
    intro c c' h hr
    simp only [walk] at hr
    split at hr
    · rename_i hok
      obtain ⟨c₁, h₁, h₂⟩ := Option.bind_eq_some_iff.mp hr
      exact ih (.step a h hok h₁) h₂
    · cases hr

/-- Every live call follows the protocol from the state it is said to be at. -/
def Follows (A : Protocol E R G) (pc : Nat → G) (c : Config E R σ) : Prop :=
  ∀ i p, c.calls i = .live p → p.Sat A (pc i) fun _ _ => True

theorem follows_upd {c : Config E R σ} {pc : Nat → G} {s' : σ} {i : Nat} {x : Slot E R} {g : G} (h : Follows A pc c)
    (hi : ∀ p, x = .live p → p.Sat A g fun _ _ => True) : Follows A (upd pc i g) ⟨s', upd c.calls i x⟩ := by
  intro j p hj
  by_cases e : j = i
  · subst e
    simpa using hi p (by simpa using hj)
  · rw [upd_ne _ _ e]
    exact h j p (by rw [← hj]; exact (upd_ne _ _ e).symm)

/-- The rule for runs that look at every call: what holds of the configuration and of
    where each call is in its protocol. -/
theorem Path.invariant {I : Config E R σ → (Nat → G) → Prop} (g₀ : M.Start → G)
    (hstart : ∀ x, (M.start x).Sat A (g₀ x) fun _ _ => True) (pc₀ : Nat → G) (h0 : I ⟨s₀, fun _ => .idle⟩ pc₀)
    (hs : ∀ c pc i x, I c pc → c.calls i = .idle → okc c (.start i x) →
      I ⟨c.shared, upd c.calls i (.live (M.start x))⟩ (upd pc i (g₀ x)))
    (hp : ∀ c pc i e k ch r s', I c pc → c.calls i = .live (.call e k) → A.allows (pc i) e → okc c (.perform i ch) →
      M.handle i e ch c.shared = some (r, s') → I ⟨s', upd c.calls i (.live (k r))⟩ (upd pc i (A.next (pc i) e r)))
    (hc : ∀ c pc i, I c pc → okc c (.crash i) → I ⟨c.shared, upd c.calls i .crashed⟩ pc)
    (ho : ∀ c pc x s', I c pc → okc c (.other x) → M.other x c.shared = some s' → I ⟨s', c.calls⟩ pc)
    {c : Config E R σ} (h : M.Path okc s₀ c) : ∃ pc, Follows A pc c ∧ I c pc := by
  induction h with
  | init =>
    refine ⟨pc₀, fun i p hi => ?_, h0⟩
    cases hi
  | @step c c' a _ hok hst ih =>
    obtain ⟨pc, hF, hI⟩ := ih
    rcases step_cases hst with ⟨i, x, rfl, rfl⟩ | ⟨i, ch, e, k, r, s', rfl, hcall, hh, rfl⟩ | ⟨i, rfl, rfl⟩ |
      ⟨x, s', rfl, hx, rfl⟩
    · simp only [Machine.step] at hst
      split at hst
      · rename_i hidle
        refine ⟨_, follows_upd hF fun p hp => ?_, hs c pc i x hI hidle hok⟩
        cases hp
        exact hstart x
      · cases hst
    · obtain ⟨ha, hsat⟩ := hF i _ hcall
      refine ⟨_, follows_upd hF fun p hp => ?_, hp c pc i e k ch r s' hI hcall ha hok hh⟩
      cases hp
      exact hsat r
    · refine ⟨pc, fun j p hj => ?_, hc c pc i hI hok⟩
      by_cases e : j = i
      · subst e
        simp only [upd_same] at hj
        cases hj
      · exact hF j p (by rw [← hj]; exact (upd_ne _ _ e).symm)
    · exact ⟨pc, hF, ho c pc x s' hI hok hx⟩

end

/-! ## One call on its own -/

/-- A whole run of call `i` with no one else stepping: the state it leaves and what it returns. -/
inductive Alone (M : Machine E R σ) (i : Nat) {α : Type} : σ → Proc E R α → σ → α → Prop
  | ret (s : σ) (a : α) : Alone M i s (.ret a) s a
  | call {s s' s'' : σ} {e : E} {k : R e → Proc E R α} {r : R e} {a : α} (ch : M.Choice) :
      M.handle i e ch s = some (r, s') → Alone M i s' (k r) s'' a → Alone M i s (.call e k) s'' a

section
variable {i : Nat} {s s' : σ} {α β : Type}

theorem alone_ret {a b : α} : M.Alone i s (.ret a) s' b ↔ s' = s ∧ b = a := by
  constructor
  · intro h
    cases h
    exact ⟨rfl, rfl⟩
  · intro h'
    obtain ⟨rfl, rfl⟩ := h'
    exact .ret s' b

theorem alone_perform {e : E} {r : R e} : M.Alone i s (.perform e) s' r ↔ ∃ ch, M.handle i e ch s = some (r, s') := by
  constructor
  · intro h
    cases h with
    | call ch hh hr =>
      cases hr
      exact ⟨ch, hh⟩
  · intro h'
    obtain ⟨ch, hh⟩ := h'
    exact .call ch hh (.ret s' r)

/-- A run of a sequence is a run of its first part and one of the rest. -/
theorem alone_bind {p : Proc E R α} {f : α → Proc E R β} {b : β} :
    M.Alone i s (p.bind f) s' b ↔ ∃ s₁ a, M.Alone i s p s₁ a ∧ M.Alone i s₁ (f a) s' b := by
  induction p generalizing s with
  | ret a =>
    constructor
    · exact fun h => ⟨s, a, .ret s a, h⟩
    · intro h'
      obtain ⟨s₁, a₁, h₁, h₂⟩ := h'
      cases h₁
      exact h₂
  | call e k ih =>
    constructor
    · intro h
      cases h with
      | call ch hh hr =>
        obtain ⟨s₁, a, h₁, h₂⟩ := (ih _).mp hr
        exact ⟨s₁, a, .call ch hh h₁, h₂⟩
    · intro h'
      obtain ⟨s₁, a, h₁, h₂⟩ := h'
      cases h₁ with
      | call ch hh hr => exact .call ch hh ((ih _).mpr ⟨s₁, a, hr, h₂⟩)

end

end Machine

end WorkforceRisk.Lib
