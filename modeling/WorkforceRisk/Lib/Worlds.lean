/-
  WorkforceRisk.Lib.Worlds — a process in a world that may answer in several ways.

  `world s e r s'` says that in state `s` the effect `e` may be answered by `r`, which
  leaves `s'`. `Reaches` is how far a process may get. `Always` is a claim about all of it:
  what holds before each effect, and what holds of the result; it is composed by bind, and
  it is what every run reaches (`Always.reached`, `Always.returned`).
-/

import WorkforceRisk.Lib.Process

namespace WorkforceRisk.Lib.Proc

variable {E : Type} {R : E → Type} {α β ε σ : Type}

inductive Reaches (world : σ → (e : E) → R e → σ → Prop) : Proc E R α → σ → Proc E R α → σ → Prop
  | here (p : Proc E R α) (s : σ) : Reaches world p s p s
  | next {e : E} {k : R e → Proc E R α} {p : Proc E R α} {s s' s'' : σ} (r : R e) :
      world s e r s' → Reaches world (k r) s' p s'' → Reaches world (.call e k) s p s''

def Always (world : σ → (e : E) → R e → σ → Prop) (I : σ → Prop) : Proc E R α → σ → (α → σ → Prop) → Prop
  | ret a, s, Q => Q a s
  | call e k, s, Q => I s ∧ ∀ r s', world s e r s' → (k r).Always world I s' Q

variable {world : σ → (e : E) → R e → σ → Prop} {I : σ → Prop}

theorem Always.mono {p : Proc E R α} {Q Q' : α → σ → Prop} (hQ : ∀ a s, Q a s → Q' a s) :
    ∀ {s}, p.Always world I s Q → p.Always world I s Q' := by
  induction p with
  | ret a => intro s h; exact hQ a s h
  | call e k ih => intro s h; exact ⟨h.1, fun r s' hw => ih r (h.2 r s' hw)⟩

theorem always_bind {p : Proc E R α} {f : α → Proc E R β} {Q : β → σ → Prop} :
    ∀ {s}, (p.Always world I s fun a s' => (f a).Always world I s' Q) → (p.bind f).Always world I s Q := by
  induction p with
  | ret a => intro s h; exact h
  | call e k ih => intro s h; exact ⟨h.1, fun r s' hw => ih r (h.2 r s' hw)⟩

theorem always_andThen {p : Proc E R (Except ε α)} {f : α → Proc E R (Except ε β)} {Q : Except ε β → σ → Prop} {s : σ}
    (h : p.Always world I s fun r s' => match r with
      | .ok a => (f a).Always world I s' Q
      | .error e => Q (.error e) s') : (p.andThen f).Always world I s Q := by
  apply always_bind
  refine h.mono fun r s' h => ?_
  cases r with
  | ok a => exact h
  | error e => exact h

theorem always_perform {e : E} {s : σ} {Q : R e → σ → Prop} (hI : I s) (hr : ∀ r s', world s e r s' → Q r s') :
    (perform e : Proc E R (R e)).Always world I s Q := ⟨hI, hr⟩

theorem Always.reaches {p p' : Proc E R α} {Q : α → σ → Prop} {s s' : σ} (h : Reaches world p s p' s') :
    p.Always world I s Q → p'.Always world I s' Q := by
  induction h with
  | here p s => exact id
  | next r hw _ ih => exact fun hp => ih (hp.2 r _ hw)

/-- The invariant holds wherever a run gets, if the result keeps it. -/
theorem Always.reached {p p' : Proc E R α} {Q : α → σ → Prop} {s s' : σ} (h : Reaches world p s p' s')
    (hp : p.Always world I s Q) (hQ : ∀ a s, Q a s → I s) : I s' := by
  have := hp.reaches h
  cases p' with
  | ret a => exact hQ a s' this
  | call e k => exact this.1

theorem Always.returned {p : Proc E R α} {Q : α → σ → Prop} {s s' : σ} {a : α} (h : Reaches world p s (.ret a) s')
    (hp : p.Always world I s Q) : Q a s' := hp.reaches h

/-! ## Runs one after another -/

theorem Reaches.bind {p : Proc E R α} {f : α → Proc E R β} {q : Proc E R β} {a : α} {s s' s'' : σ}
    (hp : Reaches world p s (.ret a) s') (hf : Reaches world (f a) s' q s'') : Reaches world (p.bind f) s q s'' := by
  generalize hend : (Proc.ret a : Proc E R α) = e at hp
  induction hp with
  | here p s =>
    subst hend
    exact hf
  | next r hw _ ih => exact .next r hw (ih hf hend)

theorem Reaches.andThen {p : Proc E R (Except ε α)} {f : α → Proc E R (Except ε β)} {q : Proc E R (Except ε β)} {a : α}
    {s s' s'' : σ} (hp : Reaches world p s (.ret (.ok a)) s') (hf : Reaches world (f a) s' q s'') :
    Reaches world (p.andThen f) s q s'' := hp.bind hf

end WorkforceRisk.Lib.Proc
