/-
  WorkforceRisk.Lib.StateGraph — what a process exchanged, processes carried out by other
  processes, and graphs of nodes gone through one at a time.

  `Runs` is a run of a process up to any point, with any answers: what was asked and
  answered, and what is left to do. `Sat` for the protocol that only remembers
  (`recorded`) is a claim about every run (`Sat.asked`, `Sat.returned`); what the end of
  every run says of all that was asked held as it was asked (`Sat.allowed_of_end`).

  `through` carries out each effect of a process by a process over other effects, and
  `sat_through` is its simulation rule.

  A `StateGraph` has a process at each node, which ends in a new state or an error, and
  says from the state where to go next. `invoke` walks it under a recursion limit, of which
  it is only known that a run takes no more nodes (`StepLimit`); `sat_invoke` is its rule:
  what holds on the way into a node is kept on the way out of it.
-/

import WorkforceRisk.Lib.Process

namespace WorkforceRisk.Lib

/-- An effect and its answer. -/
structure Exchange (E : Type) (R : E → Type) where
  asked : E
  answered : R asked

namespace Proc

variable {E E' : Type} {R : E → Type} {R' : E' → Type} {α β ε G H : Type}

/-! ## Runs -/

inductive Runs : Proc E R α → List (Exchange E R) → Proc E R α → Prop
  | done (p : Proc E R α) : Runs p [] p
  | next {e : E} {k : R e → Proc E R α} {t : List (Exchange E R)} {p : Proc E R α} (r : R e) :
      Runs (k r) t p → Runs (.call e k) (⟨e, r⟩ :: t) p

/-- The protocol whose state is what was exchanged. -/
def recorded (allowed : List (Exchange E R) → E → Prop) : Protocol E R (List (Exchange E R)) where
  allows := allowed
  next t e r := t ++ [⟨e, r⟩]

variable {allowed : List (Exchange E R) → E → Prop} {Q : α → List (Exchange E R) → Prop}

@[simp] theorem recorded_allows : (recorded allowed).allows = allowed := rfl

@[simp] theorem recorded_next (t : List (Exchange E R)) (e : E) (r : R e) :
    (recorded allowed).next t e r = t ++ [⟨e, r⟩] := rfl

theorem Sat.runs {p p' : Proc E R α} {t : List (Exchange E R)} (h : Runs p t p') :
    ∀ {t₀}, p.Sat (recorded allowed) t₀ Q → p'.Sat (recorded allowed) (t₀ ++ t) Q := by
  induction h with
  | done p =>
    intro t₀ hp
    rwa [List.append_nil]
  | next r _ ih =>
    intro t₀ hp
    have := ih (hp.2 r)
    simpa using this

/-- Whatever a run asked was allowed by what it had exchanged before. -/
theorem Sat.asked {p p' : Proc E R α} {t : List (Exchange E R)} (h : Runs p t p') :
    ∀ {t₀}, p.Sat (recorded allowed) t₀ Q → ∀ before x after, t = before ++ x :: after →
      allowed (t₀ ++ before) x.asked := by
  induction h with
  | done p =>
    intro t₀ _ before x after he
    cases before <;> cases he
  | @next e k t p r _ ih =>
    intro t₀ hp before x after he
    cases before with
    | nil =>
      cases he
      simpa using hp.1
    | cons y before =>
      cases he
      simpa using ih (hp.2 r) before x after rfl

/-- What a run returned is what its exchanges say. -/
theorem Sat.returned {p : Proc E R α} {a : α} {t t₀ : List (Exchange E R)} (hp : p.Sat (recorded allowed) t₀ Q)
    (h : Runs p t (.ret a)) : Q a (t₀ ++ t) := hp.runs h

theorem Sat.allow {allowed' : List (Exchange E R) → E → Prop} (hsub : ∀ t e, allowed t e → allowed' t e) {p : Proc E R α} :
    ∀ {t}, p.Sat (recorded allowed) t Q → p.Sat (recorded allowed') t Q := by
  induction p with
  | ret a => exact id
  | call e k ih => exact fun {t} h => ⟨hsub t e h.1, fun r => ih r (h.2 r)⟩

/-- A run goes on to some end. -/
theorem Sat.ends [∀ e, Nonempty (R e)] {p : Proc E R α} :
    ∀ {t}, p.Sat (recorded allowed) t Q → ∃ a t', t <+: t' ∧ Q a t' := by
  induction p with
  | ret a => exact fun {t} h => ⟨a, t, List.prefix_refl t, h⟩
  | call e k ih =>
    intro t h
    obtain ⟨r⟩ := ‹∀ e, Nonempty (R e)› e
    obtain ⟨a, t', ht, hq⟩ := ih r (h.2 r)
    exact ⟨a, t', (List.prefix_append t _).trans ht, hq⟩

/-- What the end says of all that was asked held of it as it was asked. -/
theorem Sat.allowed_of_end [∀ e, Nonempty (R e)] {A : E → Prop} {p : Proc E R α} :
    ∀ {t}, p.Sat (recorded allowed) t (fun a t' => (∀ x ∈ t', A x.asked) ∧ Q a t') → p.Sat (recorded fun _ => A) t Q := by
  induction p with
  | ret a => exact fun {t} h => h.2
  | call e k ih =>
    intro t h
    refine ⟨?_, fun r => ih r (h.2 r)⟩
    obtain ⟨r⟩ := ‹∀ e, Nonempty (R e)› e
    obtain ⟨a, t', ht, hq⟩ := Sat.ends (h.2 r)
    exact hq.1 ⟨e, r⟩ (ht.subset (List.mem_append_right t (List.mem_singleton_self _)))

/-! ## Carrying out effects -/

def through (handler : (e : E) → Proc E' R' (R e)) : Proc E R α → Proc E' R' α
  | ret a => ret a
  | call e k => (handler e).bind fun r => (k r).through handler

theorem sat_through {handler : (e : E) → Proc E' R' (R e)} {A : Protocol E R G} {B : Protocol E' R' H}
    {J : G → H → Prop} {Q : α → G → Prop}
    (hh : ∀ g h e, J g h → A.allows g e → (handler e).Sat B h fun r h' => J (A.next g e r) h') {p : Proc E R α} :
    ∀ {g h}, p.Sat A g Q → J g h → (p.through handler).Sat B h fun a h' => ∃ g', Q a g' ∧ J g' h' := by
  induction p with
  | ret a => intro g h hp hj; exact ⟨g, hp, hj⟩
  | call e k ih =>
    intro g h hp hj
    apply sat_bind
    exact (hh g h e hj hp.1).mono fun r h' hj' => ih r (hp.2 r) hj'

end Proc

/-! ## Graphs -/

/-- How many nodes a run may take under a recursion limit. -/
structure StepLimit where
  superSteps : Nat → Nat
  superSteps_le : ∀ limit, superSteps limit ≤ limit

structure StateGraph (N S ε E : Type) (R : E → Type) where
  entry : N
  node : N → S → Proc E R (Except ε S)
  /-- The node after this one, or the end. -/
  edge : N → S → Option N
  /-- What a walk raises that may not take another node. -/
  outOfSteps : ε

namespace StateGraph

variable {N S ε E G : Type} {R : E → Type} (graph : StateGraph N S ε E R)

/-- From a node on, through at most so many. -/
def walk : Nat → N → S → Proc E R (Except ε S)
  | 0, _, _ => .ret (.error graph.outOfSteps)
  | left + 1, v, s => (graph.node v s).andThen fun s' =>
    match graph.edge v s' with
    | none => .ret (.ok s')
    | some w => walk left w s'

def invoke (runtime : StepLimit) (recursionLimit : Nat) (s : S) : Proc E R (Except ε S) :=
  graph.walk (runtime.superSteps recursionLimit) graph.entry s

variable {graph} {A : Protocol E R G} {I : Nat → N → S → G → Prop} {Q : Except ε S → G → Prop}

/-- What a node makes of what holds on the way into it, by how many nodes are left. -/
theorem sat_walk
    (hnode : ∀ left v s g, I (left + 1) v s g → (graph.node v s).Sat A g fun r g' => match r with
      | .ok s' => (match graph.edge v s' with
        | none => Q (.ok s') g'
        | some w => I left w s' g')
      | .error e => Q (.error e) g')
    (hout : ∀ v s g, I 0 v s g → Q (.error graph.outOfSteps) g) :
    ∀ {left v s g}, I left v s g → (graph.walk left v s).Sat A g Q := by
  intro left
  induction left with
  | zero => intro v s g h; exact hout v s g h
  | succ left ih =>
    intro v s g h
    apply Proc.sat_andThen
    refine (hnode left v s g h).mono fun r g' hr => ?_
    cases r with
    | error e => exact hr
    | ok s' =>
      cases he : graph.edge v s' with
      | none =>
        simp only [he] at hr ⊢
        exact hr
      | some w =>
        simp only [he] at hr ⊢
        exact ih hr

theorem sat_invoke
    (hnode : ∀ left v s g, I (left + 1) v s g → (graph.node v s).Sat A g fun r g' => match r with
      | .ok s' => (match graph.edge v s' with
        | none => Q (.ok s') g'
        | some w => I left w s' g')
      | .error e => Q (.error e) g')
    (hout : ∀ v s g, I 0 v s g → Q (.error graph.outOfSteps) g) {runtime : StepLimit} {recursionLimit : Nat} {s : S}
    {g : G} (h : I (runtime.superSteps recursionLimit) graph.entry s g) :
    (graph.invoke runtime recursionLimit s).Sat A g Q := sat_walk hnode hout h

end StateGraph

end WorkforceRisk.Lib
