/-
  WorkforceRisk.Lib.RegexSemantics — what a regular expression can match, and what the
  backtracking engine does match.

  `Reaches r c c'`: from the place `c` some way to match `r` comes to `c'`. `Leads r c c'`:
  the engine comes there first, if what is to follow goes on from there.

  Proved: what the engine finds is reached (`run_reaches`, `everywhere_reaches`); a match takes
  a text and stays in it (`Reaches.at`); a greedy loop over a class of characters leads past
  all of them (`leads_star`, `leads_upTo`); where something can be matched, it is found or is
  in something found before (`findFrom_covers`); the matches of all places are those of each
  (`mem_everyFrom_iff`), what is found are some of them, and there is one if any place has
  one (`findAll_sublist`, `everyFrom_eq_nil`).
-/

import Mathlib.Data.List.Forall2
import Mathlib.Logic.Relation
import WorkforceRisk.Lib.Regex

namespace WorkforceRisk.Lib.Regex

/-! ## What can be matched -/

def Reaches : Regex → Cursor → Cursor → Prop
  | empty, c, c' => c' = c
  | set p, c, c' => ∃ x rest, c.rest = x :: rest ∧ p x = true ∧ c' = { c with before := some x, rest := rest }
  | look p, c, c' => p c.before c.rest = true ∧ c' = c
  | seq r s, c, c' => ∃ d, Reaches r c d ∧ Reaches s d c'
  | alt r s, c, c' => Reaches r c c' ∨ Reaches s c c'
  | star _ r, c, c' => Relation.ReflTransGen (Reaches r) c c'
  | group n r, c, c' => ∃ d, Reaches r c d ∧
      c' = { d with groups := (n, c.rest.take (c.rest.length - d.rest.length)) :: d.groups }

theorem orElse_some {α : Type} {x : Option α} {f : Unit → Option α} {a : α} (h : x.orElse f = some a) :
    x = some a ∨ f () = some a := by
  cases x with
  | none => exact Or.inr h
  | some b => exact Or.inl h

theorem rounds_reaches {α : Type} {once : Cursor → (Cursor → Option α) → Option α} {R : Cursor → Cursor → Prop}
    (honce : ∀ {c next a}, once c next = some a → ∃ c', R c c' ∧ next c' = some a) {greedy : Bool} {n : Nat} {c : Cursor}
    {next : Cursor → Option α} {a : α} (h : rounds once greedy n c next = some a) :
    ∃ c', Relation.ReflTransGen R c c' ∧ next c' = some a := by
  induction n generalizing c with
  | zero => exact ⟨c, .refl, h⟩
  | succ n ih =>
    have hagain : (once c fun c' => if c'.rest.length < c.rest.length then rounds once greedy n c' next else none) =
        some a → ∃ c', Relation.ReflTransGen R c c' ∧ next c' = some a := by
      intro hb
      obtain ⟨d, hd, hrest⟩ := honce hb
      split at hrest
      · obtain ⟨c', hc', ha⟩ := ih hrest
        exact ⟨c', .head hd hc', ha⟩
      · cases hrest
    unfold rounds at h
    dsimp only at h
    split at h
    · rcases orElse_some h with hb | hstop
      · exact hagain hb
      · exact ⟨c, .refl, hstop⟩
    · rcases orElse_some h with hstop | hb
      · exact ⟨c, .refl, hstop⟩
      · exact hagain hb

/-- What the engine finds is a match. -/
theorem run_reaches {α : Type} {r : Regex} {c : Cursor} {next : Cursor → Option α} {a : α} (h : run r c next = some a) :
    ∃ c', Reaches r c c' ∧ next c' = some a := by
  induction r generalizing c next a with
  | empty => exact ⟨c, rfl, h⟩
  | set p =>
    unfold run at h
    split at h
    · cases h
    · rename_i x rest hrest
      split at h
      · rename_i hp
        exact ⟨_, ⟨x, rest, hrest, hp, rfl⟩, h⟩
      · cases h
  | look p =>
    unfold run at h
    split at h
    · rename_i hp
      exact ⟨c, ⟨hp, rfl⟩, h⟩
    · cases h
  | seq r s ihr ihs =>
    obtain ⟨d, hd, hs⟩ := ihr h
    obtain ⟨c', hc', ha⟩ := ihs hs
    exact ⟨c', ⟨d, hd, hc'⟩, ha⟩
  | alt r s ihr ihs =>
    rcases orElse_some h with hr | hs
    · obtain ⟨c', hc', ha⟩ := ihr hr
      exact ⟨c', Or.inl hc', ha⟩
    · obtain ⟨c', hc', ha⟩ := ihs hs
      exact ⟨c', Or.inr hc', ha⟩
  | star greedy r ih => exact rounds_reaches (fun honce => ih honce) h
  | group n r ih =>
    obtain ⟨d, hd, ha⟩ := ih h
    exact ⟨_, ⟨d, hd, rfl⟩, ha⟩

/-! ## Where it ends -/

/-- A place of the text. -/
def At (text : List Char) (c : Cursor) : Prop := ∃ past, text = past ++ c.rest ∧ c.before = past.getLast?

theorem Reaches.at {r : Regex} {c c' : Cursor} {text : List Char} (h : Reaches r c c') (hat : At text c) :
    At text c' := by
  induction r generalizing c c' with
  | empty => exact h ▸ hat
  | set p =>
    obtain ⟨x, rest, hrest, _, rfl⟩ := h
    obtain ⟨past, htext, _⟩ := hat
    exact ⟨past ++ [x], by rw [htext, hrest, List.append_assoc]; rfl, by simp⟩
  | look p => exact h.2 ▸ hat
  | seq r s ihr ihs =>
    obtain ⟨d, hd, hc'⟩ := h
    exact ihs hc' (ihr hd hat)
  | alt r s ihr ihs => exact h.elim (fun h => ihr h hat) fun h => ihs h hat
  | star greedy r ih =>
    induction h with
    | refl => exact hat
    | tail _ hstep ihpath => exact ih hstep ihpath
  | group n r ih =>
    obtain ⟨d, hd, rfl⟩ := h
    obtain ⟨past, hpast, hbefore⟩ := ih hd hat
    exact ⟨past, hpast, hbefore⟩

/-- An expression without groups. -/
def captureless : Regex → Bool
  | seq r s | alt r s => captureless r && captureless s
  | star _ r => captureless r
  | group _ _ => false
  | _ => true

/-- Without groups nothing is captured. -/
theorem Reaches.groups_eq {r : Regex} {c c' : Cursor} (h : Reaches r c c') (hr : captureless r = true) :
    c'.groups = c.groups := by
  induction r generalizing c c' with
  | empty => rw [h]
  | set p =>
    obtain ⟨x, rest, _, _, rfl⟩ := h
    rfl
  | look p => rw [h.2]
  | seq r s ihr ihs =>
    obtain ⟨d, hd, hc'⟩ := h
    obtain ⟨hr, hs⟩ := Bool.and_eq_true_iff.mp hr
    rw [ihs hc' hs, ihr hd hr]
  | alt r s ihr ihs =>
    obtain ⟨hr, hs⟩ := Bool.and_eq_true_iff.mp hr
    exact h.elim (fun h => ihr h hr) fun h => ihs h hs
  | star greedy r ih =>
    induction h with
    | refl => rfl
    | tail _ hstep ihpath => rw [ih hstep hr, ihpath]
  | group n r => cases hr

/-- What a group captures is what its expression takes. -/
theorem take_consumed {text t rest : List Char} (h : text = t ++ rest) :
    text.take (text.length - rest.length) = t := by
  rw [h, List.length_append, Nat.add_sub_cancel, List.take_left']
  rfl

/-- A word, each of its characters up to variants. -/
def Spells (variants : Char → List Char) (t : List Char) (word : String) : Prop :=
  List.Forall₂ (fun x c => c ∈ variants x) t word.toList

theorem reaches_sets {ps : List (Char → Bool)} {c c' : Cursor} (h : Reaches (seqs (ps.map set)) c c') :
    ∃ t, List.Forall₂ (fun x p => p x = true) t ps ∧ c.rest = t ++ c'.rest := by
  induction ps generalizing c with
  | nil => exact ⟨[], .nil, by rw [h]; rfl⟩
  | cons p ps ih =>
    obtain ⟨d, ⟨x, rest, hrest, hx, rfl⟩, hd⟩ := h
    obtain ⟨t, ht, hsplit⟩ := ih hd
    exact ⟨x :: t, .cons hx ht, by rw [hrest, List.cons_append, ← hsplit]⟩

theorem relaxed_lit (variants : Char → List Char) (word : String) :
    relaxed variants (lit word) = seqs ((word.toList.map fun c x => (variants x).any (· == c)).map set) := by
  rw [lit]
  induction word.toList with
  | nil => rfl
  | cons c cs ih => exact congrArg (seq _) ih

theorem relaxed_upTo (variants : Char → List Char) (r : Regex) (n : Nat) :
    relaxed variants (upTo r n) = upTo (relaxed variants r) n := by
  induction n with
  | zero => rfl
  | succ n ih => simp only [upTo, opt, relaxed, ih]

/-- A literal takes its word. -/
theorem reaches_lit {variants : Char → List Char} {word : String} {c c' : Cursor}
    (h : Reaches (relaxed variants (lit word)) c c') :
    ∃ t, Spells variants t word ∧ c.rest = t ++ c'.rest := by
  rw [relaxed_lit] at h
  obtain ⟨t, ht, hsplit⟩ := reaches_sets h
  refine ⟨t, ?_, hsplit⟩
  rw [List.forall₂_map_right_iff] at ht
  exact ht.imp fun x c hx => by simpa using hx

/-- A loop over a class takes characters of it. -/
theorem reaches_star {p : Char → Bool} {greedy : Bool} {c c' : Cursor} (h : Reaches (star greedy (set p)) c c') :
    ∃ t, (∀ x ∈ t, p x = true) ∧ c.rest = t ++ c'.rest := by
  unfold Reaches at h
  induction h with
  | refl => exact ⟨[], by simp, rfl⟩
  | tail _ hstep ih =>
    obtain ⟨t, ht, hsplit⟩ := ih
    obtain ⟨x, rest, hrest, hx, rfl⟩ := hstep
    refine ⟨t ++ [x], fun y hy => ?_, by rw [hsplit, hrest, List.append_assoc]; rfl⟩
    rcases List.mem_append.mp hy with hy | hy
    · exact ht y hy
    · rwa [List.mem_singleton.mp hy]

theorem reaches_plus {p : Char → Bool} {c c' : Cursor} (h : Reaches (plus (set p)) c c') :
    ∃ t, t ≠ [] ∧ (∀ x ∈ t, p x = true) ∧ c.rest = t ++ c'.rest := by
  obtain ⟨d, ⟨x, rest, hrest, hx, rfl⟩, hd⟩ := h
  obtain ⟨t, ht, hsplit⟩ := reaches_star hd
  exact ⟨x :: t, by simp, List.forall_mem_cons.mpr ⟨hx, ht⟩, by rw [hrest, List.cons_append, ← hsplit]⟩

theorem reaches_upTo {p : Char → Bool} {n : Nat} {c c' : Cursor} (h : Reaches (upTo (set p) n) c c') :
    ∃ t, t.length ≤ n ∧ (∀ x ∈ t, p x = true) ∧ c.rest = t ++ c'.rest := by
  induction n generalizing c with
  | zero => exact ⟨[], Nat.le_refl 0, by simp, by rw [h]; rfl⟩
  | succ n ih =>
    rcases h with ⟨d, ⟨x, rest, hrest, hx, rfl⟩, hd⟩ | hstop
    · obtain ⟨t, hlength, ht, hsplit⟩ := ih hd
      exact ⟨x :: t, Nat.succ_le_succ hlength, List.forall_mem_cons.mpr ⟨hx, ht⟩,
        by rw [hrest, List.cons_append, ← hsplit]⟩
    · exact ⟨[], Nat.zero_le _, by simp, by rw [hstop]; rfl⟩

/-! ## What is matched first -/

/-- The engine comes to `c'` first, if what is to follow goes on from there. -/
def Leads (r : Regex) (c c' : Cursor) : Prop :=
  ∀ (α : Type) (next : Cursor → Option α) (a : α), next c' = some a → run r c next = some a

section
variable {before : Option Char} {t rest : List Char} {groups : List (Nat × List Char)} {p : Char → Bool}

theorem leads_empty {c : Cursor} : Leads empty c c := fun _ _ _ h => h

theorem leads_set {x : Char} (h : p x = true) : Leads (set p) ⟨before, x :: rest, groups⟩ ⟨some x, rest, groups⟩ := by
  intro α next a hnext
  simpa [run, h] using hnext

theorem leads_look {q : Option Char → List Char → Bool} {c : Cursor} (h : q c.before c.rest = true) :
    Leads (look q) c c := by
  intro α next a hnext
  simpa [run, h] using hnext

theorem leads_seq {r s : Regex} {c d e : Cursor} (hr : Leads r c d) (hs : Leads s d e) : Leads (seq r s) c e :=
  fun α next a hnext => hr α _ a (hs α next a hnext)

theorem leads_left {r s : Regex} {c d : Cursor} (h : Leads r c d) : Leads (alt r s) c d := by
  intro α next a hnext
  rw [run, h α next a hnext]
  rfl

theorem leads_group {r : Regex} {n : Nat} {before' : Option Char}
    (h : Leads r ⟨before, t ++ rest, groups⟩ ⟨before', rest, groups⟩) :
    Leads (group n r) ⟨before, t ++ rest, groups⟩ ⟨before', rest, (n, t) :: groups⟩ := by
  intro α next a hnext
  refine h α _ a ?_
  rw [take_consumed rfl]
  exact hnext

theorem getLast?_cons_or (x : Char) (t : List Char) (b : Option Char) :
    (x :: t).getLast?.or b = t.getLast?.or (some x) := by
  cases t with
  | nil => rfl
  | cons y t => rw [List.getLast?_cons_cons, List.getLast?_cons]; rfl

theorem run_set_none {α : Type} {next : Cursor → Option α} (h : rest.head?.any p = false) :
    run (set p) ⟨before, rest, groups⟩ next = none := by
  cases rest with
  | nil => rfl
  | cons x rest => simp only [run, show p x = false from h, Bool.false_eq_true, if_false]

/-- A word up to variants leads past it. -/
theorem leads_lit {variants : Char → List Char} {word : String} (h : Spells variants t word) :
    Leads (relaxed variants (lit word)) ⟨before, t ++ rest, groups⟩ ⟨t.getLast?.or before, rest, groups⟩ := by
  rw [relaxed_lit]
  unfold Spells at h
  generalize word.toList = cs at h ⊢
  induction h generalizing before with
  | nil => exact leads_empty
  | @cons x c t cs hx _ ih =>
    rw [getLast?_cons_or]
    exact leads_seq (leads_set (by simpa using hx)) ih

/-- A greedy loop goes past all characters of its class. -/
theorem leads_star (ht : ∀ x ∈ t, p x = true) (hstop : rest.head?.any p = false) :
    Leads (star true (set p)) ⟨before, t ++ rest, groups⟩ ⟨t.getLast?.or before, rest, groups⟩ := by
  intro α next a hnext
  have hloop : ∀ n, t.length ≤ n → ∀ before, next ⟨t.getLast?.or before, rest, groups⟩ = some a →
      rounds (run (set p)) true n ⟨before, t ++ rest, groups⟩ next = some a := by
    clear hnext
    induction t with
    | nil =>
      intro n _ before hnext
      cases n with
      | zero => exact hnext
      | succ n =>
        unfold rounds
        dsimp only [List.nil_append]
        rw [if_pos rfl, run_set_none hstop]
        exact hnext
    | cons x t ih =>
      intro n hn before hnext
      obtain ⟨hx, ht⟩ := List.forall_mem_cons.mp ht
      rw [getLast?_cons_or] at hnext
      cases n with
      | zero => cases hn
      | succ n =>
        unfold rounds
        dsimp only [List.cons_append]
        rw [if_pos rfl, leads_set hx α (fun c' => if c'.rest.length < (x :: (t ++ rest)).length then
          rounds (run (set p)) true n c' next else none) a (by
            rw [if_pos (by simp)]
            exact ih ht n (Nat.le_of_succ_le_succ hn) (some x) hnext)]
        rfl
  exact hloop _ (by simp) before hnext

theorem leads_plus (hne : t ≠ []) (ht : ∀ x ∈ t, p x = true) (hstop : rest.head?.any p = false) :
    Leads (plus (set p)) ⟨before, t ++ rest, groups⟩ ⟨t.getLast?.or before, rest, groups⟩ := by
  cases t with
  | nil => exact absurd rfl hne
  | cons x t =>
    obtain ⟨hx, ht⟩ := List.forall_mem_cons.mp ht
    rw [getLast?_cons_or]
    exact leads_seq (leads_set hx) (leads_star ht hstop)

theorem leads_upTo {n : Nat} (hn : t.length ≤ n) (ht : ∀ x ∈ t, p x = true) (hstop : rest.head?.any p = false) :
    Leads (upTo (set p) n) ⟨before, t ++ rest, groups⟩ ⟨t.getLast?.or before, rest, groups⟩ := by
  induction t generalizing before n with
  | nil =>
    intro α next a hnext
    cases n with
    | zero => exact hnext
    | succ n =>
      have hnone : run (seq (set p) (upTo (set p) n)) ⟨before, rest, groups⟩ next = none := by
        rw [run]
        exact run_set_none hstop
      rw [upTo, opt, run, List.nil_append, hnone]
      exact hnext
  | cons x t ih =>
    obtain ⟨hx, ht⟩ := List.forall_mem_cons.mp ht
    rw [getLast?_cons_or]
    cases n with
    | zero => cases hn
    | succ n => exact leads_left (leads_seq (leads_set hx) (ih (Nat.le_of_succ_le_succ hn) ht))

end

/-- What an expression takes first of a text, before the rest of it. -/
def Takes (r : Regex) (t rest : List Char) : Prop :=
  ∀ before groups, Leads r ⟨before, t ++ rest, groups⟩ ⟨t.getLast?.or before, rest, groups⟩

theorem takes_seq {r s : Regex} {t t' rest : List Char} (hr : Takes r t (t' ++ rest)) (hs : Takes s t' rest) :
    Takes (seq r s) (t ++ t') rest := by
  intro before groups
  rw [List.append_assoc, List.getLast?_append, Option.or_assoc]
  exact leads_seq (hr before groups) (hs _ groups)

theorem takes_empty {rest : List Char} : Takes empty [] rest := fun _ _ => leads_empty

theorem takes_seqs_cons {r : Regex} {rs : List Regex} {t t' rest : List Char} (hr : Takes r t (t' ++ rest))
    (hs : Takes (seqs rs) t' rest) : Takes (seqs (r :: rs)) (t ++ t') rest := takes_seq hr hs

theorem takes_left {r s : Regex} {t rest : List Char} (h : Takes r t rest) : Takes (alt r s) t rest :=
  fun before groups => leads_left (h before groups)

/-- What the first alternative cannot begin, the second one takes. -/
theorem takes_right {r s : Regex} {t rest : List Char} (hnone : ∀ (α : Type) (before : Option Char)
    (groups : List (Nat × List Char)) (next : Cursor → Option α), run r ⟨before, t ++ rest, groups⟩ next = none)
    (h : Takes s t rest) : Takes (alt r s) t rest := by
  intro before groups α next a hnext
  rw [run, hnone]
  exact h before groups α next a hnext

/-- A word is not begun by a character that is no variant of its first. -/
theorem run_lit_none {variants : Char → List Char} {word : String} {d : Char} {ds : List Char}
    (hword : word.toList = d :: ds) {text : List Char} (h : ∀ x ∈ text.head?, d ∉ variants x) (s : Regex) (α : Type)
    (before : Option Char) (groups : List (Nat × List Char)) (next : Cursor → Option α) :
    run (seq (relaxed variants (lit word)) s) ⟨before, text, groups⟩ next = none := by
  have hfirst : text.head?.any (fun x => (variants x).any (· == d)) = false := by
    cases text with
    | nil => rfl
    | cons x text =>
      have hnot : ∀ v ∈ variants x, v ≠ d := fun v hv heq => h x rfl (heq ▸ hv)
      simpa using hnot
  rw [relaxed_lit, hword, List.map_cons, List.map_cons, seqs, List.foldr_cons, run, run]
  exact run_set_none hfirst

/-! ## What is found -/

/-- The matches at all places, place by place. -/
theorem mem_everyFrom_iff {r : Regex} {position : Nat} {before : Option Char} {text : List Char} {m : Found} :
    m ∈ everyFrom r position before text ↔ ∃ pre rest c, text = pre ++ rest ∧
      here r (pre.getLast?.or before) rest = some c ∧ m = ⟨position + pre.length,
        position + pre.length + (rest.length - c.rest.length), rest.take (rest.length - c.rest.length), c.groups⟩ := by
  induction text generalizing position before with
  | nil =>
    rw [everyFrom, Option.mem_toList, Option.map_eq_some_iff]
    constructor
    · rintro ⟨c, hhere, rfl⟩
      exact ⟨[], [], c, rfl, hhere, by simp⟩
    · rintro ⟨pre, rest, c, htext, hhere, rfl⟩
      obtain ⟨rfl, rfl⟩ := List.append_eq_nil_iff.mp htext.symm
      exact ⟨c, hhere, by simp⟩
  | cons x text ih =>
    rw [everyFrom, List.mem_append, Option.mem_toList, Option.map_eq_some_iff, ih]
    constructor
    · rintro (⟨c, hhere, rfl⟩ | ⟨pre, rest, c, rfl, hhere, rfl⟩)
      · exact ⟨[], x :: text, c, rfl, hhere, rfl⟩
      · refine ⟨x :: pre, rest, c, rfl, by rw [getLast?_cons_or]; exact hhere, ?_⟩
        rw [List.length_cons, Nat.add_assoc position 1, Nat.add_comm 1]
    · rintro ⟨pre, rest, c, htext, hhere, rfl⟩
      cases pre with
      | nil =>
        rw [List.nil_append] at htext
        subst htext
        exact .inl ⟨c, hhere, rfl⟩
      | cons y pre =>
        obtain ⟨rfl, rfl⟩ := List.cons.inj htext
        rw [getLast?_cons_or] at hhere
        refine .inr ⟨pre, rest, c, rfl, hhere, ?_⟩
        rw [List.length_cons, Nat.add_assoc position 1, Nat.add_comm 1]

/-- A match at some place starts somewhere in the text. -/
theorem everywhere_reaches {r : Regex} {text : List Char} {m : Found} (h : m ∈ everywhere r text) :
    ∃ c c', At text c ∧ c.groups = [] ∧ Reaches r c c' ∧ m.groups = c'.groups := by
  obtain ⟨pre, rest, c, htext, hhere, rfl⟩ := mem_everyFrom_iff.mp h
  rw [Option.or_none] at hhere
  obtain ⟨d, hd, hsame⟩ := run_reaches hhere
  cases hsame
  exact ⟨_, _, ⟨pre, htext, rfl⟩, rfl, hd, rfl⟩

/-- The text of a match stands in the text. -/
theorem everywhere_text {r : Regex} {text : List Char} {m : Found} (h : m ∈ everywhere r text) : m.text <:+: text := by
  obtain ⟨pre, rest, c, rfl, -, rfl⟩ := mem_everyFrom_iff.mp h
  exact (List.take_prefix _ _).isInfix.trans (List.suffix_append pre rest).isInfix

theorem findFrom_sublist {r : Regex} {position skip : Nat} {before : Option Char} {text : List Char} :
    (findFrom r position before skip text).Sublist (everyFrom r position before text) := by
  induction text generalizing position skip before with
  | nil =>
    unfold findFrom everyFrom
    split
    · exact List.Sublist.refl _
    · exact List.nil_sublist _
  | cons x text ih =>
    unfold findFrom everyFrom
    split
    · rename_i c hc
      split at hc
      · rw [hc]
        exact ih.cons_cons _
      · cases hc
    · exact ih.trans (List.sublist_append_right _ _)

/-- What is found is a match of its place. -/
theorem findAll_sublist {r : Regex} {text : List Char} : (findAll r text).Sublist (everywhere r text) :=
  findFrom_sublist

/-- Where nothing is found there is no match at any place. -/
theorem everyFrom_eq_nil {r : Regex} {position : Nat} {before : Option Char} {text : List Char}
    (h : findFrom r position before 0 text = []) : everyFrom r position before text = [] := by
  induction text generalizing position before with
  | nil => exact h
  | cons x text ih =>
    unfold findFrom at h
    rw [if_pos rfl] at h
    split at h
    · cases h
    · rename_i hnone
      rw [everyFrom, hnone, ih h]
      rfl

/-- What is matched at a place is a match of the text. -/
theorem mem_everywhere {r : Regex} {pre text : List Char} {c : Cursor} (hhere : here r pre.getLast? text = some c) :
    ∃ m ∈ everywhere r (pre ++ text), m.groups = c.groups :=
  ⟨_, mem_everyFrom_iff.mpr ⟨pre, text, c, rfl, by rwa [Option.or_none], rfl⟩, rfl⟩

/-- Where something can be matched, it is found, or something that began before and goes on
    past the place. -/
theorem findFrom_covers {r : Regex} {text : List Char} {c : Cursor} {before : Option Char} (pre : List Char)
    (hhere : here r (pre.getLast?.or before) text = some c) (hlt : c.rest.length < text.length) {position skip : Nat}
    (hskip : skip ≤ pre.length) : ∃ m ∈ findFrom r position before skip (pre ++ text),
      (m.start < position + pre.length ∧ position + pre.length < m.stop) ∨
        (m.start = position + pre.length ∧ m.stop = position + pre.length + (text.length - c.rest.length)) := by
  induction pre generalizing position before skip with
  | nil =>
    cases text with
    | nil => exact absurd hlt (Nat.not_lt_zero _)
    | cons x text =>
      have hzero : skip = 0 := Nat.le_zero.mp hskip
      have hfirst : here r before (x :: text) = some c := hhere
      rw [List.nil_append, findFrom, if_pos hzero, hfirst]
      exact ⟨_, List.mem_cons_self, .inr ⟨rfl, rfl⟩⟩
  | cons y pre ih =>
    rw [getLast?_cons_or] at hhere
    have hplace : position + (y :: pre).length = position + 1 + pre.length := by
      rw [List.length_cons]
      omega
    have hlater : ∀ {skip'}, skip' ≤ pre.length → ∃ m ∈ findFrom r (position + 1) (some y) skip' (pre ++ text),
        (m.start < position + (y :: pre).length ∧ position + (y :: pre).length < m.stop) ∨
          (m.start = position + (y :: pre).length ∧
            m.stop = position + (y :: pre).length + (text.length - c.rest.length)) := by
      intro skip' hskip'
      rw [hplace]
      exact ih hhere hskip'
    rw [List.cons_append, findFrom]
    split
    · rename_i c' hc'
      by_cases hshort : (pre ++ text).length + 1 - c'.rest.length - 1 ≤ pre.length
      · obtain ⟨m, hm, hplaces⟩ := hlater hshort
        exact ⟨m, List.mem_cons_of_mem _ hm, hplaces⟩
      · refine ⟨_, List.mem_cons_self, .inl ⟨?_, ?_⟩⟩
        · dsimp only
          rw [List.length_cons]
          omega
        · dsimp only
          rw [List.length_cons]
          omega
    · obtain ⟨m, hm, hplaces⟩ := hlater (by
        rw [List.length_cons] at hskip
        omega : skip - 1 ≤ pre.length)
      exact ⟨m, hm, hplaces⟩

/-- A match that is found starts somewhere in the text. -/
theorem findAll_reaches {r : Regex} {text : List Char} {m : Found} (h : m ∈ findAll r text) :
    ∃ c c', At text c ∧ c.groups = [] ∧ Reaches r c c' ∧ m.groups = c'.groups :=
  everywhere_reaches (findAll_sublist.subset h)

/-- The text of a match that is found stands in the text. -/
theorem findAll_text {r : Regex} {text : List Char} {m : Found} (h : m ∈ findAll r text) : m.text <:+: text :=
  everywhere_text (findAll_sublist.subset h)

theorem findAll_none {r : Regex} {text : List Char} (h : ∀ c c', At text c → ¬ Reaches r c c') :
    findAll r text = [] := by
  rw [List.eq_nil_iff_forall_not_mem]
  intro m hm
  obtain ⟨c, c', hat, _, hreaches, _⟩ := findAll_reaches hm
  exact h c c' hat hreaches

theorem search_none {r : Regex} {text : List Char} (h : ∀ c c', At text c → ¬ Reaches r c c') :
    search r text = none := by
  rw [search, findAll_none h]
  rfl

/-- What a text is split into stands in it. -/
theorem isInfix_of_mem_split {r : Regex} {text piece : List Char} (h : piece ∈ split r text) : piece <:+: text := by
  have hpieces : ∀ (found : List Found) (position : Nat) (text : List Char), piece ∈ pieces position text found →
      piece <:+: text := by
    intro found
    induction found with
    | nil =>
      intro position text h
      exact List.mem_singleton.mp h ▸ List.infix_rfl
    | cons m found ih =>
      intro position text h
      rcases List.mem_cons.mp h with rfl | h
      · exact (List.take_prefix _ _).isInfix
      · exact (ih _ _ h).trans (List.drop_suffix _ _).isInfix
  exact hpieces _ _ _ h

theorem here_none {r : Regex} {before : Option Char} {text : List Char} (h : ∀ c', ¬ Reaches r ⟨before, text, []⟩ c') :
    here r before text = none := by
  rw [Option.eq_none_iff_forall_not_mem]
  intro c hc
  obtain ⟨d, hd, _⟩ := run_reaches hc
  exact h d hd

/-- Where nothing can be matched, there is no match at any place. -/
theorem everyFrom_none {r : Regex} {position : Nat} {before : Option Char} {text : List Char}
    (h : ∀ c c', c.rest <:+ text → ¬ Reaches r c c') : everyFrom r position before text = [] := by
  have hhere : here r before text = none := here_none fun c' => h _ c' List.suffix_rfl
  induction text generalizing position before with
  | nil =>
    rw [everyFrom, hhere]
    rfl
  | cons x text ih =>
    have hlater : ∀ c c', c.rest <:+ text → ¬ Reaches r c c' := fun c c' hc => h c c' (hc.trans (List.suffix_cons x text))
    rw [everyFrom, hhere, ih hlater (here_none fun c' => hlater _ c' List.suffix_rfl)]
    rfl

/-- Nor is anything found behind the match that ends there. -/
theorem findFrom_skip {r : Regex} {t rest : List Char} {position : Nat} {before : Option Char}
    (h : ∀ c c', c.rest <:+ rest → ¬ Reaches r c c') : findFrom r position before t.length (t ++ rest) = [] := by
  induction t generalizing position before with
  | nil => exact List.sublist_nil.mp (everyFrom_none h ▸ findFrom_sublist)
  | cons x t ih =>
    rw [List.cons_append, findFrom, if_neg (by simp)]
    exact ih

/-- Where nothing can be matched behind the first match, nothing else is found. -/
theorem findAll_first {r : Regex} {t rest : List Char} {before : Option Char} {groups : List (Nat × List Char)}
    (hne : t ≠ []) (h : Leads r ⟨none, t ++ rest, []⟩ ⟨before, rest, groups⟩)
    (hend : ∀ c c', c.rest <:+ rest → ¬ Reaches r c c') :
    findAll r (t ++ rest) = [⟨0, t.length, t, groups⟩] := by
  obtain ⟨x, t, rfl⟩ := List.exists_cons_of_ne_nil hne
  have hhere : here r none (x :: (t ++ rest)) = some ⟨before, rest, groups⟩ := h _ some _ rfl
  have hlength : (t ++ rest).length + 1 - rest.length = t.length + 1 := by
    rw [List.length_append]
    omega
  rw [findAll, List.cons_append, findFrom, if_pos rfl, hhere]
  simp only [hlength, Nat.zero_add, Nat.add_sub_cancel, findFrom_skip hend, List.length_cons]
  rw [List.take_succ_cons, List.take_left]

end WorkforceRisk.Lib.Regex
