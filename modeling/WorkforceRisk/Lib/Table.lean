/-
  WorkforceRisk.Lib.Table — database tables with unique constraints, as lists of rows.

  A row type is `Keyed` when the columns under its table's primary key and unique
  constraints are a key of the row, and `clash` says which two keys no table may hold
  together. A `Table` carries the proof that no two of its rows clash, so a table that
  breaks a constraint cannot be built: `insert` refuses a clashing row (the database's
  integrity error), and `update` takes only changes that leave the key columns alone.

  Rows are in insertion order. `find?` is a `SELECT` of one row, `update` an
  `UPDATE ... WHERE`, `count` its row count.
-/

import Mathlib.Data.List.Pairwise

namespace WorkforceRisk.Lib

/-- The columns a table's unique constraints read, and which two keys may not meet. -/
class Keyed (ρ : Type) where
  Key : Type
  key : ρ → Key
  clash : Key → Key → Bool
  clash_comm : ∀ a b, clash a b = clash b a

def clashes {ρ : Type} [Keyed ρ] (a b : ρ) : Bool := Keyed.clash (Keyed.key a) (Keyed.key b)

/-- One unique constraint. -/
@[reducible] def Keyed.byUnique {ρ β : Type} [DecidableEq β] (unique : ρ → β) : Keyed ρ where
  Key := β
  key := unique
  clash a b := a == b
  clash_comm _ _ := Bool.beq_comm

theorem clashes_byUnique {ρ β : Type} [DecidableEq β] {unique : ρ → β} {a b : ρ} :
    @clashes ρ (Keyed.byUnique unique) a b = true ↔ unique a = unique b := by
  show (unique a == unique b) = true ↔ _
  simp

theorem not_clashes_byUnique {ρ β : Type} [DecidableEq β] {unique : ρ → β} {a b : ρ} :
    @clashes ρ (Keyed.byUnique unique) a b = false ↔ unique a ≠ unique b := by
  show (unique a == unique b) = false ↔ _
  simp

/-- A primary key and one unique constraint. -/
@[reducible] def Keyed.byIdAnd {ρ α β : Type} [DecidableEq α] [DecidableEq β] (id : ρ → α) (unique : ρ → β) :
    Keyed ρ where
  Key := α × β
  key r := (id r, unique r)
  clash a b := a.1 == b.1 || a.2 == b.2
  clash_comm a b := by rw [Bool.beq_comm (a := a.1), Bool.beq_comm (a := a.2)]

theorem clashes_byIdAnd {ρ α β : Type} [DecidableEq α] [DecidableEq β] {id : ρ → α} {unique : ρ → β} {a b : ρ} :
    @clashes ρ (Keyed.byIdAnd id unique) a b = true ↔ id a = id b ∨ unique a = unique b := by
  show (id a == id b || unique a == unique b) = true ↔ _
  simp

theorem not_clashes_byIdAnd {ρ α β : Type} [DecidableEq α] [DecidableEq β] {id : ρ → α} {unique : ρ → β} {a b : ρ} :
    @clashes ρ (Keyed.byIdAnd id unique) a b = false ↔ id a ≠ id b ∧ unique a ≠ unique b := by
  show (id a == id b || unique a == unique b) = false ↔ _
  simp

@[ext] structure Table (ρ : Type) [Keyed ρ] where
  rows : List ρ
  distinct : rows.Pairwise fun a b => clashes a b = false

namespace Table

variable {ρ : Type}

/-- Change the rows `p` picks by `f`, in place. -/
def change (p : ρ → Bool) (f : ρ → ρ) (r : ρ) : ρ := if p r then f r else r

theorem change_pos {p : ρ → Bool} {f : ρ → ρ} {r : ρ} (h : p r = true) : change p f r = f r := if_pos h

theorem change_neg {p : ρ → Bool} {f : ρ → ρ} {r : ρ} (h : p r = false) : change p f r = r := if_neg (by simp [h])

/-- Whatever `f` keeps of a row, changing the rows `p` picks keeps of every row. -/
theorem change_keeps {β : Type} {p : ρ → Bool} {f : ρ → ρ} (g : ρ → β) (hg : ∀ r, g (f r) = g r) (r : ρ) :
    g (change p f r) = g r := by
  unfold change
  split
  · exact hg r
  · rfl

variable [Keyed ρ]

def empty : Table ρ := ⟨[], .nil⟩

def find? (t : Table ρ) (p : ρ → Bool) : Option ρ := t.rows.find? p

def count (t : Table ρ) (p : ρ → Bool) : Nat := t.rows.countP p

theorem append_distinct {l : List ρ} {r : ρ} (hl : l.Pairwise fun a b => clashes a b = false)
    (hr : ∀ a ∈ l, clashes a r = false) : (l ++ [r]).Pairwise fun a b => clashes a b = false :=
  List.pairwise_append.mpr ⟨hl, List.pairwise_singleton _ _, fun a ha b hb => by
    rw [List.mem_singleton.mp hb]; exact hr a ha⟩

/-- `INSERT`: refused when the row clashes with one already there. -/
def insert (t : Table ρ) (r : ρ) : Option (Table ρ) :=
  if h : ∀ a ∈ t.rows, clashes a r = false then some ⟨t.rows ++ [r], append_distinct t.distinct h⟩ else none

theorem map_distinct {l : List ρ} {f : ρ → ρ} (hf : ∀ r, Keyed.key (f r) = Keyed.key r)
    (hl : l.Pairwise fun a b => clashes a b = false) : (l.map f).Pairwise fun a b => clashes a b = false :=
  List.pairwise_map.mpr (hl.imp fun h => by simpa only [clashes, hf] using h)

/-- `UPDATE ... WHERE p`: the key columns stay as they are. -/
def update (t : Table ρ) (p : ρ → Bool) (f : ρ → ρ) (hf : ∀ r, Keyed.key (f r) = Keyed.key r) : Table ρ :=
  ⟨t.rows.map (change p f), map_distinct (change_keeps _ hf) t.distinct⟩

/-! ## Reading -/

theorem find?_mem {t : Table ρ} {p : ρ → Bool} {r : ρ} (h : t.find? p = some r) : r ∈ t.rows :=
  List.mem_of_find?_eq_some h

theorem find?_holds {t : Table ρ} {p : ρ → Bool} {r : ρ} (h : t.find? p = some r) : p r = true :=
  List.find?_some h

theorem find?_none {t : Table ρ} {p : ρ → Bool} (h : t.find? p = none) : ∀ r ∈ t.rows, p r = false := fun r hr => by
  simpa using List.find?_eq_none.mp h r hr

theorem find?_eq_none_of {t : Table ρ} {p : ρ → Bool} (h : ∀ r ∈ t.rows, p r = false) : t.find? p = none :=
  List.find?_eq_none.mpr fun r hr => by simp [h r hr]

/-- Two rows of a table that clash are the same row. -/
theorem eq_of_clashes (t : Table ρ) {a b : ρ} (ha : a ∈ t.rows) (hb : b ∈ t.rows) (h : clashes a b = true) :
    a = b := by
  have : Std.Symm fun a b : ρ => clashes a b = false :=
    ⟨fun x y hxy => by rw [clashes, Keyed.clash_comm]; exact hxy⟩
  apply Classical.byContradiction
  intro hne
  rw [t.distinct.forall ha hb hne] at h
  cases h

/-- A predicate that picks only rows clashing with each other picks the row it holds of. -/
theorem find?_eq_some_of_mem {t : Table ρ} {p : ρ → Bool} {r : ρ} (hr : r ∈ t.rows) (hp : p r = true)
    (hu : ∀ a, p a = true → clashes a r = true) : t.find? p = some r := by
  cases hf : t.find? p with
  | none => rw [find?_none hf r hr] at hp; cases hp
  | some a =>
    rw [t.eq_of_clashes (find?_mem hf) hr (hu a (find?_holds hf))]

/-- A predicate that picks only rows clashing with each other picks one row, or none. -/
theorem count_eq_one {t : Table ρ} {p : ρ → Bool} (hu : ∀ a b, p a = true → p b = true → clashes a b = true) :
    t.count p = 1 ↔ ∃ r ∈ t.rows, p r = true := by
  have hle : t.count p ≤ 1 := by
    have hpair := t.distinct.filter p
    rw [count, List.countP_eq_length_filter]
    cases hl : t.rows.filter p with
    | nil => simp
    | cons a l =>
      cases l with
      | nil => simp
      | cons b l =>
        have hmem : ∀ x ∈ [a, b], p x = true := by
          intro x hx
          have hx : x ∈ t.rows.filter p := by
            rw [hl]
            simp only [List.mem_cons, List.not_mem_nil, or_false] at hx ⊢
            rcases hx with rfl | rfl <;> simp
          exact (List.mem_filter.mp hx).2
        rw [hl] at hpair
        have hab := (List.pairwise_cons.mp hpair).1 b List.mem_cons_self
        rw [hu a b (hmem a (by simp)) (hmem b (by simp))] at hab
        cases hab
  have hpos : 0 < t.count p ↔ ∃ r ∈ t.rows, p r = true := List.countP_pos_iff
  rw [← hpos]
  omega

/-! ## Inserting -/

theorem insert_eq_some {t t' : Table ρ} {r : ρ} :
    t.insert r = some t' ↔ (∀ a ∈ t.rows, clashes a r = false) ∧ t'.rows = t.rows ++ [r] := by
  unfold insert
  split
  · rename_i h
    constructor
    · intro e
      cases e
      exact ⟨h, rfl⟩
    · intro e
      exact congrArg some (Table.ext e.2.symm)
  · rename_i h
    exact ⟨fun e => (nomatch e), fun e => absurd e.1 h⟩

theorem insert_rows {t t' : Table ρ} {r : ρ} (h : t.insert r = some t') : t'.rows = t.rows ++ [r] :=
  (insert_eq_some.mp h).2

theorem mem_insert {t t' : Table ρ} {r a : ρ} (h : t.insert r = some t') : a ∈ t'.rows ↔ a ∈ t.rows ∨ a = r := by
  rw [insert_rows h, List.mem_append, List.mem_singleton]

theorem insert_fresh {t t' : Table ρ} {r : ρ} (h : t.insert r = some t') : ∀ a ∈ t.rows, clashes a r = false :=
  (insert_eq_some.mp h).1

theorem insert_of_fresh {t : Table ρ} {r : ρ} (h : ∀ a ∈ t.rows, clashes a r = false) : ∃ t', t.insert r = some t' :=
  ⟨⟨t.rows ++ [r], append_distinct t.distinct h⟩, insert_eq_some.mpr ⟨h, rfl⟩⟩

theorem find?_insert {t t' : Table ρ} {r : ρ} {p : ρ → Bool} (h : t.insert r = some t') :
    t'.find? p = (t.find? p).or (if p r then some r else none) := by
  rw [find?, insert_rows h, List.find?_append, List.find?_singleton]
  rfl

/-- One `INSERT` after another. -/
def insertAll (t : Table ρ) : List ρ → Option (Table ρ)
  | [] => some t
  | r :: rs => (t.insert r).bind fun t' => t'.insertAll rs

theorem insertAll_rows {rs : List ρ} : ∀ {t t' : Table ρ}, t.insertAll rs = some t' → t'.rows = t.rows ++ rs := by
  induction rs with
  | nil =>
    intro t t' h
    cases h
    simp
  | cons r rs ih =>
    intro t t' h
    obtain ⟨u, hu, hrs⟩ := Option.bind_eq_some_iff.mp h
    rw [ih hrs, insert_rows hu]
    simp

/-- Rows go in together when none clashes with a row there, nor with another of them. -/
theorem insertAll_ok {rs : List ρ} : ∀ {t : Table ρ}, (∃ t', t.insertAll rs = some t') ↔
    (∀ a ∈ t.rows, ∀ r ∈ rs, clashes a r = false) ∧ rs.Pairwise fun a b => clashes a b = false := by
  induction rs with
  | nil => intro t; exact ⟨fun _ => ⟨fun _ _ _ hr => (nomatch hr), .nil⟩, fun _ => ⟨t, rfl⟩⟩
  | cons r rs ih =>
    intro t
    constructor
    · intro h'
      obtain ⟨t', h⟩ := h'
      obtain ⟨u, hu, hrs⟩ := Option.bind_eq_some_iff.mp h
      obtain ⟨hfresh, hrest⟩ := ih.mp ⟨t', hrs⟩
      refine ⟨fun a ha b hb => ?_, List.pairwise_cons.mpr ⟨fun b hb => ?_, hrest⟩⟩
      · rcases List.mem_cons.mp hb with rfl | hb
        · exact insert_fresh hu a ha
        · exact hfresh a ((mem_insert hu).mpr (.inl ha)) b hb
      · exact hfresh r ((mem_insert hu).mpr (.inr rfl)) b hb
    · intro h'
      obtain ⟨hfresh, hpair⟩ := h'
      obtain ⟨hr, hrest⟩ := List.pairwise_cons.mp hpair
      obtain ⟨u, hu⟩ := insert_of_fresh fun a ha => hfresh a ha r List.mem_cons_self
      obtain ⟨t', ht'⟩ := ih.mpr ⟨fun a ha b hb => by
        rcases (mem_insert hu).mp ha with ha | rfl
        · exact hfresh a ha b (List.mem_cons_of_mem _ hb)
        · exact hr b hb, hrest⟩
      exact ⟨t', Option.bind_eq_some_iff.mpr ⟨u, hu, ht'⟩⟩

/-- A number no row of the table has: the id a draw that does not repeat one gives. -/
def fresh (t : Table ρ) (id : ρ → Nat) : Nat := t.rows.foldr (fun r n => n + id r + 1) 0

theorem lt_fresh {t : Table ρ} {id : ρ → Nat} {r : ρ} (h : r ∈ t.rows) : id r < t.fresh id := by
  unfold fresh
  generalize t.rows = rows at h
  induction rows with
  | nil => cases h
  | cons a rows ih =>
    rw [List.foldr_cons]
    rcases List.mem_cons.mp h with rfl | h
    · omega
    · have := ih h
      omega

theorem ne_fresh (t : Table ρ) (id : ρ → Nat) {r : ρ} (h : r ∈ t.rows) : id r ≠ t.fresh id := Nat.ne_of_lt (lt_fresh h)

theorem exists_fresh (t : Table ρ) (id : ρ → Nat) : ∃ n, ∀ r ∈ t.rows, id r ≠ n := ⟨t.fresh id, fun _ => t.ne_fresh id⟩

/-! ## Updating -/

section
variable {t : Table ρ} {p : ρ → Bool} {f : ρ → ρ} {hf : ∀ r, Keyed.key (f r) = Keyed.key r}

theorem mem_update {r : ρ} : r ∈ (t.update p f hf).rows ↔ ∃ a ∈ t.rows, change p f a = r := List.mem_map

theorem mem_update_of_mem {a : ρ} (ha : a ∈ t.rows) : change p f a ∈ (t.update p f hf).rows :=
  List.mem_map_of_mem ha

theorem mem_update_pos {a : ρ} (ha : a ∈ t.rows) (hp : p a = true) : f a ∈ (t.update p f hf).rows :=
  mem_update.mpr ⟨a, ha, change_pos hp⟩

theorem mem_update_neg {a : ρ} (ha : a ∈ t.rows) (hp : p a = false) : a ∈ (t.update p f hf).rows :=
  mem_update.mpr ⟨a, ha, change_neg hp⟩

/-- What an update keeps of a row, it keeps of the table. -/
theorem update_keeps {β : Type} {g : ρ → β} (hf : ∀ r, Keyed.key (f r) = Keyed.key r) (hg : ∀ r, g (f r) = g r) :
    (t.update p f hf).rows.map g = t.rows.map g := by
  show (t.rows.map (change p f)).map g = _
  rw [List.map_map]
  exact List.map_congr_left fun r _ => change_keeps g hg r

/-- An update that keeps what a `SELECT` reads changes the row it finds. -/
theorem find?_update {q : ρ → Bool} (hq : ∀ r, q (f r) = q r) :
    (t.update p f hf).find? q = (t.find? q).map (change p f) := by
  show (t.rows.map (change p f)).find? q = _
  rw [List.find?_map, show q ∘ change p f = q from funext (change_keeps q hq)]
  rfl

end

end Table

end WorkforceRisk.Lib
