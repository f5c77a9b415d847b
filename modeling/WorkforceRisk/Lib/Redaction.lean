/-
  WorkforceRisk.Lib.Redaction — a text with its matches replaced by a mark, and what can be
  read in it.

  A scan from left to right takes of all matches the leftmost ones (`Leftmost`): they are
  apart, and any other match begins inside one that began before it. That leaves one choice
  (`Leftmost.unique`), and it is what is found (`findAll_leftmost`).

  The replaced text is a list of cells: the characters outside the matches, each with its
  place, and the characters of the marks. `sub` is their text, `re.sub` for an expression
  that never matches without taking something. Proved (`infix_cells_take_iff`): a text is in
  the beginning of the replaced one exactly if it stands in the text outside the matches,
  early enough, or is read with a character of a mark; a text without the ends of the mark
  that is not in the mark is never read so (`not_readWithMark`).
-/

import Mathlib.Data.List.Pairwise
import Mathlib.Data.List.Perm.Basic
import WorkforceRisk.Lib.RegexSemantics

namespace WorkforceRisk.Lib.Regex

/-- The characters from one place up to another. -/
structure Span where
  start : Nat
  stop : Nat

def Found.span (m : Found) : Span := ⟨m.start, m.stop⟩

/-! ## The leftmost matches -/

/-- What a scan takes of the matches of a text. -/
structure Leftmost (isMatch : Span → Prop) (chosen : List Span) : Prop where
  matched : ∀ s ∈ chosen, isMatch s
  apart : chosen.Pairwise fun s t => s.stop ≤ t.start
  /-- Any other match begins inside one that began before it. -/
  first : ∀ s, isMatch s → s ∈ chosen ∨ ∃ t ∈ chosen, t.start < s.start ∧ s.start < t.stop

/-- Of two of them one ends before the other starts. -/
theorem apart_of_ne {chosen : List Span} (h : chosen.Pairwise fun s t => s.stop ≤ t.start) {s t : Span}
    (hs : s ∈ chosen) (ht : t ∈ chosen) (hne : s ≠ t) : s.stop ≤ t.start ∨ t.stop ≤ s.start := by
  let either := fun s t : Span => s.stop ≤ t.start ∨ t.stop ≤ s.start
  have hsymm : Std.Symm either := ⟨fun _ _ => Or.symm⟩
  have heither : chosen.Pairwise either := h.imp Or.inl
  exact heither.forall hs ht hne

namespace Leftmost

variable {isMatch : Span → Prop} {chosen other : List Span}

/-- No match that is taken starts inside another. -/
theorem not_inside (h : Leftmost isMatch chosen) (hne : ∀ s, isMatch s → s.start < s.stop) {s t : Span}
    (hs : s ∈ chosen) (ht : t ∈ chosen) (hstart : t.start < s.start) : ¬ s.start < t.stop := by
  intro hstop
  have hs' := hne s (h.matched s hs)
  rcases apart_of_ne h.apart hs ht (fun heq => by subst heq; omega) with hle | hle
  · omega
  · omega

theorem subset (hne : ∀ s, isMatch s → s.start < s.stop) (h : Leftmost isMatch chosen) (h' : Leftmost isMatch other)
    {s : Span} : (s ∈ chosen → s ∈ other) ∧ (s ∈ other → s ∈ chosen) := by
  -- By the starts: what would shut a match out of one choice is in both.
  induction hn : s.start using Nat.strongRecOn generalizing s with
  | _ n ih =>
    subst hn
    constructor
    · intro hs
      rcases h'.first s (h.matched s hs) with hin | ⟨t, ht, hstart, hstop⟩
      · exact hin
      · exact absurd hstop (h.not_inside hne hs ((ih t.start hstart rfl).2 ht) hstart)
    · intro hs
      rcases h.first s (h'.matched s hs) with hin | ⟨t, ht, hstart, hstop⟩
      · exact hin
      · exact absurd hstop (h'.not_inside hne hs ((ih t.start hstart rfl).1 ht) hstart)

/-- There is one choice. -/
theorem unique (hne : ∀ s, isMatch s → s.start < s.stop) (h : Leftmost isMatch chosen) (h' : Leftmost isMatch other) :
    chosen = other := by
  have hnodup : ∀ {l}, Leftmost isMatch l → l.Nodup := by
    intro l hl
    refine List.Pairwise.imp_of_mem (fun {s t} hs _ hst heq => ?_) hl.apart
    subst heq
    exact absurd hst (Nat.not_le.mpr (hne s (hl.matched s hs)))
  have hperm : chosen.Perm other :=
    (List.perm_ext_iff_of_nodup (hnodup h) (hnodup h')).mpr fun s => ⟨(subset hne h h').1, (subset hne h h').2⟩
  refine hperm.eq_of_pairwise (fun s t hs ht hst hts => ?_) h.apart h'.apart
  have hs' := hne s (h.matched s hs)
  have ht' := hne t (h'.matched t ht)
  omega

end Leftmost

theorem findFrom_after {r : Regex} {text : List Char} {position skip : Nat} {before : Option Char} {m : Found}
    (h : m ∈ findFrom r position before skip text) : position + skip ≤ m.start := by
  induction text generalizing position skip before with
  | nil =>
    unfold findFrom at h
    split at h
    · rename_i hskip
      obtain ⟨c, -, rfl⟩ := Option.map_eq_some_iff.mp (Option.mem_toList.mp h)
      exact hskip ▸ Nat.le_refl position
    · cases h
  | cons x text ih =>
    unfold findFrom at h
    split at h
    · rename_i c hc
      split at hc
      · rename_i hskip
        rcases List.mem_cons.mp h with rfl | h
        · exact hskip ▸ Nat.le_refl position
        · have hlater := ih h
          omega
      · cases hc
    · have hlater := ih h
      omega

theorem findFrom_apart {r : Regex} {text : List Char} {position skip : Nat} {before : Option Char} :
    (findFrom r position before skip text).Pairwise fun m m' => m.stop ≤ m'.start := by
  induction text generalizing position skip before with
  | nil =>
    unfold findFrom
    split
    · cases here r before [] with
      | none => exact .nil
      | some c => exact List.pairwise_singleton _ _
    · exact .nil
  | cons x text ih =>
    unfold findFrom
    split
    · refine List.pairwise_cons.mpr ⟨fun m hm => ?_, ih⟩
      have hlater := findFrom_after hm
      dsimp only
      omega
    · exact ih

/-- What is found are the leftmost of the matches of all places. -/
theorem findAll_leftmost {r : Regex} {text : List Char} (hne : ∀ m ∈ everywhere r text, m.start < m.stop) :
    Leftmost (fun s => ∃ m ∈ everywhere r text, m.span = s) ((findAll r text).map Found.span) where
  matched := by
    rintro s hs
    obtain ⟨m, hm, rfl⟩ := List.mem_map.mp hs
    exact ⟨m, findAll_sublist.subset hm, rfl⟩
  apart := List.pairwise_map.mpr findFrom_apart
  first := by
    rintro s ⟨m, hm, rfl⟩
    have htakes := hne m hm
    obtain ⟨pre, rest, c, rfl, hhere, rfl⟩ := mem_everyFrom_iff.mp hm
    dsimp only at htakes
    obtain ⟨m', hm', hplaces⟩ := findFrom_covers pre hhere (by omega) (Nat.zero_le _)
    rcases hplaces with hinside | ⟨hstart, hstop⟩
    · exact .inr ⟨m'.span, List.mem_map_of_mem hm', hinside⟩
    · refine .inl (List.mem_map.mpr ⟨m', hm', ?_⟩)
      rw [Found.span, Found.span, hstart, hstop]

/-! ## The replaced text -/

inductive Cell where
  | kept (place : Nat) (c : Char)
  | mark (c : Char)

namespace Cell

def char : Cell → Char
  | kept _ c => c
  | mark c => c

def isMark : Cell → Bool
  | kept _ _ => false
  | mark _ => true

end Cell

/-- The place is in a match. -/
def covers (found : List Span) (place : Nat) : Bool := found.any fun m => decide (m.start ≤ place ∧ place < m.stop)

def starts (found : List Span) (place : Nat) : Bool := found.any fun m => decide (m.start = place)

def cellsAt (mark : List Char) (found : List Span) (place : Nat) (c : Char) : List Cell :=
  if covers found place then (if starts found place then mark.map .mark else []) else [.kept place c]

/-- The cells of a text from a place on. -/
def cells (mark : List Char) (found : List Span) : Nat → List Char → List Cell
  | _, [] => []
  | place, c :: text => cellsAt mark found place c ++ cells mark found (place + 1) text

def sub (r : Regex) (mark text : List Char) : List Char :=
  (cells mark ((findAll r text).map Found.span) 0 text).map Cell.char

variable {mark : List Char} {found : List Span}

theorem cells_append (s t : List Char) (place : Nat) :
    cells mark found place (s ++ t) = cells mark found place s ++ cells mark found (place + s.length) t := by
  induction s generalizing place with
  | nil => rfl
  | cons c s ih =>
    rw [List.cons_append, cells, cells, ih, List.append_assoc, List.length_cons, Nat.add_assoc, Nat.add_comm 1]

/-- A match that has not come up to a place begins there if it has it. -/
theorem starts_of_covers {place : Nat} (h : covers found place = false) (hnext : covers found (place + 1) = true) :
    starts found (place + 1) = true := by
  obtain ⟨m, hm, hin⟩ := List.any_eq_true.mp hnext
  obtain ⟨hle, hlt⟩ := of_decide_eq_true hin
  have hout := List.any_eq_false.mp h m hm
  simp only [decide_eq_true_eq] at hout
  refine List.any_eq_true.mpr ⟨m, hm, decide_eq_true ?_⟩
  omega

/-- What comes before something that is not in the first part of a text. -/
theorem append_split {α : Type} {first rest front back : List α} {a : α} (ha : a ∉ first)
    (h : first ++ rest = front ++ a :: back) : ∃ front', front = first ++ front' ∧ rest = front' ++ a :: back := by
  rcases List.append_eq_append_iff.mp h with ⟨front', hfront, hrest⟩ | ⟨middle, hfirst, hrest⟩
  · exact ⟨front', hfront, hrest⟩
  · cases middle with
    | nil => exact ⟨[], by simpa using hfirst.symm, hrest.symm⟩
    | cons b middle =>
      obtain ⟨rfl, -⟩ := List.cons.inj hrest
      exact absurd (hfirst ▸ List.mem_append_right _ List.mem_cons_self) ha

/-- A kept cell is a character of the text, with the cells of what is before and after it. -/
theorem cells_kept {text : List Char} {place k : Nat} {c : Char} {front back : List Cell}
    (h : cells mark found place text = front ++ .kept k c :: back) : ∃ before after, text = before ++ c :: after ∧
      k = place + before.length ∧ front = cells mark found place before ∧ back = cells mark found (k + 1) after ∧
      covers found k = false := by
  induction text generalizing place front with
  | nil => exact absurd h (by simp [cells])
  | cons x text ih =>
    have hlater : ∀ {front'}, front = cellsAt mark found place x ++ front' →
        cells mark found (place + 1) text = front' ++ .kept k c :: back → ∃ before after, x :: text = before ++ c :: after ∧
          k = place + before.length ∧ front = cells mark found place before ∧ back = cells mark found (k + 1) after ∧
          covers found k = false := by
      intro front' hfront hrest
      obtain ⟨before, after, htext, hk, hfront', hback, hcovers⟩ := ih hrest
      refine ⟨x :: before, after, by rw [htext, List.cons_append], ?_, ?_, hback, hcovers⟩
      · rw [hk, List.length_cons]
        omega
      · rw [hfront, hfront', cells]
    rw [cells] at h
    by_cases hcovers : covers found place = true
    · have hnot : Cell.kept k c ∉ cellsAt mark found place x := by
        unfold cellsAt
        rw [if_pos hcovers]
        split
        · intro hin
          obtain ⟨_, -, heq⟩ := List.mem_map.mp hin
          cases heq
        · exact List.not_mem_nil
      obtain ⟨front', hfront, hrest⟩ := append_split hnot h
      exact hlater hfront hrest
    · have hone : cellsAt mark found place x = [.kept place x] := if_neg hcovers
      rw [hone, List.singleton_append] at h
      cases front with
      | nil =>
        obtain ⟨hcell, hback⟩ := List.cons.inj h
        cases hcell
        exact ⟨[], text, rfl, rfl, rfl, hback.symm, Bool.eq_false_iff.mpr hcovers⟩
      | cons cell front' =>
        obtain ⟨rfl, hrest⟩ := List.cons.inj h
        exact hlater (by rw [hone, List.singleton_append]) hrest

/-- Kept cells beside each other are characters beside each other. -/
theorem cells_window (hmark : mark ≠ []) {text : List Char} {place : Nat} {window back : List Cell}
    (h : cells mark found place text = window ++ back) (hkept : ∀ cell ∈ window, cell.isMark = false)
    (hprevious : covers found place = true → starts found place = true) : ∃ after, text = window.map Cell.char ++ after ∧
      ∀ j < window.length, covers found (place + j) = false := by
  induction window generalizing place text with
  | nil => exact ⟨text, rfl, fun j hj => absurd hj (Nat.not_lt_zero j)⟩
  | cons cell window ih =>
    obtain ⟨hcell, hwindow⟩ := List.forall_mem_cons.mp hkept
    cases text with
    | nil => exact absurd h (by simp [cells])
    | cons x text =>
      rw [cells] at h
      by_cases hcovers : covers found place = true
      · have hmarks : cellsAt mark found place x = mark.map .mark := by
          rw [cellsAt, if_pos hcovers, if_pos (hprevious hcovers)]
        obtain ⟨m, marks, hm⟩ := List.exists_cons_of_ne_nil hmark
        rw [hmarks, hm, List.map_cons, List.cons_append, List.cons_append] at h
        rw [← (List.cons.inj h).1] at hcell
        cases hcell
      · have hone : cellsAt mark found place x = [.kept place x] := if_neg hcovers
        rw [hone, List.singleton_append, List.cons_append] at h
        obtain ⟨rfl, hrest⟩ := List.cons.inj h
        have hout := Bool.eq_false_iff.mpr hcovers
        obtain ⟨after, htext, hrun⟩ := ih hrest hwindow (starts_of_covers hout)
        refine ⟨after, by rw [htext]; rfl, fun j hj => ?_⟩
        cases j with
        | zero => exact hout
        | succ j =>
          rw [Nat.add_comm j 1, ← Nat.add_assoc]
          exact hrun j (Nat.lt_of_succ_lt_succ hj)

/-- Characters outside the matches are kept. -/
theorem cells_uncovered {text : List Char} {place : Nat} (h : ∀ j < text.length, covers found (place + j) = false) :
    (cells mark found place text).map Cell.char = text := by
  induction text generalizing place with
  | nil => rfl
  | cons c text ih =>
    have hfirst : covers found place = false := h 0 (Nat.zero_lt_succ _)
    have hlater : ∀ j < text.length, covers found (place + 1 + j) = false := by
      intro j hj
      rw [Nat.add_assoc, Nat.add_comm 1]
      exact h (j + 1) (Nat.succ_lt_succ hj)
    have hrest := ih hlater
    rw [cells, cellsAt, if_neg (Bool.eq_false_iff.mp hfirst), List.singleton_append, List.map_cons, hrest]
    rfl

/-- A text stands in another where no match has a character of it, and is kept among the
    first cells. -/
def Stands (mark : List Char) (found : List Span) (limit : Nat) (text v : List Char) : Prop :=
  ∃ before after, text = before ++ v ++ after ∧ (∀ j < v.length, covers found (before.length + j) = false) ∧
    (cells mark found 0 before).length + v.length ≤ limit

/-- A text is read with a character of a mark among the first cells. -/
def ReadWithMark (mark : List Char) (found : List Span) (limit : Nat) (text v : List Char) : Prop :=
  ∃ front window back, (cells mark found 0 text).take limit = front ++ window ++ back ∧ window.map Cell.char = v ∧
    ∃ cell ∈ window, cell.isMark = true

/-- What is in the beginning of a text with its matches replaced. -/
theorem infix_cells_take_iff (hmark : mark ≠ []) (limit : Nat) (text v : List Char) :
    v <:+: ((cells mark found 0 text).map Cell.char).take limit ↔
      Stands mark found limit text v ∨ ReadWithMark mark found limit text v := by
  rw [← List.map_take]
  constructor
  · rintro ⟨left, right, heq⟩
    obtain ⟨rest, back, hcells, hrest, hback⟩ := List.map_eq_append_iff.mp heq.symm
    obtain ⟨front, window, rfl, hfront, hwindow⟩ := List.map_eq_append_iff.mp hrest
    by_cases hmarks : ∃ cell ∈ window, cell.isMark = true
    · exact .inr ⟨front, window, back, hcells, hwindow, hmarks⟩
    · left
      have hkept : ∀ cell ∈ window, cell.isMark = false := fun cell hcell =>
        Bool.eq_false_iff.mpr fun h => hmarks ⟨cell, hcell, h⟩
      cases window with
      | nil =>
        rw [List.map_nil] at hwindow
        subst hwindow
        exact ⟨[], text, rfl, fun j hj => absurd hj (Nat.not_lt_zero j), Nat.zero_le _⟩
      | cons cell window =>
        obtain ⟨hcell, hrest'⟩ := List.forall_mem_cons.mp hkept
        have hlength : front.length + (window.length + 1) ≤ limit := by
          have htake := congrArg List.length hcells
          simp only [List.length_take, List.length_append, List.length_cons] at htake
          omega
        have hall : cells mark found 0 text =
            front ++ cell :: (window ++ (back ++ (cells mark found 0 text).drop limit)) := by
          conv_lhs => rw [← List.take_append_drop limit (cells mark found 0 text), hcells]
          simp
        cases cell with
        | mark c => cases hcell
        | kept k c =>
          obtain ⟨before, after, rfl, rfl, hbefore, hafter, hout⟩ := cells_kept hall
          rw [Nat.zero_add] at hafter hout
          obtain ⟨after', rfl, hrun⟩ := cells_window hmark hafter.symm hrest' (starts_of_covers hout)
          have hv : v = c :: window.map Cell.char := hwindow.symm
          refine ⟨before, after', by rw [hv]; simp, fun j hj => ?_, ?_⟩
          · cases j with
            | zero => exact hout
            | succ j =>
              rw [Nat.add_comm j 1, ← Nat.add_assoc]
              refine hrun j ?_
              rw [hv, List.length_cons, List.length_map] at hj
              exact Nat.lt_of_succ_lt_succ hj
          · rw [← hbefore, hv, List.length_cons, List.length_map]
            exact hlength
  · rintro (⟨before, after, rfl, hout, hlength⟩ | ⟨front, window, back, hcells, rfl, -⟩)
    · have hkept : (cells mark found before.length v).map Cell.char = v := cells_uncovered hout
      rw [List.append_assoc, cells_append, cells_append, Nat.zero_add, List.map_take, List.map_append, List.map_append,
        hkept, ← List.append_assoc]
      have hfits : ((cells mark found 0 before).map Cell.char ++ v).length ≤ limit := by
        rw [List.length_append, List.length_map]
        exact hlength
      rw [List.take_append, List.take_of_length_le hfits]
      exact ⟨_, _, rfl⟩
    · rw [hcells, List.map_append, List.map_append]
      exact ⟨_, _, rfl⟩

/-- A match has something of the characters from a place on. -/
def Touches (found : List Span) (place length : Nat) : Prop :=
  ∃ s ∈ found, s.start < place + length ∧ place < s.stop

theorem touches_iff (hne : ∀ s ∈ found, s.start < s.stop) {place length : Nat} (hlength : 0 < length) :
    Touches found place length ↔ ∃ j < length, covers found (place + j) = true := by
  constructor
  · rintro ⟨s, hs, hstart, hstop⟩
    have htakes := hne s hs
    refine ⟨s.start - place, by omega, List.any_eq_true.mpr ⟨s, hs, decide_eq_true ?_⟩⟩
    omega
  · rintro ⟨j, hj, hcovers⟩
    obtain ⟨s, hs, hin⟩ := List.any_eq_true.mp hcovers
    obtain ⟨hle, hlt⟩ := of_decide_eq_true hin
    exact ⟨s, hs, by omega, by omega⟩

/-- A text is not in the beginning exactly if a match has something of it wherever it stands,
    or it is past the end there, and it is not read with a mark. -/
theorem not_infix_cells_take_iff (hmark : mark ≠ []) (hne : ∀ s ∈ found, s.start < s.stop) (limit : Nat)
    {text v : List Char} (hv : v ≠ []) : ¬ v <:+: ((cells mark found 0 text).map Cell.char).take limit ↔
      (∀ before after, text = before ++ (v ++ after) →
        Touches found before.length v.length ∨ limit < (cells mark found 0 before).length + v.length) ∧
      ¬ ReadWithMark mark found limit text v := by
  rw [infix_cells_take_iff hmark, not_or]
  refine and_congr_left fun _ => ⟨fun hstands before after htext => ?_, fun hplaces => ?_⟩
  · by_cases htouches : Touches found before.length v.length
    · exact .inl htouches
    · right
      by_contra hcut
      refine hstands ⟨before, after, by rw [htext, List.append_assoc], fun j hj => ?_, Nat.not_lt.mp hcut⟩
      refine Bool.eq_false_iff.mpr fun hcovers => htouches ?_
      exact (touches_iff hne (List.length_pos_iff.mpr hv)).mpr ⟨j, hj, hcovers⟩
  · rintro ⟨before, after, htext, hout, hlength⟩
    rcases hplaces before after (by rw [htext, List.append_assoc]) with htouches | hcut
    · obtain ⟨j, hj, hcovers⟩ := (touches_iff hne (List.length_pos_iff.mpr hv)).mp htouches
      rw [hout j hj] at hcovers
      cases hcovers
    · omega

/-! ## What a mark is read as -/

section
variable {first last : Char} {inner : List Char}

/-- A part of a text that has neither its first nor its last character is inside it. -/
theorem infix_inner {v : List Char} (hfirst : first ∉ v) (hlast : last ∉ v) (h : v <:+: first :: (inner ++ [last])) :
    v <:+: inner := by
  obtain ⟨left, right, heq⟩ := h
  cases left with
  | nil =>
    cases v with
    | nil => exact List.nil_infix
    | cons c v => exact absurd ((List.cons.inj heq).1 ▸ List.mem_cons_self) hfirst
  | cons c left =>
    have htail : left ++ v ++ right = inner ++ [last] := (List.cons.inj heq).2
    rcases List.eq_nil_or_concat right with rfl | ⟨right, d, rfl⟩
    · rw [List.append_nil] at htail
      rcases List.eq_nil_or_concat v with rfl | ⟨v, d, rfl⟩
      · exact List.nil_infix
      · rw [List.concat_eq_append, ← List.append_assoc] at htail
        obtain ⟨-, hd⟩ := List.append_inj' htail rfl
        exact absurd (List.cons.inj hd).1.symm (fun heq => hlast (by simp [heq]))
    · rw [List.concat_eq_append, ← List.append_assoc] at htail
      obtain ⟨hinner, -⟩ := List.append_inj' htail rfl
      exact ⟨left, right, hinner⟩

/-- Of cells that go on into a mark, the mark's first character is one. -/
theorem first_of_mark {text : List Char} {place : Nat} {window back : List Cell}
    (h : cells (first :: (inner ++ [last])) found place text = window ++ back)
    (hprevious : covers found place = true → starts found place = true) (hmark : ∃ cell ∈ window, cell.isMark = true) :
    first ∈ window.map Cell.char := by
  induction text generalizing place window with
  | nil =>
    obtain ⟨cell, hcell, -⟩ := hmark
    obtain ⟨rfl, -⟩ := List.append_eq_nil_iff.mp h.symm
    cases hcell
  | cons x text ih =>
    cases window with
    | nil =>
      obtain ⟨cell, hcell, -⟩ := hmark
      cases hcell
    | cons cell window =>
      rw [cells] at h
      by_cases hcovers : covers found place = true
      · rw [cellsAt, if_pos hcovers, if_pos (hprevious hcovers), List.map_cons, List.cons_append] at h
        rw [← (List.cons.inj h).1]
        exact List.mem_cons_self
      · rw [cellsAt, if_neg hcovers, List.singleton_append] at h
        obtain ⟨rfl, hrest⟩ := List.cons.inj h
        obtain ⟨cell, hcell, hisMark⟩ := hmark
        rcases List.mem_cons.mp hcell with rfl | hcell
        · cases hisMark
        · have hnext := starts_of_covers (Bool.eq_false_iff.mpr hcovers)
          exact List.mem_cons_of_mem _ (ih hrest hnext ⟨cell, hcell, hisMark⟩)

/-- What is read with a mark's character, and not with an end of the mark, is inside of the mark. -/
theorem window_inner {text : List Char} {place : Nat} {front window back : List Cell}
    (h : cells (first :: (inner ++ [last])) found place text = front ++ (window ++ back))
    (hmark : ∃ cell ∈ window, cell.isMark = true) (hfirst : first ∉ window.map Cell.char)
    (hlast : last ∉ window.map Cell.char) : window.map Cell.char <:+: inner := by
  induction text generalizing place front with
  | nil =>
    obtain ⟨cell, hcell, -⟩ := hmark
    obtain ⟨-, hrest⟩ := List.append_eq_nil_iff.mp h.symm
    obtain ⟨rfl, -⟩ := List.append_eq_nil_iff.mp hrest
    cases hcell
  | cons x text ih =>
    rw [cells] at h
    rcases List.append_eq_append_iff.mp h with ⟨front', -, hrest⟩ | ⟨middle, hcells, hrest⟩
    · exact ih hrest
    · rcases List.eq_nil_or_concat middle with rfl | ⟨middle', cell, hmiddle⟩
      · exact ih (show _ = [] ++ (window ++ back) from hrest.symm)
      · rw [List.concat_eq_append] at hmiddle
        by_cases hcovers : covers found place = true
        · by_cases hstarts : starts found place = true
          · rw [cellsAt, if_pos hcovers, if_pos hstarts] at hcells
            rcases List.append_eq_append_iff.mp hrest with ⟨after, hwhole, -⟩ | ⟨after, hwindow, -⟩
            · have hmarks := congrArg (List.map Cell.char) hcells
              rw [hwhole, List.map_map, List.map_append, List.map_append, ← List.append_assoc] at hmarks
              refine infix_inner hfirst hlast ⟨_, _, hmarks.symm.trans ?_⟩
              exact List.map_id _
            · refine absurd ?_ hlast
              have hend : (front ++ middle).getLast? = some (.mark last) := by
                rw [← hcells, List.map_cons, List.map_append, ← List.cons_append, List.map_singleton,
                  List.getLast?_concat]
              rw [hmiddle, ← List.append_assoc, List.getLast?_concat] at hend
              rw [hwindow, hmiddle, Option.some.inj hend]
              simp [Cell.char]
          · rw [cellsAt, if_pos hcovers, if_neg hstarts] at hcells
            rw [hmiddle] at hcells
            simp at hcells
        · -- A window from a kept character into a mark begins that mark.
          rw [cellsAt, if_neg hcovers] at hcells
          have hfront : front = [] ∧ middle = [.kept place x] := by
            rw [hmiddle] at hcells ⊢
            rw [← List.append_assoc] at hcells
            obtain ⟨hnil, hcell⟩ := List.append_inj' (show [] ++ [Cell.kept place x] = _ from hcells) rfl
            obtain ⟨hfront, hmiddle'⟩ := List.append_eq_nil_iff.mp hnil.symm
            exact ⟨hfront, by rw [hmiddle', ← hcell]; rfl⟩
          have hwindow : cells (first :: (inner ++ [last])) found place (x :: text) = window ++ back := by
            rw [cells, cellsAt, if_neg hcovers, hrest, hfront.2]
          exact absurd (first_of_mark hwindow (fun h => absurd h hcovers) hmark) hfirst

/-- A text without the ends of the mark that is not in the mark is not read with it. -/
theorem not_readWithMark {limit : Nat} {text v : List Char} (hfirst : first ∉ v) (hlast : last ∉ v)
    (hinner : ¬ v <:+: inner) : ¬ ReadWithMark (first :: (inner ++ [last])) found limit text v := by
  rintro ⟨front, window, back, hcells, rfl, hmark⟩
  have hall : cells (first :: (inner ++ [last])) found 0 text =
      front ++ (window ++ (back ++ (cells (first :: (inner ++ [last])) found 0 text).drop limit)) := by
    rw [← List.append_assoc, ← List.append_assoc, ← hcells, List.take_append_drop]
  exact hinner (window_inner hall hmark hfirst hlast)

end

end WorkforceRisk.Lib.Regex
