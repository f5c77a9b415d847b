/-
  WorkforceRisk.Lib.Regex — regular expressions as a backtracking engine runs them.

  A place in a text is the character before it and the text from it on, with what the
  groups have captured so far. `run` tries the alternatives of an expression in their
  order and hands each place it reaches to what is to follow, so that of all ways to match
  it takes the first: a greedy loop tries to go on before it stops, a lazy one to stop
  before it goes on. An assertion (`look`) reads the character before a place and the text
  from it on, and moves nowhere.

  An expression that can match no text at all is looked for once at each place.
-/

import Mathlib.Data.List.Basic

namespace WorkforceRisk.Lib

inductive Regex where
  | empty
  | set (p : Char → Bool)
  | look (p : Option Char → List Char → Bool)
  | seq (r s : Regex)
  | alt (r s : Regex)
  | star (greedy : Bool) (r : Regex)
  | group (n : Nat) (r : Regex)

namespace Regex

/-- Where a match has come to. -/
structure Cursor where
  before : Option Char
  rest : List Char
  groups : List (Nat × List Char)

/-- A loop of at most so many rounds, each of which takes something. -/
def rounds {α : Type} (once : Cursor → (Cursor → Option α) → Option α) (greedy : Bool) :
    Nat → Cursor → (Cursor → Option α) → Option α
  | 0, c, next => next c
  | n + 1, c, next =>
    let again := fun (_ : Unit) => once c fun c' =>
      if c'.rest.length < c.rest.length then rounds once greedy n c' next else none
    if greedy then (again ()).orElse fun _ => next c else (next c).orElse again

def run {α : Type} : Regex → Cursor → (Cursor → Option α) → Option α
  | empty, c, next => next c
  | set p, c, next => match c.rest with
    | [] => none
    | x :: rest => if p x then next { c with before := some x, rest := rest } else none
  | look p, c, next => if p c.before c.rest then next c else none
  | seq r s, c, next => run r c fun c' => run s c' next
  | alt r s, c, next => (run r c next).orElse fun _ => run s c next
  | star greedy r, c, next => rounds (run r) greedy c.rest.length c next
  | group n r, c, next => run r c fun c' =>
    next { c' with groups := (n, c.rest.take (c.rest.length - c'.rest.length)) :: c'.groups }

/-! ## Writing expressions -/

def seqs : List Regex → Regex := List.foldr seq empty

def lit (s : String) : Regex := seqs (s.toList.map fun c => set (· == c))

def oneOf (cs : List Char) : Regex := set fun c => c ∈ cs

def opt (r : Regex) : Regex := alt r empty

def many (r : Regex) : Regex := star true r

def plus (r : Regex) : Regex := seq r (star true r)

/-- At most so many, as many as can be. -/
def upTo (r : Regex) : Nat → Regex
  | 0 => empty
  | n + 1 => opt (seq r (upTo r n))

/-- `r{lo,hi}` -/
def repeated (lo hi : Nat) (r : Regex) : Regex := seq (seqs (List.replicate lo r)) (upTo r (hi - lo))

/-- The expression that takes a character wherever it took one of its variants. -/
def relaxed (variants : Char → List Char) : Regex → Regex
  | empty => empty
  | set p => set fun c => (variants c).any p
  | look p => look p
  | seq r s => seq (relaxed variants r) (relaxed variants s)
  | alt r s => alt (relaxed variants r) (relaxed variants s)
  | star greedy r => star greedy (relaxed variants r)
  | group n r => group n (relaxed variants r)

/-! ## Looking for them -/

/-- The match right here. -/
def here (r : Regex) (before : Option Char) (text : List Char) : Option Cursor := run r ⟨before, text, []⟩ some

structure Found where
  start : Nat
  stop : Nat
  /-- The matched text. -/
  text : List Char
  groups : List (Nat × List Char)

/-- What a group captured last. -/
def Found.group (found : Found) (n : Nat) : Option (List Char) := (found.groups.find? (·.1 == n)).map (·.2)

/-- The matches from `position` on, past the `skip` characters of the one before. -/
def findFrom (r : Regex) (position : Nat) (before : Option Char) (skip : Nat) : List Char → List Found
  | [] => if skip = 0 then ((here r before []).map fun c => ⟨position, position, [], c.groups⟩).toList else []
  | x :: text =>
    match if skip = 0 then here r before (x :: text) else none with
    | some c =>
      let n := text.length + 1 - c.rest.length
      ⟨position, position + n, (x :: text).take n, c.groups⟩ :: findFrom r (position + 1) (some x) (n - 1) text
    | none => findFrom r (position + 1) (some x) (skip - 1) text

/-- The matches of a text, none inside another. -/
def findAll (r : Regex) (text : List Char) : List Found := findFrom r 0 none 0 text

/-- The matches from `position` on, also those inside another. -/
def everyFrom (r : Regex) (position : Nat) (before : Option Char) : List Char → List Found
  | [] => ((here r before []).map fun c => ⟨position, position, [], c.groups⟩).toList
  | x :: text =>
    ((here r before (x :: text)).map fun c =>
      let n := text.length + 1 - c.rest.length
      ⟨position, position + n, (x :: text).take n, c.groups⟩).toList ++ everyFrom r (position + 1) (some x) text

/-- The match at each place of a text. -/
def everywhere (r : Regex) (text : List Char) : List Found := everyFrom r 0 none text

def search (r : Regex) (text : List Char) : Option Found := (findAll r text).head?

/-- What stands before, between and after the matches. -/
def pieces (position : Nat) (text : List Char) : List Found → List (List Char)
  | [] => [text]
  | found :: rest =>
    text.take (found.start - position) :: pieces found.stop (text.drop (found.stop - position)) rest

def split (r : Regex) (text : List Char) : List (List Char) := pieces 0 text (findAll r text)

/-- Of the empty text, what matches it. -/
theorem findAll_nil {r : Regex} (h : here r none [] = none) : findAll r [] = [] := by
  rw [findAll, findFrom, if_pos rfl, h]
  rfl

end Regex

end WorkforceRisk.Lib
