/-
  WorkforceRisk.Lib.PyValue — values as Python's `json` reads them, and how it writes them.

  Integers and floats are apart, as `isinstance` tells them; the keys of a dict are texts.
  `dumps` is `json.dumps` of the interpreter: it enters no more than so many lists and dicts
  inside of each other, and writes no integer of more than 4300 digits. Proved: what fails
  for the first reason is nested deeper than that (`depth_of_tooDeep`).
-/

import WorkforceRisk.Lib.Floats
import WorkforceRisk.Lib.JsonText

namespace WorkforceRisk.Lib

namespace PyFloat

/-- The numbers of `n` digits on both sides of a positive one that are read back as it. -/
def readBack (q : Rat) (n : Nat) : Option Nat :=
  let scale : Rat := 10 ^ (Int.log 10 q - n + 1)
  let near := (roundEven (q / scale)).toNat
  let low := ⌊q / scale⌋.toNat
  [near, low, low + 1].find? fun m => decide (nearest (m * scale) = finite q)

/-- The fewest digits that are read back, and the exponent of the first. -/
def shortest (q : Rat) : Nat × Int :=
  match (List.range 17).findSome? fun n => (readBack q (n + 1)).map fun m => (m, n + 1) with
  | some (m, n) => if m = 10 ^ n then (10 ^ (n - 1), Int.log 10 q + 1) else (m, Int.log 10 q)
  | none => ((roundEven (q / 10 ^ (Int.log 10 q - 16))).toNat, Int.log 10 q)

def reprPositive (q : Rat) : List Char :=
  let digits := Nat.toDigits 10 (shortest q).1
  let e := (shortest q).2
  if e < -4 ∨ 16 ≤ e then
    digits.take 1 ++ (if digits.length = 1 then [] else '.' :: digits.drop 1) ++
      'e' :: (if e < 0 then '-' else '+') :: exponentDigits e.natAbs
  else if e < 0 then '0' :: '.' :: List.replicate (-e - 1).toNat '0' ++ digits
  else if digits.length ≤ e.toNat + 1 then digits ++ List.replicate (e.toNat + 1 - digits.length) '0' ++ ['.', '0']
  else digits.take (e.toNat + 1) ++ '.' :: digits.drop (e.toNat + 1)

/-- `float.__repr__`, with the names that `json` has for what is not finite. -/
def jsonText : PyFloat → List Char
  | nan => "NaN".toList
  | inf negative => if negative then "-Infinity".toList else "Infinity".toList
  | finite q =>
    if q = 0 then "0.0".toList
    else if q < 0 then '-' :: reprPositive (-q)
    else reprPositive q

example : [jsonText (finite (5 / 2)), jsonText (nearest (1 / 10)), jsonText (nearest (-10 ^ 22))].map String.ofList =
    ["2.5", "0.1", "-1e+22"] := by decide +kernel

end PyFloat

inductive PyValue where
  | none
  | bool (b : Bool)
  | int (n : Int)
  | float (x : PyFloat)
  | str (s : String)
  | list (items : List PyValue)
  | dict (members : List (String × PyValue))

namespace PyValue

abbrev Object := List (String × PyValue)

/-- `bool(value)`. -/
def truthy : PyValue → Bool
  | none => false
  | bool b => b
  | int n => decide (n ≠ 0)
  | float x => decide (x ≠ .finite 0)
  | str s => decide (s ≠ "")
  | list items => !items.isEmpty
  | dict members => !members.isEmpty

def isNone : PyValue → Bool
  | none => true
  | _ => false

/-- Neither a list nor a dict. -/
def isScalar : PyValue → Bool
  | list _ => false
  | dict _ => false
  | _ => true

/-- `object.get(key)`. -/
def get (object : Object) (key : String) : PyValue := (object.lookup key).getD none

/-! ## Writing -/

inductive DumpError where
  | tooDeep
  | tooManyDigits
  deriving DecidableEq

/-- `", ".join(parts)`. -/
def commas : List (List Char) → List Char
  | [] => []
  | [part] => part
  | part :: parts => part ++ ',' :: ' ' :: commas parts

def quoted (s : String) : List Char := JsonText.quoted (JsonText.scalars s.toList)

/-- Whether an integer is longer than `sys.get_int_max_str_digits()`. -/
def tooLong (n : Int) : Bool := decide (4300 < (Nat.toDigits 10 n.natAbs).length)

mutual

/-- `json.dumps(value)`, with `limit` lists and dicts to enter. -/
def dumps (limit : Nat) : PyValue → Except DumpError (List Char)
  | .none => .ok "null".toList
  | .bool b => .ok (if b then "true" else "false").toList
  | .int n => if tooLong n then .error .tooManyDigits else .ok (JsonText.intText n)
  | .float x => .ok x.jsonText
  | .str s => .ok (quoted s)
  | .list items => match limit with
    | 0 => .error .tooDeep
    | limit + 1 => (dumpsItems limit items).map fun parts => '[' :: commas parts ++ [']']
  | .dict members => match limit with
    | 0 => .error .tooDeep
    | limit + 1 => (dumpsMembers limit members).map fun parts => '\x7b' :: commas parts ++ ['\x7d']

def dumpsItems (limit : Nat) : List PyValue → Except DumpError (List (List Char))
  | [] => .ok []
  | item :: items => (dumps limit item).bind fun part => (dumpsItems limit items).map (part :: ·)

def dumpsMembers (limit : Nat) : List (String × PyValue) → Except DumpError (List (List Char))
  | [] => .ok []
  | (key, value) :: members => (dumps limit value).bind fun part =>
    (dumpsMembers limit members).map ((quoted key ++ ':' :: ' ' :: part) :: ·)

end

mutual

/-- How many lists and dicts are inside of each other. -/
def depth : PyValue → Nat
  | .list items => depthItems items + 1
  | .dict members => depthMembers members + 1
  | _ => 0

def depthItems : List PyValue → Nat
  | [] => 0
  | item :: items => max item.depth (depthItems items)

def depthMembers : List (String × PyValue) → Nat
  | [] => 0
  | (_, value) :: members => max value.depth (depthMembers members)

end

theorem error_of_map {ε α β : Type} {x : Except ε α} {f : α → β} {e : ε} (h : x.map f = .error e) : x = .error e := by
  cases x with
  | ok a => cases h
  | error e' =>
    cases h
    rfl

theorem error_of_bind {ε α β : Type} {x : Except ε α} {f : α → Except ε β} {e : ε} (h : x.bind f = .error e) :
    x = .error e ∨ ∃ a, f a = .error e := by
  cases x with
  | ok a => exact .inr ⟨a, h⟩
  | error e' =>
    cases h
    exact .inl rfl

mutual

theorem depth_of_tooDeep : ∀ {limit : Nat} {value : PyValue}, dumps limit value = .error .tooDeep → limit < value.depth
  | _, .none, h => by cases h
  | _, .bool _, h => by cases h
  | limit, .int n, h => by
    rw [dumps] at h
    split at h
    · cases h
    · cases h
  | _, .float _, h => by cases h
  | _, .str _, h => by cases h
  | limit, .list items, h => by
    rw [depth]
    cases limit with
    | zero => exact Nat.succ_pos _
    | succ limit =>
      have hitems : dumpsItems limit items = .error .tooDeep := error_of_map h
      exact Nat.succ_lt_succ (depthItems_of_tooDeep hitems)
  | limit, .dict members, h => by
    rw [depth]
    cases limit with
    | zero => exact Nat.succ_pos _
    | succ limit =>
      have hmembers : dumpsMembers limit members = .error .tooDeep := error_of_map h
      exact Nat.succ_lt_succ (depthMembers_of_tooDeep hmembers)

theorem depthItems_of_tooDeep : ∀ {limit : Nat} {items : List PyValue}, dumpsItems limit items = .error .tooDeep →
    limit < depthItems items
  | _, [], h => by cases h
  | limit, item :: items, h => by
    rw [depthItems]
    rcases error_of_bind h with hitem | ⟨_, hitems⟩
    · exact lt_max_of_lt_left (depth_of_tooDeep hitem)
    · exact lt_max_of_lt_right (depthItems_of_tooDeep (error_of_map hitems))

theorem depthMembers_of_tooDeep : ∀ {limit : Nat} {members : List (String × PyValue)},
    dumpsMembers limit members = .error .tooDeep → limit < depthMembers members
  | _, [], h => by cases h
  | limit, (key, value) :: members, h => by
    rw [depthMembers]
    rcases error_of_bind h with hvalue | ⟨_, hmembers⟩
    · exact lt_max_of_lt_left (depth_of_tooDeep hvalue)
    · exact lt_max_of_lt_right (depthMembers_of_tooDeep (error_of_map hmembers))

end

end PyValue

end WorkforceRisk.Lib
