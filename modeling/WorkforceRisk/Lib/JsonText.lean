/-
  WorkforceRisk.Lib.JsonText — JSON text as Python's `json` writes and reads it.

  A text is its code points: the scalar values, and the two halves of a surrogate pair,
  which a Python string may have alone. `dumps` writes ASCII without blanks, everything
  else as escapes (`ensure_ascii`, `separators=(",", ":")`); `loads` is the strict reading.
  What is left out is the interpreter's own limits: how deep a text nests and how many
  digits an integer has. A float is its literal.

  The rule is `loads_dumps`: a value without floats is read back, its strings with the
  surrogate pairs in them joined. Only a text with a high surrogate directly before a low
  one is changed by that (`join_eq_self`), and what is written is the same before and after
  (`dumps_joined`).
-/

import Mathlib.Data.List.Basic

namespace WorkforceRisk.Lib.JsonText

/-! ## Texts -/

inductive CodePoint where
  | scalar (c : Char)
  | high (n : Fin 1024)
  | low (n : Fin 1024)
  deriving DecidableEq

abbrev Text := List CodePoint

def scalars (cs : List Char) : Text := cs.map .scalar

/-- The characters of a text without surrogates. -/
def characters : Text → Option (List Char)
  | [] => some []
  | .scalar c :: text => (characters text).map (c :: ·)
  | _ :: _ => none

/-- The character of a surrogate pair. -/
def pair (high low : Fin 1024) : Char := Char.ofNat (65536 + high.val * 1024 + low.val)

/-- The pairs of a text, as characters. -/
def join : Text → Text
  | [] => []
  | .high h :: .low l :: text => .scalar (pair h l) :: join text
  | x :: text => x :: join text

/-- A high surrogate comes directly before a low one. -/
def hasPair : Text → Bool
  | [] => false
  | .high _ :: .low _ :: _ => true
  | _ :: text => hasPair text

/-- The code point of an escape. -/
def ofUnit (n : Nat) : CodePoint :=
  if h : 55296 ≤ n ∧ n < 56320 then .high ⟨n - 55296, by omega⟩
  else if h : 56320 ≤ n ∧ n < 57344 then .low ⟨n - 56320, by omega⟩
  else .scalar (Char.ofNat n)

/-- A code point as escapes carry it. -/
def split : CodePoint → Text
  | .scalar c => if c.toNat < 65536 then [.scalar c] else
      [ofUnit (55296 + (c.toNat - 65536) / 1024), ofUnit (56320 + (c.toNat - 65536) % 1024)]
  | x => [x]

@[simp] theorem characters_scalars (cs : List Char) : characters (scalars cs) = some cs := by
  induction cs with
  | nil => rfl
  | cons c cs ih =>
    rw [scalars, List.map_cons, characters, ← scalars, ih]
    rfl

theorem characters_eq_some {text : Text} {cs : List Char} : characters text = some cs ↔ text = scalars cs := by
  constructor
  · intro h
    induction text generalizing cs with
    | nil =>
      cases h
      rfl
    | cons x text ih =>
      cases x with
      | scalar c =>
        obtain ⟨rest, hrest, hcs⟩ := Option.map_eq_some_iff.mp h
        rw [← hcs, ih hrest]
        rfl
      | high n => cases h
      | low n => cases h
  · intro h
    rw [h, characters_scalars]

theorem join_scalars (cs : List Char) : join (scalars cs) = scalars cs := by
  induction cs with
  | nil => rfl
  | cons c cs ih =>
    show CodePoint.scalar c :: join (scalars cs) = _
    rw [ih]
    rfl

theorem pair_split {c : Char} (h : 65536 ≤ c.toNat) : ∃ high low,
    split (.scalar c) = [.high high, .low low] ∧ pair high low = c := by
  have hlt : c.toNat < 1114112 := by
    have hv := c.valid
    have hc : c.toNat = c.val.toNat := rfl
    rcases hv with hv | hv
    · omega
    · exact hv.2
  refine ⟨⟨(c.toNat - 65536) / 1024, by omega⟩, ⟨(c.toNat - 65536) % 1024, by omega⟩, ?_, ?_⟩
  · rw [split, if_neg (by omega), ofUnit, dif_pos (by omega), ofUnit, dif_neg (by omega), dif_pos (by omega)]
    simp only [Nat.add_sub_cancel_left]
  · rw [pair, show 65536 + (c.toNat - 65536) / 1024 * 1024 + (c.toNat - 65536) % 1024 = c.toNat by omega,
      Char.ofNat_toNat]

/-- Only a low surrogate is written as one. -/
theorem split_head {x : CodePoint} (h : ∀ l, x ≠ .low l) :
    ∃ y text, split x = y :: text ∧ ∀ l, y ≠ .low l := by
  cases x with
  | scalar c =>
    by_cases hc : c.toNat < 65536
    · exact ⟨.scalar c, [], by rw [split, if_pos hc], fun l => by simp⟩
    · obtain ⟨high, low, hsplit, _⟩ := pair_split (Nat.le_of_not_lt hc)
      exact ⟨.high high, [.low low], hsplit, fun l => by simp⟩
  | high n => exact ⟨.high n, [], rfl, fun l => by simp⟩
  | low n => exact absurd rfl (h n)

theorem join_cons {x : CodePoint} {text : Text} (h : ∀ n l rest, x = .high n → text ≠ .low l :: rest) :
    join (x :: text) = x :: join text := by
  cases x with
  | high n =>
    cases text with
    | nil => rfl
    | cons y rest =>
      cases y with
      | low l => exact absurd rfl (h n l rest rfl)
      | _ => rfl
  | _ => rfl

/-- Joining changes a text exactly if there is a pair in it. -/
theorem join_eq_self (text : Text) : join text = text ↔ hasPair text = false := by
  induction text using join.induct with
  | case1 => exact iff_of_true rfl rfl
  | case2 h l text _ => exact iff_of_false (by simp [join]) (by simp [hasPair])
  | case3 x text hpair ih =>
    have hrest : hasPair (x :: text) = hasPair text := by
      cases x with
      | high n =>
        cases text with
        | nil => rfl
        | cons y rest =>
          cases y with
          | low l => exact absurd rfl (hpair n l rest rfl)
          | _ => rfl
      | _ => rfl
    rw [join_cons fun n l rest hx ht => hpair n l rest hx ht, hrest, ← ih, List.cons.injEq, eq_self, true_and]

/-- The character of a pair is written as the pair. -/
theorem split_pair (h l : Fin 1024) : split (.scalar (pair h l)) = [.high h, .low l] := by
  have hvalid : Nat.isValidChar (65536 + h.val * 1024 + l.val) := Or.inr ⟨by omega, by omega⟩
  have hnat : (pair h l).toNat = 65536 + h.val * 1024 + l.val := by
    rw [pair, Char.ofNat, dif_pos hvalid]
    rfl
  have hhigh : (65536 + h.val * 1024 + l.val - 65536) / 1024 = h.val := by omega
  have hlow : (65536 + h.val * 1024 + l.val - 65536) % 1024 = l.val := by omega
  rw [split, hnat, if_neg (by omega), hhigh, hlow, ofUnit, dif_pos (by omega), ofUnit, dif_neg (by omega),
    dif_pos (by omega)]
  simp only [Nat.add_sub_cancel_left]

theorem split_join (text : Text) : (join text).flatMap split = text.flatMap split := by
  induction text using join.induct with
  | case1 => rfl
  | case2 h l text ih =>
    rw [join, List.flatMap_cons, ih, split_pair]
    rfl
  | case3 x text hpair ih =>
    rw [join_cons fun n l rest hx ht => hpair n l rest hx ht, List.flatMap_cons, ih, List.flatMap_cons]

/-- Escapes lose nothing but the difference between a pair and its character. -/
theorem join_split (text : Text) : join (text.flatMap split) = join text := by
  induction text using join.induct with
  | case1 => rfl
  | case2 h l text ih =>
    show CodePoint.scalar (pair h l) :: join (text.flatMap split) = _
    rw [ih]
    rfl
  | case3 x text hpair ih =>
    rw [join_cons fun n l rest hx ht => hpair n l rest hx ht, List.flatMap_cons, ← ih]
    cases x with
    | scalar c =>
      by_cases hc : c.toNat < 65536
      · rw [split, if_pos hc]
        rfl
      · obtain ⟨high, low, hsplit, heq⟩ := pair_split (Nat.le_of_not_lt hc)
        rw [hsplit, ← heq]
        rfl
    | high n =>
      refine join_cons fun m l rest hm ht => ?_
      cases text with
      | nil => cases ht
      | cons y text =>
        obtain ⟨z, tail, hz, hlow⟩ := @split_head y fun k hy => hpair n k text rfl (by rw [hy])
        rw [List.flatMap_cons, hz] at ht
        exact hlow l (List.cons.inj ht).1
    | low n => rfl

/-! ## Strings -/

def hexDigit (n : Nat) : Char := Char.ofNat (if n < 10 then n + 48 else n + 87)

def hexValue (c : Char) : Option Nat :=
  if c.isDigit then some (c.toNat - 48)
  else if 97 ≤ c.toNat ∧ c.toNat < 103 then some (c.toNat - 87)
  else if 65 ≤ c.toNat ∧ c.toNat < 71 then some (c.toNat - 55)
  else none

def escapeUnit (n : Nat) : List Char :=
  ['\\', 'u', hexDigit (n / 4096 % 16), hexDigit (n / 256 % 16), hexDigit (n / 16 % 16), hexDigit (n % 16)]

/-- The short escapes, in the order of their characters. -/
def shortEscapes : List (Char × Char) :=
  [('\x08', 'b'), ('\t', 't'), ('\n', 'n'), ('\x0c', 'f'), ('\r', 'r'), ('"', '"'), ('\\', '\\')]

/-- A scalar value of the basic plane, or a surrogate, as it is written. -/
def escapePoint : CodePoint → List Char
  | .scalar c => match shortEscapes.find? (·.1 == c) with
    | some (_, e) => ['\\', e]
    | none => if 32 ≤ c.toNat ∧ c.toNat < 127 then [c] else escapeUnit c.toNat
  | .high n => escapeUnit (55296 + n.val)
  | .low n => escapeUnit (56320 + n.val)

def escape (text : Text) : List Char := (text.flatMap split).flatMap escapePoint

/-- The character a backslash and this one stand for. -/
def unescape (e : Char) : Option Char :=
  if e = '/' then some '/' else (shortEscapes.find? (·.2 == e)).map (·.1)

def unit (a b c d : Char) : Option Nat := do
  let a ← hexValue a
  let b ← hexValue b
  let c ← hexValue c
  let d ← hexValue d
  return a * 4096 + b * 256 + c * 16 + d

/-- The code points up to the closing quote, and what is left. -/
def scanUnits : List Char → Option (Text × List Char)
  | [] => none
  | c :: rest =>
    if c = '"' then some ([], rest)
    else if c = '\\' then match rest with
      | 'u' :: d₁ :: d₂ :: d₃ :: d₄ :: rest => match unit d₁ d₂ d₃ d₄ with
        | some n => (scanUnits rest).map fun scanned => (ofUnit n :: scanned.1, scanned.2)
        | none => none
      | e :: rest => match unescape e with
        | some c => (scanUnits rest).map fun scanned => (.scalar c :: scanned.1, scanned.2)
        | none => none
      | [] => none
    else if c.toNat < 32 then none
    else (scanUnits rest).map fun scanned => (.scalar c :: scanned.1, scanned.2)

/-- A string after its opening quote. -/
def scanString (text : List Char) : Option (Text × List Char) :=
  (scanUnits text).map fun scanned => (join scanned.1, scanned.2)

theorem hexValue_hexDigit {n : Nat} (h : n < 16) : hexValue (hexDigit n) = some n := by
  have hall : ∀ n : Fin 16, hexValue (hexDigit n) = some n.val := by decide
  exact hall ⟨n, h⟩

theorem unit_escape {n : Nat} (h : n < 65536) : unit (hexDigit (n / 4096 % 16)) (hexDigit (n / 256 % 16))
    (hexDigit (n / 16 % 16)) (hexDigit (n % 16)) = some n := by
  rw [unit, hexValue_hexDigit (by omega), hexValue_hexDigit (by omega), hexValue_hexDigit (by omega),
    hexValue_hexDigit (by omega)]
  simp only [bind, Option.bind, pure, Option.some.injEq]
  omega

theorem scanUnits_escapeUnit {n : Nat} (h : n < 65536) (rest : List Char) :
    scanUnits (escapeUnit n ++ rest) = (scanUnits rest).map fun scanned => (ofUnit n :: scanned.1, scanned.2) := by
  simp only [escapeUnit, List.cons_append, List.nil_append]
  rw [scanUnits, if_neg (by decide), if_pos rfl]
  simp only [unit_escape h]

/-- What the short escapes are read back by. -/
theorem unescape_short {x : Char × Char} (h : x ∈ shortEscapes) : unescape x.2 = some x.1 ∧ x.2 ≠ 'u' := by
  revert x
  decide

theorem scanUnits_short {c e : Char} (hc : unescape e = some c) (he : e ≠ 'u') (rest : List Char) :
    scanUnits ('\\' :: e :: rest) = (scanUnits rest).map fun scanned => (.scalar c :: scanned.1, scanned.2) := by
  rw [scanUnits.eq_def]
  dsimp only
  rw [if_neg (by decide), if_pos rfl]
  split
  · rename_i heq
    exact absurd (List.cons.inj heq).1 he
  · rename_i heq
    obtain ⟨rfl, rfl⟩ := List.cons.inj heq
    rw [hc]
  · rename_i heq
    cases heq

theorem scanUnits_plain {c : Char} (hquote : c ≠ '"') (hslash : c ≠ '\\') (hc : 32 ≤ c.toNat) (rest : List Char) :
    scanUnits (c :: rest) = (scanUnits rest).map fun scanned => (.scalar c :: scanned.1, scanned.2) := by
  rw [scanUnits.eq_def]
  dsimp only
  rw [if_neg hquote, if_neg hslash, if_neg (by omega)]

/-- A character of the basic plane is no surrogate. -/
theorem ofUnit_toNat {c : Char} : ofUnit c.toNat = .scalar c := by
  have hv := c.valid
  have hc : c.toNat = c.val.toNat := rfl
  rw [ofUnit, dif_neg, dif_neg, Char.ofNat_toNat]
  · rcases hv with hv | hv
    · omega
    · have := hv.1
      omega
  · rcases hv with hv | hv
    · omega
    · have := hv.1
      omega

/-- A code point of the basic plane is scanned back. -/
theorem scanUnits_escapePoint {x : CodePoint} (h : ∀ c, x = .scalar c → c.toNat < 65536) (rest : List Char) :
    scanUnits (escapePoint x ++ rest) = (scanUnits rest).map fun scanned => (x :: scanned.1, scanned.2) := by
  cases x with
  | scalar c =>
    rw [escapePoint]
    split
    · rename_i found e hfound
      have hfst : found = c := by simpa using List.find?_some hfound
      obtain ⟨hun, hne⟩ := unescape_short (List.mem_of_find?_eq_some hfound)
      rw [hfst] at hun
      exact scanUnits_short hun hne rest
    · rename_i hnone
      split
      · rename_i hrange
        have hne : ∀ y ∈ shortEscapes, y.1 ≠ c := by simpa using hnone
        exact scanUnits_plain (hne ('"', '"') (by decide)).symm (hne ('\\', '\\') (by decide)).symm hrange.1 rest
      · rw [scanUnits_escapeUnit (h c rfl), ofUnit_toNat]
  | high n =>
    rw [escapePoint, scanUnits_escapeUnit (by omega), ofUnit, dif_pos (by omega)]
    simp
  | low n =>
    rw [escapePoint, scanUnits_escapeUnit (by omega), ofUnit, dif_neg (by omega), dif_pos (by omega)]
    simp

theorem split_basic {x y : CodePoint} (h : y ∈ split x) {c : Char} (hy : y = .scalar c) : c.toNat < 65536 := by
  subst hy
  cases x with
  | scalar d =>
    by_cases hd : d.toNat < 65536
    · rw [split, if_pos hd] at h
      cases List.mem_singleton.mp h
      exact hd
    · obtain ⟨high, low, hsplit, _⟩ := pair_split (Nat.le_of_not_lt hd)
      rw [hsplit] at h
      simp at h
  | high n => cases List.mem_singleton.mp h
  | low n => cases List.mem_singleton.mp h

theorem scanUnits_points {text : Text} (h : ∀ x ∈ text, ∀ c, x = .scalar c → c.toNat < 65536)
    (rest : List Char) : scanUnits (text.flatMap escapePoint ++ '"' :: rest) = some (text, rest) := by
  induction text with
  | nil =>
    rw [List.flatMap_nil, List.nil_append, scanUnits.eq_def]
    rfl
  | cons x text ih =>
    have hrest := ih fun y hy => h y (List.mem_cons_of_mem x hy)
    rw [List.flatMap_cons, List.append_assoc, scanUnits_escapePoint (h x List.mem_cons_self), hrest, Option.map_some]

/-- A string is read back with its pairs joined. -/
theorem scanString_escape (text : Text) (rest : List Char) :
    scanString (escape text ++ '"' :: rest) = some (join text, rest) := by
  rw [scanString, escape, scanUnits_points ?_ rest, Option.map_some, join_split]
  intro x hx c hc
  obtain ⟨y, _, hy⟩ := List.mem_flatMap.mp hx
  exact split_basic hy hc

/-! ## Values -/

inductive JsonValue where
  | null
  | bool (b : Bool)
  | int (n : Int)
  | float (literal : List Char)
  | str (text : Text)
  | list (items : List JsonValue)
  | dict (members : List (Text × JsonValue))

def quoted (text : Text) : List Char := '"' :: escape text ++ ['"']

theorem quoted_join (text : Text) : quoted (join text) = quoted text := by
  rw [quoted, quoted, escape, escape, split_join]

def intText (n : Int) : List Char := if n < 0 then '-' :: Nat.toDigits 10 n.natAbs else Nat.toDigits 10 n.natAbs

mutual

/-- `json.dumps(value, separators=(",", ":"))`; the members of an object stay in their order. -/
def dumps : JsonValue → List Char
  | .null => "null".toList
  | .bool b => if b then "true".toList else "false".toList
  | .int n => intText n
  | .float literal => literal
  | .str text => quoted text
  | .list items => '[' :: dumpsItems items ++ [']']
  | .dict members => '\x7b' :: dumpsMembers members ++ ['\x7d']

def dumpsItems : List JsonValue → List Char
  | [] => []
  | [item] => dumps item
  | item :: items => dumps item ++ ',' :: dumpsItems items

def dumpsMembers : List (Text × JsonValue) → List Char
  | [] => []
  | [(key, value)] => quoted key ++ ':' :: dumps value
  | (key, value) :: members => quoted key ++ ':' :: (dumps value ++ ',' :: dumpsMembers members)

end

/-! ## Reading -/

/-- Past the blanks. -/
def skip (text : List Char) : List Char := text.dropWhile fun c => c = ' ' ∨ c = '\n' ∨ c = '\r' ∨ c = '\t'

def constants : List (List Char × JsonValue) :=
  [("null".toList, .null), ("true".toList, .bool true), ("false".toList, .bool false),
    ("NaN".toList, .float "NaN".toList), ("Infinity".toList, .float "Infinity".toList),
    ("-Infinity".toList, .float "-Infinity".toList)]

def scanConstant (text : List Char) : Option (JsonValue × List Char) :=
  constants.findSome? fun word => (List.dropPrefix? text word.1).map fun rest => (word.2, rest)

/-- The digits of an integer: a zero, or any that do not begin with one. -/
def scanDigits (text : List Char) : Option (List Char × List Char) :=
  match text with
  | [] => none
  | c :: rest =>
    if c = '0' then some (['0'], rest)
    else if c.isDigit then some (text.takeWhile Char.isDigit, text.dropWhile Char.isDigit)
    else none

/-- A point and at least one digit, or nothing. -/
def scanFraction (text : List Char) : List Char × List Char :=
  match text with
  | '.' :: c :: rest =>
    if c.isDigit then ('.' :: c :: rest.takeWhile Char.isDigit, rest.dropWhile Char.isDigit) else ([], text)
  | _ => ([], text)

/-- An exponent, or nothing. -/
def scanExponent (text : List Char) : List Char × List Char :=
  match text with
  | e :: s :: d :: rest =>
    if e = 'e' ∨ e = 'E' then
      if s.isDigit then (e :: s :: (d :: rest).takeWhile Char.isDigit, (d :: rest).dropWhile Char.isDigit)
      else if (s = '+' ∨ s = '-') ∧ d.isDigit = true then
        (e :: s :: d :: rest.takeWhile Char.isDigit, rest.dropWhile Char.isDigit)
      else ([], text)
    else ([], text)
  | [e, s] => if (e = 'e' ∨ e = 'E') ∧ s.isDigit = true then (text, []) else ([], text)
  | _ => ([], text)

/-- A number without its sign. -/
def scanMagnitude (negative : Bool) (text : List Char) : Option (JsonValue × List Char) :=
  (scanDigits text).map fun scanned =>
    let fraction := scanFraction scanned.2
    let exponent := scanExponent fraction.2
    if fraction.1 = [] ∧ exponent.1 = [] then
      (.int (if negative then -(Nat.ofDigitChars 10 scanned.1 0 : Int) else Nat.ofDigitChars 10 scanned.1 0), scanned.2)
    else (.float ((if negative then ['-'] else []) ++ scanned.1 ++ fraction.1 ++ exponent.1), exponent.2)

def scanNumber (text : List Char) : Option (JsonValue × List Char) :=
  match text with
  | '-' :: rest => scanMagnitude true rest
  | _ => scanMagnitude false text

mutual

def scanValue : (fuel : Nat) → List Char → Option (JsonValue × List Char)
  | 0, _ => none
  | _ + 1, [] => none
  | fuel + 1, c :: rest =>
    if c = '"' then (scanString rest).map fun scanned => (.str scanned.1, scanned.2)
    else if c = '[' then
      if (skip rest).head? = some ']' then some (.list [], (skip rest).tail)
      else (scanItems fuel (skip rest)).map fun scanned => (.list scanned.1, scanned.2)
    else if c = '\x7b' then
      if (skip rest).head? = some '\x7d' then some (.dict [], (skip rest).tail)
      else (scanMembers fuel (skip rest)).map fun scanned => (.dict scanned.1, scanned.2)
    else (scanConstant (c :: rest)).or (scanNumber (c :: rest))

/-- The items up to the closing bracket. -/
def scanItems : (fuel : Nat) → List Char → Option (List JsonValue × List Char)
  | 0, _ => none
  | fuel + 1, text => do
    let (item, rest) ← scanValue fuel text
    match skip rest with
    | ']' :: rest => return ([item], rest)
    | ',' :: rest => do
      let (items, rest) ← scanItems fuel (skip rest)
      return (item :: items, rest)
    | _ => none

/-- The members up to the closing brace. -/
def scanMembers : (fuel : Nat) → List Char → Option (List (Text × JsonValue) × List Char)
  | 0, _ => none
  | fuel + 1, text =>
    match text with
    | '"' :: rest => do
      let (key, rest) ← scanString rest
      match skip rest with
      | ':' :: rest => do
        let (value, rest) ← scanValue fuel (skip rest)
        match skip rest with
        | '\x7d' :: rest => return ([(key, value)], rest)
        | ',' :: rest => do
          let (members, rest) ← scanMembers fuel (skip rest)
          return ((key, value) :: members, rest)
        | _ => none
      | _ => none
    | _ => none

end

/-- `json.loads(text)`; enough fuel for any text of this length. -/
def loads (text : List Char) : Option JsonValue :=
  match scanValue (2 * text.length + 1) (skip text) with
  | some (value, rest) => if skip rest = [] then some value else none
  | none => none

/-! ## Numbers -/

/-- What follows a number does not go on with it. -/
def Ends (rest : List Char) : Prop := ∀ c ∈ rest.head?, c.isDigit = false ∧ c ≠ '.' ∧ c ≠ 'e' ∧ c ≠ 'E'

theorem ends_cons {c : Char} {rest : List Char} (h : c.isDigit = false ∧ c ≠ '.' ∧ c ≠ 'e' ∧ c ≠ 'E') :
    Ends (c :: rest) := by
  intro d hd
  cases hd
  exact h

theorem ends_nil : Ends [] := by
  intro d hd
  cases hd

theorem isDigit_toDigits {m : Nat} {c : Char} (h : c ∈ Nat.toDigits 10 m) : c.isDigit = true :=
  Nat.isDigit_of_mem_toDigits (by decide) (by decide) h

/-- A number begins with a digit. -/
theorem toDigits_cons (m : Nat) : ∃ c digits, Nat.toDigits 10 m = c :: digits ∧ c.isDigit = true := by
  obtain ⟨c, digits, hdigits⟩ := List.exists_cons_of_ne_nil (@Nat.toDigits_ne_nil m 10)
  refine ⟨c, digits, hdigits, isDigit_toDigits (m := m) ?_⟩
  rw [hdigits]
  exact List.mem_cons_self

theorem toDigits_head {m : Nat} (h : 0 < m) : ∃ c digits, Nat.toDigits 10 m = c :: digits ∧ c ≠ '0' := by
  induction m using Nat.strongRecOn with
  | _ m ih =>
    by_cases hm : m < 10
    · have hall : ∀ m : Fin 10, 0 < m.val → m.val.digitChar ≠ '0' := by decide
      exact ⟨_, [], Nat.toDigits_of_lt_base hm, hall ⟨m, hm⟩ h⟩
    · obtain ⟨c, digits, hdigits, hc⟩ := ih (m / 10) (by omega) (by omega)
      rw [Nat.toDigits_of_base_le (by decide) (by omega), hdigits]
      exact ⟨c, _, rfl, hc⟩

theorem scanDigits_toDigits (m : Nat) {rest : List Char} (h : Ends rest) :
    scanDigits (Nat.toDigits 10 m ++ rest) = some (Nat.toDigits 10 m, rest) := by
  rcases Nat.eq_zero_or_pos m with rfl | hm
  · rfl
  obtain ⟨c, digits, hdigits, hc⟩ := toDigits_head hm
  have hall : ∀ d ∈ Nat.toDigits 10 m, d.isDigit = true := fun _ => isDigit_toDigits
  have hstop : rest.takeWhile Char.isDigit = [] ∧ rest.dropWhile Char.isDigit = rest := by
    cases rest with
    | nil => exact ⟨rfl, rfl⟩
    | cons d rest =>
      have hd := (h d rfl).1
      exact ⟨List.takeWhile_cons_of_neg (by simp [hd]), List.dropWhile_cons_of_neg (by simp [hd])⟩
  rw [scanDigits.eq_def, hdigits]
  dsimp only [List.cons_append]
  rw [if_neg hc, if_pos (hall c (by rw [hdigits]; exact List.mem_cons_self)), ← List.cons_append, ← hdigits,
    List.takeWhile_append_of_pos hall, List.dropWhile_append_of_pos hall, hstop.1, hstop.2, List.append_nil]

theorem scanFraction_ends {rest : List Char} (h : Ends rest) : scanFraction rest = ([], rest) := by
  cases rest with
  | nil => rfl
  | cons c rest =>
    have hc := (h c rfl).2.1
    rw [scanFraction]
    intro d rest' heq
    exact absurd (List.cons.inj heq).1 hc

theorem scanExponent_ends {rest : List Char} (h : Ends rest) : scanExponent rest = ([], rest) := by
  cases rest with
  | nil => rfl
  | cons c rest =>
    have hc : ¬ (c = 'e' ∨ c = 'E') := not_or.mpr (h c rfl).2.2
    rw [scanExponent.eq_def]
    split
    · rename_i heq
      obtain ⟨rfl, _⟩ := List.cons.inj heq
      rw [if_neg hc]
    · rename_i heq
      obtain ⟨rfl, _⟩ := List.cons.inj heq
      rw [if_neg fun hand => hc hand.1]
    · rfl

theorem scanMagnitude_toDigits (negative : Bool) (m : Nat) {rest : List Char} (h : Ends rest) :
    scanMagnitude negative (Nat.toDigits 10 m ++ rest) = some (.int (if negative then -(m : Int) else m), rest) := by
  rw [scanMagnitude, scanDigits_toDigits m h, Option.map_some]
  simp only [scanFraction_ends h, scanExponent_ends h, Nat.ofDigitChars_ten_toDigits, and_self, if_true]

theorem scanNumber_intText (n : Int) {rest : List Char} (h : Ends rest) :
    scanNumber (intText n ++ rest) = some (.int n, rest) := by
  rw [intText]
  split
  · rename_i hn
    rw [List.cons_append, scanNumber, scanMagnitude_toDigits true _ h]
    have hneg : -(n.natAbs : Int) = n := by omega
    rw [if_pos rfl, hneg]
  · rename_i hn
    have hminus : ∀ tail, Nat.toDigits 10 n.natAbs ++ rest ≠ '-' :: tail := by
      intro tail heq
      obtain ⟨c, digits, hdigits, hc⟩ := toDigits_cons n.natAbs
      rw [hdigits, List.cons_append] at heq
      rw [(List.cons.inj heq).1] at hc
      cases hc
    rw [scanNumber.eq_def]
    split
    · rename_i tail heq
      exact absurd heq (hminus tail)
    · rw [scanMagnitude_toDigits false _ h]
      have : (n.natAbs : Int) = n := by omega
      simp [this]

/-! ## The round trip -/

mutual

/-- The value with the surrogate pairs of its strings joined. -/
def JsonValue.joined : JsonValue → JsonValue
  | .str text => .str (join text)
  | .list items => .list (joinedItems items)
  | .dict members => .dict (joinedMembers members)
  | value => value

def joinedItems : List JsonValue → List JsonValue
  | [] => []
  | item :: items => item.joined :: joinedItems items

def joinedMembers : List (Text × JsonValue) → List (Text × JsonValue)
  | [] => []
  | (key, value) :: members => (join key, value.joined) :: joinedMembers members

end

mutual

def JsonValue.isFloatless : JsonValue → Bool
  | .float _ => false
  | .list items => itemsFloatless items
  | .dict members => membersFloatless members
  | _ => true

def itemsFloatless : List JsonValue → Bool
  | [] => true
  | item :: items => item.isFloatless && itemsFloatless items

def membersFloatless : List (Text × JsonValue) → Bool
  | [] => true
  | (_, value) :: members => value.isFloatless && membersFloatless members

end

/-- No blank, and no end of a list or an object. -/
def Opens (c : Char) : Prop := (c ≠ ' ' ∧ c ≠ '\n' ∧ c ≠ '\r' ∧ c ≠ '\t') ∧ c ≠ ']' ∧ c ≠ '\x7d'

instance (c : Char) : Decidable (Opens c) := inferInstanceAs (Decidable (_ ∧ _))

theorem skip_opens {c : Char} {text : List Char} (h : Opens c) : skip (c :: text) = c :: text := by
  have := h.1
  exact List.dropWhile_cons_of_neg (by simp [this])

theorem digit_ne {c d : Char} (h : c.isDigit = true) (hd : d.isDigit = false) : c ≠ d := by
  intro he
  rw [he, hd] at h
  cases h

theorem opens_digit {c : Char} (h : c.isDigit = true) : Opens c :=
  ⟨⟨digit_ne h rfl, digit_ne h rfl, digit_ne h rfl, digit_ne h rfl⟩, digit_ne h rfl, digit_ne h rfl⟩

theorem intText_head (n : Int) : ∃ c text, intText n = c :: text ∧ (c = '-' ∨ c.isDigit = true) := by
  rw [intText]
  split
  · exact ⟨_, _, rfl, .inl rfl⟩
  · obtain ⟨c, digits, hdigits, hc⟩ := toDigits_cons n.natAbs
    exact ⟨c, digits, hdigits, .inr hc⟩

theorem dumps_head (v : JsonValue) (h : v.isFloatless = true) : ∃ c text, dumps v = c :: text ∧ Opens c := by
  cases v with
  | null => exact ⟨_, _, rfl, by decide⟩
  | bool b =>
    cases b with
    | true => exact ⟨_, _, rfl, by decide⟩
    | false => exact ⟨_, _, rfl, by decide⟩
  | int n =>
    obtain ⟨c, text, htext, hc⟩ := intText_head n
    refine ⟨c, text, htext, ?_⟩
    rcases hc with rfl | hc
    · decide
    · exact opens_digit hc
  | float literal => cases h
  | str text => exact ⟨_, _, rfl, by decide⟩
  | list items => exact ⟨_, _, rfl, by decide⟩
  | dict members => exact ⟨_, _, rfl, by decide⟩

theorem scanConstant_digit {c : Char} (h : c.isDigit = true) (text : List Char) : scanConstant (c :: text) = none := by
  have hne : ∀ d, d.isDigit = false → (c == d) = false := fun d hd => beq_eq_false_iff_ne.mpr (digit_ne h hd)
  simp [scanConstant, constants, List.dropPrefix?, hne]

theorem scanConstant_minus {c : Char} (h : c.isDigit = true) (text : List Char) :
    scanConstant ('-' :: c :: text) = none := by
  have hne : (c == 'I') = false := beq_eq_false_iff_ne.mpr (digit_ne h rfl)
  simp [scanConstant, constants, List.dropPrefix?, hne]

theorem scanConstant_intText (n : Int) (rest : List Char) : scanConstant (intText n ++ rest) = none := by
  obtain ⟨c, digits, hdigits, hc⟩ := toDigits_cons n.natAbs
  rw [intText, hdigits]
  split
  · exact scanConstant_minus hc _
  · exact scanConstant_digit hc _

section
variable {fuel : Nat} {rest : List Char}

/-- Anything that is no string, list or object. -/
theorem scanValue_other {c : Char} {text : List Char} (h : c ≠ '"' ∧ c ≠ '[' ∧ c ≠ '\x7b') :
    scanValue (fuel + 1) (c :: text) = (scanConstant (c :: text)).or (scanNumber (c :: text)) := by
  rw [scanValue, if_neg h.1, if_neg h.2.1, if_neg h.2.2]

theorem scanValue_int (n : Int) (hrest : Ends rest) :
    scanValue (fuel + 1) (intText n ++ rest) = some (.int n, rest) := by
  obtain ⟨c, text, htext, hc⟩ := intText_head n
  have hne : c ≠ '"' ∧ c ≠ '[' ∧ c ≠ '\x7b' := by
    refine ⟨?_, ?_, ?_⟩ <;>
    · intro he
      rw [he] at hc
      revert hc
      decide
  rw [← scanNumber_intText n hrest, htext, List.cons_append, scanValue_other hne, ← List.cons_append, ← htext,
    scanConstant_intText, Option.none_or]

theorem scanValue_null (rest : List Char) : scanValue (fuel + 1) (dumps .null ++ rest) = some (.null, rest) := by
  show scanValue (fuel + 1) ('n' :: 'u' :: 'l' :: 'l' :: rest) = _
  rw [scanValue_other (by decide)]
  simp [scanConstant, constants, List.dropPrefix?]

theorem scanValue_bool (b : Bool) (rest : List Char) :
    scanValue (fuel + 1) (dumps (.bool b) ++ rest) = some (.bool b, rest) := by
  cases b with
  | true =>
    show scanValue (fuel + 1) ('t' :: 'r' :: 'u' :: 'e' :: rest) = _
    rw [scanValue_other (by decide)]
    simp [scanConstant, constants, List.dropPrefix?]
  | false =>
    show scanValue (fuel + 1) ('f' :: 'a' :: 'l' :: 's' :: 'e' :: rest) = _
    rw [scanValue_other (by decide)]
    simp [scanConstant, constants, List.dropPrefix?]

theorem scanValue_quoted (text : Text) :
    scanValue (fuel + 1) (quoted text ++ rest) = some (.str (join text), rest) := by
  rw [quoted, List.cons_append, List.cons_append, List.append_assoc, List.singleton_append, scanValue, if_pos rfl,
    scanString_escape, Option.map_some]

theorem dumpsItems_cons (item next : JsonValue) (items : List JsonValue) :
    dumpsItems (item :: next :: items) = dumps item ++ ',' :: dumpsItems (next :: items) := by
  simp only [dumpsItems]

theorem dumpsMembers_cons (key : Text) (value : JsonValue) (next : Text × JsonValue)
    (members : List (Text × JsonValue)) :
    dumpsMembers ((key, value) :: next :: members) =
      quoted key ++ ':' :: (dumps value ++ ',' :: dumpsMembers (next :: members)) := by
  simp only [dumpsMembers]

theorem dumpsItems_head {item : JsonValue} {items : List JsonValue} (h : item.isFloatless = true) :
    ∃ c text, dumpsItems (item :: items) = c :: text ∧ Opens c := by
  obtain ⟨c, text, htext, hc⟩ := dumps_head item h
  cases items with
  | nil => exact ⟨c, text, by rw [dumpsItems, htext], hc⟩
  | cons next items =>
    refine ⟨c, text ++ ',' :: dumpsItems (next :: items), ?_, hc⟩
    rw [dumpsItems_cons, htext, List.cons_append]

theorem dumpsMembers_head (member : Text × JsonValue) (members : List (Text × JsonValue)) :
    ∃ text, dumpsMembers (member :: members) = '"' :: text := by
  obtain ⟨key, value⟩ := member
  cases members with
  | nil => exact ⟨_, rfl⟩
  | cons next members => exact ⟨_, rfl⟩

theorem scanValue_list {item : JsonValue} {items scanned : List JsonValue} (h : item.isFloatless = true)
    (hscan : scanItems fuel (dumpsItems (item :: items) ++ ']' :: rest) = some (scanned, rest)) :
    scanValue (fuel + 1) (dumps (.list (item :: items)) ++ rest) = some (.list scanned, rest) := by
  obtain ⟨c, text, htext, hc⟩ := @dumpsItems_head item items h
  have hskip : skip (dumpsItems (item :: items) ++ ']' :: rest) = dumpsItems (item :: items) ++ ']' :: rest := by
    rw [htext]
    exact skip_opens hc
  have hhead : (dumpsItems (item :: items) ++ ']' :: rest).head? ≠ some ']' := by
    rw [htext]
    simpa using hc.2.1
  rw [dumps, List.append_assoc, List.cons_append, scanValue, if_neg (by decide), if_pos rfl, List.singleton_append,
    hskip, if_neg hhead, hscan, Option.map_some]

theorem scanValue_dict {member : Text × JsonValue} {members scanned : List (Text × JsonValue)}
    (hscan : scanMembers fuel (dumpsMembers (member :: members) ++ '\x7d' :: rest) = some (scanned, rest)) :
    scanValue (fuel + 1) (dumps (.dict (member :: members)) ++ rest) = some (.dict scanned, rest) := by
  obtain ⟨text, htext⟩ := dumpsMembers_head member members
  have hskip : skip (dumpsMembers (member :: members) ++ '\x7d' :: rest) =
      dumpsMembers (member :: members) ++ '\x7d' :: rest := by
    rw [htext]
    exact skip_opens (by decide)
  have hhead : (dumpsMembers (member :: members) ++ '\x7d' :: rest).head? ≠ some '\x7d' := by
    rw [htext]
    simp
  rw [dumps, List.append_assoc, List.cons_append, scanValue, if_neg (by decide), if_neg (by decide), if_pos rfl,
    List.singleton_append, hskip, if_neg hhead, hscan, Option.map_some]

/-- The last item, and one before others. -/
theorem scanItems_last {text : List Char} {v : JsonValue}
    (h : scanValue fuel (text ++ ']' :: rest) = some (v, ']' :: rest)) :
    scanItems (fuel + 1) (text ++ ']' :: rest) = some ([v], rest) := by
  rw [scanItems, h]
  rfl

theorem scanItems_more {text more : List Char} {v : JsonValue} {scanned : List JsonValue} {after : List Char}
    (h : scanValue fuel (text ++ ',' :: more) = some (v, ',' :: more)) (hskip : skip more = more)
    (hmore : scanItems fuel more = some (scanned, after)) :
    scanItems (fuel + 1) (text ++ ',' :: more) = some (v :: scanned, after) := by
  rw [scanItems, h]
  show (scanItems fuel (skip more)).bind _ = _
  rw [hskip, hmore]
  rfl

/-- A key and its value, the last and one before others. -/
theorem scanMembers_last {key : Text} {text : List Char} {v : JsonValue}
    (hskip : skip (text ++ '\x7d' :: rest) = text ++ '\x7d' :: rest)
    (h : scanValue fuel (text ++ '\x7d' :: rest) = some (v, '\x7d' :: rest)) :
    scanMembers (fuel + 1) (quoted key ++ ':' :: (text ++ '\x7d' :: rest)) = some ([(join key, v)], rest) := by
  rw [quoted, List.cons_append, List.cons_append, List.append_assoc, List.singleton_append, scanMembers]
  simp only [scanString_escape, bind, Option.bind]
  show (scanValue fuel (skip (text ++ '\x7d' :: rest))).bind _ = _
  rw [hskip, h]
  rfl

theorem scanMembers_more {key : Text} {text more : List Char} {v : JsonValue} {scanned : List (Text × JsonValue)}
    {after : List Char} (hskip : skip (text ++ ',' :: more) = text ++ ',' :: more)
    (h : scanValue fuel (text ++ ',' :: more) = some (v, ',' :: more)) (hskip' : skip more = more)
    (hmore : scanMembers fuel more = some (scanned, after)) :
    scanMembers (fuel + 1) (quoted key ++ ':' :: (text ++ ',' :: more)) = some ((join key, v) :: scanned, after) := by
  rw [quoted, List.cons_append, List.cons_append, List.append_assoc, List.singleton_append, scanMembers]
  simp only [scanString_escape, bind, Option.bind]
  show (scanValue fuel (skip (text ++ ',' :: more))).bind _ = _
  rw [hskip, h]
  show (scanMembers fuel (skip more)).bind _ = _
  rw [hskip', hmore]
  rfl

end

theorem skip_dumps {v : JsonValue} (h : v.isFloatless = true) (rest : List Char) :
    skip (dumps v ++ rest) = dumps v ++ rest := by
  obtain ⟨c, text, htext, hc⟩ := dumps_head v h
  rw [htext]
  exact skip_opens hc

theorem dumps_length {v : JsonValue} (h : v.isFloatless = true) : 0 < (dumps v).length := by
  obtain ⟨c, text, htext, _⟩ := dumps_head v h
  rw [htext]
  exact Nat.succ_pos _

mutual

/-- What is written is read back, up to what follows it. -/
theorem scanValue_dumps : ∀ (v : JsonValue) (fuel : Nat) (rest : List Char), v.isFloatless = true →
    2 * (dumps v).length ≤ fuel → Ends rest → scanValue fuel (dumps v ++ rest) = some (v.joined, rest)
  | v, 0, _, hv, hfuel, _ => by
    have := dumps_length hv
    omega
  | .null, _ + 1, rest, _, _, _ => scanValue_null rest
  | .bool b, _ + 1, rest, _, _, _ => scanValue_bool b rest
  | .int n, _ + 1, _, _, _, hrest => scanValue_int n hrest
  | .str text, _ + 1, _, _, _, _ => scanValue_quoted text
  | .list [], _ + 1, _, _, _, _ => rfl
  | .list (item :: items), fuel + 1, rest, hv, hfuel, _ => by
    have hall : item.isFloatless = true ∧ itemsFloatless items = true := by
      simpa [JsonValue.isFloatless, itemsFloatless] using hv
    rw [dumps, List.length_append, List.length_cons, List.length_singleton] at hfuel
    exact scanValue_list hall.1 (scanItems_dumps item items fuel rest hall.1 hall.2 (by omega))
  | .dict [], _ + 1, _, _, _, _ => rfl
  | .dict ((key, value) :: members), fuel + 1, rest, hv, hfuel, _ => by
    have hall : value.isFloatless = true ∧ membersFloatless members = true := by
      simpa [JsonValue.isFloatless, membersFloatless] using hv
    rw [dumps, List.length_append, List.length_cons, List.length_singleton] at hfuel
    exact scanValue_dict (scanMembers_dumps key value members fuel rest hall.1 hall.2 (by omega))

theorem scanItems_dumps : ∀ (item : JsonValue) (items : List JsonValue) (fuel : Nat) (rest : List Char),
    item.isFloatless = true → itemsFloatless items = true → 2 * (dumpsItems (item :: items)).length + 1 ≤ fuel →
    scanItems fuel (dumpsItems (item :: items) ++ ']' :: rest) = some (item.joined :: joinedItems items, rest)
  | _, _, 0, _, _, _, hfuel => by omega
  | item, [], fuel + 1, rest, hitem, _, hfuel => by
    rw [dumpsItems] at hfuel ⊢
    exact scanItems_last (scanValue_dumps item fuel _ hitem (by omega) (ends_cons (by decide)))
  | item, next :: items, fuel + 1, rest, hitem, hitems, hfuel => by
    have hall : next.isFloatless = true ∧ itemsFloatless items = true := by
      simpa [itemsFloatless] using hitems
    obtain ⟨c, text, htext, hc⟩ := @dumpsItems_head next items hall.1
    rw [dumpsItems_cons, List.length_append, List.length_cons] at hfuel
    rw [dumpsItems_cons, List.append_assoc, List.cons_append]
    refine scanItems_more (scanValue_dumps item fuel _ hitem (by omega) (ends_cons (by decide))) ?_
      (scanItems_dumps next items fuel rest hall.1 hall.2 (by omega))
    rw [htext]
    exact skip_opens hc

theorem scanMembers_dumps : ∀ (key : Text) (value : JsonValue) (members : List (Text × JsonValue)) (fuel : Nat)
    (rest : List Char), value.isFloatless = true → membersFloatless members = true →
    2 * (dumpsMembers ((key, value) :: members)).length + 1 ≤ fuel →
    scanMembers fuel (dumpsMembers ((key, value) :: members) ++ '\x7d' :: rest) =
      some ((join key, value.joined) :: joinedMembers members, rest)
  | _, _, _, 0, _, _, _, hfuel => by omega
  | key, value, [], fuel + 1, rest, hvalue, _, hfuel => by
    rw [dumpsMembers, List.length_append, List.length_cons] at hfuel
    rw [dumpsMembers, List.append_assoc, List.cons_append]
    exact scanMembers_last (skip_dumps hvalue _)
      (scanValue_dumps value fuel _ hvalue (by omega) (ends_cons (by decide)))
  | key, value, (nextKey, next) :: members, fuel + 1, rest, hvalue, hmembers, hfuel => by
    have hall : next.isFloatless = true ∧ membersFloatless members = true := by
      simpa [membersFloatless] using hmembers
    obtain ⟨text, htext⟩ := dumpsMembers_head (nextKey, next) members
    rw [dumpsMembers_cons, List.length_append, List.length_cons, List.length_append, List.length_cons] at hfuel
    rw [dumpsMembers_cons, List.append_assoc, List.cons_append, List.append_assoc, List.cons_append]
    refine scanMembers_more (skip_dumps hvalue _)
      (scanValue_dumps value fuel _ hvalue (by omega) (ends_cons (by decide))) ?_
      (scanMembers_dumps nextKey next members fuel rest hall.1 hall.2 (by omega))
    rw [htext]
    exact skip_opens (by decide)

end

/-- A value without floats is read back with its pairs joined. -/
theorem loads_dumps {v : JsonValue} (h : v.isFloatless = true) : loads (dumps v) = some v.joined := by
  have hskip := skip_dumps h []
  have hscan := scanValue_dumps v (2 * (dumps v).length + 1) [] h (by omega) ends_nil
  rw [List.append_nil] at hskip hscan
  rw [loads, hskip, hscan]
  rfl

mutual

/-- A value and the value with its pairs joined are written alike. -/
theorem dumps_joined : ∀ v : JsonValue, dumps v.joined = dumps v
  | .null => rfl
  | .bool _ => rfl
  | .int _ => rfl
  | .float _ => rfl
  | .str text => quoted_join text
  | .list items => by rw [JsonValue.joined, dumps, dumps, dumpsItems_joined items]
  | .dict members => by rw [JsonValue.joined, dumps, dumps, dumpsMembers_joined members]

theorem dumpsItems_joined : ∀ items : List JsonValue, dumpsItems (joinedItems items) = dumpsItems items
  | [] => rfl
  | [item] => by rw [joinedItems, joinedItems, dumpsItems, dumpsItems, dumps_joined item]
  | item :: next :: items => by
    have hrest := dumpsItems_joined (next :: items)
    rw [joinedItems] at hrest ⊢
    rw [joinedItems, dumpsItems_cons, dumpsItems_cons, dumps_joined item, hrest]

theorem dumpsMembers_joined : ∀ members : List (Text × JsonValue),
    dumpsMembers (joinedMembers members) = dumpsMembers members
  | [] => rfl
  | [(key, value)] => by
    rw [joinedMembers, joinedMembers, dumpsMembers, dumpsMembers, quoted_join, dumps_joined value]
  | (key, value) :: (nextKey, next) :: members => by
    have hrest := dumpsMembers_joined ((nextKey, next) :: members)
    rw [joinedMembers] at hrest ⊢
    rw [joinedMembers, dumpsMembers_cons, dumpsMembers_cons, quoted_join, dumps_joined value, hrest]

end

/-! ## What is written -/

/-- An ASCII character, and not the null. -/
def IsPlain (c : Char) : Prop := 0 < c.toNat ∧ c.toNat < 128

instance (c : Char) : Decidable (IsPlain c) := inferInstanceAs (Decidable (_ ∧ _))

theorem hexDigit_plain {n : Nat} (h : n < 16) : IsPlain (hexDigit n) := by
  have hall : ∀ n : Fin 16, IsPlain (hexDigit n) := by decide
  exact hall ⟨n, h⟩

theorem escapeUnit_plain {n : Nat} : ∀ c ∈ escapeUnit n, IsPlain c := by
  simp only [escapeUnit, List.forall_mem_cons]
  exact ⟨by decide, by decide, hexDigit_plain (by omega), hexDigit_plain (by omega), hexDigit_plain (by omega),
    hexDigit_plain (by omega), fun c hc => by cases hc⟩

theorem escapePoint_plain (x : CodePoint) : ∀ c ∈ escapePoint x, IsPlain c := by
  cases x with
  | scalar d =>
    rw [escapePoint]
    split
    · rename_i found e hfound
      have hall : ∀ y ∈ shortEscapes, IsPlain y.2 := by decide
      simp only [List.forall_mem_cons]
      exact ⟨by decide, hall _ (List.mem_of_find?_eq_some hfound), fun c hc => by cases hc⟩
    · split
      · rename_i hrange
        intro c hc
        rw [List.mem_singleton.mp hc]
        exact ⟨by omega, by omega⟩
      · exact escapeUnit_plain
  | high n => exact escapeUnit_plain
  | low n => exact escapeUnit_plain

theorem quoted_plain (text : Text) : ∀ c ∈ quoted text, IsPlain c := by
  intro c hc
  simp only [quoted, List.cons_append, List.mem_cons, List.mem_append, escape, List.mem_flatMap,
    List.not_mem_nil, or_false] at hc
  rcases hc with rfl | ⟨x, _, hx⟩ | rfl
  · decide
  · exact escapePoint_plain x c hx
  · decide

theorem intText_plain (n : Int) : ∀ c ∈ intText n, IsPlain c := by
  have hdigits : ∀ c ∈ Nat.toDigits 10 n.natAbs, IsPlain c := by
    intro c hc
    have hd : c.isDigit = true := isDigit_toDigits hc
    simp only [Char.isDigit, Bool.and_eq_true, decide_eq_true_eq] at hd
    have h₁ : 48 ≤ c.toNat := hd.1
    have h₂ : c.toNat ≤ 57 := hd.2
    exact ⟨by omega, by omega⟩
  rw [intText]
  split
  · simp only [List.forall_mem_cons]
    exact ⟨by decide, hdigits⟩
  · exact hdigits

mutual

/-- Whatever the texts are, what is written is plain. -/
theorem dumps_plain : ∀ v : JsonValue, v.isFloatless = true → ∀ c ∈ dumps v, IsPlain c
  | .null, _ => by simp [dumps, IsPlain]
  | .bool true, _ => by simp [dumps, IsPlain]
  | .bool false, _ => by simp [dumps, IsPlain]
  | .int n, _ => intText_plain n
  | .str text, _ => quoted_plain text
  | .list items, hv => by
    intro c hc
    simp only [dumps, List.cons_append, List.mem_cons, List.mem_append, List.not_mem_nil, or_false] at hc
    rcases hc with rfl | hc | rfl
    · decide
    · exact dumpsItems_plain items hv c hc
    · decide
  | .dict members, hv => by
    intro c hc
    simp only [dumps, List.cons_append, List.mem_cons, List.mem_append, List.not_mem_nil, or_false] at hc
    rcases hc with rfl | hc | rfl
    · decide
    · exact dumpsMembers_plain members hv c hc
    · decide

theorem dumpsItems_plain : ∀ items : List JsonValue, itemsFloatless items = true →
    ∀ c ∈ dumpsItems items, IsPlain c
  | [], _ => fun c hc => by cases hc
  | [item], h => by
    have hitem : item.isFloatless = true := by simpa [itemsFloatless] using h
    exact dumps_plain item hitem
  | item :: next :: items, h => by
    have hall : item.isFloatless = true ∧ itemsFloatless (next :: items) = true := by
      simpa [itemsFloatless] using h
    intro c hc
    simp only [dumpsItems, List.mem_append, List.mem_cons] at hc
    rcases hc with hc | rfl | hc
    · exact dumps_plain item hall.1 c hc
    · decide
    · exact dumpsItems_plain (next :: items) hall.2 c hc

theorem dumpsMembers_plain : ∀ members : List (Text × JsonValue), membersFloatless members = true →
    ∀ c ∈ dumpsMembers members, IsPlain c
  | [], _ => fun c hc => by cases hc
  | [(key, value)], h => by
    have hvalue : value.isFloatless = true := by simpa [membersFloatless] using h
    intro c hc
    simp only [dumpsMembers, List.mem_append, List.mem_cons] at hc
    rcases hc with hc | rfl | hc
    · exact quoted_plain key c hc
    · decide
    · exact dumps_plain value hvalue c hc
  | (key, value) :: next :: members, h => by
    have hall : value.isFloatless = true ∧ membersFloatless (next :: members) = true := by
      simpa [membersFloatless] using h
    intro c hc
    simp only [dumpsMembers, List.mem_append, List.mem_cons] at hc
    rcases hc with hc | rfl | hc | rfl | hc
    · exact quoted_plain key c hc
    · decide
    · exact dumps_plain value hall.1 c hc
    · decide
    · exact dumpsMembers_plain (next :: members) hall.2 c hc

end

end WorkforceRisk.Lib.JsonText
