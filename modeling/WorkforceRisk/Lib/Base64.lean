/-
  WorkforceRisk.Lib.Base64 — url-safe base64, as a token without padding carries it.

  `encode` writes whole groups of four characters; `stripped` drops their padding and
  `padded` puts back what the length asks for. `decode` is the lenient reading of the
  `binascii` loop: it skips what is no character of the alphabet, and stops at a full
  padding. The rule is `decode_padded_stripped`; `stripped_alphabet` says what a stripped
  text is made of, and `encode_printable` that an encoded one is printable.
-/

import Mathlib.Data.List.TakeWhile

namespace WorkforceRisk.Lib.Base64

/-- The character of six bits. -/
def sextet (n : Nat) : Char :=
  if n < 26 then Char.ofNat (n + 65)
  else if n < 52 then Char.ofNat (n + 71)
  else if n < 62 then Char.ofNat (n - 4)
  else if n = 62 then '-' else '_'

/-- The six bits of a character of either alphabet. -/
def value (c : Char) : Option Nat :=
  if c.isUpper then some (c.toNat - 65)
  else if c.isLower then some (c.toNat - 71)
  else if c.isDigit then some (c.toNat + 4)
  else if c = '-' ∨ c = '+' then some 62
  else if c = '_' ∨ c = '/' then some 63
  else none

def encode : List UInt8 → List Char
  | [] => []
  | [a] => [sextet (a.toNat / 4), sextet (a.toNat % 4 * 16), '=', '=']
  | [a, b] => [sextet (a.toNat / 4), sextet (a.toNat % 4 * 16 + b.toNat / 16), sextet (b.toNat % 16 * 4), '=']
  | a :: b :: c :: bytes => sextet (a.toNat / 4) :: sextet (a.toNat % 4 * 16 + b.toNat / 16) ::
      sextet (b.toNat % 16 * 4 + c.toNat / 64) :: sextet (c.toNat % 64) :: encode bytes

/-- The loop of `a2b_base64`: how many characters of a group were read, the bits they left
    over, and the padding since. -/
def decodeFrom : (quad left pads : Nat) → List Char → Option (List UInt8)
  | quad, _, _, [] => if quad = 0 then some [] else none
  | quad, left, pads, c :: cs =>
    if c = '=' then
      if quad < 2 then decodeFrom quad left pads cs
      else if 4 ≤ quad + (pads + 1) then some []
      else decodeFrom quad left (pads + 1) cs
    else match value c with
      | none => decodeFrom quad left pads cs
      | some v => match quad with
        | 0 => decodeFrom 1 v 0 cs
        | 1 => (decodeFrom 2 (v % 16) 0 cs).map (UInt8.ofNat (left * 4 + v / 16) :: ·)
        | 2 => (decodeFrom 3 (v % 4) 0 cs).map (UInt8.ofNat (left * 16 + v / 4) :: ·)
        | _ => (decodeFrom 0 0 0 cs).map (UInt8.ofNat (left * 64 + v) :: ·)

def decode (text : List Char) : Option (List UInt8) := decodeFrom 0 0 0 text

/-- `text.rstrip("=")`. -/
def stripped (text : List Char) : List Char := (text.reverse.dropWhile (· == '=')).reverse

/-- `text + "=" * (-len(text) % 4)`. -/
def padded (text : List Char) : List Char := text ++ List.replicate ((4 - text.length % 4) % 4) '='

/-! ## The alphabet -/

theorem sextet_facts (n : Fin 64) : value (sextet n) = some n.val ∧ sextet n ≠ '=' ∧ sextet n ≠ '.' ∧
    (sextet n).toNat < 128 := by
  revert n
  decide

theorem value_sextet {n : Nat} (h : n < 64) : value (sextet n) = some n := (sextet_facts ⟨n, h⟩).1

theorem sextet_ne_pad {n : Nat} (h : n < 64) : sextet n ≠ '=' := (sextet_facts ⟨n, h⟩).2.1

/-- A character a stripped text may have. -/
def IsAlphabet (c : Char) : Prop := c ≠ '=' ∧ c ≠ '.' ∧ c.toNat < 128

theorem sextet_alphabet {n : Nat} (h : n < 64) : IsAlphabet (sextet n) := (sextet_facts ⟨n, h⟩).2

/-! ## Groups -/

section
variable {left pads n : Nat} {cs : List Char}

theorem decode_first (h : n < 64) : decodeFrom 0 left pads (sextet n :: cs) = decodeFrom 1 n 0 cs := by
  rw [decodeFrom, if_neg (sextet_ne_pad h), value_sextet h]
  rfl

theorem decode_second (h : n < 64) : decodeFrom 1 left pads (sextet n :: cs) =
    (decodeFrom 2 (n % 16) 0 cs).map (UInt8.ofNat (left * 4 + n / 16) :: ·) := by
  rw [decodeFrom, if_neg (sextet_ne_pad h), value_sextet h]
  rfl

theorem decode_third (h : n < 64) : decodeFrom 2 left pads (sextet n :: cs) =
    (decodeFrom 3 (n % 4) 0 cs).map (UInt8.ofNat (left * 16 + n / 4) :: ·) := by
  rw [decodeFrom, if_neg (sextet_ne_pad h), value_sextet h]
  rfl

theorem decode_fourth (h : n < 64) : decodeFrom 3 left pads (sextet n :: cs) =
    (decodeFrom 0 0 0 cs).map (UInt8.ofNat (left * 64 + n) :: ·) := by
  rw [decodeFrom, if_neg (sextet_ne_pad h), value_sextet h]
  rfl

end

theorem ofNat_eq {a : UInt8} {n : Nat} (h : n = a.toNat) : UInt8.ofNat n = a := by
  rw [h, UInt8.ofNat_toNat]

theorem decodeFrom_encode (bytes : List UInt8) : decodeFrom 0 0 0 (encode bytes) = some bytes := by
  induction bytes using encode.induct with
  | case1 => rfl
  | case2 a =>
    have ha := a.toNat_lt
    rw [encode, decode_first (by omega), decode_second (by omega)]
    rw [ofNat_eq (a := a) (by omega)]
    rfl
  | case3 a b =>
    have ha := a.toNat_lt
    have hb := b.toNat_lt
    rw [encode, decode_first (by omega), decode_second (by omega), decode_third (by omega)]
    rw [ofNat_eq (a := a) (by omega), ofNat_eq (a := b) (by omega)]
    rfl
  | case4 a b c bytes ih =>
    have ha := a.toNat_lt
    have hb := b.toNat_lt
    have hc := c.toNat_lt
    rw [encode, decode_first (by omega), decode_second (by omega), decode_third (by omega), decode_fourth (by omega)]
    rw [ih, ofNat_eq (a := a) (by omega), ofNat_eq (a := b) (by omega), ofNat_eq (a := c) (by omega)]
    rfl

/-- An encoded text is characters of the alphabet and the padding their number asks for. -/
theorem encode_split (bytes : List UInt8) :
    ∃ body : List Char, encode bytes = padded body ∧ ∀ c ∈ body, IsAlphabet c := by
  induction bytes using encode.induct with
  | case1 => exact ⟨[], rfl, fun c h => by cases h⟩
  | case2 a =>
    have ha := a.toNat_lt
    exact ⟨[_, _], rfl, by simp [sextet_alphabet (show a.toNat / 4 < 64 by omega),
      sextet_alphabet (show a.toNat % 4 * 16 < 64 by omega)]⟩
  | case3 a b =>
    have ha := a.toNat_lt
    have hb := b.toNat_lt
    exact ⟨[_, _, _], rfl, by simp [sextet_alphabet (show a.toNat / 4 < 64 by omega),
      sextet_alphabet (show a.toNat % 4 * 16 + b.toNat / 16 < 64 by omega),
      sextet_alphabet (show b.toNat % 16 * 4 < 64 by omega)]⟩
  | case4 a b c bytes ih =>
    have ha := a.toNat_lt
    have hb := b.toNat_lt
    have hc := c.toNat_lt
    obtain ⟨body, hbody, hall⟩ := ih
    refine ⟨sextet (a.toNat / 4) :: sextet (a.toNat % 4 * 16 + b.toNat / 16) ::
      sextet (b.toNat % 16 * 4 + c.toNat / 64) :: sextet (c.toNat % 64) :: body, ?_, ?_⟩
    · rw [encode, hbody, padded, padded]
      simp only [List.length_cons, List.cons_append, Nat.add_mod_right, Nat.add_assoc]
    · simp only [List.forall_mem_cons]
      exact ⟨sextet_alphabet (by omega), sextet_alphabet (by omega), sextet_alphabet (by omega),
        sextet_alphabet (by omega), hall⟩

theorem stripped_padded {body : List Char} (h : ∀ c ∈ body, IsAlphabet c) : stripped (padded body) = body := by
  rw [stripped, padded, List.reverse_append, List.reverse_replicate, List.dropWhile_append]
  have hpads : List.dropWhile (· == '=') (List.replicate ((4 - body.length % 4) % 4) '=') = [] := by
    simp
  rw [hpads]
  simp only [List.isEmpty_nil, if_true]
  cases hrev : body.reverse with
  | nil => simpa using hrev
  | cons c cs =>
    have hc : c ∈ body := by
      rw [← List.mem_reverse, hrev]
      exact List.mem_cons_self
    rw [List.dropWhile_cons_of_neg (by simpa using (h c hc).1), ← hrev, List.reverse_reverse]

/-! ## The round trip -/

/-- A stripped text is of the alphabet, without a dot. -/
theorem stripped_alphabet {bytes : List UInt8} {c : Char} (h : c ∈ stripped (encode bytes)) : IsAlphabet c := by
  obtain ⟨body, hbody, hall⟩ := encode_split bytes
  rw [hbody, stripped_padded hall] at h
  exact hall c h

theorem sextet_printable (n : Fin 64) : 33 ≤ (sextet n).toNat ∧ (sextet n).toNat < 127 := by
  revert n
  decide

/-- An encoded text is printable. -/
theorem encode_printable (bytes : List UInt8) : ∀ c ∈ encode bytes, 33 ≤ c.toNat ∧ c.toNat < 127 := by
  have hpad : 33 ≤ '='.toNat ∧ '='.toNat < 127 := by decide
  have hsextet : ∀ n, n < 64 → 33 ≤ (sextet n).toNat ∧ (sextet n).toNat < 127 := fun n h => sextet_printable ⟨n, h⟩
  induction bytes using encode.induct with
  | case1 => simp [encode]
  | case2 a =>
    have ha := a.toNat_lt
    rw [encode]
    simp only [List.forall_mem_cons]
    exact ⟨hsextet _ (by omega), hsextet _ (by omega), hpad, hpad, by simp⟩
  | case3 a b =>
    have ha := a.toNat_lt
    have hb := b.toNat_lt
    rw [encode]
    simp only [List.forall_mem_cons]
    exact ⟨hsextet _ (by omega), hsextet _ (by omega), hsextet _ (by omega), hpad, by simp⟩
  | case4 a b c bytes ih =>
    have ha := a.toNat_lt
    have hb := b.toNat_lt
    have hc := c.toNat_lt
    rw [encode]
    simp only [List.forall_mem_cons]
    exact ⟨hsextet _ (by omega), hsextet _ (by omega), hsextet _ (by omega), hsextet _ (by omega), ih⟩

theorem mem_of_mem_stripped {text : List Char} {c : Char} (h : c ∈ stripped text) : c ∈ text := by
  have hrev := List.mem_reverse.mp h
  exact List.mem_reverse.mp ((List.dropWhile_sublist _).mem hrev)

theorem decode_padded_stripped (bytes : List UInt8) : decode (padded (stripped (encode bytes))) = some bytes := by
  obtain ⟨body, hbody, hall⟩ := encode_split bytes
  rw [hbody, stripped_padded hall, ← hbody]
  exact decodeFrom_encode bytes

end WorkforceRisk.Lib.Base64
