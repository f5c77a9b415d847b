/-
  WorkforceRisk.Evidence.Text — the methods of `str` that evidence and profiles are
  compared by, and `int` of a text.

  What they know of a character is a parameter (`Unicode`, and `TextTables` where the
  ASCII characters matter: there the tables are what ASCII says).
-/

import Mathlib.Data.List.Infix
import WorkforceRisk.Historical.Reader

namespace WorkforceRisk.Evidence

open Historical

class TextTables extends Unicode where
  upper : Char → List Char
  /-- The characters `re.IGNORECASE` takes for this one, itself among them. -/
  variants : Char → List Char
  casefold_ascii : ∀ c : Char, c.toNat < 128 → casefold c = [c.toLower]
  space_ascii : ∀ c : Char, c.isAlphanum = true → isSpace c = false

theorem isWhitespace_of_isAlphanum {c : Char} (h : c.isAlphanum = true) : c.isWhitespace = false := by
  cases hw : c.isWhitespace with
  | false => rfl
  | true =>
    simp only [Char.isWhitespace, Bool.or_eq_true, decide_eq_true_eq] at hw
    rcases hw with ((rfl | rfl) | rfl) | rfl <;> cases h

/-- The tables of the ASCII characters. -/
@[reducible] def TextTables.ascii : TextTables :=
  { Unicode.ascii with
    upper := fun c => [c.toUpper]
    variants := fun c => [c, c.toLower, c.toUpper]
    casefold_ascii := fun _ _ => rfl
    space_ascii := fun _ h => isWhitespace_of_isAlphanum h }

/-- `part in text`. -/
def contains (text part : String) : Bool := decide (part.toList <:+: text.toList)

def startsWith (text start : String) : Bool := decide (start.toList <+: text.toList)

/-- `str.strip` of the characters `p`. -/
def stripBy (p : Char → Bool) (s : String) : String :=
  String.ofList ((s.toList.dropWhile p).reverse.dropWhile p).reverse

section
variable [Unicode]

/-- `str.casefold()`. -/
def casefold (s : String) : String := String.ofList (s.toList.flatMap Unicode.casefold)

/-- `str.strip()`. -/
def strip (s : String) : String := stripBy Unicode.isSpace s

/-- The digits after a first one, each with an underscore before it or none. -/
def intDigits : Nat → List Char → Option Nat
  | n, [] => some n
  | n, '_' :: c :: cs => (Unicode.decimal c).bind fun d => intDigits (10 * n + d) cs
  | n, c :: cs => (Unicode.decimal c).bind fun d => intDigits (10 * n + d) cs

def natDigits : List Char → Option Nat
  | [] => none
  | c :: cs => (Unicode.decimal c).bind fun d => intDigits d cs

/-- `int(s)`. -/
def intOf (s : String) : Option Int :=
  match (strip s).toList with
  | '-' :: cs => (natDigits cs).map fun n => -(n : Int)
  | '+' :: cs => (natDigits cs).map fun n => (n : Int)
  | cs => (natDigits cs).map fun n => (n : Int)

@[simp] theorem casefold_append (s t : String) : casefold (s ++ t) = casefold s ++ casefold t := by
  simp [casefold, String.ofList_append]

@[simp] theorem toList_casefold (s : String) : (casefold s).toList = s.toList.flatMap Unicode.casefold := by
  simp [casefold]

end

/-- `str.upper()`. -/
def upper [TextTables] (s : String) : String := String.ofList (s.toList.flatMap TextTables.upper)

/-- What is stripped from a text is at its ends. -/
theorem stripBy_infix (p : Char → Bool) (s : String) : (stripBy p s).toList <:+: s.toList := by
  have hend : (((s.toList.dropWhile p).reverse.dropWhile p).reverse) <:+: s.toList.dropWhile p := by
    rw [← List.reverse_infix, List.reverse_reverse]
    exact (List.dropWhile_suffix p).isInfix
  rw [stripBy, String.toList_ofList]
  exact hend.trans (List.dropWhile_suffix p).isInfix

theorem contains_iff {text part : String} : contains text part = true ↔ part.toList <:+: text.toList := by
  simp [contains]

theorem startsWith_iff {text start : String} : startsWith text start = true ↔ start.toList <+: text.toList := by
  simp [startsWith]

theorem toNat_lt_of_toLower {c : Char} (h : c.toLower.toNat < 128) : c.toNat < 128 := by
  unfold Char.toLower at h
  split at h
  · rename_i hupper
    have hle : c.toNat ≤ 90 := hupper.2
    omega
  · exact h

/-- What is one letter in small letters is it in capital ones, and a letter. -/
theorem toUpper_of_toLower {c : Char} (h : c.toLower.toNat < 128) :
    c.toUpper = c.toLower.toUpper ∧ c.isAlpha = c.toLower.isAlpha := by
  have hall : ((List.range 128).all fun n => (Char.ofNat n).toUpper == (Char.ofNat n).toLower.toUpper &&
      (Char.ofNat n).isAlpha == (Char.ofNat n).toLower.isAlpha) = true := by decide +kernel
  have hc := List.all_eq_true.mp hall c.toNat (List.mem_range.mpr (toNat_lt_of_toLower h))
  rw [Char.ofNat_toNat, Bool.and_eq_true, beq_iff_eq, beq_iff_eq] at hc
  exact hc

end WorkforceRisk.Evidence
