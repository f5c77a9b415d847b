/-
  WorkforceRisk.Lib.Floats — Python's floats as what they stand for: a rational, an
  infinity, or not a number.

  `nearest` is the rounding of a rational to a double, ties to even: what a literal and a
  product come to. `formatG` is `f"{x:g}"`: six digits, rounded the same way, in fixed
  notation from 1e-4 to 1e6 and with an exponent elsewhere, without trailing zeros. The
  sign of a zero is left out.
-/

import Mathlib.Algebra.Order.Ring.Rat
import Mathlib.Data.Int.Log
import Mathlib.Data.List.DropRight
import Mathlib.Data.Rat.Floor
import WorkforceRisk.Lib.Rounding

namespace WorkforceRisk.Lib

inductive PyFloat where
  | finite (q : Rat)
  | inf (negative : Bool)
  | nan
  deriving DecidableEq

namespace PyFloat

/-- `0 < x` -/
def positive : PyFloat → Bool
  | finite q => decide (0 < q)
  | inf negative => !negative
  | nan => false

/-- `0 <= x` -/
def nonnegative : PyFloat → Bool
  | finite q => decide (0 ≤ q)
  | inf negative => !negative
  | nan => false

/-- `x <= 1` -/
def atMostOne : PyFloat → Bool
  | finite q => decide (q ≤ 1)
  | inf negative => negative
  | nan => false

/-- `x < 0` -/
def negative : PyFloat → Bool
  | finite q => decide (q < 0)
  | inf negative => negative
  | nan => false

theorem not_negative_of_nonnegative {x : PyFloat} (h : x.nonnegative = true) : x.negative = false := by
  cases x with
  | finite q => exact decide_eq_false (not_lt.mpr (of_decide_eq_true h))
  | inf negative => simpa [nonnegative, PyFloat.negative] using h
  | nan => rfl

theorem not_negative_of_positive {x : PyFloat} (h : x.positive = true) : x.negative = false := by
  cases x with
  | finite q => exact decide_eq_false (not_lt.mpr (of_decide_eq_true h).le)
  | inf negative => simpa [positive, PyFloat.negative] using h
  | nan => rfl

/-- The exponent of the last bit of a double near this number. -/
def lastBit (q : Rat) : Int := max (Int.log 2 |q| - 52) (-1074)

/-- The double nearest to a number. -/
def nearest (q : Rat) : PyFloat :=
  let r := (roundEven (q / 2 ^ lastBit q) : Rat) * 2 ^ lastBit q
  if |r| < 2 ^ 1024 then finite r else inf (decide (q < 0))

/-- What is not negative stays so. -/
theorem nearest_negative {q : Rat} (h : 0 ≤ q) : (nearest q).negative = false := by
  have hscale : (0 : Rat) < 2 ^ lastBit q := zpow_pos (by norm_num) _
  have hround : 0 ≤ roundEven (q / 2 ^ lastBit q) :=
    le_roundEven (by rw [Int.cast_zero]; exact div_nonneg h hscale.le)
  have hproduct : (0 : Rat) ≤ (roundEven (q / 2 ^ lastBit q) : Rat) * 2 ^ lastBit q :=
    mul_nonneg (Int.cast_nonneg hround) hscale.le
  unfold nearest
  dsimp only
  split
  · exact decide_eq_false (not_lt.mpr hproduct)
  · exact decide_eq_false (not_lt.mpr h)

/-- `-x`. -/
def neg : PyFloat → PyFloat
  | finite q => finite (-q)
  | inf negative => inf !negative
  | nan => nan

/-- `x * y`. -/
def mul : PyFloat → PyFloat → PyFloat
  | finite a, finite b => nearest (a * b)
  | inf s, inf t => inf (s != t)
  | inf s, finite b => if b = 0 then nan else inf (s != decide (b < 0))
  | finite a, inf t => if a = 0 then nan else inf (decide (a < 0) != t)
  | _, _ => nan

/-- `round(x)`, where it is an integer. -/
def rounded : PyFloat → Option Int
  | finite q => some (roundEven q)
  | _ => none

/-! ## Formatting -/

/-- The six digits a positive number rounds to, as one number, and the exponent of the first. -/
def sixDigits (q : Rat) : Nat × Int :=
  let m := (roundEven (q / 10 ^ (Int.log 10 q - 5))).toNat
  if m = 10 ^ 6 then (10 ^ 5, Int.log 10 q + 1) else (m, Int.log 10 q)

/-- The number that they are. -/
def sixFigures (q : Rat) : Rat := (sixDigits q).1 * 10 ^ ((sixDigits q).2 - 5)

/-- Digits after the point, the zeros at their end and the point before none left out. -/
def fraction (digits : List Char) : List Char :=
  match digits.rdropWhile (· == '0') with
  | [] => []
  | kept => '.' :: kept

/-- At least two digits. -/
def exponentDigits (n : Nat) : List Char :=
  if n < 10 then '0' :: Nat.toDigits 10 n else Nat.toDigits 10 n

def formatPositive (q : Rat) : List Char :=
  let digits := Nat.toDigits 10 (sixDigits q).1
  let e := (sixDigits q).2
  if e < -4 ∨ 6 ≤ e then
    digits.take 1 ++ fraction (digits.drop 1) ++ 'e' :: (if e < 0 then '-' else '+') :: exponentDigits e.natAbs
  else if e < 0 then '0' :: fraction (List.replicate (-e - 1).toNat '0' ++ digits)
  else digits.take (e.toNat + 1) ++ fraction (digits.drop (e.toNat + 1))

/-- `f"{x:g}"`. -/
def formatG : PyFloat → String
  | nan => "nan"
  | inf negative => if negative then "-inf" else "inf"
  | finite q =>
    if q = 0 then "0"
    else if q < 0 then String.ofList ('-' :: formatPositive (-q))
    else String.ofList (formatPositive q)

/-- The double that is written by `:g`. -/
def written : PyFloat → PyFloat
  | finite q =>
    if q = 0 then finite 0
    else if q < 0 then (nearest (sixFigures (-q))).neg
    else nearest (sixFigures q)
  | x => x

/-- What is not negative is not written as negative. -/
theorem written_negative {x : PyFloat} (h : x.negative = false) : x.written.negative = false := by
  cases x with
  | nan => rfl
  | inf negative => exact h
  | finite q =>
    have hq : ¬ q < 0 := of_decide_eq_false h
    unfold written
    dsimp only
    rw [if_neg hq]
    split
    · rfl
    · exact nearest_negative (mul_nonneg (Nat.cast_nonneg _) (zpow_pos (by norm_num) _).le)

end PyFloat

end WorkforceRisk.Lib
