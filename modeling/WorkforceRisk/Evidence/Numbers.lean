/-
  WorkforceRisk.Evidence.Numbers — Python's `float` of a text.

  Space around the number is stripped; a sign, digits with or without a point and an exponent
  are read, with an underscore between two digits passed over, or `inf`, `infinity` or `nan`
  in any case. What is read is the double nearest to the number written. Proved: of what `:g`
  writes it reads the number rounded to six digits (`floatOf_formatG`).
-/

import Mathlib.Tactic.FieldSimp
import WorkforceRisk.Evidence.Text
import WorkforceRisk.Lib.Floats

namespace WorkforceRisk.Evidence

open Lib Historical

section
variable [Unicode]

/-- The digits a text begins with, put after those of `n`: the number, how many there are,
    counted from `k`, and what follows. Where there is one before it, an underscore and the
    digit after it are read. -/
def scanDigits : Nat → Nat → List Char → Nat × Nat × List Char
  | n, k, [] => (n, k, [])
  | n, k, '_' :: c :: cs =>
    if k = 0 then (n, k, '_' :: c :: cs)
    else match Unicode.decimal c with
      | some d => scanDigits (10 * n + d) (k + 1) cs
      | none => (n, k, '_' :: c :: cs)
  | n, k, c :: cs => match Unicode.decimal c with
    | some d => scanDigits (10 * n + d) (k + 1) cs
    | none => (n, k, c :: cs)

/-- Digits with or without a point, and what follows. -/
def mantissa (cs : List Char) : Option (Rat × List Char) :=
  match scanDigits 0 0 cs with
  | (n, k, '.' :: rest) =>
    let (m, j, rest) := scanDigits n 0 rest
    if k + j = 0 then none else some ((m : Rat) / 10 ^ j, rest)
  | (n, k, rest) => if k = 0 then none else some ((n : Rat), rest)

/-- Digits to the end. -/
def allDigits (cs : List Char) : Option Nat :=
  match scanDigits 0 0 cs with
  | (n, k, rest) => if k ≠ 0 ∧ rest = [] then some n else none

def exponent : List Char → Option Int
  | [] => some 0
  | c :: cs =>
    if c = 'e' ∨ c = 'E' then
      match cs with
      | '-' :: digits => (allDigits digits).map fun n : Nat => -(n : Int)
      | '+' :: digits => (allDigits digits).map fun n : Nat => (n : Int)
      | digits => (allDigits digits).map fun n : Nat => (n : Int)
    else none

def numeralOf (cs : List Char) : Option Rat :=
  (mantissa cs).bind fun read => (exponent read.2).map fun e => read.1 * 10 ^ e

def unsignedOf (cs : List Char) : Option PyFloat :=
  let name := String.ofList (cs.map Char.toLower)
  if name = "inf" ∨ name = "infinity" then some (.inf false)
  else if name = "nan" then some .nan
  else (numeralOf cs).map PyFloat.nearest

/-- `float(s)`. -/
def floatOf (s : String) : Option PyFloat :=
  match (strip s).toList with
  | '-' :: cs => (unsignedOf cs).map PyFloat.neg
  | '+' :: cs => unsignedOf cs
  | cs => unsignedOf cs

/-! ## Reading what `:g` writes -/

/-- What the tables are documented to say of ASCII characters. -/
structure NumberTables : Prop where
  decimal_ascii : ∀ c : Char, c.toNat < 128 → Unicode.decimal c = if c.isDigit then some (c.toNat - 48) else none
  space_ascii : ∀ c : Char, 33 ≤ c.toNat → c.toNat < 127 → Unicode.isSpace c = false

variable (tables : NumberTables)

omit [Unicode] in
theorem digit_bounds {c : Char} (h : c.isDigit = true) : 48 ≤ c.toNat ∧ c.toNat ≤ 57 := by
  simp only [Char.isDigit, Bool.and_eq_true, decide_eq_true_eq] at h
  exact h

include tables in
theorem scanDigits_digit {c : Char} (h : c.isDigit = true) (n k : Nat) (cs : List Char) :
    scanDigits n k (c :: cs) = scanDigits (10 * n + (c.toNat - 48)) (k + 1) cs := by
  have hne : c ≠ '_' := by
    rintro rfl
    cases h
  have hdecimal : Unicode.decimal c = some (c.toNat - 48) := by
    rw [tables.decimal_ascii c (by have := digit_bounds h; omega), if_pos h]
  rw [scanDigits]
  · rw [hdecimal]
  · intro c' cs' heq
    exact absurd heq hne

/-- A point, an exponent or the end stops a run of digits. -/
def Stops (rest : List Char) : Prop := ∀ c ∈ rest.head?, c = '.' ∨ c = 'e'

include tables in
theorem scanDigits_append {digits : List Char} (rest : List Char) (hdigits : ∀ c ∈ digits, c.isDigit = true)
    (hrest : Stops rest) :
    ∀ n k, scanDigits n k (digits ++ rest) = (Nat.ofDigitChars 10 digits n, k + digits.length, rest) := by
  induction digits with
  | nil =>
    intro n k
    cases rest with
    | nil => rfl
    | cons c cs =>
      have hc : c = '.' ∨ c = 'e' := hrest c rfl
      have hnone : Unicode.decimal c = none := by
        rcases hc with rfl | rfl
        · rw [tables.decimal_ascii _ (by decide)]
          rfl
        · rw [tables.decimal_ascii _ (by decide)]
          rfl
      rw [List.nil_append, scanDigits]
      · rw [hnone]
        rfl
      · rintro c' cs' rfl
        rcases hc with h | h <;> cases h
  | cons c digits ih =>
    intro n k
    rw [List.cons_append, scanDigits_digit tables (hdigits c List.mem_cons_self),
      ih fun d hd => hdigits d (List.mem_cons_of_mem _ hd), Nat.ofDigitChars_cons, List.length_cons]
    congr 2
    omega

omit [Unicode] in
/-- The zeros at the end of a fraction are left out. -/
theorem fraction_eq (digits : List Char) : ∃ kept zeros, digits = kept ++ List.replicate zeros '0' ∧
    PyFloat.fraction digits = if kept = [] then [] else '.' :: kept := by
  refine ⟨digits.rdropWhile (· == '0'), (digits.rtakeWhile (· == '0')).length, ?_, ?_⟩
  · have hzeros : digits.rtakeWhile (· == '0') = List.replicate (digits.rtakeWhile (· == '0')).length '0' :=
      List.eq_replicate_iff.mpr ⟨rfl, fun c hc => by simpa using List.mem_rtakeWhile_imp hc⟩
    rw [← hzeros, List.rdropWhile_append_rtakeWhile]
  · unfold PyFloat.fraction
    split
    · rename_i h
      rw [if_pos h]
    · rename_i h
      rw [if_neg h]

include tables in
theorem mantissa_fraction (whole digits tail : List Char) (hwhole : ∀ c ∈ whole, c.isDigit = true) (hne : whole ≠ [])
    (hdigits : ∀ c ∈ digits, c.isDigit = true) (htail : ∀ c ∈ tail.head?, c = 'e') :
    mantissa (whole ++ (PyFloat.fraction digits ++ tail)) =
      some ((Nat.ofDigitChars 10 (whole ++ digits) 0 : Rat) / 10 ^ digits.length, tail) := by
  have hlength : whole.length ≠ 0 := fun h => hne (List.length_eq_zero_iff.mp h)
  obtain ⟨kept, zeros, hsplit, hfraction⟩ := fraction_eq digits
  have hvalue : (Nat.ofDigitChars 10 (whole ++ digits) 0 : Rat) / 10 ^ digits.length =
      (Nat.ofDigitChars 10 (whole ++ kept) 0 : Rat) / 10 ^ kept.length := by
    rw [hsplit, ← List.append_assoc, Nat.ofDigitChars_append, Nat.ofDigitChars_replicate_zero, List.length_append,
      List.length_replicate, pow_add]
    push_cast
    field_simp
  rw [hvalue, hfraction]
  by_cases hkept : kept = []
  · have hstops : Stops tail := fun c hc => .inr (htail c hc)
    rw [if_pos hkept, hkept, List.nil_append, List.append_nil, mantissa, scanDigits_append tables _ hwhole hstops,
      Nat.zero_add]
    split
    · rename_i heq
      obtain ⟨-, -, rfl⟩ := Prod.mk.inj heq |>.imp id Prod.mk.inj
      exact absurd (htail '.' rfl) (by decide)
    · rename_i heq
      obtain ⟨rfl, hrest⟩ := Prod.mk.inj heq
      obtain ⟨rfl, rfl⟩ := Prod.mk.inj hrest
      rw [if_neg hlength]
      simp
  · have hstops : Stops ('.' :: (kept ++ tail)) := fun c hc => .inl (Option.some.inj hc).symm
    have hdigits' : ∀ c ∈ kept, c.isDigit = true := fun c hc => hdigits c (hsplit ▸ List.mem_append_left _ hc)
    rw [if_neg hkept, List.cons_append, mantissa, scanDigits_append tables _ hwhole hstops]
    have hscan := scanDigits_append tables _ hdigits' (fun c hc => .inr (htail c hc)) (Nat.ofDigitChars 10 whole 0) 0
    show (if 0 + whole.length + (scanDigits (Nat.ofDigitChars 10 whole 0) 0 (kept ++ tail)).2.1 = 0 then none
      else some (((scanDigits (Nat.ofDigitChars 10 whole 0) 0 (kept ++ tail)).1 : Rat) /
        10 ^ (scanDigits (Nat.ofDigitChars 10 whole 0) 0 (kept ++ tail)).2.1,
        (scanDigits (Nat.ofDigitChars 10 whole 0) 0 (kept ++ tail)).2.2)) = _
    rw [hscan, if_neg (by omega), Nat.ofDigitChars_append, Nat.zero_add]

include tables in
theorem allDigits_append {digits : List Char} (hdigits : ∀ c ∈ digits, c.isDigit = true) (hne : digits ≠ []) :
    allDigits digits = some (Nat.ofDigitChars 10 digits 0) := by
  have hscan := scanDigits_append tables [] hdigits (fun _ h => by cases h) 0 0
  rw [List.append_nil, Nat.zero_add] at hscan
  unfold allDigits
  rw [hscan]
  dsimp only
  rw [if_pos ⟨fun h => hne (List.length_eq_zero_iff.mp h), rfl⟩]

omit [Unicode] in
theorem digits_ten (n : Nat) : ∀ c ∈ Nat.toDigits 10 n, c.isDigit = true := fun _ hc =>
  Nat.isDigit_of_mem_toDigits (by decide) (by decide) hc

omit [Unicode] in
theorem exponentDigits_digits (n : Nat) : (∀ c ∈ PyFloat.exponentDigits n, c.isDigit = true) ∧
    PyFloat.exponentDigits n ≠ [] ∧ Nat.ofDigitChars 10 (PyFloat.exponentDigits n) 0 = n := by
  unfold PyFloat.exponentDigits
  split
  · refine ⟨fun c hc => ?_, List.cons_ne_nil _ _, ?_⟩
    · rcases List.mem_cons.mp hc with rfl | hc
      · rfl
      · exact digits_ten n c hc
    · rw [Nat.ofDigitChars_cons]
      exact Nat.ofDigitChars_ten_toDigits
  · exact ⟨digits_ten n, Nat.toDigits_ne_nil, Nat.ofDigitChars_ten_toDigits⟩

include tables in
/-- The exponent that is written. -/
theorem exponent_written (e : Int) :
    exponent ('e' :: (if e < 0 then '-' else '+') :: PyFloat.exponentDigits e.natAbs) = some e := by
  obtain ⟨hdigits, hne, hvalue⟩ := exponentDigits_digits e.natAbs
  have hall := allDigits_append tables hdigits hne
  rw [hvalue] at hall
  by_cases he : e < 0
  · rw [if_pos he]
    show Option.map (fun n : Nat => -(n : Int)) (allDigits (PyFloat.exponentDigits e.natAbs)) = some e
    rw [hall, Option.map_some]
    congr 1
    omega
  · rw [if_neg he]
    show Option.map (fun n : Nat => (n : Int)) (allDigits (PyFloat.exponentDigits e.natAbs)) = some e
    rw [hall, Option.map_some]
    congr 1
    omega

omit [Unicode] in
theorem ten_pow_mul (n : Nat) (e : Int) : (10 : Rat) ^ n * 10 ^ (e - n) = 10 ^ e := by
  rw [← zpow_natCast, ← zpow_add₀ (by norm_num), add_sub_cancel]

omit [Unicode] in
/-- Six digits, the first of them no zero. -/
theorem sixDigits_bounds {q : Rat} (h : 0 < q) : 10 ^ 5 ≤ (PyFloat.sixDigits q).1 ∧ (PyFloat.sixDigits q).1 < 10 ^ 6 := by
  have hscale : (0 : Rat) < 10 ^ (Int.log 10 q - 5) := zpow_pos (by norm_num) _
  have hlow : (10 : Rat) ^ 5 ≤ q / 10 ^ (Int.log 10 q - 5) := by
    have hlog := Int.zpow_log_le_self (b := 10) (by decide) h
    have hpow : (10 : Rat) ^ 5 * 10 ^ (Int.log 10 q - 5) = 10 ^ Int.log 10 q := ten_pow_mul 5 _
    rw [le_div_iff₀ hscale, hpow]
    exact_mod_cast hlog
  have hhigh : q / 10 ^ (Int.log 10 q - 5) ≤ (10 : Rat) ^ 6 := by
    have hlog := (Int.lt_zpow_succ_log_self (b := 10) (by decide) q).le
    have hpow : (10 : Rat) ^ 6 * 10 ^ (Int.log 10 q + 1 - 6) = 10 ^ (Int.log 10 q + 1) := ten_pow_mul 6 _
    rw [div_le_iff₀ hscale, show Int.log 10 q - 5 = Int.log 10 q + 1 - 6 by ring, hpow]
    exact_mod_cast hlog
  have hround_low := le_roundEven (n := 10 ^ 5) (by exact_mod_cast hlow)
  have hround_high := roundEven_le (n := 10 ^ 6) (by exact_mod_cast hhigh)
  unfold PyFloat.sixDigits
  dsimp only
  split
  · exact ⟨Nat.le_refl _, by norm_num⟩
  · rename_i hne
    constructor
    · omega
    · dsimp only
      omega

include tables in
theorem numeralOf_formatPositive {q : Rat} (h : 0 < q) :
    numeralOf (PyFloat.formatPositive q) = some (PyFloat.sixFigures q) := by
  obtain ⟨hlow, hhigh⟩ := sixDigits_bounds h
  unfold PyFloat.formatPositive PyFloat.sixFigures
  generalize (PyFloat.sixDigits q).1 = m at hlow hhigh
  generalize (PyFloat.sixDigits q).2 = e
  have hlength : (Nat.toDigits 10 m).length = 6 := by
    have hle := (Nat.length_toDigits_le_iff (b := 10) (n := m) (k := 6) (by decide) (by decide)).mpr hhigh
    have hgt := mt (Nat.length_toDigits_le_iff (b := 10) (n := m) (k := 5) (by decide) (by decide)).mp (by omega)
    omega
  have hdigits := digits_ten m
  have hparts : ∀ k, (∀ c ∈ (Nat.toDigits 10 m).take k, c.isDigit = true) ∧
      (∀ c ∈ (Nat.toDigits 10 m).drop k, c.isDigit = true) ∧
      Nat.ofDigitChars 10 ((Nat.toDigits 10 m).take k ++ (Nat.toDigits 10 m).drop k) 0 = m := by
    intro k
    refine ⟨fun c hc => hdigits c (List.mem_of_mem_take hc), fun c hc => hdigits c (List.mem_of_mem_drop hc), ?_⟩
    rw [List.take_append_drop, Nat.ofDigitChars_ten_toDigits]
  have htake : ∀ k, 0 < k → (Nat.toDigits 10 m).take k ≠ [] := by
    intro k hk hnil
    have := congrArg List.length hnil
    rw [List.length_take, hlength, List.length_nil] at this
    omega
  dsimp only
  split
  · -- One digit before the point, and the exponent.
    obtain ⟨hwhole, hrest, hvalue⟩ := hparts 1
    have hread := mantissa_fraction tables _ _
      ('e' :: (if e < 0 then '-' else '+') :: PyFloat.exponentDigits e.natAbs) hwhole (htake 1 Nat.one_pos) hrest
      fun c hc => (Option.some.inj hc).symm
    rw [numeralOf, List.append_assoc, hread, Option.bind_some, exponent_written tables e, Option.map_some, hvalue,
      List.length_drop, hlength, Option.some.injEq]
    have hpow : (10 : Rat) ^ 5 * 10 ^ (e - 5) = 10 ^ e := ten_pow_mul 5 e
    rw [← hpow]
    field_simp
  · rename_i hfixed
    rw [not_or, not_lt, not_le] at hfixed
    split
    · -- Zeros after the point.
      rename_i hneg
      have hzeros : ∀ c ∈ List.replicate (-e - 1).toNat '0' ++ Nat.toDigits 10 m, c.isDigit = true := by
        intro c hc
        rcases List.mem_append.mp hc with hc | hc
        · rw [List.eq_of_mem_replicate hc]
          rfl
        · exact hdigits c hc
      have hread := mantissa_fraction tables ['0'] _ [] (by simp) (List.cons_ne_nil _ _) hzeros
        fun _ hc => by cases hc
      rw [List.append_nil, List.singleton_append] at hread
      rw [numeralOf, hread, Option.bind_some, exponent, Option.map_some, List.singleton_append, Nat.ofDigitChars_cons,
        Nat.ofDigitChars_append, Nat.ofDigitChars_replicate_zero, List.length_append, List.length_replicate, hlength,
        Option.some.injEq]
      have hshift : e - 5 = -(((-e - 1).toNat + 6 : Nat) : Int) := by
        push_cast
        omega
      rw [hshift, zpow_neg, zpow_natCast]
      simp [Nat.ofDigitChars_ten_toDigits, div_eq_mul_inv]
    · rename_i hnonneg
      obtain ⟨hwhole, hrest, hvalue⟩ := hparts (e.toNat + 1)
      have hread := mantissa_fraction tables _ _ [] hwhole (htake _ (Nat.succ_pos _)) hrest
        fun _ hc => by cases hc
      rw [List.append_nil] at hread
      rw [numeralOf, hread, Option.bind_some, exponent, Option.map_some, hvalue, List.length_drop, hlength,
        Option.some.injEq]
      have hshift : e - 5 = -((6 - (e.toNat + 1) : Nat) : Int) := by omega
      rw [hshift, zpow_neg, zpow_natCast, zpow_zero, mul_one, div_eq_mul_inv]

omit [Unicode] in
theorem fraction_chars {digits : List Char} (hdigits : ∀ c ∈ digits, c.isDigit = true) :
    ∀ c ∈ PyFloat.fraction digits, c.isDigit = true ∨ c = '.' := by
  obtain ⟨kept, zeros, hsplit, hfraction⟩ := fraction_eq digits
  rw [hfraction]
  intro c hc
  split at hc
  · cases hc
  · rcases List.mem_cons.mp hc with rfl | hc
    · exact .inr rfl
    · exact .inl (hdigits c (hsplit ▸ List.mem_append_left _ hc))

omit [Unicode] in
/-- A number is written in digits, with a point, an `e` and a sign at most, a digit first. -/
theorem formatPositive_chars (q : Rat) : (∀ c ∈ PyFloat.formatPositive q, c.isDigit = true ∨ c ∈ ['.', 'e', '-', '+']) ∧
    ∃ c cs, PyFloat.formatPositive q = c :: cs ∧ c.isDigit = true := by
  have hdigits := digits_ten (PyFloat.sixDigits q).1
  obtain ⟨first, rest, hfirst⟩ := List.exists_cons_of_ne_nil (Nat.toDigits_ne_nil (n := (PyFloat.sixDigits q).1) (b := 10))
  have hdigit : first.isDigit = true := hdigits first (hfirst ▸ List.mem_cons_self)
  have htake : ∀ k, ∀ c ∈ (Nat.toDigits 10 (PyFloat.sixDigits q).1).take k, c.isDigit = true :=
    fun k c hc => hdigits c (List.mem_of_mem_take hc)
  have hdrop : ∀ k, ∀ c ∈ PyFloat.fraction ((Nat.toDigits 10 (PyFloat.sixDigits q).1).drop k),
      c.isDigit = true ∨ c = '.' := fun k => fraction_chars fun c hc => hdigits c (List.mem_of_mem_drop hc)
  have hpoint : ∀ {c : Char}, c.isDigit = true ∨ c = '.' → c.isDigit = true ∨ c ∈ ['.', 'e', '-', '+'] := by
    rintro c (h | rfl)
    · exact .inl h
    · exact .inr List.mem_cons_self
  unfold PyFloat.formatPositive
  dsimp only
  split
  · refine ⟨fun c hc => ?_, first, _, by rw [hfirst]; rfl, hdigit⟩
    rw [List.append_assoc, List.mem_append, List.mem_append, List.mem_cons, List.mem_cons] at hc
    rcases hc with hc | hc | rfl | rfl | hc
    · exact .inl (htake 1 c hc)
    · exact hpoint (hdrop 1 c hc)
    · exact .inr (by simp)
    · split
      · exact .inr (by simp)
      · exact .inr (by simp)
    · exact .inl ((exponentDigits_digits _).1 c hc)
  · split
    · refine ⟨fun c hc => ?_, '0', _, rfl, rfl⟩
      rcases List.mem_cons.mp hc with rfl | hc
      · exact .inl rfl
      · refine hpoint (fraction_chars (fun c hc => ?_) c hc)
        rcases List.mem_append.mp hc with hc | hc
        · rw [List.eq_of_mem_replicate hc]
          rfl
        · exact hdigits c hc
    · refine ⟨fun c hc => ?_, first, _, by rw [hfirst]; rfl, hdigit⟩
      rcases List.mem_append.mp hc with hc | hc
      · exact .inl (htake _ c hc)
      · exact hpoint (hdrop _ c hc)

omit [Unicode] in
theorem stripBy_eq_self {p : Char → Bool} {cs : List Char} (h : ∀ c ∈ cs, p c = false) :
    stripBy p (String.ofList cs) = String.ofList cs := by
  have hkeep : ∀ l : List Char, (∀ c ∈ l, p c = false) → l.dropWhile p = l := by
    intro l hl
    cases l with
    | nil => rfl
    | cons c l => rw [List.dropWhile_cons, hl c List.mem_cons_self, if_neg Bool.false_ne_true]
  unfold stripBy
  rw [String.toList_ofList, hkeep cs h, hkeep cs.reverse fun c hc => h c (List.mem_reverse.mp hc), List.reverse_reverse]

include tables in
theorem strip_written {cs : List Char} (h : ∀ c ∈ cs, 33 ≤ c.toNat ∧ c.toNat < 127) :
    (strip (String.ofList cs)).toList = cs := by
  rw [strip, stripBy_eq_self fun c hc => tables.space_ascii c (h c hc).1 (h c hc).2, String.toList_ofList]

omit [Unicode] in
theorem formatPositive_printable (q : Rat) : ∀ c ∈ PyFloat.formatPositive q, 33 ≤ c.toNat ∧ c.toNat < 127 := by
  intro c hc
  rcases (formatPositive_chars q).1 c hc with hdigit | hother
  · have := digit_bounds hdigit
    omega
  · simp only [List.mem_cons, List.not_mem_nil, or_false] at hother
    rcases hother with rfl | rfl | rfl | rfl <;> decide

/-- What begins with a digit is no name. -/
theorem unsignedOf_digit {c : Char} {cs : List Char} (h : c.isDigit = true) :
    unsignedOf (c :: cs) = (numeralOf (c :: cs)).map PyFloat.nearest := by
  have hname : ∀ first rest, first.isDigit = false → String.ofList ((c :: cs).map Char.toLower) ≠
      String.ofList (first :: rest) := by
    intro first rest hfirst heq
    have hlist := String.ofList_injective heq
    have hlower : c.toLower = c := by
      have hbounds := digit_bounds h
      unfold Char.toLower
      rw [dif_neg]
      rintro ⟨hlow, -⟩
      have : 65 ≤ c.toNat := hlow
      omega
    rw [← (List.cons.inj hlist).1, hlower, h] at hfirst
    cases hfirst
  unfold unsignedOf
  dsimp only
  rw [if_neg, if_neg]
  · exact hname 'n' ['a', 'n'] rfl
  · rw [not_or]
    exact ⟨hname 'i' ['n', 'f'] rfl, hname 'i' ['n', 'f', 'i', 'n', 'i', 't', 'y'] rfl⟩

include tables in
theorem unsignedOf_formatPositive {q : Rat} (h : 0 < q) :
    unsignedOf (PyFloat.formatPositive q) = some (PyFloat.nearest (PyFloat.sixFigures q)) := by
  obtain ⟨-, c, cs, hcons, hdigit⟩ := formatPositive_chars q
  have hnumeral := numeralOf_formatPositive tables h
  rw [hcons] at hnumeral ⊢
  rw [unsignedOf_digit hdigit, hnumeral, Option.map_some]

omit [Unicode] in
theorem nearest_zero : PyFloat.nearest 0 = .finite 0 := by
  have hzero : roundEven (0 : Rat) = 0 := roundEven_intCast 0
  unfold PyFloat.nearest
  dsimp only
  rw [zero_div, hzero, Int.cast_zero, zero_mul, abs_zero, if_pos (by positivity)]

include tables in
theorem floatOf_unsigned {c : Char} {cs : List Char} (hprintable : ∀ d ∈ c :: cs, 33 ≤ d.toNat ∧ d.toNat < 127)
    (hc : c ≠ '-' ∧ c ≠ '+') : floatOf (String.ofList (c :: cs)) = unsignedOf (c :: cs) := by
  unfold floatOf
  rw [strip_written tables hprintable]
  split
  · rename_i h
    exact absurd (List.cons.inj h).1 hc.1
  · rename_i h
    exact absurd (List.cons.inj h).1 hc.2
  · rfl

include tables in
theorem floatOf_negated {cs : List Char} (hprintable : ∀ d ∈ cs, 33 ≤ d.toNat ∧ d.toNat < 127) :
    floatOf (String.ofList ('-' :: cs)) = (unsignedOf cs).map PyFloat.neg := by
  unfold floatOf
  rw [strip_written tables]
  · rfl
  · intro d hd
    rcases List.mem_cons.mp hd with rfl | hd
    · decide
    · exact hprintable d hd

omit [Unicode] in
theorem printable_of_all {cs : List Char} (h : (cs.all fun c => decide (33 ≤ c.toNat ∧ c.toNat < 127)) = true) :
    ∀ c ∈ cs, 33 ≤ c.toNat ∧ c.toNat < 127 := fun c hc => of_decide_eq_true (List.all_eq_true.mp h c hc)

include tables in
/-- What `:g` writes is read as the number that its six digits name. -/
theorem floatOf_formatG (x : PyFloat) : floatOf x.formatG = some x.written := by
  cases x with
  | nan =>
    show floatOf (String.ofList ['n', 'a', 'n']) = _
    rw [floatOf_unsigned tables (printable_of_all rfl) (by decide)]
    rfl
  | inf negative =>
    cases negative with
    | false =>
      show floatOf (String.ofList ['i', 'n', 'f']) = _
      rw [floatOf_unsigned tables (printable_of_all rfl) (by decide)]
      rfl
    | true =>
      show floatOf (String.ofList ['-', 'i', 'n', 'f']) = _
      rw [floatOf_negated tables (printable_of_all rfl)]
      rfl
  | finite q =>
    unfold PyFloat.formatG PyFloat.written
    dsimp only
    split
    · have hzero := mantissa_fraction tables ['0'] [] [] (by simp)
        (List.cons_ne_nil _ _) (fun _ hc => by cases hc) fun _ hc => by cases hc
      show floatOf (String.ofList ['0']) = _
      rw [floatOf_unsigned tables (printable_of_all rfl) (by decide), unsignedOf_digit rfl]
      have hnumeral : numeralOf ['0'] = some 0 := by
        rw [numeralOf]
        show Option.bind (mantissa (['0'] ++ (PyFloat.fraction [] ++ []))) _ = _
        rw [hzero]
        simp [exponent, Nat.ofDigitChars_cons]
      rw [hnumeral, Option.map_some, nearest_zero]
    · rename_i hne
      split
      · rename_i hneg
        rw [floatOf_negated tables (formatPositive_printable _), unsignedOf_formatPositive tables (by linarith),
          Option.map_some]
      · rename_i hnonneg
        obtain ⟨-, c, cs, hcons, hdigit⟩ := formatPositive_chars q
        have hread := unsignedOf_formatPositive tables (lt_of_le_of_ne (not_lt.mp hnonneg) (Ne.symm hne))
        have hprintable := formatPositive_printable q
        rw [hcons] at hread hprintable ⊢
        rw [floatOf_unsigned tables hprintable, hread]
        constructor
        · rintro rfl
          cases hdigit
        · rintro rfl
          cases hdigit

end

end WorkforceRisk.Evidence
