/-
  WorkforceRisk.Persistence.Dates — `isoformat` tells dates apart.

  The day of a date is found by its year, counted from March, and its day in that year:
  the four hundred years of an era start at known days (`era_day`), so the year, the
  month and the day name the date (`civil_inj`). Month and day take two places each, so
  the text names them (`isoformat_inj`).
-/

import WorkforceRisk.Persistence.Calendar

namespace WorkforceRisk.Persistence

/-! ## Numbers in decimal places -/

theorem ofDigitChars_zeros (n : Nat) (digits : List Char) :
    Nat.ofDigitChars 10 (List.replicate n '0' ++ digits) 0 = Nat.ofDigitChars 10 digits 0 := by
  induction n with
  | zero => rfl
  | succ n ih => exact ih

theorem zeros_digits_inj {i j m n : Nat}
    (h : List.replicate i '0' ++ Nat.toDigits 10 m = List.replicate j '0' ++ Nat.toDigits 10 n) : m = n := by
  have hvalue := congrArg (Nat.ofDigitChars 10 · 0) h
  simpa [ofDigitChars_zeros, Nat.ofDigitChars_ten_toDigits] using hvalue

theorem toList_padded (width : Nat) (n : Int) : ∃ zeros, (padded width n).toList =
    (if n < 0 then ['-'] else []) ++ (List.replicate zeros '0' ++ Nat.toDigits 10 n.natAbs) := by
  unfold padded
  split
  · exact ⟨_, by simp [Nat.toList_repr]; rfl⟩
  · exact ⟨_, by simp [Nat.toList_repr]; rfl⟩

/-- A digit is no sign. -/
theorem dash_notMem {zeros n : Nat} : '-' ∉ List.replicate zeros '0' ++ Nat.toDigits 10 n := by
  intro h
  rcases List.mem_append.mp h with h | h
  · exact absurd (List.eq_of_mem_replicate h) (by decide)
  · exact absurd (Nat.isDigit_of_mem_toDigits (by decide) (by decide) h) (by decide)

theorem padded_inj {width : Nat} {a b : Int} (h : padded width a = padded width b) : a = b := by
  obtain ⟨i, ha⟩ := toList_padded width a
  obtain ⟨j, hb⟩ := toList_padded width b
  rw [h, hb] at ha
  split at ha <;> split at ha
  · have := zeros_digits_inj (List.cons.inj ha).2
    omega
  · have hm : '-' ∈ List.replicate i '0' ++ Nat.toDigits 10 a.natAbs := by
      rw [← List.nil_append (_ ++ _), ← ha]
      exact List.mem_cons_self
    exact absurd hm dash_notMem
  · have hm : '-' ∈ List.replicate j '0' ++ Nat.toDigits 10 b.natAbs := by
      rw [← List.nil_append (_ ++ _), ha]
      exact List.mem_cons_self
    exact absurd hm dash_notMem
  · have := zeros_digits_inj ha
    omega

theorem length_padded_two {n : Int} (h : 0 ≤ n) (h' : n < 100) : (padded 2 n).toList.length = 2 := by
  have hdigits : n.natAbs.repr.length ≤ 2 := (Nat.length_repr_le_iff (by decide)).mpr (by omega)
  unfold padded
  simp only [if_neg (Int.not_lt.mpr h), String.toList_append, String.toList_ofList, List.length_append,
    List.length_replicate, Nat.toString_eq_repr, String.length_toList]
  omega

/-! ## The calendar -/

/-- The day of an era that begins a year of it. -/
def yearDay (y : Int) : Int := 365 * y + y / 4 - y / 100

/-- A century of an era counts its days in cycles of four years. -/
theorem century_day {d r : Int} (hd : 0 ≤ d) (hd' : d ≤ 3) (hr : 0 ≤ r) (hr' : r < 36524) :
    ∃ q k t, r = 1461 * q + 365 * k + t ∧ 0 ≤ q ∧ q ≤ 24 ∧ 0 ≤ k ∧ k ≤ 3 ∧ 0 ≤ t ∧ t ≤ 365 ∧
      (36524 * d + r - (36524 * d + r) / 1460 + d) / 365 = 100 * d + 4 * q + k := by
  obtain ⟨q, u, hru, hq, hq', hu, hu'⟩ : ∃ q u, r = 1461 * q + u ∧ 0 ≤ q ∧ q ≤ 24 ∧ 0 ≤ u ∧ u ≤ 1460 :=
    ⟨r / 1461, r % 1461, by omega, by omega, by omega, by omega, by omega⟩
  obtain ⟨s, hs, hs0, hs1, hsmall, hlarge⟩ : ∃ s, (r + 24 * d) / 1460 = q + s ∧ 0 ≤ s ∧ s ≤ 1 ∧
      (u < 1364 → s = 0) ∧ (u = 1460 → s = 1) :=
    ⟨(r + 24 * d) / 1460 - q, by omega, by omega, by omega, by omega, by omega⟩
  have hcycles : (36524 * d + r) / 1460 = 25 * d + (q + s) := by omega
  refine ⟨q, (u - s) / 365, u - 365 * ((u - s) / 365), by omega, hq, hq', by omega, by omega, by omega, by omega, ?_⟩
  rw [hcycles, hru]
  omega

theorem yearDay_century {d q k : Int} (hq : 0 ≤ q) (hq' : q ≤ 24) (hk : 0 ≤ k) (hk' : k ≤ 3) :
    yearDay (100 * d + 4 * q + k) = 36524 * d + 1461 * q + 365 * k := by
  have hfour : (100 * d + 4 * q + k) / 4 = 25 * d + q := by omega
  have hhundred : (100 * d + 4 * q + k) / 100 = d := by omega
  rw [yearDay, hfour, hhundred]
  omega

/-- The year of an era's day is one of four hundred, and the day is one of the year's. -/
theorem era_day {n : Int} (h : 0 ≤ n) (h' : n < 146097) :
    ∃ y, (n - n / 1460 + n / 36524 - n / 146096) / 365 = y ∧ 0 ≤ y ∧ y ≤ 399 ∧
      0 ≤ n - yearDay y ∧ n - yearDay y ≤ 365 := by
  by_cases hlast : n = 146096
  · exact ⟨399, by subst hlast; decide⟩
  -- a day before the era's last is of one of its four centuries
  have hn : n = 36524 * (n / 36524) + n % 36524 := by omega
  obtain ⟨q, k, t, hr, hq, hq', hk, hk', ht, ht', hyear⟩ :=
    century_day (d := n / 36524) (r := n % 36524) (by omega) (by omega) (by omega) (by omega)
  rw [← hn] at hyear
  have hera : n / 146096 = 0 := by omega
  refine ⟨100 * (n / 36524) + 4 * q + k, by rw [hera, Int.sub_zero, hyear], by omega, by omega, ?_⟩
  rw [yearDay_century hq hq' hk hk']
  omega

/-- The year, month and day of the day `n` of a year of an era. -/
def civilOf (era y n : Int) : Int × Int × Int :=
  let m := (5 * n + 2) / 153
  let month := if m < 10 then m + 3 else m - 9
  (if month ≤ 2 then y + era * 400 + 1 else y + era * 400, month, n - (153 * m + 2) / 5 + 1)

theorem civil_eq (d : Int) : ∃ era y n : Int, d + 719468 = 146097 * era + (yearDay y + n) ∧ 0 ≤ y ∧ y ≤ 399 ∧
    0 ≤ n ∧ n ≤ 365 ∧ Date.civil d = civilOf era y n := by
  have hmod : 0 ≤ (d + 719468) % 146097 ∧ (d + 719468) % 146097 < 146097 := by omega
  obtain ⟨y, hy, hy0, hy1, hn0, hn1⟩ := era_day hmod.1 hmod.2
  refine ⟨(d + 719468) / 146097, y, (d + 719468) % 146097 - yearDay y, by omega, hy0, hy1, hn0, hn1, ?_⟩
  rw [← hy]
  rfl

/-- The month and the day take two places. -/
theorem civil_places (d : Int) : (padded 2 (Date.civil d).2.1).toList.length = 2 ∧
    (padded 2 (Date.civil d).2.2).toList.length = 2 := by
  obtain ⟨era, y, n, -, -, -, hn, hn', hc⟩ := civil_eq d
  rw [hc]
  simp only [civilOf]
  refine ⟨?_, length_padded_two (by omega) (by omega)⟩
  split
  · exact length_padded_two (by omega) (by omega)
  · exact length_padded_two (by omega) (by omega)

/-- The month and the day give the day of the year, which begins in March. -/
theorem civilOf_inj {era y n era' y' n' : Int} (hn : 0 ≤ n ∧ n ≤ 365) (hn' : 0 ≤ n' ∧ n' ≤ 365)
    (hy : 0 ≤ y ∧ y ≤ 399) (hy' : 0 ≤ y' ∧ y' ≤ 399) (h : civilOf era y n = civilOf era' y' n') :
    era = era' ∧ y = y' ∧ n = n' := by
  simp only [civilOf, Prod.mk.injEq] at h
  obtain ⟨hyear, hmonth, hday⟩ := h
  have hm : (5 * n + 2) / 153 = (5 * n' + 2) / 153 := by
    split at hmonth <;> split at hmonth <;> omega
  rw [hm] at hday hyear
  have hn : n = n' := by omega
  refine ⟨?_, ?_, hn⟩ <;> split at hyear <;> omega

theorem civil_inj {d d' : Int} (h : Date.civil d = Date.civil d') : d = d' := by
  obtain ⟨era, y, n, hd, hy, hy', hn, hn', hc⟩ := civil_eq d
  obtain ⟨era', y', n', hd', hy₁, hy₁', hn₁, hn₁', hc'⟩ := civil_eq d'
  obtain ⟨rfl, rfl, rfl⟩ := civilOf_inj ⟨hn, hn'⟩ ⟨hn₁, hn₁'⟩ ⟨hy, hy'⟩ ⟨hy₁, hy₁'⟩ (hc.symm.trans (h.trans hc'))
  omega

theorem isoformat_inj {d d' : Date} (h : d.isoformat = d'.isoformat) : d = d' := by
  obtain ⟨hmonth, hday⟩ := civil_places d
  obtain ⟨hmonth', hday'⟩ := civil_places d'
  have hchars := congrArg String.toList h
  simp only [Date.isoformat, String.toList_append] at hchars
  obtain ⟨hchars, hd⟩ := List.append_inj' hchars (hday.trans hday'.symm)
  obtain ⟨hchars, -⟩ := List.append_inj' hchars rfl
  obtain ⟨hchars, hm⟩ := List.append_inj' hchars (hmonth.trans hmonth'.symm)
  obtain ⟨hy, -⟩ := List.append_inj' hchars rfl
  refine civil_inj (Prod.ext (padded_inj (String.toList_inj.mp hy)) (Prod.ext ?_ ?_))
  · exact padded_inj (String.toList_inj.mp hm)
  · exact padded_inj (String.toList_inj.mp hd)

end WorkforceRisk.Persistence
