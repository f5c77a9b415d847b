/-
  WorkforceRisk.Persistence.Calendar — dates and aware datetimes of Python's `datetime`.

  A date is its day number, 1970-01-01 being 0, in the proleptic Gregorian calendar; an
  aware datetime is its instant and its offset from UTC, of which only `isoformat` and
  `date` read the offset. A time zone (`ZoneInfo`) is its offset at each instant.
-/

import WorkforceRisk.Persistence.Values

namespace WorkforceRisk.Persistence

abbrev Date := Int

namespace Date

/-- Monday is 0; 1970-01-01 was a Thursday. -/
def weekday (d : Date) : Int := (d + 3) % 7

def weekStart (d : Date) : Date := d - d.weekday

/-- The year, month and day of a date, counting years from March. -/
def civil (d : Date) : Int × Int × Int :=
  let z := d + 719468
  let era := z / 146097
  let dayOfEra := z % 146097
  let yearOfEra := (dayOfEra - dayOfEra / 1460 + dayOfEra / 36524 - dayOfEra / 146096) / 365
  let dayOfYear := dayOfEra - (365 * yearOfEra + yearOfEra / 4 - yearOfEra / 100)
  let m := (5 * dayOfYear + 2) / 153
  let month := if m < 10 then m + 3 else m - 9
  let year := yearOfEra + era * 400
  (if month ≤ 2 then year + 1 else year, month, dayOfYear - (153 * m + 2) / 5 + 1)

def isLeap (year : Int) : Bool := year % 4 == 0 && (year % 100 != 0 || year % 400 == 0)

def daysInMonth (year : Int) (month : Nat) : Nat :=
  if month = 2 then (if isLeap year then 29 else 28) else if month ∈ [4, 6, 9, 11] then 30 else 31

/-- `date(year, month, day)`. -/
def ofCivil (year : Int) (month day : Nat) : Except Error Date :=
  if ¬ (1 ≤ month ∧ month ≤ 12) then .error (.valueError "month must be in 1..12")
  else if ¬ (1 ≤ day ∧ day ≤ daysInMonth year month) then .error (.valueError "day is out of range for month")
  else
    let fromMarch : Int := if month ≤ 2 then year - 1 else year
    let yearOfEra := fromMarch % 400
    let dayOfYear := (153 * (if month ≤ 2 then month + 9 else month - 3) + 2) / 5 + day - 1
    .ok (fromMarch / 400 * 146097 + yearOfEra * 365 + yearOfEra / 4 - yearOfEra / 100 + dayOfYear - 719468)

/-- The instant a date begins, in UTC. -/
def midnight (d : Date) : DateTime := d * 86400000000

end Date

/-- A number in `width` decimal places, a sign being one of them. -/
def padded (width : Nat) (n : Int) : String :=
  let digits := toString n.natAbs
  if n < 0 then "-" ++ String.ofList (List.replicate (width - 1 - digits.length) '0') ++ digits
  else String.ofList (List.replicate (width - digits.length) '0') ++ digits

def Date.isoformat (d : Date) : String :=
  let (year, month, day) := d.civil
  padded 4 year ++ "-" ++ padded 2 month ++ "-" ++ padded 2 day

example : Date.isoformat 20689 = "2026-08-24" ∧ Date.isoformat 11016 = "2000-02-29" := by decide +kernel

example : (Date.ofCivil 2026 8 24).toOption = some 20689 ∧ (Date.ofCivil 2000 2 29).toOption = some 11016 := by
  decide +kernel

structure AwareDatetime where
  instant : DateTime
  offset : Duration
  deriving DecidableEq, Repr

/-- Seconds and microseconds of a time; whole seconds show no fraction. -/
def secondsText (us : Int) : String :=
  padded 2 (us / 1000000 % 60) ++ if us % 1000000 = 0 then "" else "." ++ padded 6 (us % 1000000)

def offsetText (offset : Duration) : String :=
  let us : Int := offset.natAbs
  (if offset < 0 then "-" else "+") ++ padded 2 (us / 3600000000) ++ ":" ++ padded 2 (us / 60000000 % 60) ++
    if us % 60000000 = 0 then "" else ":" ++ secondsText us

namespace AwareDatetime

/-- The date its own clock shows. -/
def date (t : AwareDatetime) : Date := (t.instant + t.offset) / 86400000000

/-- The date and the time its own clock shows. -/
def localText (t : AwareDatetime) : String :=
  let us := (t.instant + t.offset) % 86400000000
  t.date.isoformat ++ "T" ++ padded 2 (us / 3600000000) ++ ":" ++ padded 2 (us / 60000000 % 60) ++ ":" ++ secondsText us

def isoformat (t : AwareDatetime) : String := t.localText ++ offsetText t.offset

/-- As a model dumps it to JSON: UTC is `Z`. -/
def dumped (t : AwareDatetime) : String := t.localText ++ if t.offset = 0 then "Z" else offsetText t.offset

example : isoformat ⟨1787558100000000, 10800000000⟩ = "2026-08-24T10:55:00+03:00" := by decide +kernel

end AwareDatetime

/-- `ZoneInfo(name)`. -/
abbrev ZoneInfo := DateTime → Duration

/-- `moment.astimezone(zone).date()`. -/
def AwareDatetime.dateIn (t : AwareDatetime) (zone : ZoneInfo) : Date := date ⟨t.instant, zone t.instant⟩

end WorkforceRisk.Persistence
