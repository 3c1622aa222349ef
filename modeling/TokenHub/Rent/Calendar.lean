import TokenHub.Rent.Rows

set_option autoImplicit false

namespace TokenHub.Rent

open Lib.Digits

section Calendar

def isLeapYear (year : ℤ) : Bool := year % 4 = 0 ∧ (year % 100 ≠ 0 ∨ year % 400 = 0)

def monthLengths (year : ℤ) : List ℤ :=
  [31, if isLeapYear year then 29 else 28, 31, 30, 31, 30, 31, 31, 30, 31, 30, 31]

/-- `calendar.monthrange(year, month)[1]`. -/
def daysInMonth (year month : ℤ) : ℤ := ((monthLengths year)[(month - 1).toNat]?).getD 31

def daysBeforeYear (year : ℤ) : ℤ :=
  (year - 1) * 365 + (year - 1) / 4 - (year - 1) / 100 + (year - 1) / 400

structure CivilDate where
  year : ℤ
  month : ℤ
  day : ℤ
deriving DecidableEq, Repr

/-- `date.toordinal`: a calendar date is held as its day number from here on. -/
def toOrdinal (d : CivilDate) : ℤ :=
  daysBeforeYear d.year + ((monthLengths d.year).take (d.month - 1).toNat).sum + d.day

def monthAndDay : List ℤ → ℤ → ℤ → ℤ × ℤ
  | [], month, n => (month, n)
  | length :: lengths, month, n =>
    if n ≤ length then (month, n) else monthAndDay lengths (month + 1) (n - length)

def fromOrdinal (n : ℤ) : CivilDate :=
  let (n400, r400) := ((n - 1) / 146097, (n - 1) % 146097)
  let (n100, r100) := (r400 / 36524, r400 % 36524)
  let (n4, r4) := (r100 / 1461, r100 % 1461)
  let (n1, r1) := (r4 / 365, r4 % 365)
  let year := n400 * 400 + n100 * 100 + n4 * 4 + n1 + 1
  if n1 = 4 ∨ n100 = 4 then ⟨year - 1, 12, 31⟩
  else
    let (month, day) := monthAndDay (monthLengths year) 1 (r1 + 1)
    ⟨year, month, day⟩

example : fromOrdinal (toOrdinal ⟨2024, 2, 29⟩) = ⟨2024, 2, 29⟩ := by decide

end Calendar

section Text

def numberText (n : ℕ) : String := String.ofList (natText n)

def padded (width : ℕ) (n : ℕ) : String :=
  let digits := natText n
  String.ofList (List.replicate (width - digits.length) '0' ++ digits)

/-- `datetime.isoformat` of an instant of UTC. Day 719163 is the epoch's. -/
def isoFormat (t : Instant) : String :=
  let (days, micros) := (t / 86400000000, (t % 86400000000).toNat)
  let date := fromOrdinal (days + 719163)
  let seconds := micros / 1000000
  padded 4 date.year.toNat ++ "-" ++ padded 2 date.month.toNat ++ "-" ++
    padded 2 date.day.toNat ++ "T" ++ padded 2 (seconds / 3600) ++ ":" ++
    padded 2 (seconds / 60 % 60) ++ ":" ++ padded 2 (seconds % 60) ++
    (if micros % 1000000 = 0 then "" else "." ++ padded 6 (micros % 1000000)) ++ "+00:00"

example : isoFormat 86400000001 = "1970-01-02T00:00:00.000001+00:00" := by decide +kernel

/-- `str` of a `datetime`. -/
def datetimeText (t : Instant) : String := (isoFormat t).map (fun c ↦ if c = 'T' then ' ' else c)

def optDatetimeText : Option Instant → String
  | none => "None"
  | some t => datetimeText t

/-- `repr` of a string with nothing to escape. -/
def quoted (s : String) : String := "'" ++ s ++ "'"

end Text

end TokenHub.Rent
