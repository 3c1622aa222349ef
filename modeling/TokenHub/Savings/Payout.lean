import TokenHub.Economy.DoublingTime
import TokenHub.Lib.Rounding

set_option autoImplicit false

namespace TokenHub.Savings

open Lib.WallClock Time
open Economy (PayoutCadence Compounding SavingsAccrualDay Accrual creditSavingsInterest
  savingsCompounding)
open Lib.Decimals (inContext)
open Rent (Instant normalized toOrdinal)

section Windows

/-- The date that the key of a window is made of: its first day, or the first of its month. -/
def keyDateOf : PayoutCadence → ℤ → ℤ
  | .weekly, localStart => localStart
  | .monthly, localStart => (Period.month.days localStart).1

structure PayoutWindow where
  cadence : PayoutCadence
  keyDate : ℤ
  startUtc : Instant
  endUtc : Instant
deriving DecidableEq, Repr

variable (Z : Zone)

def payoutWindowContaining (cadence : PayoutCadence) (instantUtc : Instant) : PayoutWindow :=
  let days := cadence.period.days (localDate Z instantUtc)
  let start := startOfDate Z days.1
  ⟨cadence, keyDateOf cadence (localDate Z start), start, startOfDate Z days.2⟩

/-- The loop of `_window_day_plan`, from a day's start: each day's end, and whether the day begins
a compounding period. -/
def dayPlan (marker : Option Period) (stop : Instant) : ℕ → Instant → List (Instant × Bool)
  | 0, _ => []
  | fuel + 1, dayStart =>
    if dayStart < stop then
      let dayEnd := (evaluationDayBoundaries Z none dayStart).boundaryEndUtc
      (dayEnd, marker.any fun p ↦ startOfDate Z (p.days (localDate Z dayStart)).1 = dayStart) ::
        dayPlan marker stop fuel dayEnd
    else []

def windowDayPlan (marker : Option Period) (w : PayoutWindow) : List (Instant × Bool) :=
  dayPlan Z marker w.endUtc (localDate Z w.endUtc - localDate Z w.startUtc).toNat w.startUtc

end Windows

structure SavingsTerms where
  cadence : PayoutCadence
  compounding : Compounding
  marker : Option Period
deriving DecidableEq, Repr

def compoundingPeriod (calculationType compoundFrequency : Option String) : Option Period :=
  if normalized calculationType "simple" = "simple" then none
  else match normalized compoundFrequency "never" with
    | "weekly" => some .week
    | "monthly" => some .month
    | _ => none

/-- The terms that the columns of a policy stand for; `none` where one is not supported. -/
def savingsTerms (calculationType compoundFrequency payoutFrequency : Option String) :
    Option SavingsTerms :=
  match savingsCompounding calculationType compoundFrequency,
    normalized payoutFrequency "monthly" with
  | .ok c, "weekly" => some ⟨.weekly, c, compoundingPeriod calculationType compoundFrequency⟩
  | .ok c, "monthly" => some ⟨.monthly, c, compoundingPeriod calculationType compoundFrequency⟩
  | _, _ => none

section Ledger

/-- What follows the seat's prefix in the key of an interest row. The day of a month is not
written. -/
inductive InterestSuffix
  | window (cadence : PayoutCadence) (date : ℤ)
  | legacyMonth
  | unrecognised
deriving DecidableEq, Repr

def PayoutWindow.suffix (w : PayoutWindow) : InterestSuffix := .window w.cadence w.keyDate

/-- A savings row of one seat. `interest` is set for a row of type `Interest` under the seat's
prefix, `posted` for one that its account's cursor classifies as posted. -/
structure SavingsRow where
  amountCents : ℤ
  postedAt : Option Instant
  posted : Bool
  timestamp : Instant
  interest : Option InterestSuffix
deriving DecidableEq, Repr

variable (Z : Zone) (cadence : PayoutCadence)

def paidWindow (timestamp : Instant) : InterestSuffix → Option PayoutWindow
  | .window .weekly date => some (payoutWindowContaining Z .weekly (startOfDate Z date))
  | .window .monthly date =>
    some (payoutWindowContaining Z .monthly (startOfDate Z (Period.month.days date).1))
  | .legacyMonth => some (payoutWindowContaining Z cadence timestamp)
  | .unrecognised => none

def SavingsRow.window (r : SavingsRow) : Option PayoutWindow :=
  r.interest.bind (paidWindow Z cadence r.timestamp)

/-- From when on a row is part of the balance: an interest credit from the close of its window,
another effect from its posting. -/
def SavingsRow.entry (r : SavingsRow) : Option (Instant × ℤ) :=
  match r.window Z cadence with
  | some w => some (w.endUtc, r.amountCents)
  | none => if r.posted = true then r.postedAt.map (·, r.amountCents) else none

def later : Option Instant → Instant → Option Instant
  | none, t => some t
  | some latest, t => some (max latest t)

structure SavingsLedger where
  history : List (Instant × ℤ)
  paidKeys : List InterestSuffix
  paidThrough : Option Instant

def savingsLedger (rows : List SavingsRow) : SavingsLedger where
  history := (rows.filterMap (·.entry Z cadence)).insertionSort fun a b ↦ a.1 ≤ b.1
  paidKeys := rows.filterMap fun r ↦ if (r.window Z cadence).isSome = true then r.interest else none
  paidThrough := (rows.filterMap (·.window Z cadence)).foldl (fun t w ↦ later t w.endUtc) none

end Ledger

section Interest

def endOfDayBalances : List (Instant × ℤ) → ℤ → List Instant → List ℤ
  | _, _, [] => []
  | history, cents, dayEnd :: dayEnds =>
    let cents := cents + ((history.takeWhile (·.1 < dayEnd)).map (·.2)).sum
    cents :: endOfDayBalances (history.dropWhile (·.1 < dayEnd)) cents dayEnds

/-- One turn of the loop of `accrue_daily_interest`, whose operations round to the digits of the
`Decimal` context. -/
def decimalStep (c : Compounding) (s : Accrual ℚ) (day : SavingsAccrualDay ℚ) : Accrual ℚ :=
  let s := s.marked day.capitalizes
  match day.annualRate with
  | none => s
  | some rate =>
    if rate ≤ 0 then s
    else
      let base :=
        match c with
        | .never => day.endOfDayBalance
        | .daily => inContext (day.endOfDayBalance + s.accrued)
        | .weekly | .monthly => inContext (day.endOfDayBalance + s.capitalized)
      if 0 < base then
        { s with accrued := inContext (s.accrued + inContext (inContext (base * rate) / 365)) }
      else s

/-- `accrue_daily_interest`, in `Decimal`. -/
def decimalAccrual (c : Compounding) (days : List (SavingsAccrualDay ℚ)) : ℚ :=
  (days.foldl (decimalStep c) .zero).accrued

/-- Exactly these days earn half a cent, which the digits of the context fall short of. -/
example : decimalAccrual .never (List.replicate 6 ⟨111 / 20, some (1 / 20), false⟩ ++
    [⟨16 / 5, some (1 / 20), false⟩]) = 4999999999999999999999999999 / 10 ^ 30 := by
  decide +kernel

variable (Z : Zone) (terms : SavingsTerms) (claimedAt : Option Instant)
  (rateAt : Instant → Option ℚ)

def windowKeyedPayoutStart : ℤ := toOrdinal ⟨2026, 9, 28⟩

def accrualFloor (ledger : SavingsLedger) : Instant :=
  (ledger.history.head?.map (·.1)).toList.foldl max (claimedAt.toList.foldl max
    (ledger.paidThrough.toList.foldl max (startOfDate Z windowKeyedPayoutStart)))

/-- `_window_days`: a day that ends at or before `accrueAfter` earns nothing. -/
def windowDays (w : PayoutWindow) (history : List (Instant × ℤ)) (accrueAfter : Instant) :
    List (SavingsAccrualDay ℚ) :=
  let plan := windowDayPlan Z terms.marker w
  (plan.zip (endOfDayBalances history 0 (plan.map (·.1)))).map fun d ↦
    ⟨inContext (d.2 / 100), if accrueAfter < d.1.1 then rateAt d.1.1 else none, d.1.2⟩

def windowInterest (w : PayoutWindow) (history : List (Instant × ℤ)) (accrueAfter : Instant) : ℤ :=
  ⌊creditSavingsInterest (decimalAccrual terms.compounding
    (windowDays Z terms rateAt w history accrueAfter)) * 100⌋

def insort (entry : Instant × ℤ) (history : List (Instant × ℤ)) : List (Instant × ℤ) :=
  history.orderedInsert (fun a b ↦ a.1 ≤ b.1) entry

/-- The loop of `apply_savings_interest`, from a window on. -/
def payWindows (now : Instant) (paidKeys : List InterestSuffix) (accrueAfter : Instant) :
    ℕ → PayoutWindow → List (Instant × ℤ) → List (PayoutWindow × ℤ)
  | 0, _, _ => []
  | fuel + 1, w, history =>
    if now < w.endUtc then []
    else
      let next := payoutWindowContaining Z terms.cadence w.endUtc
      if w.suffix ∈ paidKeys then payWindows now paidKeys accrueAfter fuel next history
      else
        let cents := windowInterest Z terms rateAt w history accrueAfter
        if 0 < cents then
          (w, cents) :: payWindows now paidKeys accrueAfter fuel next
            (insort (w.endUtc, cents) history)
        else payWindows now paidKeys accrueAfter fuel next history

/-- A window that was paid, and the floor that its days had to end after. -/
structure Payout where
  window : PayoutWindow
  cents : ℤ
  accrueAfter : Instant
  paidAt : Instant
deriving DecidableEq, Repr

def Payout.row (p : Payout) : SavingsRow :=
  ⟨p.cents, none, false, p.paidAt, some p.window.suffix⟩

/-- `apply_savings_interest`. Each window takes a date at least, which bounds the loop. -/
def applySavingsInterest (everPositive : Bool) (now : Instant) (rows : List SavingsRow) :
    List Payout :=
  let ledger := savingsLedger Z terms.cadence rows
  if everPositive = false ∨ ledger.history = [] then []
  else
    let floor := accrualFloor Z claimedAt ledger
    (payWindows Z terms rateAt now ledger.paidKeys floor (localDate Z now - localDate Z floor).toNat
      (payoutWindowContaining Z terms.cadence floor) ledger.history).map fun paid ↦
        ⟨paid.1, paid.2, floor, now⟩

end Interest

end TokenHub.Savings
