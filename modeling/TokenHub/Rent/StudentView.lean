import TokenHub.Rent.LateFees

set_option autoImplicit false

namespace TokenHub.Rent

open Ledger Lib.Checks

structure RentPolicyProjection where
  amountDue : ℤ
  graceEnd : Option Instant
  lateFee : ℤ
  totalDue : ℤ
  remainingAmount : ℤ
  isSatisfied : Bool
  isPastDue : Bool
  isPreview : Bool
deriving DecidableEq, Repr

def buildRentPolicyProjection (settings : Option RentSettings) (dueDate : Instant)
    (graceBoundaryAt : Option Instant) (now : Instant) (totalPaid : ℤ) (hasWaiver : Bool) :
    RentPolicyProjection :=
  let amountDue := (settings.bind (·.rentAmount)).getD 0
  let pastGrace := graceBoundaryAt.any (fun grace ↦ decide (grace < now))
  let lateFee :=
    if pastGrace ∧ totalPaid < amountDue then (settings.bind (·.latePenaltyAmount)).getD 0 else 0
  let isSatisfied : Bool := hasWaiver || decide (amountDue ≤ totalPaid)
  { amountDue := amountDue, graceEnd := graceBoundaryAt, lateFee := lateFee,
    totalDue := amountDue + lateFee, remainingAmount := max 0 (amountDue - totalPaid),
    isSatisfied := isSatisfied, isPastDue := !isSatisfied && pastGrace,
    isPreview := !isSatisfied && decide (now < dueDate) }

structure LateFeeRow where
  correlationId : String
  sourceCorrelationId : Option String
  amountDue : ℤ
  amountPaid : ℤ
  remainingAmount : ℤ
  isPaid : Bool
  isPastDue : Bool
  dueDate : Instant
deriving DecidableEq, Repr

/-- One bill, as `current_period` has it. Keys that only repeat another are left out. -/
structure PeriodInfo where
  correlationId : String
  dueDate : Instant
  graceEnd : Option Instant
  graceLastDay : Option ℤ
  amountDue : ℤ
  amountPaid : ℤ
  balance : ℤ
  remainingAmount : ℤ
  totalDue : ℤ
  isPaid : Bool
  isWaived : Bool
  isPastDue : Bool
  isPreview : Bool
  daysUntilDue : Option ℤ
  daysOverdue : Option ℤ
  lateFee : ℤ
deriving DecidableEq, Repr

inductive PriorStatus
  | paid
  | waived
  | outstanding
deriving DecidableEq, Repr

structure PriorObligation where
  period : String
  amount : ℤ
  status : PriorStatus
  dueDate : Instant
  isPastDue : Bool
deriving DecidableEq, Repr

structure PaymentRow where
  date : Instant
  amount : ℤ
  type : EventType
  correlationId : String
deriving DecidableEq, Repr

structure ViewTotals where
  totalOwed : ℤ
  totalPaidAllTime : ℤ
  totalWaived : ℕ
deriving DecidableEq, Repr

structure ViewSettings where
  amountExpected : ℤ
  lateFee : Option ℤ
  gracePeriodDays : Option ℤ
  frequency : Option String
  allowIncrementalPayment : Bool
  customFrequencyValue : Option ℤ
  customFrequencyUnit : Option String
deriving DecidableEq, Repr

structure StatusCounts where
  satisfied : ℕ
  outstanding : ℕ
  pastDue : ℕ
deriving DecidableEq, Repr

/-- The late fees of the bill that is shown first, and what the two come to together. -/
structure BillGroup where
  lateFees : List LateFeeRow
  lateFeesDue : ℤ
  groupRemaining : ℤ
  groupIsPaid : Bool
deriving DecidableEq, Repr

structure StudentObligationView where
  seatId : ℕ
  classId : String
  currentBlock : String
  currentPeriod : PeriodInfo
  currentGroup : BillGroup
  priorObligations : List PriorObligation
  paymentHistory : List PaymentRow
  activeWaivers : List ObligationAssessment
  totals : ViewTotals
  settings : ViewSettings
  statusCounts : StatusCounts
  lateFees : List LateFeeRow
  lateFeesTotalDue : ℤ
deriving DecidableEq, Repr

section Readers

variable (S : RentState)

def recordedBefore (a b : ObligationAssessment) : Prop := a.timestamp ≤ b.timestamp

instance : DecidableRel recordedBefore := fun _ _ ↦ by unfold recordedBefore; infer_instance

/-- The assessments among `get_assessment_events_for_seat_class`, by their time of record. -/
def assessmentsOf (seatId : ℕ) (classId : String) (type : ObligationType) :
    List ObligationAssessment :=
  (S.assessmentEvents.filter (fun e ↦ e.seatId = seatId ∧ e.classId = classId ∧
    e.obligationType = type ∧ e.eventType = .assessment)).insertionSort recordedBefore

/-- The rents that are shown as bills: those that were not withdrawn. -/
def shownBills (seatId : ℕ) (classId : String) : List ObligationAssessment :=
  (assessmentsOf S seatId classId .rent).filter (fun a ↦
    getWithdrawalEvent S a.correlationId = none)

def isObligationPastDue (state : ObligationState) (now : Instant) : Bool :=
  decide (state.status = .outstanding ∧ state.dueAt < now)

def lateFeeRow (now : Instant) (a : ObligationAssessment) (state : ObligationState) :
    LateFeeRow where
  correlationId := a.correlationId
  sourceCorrelationId := a.sourceCorrelationId
  amountDue := state.assessedAmount
  amountPaid := state.satisfiedAmount
  remainingAmount := state.remainingAmount
  isPaid := state.status = .satisfied
  isPastDue := isObligationPastDue state now
  dueDate := state.dueAt

/-- `_build_late_fee_rows`: every late fee of the seat, and what is due on those not paid. An
assessment always has a state. -/
def buildLateFeeRows (seatId : ℕ) (classId : String) (now : Instant) : List LateFeeRow × ℤ :=
  let rows := (assessmentsOf S seatId classId .lateFee).filterMap (fun a ↦
    (getObligationState S a.correlationId).map (lateFeeRow now a))
  (rows.insertionSort (fun r s ↦ r.dueDate ≤ s.dueDate),
    ((rows.filter (·.isPaid = false)).map (·.remainingAmount)).sum)

def firstByDue (due : ObligationAssessment → Instant) :
    List ObligationAssessment → Option ObligationAssessment
  | [] => none
  | a :: as =>
    match firstByDue due as with
    | none => some a
    | some b => if due a ≤ due b then some a else some b

/-- `_select_current_assessment`: the oldest bill with something owing, else the bill of the
period in effect, else the newest. -/
def selectCurrentAssessment (classId : String) (bills : List ObligationAssessment)
    (lateFeeSourcesDue : List (Option String)) (now : Instant) :
    Except Raise (Option ObligationAssessment) := do
  let owing := bills.filter (fun a ↦
    (getObligationState S a.correlationId).any (·.status = .outstanding) ∨
      some a.correlationId ∈ lateFeeSourcesDue)
  match firstByDue (resolveAssessmentDueAt S) owing, bills.getLast? with
  | some a, _ => return some a
  | none, none => return none
  | none, some latest =>
    match billCycle S latest.billCycleId with
    | none => return some latest
    | some cycle =>
      let current ← getCurrentBillCycle S classId cycle.internalRef now
      return (current.bind fun c ↦ bills.find? (·.billCycleId = some c.id)).or (some latest)

variable (zone : ClassZone) (now : Instant)

def wholeDays (start later : Instant) : ℤ := (later - start) / 1000000 / 86400

def lastClassDayBefore (t : Instant) : ℤ := zone.localDate (t - 1000000)

def periodInfo (a : ObligationAssessment) : PeriodInfo :=
  let totalPaid := getPaidMagnitude S a.correlationId
  let hasWaiver := (getSatisfactionEvents S a.correlationId).any (·.eventType = .waived)
  let cycle := billCycle S a.billCycleId
  let dueDate := resolveAssessmentDueAt S a
  let p := buildRentPolicyProjection (rentPolicy S (cycle.bind (·.policyUuid))) dueDate
    (cycle.bind (·.graceBoundaryAt)) now totalPaid hasWaiver
  { correlationId := a.correlationId, dueDate := dueDate, graceEnd := p.graceEnd,
    graceLastDay := p.graceEnd.map (lastClassDayBefore zone), amountDue := p.amountDue,
    amountPaid := totalPaid, balance := p.amountDue + p.lateFee - totalPaid,
    remainingAmount := p.remainingAmount, totalDue := p.totalDue,
    isPaid := p.remainingAmount ≤ 0, isWaived := hasWaiver, isPastDue := p.isPastDue,
    isPreview := p.isPreview, daysUntilDue := if p.isPreview then some (wholeDays now dueDate) else none,
    daysOverdue := if p.isPastDue then p.graceEnd.map (wholeDays · now) else none,
    lateFee := p.lateFee }

def monthNames : List String :=
  ["January", "February", "March", "April", "May", "June", "July", "August", "September",
    "October", "November", "December"]

/-- `strftime('%B %Y')` of a calendar date. -/
def monthLabel (date : ℤ) : String :=
  let d := fromOrdinal date
  (monthNames[(d.month - 1).toNat]?).getD "" ++ " " ++ numberText d.year.toNat

def priorObligation (a : ObligationAssessment) : PriorObligation :=
  let p := periodInfo S zone now a
  { period := monthLabel (zone.localDate a.timestamp), amount := p.amountDue,
    status := if p.isPaid then .paid else if p.isWaived then .waived else .outstanding,
    dueDate := p.dueDate, isPastDue := p.isPastDue }

/-- The payments of positive amount and the waivers of one bill. -/
def historyOf (a : ObligationAssessment) : List PaymentRow :=
  ((getSatisfactionEvents S a.correlationId).insertionSort recordedBefore).filterMap (fun e ↦
    if e.eventType = .waived then some ⟨e.timestamp, 0, .waived, a.correlationId⟩
    else if 0 < paymentEventMagnitude S e then
      some ⟨e.timestamp, paymentEventMagnitude S e, .payment, a.correlationId⟩
    else none)

def waiversOf (a : ObligationAssessment) : List ObligationAssessment :=
  ((getSatisfactionEvents S a.correlationId).insertionSort recordedBefore).filter
    (·.eventType = .waived)

def countStatuses (infos : List PeriodInfo) : StatusCounts :=
  let satisfied (p : PeriodInfo) : Bool := p.isWaived || decide (p.amountDue ≤ p.amountPaid)
  { satisfied := (infos.filter satisfied).length
    outstanding := (infos.filter (fun p ↦ !satisfied p && !p.isPastDue)).length
    pastDue := (infos.filter (fun p ↦ !satisfied p && p.isPastDue)).length }

/-- The `settings` part, by the policy of the bill that is shown first. -/
def viewSettings (settings : Option RentSettings) : ViewSettings :=
  match settings with
  | none => ⟨0, none, some 0, some "monthly", false, none, none⟩
  | some r => ⟨r.rentAmount.getD 0, r.latePenaltyAmount, r.gracePeriodDays, r.frequencyType,
      r.allowIncrementalPayment, r.customFrequencyValue, r.customFrequencyUnit⟩

/-- The rent and the late fees of the bill that is shown first. -/
def billGroup (period : PeriodInfo) (feeRows : List LateFeeRow) : BillGroup :=
  let fees := feeRows.filter (·.sourceCorrelationId = some period.correlationId)
  let due := ((fees.filter (·.isPaid = false)).map (·.remainingAmount)).sum
  ⟨fees, due, period.remainingAmount + due, period.remainingAmount + due ≤ 0⟩

/-- `total_owed`: the balance of the bill that is shown first, and the amounts of the prior ones
that are outstanding. -/
def totalOwed (current : PeriodInfo) (priors : List PriorObligation) : ℤ :=
  current.balance + ((priors.filter (·.status = .outstanding)).map (·.amount)).sum

def buildStudentObligationView (seatId : ℕ) (classId currentBlock : String) :
    Except Raise (Option StudentObligationView) := do
  let bills := shownBills S seatId classId
  let (feeRows, feesDue) := buildLateFeeRows S seatId classId now
  match ← selectCurrentAssessment S classId bills
      ((feeRows.filter (·.isPaid = false)).map (·.sourceCorrelationId)) now with
  | none => return none
  | some current =>
    let period := periodInfo S zone now current
    let priors := (bills.filter (· ≠ current)).map (priorObligation S zone now)
    return some
      { seatId := seatId, classId := classId, currentBlock := currentBlock
        currentPeriod := period
        currentGroup := billGroup period feeRows
        priorObligations := priors
        paymentHistory := (bills.flatMap (historyOf S)).insertionSort (fun r s ↦ s.date ≤ r.date)
        activeWaivers := bills.flatMap (waiversOf S)
        totals := ⟨totalOwed period priors,
          (bills.map (fun a ↦ getPaidMagnitude S a.correlationId)).sum,
          (bills.flatMap (waiversOf S)).length⟩
        settings := viewSettings
          ((billCycle S current.billCycleId).bind (fun c ↦ rentPolicy S c.policyUuid))
        statusCounts := countStatuses (bills.map (periodInfo S zone now))
        lateFees := feeRows
        lateFeesTotalDue := feesDue }

end Readers

end TokenHub.Rent
