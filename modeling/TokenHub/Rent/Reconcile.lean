import TokenHub.Rent.Schedule

set_option autoImplicit false

namespace TokenHub.Rent

open Ledger Lib.Checks Lib.Digits Lib.Json

def rentLineage (classId : String) : String := "rent:" ++ classId

def seatLineage (classId : String) (seatId : ℕ) : String :=
  rentLineage classId ++ ":" ++ numberText seatId

def rentCorrelation (classId : String) (seatId cycleNumber : ℕ) : String :=
  seatLineage classId seatId ++ ":cycle:" ++ numberText cycleNumber

def lateLineage (classId : String) (seatId : ℕ) : String := seatLineage classId seatId ++ ":late"

def lateCorrelation (rentCorrelationId : String) (n : ℕ) : String :=
  rentCorrelationId ++ ":late:" ++ numberText n

section Succession

structure ScheduleNextBillCycleRequest where
  classId : String
  internalRef : String
  cycleBoundaryAt : Instant
  nextAssessmentAt : Instant
  graceBoundaryAt : Option Instant
  policyUuid : Option String
  idempotencyKey : String
  referenceTimeUtc : Instant

def instantField : Option Instant → Value
  | none => .null
  | some t => .str (isoFormat t)

variable (sha256 : String → String) (zone : ClassZone)

/-- `_fingerprint`: the caller's intent, its keys sorted. -/
def successionFingerprint (q : ScheduleNextBillCycleRequest) : String :=
  digest sha256 (.obj [("cycle_boundary_at", instantField (some q.cycleBoundaryAt)),
    ("grace_boundary_at", instantField q.graceBoundaryAt), ("internal_ref", .str q.internalRef),
    ("next_assessment_at", instantField (some q.nextAssessmentAt)),
    ("policy_uuid", optText q.policyUuid), ("source_version_id", .null)])

/-- The cycle that an eligible request creates, one after the lineage's latest. -/
def successor (S : RentState) (q : ScheduleNextBillCycleRequest) (number : ℕ) : BillCycle where
  id := S.billCycles.length + 1
  classId := q.classId
  internalRef := q.internalRef
  cycleNumber := number
  policyUuid := q.policyUuid
  cycleBoundaryAt := q.cycleBoundaryAt
  nextAssessmentAt := some q.nextAssessmentAt
  graceBoundaryAt := q.graceBoundaryAt

section Refusals

def successionReplayMismatch (key : String) : Raise :=
  .domainError "SuccessionReplayMismatchError" ("schedule_next_bill_cycle identity '" ++ key ++
    "' was already executed with different terms; refusing to replay or re-execute.")

def successionAfterTerminal (internalRef : String) (cycleNumber : ℕ) : Raise :=
  .domainError "SuccessionAfterTerminalError" ("lineage '" ++ internalRef ++
    "' is terminated at cycle " ++ numberText cycleNumber ++
    "; succession after a terminal cycle is unlawful.")

def successionNotDue (internalRef : String) (cycleNumber : ℕ) (next : Option Instant)
    (reference : Instant) : Raise :=
  .domainError "SuccessionNotDueError" ("lineage '" ++ internalRef ++ "' cycle " ++
    numberText cycleNumber ++ " is next assessed at " ++ optDatetimeText next ++
    "; succession is not due at " ++ datetimeText reference ++ ".")

def successionConflict (internalRef : String) (cycleNumber : ℕ) (key : String) : Raise :=
  .domainError "SuccessionConflictError" ("cycle " ++ numberText cycleNumber ++ " of lineage '" ++
    internalRef ++ "' was created by a different command; '" ++ key ++
    "' does not replay it and does not advance past it.")

def nextNotAfterBoundary (next boundary : Instant) : Raise :=
  .valueError ("next_assessment_at must be strictly after cycle_boundary_at (" ++
    datetimeText next ++ " <= " ++ datetimeText boundary ++ ")")

def lifecycleError (message : String) : Raise := .domainError "BillCycleLifecycleError" message

def nothingToTerminate (internalRef : String) : Raise :=
  lifecycleError ("terminate_bill_cycle requires an existing cycle for lineage '" ++ internalRef ++
    "'; nothing to terminate.")

def scopeMismatch (internalRef cycleClassId classId : String) : Raise :=
  lifecycleError ("class scope mismatch for lineage '" ++ internalRef ++
    "': cycle belongs to class " ++ cycleClassId ++ ", not " ++ classId ++ ".")

end Refusals

def nextCycleNumber (internalRef : String) (reference : Instant) :
    SuccessionEligibility → Except Raise ℕ
  | .empty => .ok 1
  | .due latest _ => .ok (latest.cycleNumber + 1)
  | .notDue latest => .error
    (successionNotDue internalRef latest.cycleNumber latest.nextAssessmentAt reference)
  | .terminal latest => .error (successionAfterTerminal internalRef latest.cycleNumber)

/-- `schedule_next_bill_cycle`. A known identity replays before eligibility is looked at. -/
def scheduleNextBillCycle (S : RentState) (q : ScheduleNextBillCycleRequest) :
    Except Raise (BillCycle × RentState) := do
  require (q.classId ≠ "" ∧ q.internalRef ≠ "")
    (.valueError "schedule_next_bill_cycle requires class_id and internal_ref.")
  require (¬ isBlank q.idempotencyKey)
    (.valueError
      "schedule_next_bill_cycle requires a non-empty idempotency_key (command identity).")
  require (q.idempotencyKey.length ≤ 255)
    (.valueError "schedule_next_bill_cycle idempotency_key exceeds 255 characters.")
  match S.successions.find? (fun r ↦
      r.classId = q.classId ∧ r.idempotencyKey = q.idempotencyKey) with
  | some r =>
    require (r.replayFingerprint = successionFingerprint sha256 q)
      (successionReplayMismatch q.idempotencyKey)
    let cycle ← demand (billCycle S (some r.billCycleId)) (.runtimeError "no such bill cycle")
    return (cycle, S)
  | none =>
    require (q.cycleBoundaryAt < q.nextAssessmentAt)
      (nextNotAfterBoundary q.nextAssessmentAt q.cycleBoundaryAt)
    let number ← nextCycleNumber q.internalRef q.referenceTimeUtc
      (getSuccessionEligibility S zone q.classId q.internalRef q.referenceTimeUtc)
    require (∀ c ∈ S.billCycles, ¬ (c.internalRef = q.internalRef ∧ c.cycleNumber = number))
      (successionConflict q.internalRef number q.idempotencyKey)
    let cycle := successor S q number
    let reservation : ObligationCommandReservation :=
      { classId := q.classId, idempotencyKey := q.idempotencyKey,
        replayFingerprint := successionFingerprint sha256 q, billCycleId := cycle.id }
    return (cycle, { S with billCycles := S.billCycles ++ [cycle],
                            successions := S.successions ++ [reservation] })

end Succession

structure ReconcileRentRequest where
  classId : String
  referenceTimeUtc : Option Instant := none
  idempotencyKey : Option String := none

structure ReconcileRentResult where
  reason : String
  cyclesCreated : List ℕ := []
  assessmentsCreated : ℕ := 0
  perksExpired : ℕ := 0
  lateFeesCreated : ℕ := 0
  unresolvedPolicyCycles : List ℕ := []
deriving DecidableEq, Repr

def maxCatchupCycles : ℕ := 120

def maxLateFeePeriods : ℕ := 60

section Assessment

def rentRoster (S : RentState) (classId : String) : List Seat :=
  (S.seats.filter (fun s ↦ s.classId = classId ∧ s.role = "student" ∧ s.claimedAt.isSome ∧
    s.hasReceivedRentExemption = false)).insertionSort (fun a b ↦ a.id ≤ b.id)

def countNew (created : Bool) : ℕ := if created then 1 else 0

def assessCycle (clock : Instant) (settings : RentSettings) (classId : String) (cycle : BillCycle)
    (S : RentState) : Except Raise (ℕ × RentState) :=
  tally (fun S seat ↦ do
    let (created, S') ← assessObligation S clock
      { seatId := seat.id, classId := classId, internalRef := seatLineage classId seat.id,
        correlationId := rentCorrelation classId seat.id cycle.cycleNumber,
        obligationType := .rent, policyUuid := some settings.policyUuid,
        billCycleId := some cycle.id }
    return (countNew created, S')) S (rentRoster S classId)

variable (zone : ClassZone)

/-- The class-local midnights from the grace date on that have come, counted from `periods`. -/
def lateFeePeriodsFrom (graceDate frequency : ℤ) (now : Instant) : ℕ → ℕ → ℕ
  | 0, periods => periods
  | left + 1, periods =>
    if now < zone.startOfDate (graceDate + frequency * periods) then periods
    else lateFeePeriodsFrom graceDate frequency now left (periods + 1)

def lateFeePeriodsElapsed (settings : RentSettings) (graceBoundaryAt now : Instant) : ℕ :=
  if normalized settings.latePenaltyType "once" ≠ "recurring" then 1
  else
    let frequency := settings.latePenaltyFrequencyDays.getD 0
    if frequency ≤ 0 then 1
    else if now < graceBoundaryAt then 0
    else lateFeePeriodsFrom zone (zone.localDate graceBoundaryAt) frequency now
      (maxLateFeePeriods - 1) 1

/-- `_assess_late_fees`: once a rent is paid or waived, no further fee accrues on it. -/
def assessLateFees (clock : Instant) (settings : RentSettings) (classId : String)
    (cycle : BillCycle) (now : Instant) (S : RentState) : Except Raise (ℕ × RentState) :=
  match settings.latePenaltyAmount, cycle.graceBoundaryAt with
  | some penalty, some grace =>
    if penalty ≤ 0 ∨ now ≤ grace then return (0, S)
    else
      let periods := lateFeePeriodsElapsed zone settings grace now
      tally (fun S seat ↦
        let rentCorr := rentCorrelation classId seat.id cycle.cycleNumber
        if (getObligationState S rentCorr).any (·.status = .outstanding) then
          tally (fun S n ↦ do
            let (created, S') ← assessObligation S clock
              { seatId := seat.id, classId := classId,
                internalRef := lateLineage classId seat.id,
                correlationId := lateCorrelation rentCorr n, obligationType := .lateFee,
                policyUuid := some settings.policyUuid, billCycleId := some cycle.id,
                sourceCorrelationId := some rentCorr }
            return (countNew created, S')) S ((List.range periods).map (· + 1))
        else return (0, S)) S (rentRoster S classId)
  | _, _ => return (0, S)

end Assessment

section PeriodPerks

variable (env : Surroundings) (clock : Instant)

def rentAssessmentsOf (S : RentState) (cycleId : ℕ) : List ObligationAssessment :=
  S.assessmentEvents.filter (fun e ↦ e.billCycleId = some cycleId ∧ e.eventType = .assessment ∧
    e.obligationType = .rent)

def expirePriorCyclePerks (classId : String) (actorSeatId : ℕ) (S : RentState) (cycle : BillCycle) :
    Except Raise (ℕ × RentState) :=
  tally (fun S a ↦ return expireRentPerks env clock actorSeatId classId S a.correlationId) S
    (rentAssessmentsOf S cycle.id)

def expireEndedPeriodPerks (classId : String) (now : Instant) (S : RentState) :
    Except Raise (ℕ × RentState) :=
  tally (fun S cycle ↦ do
    let actorSeatId ← env.teacherSeat classId
    expirePriorCyclePerks env clock classId actorSeatId S cycle) S
    ((getBillCyclesForInternalRef S (rentLineage classId)).filter (fun c ↦
      c.classId = classId ∧ c.nextAssessmentAt.any (fun next ↦ decide (next ≤ now))))

def grantPeriodStartPerks (classId : String) (cycle : BillCycle) (S : RentState) :
    Except Raise (ℕ × RentState) :=
  tally (fun S a ↦
    if (getObligationState S a.correlationId).any
        (fun st ↦ decide (st.status = .satisfied ∧ st.isWaived = false)) ∧
        perksAlreadyGranted S classId a.correlationId = false ∧
        S.ledger.seatClass a.seatId = some classId then
      match rentPolicy S a.policyUuid with
      | none => return (0, S)
      | some settings =>
        awardSatisfactionPerks env clock S settings classId a.seatId a.correlationId
    else return (0, S)) S (rentAssessmentsOf S cycle.id)

end PeriodPerks

/-- `_cycle_terms`: a cycle that froze a policy is never billed on another. -/
def cycleTerms (S : RentState) (classId : String) (cycle : BillCycle) (current : RentSettings) :
    Option RentSettings :=
  if cycle.policyUuid.getD "" = "" then some current
  else (rentPolicy S cycle.policyUuid).filter (·.classId = classId)

def noteUnresolved (res : ReconcileRentResult) (cycle : BillCycle) : ReconcileRentResult :=
  if cycle.cycleNumber ∈ res.unresolvedPolicyCycles then res
  else { res with unresolvedPolicyCycles := res.unresolvedPolicyCycles ++ [cycle.cycleNumber] }

section Reconcile

variable (sha256 : String → String) (zone : ClassZone) (env : Surroundings) (clock : Instant)

structure RunTerms where
  classId : String
  now : Instant
  settings : RentSettings
  runIdentity : String

/-- The command identity of a succession: the run, and the cycle that it is evaluated against. -/
def successionKey (run : String) (after : ℕ) : String := run ++ ":after:" ++ numberText after

/-- The first due date, or the class-local date at which the latest cycle ends. -/
def dueLocalDate (t : RunTerms) : Option (BillCycle × Instant) → Except Raise ℤ
  | none => firstDueLocalDate zone t.settings t.now
  | some (_, next) => .ok (zone.localDate next)

/-- One succession of the lineage. `none` where a recorded disablement prevents the period. -/
def succeed (t : RunTerms) (S : RentState) (latest : Option (BillCycle × Instant)) :
    Except Raise (Option (BillCycle × RentState)) := do
  let due ← dueLocalDate zone t latest
  let schedule ← resolveCycleSchedule zone t.settings due
  if rentDisabledForPeriod S t.classId schedule.cycleBoundaryAt t.now then return none
  else
    let after := ((latest.map (·.1.cycleNumber)).getD 0)
    let created ← scheduleNextBillCycle sha256 zone S
      { classId := t.classId, internalRef := rentLineage t.classId,
        cycleBoundaryAt := schedule.cycleBoundaryAt,
        nextAssessmentAt := schedule.nextAssessmentAt,
        graceBoundaryAt := schedule.graceBoundaryAt, policyUuid := some t.settings.policyUuid,
        idempotencyKey := successionKey t.runIdentity after,
        referenceTimeUtc := t.now }
    return some created

def catchUp (t : RunTerms) : ℕ → RentState → ReconcileRentResult →
    Except Raise (ReconcileRentResult × RentState)
  | left, S, res =>
    match getSuccessionEligibility S zone t.classId (rentLineage t.classId) t.now with
    | .due latest next =>
      match left with
      | 0 => return ({ res with reason := "CATCHUP_BOUND_EXCEEDED" }, S)
      | left + 1 => do
        match ← succeed sha256 zone t S (some (latest, next)) with
        | none => return (res, S)
        | some (cycle, S') =>
          catchUp t left S' { res with
            reason := if res.reason = "NOOP" then "ADVANCED" else res.reason
            cyclesCreated := res.cyclesCreated ++ [cycle.cycleNumber] }
    | _ => return (res, S)

/-- The succession loop of a run. An empty lineage is succeeded once, outside the bound. -/
def advanceLineage (t : RunTerms) (S : RentState) (res : ReconcileRentResult) :
    Except Raise (ReconcileRentResult × RentState) :=
  match getSuccessionEligibility S zone t.classId (rentLineage t.classId) t.now with
  | .empty => do
    match ← succeed sha256 zone t S none with
    | none => return (res, S)
    | some (cycle, S') =>
      catchUp sha256 zone t maxCatchupCycles S' { res with
        reason := "CREATED_INITIAL", cyclesCreated := res.cyclesCreated ++ [cycle.cycleNumber] }
  | _ => catchUp sha256 zone t maxCatchupCycles S res

/-- The cycle that is assessed in advance: the latest, where its period has not begun. -/
def upcomingCycle (S : RentState) (classId : String) (now : Instant) (current : Option BillCycle) :
    Option BillCycle :=
  (getLatestBillCycle S (rentLineage classId)).filter (fun c ↦
    c.nextAssessmentAt.isSome ∧ (∀ d ∈ current, c.id ≠ d.id) ∧ now < c.cycleBoundaryAt)

def assessRoster (t : RunTerms) (res : ReconcileRentResult) (S : RentState) (cycle : BillCycle) :
    Except Raise (ReconcileRentResult × RentState) :=
  match cycleTerms S t.classId cycle t.settings with
  | none => return (noteUnresolved res cycle, S)
  | some settings => do
    let (n, S') ← assessCycle clock settings t.classId cycle S
    return ({ res with
      assessmentsCreated := res.assessmentsCreated + n
      reason := if n ≠ 0 ∧ res.reason = "NOOP" then "ROSTER_BACKFILLED" else res.reason }, S')

def assessRosters (t : RunTerms) : ReconcileRentResult → RentState → List BillCycle →
    Except Raise (ReconcileRentResult × RentState)
  | res, S, [] => return (res, S)
  | res, S, cycle :: cycles => do
    let (res', S') ← assessRoster clock t res S cycle
    assessRosters t res' S' cycles

def accrueLateFees (t : RunTerms) : ReconcileRentResult → RentState → List BillCycle →
    Except Raise (ReconcileRentResult × RentState)
  | res, S, [] => return (res, S)
  | res, S, cycle :: cycles =>
    match cycleTerms S t.classId cycle t.settings with
    | none => accrueLateFees t (noteUnresolved res cycle) S cycles
    | some settings => do
      let (n, S') ← assessLateFees zone clock settings t.classId cycle t.now S
      accrueLateFees t { res with lateFeesCreated := res.lateFeesCreated + n } S' cycles

def currentPeriodPerks (classId : String) (current : Option BillCycle) (S : RentState) :
    Except Raise (ℕ × RentState) :=
  match current with
  | none => return (0, S)
  | some cycle => grantPeriodStartPerks env clock classId cycle S

def lateFeesReason (res : ReconcileRentResult) : ReconcileRentResult :=
  if res.lateFeesCreated ≠ 0 ∧ res.reason = "NOOP" then
    { res with reason := "LATE_FEES_ASSESSED" }
  else res

def settleRun (t : RunTerms) (enabled : Bool) (res : ReconcileRentResult) (S : RentState) :
    Except Raise (ReconcileRentResult × RentState) := do
  let current ← getCurrentBillCycle S t.classId (rentLineage t.classId) t.now
  let assessed :=
    if enabled then current.toList ++ (upcomingCycle S t.classId t.now current).toList else []
  let (res, S) ← assessRosters clock t res S assessed
  let (expired, S) ← expireEndedPeriodPerks env clock t.classId t.now S
  let (_, S) ← currentPeriodPerks env clock t.classId current S
  let (res, S) ← accrueLateFees zone clock t { res with perksExpired := expired } S
    (getBillCyclesForInternalRef S (rentLineage t.classId))
  return (lateFeesReason res, S)

/-- A run is named by its caller, or by its class and the instant that it reconciles to. -/
def runIdentity (q : ReconcileRentRequest) (now : Instant) : String :=
  let key := q.idempotencyKey.getD ""
  if key = "" then "rent-reconcile:" ++ q.classId ++ ":" ++ isoFormat now else key

/-- `reconcile_rent`. The feature gate and the stamps of the writes go by the clock, all else by
the reference time. -/
def reconcileRent (S : RentState) (q : ReconcileRentRequest) :
    Except Raise (ReconcileRentResult × RentState) := do
  require (q.classId ≠ "") (.valueError "reconcile_rent requires class_id")
  let now := q.referenceTimeUtc.getD clock
  let enabled := isRentEnabled S q.classId clock
  match getRentSettings S q.classId with
  | none => return ({ reason := if enabled then "NO_SETTINGS" else "RENT_DISABLED" }, S)
  | some settings =>
    let t : RunTerms :=
      { classId := q.classId, now := now, settings := settings, runIdentity := runIdentity q now }
    let (res, S) ←
      if enabled then advanceLineage sha256 zone t S { reason := "NOOP" }
      else pure ({ reason := "RENT_DISABLED" }, S)
    settleRun zone env clock t enabled res S

end Reconcile

end TokenHub.Rent

namespace TokenHub.Rent

open Lib.Digits

theorem numberText_suffix {x y : String} {m n : ℕ} (hx : NoDigit x.toList.reverse)
    (hy : NoDigit y.toList.reverse) (h : x ++ numberText m = y ++ numberText n) :
    x = y ∧ m = n := by
  have hlist := congrArg String.toList h
  simp only [String.toList_append, numberText, String.toList_ofList] at hlist
  obtain ⟨hxy, hmn⟩ := natText_suffix hx hy hlist
  exact ⟨String.toList_inj.1 hxy, hmn⟩

theorem append_left_cancel {x y z : String} (h : x ++ y = x ++ z) : y = z := by
  have hlist := congrArg String.toList h
  rw [String.toList_append, String.toList_append] at hlist
  exact String.toList_inj.1 (List.append_cancel_left hlist)

theorem append_right_cancel {x y z : String} (h : x ++ z = y ++ z) : x = y := by
  have hlist := congrArg String.toList h
  rw [String.toList_append, String.toList_append] at hlist
  exact String.toList_inj.1 (List.append_cancel_right hlist)

theorem rentLineage_injective : Function.Injective rentLineage := fun _ _ h ↦
  append_left_cancel h

theorem noDigit_append (x : String) {tag : String} (htag : NoDigit tag.toList.reverse)
    (hne : tag ≠ "") : NoDigit (x ++ tag).toList.reverse := by
  rw [String.toList_append, List.reverse_append]
  cases hrev : tag.toList.reverse with
  | nil =>
    rw [List.reverse_eq_nil_iff, String.toList_eq_nil_iff] at hrev
    exact absurd hrev hne
  | cons c cs =>
    rw [hrev] at htag
    simpa using htag

theorem seatLineage_inj {c c' : String} {s s' : ℕ} (h : seatLineage c s = seatLineage c' s') :
    c = c' ∧ s = s' := by
  obtain ⟨hline, hs⟩ := numberText_suffix (noDigit_append _ (by decide) (by decide))
    (noDigit_append _ (by decide) (by decide)) h
  exact ⟨rentLineage_injective (append_right_cancel hline), hs⟩

theorem rentCorrelation_inj {c c' : String} {s s' n n' : ℕ}
    (h : rentCorrelation c s n = rentCorrelation c' s' n') : c = c' ∧ s = s' ∧ n = n' := by
  obtain ⟨hseat, hn⟩ := numberText_suffix (noDigit_append _ (by decide) (by decide))
    (noDigit_append _ (by decide) (by decide)) h
  obtain ⟨hc, hs⟩ := seatLineage_inj (append_right_cancel hseat)
  exact ⟨hc, hs, hn⟩

theorem lateCorrelation_inj {x x' : String} {n n' : ℕ}
    (h : lateCorrelation x n = lateCorrelation x' n') : x = x' ∧ n = n' := by
  obtain ⟨hx, hn⟩ := numberText_suffix (noDigit_append _ (by decide) (by decide))
    (noDigit_append _ (by decide) (by decide)) h
  exact ⟨append_right_cancel hx, hn⟩

theorem rentCorrelation_ne_lateCorrelation (c x : String) (s n m : ℕ) :
    rentCorrelation c s n ≠ lateCorrelation x m := by
  intro h
  obtain ⟨htag, -⟩ := numberText_suffix (noDigit_append _ (by decide) (by decide))
    (noDigit_append _ (by decide) (by decide)) h
  have hrev := congrArg (fun s : String ↦ s.toList.reverse) htag
  simp [String.toList_append] at hrev

end TokenHub.Rent
