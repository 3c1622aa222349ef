import TokenHub.Lib.Ordered
import TokenHub.Rent.Dates
import TokenHub.Rent.Reconcile

set_option autoImplicit false

namespace TokenHub.Obligations

open Ledger Lib.Checks Lib.Json Lib.Ordered
open Rent (Instant ClassZone ObligationAssessment instantField startOfClassDayBefore)

section Rows

/-- One row of `bill_cycles`. A cycle with no next assessment is terminal. -/
structure BillCycle where
  id : ℕ
  classId : String
  internalRef : String
  cycleNumber : ℕ
  policyUuid : Option String
  sourceVersionId : Option String
  cycleBoundaryAt : Instant
  nextAssessmentAt : Option Instant
  graceBoundaryAt : Option Instant
deriving DecidableEq, Repr

structure ObligationCommandReservation where
  classId : String
  commandName : String
  idempotencyKey : String
  internalRef : String
  replayFingerprint : String
  fingerprintVersion : ℕ
  billCycleId : ℕ
deriving DecidableEq, Repr

structure ObligationTables where
  billCycles : List BillCycle
  commandReservations : List ObligationCommandReservation
  assessmentEvents : List ObligationAssessment
deriving DecidableEq, Repr

/-- What a call reads of the clock and of the policy tables. `get_bill_preview_days` of a policy
version of a class is `none` where it raises `PolicyReferenceNotFound`. -/
structure Moment where
  clock : Instant
  previewDays : String → String → Option ℤ

def IsDatetime (t : Instant) : Prop := 1 ≤ t / 86400000000 + 719163

instance (t : Instant) : Decidable (IsDatetime t) := by unfold IsDatetime; infer_instance

end Rows

section Reads

variable (T : ObligationTables)

def lineage (internalRef : String) : List BillCycle :=
  T.billCycles.filter (·.internalRef = internalRef)

/-- `ORDER BY cycle_number DESC`. -/
def LaterCycle (a b : BillCycle) : Prop := b.cycleNumber ≤ a.cycleNumber

instance : DecidableRel LaterCycle := fun _ _ ↦ by unfold LaterCycle; infer_instance

instance : Std.Total LaterCycle := ⟨fun a b ↦ le_total b.cycleNumber a.cycleNumber⟩

instance : IsTrans BillCycle LaterCycle :=
  ⟨fun a b c (hab : b.cycleNumber ≤ a.cycleNumber) (hbc : c.cycleNumber ≤ b.cycleNumber) ↦
    hbc.trans hab⟩

def getLatestBillCycle (internalRef : String) : Option BillCycle :=
  firstBy LaterCycle (lineage T internalRef)

/-- `db.session.get(BillCycle, ...)`. -/
def billCycle (billCycleId : Option ℕ) : Option BillCycle :=
  billCycleId.bind (fun i ↦ T.billCycles.find? (·.id = i))

def getAssessmentPoint (zone : ClassZone) (now : Moment) (cycle : BillCycle) (next : Instant) :
    Instant :=
  let days := match cycle.policyUuid with
    | none => 0
    | some policy => if policy = "" then 0 else (now.previewDays policy cycle.classId).getD 0
  if days ≤ 0 then next else startOfClassDayBefore zone next days

inductive SuccessionEligibility
  | empty
  | terminal (latest : BillCycle)
  | notDue (latest : BillCycle)
  | due (latest : BillCycle)
deriving DecidableEq, Repr

def getSuccessionEligibility (zone : ClassZone) (now : Moment) (classId internalRef : String)
    (reference : Instant) : SuccessionEligibility :=
  match firstBy LaterCycle ((lineage T internalRef).filter (·.classId = classId)) with
  | none => .empty
  | some latest =>
    match latest.nextAssessmentAt with
    | none => .terminal latest
    | some next =>
      if reference < getAssessmentPoint zone now latest next then .notDue latest else .due latest

/-- `get_satisfaction_events`. Its readers look for any, so the order does not matter. -/
def getSatisfactionEvents (correlationId : String) : List ObligationAssessment :=
  T.assessmentEvents.filter (fun e ↦ e.correlationId = correlationId ∧
    (e.eventType = .payment ∨ e.eventType = .waived))

def cycleAssessments (cycle : BillCycle) : List ObligationAssessment :=
  T.assessmentEvents.filter (fun e ↦ e.billCycleId = some cycle.id ∧ e.eventType = .assessment)

def isCycleCommitted (cycle : BillCycle) : Bool :=
  (cycleAssessments T cycle).any (fun a ↦ !(getSatisfactionEvents T a.correlationId).isEmpty)

def firstContaining (reference : Instant) : List BillCycle → Except Raise (Option BillCycle)
  | [] => return none
  | c :: cs =>
    match c.nextAssessmentAt with
    | none => firstContaining reference cs
    | some next => do
      require (c.cycleBoundaryAt < next)
        (.domainError "TemporalResolutionError" "end_boundary must be after start_boundary")
      if c.cycleBoundaryAt ≤ reference ∧ reference < next then return some c
      else firstContaining reference cs

def getCurrentBillCycle (classId internalRef : String) (reference : Instant) :
    Except Raise (Option BillCycle) :=
  let cycles := (lineage T internalRef).filter (·.classId = classId)
  let terminal := firstBy LaterCycle (cycles.filter (·.nextAssessmentAt = none))
  if terminal.any (fun c ↦ decide (c.cycleBoundaryAt ≤ reference)) then return none
  else firstContaining reference (cycles.insertionSort (fun a b ↦ a.cycleNumber ≤ b.cycleNumber))

/-- `get_stop_renewal_instant`: the end of the last committed period. -/
def getStopRenewalInstant (classId internalRef : String) (reference : Instant) :
    Except Raise (Option Instant) :=
  match (getLatestBillCycle T internalRef).filter (·.classId = classId) with
  | none => return none
  | some latest =>
    match latest.nextAssessmentAt with
    | none => return none
    | some next => do
      match ← getCurrentBillCycle T classId internalRef reference with
      | none => return some next
      | some current =>
        if latest.id = current.id ∨ isCycleCommitted T latest = true then return some next
        else return current.nextAssessmentAt

end Reads

section Succession

def commandName : String := "schedule_next_bill_cycle"

def fingerprintVersion : ℕ := 1

def supportedFingerprintVersions : List ℕ := [1]

def maxIdempotencyKeyLength : ℕ := 255

structure SuccessionTerms where
  internalRef : String
  policyUuid : Option String
  sourceVersionId : Option String
  cycleBoundaryAt : Option Instant
  nextAssessmentAt : Option Instant
  graceBoundaryAt : Option Instant
deriving DecidableEq, Repr

/-- A key that is not a string is `none`. -/
structure ScheduleNextBillCycleRequest extends SuccessionTerms where
  classId : String
  idempotencyKey : Option String
  referenceTimeUtc : Option Instant
  datetimes : ∀ t, t ∈ cycleBoundaryAt ∨ t ∈ nextAssessmentAt ∨ t ∈ graceBoundaryAt → IsDatetime t

def BillCycle.terms (c : BillCycle) : SuccessionTerms where
  internalRef := c.internalRef
  policyUuid := c.policyUuid
  sourceVersionId := c.sourceVersionId
  cycleBoundaryAt := some c.cycleBoundaryAt
  nextAssessmentAt := c.nextAssessmentAt
  graceBoundaryAt := c.graceBoundaryAt

variable (sha256 : String → String)

def fingerprint (terms : SuccessionTerms) (version : ℕ) : Except Raise String := do
  require (version ∈ supportedFingerprintVersions)
    (.valueError ("Unsupported succession fingerprint version: " ++ Rent.numberText version))
  return digest sha256 (.obj [("cycle_boundary_at", instantField terms.cycleBoundaryAt),
    ("grace_boundary_at", instantField terms.graceBoundaryAt),
    ("internal_ref", .str terms.internalRef),
    ("next_assessment_at", instantField terms.nextAssessmentAt),
    ("policy_uuid", optText terms.policyUuid),
    ("source_version_id", optText terms.sourceVersionId)])

def validateIdentity (q : ScheduleNextBillCycleRequest) : Except Raise String := do
  require (q.classId ≠ "" ∧ q.internalRef ≠ "")
    (.valueError "schedule_next_bill_cycle requires class_id and internal_ref.")
  let key ← demand (q.idempotencyKey.filter (fun k ↦ ¬ isBlank k)) (.valueError
    "schedule_next_bill_cycle requires a non-empty idempotency_key (command identity).")
  require (key.length ≤ maxIdempotencyKeyLength)
    (.valueError "schedule_next_bill_cycle idempotency_key exceeds 255 characters.")
  return key

def getObligationCommandReservation (T : ObligationTables) (classId command key : String) :
    Option ObligationCommandReservation :=
  T.commandReservations.find? (fun r ↦
    r.classId = classId ∧ r.commandName = command ∧ r.idempotencyKey = key)

def replay (T : ObligationTables) (r : ObligationCommandReservation)
    (q : ScheduleNextBillCycleRequest) : Except Raise BillCycle := do
  require (r.fingerprintVersion ∈ supportedFingerprintVersions ∧
      fingerprint sha256 q.toSuccessionTerms r.fingerprintVersion = .ok r.replayFingerprint)
    (Rent.successionReplayMismatch (q.idempotencyKey.getD ""))
  demand (billCycle T (some r.billCycleId)) (.runtimeError "no such bill cycle")

inductive SuccessionReading
  | replayed (cycle : BillCycle)
  | derived (key : String) (cycleBoundaryAt nextAssessmentAt : Instant) (cycleNumber : ℕ)
deriving DecidableEq, Repr

def nextCycleNumber (internalRef : String) (reference : Instant) :
    SuccessionEligibility → Except Raise ℕ
  | .empty => return 1
  | .terminal latest => throw (Rent.successionAfterTerminal internalRef latest.cycleNumber)
  | .notDue latest => throw
    (Rent.successionNotDue internalRef latest.cycleNumber latest.nextAssessmentAt reference)
  | .due latest => return latest.cycleNumber + 1

/-- `schedule_next_bill_cycle` up to its first write. -/
def readSuccession (zone : ClassZone) (T : ObligationTables) (now : Moment)
    (q : ScheduleNextBillCycleRequest) : Except Raise SuccessionReading := do
  let key ← validateIdentity q
  match getObligationCommandReservation T q.classId commandName key with
  | some r =>
    let cycle ← replay sha256 T r q
    return .replayed cycle
  | none =>
    let boundary ← demand q.cycleBoundaryAt (.valueError
      "schedule_next_bill_cycle requires cycle_boundary_at and next_assessment_at.")
    let next ← demand q.nextAssessmentAt (.valueError
      "schedule_next_bill_cycle requires cycle_boundary_at and next_assessment_at.")
    require (boundary < next) (Rent.nextNotAfterBoundary next boundary)
    let reference := q.referenceTimeUtc.getD now.clock
    let number ← nextCycleNumber q.internalRef reference
      (getSuccessionEligibility T zone now q.classId q.internalRef reference)
    return .derived key boundary next number

def successor (T : ObligationTables) (q : ScheduleNextBillCycleRequest)
    (boundary next : Instant) (number : ℕ) : BillCycle where
  id := T.billCycles.length + 1
  classId := q.classId
  internalRef := q.internalRef
  cycleNumber := number
  policyUuid := q.policyUuid
  sourceVersionId := q.sourceVersionId
  cycleBoundaryAt := boundary
  nextAssessmentAt := some next
  graceBoundaryAt := q.graceBoundaryAt

/-- `uq_bill_cycles_ref_cycle` leaves room for a row. -/
def CycleFree (T : ObligationTables) (internalRef : String) (number : ℕ) : Prop :=
  ∀ c ∈ T.billCycles, ¬ (c.internalRef = internalRef ∧ c.cycleNumber = number)

instance (T : ObligationTables) (internalRef : String) (number : ℕ) :
    Decidable (CycleFree T internalRef number) := by unfold CycleFree; infer_instance

/-- `uq_obligation_command_reservation_identity` leaves room for a row. -/
def IdentityFree (T : ObligationTables) (classId command key : String) : Prop :=
  getObligationCommandReservation T classId command key = none

instance (T : ObligationTables) (classId command key : String) :
    Decidable (IdentityFree T classId command key) := by unfold IdentityFree; infer_instance

/-- The rest of `schedule_next_bill_cycle`: both rows go in, or a unique index refuses one and the
identity is looked up before any other verdict. -/
def writeSuccession (T : ObligationTables) (q : ScheduleNextBillCycleRequest) :
    SuccessionReading → Except Raise (BillCycle × ObligationTables)
  | .replayed cycle => return (cycle, T)
  | .derived key boundary next number => do
    let cycle := successor T q boundary next number
    let print ← fingerprint sha256 q.toSuccessionTerms fingerprintVersion
    if CycleFree T q.internalRef number ∧ IdentityFree T q.classId commandName key then
      let reservation : ObligationCommandReservation :=
        { classId := q.classId, commandName := commandName, idempotencyKey := key,
          internalRef := q.internalRef, replayFingerprint := print,
          fingerprintVersion := fingerprintVersion, billCycleId := cycle.id }
      return (cycle, { T with billCycles := T.billCycles ++ [cycle],
                              commandReservations := T.commandReservations ++ [reservation] })
    else
      match getObligationCommandReservation T q.classId commandName key with
      | some r =>
        let cycle ← replay sha256 T r q
        return (cycle, T)
      | none => throw (Rent.successionConflict q.internalRef number key)

end Succession

section Termination

structure TerminateBillCycleRequest where
  classId : String
  internalRef : String
  terminationAt : Option Instant
  referenceTimeUtc : Option Instant
deriving DecidableEq, Repr

def withdrawAssessment (T : ObligationTables) (now : Moment) (classId correlationId : String)
    (reference : Option Instant) : Except Raise (ObligationAssessment × ObligationTables) := do
  let a ← demand ((T.assessmentEvents.find? (fun e ↦ e.correlationId = correlationId ∧
      e.eventType = .assessment)).filter (·.classId = classId))
    (Rent.notWithdrawable
      ("no assessment " ++ Rent.quoted correlationId ++ " in class " ++ Rent.quoted classId))
  match T.assessmentEvents.find? (fun e ↦ e.correlationId = correlationId ∧
      e.eventType = .withdrawn) with
  | some e => return (e, T)
  | none =>
    let cycle ← demand (billCycle T a.billCycleId)
      (Rent.notWithdrawable (Rent.quoted correlationId ++ " is not bound to a scheduled period"))
    require (reference.getD now.clock ≤ cycle.cycleBoundaryAt)
      (Rent.notWithdrawable (Rent.quoted correlationId ++ ": its period began at " ++
        Rent.datetimeText cycle.cycleBoundaryAt))
    require (getSatisfactionEvents T correlationId = [])
      (Rent.notWithdrawable
        (Rent.quoted correlationId ++ " has a recorded satisfaction; its period is committed"))
    let e : ObligationAssessment :=
      { id := T.assessmentEvents.length + 1, seatId := a.seatId, classId := a.classId,
        internalRef := a.internalRef, correlationId := a.correlationId, eventType := .withdrawn,
        obligationType := a.obligationType, timestamp := now.clock, billCycleId := a.billCycleId }
    return (e, { T with assessmentEvents := T.assessmentEvents ++ [e] })

def withdrawUntouched (now : Moment) (classId : String) (reference : Option Instant) :
    ObligationTables → List ObligationAssessment → Except Raise ObligationTables
  | T, [] => return T
  | T, a :: as =>
    if getSatisfactionEvents T a.correlationId ≠ [] then
      withdrawUntouched now classId reference T as
    else do
      let (_, T') ← withdrawAssessment T now classId a.correlationId reference
      withdrawUntouched now classId reference T' as

inductive TerminationReading
  | terminal (latest : BillCycle)
  | stops (latest : BillCycle) (instant : Instant)
deriving DecidableEq, Repr

/-- The instant that the request names, or where renewal would stop. -/
def terminationInstant (T : ObligationTables) (now : Moment) (q : TerminateBillCycleRequest) :
    Except Raise Instant :=
  match q.terminationAt with
  | some t => return t
  | none => do
    let stop ← getStopRenewalInstant T q.classId q.internalRef
      (q.referenceTimeUtc.getD now.clock)
    demand stop (.runtimeError "an open lineage has an instant to stop at")

/-- `terminate_bill_cycle` up to its first write. -/
def readTermination (T : ObligationTables) (now : Moment) (q : TerminateBillCycleRequest) :
    Except Raise TerminationReading := do
  let latest ← demand (getLatestBillCycle T q.internalRef)
    (Rent.nothingToTerminate q.internalRef)
  require (latest.classId = q.classId)
    (Rent.scopeMismatch q.internalRef latest.classId q.classId)
  if latest.nextAssessmentAt = none then return .terminal latest
  else
    let instant ← terminationInstant T now q
    return .stops latest instant

def terminalCycle (T : ObligationTables) (latest : BillCycle) (instant : Instant) : BillCycle where
  id := T.billCycles.length + 1
  classId := latest.classId
  internalRef := latest.internalRef
  cycleNumber := latest.cycleNumber + 1
  policyUuid := latest.policyUuid
  sourceVersionId := latest.sourceVersionId
  cycleBoundaryAt := instant
  nextAssessmentAt := none
  graceBoundaryAt := none

/-- The rest of `terminate_bill_cycle`. -/
def writeTermination (T : ObligationTables) (now : Moment) (q : TerminateBillCycleRequest) :
    TerminationReading → Except Raise (BillCycle × ObligationTables)
  | .terminal latest => return (latest, T)
  | .stops latest instant => do
    let after := (lineage T q.internalRef).filter (fun c ↦ c.classId = q.classId ∧
      c.nextAssessmentAt.isSome ∧ instant ≤ c.cycleBoundaryAt)
    let T' ← withdrawUntouched now q.classId q.referenceTimeUtc T
      (after.flatMap (cycleAssessments T))
    let terminal := terminalCycle T' latest instant
    require (CycleFree T' terminal.internalRef terminal.cycleNumber)
      (.integrityError "uq_bill_cycles_ref_cycle")
    return (terminal, { T' with billCycles := T'.billCycles ++ [terminal] })

end Termination

section Calls

variable (sha256 : String → String) (zones : String → ClassZone)

/-- `schedule_next_bill_cycle`, when its reads saw the tables `seen` and its writes meet `T`. -/
def scheduleNextBillCycle (seen T : ObligationTables) (now : Moment)
    (q : ScheduleNextBillCycleRequest) : Except Raise (BillCycle × ObligationTables) := do
  let reading ← readSuccession sha256 (zones q.classId) seen now q
  writeSuccession sha256 T q reading

def terminateBillCycle (seen T : ObligationTables) (now : Moment)
    (q : TerminateBillCycleRequest) : Except Raise (BillCycle × ObligationTables) := do
  let reading ← readTermination seen now q
  writeTermination T now q reading

inductive Command
  | schedule (q : ScheduleNextBillCycleRequest)
  | terminate (q : TerminateBillCycleRequest)

def Command.answer (seen T : ObligationTables) (now : Moment) :
    Command → Except Raise (BillCycle × ObligationTables)
  | .schedule q => scheduleNextBillCycle sha256 zones seen T now q
  | .terminate q => terminateBillCycle seen T now q

structure ObligationHistory where
  tables : ObligationTables
  past : List ObligationTables
deriving DecidableEq, Repr

def ObligationHistory.before (S : ObligationHistory) (steps : ℕ) : ObligationTables :=
  ((S.tables :: S.past)[steps]?).getD S.tables

inductive Action
  /-- A command that read the tables as they were some steps ago. One that nothing overtakes has
  `since = 0`. -/
  | command (since : ℕ) (now : Moment) (c : Command)
  /-- Assessments, payments, waivers and withdrawals that other commands record. -/
  | recorded (events : List ObligationAssessment)

def ObligationHistory.push (S : ObligationHistory) (T : ObligationTables) : ObligationHistory :=
  ⟨T, S.tables :: S.past⟩

def step (S : ObligationHistory) : Action → ObligationHistory
  | .command since now c =>
    S.push (committed S.tables (c.answer sha256 zones (S.before since) S.tables now))
  | .recorded events =>
    S.push { S.tables with assessmentEvents := S.tables.assessmentEvents ++ events }

def ObligationHistory.initial (events : List ObligationAssessment) : ObligationHistory where
  tables := { billCycles := [], commandReservations := [], assessmentEvents := events }
  past := []

end Calls

end TokenHub.Obligations
