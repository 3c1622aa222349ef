import TokenHub.Store.Rows
import TokenHub.Attendance.Writer

set_option autoImplicit false

namespace TokenHub.HallPass

open Ledger Attendance Store Lib.Checks
open Rent (Instant ClassZone)

/-- One entry of `pass_type_payload`, as the JSON object holds it. -/
structure PassType where
  passName : Option String
  enabled : Option Bool
  maxQueue : Option ℤ
  consumePass : Option Bool
deriving DecidableEq, Repr

structure HallPassSettings where
  id : ℕ
  policyUuid : String
  classId : String
  maxQueueLimit : ℤ
  passTypePayload : List PassType
  effectiveDate : Instant
deriving DecidableEq, Repr

structure PassState extends AttendanceTables, EntitlementTables where
  hallPassSettings : List HallPassSettings

inductive PassStatus
  | approved
  | left
  | returned
deriving DecidableEq, Repr

section Status

/-- The rows of one pass of a seat. Under SQL's `IS NULL`, passes without an id share theirs. -/
def passRows (A : AttendanceTables) (seatId : ℕ) (classId : String) (hallPassId : Option ℕ) :
    List AttendanceSession :=
  (A.sessions.filter (fun r ↦ r.classId = classId ∧ r.targetSeatId = seatId ∧
    r.hallPassId = hallPassId)).insertionSort AttendanceSession.Sooner

def leftRow (rows : List AttendanceSession) : Option AttendanceSession :=
  rows.find? (·.isHallPassExit)

def returnRow (rows : List AttendanceSession) : Option AttendanceSession :=
  (leftRow rows).bind (fun left ↦
    rows.find? (fun r ↦ r.status = .active ∧ ¬ r.timestamp < left.timestamp))

/-- `resolve_hall_pass_lifecycle_status`, of the rows of one pass. -/
def lifecycleStatus (rows : List AttendanceSession) : PassStatus :=
  if (returnRow rows).isSome then .returned
  else if (leftRow rows).isSome then .left
  else .approved

def PassState.passStatus (S : PassState) (log : HallPassLog) : PassStatus :=
  lifecycleStatus (passRows S.toAttendanceTables log.requestedBySeatId log.classId log.hallPassId)

end Status

section Settings

variable (S : PassState) (fold : String → String)

/-- The order of `order_by(effective_date.desc(), id.desc())`, read backwards. -/
def HallPassSettings.Earlier (a b : HallPassSettings) : Prop :=
  a.effectiveDate < b.effectiveDate ∨ a.effectiveDate = b.effectiveDate ∧ a.id ≤ b.id

instance : DecidableRel HallPassSettings.Earlier := fun a b ↦ by
  unfold HallPassSettings.Earlier; infer_instance

/-- `require_hall_pass_settings`, without what it raises. -/
def PassState.settingsAt (classId : String) (t : Instant) : Option HallPassSettings :=
  ((S.hallPassSettings.filter (fun s ↦ s.classId = classId ∧ s.effectiveDate ≤ t)).insertionSort
    HallPassSettings.Earlier).getLast?

/-- The destination of a pass, where `fold` strips a text and puts it in lower case. -/
def HallPassSettings.passType (settings : HallPassSettings) (destination : String) :
    Option PassType :=
  settings.passTypePayload.find? (fun p ↦ fold (p.passName.getD "") = fold destination)

def HallPassSettings.queueLimit (settings : HallPassSettings) : ℤ :=
  min settings.maxQueueLimit (settings.passTypePayload.map (fun p ↦ p.maxQueue.getD 0)).sum

def HallPassSettings.destinationLimit (settings : HallPassSettings) (destination : String) :
    Option ℤ :=
  (settings.passType fold destination).bind (·.maxQueue)

def HallPassSettings.consumesPass (settings : HallPassSettings) (destination : String) : Bool :=
  (settings.passType fold destination).all (fun p ↦ p.consumePass.getD true)

end Settings

section Approval

variable (zone : ClassZone) (fold : String → String) (S : PassState)

def PassState.todaysLogs (classId : String) (t : Instant) : List HallPassLog :=
  S.hallPassLogs.filter (fun l ↦ l.classId = classId ∧ dayStart zone t ≤ l.timestamp ∧
    l.timestamp < dayEnd zone t)

def PassState.currentlyOut (classId : String) (t : Instant) : List HallPassLog :=
  (S.todaysLogs zone classId t).filter (fun l ↦ S.passStatus l ≠ .returned)

def destinationOut (out : List HallPassLog) (destination : String) : List HallPassLog :=
  out.filter (fun l ↦ fold (l.destination.getD "") = fold destination)

def enforceHallPassSettings (classId : String) (t : Instant) (destination : String) :
    Except Raise HallPassSettings := do
  let settings ← demand (S.settingsAt classId t)
    (.domainError "HallPassSettingsMissing" "Hall passes are not set up for this class.")
  require ((settings.passType fold destination).all (fun p ↦ p.enabled.getD true) = true)
    (.valueError "Hall-pass destination is disabled.")
  let out := S.currentlyOut zone classId t
  require ((out.length : ℤ) < settings.queueLimit) (.valueError "Hall-pass queue limit reached.")
  match settings.destinationLimit fold destination with
  | none => return settings
  | some limit =>
    require (((destinationOut fold out destination).length : ℤ) < limit)
      (.valueError "Hall-pass destination limit reached.")
    return settings

def PassState.namedHallPass (entitlementId seatId : ℕ) (classId : String) :
    Option EntitlementEvent :=
  (S.entitlementEvents.find? (fun e ↦ e.entitlementId = entitlementId ∧ e.classId = classId ∧
    e.targetSeatId = seatId ∧ e.entitlementType = .hallPass ∧ e.eventType = .granted)).filter
      (fun _ ↦ ¬ S.isUsedHallPass classId entitlementId)

def PassState.passToUse (named : Option ℕ) (seatId : ℕ) (classId : String) :
    Except Raise EntitlementEvent := do
  let grant ← match named with
    | some entitlementId =>
      demand (S.namedHallPass entitlementId seatId classId)
        (.valueError "The hall pass this request names has already been used")
    | none =>
      demand (S.availableHallPassGrant classId seatId)
        (.valueError "No available hall-pass entitlement grant")
  require (grant.correlationId.any (· ≠ "") = true)
    (.valueError "Hall-pass entitlement consumption missing correlation_id")
  return grant

/-- An approval for a destination that consumes no pass uses none. -/
def PassState.usedPass (consumes : Bool) (named : Option ℕ) (seatId : ℕ) (classId : String) :
    Except Raise (Option EntitlementEvent) :=
  if consumes then (S.passToUse named seatId classId).map some else .ok none

/-- The keyword arguments of `_record_hall_pass_log_impl` that its outcome depends on. -/
structure PassRequest where
  requestedBySeatId : ℕ
  approvedBySeatId : ℕ
  destination : String
  idempotencyKey : Option String
  hallPassEntitlementId : Option ℕ
deriving DecidableEq, Repr

/-- `_record_hall_pass_log_impl`, where `isoformat` is the text of an instant. -/
def recordHallPassLog (isoformat : Instant → String) (classId : String) (t : Instant)
    (request : PassRequest) : Except Raise (HallPassLog × PassState) := do
  let seatId := request.requestedBySeatId
  let _ ← demand (S.seat seatId classId)
    (.valueError "Hall-pass holder must be a seat in the class.")
  let settings ← enforceHallPassSettings zone fold S classId t request.destination
  let usedPass ← S.usedPass (settings.consumesPass fold request.destination)
    request.hallPassEntitlementId seatId classId
  let log : HallPassLog := {
    id := S.hallPassLogs.length + 1
    requestedBySeatId := seatId
    approvedBySeatId := request.approvedBySeatId
    correlationId := match usedPass with
      | some grant => grant.correlationId.getD ""
      | none => match request.idempotencyKey.filter (· ≠ "") with
        | some key => key
        | none => "hall_pass_log:" ++ classId ++ ":" ++ toString seatId ++ ":" ++ isoformat t
    policyUuid := settings.policyUuid
    hallPassId := usedPass.map (·.entitlementId)
    destination := some request.destination
    classId := classId
    timestamp := t }
  require (∀ l ∈ S.hallPassLogs, log.hallPassId.isSome → l.hallPassId ≠ log.hallPassId)
    (.integrityError "uq_hall_pass_logs_hall_pass_id")
  return (log, { S with hallPassLogs := S.hallPassLogs ++ [log] })

end Approval

section Actions

variable (zone : ClassZone) (fold : String → String) (S : PassState)

inductive HallPassAction
  | leave
  | return
deriving DecidableEq, Repr

inductive PassAnswer
  | hasLeft
  | alreadyOut
  | hasReturned
  | alreadyReturned
deriving DecidableEq, Repr

def hallPassRevoked (t : Instant) (log : HallPassLog) (status : PassStatus) : Bool :=
  decide (status = .approved ∧ log.timestamp < dayStart zone t)

/-- The attendance row that a leave or a return of a pass appends. -/
def actionRequest (mechanism : AttendanceMechanism) (ctx : ClassContext) (log : HallPassLog) :
    HallPassAction → SessionRequest
  | .leave => ⟨.inactive, some log.requestedBySeatId, some ctx.seatId, mechanism,
      log.destination, some .hallPass, log.hallPassId⟩
  | .return => ⟨.active, some log.requestedBySeatId, some ctx.seatId, mechanism,
      some "Return from hall pass", none, log.hallPassId⟩

/-- The part that the teacher's and the student's routes share. -/
def markPass (mechanism : AttendanceMechanism) (ctx : ClassContext) (t : Instant)
    (log : HallPassLog) (action : HallPassAction) : Except Raise (PassAnswer × PassState) := do
  let status := S.passStatus log
  match action with
  | .leave =>
    if status = .left then return (.alreadyOut, S)
    else
      require (status ≠ .returned) (.valueError "This pass has already ended.")
      require (hallPassRevoked zone t log status = false)
        (.valueError "This pass is no longer valid.")
      let A ← recordAttendanceSession zone fold S.toAttendanceTables ctx t
        (actionRequest mechanism ctx log .leave)
      return (.hasLeft, { S with toAttendanceTables := A })
  | .return =>
    if status = .returned then return (.alreadyReturned, S)
    else
      let A ← recordAttendanceSession zone fold S.toAttendanceTables ctx t
        (actionRequest mechanism ctx log .return)
      return (.hasReturned, { S with toAttendanceTables := A })

def PassState.log (passId : ℕ) : Option HallPassLog :=
  S.hallPassLogs.find? (fun l ↦ l.id = passId)

def handleHallPassAction (ctx : ClassContext) (t : Instant) (passId : ℕ)
    (action : HallPassAction) : Except Raise (PassAnswer × PassState) := do
  let log ← demand (S.log passId) (.domainError "NotFound" "")
  require (ctx.classId = log.classId) (.domainError "NotFound" "Pass not found.")
  markPass zone fold S .teacher ctx t log action

/-- `checkout_hall_pass` and `checkin_hall_pass`. -/
def handleOwnPass (ctx : ClassContext) (t : Instant) (passId : ℕ) (action : HallPassAction) :
    Except Raise (PassAnswer × PassState) := do
  let log ← demand (S.log passId) (.domainError "NotFound" "")
  require (log.requestedBySeatId = ctx.seatId) (.domainError "Forbidden" "Unauthorized.")
  require (ctx.classId = log.classId) (.domainError "Forbidden"
    "This pass belongs to a different class context. Switch class and retry.")
  markPass zone fold S .self ctx t log action

end Actions

end TokenHub.HallPass
