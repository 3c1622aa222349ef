import TokenHub.Store.Entitlements

set_option autoImplicit false

namespace TokenHub.Store

open Ledger Attendance HallPass Lib.Checks
open Rent (Instant ClassZone)

section Queue

variable (S : StoreState)

/-- A new row of `pending_actions`, under the unique constraint on its correlation. -/
def StoreState.insertPending (p : PendingAction) : Except Raise StoreState := do
  require (∀ r ∈ S.pendingActions, r.correlationId ≠ p.correlationId)
    (.integrityError "pending_actions_correlation_id_key")
  return { S with
    pendingActions := S.pendingActions ++ [{ p with pendingActionId := S.uuids }]
    uuids := S.uuids + 1 }

def StoreState.deletePending (pendingActionId : ℕ) : StoreState :=
  { S with pendingActions := S.pendingActions.filter (·.pendingActionId ≠ pendingActionId) }

/-- A row of `_hall_pass_rows`. -/
def PendingAction.isHallPassRequest (classId : String) (p : PendingAction) : Bool :=
  decide (p.classId = classId ∧ p.authoritativeFeat = "FEAT-PROD-002" ∧
    p.kind = some .hallPassRequest)

/-- The seat that `_to_request` reads. -/
def PendingAction.requester (p : PendingAction) : ℕ := p.requestedBySeatId.getD p.seatId

def StoreState.pendingHallPassRequest (requestId : ℕ) (classId : String)
    (seatId : Option ℕ) : Option PendingAction :=
  S.pendingActions.find? (fun p ↦ p.isHallPassRequest classId ∧ p.pendingActionId = requestId ∧
    seatId.all (fun s ↦ p.seatId = s))

def StoreState.popPendingHallPassRequest (requestId : ℕ) (classId : String)
    (seatId : Option ℕ) : Option (PendingAction × StoreState) :=
  (S.pendingHallPassRequest requestId classId seatId).map (fun p ↦
    (p, S.deletePending p.pendingActionId))

def StoreState.clearPendingHallPassRequests (classId : String) (seatId : ℕ) : StoreState :=
  { S with pendingActions := S.pendingActions.filter (fun p ↦
      ¬ (p.isHallPassRequest classId ∧ p.seatId = seatId)) }

end Queue

section HallPassRequests

variable (S : StoreState) (ctx : ClassContext)

/-- The row that `enqueue_hall_pass_request` writes. -/
def hallPassRequestRow (uuid : ℕ) (destination : String) (requestedAt : Instant)
    (entitlementId : ℕ) : PendingAction where
  pendingActionId := uuid
  classId := ctx.classId
  seatId := ctx.seatId
  entitlementId := entitlementId
  correlationId := "hall_pass_request:" ++ ctx.classId ++ ":" ++ toString uuid
  authoritativeFeat := "FEAT-PROD-002"
  kind := some .hallPassRequest
  outcome := none
  requestedBySeatId := some ctx.seatId
  destination := some destination
  submittedAt := requestedAt

def submitHallPassRequest (destination : String) (requestedAt : Instant) :
    Except Raise StoreState := do
  let _ ← demand (S.seat ctx.seatId ctx.classId)
    (.valueError "FATAL: Hall pass request seat is outside the transaction class scope.")
  let _ ← demand (S.settingsAt ctx.classId requestedAt)
    (.domainError "HallPassSettingsMissing" "Hall passes are not set up for this class.")
  let cleared := S.clearPendingHallPassRequests ctx.classId ctx.seatId
  let grant ← demand (cleared.availableHallPassGrant ctx.classId ctx.seatId)
    (.valueError "No hall passes available.")
  cleared.insertPending
    (hallPassRequestRow ctx S.uuids destination requestedAt grant.entitlementId)

def requestNotFound (requestId : ℕ) : Raise :=
  .domainError "HallPassRequestNotFound" (toString requestId)

def approveHallPassRequest (zone : ClassZone) (fold : String → String)
    (isoformat : Instant → String) (t : Instant) (requestId : ℕ)
    (idempotencyKey : Option String) : Except Raise StoreState := do
  let peek ← demand (S.pendingHallPassRequest requestId ctx.classId none)
    (requestNotFound requestId)
  require (¬ peek.submittedAt < dayStart zone t)
    (.valueError "This hall pass request closed when its day ended.")
  let seat ← demand (S.seat peek.requester ctx.classId) (requestNotFound requestId)
  let (request, S') ← demand (S.popPendingHallPassRequest requestId ctx.classId none)
    (requestNotFound requestId)
  let (_, P) ← recordHallPassLog zone fold S'.toPassState isoformat ctx.classId t
    ⟨seat.id, ctx.seatId, request.destination.getD "", idempotencyKey,
      some request.entitlementId⟩
  return { S' with toPassState := P }

/-- What `reject_hall_pass_request` and `cancel_hall_pass_request` share. -/
def dropHallPassRequest (seatId : Option ℕ) (requestId : ℕ) : Except Raise StoreState := do
  let (_, S') ← demand (S.popPendingHallPassRequest requestId ctx.classId seatId)
    (requestNotFound requestId)
  return S'

def rejectHallPassRequest (requestId : ℕ) : Except Raise StoreState :=
  dropHallPassRequest S ctx none requestId

def cancelHallPassRequest (requestId : ℕ) : Except Raise StoreState :=
  dropHallPassRequest S ctx (some ctx.seatId) requestId

def closePriorDayHallPassRequests (zone : ClassZone) (t : Instant) : StoreState :=
  let stale := (S.pendingActions.filter (fun p ↦ p.isHallPassRequest ctx.classId ∧
    p.submittedAt < dayStart zone t)).insertionSort (fun a b ↦ a.requester ≤ b.requester)
  stale.foldl (fun S p ↦ match S.popPendingHallPassRequest p.pendingActionId ctx.classId none with
    | some (_, S') => S'
    | none => S) S

end HallPassRequests

section Redemptions

variable (eventIds : ℕ → ℕ) (S : StoreState)

/-- The order of `order_by(timestamp.desc(), event_id.desc())`, read backwards. -/
def EntitlementTables.latestEntitlementGrant (T : EntitlementTables) (entitlementId : ℕ) :
    Option EntitlementEvent :=
  ((T.entitlementEvents.filter (fun e ↦ e.entitlementId = entitlementId ∧
    e.eventType = .granted)).insertionSort EntitlementEvent.Sooner).getLast?

/-- Whether `pending_action_for_entitlement` finds a row. -/
def EntitlementTables.isPending (T : EntitlementTables) (entitlementId : ℕ) : Bool :=
  T.pendingActions.any (fun p ↦ p.isUnresolved ∧ p.entitlementId = entitlementId)

/-- Whether `entitlement_terminal_event` finds a row. -/
def EntitlementTables.hasTerminalEvent (T : EntitlementTables) (entitlementId : ℕ) : Bool :=
  T.entitlementEvents.any (fun e ↦ e.entitlementId = entitlementId ∧ e.isTerminal)

/-- Whether `derive_display_status` of a granted lineage is `purchased` or `processing`. -/
def EntitlementTables.isRedeemable (T : EntitlementTables) (grant : EntitlementEvent) : Bool :=
  T.isPending grant.entitlementId || (!T.hasTerminalEvent grant.entitlementId &&
    !T.isUsedHallPass grant.classId grant.entitlementId)

def invalidItem : Raise := .domainError "NotFound" "Invalid item."

/-- The row that `execute_use_item_request` writes. -/
def redemptionRow (grant : EntitlementEvent) (seatId attempt : ℕ) (t : Instant) :
    PendingAction where
  pendingActionId := 0
  classId := grant.classId
  seatId := seatId
  entitlementId := grant.entitlementId
  correlationId := "feat:stor:use_req:" ++ toString grant.entitlementId ++ ":" ++
    toString attempt
  authoritativeFeat := "FEAT-STOR-002"
  kind := none
  outcome := none
  requestedBySeatId := none
  destination := none
  submittedAt := t

/-- `use_item`: an immediate item is consumed, every other but a hall pass is requested. -/
def useItem (seatId : ℕ) (t : Instant) (entitlementId : ℕ) : Except Raise StoreState := do
  let grant ← demand ((S.latestEntitlementGrant entitlementId).filter
    (·.targetSeatId = seatId)) invalidItem
  require (S.isRedeemable grant = true)
    (.domainError "BadRequest" "This item is not available for redemption.")
  let item ← demand ((S.resolveEntitlementProduct grant).filter (·.classId = grant.classId))
    invalidItem
  require (S.isPending grant.entitlementId = false)
    (.domainError "BadRequest" "This item is already pending approval.")
  match item.itemType with
  | .immediate =>
    require (S.hasTerminalEvent grant.entitlementId = false)
      (.domainError "BadRequest" "This item is not available for redemption.")
    consumeEntitlement eventIds S t (grant.ending grant.targetSeatId
      (some ("immediate_use_" ++ toString grant.entitlementId)))
  | .hallPass =>
    .error (.domainError "BadRequest" ("Hall passes are used from the Break button on your " ++
      "dashboard, once you have started work."))
  | _ =>
    S.insertPending (redemptionRow grant seatId
      (S.pendingActions.filter (·.entitlementId = grant.entitlementId)).length t)

def loadRedemption (classId : String) (requestId entitlementId : Option ℕ) :
    Except Raise (PendingAction × EntitlementEvent) := do
  require (requestId.isSome ∨ entitlementId.isSome)
    (.domainError "BadRequest" "Missing redemption request.")
  let request ← demand (S.pendingActions.find? (fun p ↦ p.classId = classId ∧
      p.authoritativeFeat = "FEAT-STOR-002" ∧ p.outcome = none ∧ p.kind = none ∧
      requestId.all (fun i ↦ p.pendingActionId = i) ∧
      entitlementId.all (fun i ↦ p.entitlementId = i)))
    (.domainError "Conflict"
      "This request has already been decided, or it is not in this class.")
  let grant ← demand ((S.latestEntitlementGrant request.entitlementId).filter
    (fun g ↦ g.classId = classId ∧ g.targetSeatId = request.seatId)) invalidItem
  let item ← demand ((S.resolveEntitlementProduct grant).filter (·.classId = classId)) invalidItem
  require (item.itemType ≠ .hallPass)
    (.domainError "Conflict" "Hall-pass requests are resolved from the Hall Passes page.")
  return (request, grant)

def lockUnresolved (request : PendingAction) (grant : EntitlementEvent) :
    Except Raise PendingAction := do
  let locked ← demand (S.pendingActions.find? (·.pendingActionId = request.pendingActionId))
    (.valueError "This pending action has already been resolved")
  require (locked.outcome = none ∧ locked.kind = none)
    (.valueError "Redemption request has already been resolved")
  require (locked.entitlementId = grant.entitlementId ∧ locked.classId = grant.classId ∧
    locked.seatId = grant.targetSeatId)
    (.valueError "Redemption request does not belong to this entitlement")
  return locked

inductive RedemptionDecision
  | approve
  | deny
  | return
deriving DecidableEq, Repr

def RedemptionDecision.resolve (decision : RedemptionDecision) (t : Instant)
    (q : EndingRequest) : Except Raise StoreState :=
  match decision with
  | .approve => consumeEntitlement eventIds S t q
  | .deny => revokeEntitlement eventIds S t q
  | .return => .ok S

/-- `approve_redemption`, `reject_redemption` and `return_redemption`, each with its command. -/
def decideRedemption (decision : RedemptionDecision) (ctx : ClassContext) (t : Instant)
    (requestId entitlementId : Option ℕ) : Except Raise (ℕ × StoreState) := do
  let (request, grant) ← loadRedemption S ctx.classId requestId entitlementId
  let locked ← lockUnresolved S request grant
  let S' ← decision.resolve eventIds S t (grant.ending ctx.seatId (some locked.correlationId))
  return (locked.pendingActionId, S'.deletePending locked.pendingActionId)

/-- The row that `record_immediate_use_acknowledgement` writes. -/
def acknowledgementRow (classId : String) (seatId entitlementId : ℕ) (t : Instant) :
    PendingAction where
  pendingActionId := 0
  classId := classId
  seatId := seatId
  entitlementId := entitlementId
  correlationId := "immediate_use_ack:" ++ classId ++ ":" ++ toString entitlementId
  authoritativeFeat := "FEAT-STOR-002"
  kind := some .immediateUseAcknowledgement
  outcome := none
  requestedBySeatId := none
  destination := none
  submittedAt := t

def completeImmediateUse (ctx : ClassContext) (pendingActionId : ℕ) : Except Raise StoreState := do
  let locked ← demand (S.pendingActions.find? (·.pendingActionId = pendingActionId))
    (.valueError "This pending action has already been resolved")
  require (locked.kind = some .immediateUseAcknowledgement)
    (.valueError "This is not an immediate-use purchase.")
  require (locked.classId = ctx.classId) (.valueError "This purchase is not in this class.")
  return S.deletePending locked.pendingActionId

end Redemptions

end TokenHub.Store
