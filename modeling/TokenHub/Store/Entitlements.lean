import TokenHub.Store.Products

set_option autoImplicit false

namespace TokenHub.Store

open Ledger Attendance Lib.Checks
open Rent (Instant AcquisitionType EntitlementEventType)

section Balance

variable (T : EntitlementTables) (classId : String) (seatId : ℕ)

/-- The rows that `get_entitlement_balance` counts. -/
def EntitlementTables.balanceRows (type : EntitlementType) (productId : Option String)
    (counted : EntitlementEvent → Bool) : List EntitlementEvent :=
  T.entitlementEvents.filter (fun e ↦ e.targetSeatId = seatId ∧ e.classId = classId ∧
    e.entitlementType = type ∧ counted e ∧ productId.all (fun p ↦ e.productId = some p))

/-- The passes of granted lineages that a log ends and no event does. -/
def EntitlementTables.loggedOnly (granted terminal : List EntitlementEvent) : List ℕ :=
  (((T.hallPassLogs.filter (·.classId = classId)).filterMap (·.hallPassId)).dedup).filter
    (fun i ↦ i ∈ granted.map (·.entitlementId) ∧ i ∉ terminal.map (·.entitlementId))

def EntitlementTables.getEntitlementBalance (type : EntitlementType)
    (productId : Option String) : ℤ :=
  let granted := T.balanceRows classId seatId type productId (·.eventType = .granted)
  let terminal := T.balanceRows classId seatId type productId (·.isTerminal)
  let logged := if type = .hallPass then (T.loggedOnly classId granted terminal).length else 0
  granted.length - (terminal.length + logged)

def EntitlementTables.heldGrants (lineage : String) : List EntitlementEvent :=
  T.entitlementEvents.filter (fun e ↦ e.classId = classId ∧ e.targetSeatId = seatId ∧
    e.productId = some lineage ∧ e.eventType = .granted ∧ ¬ T.ended classId e.entitlementId)

def EntitlementTables.activeHoldingQuantity (lineage : String) : ℕ :=
  (T.heldGrants classId seatId lineage).length

end Balance

/-- The limit that binds an entitlement type, the product's own for most. -/
def effectiveHoldingLimit (type : EntitlementType) (holdingLimit : Option ℤ) : Option ℤ :=
  if type = .privilege ∨ type = .collectiveGoal then some 1 else holdingLimit

/-- `ensure_within_holding_limit`: the limit that a grant would exceed. -/
def EntitlementTables.exceededHoldingLimit (T : EntitlementTables) (classId : String)
    (seatId : ℕ) (lineage : Option String) (type : EntitlementType) (holdingLimit : Option ℤ)
    (grantQuantity : ℤ) : Option ℤ :=
  match effectiveHoldingLimit type holdingLimit, lineage.filter (· ≠ "") with
  | some limit, some product =>
    if limit < T.activeHoldingQuantity classId seatId product + grantQuantity then some limit
    else none
  | _, _ => none

variable (eventIds : ℕ → ℕ)

section Rows

variable (S : StoreState)

/-- A new row, under the random id of its place in the table. -/
def StoreState.record (row : EntitlementEvent) : StoreState :=
  { S with entitlementEvents := S.entitlementEvents ++
      [{ row with eventId := eventIds S.entitlementEvents.length }] }

def StoreState.recordGrant (row : EntitlementEvent) : StoreState :=
  { S.record eventIds { row with entitlementId := S.uuids } with uuids := S.uuids + 1 }

def StoreState.recordGrants (row : EntitlementEvent) : ℕ → StoreState → StoreState
  | 0, S => S
  | n + 1, S => StoreState.recordGrants row n (S.recordGrant eventIds row)

end Rows

section Grants

variable (S : StoreState) (t : Instant)

structure GrantRequest where
  seatId : ℕ
  classId : String
  quantity : ℤ
  actorSeatId : ℕ
  correlationId : String
  acquisitionType : AcquisitionType
  productLineageUuid : Option String
  policyUuid : Option String

def ensureProductHoldingLimit (q : GrantRequest) (type : EntitlementType) : Except Raise Unit :=
  match q.productLineageUuid.filter (· ≠ ""), q.policyUuid.filter (· ≠ "") with
  | some lineage, some policy =>
    let limit := (S.storeProducts.find? (fun p ↦ p.classId = q.classId ∧
      p.policyUuid = policy)).bind (·.holdingLimit)
    match S.exceededHoldingLimit q.classId q.seatId (some lineage) type limit q.quantity with
    | some exceeded => .error (.valueError ("Granting " ++ toString q.quantity ++
        " would exceed the holding limit of " ++ toString exceeded ++ " (" ++
        toString (S.activeHoldingQuantity q.classId q.seatId lineage) ++ " already held)"))
    | none => .ok ()
  | _, _ => .ok ()

def GrantRequest.row (q : GrantRequest) (type : EntitlementType) : EntitlementEvent where
  eventId := 0
  classId := q.classId
  entitlementId := 0
  targetSeatId := q.seatId
  actorSeatId := q.actorSeatId
  productId := q.productLineageUuid
  entitlementType := type
  acquisitionType := q.acquisitionType
  eventType := .granted
  correlationId := some q.correlationId
  policyUuid := q.policyUuid
  timestamp := t

def grantHallPasses (q : GrantRequest) : Except Raise StoreState := do
  require (0 < q.quantity) (.valueError "Hall-pass grant quantity must be positive")
  ensureProductHoldingLimit S q .hallPass
  return S.recordGrants eventIds (q.row t .hallPass) q.quantity.toNat

def grantStoreEntitlements (type : EntitlementType) (q : GrantRequest) :
    Except Raise StoreState := do
  require (type = .immediateUse ∨ type = .delayedUse ∨ type = .privilege)
    (.valueError "entitlement_type must be one of ('IMMEDIATE_USE', 'DELAYED_USE', 'PRIVILEGE')")
  require (q.productLineageUuid.any (· ≠ "") = true)
    (.valueError "product_lineage_uuid is required for store entitlements")
  require (0 < q.quantity) (.valueError "Entitlement grant quantity must be positive")
  ensureProductHoldingLimit S q type
  return S.recordGrants eventIds (q.row t type) q.quantity.toNat

/-- `grant_insurance_entitlement`: a replay finds the grant of its correlation. -/
def grantInsuranceEntitlement (q : GrantRequest) : Except Raise StoreState := do
  require (q.policyUuid.any (· ≠ "") = true)
    (.valueError "grant_insurance_entitlement requires a policy_uuid")
  if ∃ e ∈ S.entitlementEvents, e.classId = q.classId ∧ e.targetSeatId = q.seatId ∧
      e.entitlementType = .insurance ∧ e.eventType = .granted ∧
      e.correlationId = some q.correlationId then return S
  else
    return S.recordGrant eventIds { q.row t .insurance with
      productId := none
      acquisitionType := .purchase }

end Grants

section Endings

variable (S : StoreState) (t : Instant)

structure EndingRequest where
  entitlementId : ℕ
  classId : String
  targetSeatId : ℕ
  actorSeatId : ℕ
  productId : Option String
  entitlementType : EntitlementType
  acquisitionType : AcquisitionType
  correlationId : Option String
deriving DecidableEq, Repr

def EntitlementEvent.ending (grant : EntitlementEvent) (actorSeatId : ℕ)
    (correlationId : Option String) : EndingRequest where
  entitlementId := grant.entitlementId
  classId := grant.classId
  targetSeatId := grant.targetSeatId
  actorSeatId := actorSeatId
  productId := grant.productId
  entitlementType := grant.entitlementType
  acquisitionType := grant.acquisitionType
  correlationId := correlationId

def EndingRequest.row (q : EndingRequest) (eventType : EntitlementEventType) :
    EntitlementEvent where
  eventId := 0
  classId := q.classId
  entitlementId := q.entitlementId
  targetSeatId := q.targetSeatId
  actorSeatId := q.actorSeatId
  productId := q.productId
  entitlementType := q.entitlementType
  acquisitionType := q.acquisitionType
  eventType := eventType
  correlationId := q.correlationId
  policyUuid := none
  timestamp := t

def lockHallPassHolder (seatId : ℕ) (classId : String) : Except Raise Unit := do
  let _ ← demand (S.seat seatId classId)
    (.valueError "Hall-pass holder must be a seat in the class.")
  return ()

def checkHallPassRequests (q : EndingRequest) : Except Raise Unit :=
  if q.entitlementType = .hallPass then do
    lockHallPassHolder S q.targetSeatId q.classId
    require (S.hasPendingAction q.classId q.entitlementId = false)
      (.valueError ("Hall pass " ++ toString q.entitlementId ++
        " has a request waiting and cannot be ended"))
  else .ok ()

def EntitlementEventType.value : EntitlementEventType → String
  | .granted => "GRANTED"
  | .consumed => "CONSUMED"
  | .expired => "EXPIRED"
  | .revoked => "REVOKED"

def alreadyTerminal (q : EndingRequest) (terminal : EntitlementEvent) : Raise :=
  .valueError ("Entitlement " ++ toString q.entitlementId ++ " already has terminal event: " ++
    EntitlementEventType.value terminal.eventType)

def checkUnused (q : EndingRequest) : Except Raise Unit :=
  require (S.isUsedHallPass q.classId q.entitlementId = false)
    (.valueError ("Entitlement " ++ toString q.entitlementId ++ " is a hall pass already used"))

/-- What `consume_entitlement` and `revoke_entitlement` share. -/
def endEntitlement (eventType : EntitlementEventType) (q : EndingRequest) :
    Except Raise StoreState := do
  checkHallPassRequests S q
  match S.terminalEvent q.classId q.entitlementId with
  | some terminal => .error (alreadyTerminal q terminal)
  | none =>
    checkUnused S q
    return S.record eventIds (q.row t eventType)

def consumeEntitlement (q : EndingRequest) : Except Raise StoreState :=
  endEntitlement eventIds S t .consumed q

def revokeEntitlement (q : EndingRequest) : Except Raise StoreState :=
  endEntitlement eventIds S t .revoked q

/-- `expire_entitlement`: unlike the other two, it takes an expired lineage as done. -/
def expireEntitlement (q : EndingRequest) : Except Raise StoreState := do
  checkHallPassRequests S q
  match S.terminalEvent q.classId q.entitlementId with
  | some terminal =>
    if terminal.eventType = .expired then return S else .error (alreadyTerminal q terminal)
  | none =>
    checkUnused S q
    return S.record eventIds (q.row t .expired)

/-- `revoke_reversed_purchase_grants`, and every other loop that ends one grant after another. -/
def endEach (finish : StoreState → EndingRequest → Except Raise StoreState) :
    StoreState → List EndingRequest → Except Raise StoreState
  | S, [] => return S
  | S, q :: qs => do
    let S' ← finish S q
    endEach finish S' qs

/-- The grants that `remove_hall_passes` may take, oldest first. -/
def removableHallPasses (seatId : ℕ) (classId : String) : List EntitlementEvent :=
  ((S.entitlementEvents.filter (fun e ↦ e.classId = classId ∧ e.targetSeatId = seatId ∧
    e.entitlementType = .hallPass ∧ e.eventType = .granted ∧
    e.acquisitionType = .grant)).insertionSort EntitlementEvent.Sooner).filter
      (fun e ↦ ¬ (S.ended classId e.entitlementId ∨ S.hasPendingAction classId e.entitlementId))

def removeHallPasses (seatId : ℕ) (classId : String) (quantity : ℤ) (actorSeatId : ℕ)
    (correlationId : String) : Except Raise StoreState := do
  require (0 < quantity) (.valueError "Hall-pass removal quantity must be positive")
  lockHallPassHolder S seatId classId
  let available := removableHallPasses S seatId classId
  require (quantity ≤ available.length)
    (.valueError ("Not enough unused teacher-granted hall passes. Purchased passes, rent perks, " ++
      "and passes with a request waiting cannot be removed here."))
  endEach (fun S q ↦ revokeEntitlement eventIds S t q) S
    ((available.take quantity.toNat).map (·.ending actorSeatId (some correlationId)))

def rentPerkGrants (classId correlationId : String) : List EntitlementEvent :=
  S.entitlementEvents.filter (fun e ↦ e.classId = classId ∧
    e.correlationId = some correlationId ∧ e.acquisitionType = .perk ∧ e.eventType = .granted)

def expireRentPerks (classId correlationId : String) (actorSeatId : ℕ) :
    Except Raise StoreState := do
  let grants := rentPerkGrants S classId correlationId
  require (∀ g ∈ grants, g.entitlementType = .hallPass → (S.seat g.targetSeatId classId).isSome)
    (.valueError "Hall-pass holder must be a seat in the class.")
  let lapsing := grants.filter (fun g ↦ ¬ (S.ended classId g.entitlementId ∨
    S.hasPendingAction classId g.entitlementId))
  return lapsing.foldl (fun S g ↦ S.record eventIds
    ((g.ending actorSeatId (some correlationId)).row t .expired)) S

end Endings

end TokenHub.Store
