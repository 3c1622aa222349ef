import TokenHub.Store.Requests

set_option autoImplicit false

namespace TokenHub.Store

open Ledger Attendance Lib.Checks Lib.Json
open Rent (Instant AcquisitionType EntitlementEventType)

structure PurchaseResult where
  success : Bool
  correlationId : String
  quantityGranted : ℤ
  entitlementIds : List ℕ := []
  productId : Option String := none
  errorCode : Option String := none
  errorMessage : Option String := none
deriving DecidableEq, Repr

/-- The arguments of `execute_store_purchase`. The correlation is the FEAT context's own, the
caller's or a new one. -/
structure PurchaseCall where
  ctx : ClassContext
  policyUuid : String
  quantity : ℤ
  correlationId : String
  idempotencyKey : Option String
deriving DecidableEq, Repr

/-- Where the rent settings hold purchases back while rent is late, whether it is. -/
structure RentGate where
  preventPurchaseWhenLate : Bool
  isLate : Bool
  isPastDue : Bool
deriving DecidableEq, Repr

structure PurchaseMoment where
  now : Instant
  rentGate : Option RentGate
  bankingDirective : BankingDirective

def PurchaseCall.key (call : PurchaseCall) : Option String := call.idempotencyKey.filter (· ≠ "")

/-- How a purchase ends before its grants: a result, or an exception. -/
inductive PurchaseStop
  | returned (result : PurchaseResult)
  | raised (e : Raise)
deriving DecidableEq, Repr

def refused (correlationId code message : String) : PurchaseStop :=
  .returned {
    success := false
    correlationId := correlationId
    quantityGranted := 0
    errorCode := some code
    errorMessage := some message }

def raising {α : Type} : Except Raise α → Except PurchaseStop α := Except.mapError .raised

def storePurchaseFeat (call : PurchaseCall) (t : Instant) : FeatContext :=
  ⟨"FEAT-STOR-001", call.correlationId, t⟩

def canonicalIntent (call : PurchaseCall) : Value :=
  .arr [.str "STORE_PURCHASE", .str call.policyUuid, .num call.quantity]

section Replay

variable (sha256 : String → String) (S : StoreState) (call : PurchaseCall)

def EntitlementTables.purchaseGrants (T : EntitlementTables) (classId : String) (seatId : ℕ)
    (correlationId : String) : List EntitlementEvent :=
  T.entitlementEvents.filter (fun e ↦ e.classId = classId ∧ e.targetSeatId = seatId ∧
    e.correlationId = some correlationId ∧ e.eventType = .granted ∧
    e.acquisitionType = .purchase)

def replayPurchase : Except Raise (Option PurchaseResult) :=
  match call.key with
  | none => .ok none
  | some key => do
    let prior ← replayReservedCharge sha256 S.ledger ⟨call.ctx.classId, "FEAT-STOR-001", key⟩
      call.ctx.seatId call.ctx.seatId .purchase (canonicalIntent call)
    match prior with
    | none => return none
    | some principal =>
      let grants := S.purchaseGrants call.ctx.classId call.ctx.seatId principal.correlationId
      require (grants ≠ [] ∧ ∀ g ∈ grants, g.policyUuid = some call.policyUuid)
        (.valueError "Accepted purchase grant evidence is unavailable.")
      return some {
        success := true
        correlationId := principal.correlationId
        quantityGranted := grants.length
        entitlementIds := grants.map (·.entitlementId)
        productId := grants.head?.bind (·.productId) }

end Replay

section Guards

variable (sha256 : String → String) (S : StoreState) (m : PurchaseMoment) (call : PurchaseCall)

def checkPolicy (config : StorePolicyConfig) : Except PurchaseStop ℤ := do
  require (config.classId = call.ctx.classId)
    (refused "" "POLICY_SCOPE_MISMATCH" ("Policy UUID " ++ call.policyUuid ++
      " belongs to different class (" ++ config.classId ++ " vs " ++ call.ctx.classId ++ ")"))
  require (¬ (m.rentGate.any (fun g ↦ g.preventPurchaseWhenLate ∧ (g.isLate ∨ g.isPastDue)) ∧
      config.availableWithOverdueObligations = false))
    (refused "" "RENT_PAST_DUE_PURCHASE_BLOCKED"
      "Store purchases are blocked while rent is past due")
  require (config.isPurchasable = true)
    (refused "" "PRODUCT_NOT_PURCHASABLE" ("Product " ++ config.productId ++
      " is not purchasable"))
  require (config.directPurchaseAllowed = true)
    (refused "" "DIRECT_PURCHASE_NOT_ALLOWED"
      "This item is not available for direct student purchase")
  let price ← demand config.price
    (refused "" "PRICE_NOT_CONFIGURED" "This product has no configured purchase price")
  require (config.entitlementType ≠ .insurance)
    (refused "" "INSURANCE_NOT_PURCHASABLE_VIA_STORE"
      "Insurance is purchased via FEAT-OBL-004, not the store path")
  require (¬ ((config.entitlementType = .immediateUse ∨ config.entitlementType = .privilege) ∧
      call.quantity ≠ 1))
    (refused "" "QUANTITY_NOT_ALLOWED"
      "Immediate-use and privilege products may only be purchased one at a time")
  require (¬ (config.entitlementType = .collectiveGoal ∧ call.quantity ≠ 1))
    (refused "" "QUANTITY_NOT_ALLOWED" "A collective goal is one buy-in per student")
  require (config.collectiveGoalExpiresAt.all (fun deadline ↦ m.now < deadline) = true)
    (refused "" "COLLECTIVE_GOAL_EXPIRED"
      "This collective goal has passed its deadline and is closed to new purchases")
  return price

def holdingRefusal (config : StorePolicyConfig) (limit : ℤ) : PurchaseStop :=
  if config.entitlementType = .collectiveGoal then
    refused "" "COLLECTIVE_GOAL_ALREADY_JOINED"
      "This student already holds a buy-in for this collective goal"
  else
    refused "" "HOLDING_LIMIT_EXCEEDED"
      ("This purchase would exceed the holding limit of " ++ toString limit)

/-- `ensure_within_holding_limit`, as a purchase calls it. -/
def checkHolding (config : StorePolicyConfig) : Except PurchaseStop Unit :=
  match S.exceededHoldingLimit call.ctx.classId call.ctx.seatId (some config.productId)
      config.entitlementType config.holdingLimit call.quantity with
  | some limit => .error (holdingRefusal config limit)
  | none => .ok ()

/-- The first phase, which only reads: the policy and the price that the purchase goes on with. -/
def validatePurchase : Except PurchaseStop (StorePolicyConfig × ℤ) := do
  require (call.ctx.classId ≠ "" ∧ call.ctx.seatId ≠ 0)
    (refused "" "INVALID_CONTEXT" "Missing canonical context (class_id, seat_id)")
  let _ ← demand (S.seat call.ctx.seatId call.ctx.classId)
    (refused "" "INVALID_CONTEXT" "Target seat not found or not in class scope")
  require (0 < call.quantity)
    (refused "" "QUANTITY_NOT_ALLOWED" "Quantity must be a positive integer")
  match ← raising (replayPurchase sha256 S call) with
  | some result => .error (.returned result)
  | none =>
    let config ← demand (S.resolveStoreItem m.now call.policyUuid)
      (refused "" "POLICY_NOT_FOUND" ("Policy UUID " ++ call.policyUuid ++
        " not found (may have been deleted)"))
    let price ← checkPolicy m call config
    checkHolding S call config
    return (config, price)

end Guards

section Funding

variable (sha256 : String → String) (S : StoreState) (m : PurchaseMoment) (call : PurchaseCall)

def purchasePlan (debit : ℤ) : IntendedLedgerPlan where
  seatId := call.ctx.seatId
  classId := call.ctx.classId
  debitAmount := debit
  transactionType := "purchase"
  actorSeatId := call.ctx.seatId
  targetSeatId := call.ctx.seatId
  mechanism := "self"
  canonicalIntent := canonicalIntent call

def ledgerIdempotencyKey : String :=
  call.key.getD ("store-purchase:" ++ call.correlationId ++ ":ledger-plan")

/-- The second phase: the debit, funded whole or refused. -/
def fundPurchase (debit : ℤ) : Except PurchaseStop LedgerState := do
  let intended ← raising (buildIntendedLedgerPlan (purchasePlan call debit))
  let resolved ← raising (resolveIntendedLedgerPlan S.ledger intended m.bankingDirective)
  require (¬ (0 < debit ∧ resolved.checkingAfter < 0))
    (refused call.correlationId "INSUFFICIENT_FUNDS"
      "Checking, with any overdraft-protection transfer, does not cover this purchase")
  let (_, L) ← raising (applyResolvedLedgerPlan sha256 (storePurchaseFeat call m.now) S.ledger
    resolved (ledgerIdempotencyKey call))
  return L

end Funding

section Granting

variable (eventIds : ℕ → ℕ) (m : PurchaseMoment) (call : PurchaseCall)

def purchaseRow (config : StorePolicyConfig) (eventType : EntitlementEventType) :
    EntitlementEvent where
  eventId := 0
  classId := call.ctx.classId
  entitlementId := 0
  targetSeatId := call.ctx.seatId
  actorSeatId := call.ctx.seatId
  productId := some config.productId
  entitlementType := config.entitlementType
  acquisitionType := .purchase
  eventType := eventType
  correlationId := some call.correlationId
  policyUuid := some config.policyUuid
  timestamp := m.now

def consumeAtSale (config : StorePolicyConfig) (S : StoreState) (units : List ℕ) : StoreState :=
  units.foldl (fun S i ↦ S.record eventIds
    { purchaseRow m call config .consumed with entitlementId := i }) S

def queueAcknowledgements : StoreState → List ℕ → Except Raise StoreState
  | S, [] => return S
  | S, i :: units => do
    let S' ← S.insertPending (acknowledgementRow call.ctx.classId call.ctx.seatId i m.now)
    queueAcknowledgements S' units

/-- The last two phases: a lineage for each unit, ended at once where the item is for
immediate use. -/
def grantPurchase (config : StorePolicyConfig) (S : StoreState) :
    Except Raise (List ℕ × StoreState) := do
  let units := (List.range call.quantity.toNat).map (S.uuids + ·)
  let granted := S.recordGrants eventIds (purchaseRow m call config .granted)
    call.quantity.toNat
  if config.entitlementType = .immediateUse then
    let S' ← queueAcknowledgements m call (consumeAtSale eventIds m call config granted units)
      units
    return (units, S')
  else return (units, granted)

end Granting

section Command

variable (eventIds : ℕ → ℕ) (sha256 : String → String) (S : StoreState) (m : PurchaseMoment)
  (call : PurchaseCall)

def purchase : Except PurchaseStop (PurchaseResult × StoreState) := do
  let (config, price) ← validatePurchase sha256 S m call
  let (debit, _) ← raising (config.calculateDebit price call.quantity)
  let L ← fundPurchase sha256 S m call debit
  let (units, S') ← raising (grantPurchase eventIds m call config { S with ledger := L })
  return ({
    success := true
    correlationId := call.correlationId
    quantityGranted := call.quantity
    entitlementIds := units
    productId := some config.productId }, S')

/-- `execute_store_purchase`. Whatever it returns early, it returns before its first write. -/
def executeStorePurchase : Except Raise (PurchaseResult × StoreState) :=
  match purchase eventIds sha256 S m call with
  | .ok done => .ok done
  | .error (.returned result) => .ok (result, S)
  | .error (.raised e) => .error e

end Command

end TokenHub.Store
