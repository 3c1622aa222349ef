import TokenHub.HallPass.Lifecycle
import TokenHub.Ledger.Elsewhere

set_option autoImplicit false

namespace TokenHub.Store

open Ledger Lib.Checks Lib.Decimals
open Rent (Instant ClassZone AcquisitionType EntitlementEventType)

inductive ItemType
  | immediate
  | delayed
  | collective
  | hallPass
  | privilege
deriving DecidableEq, Repr

def ItemType.entitlementType : ItemType → EntitlementType
  | .immediate => .immediateUse
  | .delayed => .delayedUse
  | .collective => .collectiveGoal
  | .hallPass => .hallPass
  | .privilege => .privilege

inductive AvailabilityState
  | inUse
  | hidden
  | retired
deriving DecidableEq, Repr

inductive CollectiveGoalType
  | fixed
  | wholeClass
deriving DecidableEq, Repr

/-- One row of `store_products`, the price in cents. A lineage is a UUID, so it is not empty. -/
structure StoreProduct where
  policyUuid : String
  productLineageUuid : String
  classId : String
  name : String
  price : Option ℤ
  itemType : ItemType
  inventoryTotal : Option ℤ
  holdingLimit : Option ℤ
  directPurchaseAllowed : Bool
  availableWithOverdueObligations : Bool
  activationAt : Option Instant
  bulkDiscountEnabled : Bool
  bulkDiscountQuantity : Option ℤ
  bulkDiscountPercentage : Option Scaled
  collectiveGoalType : Option CollectiveGoalType
  collectiveGoalTarget : Option ℤ
  collectiveGoalExpiresAt : Option Instant
  availabilityState : AvailabilityState
  createdAt : Instant
  lineage_ne_empty : ¬ productLineageUuid = ""
deriving DecidableEq, Repr

/-- Everything that the store's commands read and write. `uuids` counts the identifiers drawn so
far, so the next one is new. -/
structure StoreState extends HallPass.PassState where
  ledger : LedgerState
  storeProducts : List StoreProduct
  uuids : ℕ

/-- What `_config_from_row` projects for a purchase. -/
structure StorePolicyConfig where
  productId : String
  isPurchasable : Bool
  price : Option ℤ
  entitlementType : EntitlementType
  holdingLimit : Option ℤ
  directPurchaseAllowed : Bool
  availableWithOverdueObligations : Bool
  name : String
  bulkDiscountQuantity : Option ℤ
  bulkDiscountPercentage : Option Scaled
  collectiveGoalExpiresAt : Option Instant
  policyUuid : String
  classId : String

def StoreProduct.config (product : StoreProduct) (now : Instant) : StorePolicyConfig where
  productId := product.productLineageUuid
  isPurchasable := product.availabilityState = .inUse ∧
    product.activationAt.all (fun activation ↦ ¬ now < activation)
  price := product.price
  entitlementType := product.itemType.entitlementType
  holdingLimit := product.holdingLimit
  directPurchaseAllowed := product.directPurchaseAllowed
  availableWithOverdueObligations := product.availableWithOverdueObligations
  name := product.name
  bulkDiscountQuantity := if product.bulkDiscountEnabled then product.bulkDiscountQuantity else none
  bulkDiscountPercentage :=
    if product.bulkDiscountEnabled then product.bulkDiscountPercentage else none
  collectiveGoalExpiresAt := product.collectiveGoalExpiresAt
  policyUuid := product.policyUuid
  classId := product.classId

section Reads

variable (S : StoreState)

def StoreState.product (policyUuid : String) : Option StoreProduct :=
  S.storeProducts.find? (fun p ↦ p.policyUuid = policyUuid)

def StoreState.resolveStoreItem (now : Instant) (policyUuid : String) : Option StorePolicyConfig :=
  (S.product policyUuid).map (·.config now)

/-- The order of `order_by(created_at.desc())`, read backwards. -/
def StoreProduct.Earlier (a b : StoreProduct) : Prop := a.createdAt ≤ b.createdAt

instance : DecidableRel StoreProduct.Earlier := fun a b ↦ by
  unfold StoreProduct.Earlier; infer_instance

def StoreState.newestVersion (classId lineage : String) : Option StoreProduct :=
  ((S.storeProducts.filter (fun p ↦ p.classId = classId ∧
    p.productLineageUuid = lineage)).insertionSort StoreProduct.Earlier).getLast?

def StoreState.resolveEntitlementProduct (event : EntitlementEvent) : Option StoreProduct :=
  match event.productId with
  | none => none
  | some lineage =>
    match event.policyUuid.bind (fun uuid ↦ S.storeProducts.find? (fun p ↦
        p.classId = event.classId ∧ p.policyUuid = uuid)) with
    | some version => some version
    | none => S.newestVersion event.classId lineage

end Reads

section Price

/-- `_calculate_debit` in cents, with whether the bulk discount applied. -/
def StorePolicyConfig.calculateDebit (config : StorePolicyConfig) (price quantity : ℤ) :
    Except Raise (ℤ × Bool) :=
  match config.bulkDiscountQuantity, config.bulkDiscountPercentage with
  | some threshold, some percentage =>
    if quantity < threshold then .ok (price * quantity, false)
    else
      match ((Scaled.mk (price * quantity) (-2)).inContext.mul
          percentage.hundredLess).quantizeHalfUp with
      | some discounted => .ok (discounted, true)
      | none => .error .decimalInvalidOperation
  | _, _ => .ok (price * quantity, false)

end Price

section Stock

variable (T : EntitlementTables) (classId lineage : String)

def EntitlementTables.purchaseRows (eventType : EntitlementEventType) : List EntitlementEvent :=
  T.entitlementEvents.filter (fun e ↦ e.classId = classId ∧ e.productId = some lineage ∧
    e.eventType = eventType ∧ e.acquisitionType = .purchase)

def EntitlementTables.unitsSold : ℕ :=
  (T.purchaseRows classId lineage .granted).length -
    (T.purchaseRows classId lineage .revoked).length

def StoreState.stockRemaining (S : StoreState) (product : StoreProduct) : Option ℤ :=
  product.inventoryTotal.map (fun total ↦
    max (total - S.unitsSold product.classId product.productLineageUuid) 0)

end Stock

end TokenHub.Store
