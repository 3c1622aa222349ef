import TokenHub.Rent.Obligations

set_option autoImplicit false

namespace TokenHub.Rent

open Ledger Lib.Checks

section Holdings

variable (S : RentState) (env : Surroundings)

/-- `ended_entitlement_ids`: a terminal event, or a logged use. -/
def entitlementEnded (classId : String) (entitlementId : ℕ) : Bool :=
  S.entitlementEvents.any (fun e ↦ e.classId = classId ∧ e.entitlementId = entitlementId ∧
    e.eventType ≠ .granted) || env.usedHallPasses.contains entitlementId

def getActiveHoldingQuantity (classId : String) (seatId : ℕ) (lineage : String) : ℕ :=
  (S.entitlementEvents.filter (fun e ↦ e.classId = classId ∧ e.targetSeatId = seatId ∧
    e.productId = some lineage ∧ e.eventType = .granted ∧
    entitlementEnded S env classId e.entitlementId = false)).length

/-- `ensure_within_holding_limit` for the exact product version that is granted. A bare hall pass
has no product and no limit. -/
def withinHoldingLimit (classId : String) (seatId : ℕ) (g : BenefitGrant)
    (product : Option StoreProduct) : Bool :=
  match g.productLineageUuid, product with
  | some lineage, some p =>
    match if g.entitlementType = .privilege then some 1 else p.holdingLimit with
    | none => true
    | some limit =>
      decide ((getActiveHoldingQuantity S env classId seatId lineage : ℤ) + g.quantity ≤ limit)
  | _, _ => true

end Holdings

/-- One `GRANTED` event for each unit, as `grant_hall_passes` and `grant_store_entitlements`
append them for a perk. -/
def perkEvents (S : RentState) (now : Instant) (classId : String) (seatId actorSeatId : ℕ)
    (correlationId : String) (g : BenefitGrant) : List EntitlementEvent :=
  (List.range g.quantity).map fun i ↦
    { classId := classId, targetSeatId := seatId, actorSeatId := actorSeatId,
      entitlementId := S.entitlementEvents.length + 1 + i, productId := g.productLineageUuid,
      entitlementType := g.entitlementType, acquisitionType := .perk, eventType := .granted,
      correlationId := some correlationId, timestamp := now }

/-- One entry of the benefit list. A deleted product or a full holding skips the entry, and the
rent stays settled. -/
def awardGrant (env : Surroundings) (now : Instant) (classId : String) (seatId actorSeatId : ℕ)
    (correlationId : String) (S : RentState) (g : BenefitGrant) : ℕ × RentState :=
  let product := g.productLineageUuid.bind (env.currentVersion classId)
  if g.productLineageUuid.isSome ∧ product = none then (0, S)
  else if withinHoldingLimit S env classId seatId g product then
    let granted := perkEvents S now classId seatId actorSeatId correlationId g
    (g.quantity, { S with entitlementEvents := S.entitlementEvents ++ granted })
  else (0, S)

def awardGrants (env : Surroundings) (now : Instant) (classId : String) (seatId actorSeatId : ℕ)
    (correlationId : String) : RentState → List BenefitGrant → ℕ × RentState
  | S, [] => (0, S)
  | S, g :: gs =>
    let (n, S') := awardGrant env now classId seatId actorSeatId correlationId S g
    let (m, S'') := awardGrants env now classId seatId actorSeatId correlationId S' gs
    (n + m, S'')

def awardSatisfactionPerks (env : Surroundings) (now : Instant) (S : RentState)
    (settings : RentSettings) (classId : String) (seatId : ℕ) (correlationId : String) :
    Except Raise (ℕ × RentState) := do
  if settings.satisfactionBenefits = [] then return (0, S)
  else
    let actorSeatId ← env.teacherSeat classId
    return awardGrants env now classId seatId actorSeatId correlationId S
      settings.satisfactionBenefits

def perksAlreadyGranted (S : RentState) (classId correlationId : String) : Bool :=
  S.entitlementEvents.any (fun e ↦ e.classId = classId ∧ e.correlationId = some correlationId ∧
    e.acquisitionType = .perk ∧ e.eventType = .granted)

/-- `expire_rent_perks`. A used pass is spent, and one with a request waiting is not removed. -/
def expireRentPerks (env : Surroundings) (now : Instant) (actorSeatId : ℕ) (classId : String)
    (S : RentState) (correlationId : String) : ℕ × RentState :=
  let grants := S.entitlementEvents.filter (fun e ↦ e.classId = classId ∧
    e.correlationId = some correlationId ∧ e.acquisitionType = .perk ∧ e.eventType = .granted ∧
    entitlementEnded S env classId e.entitlementId = false ∧
    e.entitlementId ∉ env.pendingActions)
  let expiries := grants.map (fun e ↦
    { e with actorSeatId := actorSeatId, eventType := .expired, timestamp := now })
  (expiries.length, { S with entitlementEvents := S.entitlementEvents ++ expiries })

end TokenHub.Rent
