import TokenHub.Ledger.Resolution

set_option autoImplicit false

namespace TokenHub.Rent

open Ledger

abbrev Instant := ℤ

inductive EntitlementType
  | hallPass
  | immediateUse
  | delayedUse
  | privilege
deriving DecidableEq, Repr

/-- One validated entry of `satisfaction_benefits`. Only a hall pass may name no product. -/
structure BenefitGrant where
  entitlementType : EntitlementType
  quantity : ℕ
  productLineageUuid : Option String
  quantity_pos : 0 < quantity
  product_named : entitlementType ≠ .hallPass → productLineageUuid.isSome
deriving DecidableEq, Repr

inductive AvailabilityState
  | inUse
  | hidden
  | retired
deriving DecidableEq, Repr

/-- One row of `rent_settings`. The amounts are `Numeric(12, 2)` and held in cents. -/
structure RentSettings where
  id : ℕ
  policyUuid : String
  classId : String
  availabilityState : AvailabilityState
  rentConfiguredAt : Instant
  rentAmount : Option ℤ
  frequencyType : Option String
  customFrequencyValue : Option ℤ
  customFrequencyUnit : Option String
  firstRentDueDate : Option Instant
  dueDayOfMonth : Option ℤ
  gracePeriodDays : Option ℤ
  latePenaltyAmount : Option ℤ
  latePenaltyType : Option String
  latePenaltyFrequencyDays : Option ℤ
  billPreviewEnabled : Bool
  billPreviewDays : Option ℤ
  allowIncrementalPayment : Bool
  satisfactionBenefits : List BenefitGrant
deriving DecidableEq, Repr

/-- One row of `bill_cycles`. A cycle with no next assessment is terminal. -/
structure BillCycle where
  id : ℕ
  classId : String
  internalRef : String
  cycleNumber : ℕ
  policyUuid : Option String
  cycleBoundaryAt : Instant
  nextAssessmentAt : Option Instant
  graceBoundaryAt : Option Instant
deriving DecidableEq, Repr

inductive EventType
  | assessment
  | payment
  | waived
  | withdrawn
deriving DecidableEq, Repr

inductive ObligationType
  | rent
  | lateFee
  | insurancePremium
  | other (name : String)
deriving DecidableEq, Repr

structure ObligationAssessment where
  id : ℕ
  seatId : ℕ
  classId : String
  internalRef : String
  correlationId : String
  sourceCorrelationId : Option String := none
  eventType : EventType
  obligationType : ObligationType
  policyUuid : Option String := none
  timestamp : Instant
  billCycleId : Option ℕ := none
  ledgerTransactionId : Option ℕ := none
deriving DecidableEq, Repr

inductive AcquisitionType
  | grant
  | purchase
  | perk
deriving DecidableEq, Repr

inductive EntitlementEventType
  | granted
  | consumed
  | expired
  | revoked
deriving DecidableEq, Repr

/-- One row of `entitlement_events`. The random entitlement id is a fresh number here. -/
structure EntitlementEvent where
  classId : String
  targetSeatId : ℕ
  actorSeatId : ℕ
  entitlementId : ℕ
  productId : Option String
  entitlementType : EntitlementType
  acquisitionType : AcquisitionType
  eventType : EntitlementEventType
  correlationId : Option String
  timestamp : Instant
deriving DecidableEq, Repr

structure Seat where
  id : ℕ
  classId : String
  role : String
  claimedAt : Option Instant
  hasReceivedRentExemption : Bool
deriving DecidableEq, Repr

/-- One row of the `rent` feature's history; without an economic version it is a disablement. -/
structure ClassFeature where
  classId : String
  effectiveAt : Instant
  economicVersionId : Option String
deriving DecidableEq, Repr

structure ObligationCommandReservation where
  classId : String
  idempotencyKey : String
  replayFingerprint : String
  billCycleId : ℕ
deriving DecidableEq, Repr

structure RentState where
  ledger : LedgerState
  rentSettings : List RentSettings
  /-- The premium of an insurance policy version in a class, in cents. -/
  premiums : String → String → Option ℤ
  assessmentEvents : List ObligationAssessment
  billCycles : List BillCycle
  successions : List ObligationCommandReservation
  entitlementEvents : List EntitlementEvent
  seats : List Seat
  features : List ClassFeature

def RentState.empty (seatClass : ℕ → Option String) (premiums : String → String → Option ℤ) :
    RentState where
  ledger := .empty seatClass
  rentSettings := []
  premiums := premiums
  assessmentEvents := []
  billCycles := []
  successions := []
  entitlementEvents := []
  seats := []
  features := []

/-- The part of a store product's version that a grant reads. -/
structure StoreProduct where
  policyUuid : String
  holdingLimit : Option ℤ
deriving DecidableEq, Repr

structure EconomicEngine where
  economicVersionId : String
  overdraftProtectionEnabled : Bool
deriving DecidableEq, Repr

/-- What other domains answer while one command runs. None of it is fixed from one command to
the next. -/
structure Surroundings where
  /-- `economic_engine_effective_at`. -/
  engine : String → Option EconomicEngine
  /-- `resolve_teacher_seat_for_class`, with what it raises. -/
  teacherSeat : String → Except Raise ℕ
  /-- `store_service.get_current_version`. -/
  currentVersion : String → String → Option StoreProduct
  /-- Hall passes that a log already names, and entitlements with a request waiting. -/
  usedHallPasses : List ℕ
  pendingActions : List ℕ

def Surroundings.bankingDirective (env : Surroundings) (classId : String) : BankingDirective where
  classId := classId
  versionLocator := (env.engine classId).map (·.economicVersionId)
  protectionEnabled := (env.engine classId).any (·.overdraftProtectionEnabled)

end TokenHub.Rent
