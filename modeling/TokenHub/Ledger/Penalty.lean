import Mathlib.Data.List.Dedup
import Mathlib.Data.List.Sort
import TokenHub.Ledger.Funding
import TokenHub.Ledger.OtherActions

set_option autoImplicit false

namespace TokenHub.Ledger

open Lib.Decimals Lib.Digits Lib.Checks Lib.Json

def penaltyFeat : String := "FEAT-LED-006"

def penaltyContext (correlationId : String) (now : ℤ) : FeatContext :=
  ⟨penaltyFeat, correlationId, now⟩

def stripped (s : String) : List Char :=
  ((s.toList.dropWhile isSpace).reverse.dropWhile isSpace).reverse

/-- What of a seat row decides whether its student can be fined. -/
structure SeatClaim where
  role : String
  claimedAt : Option ℤ
  userId : Option ℕ
deriving DecidableEq, Repr

def SeatClaim.Excluded (s : SeatClaim) : Prop :=
  s.role ≠ "student" ∨ s.claimedAt = none ∨ s.userId = none

instance (s : SeatClaim) : Decidable s.Excluded := by unfold SeatClaim.Excluded; infer_instance

/-- One submission. The directive is the class's own at the time of the call. -/
structure PenaltyRequest where
  classId : String
  seatIds : List ℕ
  amount : Decimal
  reason : String
  actorSeatId : ℕ
  expectedPreviewDigest : String
  correlationId : String
  idempotencyKey : String
  directiveVersion : Option String
  protectionEnabled : Bool
  now : ℤ
deriving DecidableEq, Repr

namespace PenaltyRequest

variable (q : PenaltyRequest)

def seats : List ℕ := q.seatIds.dedup.insertionSort (· ≤ ·)

def quantized : Hundredths := quantizeCurrency (some q.amount)

def context : FeatContext := penaltyContext q.correlationId q.now

/-- `get_banking_directive`, as far as funding reads it. -/
def directive : BankingDirective := ⟨q.classId, q.directiveVersion, q.protectionEnabled⟩

def description : List Char := ("Fine: ".toList ++ stripped q.reason).take 255

/-- What `penalty_batch_identity` hashes. -/
def batchMaterial : List Char :=
  List.intercalate [','] (q.seats.map natText) ++ '|' :: (q.quantized.toText ++ '|' :: q.description)

end PenaltyRequest

section Keys

variable (sha256 : String → String)

def PenaltyRequest.batchIdentity (q : PenaltyRequest) : List Char :=
  (sha256 (String.ofList q.batchMaterial)).toList.take 16

def penaltyTokenPrefix (token : String) : List Char := "penalty:".toList ++ token.toList ++ [':']

def penaltyIdempotencyKey (token : String) (batch : List Char) (seatId : ℕ) : String :=
  String.ofList (penaltyTokenPrefix token ++ batch ++ ':' :: natText seatId)

def PenaltyRequest.key (q : PenaltyRequest) (seatId : ℕ) : String :=
  penaltyIdempotencyKey q.idempotencyKey (q.batchIdentity sha256) seatId

/-- `[0-9a-f]{32}`. -/
def isSubmissionToken (token : String) : Prop :=
  token.toList.length = 32 ∧ ∀ c ∈ token.toList, c.isDigit = true ∨ c ∈ ['a', 'b', 'c', 'd', 'e', 'f']

instance (token : String) : Decidable (isSubmissionToken token) :=
  @instDecidableAnd _ _ inferInstance (List.decidableBAll _ token.toList)

end Keys

def penaltyRefused (message : String) : Raise := .domainError "PenaltyRefused" message

def lockLedgerSeats (L : LedgerState) (classId : String) (seats : List ℕ) : Except Raise Unit :=
  require (∀ s ∈ seats, L.seatClass s = some classId)
    (.domainError "RecoveryIntegrityError" "Invalid scoped seat.")

def tokenReservations (L : LedgerState) (classId token : String) : List LedgerCommandReservation :=
  L.reservations.filter (fun r ↦ r.classId = classId ∧ r.featCode = penaltyFeat ∧
    penaltyTokenPrefix token <+: r.idempotencyKey.toList)

/-- The penalty row of a reservation: `.one()`. -/
def penaltyRow (L : LedgerState) (r : LedgerCommandReservation) : Except Raise Transaction :=
  match (reservedRows L r.id).filter (·.type = some .penalty) with
  | [t] => .ok t
  | [] => .error (.domainError "NoResultFound" "No row was found when one was required")
  | _ => .error (.domainError "MultipleResultsFound"
      "Multiple rows were found when exactly one was required")

section Plans

def penaltyPlan (q : PenaltyRequest) (seatId : ℕ) : IntendedLedgerPlan where
  seatId := seatId
  classId := q.classId
  debitAmount := q.quantized.value
  transactionType := "penalty"
  actorSeatId := q.actorSeatId
  targetSeatId := seatId
  mechanism := "teacher"
  canonicalIntent := .arr [.str "penalty", .num seatId, text q.quantized.toText, text q.description]

def resolvePenaltyPlan (L : LedgerState) (q : PenaltyRequest) (seatId : ℕ) :
    Except Raise ResolvedLedgerPlan := do
  let plan ← buildIntendedLedgerPlan (penaltyPlan q seatId)
  resolveIntendedLedgerPlan L plan q.directive

def resolvePenaltyPlans (L : LedgerState) (q : PenaltyRequest) :
    Except Raise (List ResolvedLedgerPlan) := do
  require (0 < q.quantized.value) (.valueError "A penalty must be a positive amount.")
  q.seats.mapM (resolvePenaltyPlan L q)

def centsText (n : ℤ) : List Char := (Hundredths.ofCents n).toText

/-- What `penalty_preview_digest` hashes of one plan; `repr` is Python's. -/
def previewMaterial (repr : List Char → List Char) (q : PenaltyRequest) (r : ResolvedLedgerPlan) :
    List Char :=
  List.intercalate [':'] [natText r.intendedPlan.seatId, centsText r.intendedPlan.debitAmount,
    repr q.description, centsText r.checkingBefore, centsText r.savingsBefore,
    centsText r.recoveryTransferAmount]

def penaltyPreviewDigest (sha256 : String → String) (repr : List Char → List Char)
    (q : PenaltyRequest) (resolved : List ResolvedLedgerPlan) : String :=
  sha256 (String.ofList (List.intercalate ['|'] (resolved.map (previewMaterial repr q))))

end Plans

def applyPenaltyPlans (sha256 : String → String) (q : PenaltyRequest) :
    LedgerState → List ResolvedLedgerPlan → Except Raise (List Transaction × LedgerState)
  | L, [] => return ([], L)
  | L, plan :: plans => do
    let (applied, L₁) ← applyResolvedLedgerPlan sha256 q.context L plan
      (q.key sha256 plan.intendedPlan.seatId)
    -- A plan of a positive debit always reports its principal.
    let principal ← demand applied.principal (.runtimeError "The plan has no principal.")
    let (rows, L₂) ← applyPenaltyPlans sha256 q L₁ plans
    return (principal :: rows, L₂)

structure PenaltyResult where
  transactions : List Transaction
  replayed : Bool
deriving DecidableEq, Repr

def replayPenalty (sha256 : String → String) (L : LedgerState) (q : PenaltyRequest)
    (existing : List LedgerCommandReservation) : Except Raise PenaltyResult := do
  let keys := q.seats.map (q.key sha256)
  require ((∀ r ∈ existing, r.idempotencyKey ∈ keys) ∧
      ∀ k ∈ keys, k ∈ existing.map (·.idempotencyKey))
    (penaltyRefused ("This review was already used for a different fine, so nothing more was " ++
      "applied. Review the fine again to apply it."))
  let rows ← existing.mapM (penaltyRow L)
  return ⟨rows.insertionSort (·.seatId ≤ ·.seatId), true⟩

def executeTeacherPenalty (sha256 : String → String) (repr : List Char → List Char)
    (claims : ℕ → SeatClaim) (L : LedgerState) (q : PenaltyRequest) :
    Except Raise (PenaltyResult × LedgerState) := do
  require (q.seatIds ≠ []) (penaltyRefused "Select at least one student to fine.")
  require (¬ isBlank q.reason) (penaltyRefused "Enter the reason for the fine.")
  lockLedgerSeats L q.classId q.seats
  let excluded := q.seats.filter (fun s ↦ (claims s).Excluded)
  require (excluded = []) (penaltyRefused
    (String.ofList (natText excluded.length) ++
      " selected student(s) have not claimed their account and " ++
      "can't be fined. Nothing was applied; remove them and review again."))
  require (isSubmissionToken q.idempotencyKey)
    (penaltyRefused "The fine could not be applied. Review it again.")
  let existing := tokenReservations L q.classId q.idempotencyKey
  if existing ≠ [] then
    return (← replayPenalty sha256 L q existing, L)
  else
    let resolved ← resolvePenaltyPlans L q
    require (penaltyPreviewDigest sha256 repr q resolved = q.expectedPreviewDigest)
      (.domainError "PenaltyPreviewChanged" "")
    let (rows, L') ← applyPenaltyPlans sha256 q L resolved
    return (⟨rows, false⟩, L')

end TokenHub.Ledger
