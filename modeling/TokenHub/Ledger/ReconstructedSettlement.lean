import TokenHub.Ledger.ReconstructedShares
import TokenHub.Ledger.Recovery

set_option autoImplicit false

namespace TokenHub.Ledger

open Lib.Decimals Lib.Digits Lib.Checks Lib.Tally
open Attendance (HashKey HistoricalReconstructedEvent HistoricalReconstructedGraph
  HistoricalReconstructedRecovery HistoricalReconstructedShare PairId PairKey ReplayContext getOr
  hashKey)
open Payroll (PayrollEventType)

/-- A row of `ledger_transaction` as its history may have left it. The amount is a
`Numeric(12, 2)`, so it is held in hundredths. -/
structure HistoricalRow where
  id : ℕ
  classId : String
  seatId : ℕ
  targetSeatId : ℕ
  actorSeatId : ℕ
  mechanism : String
  amount : ℤ
  amountCents : ℤ
  accountType : String
  type : Option String
  correlationId : String
  idempotencyKey : Option String
  originalTransactionId : Option ℕ
  compensationOriginLocator : Option String
  compensationAmountCents : Option ℤ
  correctionIntentLocator : Option String
  postingSequence : Option ℤ
  lineageVersion : Option ℕ
  lineageEventId : Option ℕ
deriving DecidableEq

structure HistoricalAuditCoverage where
  tableName : String
  rowPk : String
  classId : String
  envelopeStatus : String
  chainStatus : String
  reasons : List String

/-- Verified creation records of Ledger rows: which rows agree with their record, and which agree
with a record that protects the fields of a source, or those of a recovery. -/
structure SettlementEvidence where
  confirms : HistoricalRow → Bool
  confirmsSource : HistoricalRow → Bool
  confirmsRecovery : HistoricalRow → Bool

structure SignedBusinessEvent where
  tableName : String
  rowPk : String
  classId : String
  targetSeatId : PyValue
  summary : PyValue

def rowPk (id : ℕ) : String := String.ofList (natText id)

def HistoricalRow.locator (r : HistoricalRow) : String := ledgerOriginLocator r.id

def ledgerEffectLocator (id : ℕ) : String := "ledger-effect:v1:" ++ String.ofList (natText id)

section Rows

variable (graph : HistoricalReconstructedGraph) (evidence : SettlementEvidence)

def HistoricalRow.money (r : HistoricalRow) : Prop :=
  (r.type.getD "None").toUpper ≠ "VOID" ∧ r.amount = r.amountCents ∧
    r.postingSequence.any (0 < ·) = true

instance (r : HistoricalRow) : Decidable r.money := by unfold HistoricalRow.money; infer_instance

def checkRecord (observations : List HistoricalAuditCoverage) (r : HistoricalRow) :
    Except SettlementRaise Unit := do
  let o ← demand (observations.reverse.find? (·.rowPk = rowPk r.id)) provenanceUnavailable
  require (o.classId = graph.classId ∧ o.tableName = "ledger_transaction" ∧
    o.envelopeStatus ≠ "INVALID" ∧ o.chainStatus ≠ "INVALID" ∧
    "PROTECTED_PAYLOAD_MISMATCH" ∉ o.reasons) integrityFailure
  require (r.lineageEventId.isSome = true → o.envelopeStatus = "AUTHENTICATED")
    provenanceUnavailable
  require (r.lineageVersion = some 1 ∨ r.lineageVersion = some 2 ∨ r.lineageVersion = some 3)
    provenanceUnavailable
  require (r.lineageVersion = some 2 ∨ r.lineageVersion = some 3 → evidence.confirms r = true)
    provenanceUnavailable
  require r.money integrityFailure

def provenUnrelatedReversal (originLocators : List String) (records : List HistoricalRow)
    (r : HistoricalRow) : Prop :=
  r.type = some "REVERSAL" ∧ r.lineageVersion = some 3 ∧
    r.compensationOriginLocator.getD "" ≠ "" ∧
    r.compensationOriginLocator.getD "" ∉ originLocators ∧
    ∃ original ∈ (records.reverse.find? fun o ↦ some o.locator = r.compensationOriginLocator),
      (original.lineageVersion = some 2 ∨ original.lineageVersion = some 3) ∧
      evidence.confirmsSource original = true ∧
      evidence.confirmsRecovery r = true ∧
      original.type ≠ some "REVERSAL" ∧ 0 < original.amountCents ∧ r.classId = original.classId ∧
      r.seatId = r.targetSeatId ∧ r.targetSeatId = original.seatId ∧
      original.seatId = original.targetSeatId ∧ r.accountType = original.accountType ∧
      r.correlationId = original.correlationId ∧ r.originalTransactionId = some original.id ∧
      r.amountCents = -original.amountCents ∧
      r.compensationAmountCents = some original.amountCents ∧
      r.correctionIntentLocator.getD "" ≠ ""

instance (originLocators : List String) (records : List HistoricalRow) (r : HistoricalRow) :
    Decidable (provenUnrelatedReversal evidence originLocators records r) := by
  unfold provenUnrelatedReversal; infer_instance

end Rows

section Credits

variable (decimal : String → Option Decimal)

def arithmeticRule (e : HistoricalReconstructedEvent) : String :=
  if e.multiplyFirst = true then "multiply_first_half_even_28" else "divide_first_half_even_28"

/-- A row that the correlation or the key of an event leads to. -/
def reachedBy (e : HistoricalReconstructedEvent) (r : HistoricalRow) : Prop :=
  e.event.correlationId ≠ "" ∧ r.correlationId = e.event.correlationId ∨
    e.event.idempotencyKey ≠ "" ∧ r.idempotencyKey = some e.event.idempotencyKey

instance (e : HistoricalReconstructedEvent) (r : HistoricalRow) : Decidable (reachedBy e r) := by
  unfold reachedBy; infer_instance

def bindHistoricalCredit (e : HistoricalReconstructedEvent) (records : List HistoricalRow) :
    Except SettlementRaise HistoricalRow :=
  match records.filter fun r ↦ 0 < r.amountCents ∧ reachedBy e r with
  | [row] => do
    require (row.classId = e.event.classId ∧ row.targetSeatId = e.event.targetSeatId ∧
      row.seatId = e.event.targetSeatId ∧ row.actorSeatId = e.event.actorSeatId ∧
      row.mechanism.toLower = e.event.mechanism.toLower ∧ row.accountType = "checking" ∧
      (e.event.payrollEventType = .payroll ∧ row.type = some "payroll" ∨
        e.event.payrollEventType = .manualCredit ∧ row.type = some "manual_payment") ∧
      row.originalTransactionId = none) provenanceUnavailable
    require row.money integrityFailure
    return row
  | _ => .error provenanceUnavailable

def shareOfWindow (shares : List HistoricalReconstructedShare) (window : ℕ) :
    Option HistoricalReconstructedShare := shares.reverse.find? (·.windowEventId = window)

/-- What a top-up pays are the windows that are owed money, and no others. -/
def checkCandidates (e : HistoricalReconstructedEvent) : Except SettlementRaise Unit :=
  if e.event.payrollEventType = .manualCredit then do
    let cents ← e.candidateShares.mapM fun s ↦ reconstructedShareCents decimal e.multiplyFirst s
    let candidates := ((e.candidateShares.zip cents).filter (0 < ·.2)).map (·.1)
    require ((candidates.map (·.windowEventId)).toFinset = e.referencedEventIds.toFinset ∧
      (∀ s ∈ candidates ++ e.shares, shareOfWindow candidates s.windowEventId =
        shareOfWindow e.shares s.windowEventId) ∧
      candidates.length = e.referencedEventIds.length) integrityFailure
  else .ok ()

structure SettledCredit where
  event : HistoricalReconstructedEvent
  credit : HistoricalRow
  allocations : List (PairId × ℤ)

def settleEvent (graph : HistoricalReconstructedGraph) (business : List SignedBusinessEvent)
    (records : List HistoricalRow) (originals : List SettledCredit)
    (e : HistoricalReconstructedEvent) : Except SettlementRaise (List SettledCredit) := do
  checkCandidates decimal e
  let allocated ← allocateReconstructedShares decimal e.shares (arithmeticRule e)
  if allocated.1 = 0 then
    require (∀ r ∈ records, ¬(0 < r.amountCents ∧ reachedBy e r)) integrityFailure
    return originals
  else
    let credit ← bindHistoricalCredit e records
    require (credit.lineageVersion = some 2 ∨ credit.lineageVersion = some 3 → ∃ p ∈ business,
      p.tableName = "payroll_event" ∧ p.rowPk = rowPk e.event.id ∧ p.classId = graph.classId)
      provenanceUnavailable
    require ((∀ o ∈ originals, o.credit.id ≠ credit.id) ∧ allocated.1 = credit.amountCents)
      integrityFailure
    return originals ++ [⟨e, credit, allocated.2⟩]

/-- A debit that an unsigned reversal of a credit wrote. -/
structure LegacyRecovery where
  creditId : ℕ
  debit : HistoricalRow

def assignReversal (records : List HistoricalRow) (originals : List SettledCredit)
    (assigned : List LegacyRecovery) (reversal : Attendance.HistoricalReconstructedReversal) :
    Except SettlementRaise (List LegacyRecovery) :=
  match originals.find? (·.event.event.id = reversal.originalEventId) with
  | none => .ok assigned
  | some o =>
    match records.filter fun r ↦ r.amountCents < 0 ∧ reachedBy reversal.event r with
    | [debit] => do
      require ((∀ a ∈ assigned, a.debit.id ≠ debit.id) ∧
        debit.amountCents = -o.credit.amountCents ∧
        debit.accountType = o.credit.accountType ∧
        (debit.type = some "payroll" ∨ debit.type = some "REVERSAL") ∧
        debit.actorSeatId = reversal.event.event.actorSeatId ∧
        debit.mechanism.toLower = reversal.event.event.mechanism.toLower) integrityFailure
      return assigned ++ [⟨o.credit.id, debit⟩]
    | _ => .error provenanceUnavailable

/-- A debit that only a recovery, or a proven reversal of something else, accounts for. -/
def relevantNegative (evidence : SettlementEvidence) (originals : List SettledCredit)
    (records : List HistoricalRow) (r : HistoricalRow) : Prop :=
  r.amountCents < 0 ∧
    (r.type = some "payroll" ∨ r.type = some "REVERSAL" ∨ r.type = some "payroll_correction") ∧
    ¬provenUnrelatedReversal evidence (originals.map (·.credit.locator)) records r

instance (evidence : SettlementEvidence) (originals : List SettledCredit)
    (records : List HistoricalRow) (r : HistoricalRow) :
    Decidable (relevantNegative evidence originals records r) := by
  unfold relevantNegative; infer_instance

def accountedFor (originals : List SettledCredit) (assigned : List LegacyRecovery)
    (r : HistoricalRow) : Prop :=
  (r.lineageVersion ≠ some 3 → ∃ a ∈ assigned, a.debit.id = r.id) ∧
    (r.lineageVersion = some 3 →
      (∃ o ∈ originals, r.compensationOriginLocator = some o.credit.locator) ∧
      r.correctionIntentLocator.getD "" ≠ "" ∧ r.compensationAmountCents.getD 0 ≠ 0)

instance (originals : List SettledCredit) (assigned : List LegacyRecovery) (r : HistoricalRow) :
    Decidable (accountedFor originals assigned r) := by unfold accountedFor; infer_instance

end Credits

section Recoveries

structure OriginProgress where
  running : ℤ
  intents : List String
  intervalRecovered : List (PairKey × ℤ)

def pairKeyOf (k : PairId) : PairKey := (.number k.1, .number k.2)

/-- `dict(allocations).get(key, -1)`. -/
def allocatedTo (allocations : List (PairId × ℤ)) (key : PairKey) : ℤ :=
  ((allocations.find? fun e ↦ pairKeyOf e.1 = key).map (·.2)).getD (-1)

def recoveryKey (association : HistoricalReconstructedRecovery) : Except SettlementRaise PairKey :=
  match hashKey association.openingEventId, hashKey association.closingEventId with
  | .ok opening, .ok closing => .ok (opening, closing)
  | _, _ => .error .typeError

def recoverByKind (amount : ℤ) (allocations : List (PairId × ℤ)) (p : OriginProgress)
    (association : HistoricalReconstructedRecovery) (summary : PyValue) (cents : ℤ) :
    Except SettlementRaise (List (PairKey × ℤ)) :=
  if hashKey association.kind = .ok (.str "INTERVAL_INVALIDATION") then do
    require (hashKey (getOr "opening_event_id" summary) = hashKey association.openingEventId ∧
      hashKey (getOr "closing_event_id" summary) = hashKey association.closingEventId)
      integrityFailure
    let key ← recoveryKey association
    require (p.running ≠ amount ∧
      cents = allocatedTo allocations key - Lib.Tally.amount key p.intervalRecovered)
      integrityFailure
    let recovered := Lib.Tally.add key cents p.intervalRecovered
    require (Lib.Tally.amount key recovered ≤ allocatedTo allocations key) integrityFailure
    return recovered
  else if hashKey association.kind = .ok (.str "EXACT_REVERSAL") then do
    require (p.running = 0 ∧ cents = amount) integrityFailure
    return p.intervalRecovered
  else if hashKey association.kind = .ok (.str "RESIDUAL_RECOVERY") then do
    require (cents = amount - p.running) integrityFailure
    return p.intervalRecovered
  else .error (.recoveryIntegrityError "PRIOR_RECOVERY_UNAVAILABLE")

variable (graph : HistoricalReconstructedGraph) (evidence : SettlementEvidence)
  (business : List SignedBusinessEvent)

/-- The associations of the graph with a row that recovers an event's credit. -/
def associations (eventId : ℕ) (intent : String) (r : HistoricalRow) :
    List HistoricalReconstructedRecovery :=
  graph.recoveries.filter fun a ↦ a.originalEventId = eventId ∧
    hashKey a.correctionIntentLocator = .ok (.str intent) ∧
    hashKey a.ledgerResultLocator = .ok (.str (ledgerEffectLocator r.id))

/-- One turn of the loop over the signed recoveries of a credit. -/
def recoverRow (o : SettledCredit) (p : OriginProgress) (r : HistoricalRow) :
    Except SettlementRaise OriginProgress := do
  let cents ← demand r.compensationAmountCents integrityFailure
  let intent := r.correctionIntentLocator.getD ""
  require (r.lineageVersion = some 3 ∧ r.accountType = o.credit.accountType ∧ 0 < cents ∧
    r.amountCents = -cents ∧ intent ≠ "" ∧ intent ∉ p.intents ∧ evidence.confirms r = true)
    integrityFailure
  match associations graph o.event.event.id intent r with
  | [association] =>
    let signed ← demand (business.find? fun s ↦ s.tableName = "payroll_event" ∧
        s.classId = graph.classId ∧ s.rowPk = rowPk association.eventId)
      (.recoveryIntegrityError "PRIOR_RECOVERY_UNAVAILABLE")
    require (hashKey signed.targetSeatId = .ok (.number graph.targetSeatId) ∧
      hashKey (getOr "original_payroll_event_id" signed.summary) =
        .ok (.number o.event.event.id) ∧
      hashKey (getOr "correction_intent_locator" signed.summary) = .ok (.str intent) ∧
      hashKey (getOr "ledger_result_locator" signed.summary) =
        hashKey association.ledgerResultLocator) integrityFailure
    let recovered ← recoverByKind o.credit.amountCents o.allocations p association signed.summary
      cents
    return ⟨p.running + cents, p.intents ++ [intent], recovered⟩
  | _ => .error (.recoveryIntegrityError "PRIOR_RECOVERY_UNAVAILABLE")

structure ReconstructedOrigin where
  eventId : ℕ
  pending : Bool
  original : HistoricalRow
  originalCents : ℤ
  recoveredCents : ℤ
  remainingCents : ℤ
  recoveries : List HistoricalRow
  allocations : List (PairId × ℤ)
  recoveredIntervals : List (PairKey × ℤ)
deriving DecidableEq

def bySequence (a b : HistoricalRow) : Prop :=
  a.postingSequence.getD 0 ≤ b.postingSequence.getD 0

instance : DecidableRel bySequence := fun a b ↦ by unfold bySequence; infer_instance

def settleOrigin (boundary : ℕ → String → String → Option ℤ) (records : List HistoricalRow)
    (assigned : List LegacyRecovery) (o : SettledCredit) :
    Except SettlementRaise ReconstructedOrigin := do
  let legacy := (assigned.filter (·.creditId = o.credit.id)).map (·.debit)
  let modern := (records.filter (·.compensationOriginLocator = some o.credit.locator)).insertionSort
    bySequence
  let p ← modern.foldlM (recoverRow graph evidence business o)
    ⟨(legacy.map fun r ↦ -r.amountCents).sum, [], []⟩
  let recoveries := legacy ++ modern
  let recovered := (recoveries.map fun r ↦ -r.amountCents).sum
  require (recovered ≤ o.credit.amountCents) integrityFailure
  return {
    eventId := o.event.event.id
    pending := (boundary o.credit.seatId o.credit.classId o.credit.accountType).all
      (· < o.credit.postingSequence.getD 0)
    original := o.credit
    originalCents := o.credit.amountCents
    recoveredCents := recovered
    remainingCents := o.credit.amountCents - recovered
    recoveries := recoveries
    allocations := o.allocations
    recoveredIntervals := p.intervalRecovered }

end Recoveries

/-- The rows of the graph's seat, in the order of their ids. -/
def seatRecords (graph : HistoricalReconstructedGraph) (rows : List HistoricalRow) :
    List HistoricalRow :=
  (rows.filter fun r ↦ r.classId = graph.classId ∧ r.seatId = graph.targetSeatId ∧
    r.targetSeatId = graph.targetSeatId).insertionSort (·.id ≤ ·.id)

def validateHistoricalSettlement (decimal : String → Option Decimal)
    (boundary : ℕ → String → String → Option ℤ) (ctx : ReplayContext)
    (graph : HistoricalReconstructedGraph) (rows : List HistoricalRow)
    (observations : List HistoricalAuditCoverage) (evidence : SettlementEvidence)
    (business : List SignedBusinessEvent) : Except SettlementRaise (List ReconstructedOrigin) := do
  require (ctx.classId = graph.classId ∧ ctx.actorRole = "teacher" ∧ ctx.seatId.getD 0 ≠ 0)
    (.recoveryIntegrityError "UNAUTHORIZED_SCOPE")
  let records := seatRecords graph rows
  require (records.length ≤ 1000) (.recoveryIntegrityError "EVIDENCE_LIMIT_EXCEEDED")
  let _ ← records.mapM (checkRecord graph evidence observations)
  let originals ← graph.events.foldlM (settleEvent decimal graph business records) []
  let assigned ← graph.reversals.foldlM (assignReversal records originals) []
  require (∀ r ∈ records, relevantNegative evidence originals records r →
    accountedFor originals assigned r) (.recoveryIntegrityError "PRIOR_RECOVERY_UNAVAILABLE")
  originals.mapM (settleOrigin graph evidence business boundary records assigned)

section Principals

structure ReconstructedPrincipal where
  eventId : ℕ
  originLocator : String
  cents : ℤ
  intent : String
  kind : RecoveryKind
deriving DecidableEq, Repr

/-- The cents that a recovery asks of a credit: all that is left of it, or what is left of one
interval. -/
def ReconstructedOrigin.askedCents (o : ReconstructedOrigin) : Option PairId → ℤ
  | none => o.remainingCents
  | some k => if o.remainingCents = 0 then 0
    else allocatedTo o.allocations (pairKeyOf k) - amount (pairKeyOf k) o.recoveredIntervals

def ReconstructedOrigin.recoveryKind (o : ReconstructedOrigin) : Option PairId → RecoveryKind
  | none => if o.recoveredCents = 0 then .exactReversal else .residual
  | some _ => .interval

/-- `locator.rsplit(":", 1)[0]`. -/
def beforeLastColon (locator : String) : String :=
  if ':' ∈ locator.toList then
    String.ofList ((locator.toList.reverse.dropWhile (· ≠ ':')).drop 1).reverse
  else locator

variable (sha256 : String → String) (intervalKey : Option PairId) (eventId : Option ℕ)
  (correctionIntentLocator : String)

def principalIntent (originLocator : String) : String :=
  beforeLastColon correctionIntentLocator ++ ":" ++
    sha256 (correctionIntentLocator ++ ":" ++ originLocator)

def resolvePrincipal (o : ReconstructedOrigin) :
    Except SettlementRaise (Option ReconstructedPrincipal) :=
  if (∃ i ∈ eventId, o.eventId ≠ i) ∨ (∃ k ∈ intervalKey, ∀ a ∈ o.allocations, a.1 ≠ k) then
    .ok none
  else do
    require (o.pending = false) (.recoveryIntegrityError "PAYROLL_PENDING")
    let cents := o.askedCents intervalKey
    require (0 ≤ cents ∧ cents ≤ o.remainingCents) integrityFailure
    if cents = 0 then return none
    else
      let intent := principalIntent sha256 correctionIntentLocator o.original.locator
      require (intent.length ≤ 128) integrityFailure
      return some ⟨o.eventId, o.original.locator, cents, intent, o.recoveryKind intervalKey⟩

/-- The principals of `resolve_reconstructed_recovery`, of a settlement's credits. -/
def reconstructedPrincipals (origins : List ReconstructedOrigin) :
    Except SettlementRaise (List ReconstructedPrincipal) := do
  let found ← origins.mapM
    (resolvePrincipal sha256 intervalKey eventId correctionIntentLocator)
  require (∀ i ∈ eventId, (origins.filter (·.eventId = i)).length = 1) provenanceUnavailable
  return found.filterMap id

end Principals

end TokenHub.Ledger
