import TokenHub.Ledger.Resolution

set_option autoImplicit false

namespace TokenHub.Ledger

open Lib.Decimals Lib.Digits Lib.Checks Lib.Json Lib.SequencedLog

section Locators

def ledgerOriginLocator (id : ℕ) : String :=
  "ledger-credit:v1:" ++ String.ofList (natText id)

/-- The row id that a locator names: the canonical decimal of a positive number. -/
def originId (locator : String) : Option ℕ :=
  let digits := locator.toList.drop "ledger-credit:v1:".length
  let n := Nat.ofDigitChars 10 digits 0
  if 0 < n ∧ locator = ledgerOriginLocator n then some n else none

theorem eq_originLocator {locator : String} {n : ℕ} (h : originId locator = some n) :
    locator = ledgerOriginLocator n := by
  simp only [originId] at h
  split_ifs at h with hn
  rw [← Option.some.inj h]
  exact hn.2

theorem ledgerOriginLocator_injective : Function.Injective ledgerOriginLocator := by
  intro m n h
  exact natText_injective (String.ofList_injective (String.append_right_inj _ |>.1 h))

end Locators

/-- Verified creation records that the originating FEAT hands in: the rows they cover, and
whether a row still agrees with its record. -/
structure CreationEvidence where
  rowPks : List ℕ
  confirms : Transaction → Bool

inductive CompensationStatus
  | unavailable
  | pending
  | verified
deriving DecidableEq, Repr

/-- The history a proof was built on; it binds every plan made from it. -/
structure RecoveryMaterial where
  originLocator : String
  originalId : ℕ
  originalCents : ℤ
  originalSequence : ℕ
  identities : List (ℕ × Option ℕ × ℤ × Option String)
deriving DecidableEq, Repr

structure CreditCompensationProof where
  status : CompensationStatus
  originLocator : String
  original : Option Transaction := none
  originalCents : ℤ := 0
  recoveredCents : ℤ := 0
  remainingCents : ℤ := 0
  material : Option RecoveryMaterial := none
  creationEvidence : CreationEvidence := ⟨[], fun _ ↦ false⟩

section Proof

def findOrigin (L : LedgerState) (classId : String) (targetSeatId : ℕ) (locator : String) :
    Option Transaction :=
  match originId locator with
  | none => none
  | some n => L.transactions.find? (fun t ↦ t.id = n ∧ t.classId = classId ∧
      t.seatId = targetSeatId ∧ t.targetSeatId = targetSeatId)

/-- `get_credit_recovery_evidence_records`: every row is of lineage version 3. -/
def recoveryEvidenceRecords (L : LedgerState) (classId : String) (targetSeatId : ℕ)
    (locator : String) : List Transaction :=
  match findOrigin L classId targetSeatId locator with
  | none => []
  | some original => original :: L.transactions.filter (fun t ↦ t.classId = classId ∧
      t.seatId = targetSeatId ∧ t.compensationOriginLocator = some locator)

def recoveryRows (L : LedgerState) (classId : String) (targetSeatId : ℕ) (locator : String) :
    List Transaction :=
  L.transactions.filter (fun t ↦ t.classId = classId ∧ t.targetSeatId = targetSeatId ∧
    t.compensationOriginLocator = some locator)

def Transaction.identity (t : Transaction) : ℕ × Option ℕ × ℤ × Option String :=
  (t.id, t.postingSequence, t.compensationAmountCents, t.correctionIntentLocator)

/-- A recovery row that the proof can count: it debits the credit's own account by what it
claims to recover, under an intent of its own. -/
def recoveryRowValid (original : Transaction) (targetSeatId : ℕ) (confirms : Transaction → Bool)
    (intents : List String) (t : Transaction) : Prop :=
  t.seatId = targetSeatId ∧ t.accountType = original.accountType ∧
    0 < t.compensationAmountCents ∧ t.amountCents = -t.compensationAmountCents ∧
    t.correctionIntentLocator.getD "" ≠ "" ∧
    t.correctionIntentLocator.getD "" ∉ intents ∧ confirms t = true

instance (original : Transaction) (targetSeatId : ℕ) (confirms : Transaction → Bool)
    (intents : List String) (t : Transaction) :
    Decidable (recoveryRowValid original targetSeatId confirms intents t) := by
  unfold recoveryRowValid; infer_instance

/-- The cents that the recovery rows add up to, or nothing where one of them cannot be counted. -/
def sumRecoveries (original : Transaction) (targetSeatId : ℕ) (confirms : Transaction → Bool) :
    List String → List Transaction → Option ℤ
  | _, [] => some 0
  | intents, t :: ts =>
    if recoveryRowValid original targetSeatId confirms intents t then
      (sumRecoveries original targetSeatId confirms
        (t.correctionIntentLocator.getD "" :: intents) ts).map (t.compensationAmountCents + ·)
    else none

def getCreditCompensationProof (L : LedgerState) (classId : String) (targetSeatId : ℕ)
    (originLocator : String) (throughPostingSequence : Option ℤ)
    (creationEvidence : CreationEvidence) : CreditCompensationProof :=
  let unknown : CreditCompensationProof :=
    { status := .unavailable, originLocator := originLocator }
  let expected := (recoveryEvidenceRecords L classId targetSeatId originLocator).map (·.id)
  if ¬ (creationEvidence.rowPks.length = expected.length ∧
      creationEvidence.rowPks ⊆ expected ∧ expected ⊆ creationEvidence.rowPks) then unknown
  else match findOrigin L classId targetSeatId originLocator with
    | none => unknown
    | some original =>
      match throughPostingSequence, original.postingSequence with
      | some boundary, some sequence =>
        if original.amountCents ≤ 0 ∨ creationEvidence.confirms original = false ∨
          boundary < 0 then unknown
        else
          let recoveries := recoveryRows L classId targetSeatId originLocator
          match sumRecoveries original targetSeatId creationEvidence.confirms [] recoveries with
          | none => unknown
          | some recovered =>
            if original.amountCents < recovered then unknown
            else
              { status := if boundary < sequence then .pending else .verified
                originLocator := originLocator
                original := some original
                originalCents := original.amountCents
                recoveredCents := recovered
                remainingCents := original.amountCents - recovered
                material := some ⟨originLocator, original.id, original.amountCents, sequence,
                  recoveries.map (·.identity)⟩
                creationEvidence := creationEvidence }
      | _, _ => unknown

end Proof

inductive RecoveryKind
  | interval
  | residual
  | exactReversal
deriving DecidableEq, Repr

/-- Cents of one paid interval of a payroll credit, as the allocation service proves them. -/
structure AllocationProof where
  verified : Bool
  transactionId : ℕ
  allocated : Option ℤ
deriving DecidableEq, Repr

structure CreditRecoveryPlan where
  proof : CreditCompensationProof
  recoveryKind : RecoveryKind
  correctionIntentLocator : String
  allocatedCents : ℤ
  resolvedPlan : ResolvedLedgerPlan

/-- What a recovery of the given kind takes from a proved credit. -/
def allocateRecovery (proof : CreditCompensationProof) (original : Transaction)
    (kind : RecoveryKind) (allocation : Option AllocationProof) : Except Raise ℤ :=
  match kind with
  | .interval => do
    let a ← demand allocation (.valueError "PROVENANCE_UNAVAILABLE")
    require (a.verified ∧ a.transactionId = original.id) (.valueError "PROVENANCE_UNAVAILABLE")
    let allocated ← demand a.allocated (.valueError "INTEGRITY_FAILURE")
    require (0 ≤ allocated) (.valueError "INTEGRITY_FAILURE")
    if proof.remainingCents = 0 then return 0
    else
      require (allocated ≤ proof.remainingCents) (.valueError "INTEGRITY_FAILURE")
      return allocated
  | .residual => return proof.remainingCents
  | .exactReversal => do
    require (proof.recoveredCents = 0) (.valueError "PRIOR_COMPENSATION")
    return proof.originalCents

/-- The debit that a recovery plans against its credit's own account. -/
def recoveryIntendedPlan (proof : CreditCompensationProof) (original : Transaction)
    (kind : RecoveryKind) (intent : String) (allocated : ℤ) (actorSeatId : ℕ)
    (mechanism : String) (compensationType : Option String) : IntendedLedgerPlan where
  seatId := original.seatId
  classId := original.classId
  debitAmount := allocated
  transactionType := if kind = .exactReversal then "REVERSAL" else "payroll_correction"
  actorSeatId := actorSeatId
  targetSeatId := original.targetSeatId
  mechanism := mechanism
  sourceAccount := original.accountType
  compensationOriginLocator := if allocated = 0 then none else some proof.originLocator
  correctionIntentLocator := if allocated = 0 then none else some intent
  compensationSubtype := if kind = .exactReversal then compensationType else none
  originalTransactionId := if kind = .exactReversal then some original.id else none
  correlationId := if kind = .exactReversal then some original.correlationId else none

def resolveCreditRecovery (L : LedgerState) (proof : CreditCompensationProof)
    (kind : RecoveryKind) (correctionIntentLocator : String) (directive : BankingDirective)
    (actorSeatId : ℕ) (mechanism : String) (allocation : Option AllocationProof)
    (compensationType : Option String) : Except Raise CreditRecoveryPlan := do
  require (proof.status = .verified ∨ (proof.status = .pending ∧ kind = .exactReversal))
    (.valueError "PROVENANCE_UNAVAILABLE")
  let original ← demand proof.original (.valueError "PROVENANCE_UNAVAILABLE")
  let allocated ← allocateRecovery proof original kind allocation
  require (correctionIntentLocator ≠ "" ∧ correctionIntentLocator.length ≤ 128)
    (.valueError "Invalid correction intent.")
  let intended ← buildIntendedLedgerPlan (recoveryIntendedPlan proof original kind
    correctionIntentLocator allocated actorSeatId mechanism compensationType)
  let resolved ← resolveIntendedLedgerPlan L intended directive
  return ⟨proof, kind, correctionIntentLocator, allocated, resolved⟩

def lockRecoveryScope (L : LedgerState) (classId : String) (targetSeatId : ℕ)
    (locator : String) : Except Raise Unit := do
  require (L.seatClass targetSeatId = some classId) (.valueError "Invalid scoped seat.")
  require ((findOrigin L classId targetSeatId locator).isSome)
    (.valueError "Unavailable scoped original credit.")

variable (sha256 : String → String)

def recoveryBoundary (L : LedgerState) (original : Transaction) (kind : RecoveryKind) :
    Option ℤ :=
  let boundary : Option ℕ :=
    (L.snapshots original.scope).bind (·.reconciledThroughPostingSequence)
  if kind = .exactReversal then some (boundary.getD 0) else boundary.map (fun n ↦ (n : ℤ))

/-- `apply_credit_recovery`: the cap is proved again, on the history of the moment. -/
def applyCreditRecovery (feat : FeatContext) (L : LedgerState) (plan : CreditRecoveryPlan)
    (idempotencyKey : String) : Except Raise (AppliedPlan × LedgerState) := do
  let original ← demand plan.proof.original (.valueError "PROVENANCE_UNAVAILABLE")
  lockRecoveryScope L original.classId original.seatId plan.proof.originLocator
  let fresh := getCreditCompensationProof L original.classId original.seatId
    plan.proof.originLocator (recoveryBoundary L original plan.recoveryKind)
    plan.proof.creationEvidence
  require ((fresh.status = .verified ∨
      (fresh.status = .pending ∧ plan.recoveryKind = .exactReversal)) ∧
      fresh.material = plan.proof.material) (.valueError "PREVIEW_CHANGED")
  require (plan.allocatedCents ≤ fresh.remainingCents) (.valueError "INTEGRITY_FAILURE")
  let (checking, savings) ← getAvailableBalances L original.seatId original.classId
  require (checking = plan.resolvedPlan.checkingBefore ∧
      savings = plan.resolvedPlan.savingsBefore) (.valueError "PREVIEW_CHANGED")
  applyResolvedLedgerPlan sha256 feat L plan.resolvedPlan idempotencyKey

section Reversal

def getExactReversal (L : LedgerState) (t : Transaction) : Option Transaction :=
  L.transactions.find? (fun u ↦ u.classId = t.classId ∧ u.seatId = t.seatId ∧
    u.accountType = t.accountType ∧ u.originalTransactionId = some t.id ∧
    u.correlationId = t.correlationId ∧ u.type = some .legacyReversal)

/-- The effect that a row stands for, as the replay checks rebuild it. -/
def Transaction.toEffect (t : Transaction) : Effect where
  seatId := t.seatId
  classId := t.classId
  targetSeatId := t.targetSeatId
  actorSeatId := t.actorSeatId
  mechanism := t.mechanism.value
  amount := some (.ofCents t.amountCents)
  accountType := t.accountType.value
  type := t.type.map (·.value)
  originalTransactionId := t.originalTransactionId
  policyId := t.policyId
  compensationSubtype := t.compensationSubtype
  correlationId := some t.correlationId
  compensationOriginLocator := t.compensationOriginLocator
  compensationAmountCents := t.compensationAmountCents
  correctionIntentLocator := t.correctionIntentLocator

def replayReservedReversal (feat : FeatContext) (L : LedgerState) (original principal : Transaction)
    (actorSeatId : ℕ) (mechanism compensationSubtype idempotencyKey : String) :
    Except Raise Transaction := do
  let r ← demand (L.reservations.find? (fun r ↦ some r.id = principal.commandReservationId ∧
      r.identity = ⟨original.classId, feat.activeFeat, idempotencyKey⟩))
    (.valueError "Replay fingerprint mismatch for reversal reservation.")
  let rows := reservedRows L r.id
  let effects := rows.map (fun t ↦ { t.toEffect with
    actorSeatId := actorSeatId, mechanism := mechanism
    compensationSubtype := if t.id = principal.id then some compensationSubtype
      else t.compensationSubtype })
  require (principal.id ∈ rows.map (·.id))
    (.valueError "Replay fingerprint mismatch for reversal effects.")
  assertReplayMatches sha256 r effects .null
  return principal

structure ReversalRequest where
  transaction : Transaction
  compensationType : String := "refund"
  idempotencyKey : String
  actorSeatId : Option ℕ := none
  bankingDirective : Option BankingDirective := none
  creationEvidence : CreationEvidence
  mechanism : String := "teacher"

def ReversalRequest.actor (q : ReversalRequest) : ℕ :=
  match q.actorSeatId with
  | none => q.transaction.actorSeatId
  | some 0 => q.transaction.actorSeatId
  | some n => n

/-- The plan that `reverse_transaction` resolves for a positive credit. -/
def resolveReversal (L : LedgerState) (q : ReversalRequest) : Except Raise CreditRecoveryPlan := do
  let t := q.transaction
  let directive ← demand q.bankingDirective
    (.valueError "Positive-credit reversal requires Class-owned funding directive.")
  let locator := ledgerOriginLocator t.id
  let proof := getCreditCompensationProof L t.classId t.seatId locator
    (recoveryBoundary L t .exactReversal) q.creationEvidence
  resolveCreditRecovery L proof .exactReversal
    ("ledger-reversal:v1:" ++ String.ofList (natText t.id)) directive q.actor q.mechanism none
    (some q.compensationType)

/-- The positive-credit branch of `reverse_transaction`. -/
def reverseCredit (feat : FeatContext) (L : LedgerState) (q : ReversalRequest) :
    Except Raise (Option Transaction × LedgerState) := do
  let plan ← resolveReversal L q
  let (applied, L') ← applyCreditRecovery sha256 feat L plan q.idempotencyKey
  return (applied.principal, L')

def refundEffect (q : ReversalRequest) : Effect where
  seatId := q.transaction.seatId
  classId := q.transaction.classId
  targetSeatId := q.transaction.targetSeatId
  actorSeatId := q.actor
  mechanism := q.transaction.mechanism.value
  amount := some (.ofHundredths (quantizeCurrency (some (.ofCents (-q.transaction.amountCents)))))
  accountType := q.transaction.accountType.value
  type := some "REVERSAL"
  compensationSubtype := some q.compensationType
  originalTransactionId := some q.transaction.id
  policyId := q.transaction.policyId
  correlationId := some q.transaction.correlationId

def reverseTransaction (feat : FeatContext) (L : LedgerState) (q : ReversalRequest) :
    Except Raise (Option Transaction × LedgerState) := do
  let t := q.transaction
  require (q.idempotencyKey ≠ "")
    (.valueError "Ledger corrections require a command idempotency reservation.")
  require (¬ (0 < t.amountCents ∧ q.actorSeatId = none))
    (.valueError "Positive-credit recovery requires the current acting seat.")
  require (t.classId ≠ "")
    (.valueError "A transaction with no class scope cannot be reversed safely.")
  require (L.seatClass (q.actorSeatId.getD t.actorSeatId) = some t.classId)
    (.valueError "The acting seat is outside the class that owns this transaction.")
  require (t.type ≠ some .legacyReversal ∧ t.type ≠ some .voidItemRemoved)
    (.valueError "Transaction is part of a reversal and cannot be reversed.")
  lockRecoveryScope L t.classId t.seatId (ledgerOriginLocator t.id)
  match getExactReversal L t with
  | some existing =>
    require (existing.idempotencyKey = some q.idempotencyKey ∧
        existing.featCode = feat.activeFeat)
      (.valueError "Transaction was already reversed.")
    require (existing.compensationSubtype = some q.compensationType)
      (.valueError "Replay fingerprint mismatch for reversal compensation subtype.")
    let principal ← replayReservedReversal sha256 feat L t existing q.actor
      (if 0 < t.amountCents then q.mechanism else t.mechanism.value) q.compensationType
      q.idempotencyKey
    return (some principal, L)
  | none =>
    if 0 < t.amountCents then reverseCredit sha256 feat L q
    else
      let ((rows, _), L') ← createIdempotentTransaction sha256 feat L L.reservations
        q.idempotencyKey (refundEffect q)
      return (rows.head?, L')

end Reversal

end TokenHub.Ledger

namespace TokenHub.Ledger

open Lib.Checks Lib.Json

variable (sha256 : String → String)

def isPrincipal (principalType : TransactionType) (t : Transaction) : Bool :=
  t.type = some principalType ∧ t.amountCents < 0 ∧ t.accountType = .checking

/-- `replay_reserved_charge`: the principal of the charge that a command identity already owns. -/
def replayReservedCharge (L : LedgerState) (id : CommandIdentity) (seatId actorSeatId : ℕ)
    (principalType : TransactionType) (canonicalIntent : Value) :
    Except Raise (Option Transaction) :=
  match L.reservations.find? (·.identity = id) with
  | none => .ok none
  | some r => do
    let rows := reservedRows L r.id
    match rows.filter (isPrincipal principalType) with
    | [principal] =>
      require (principal.seatId = seatId ∧ principal.actorSeatId = actorSeatId)
        (.valueError "Replay fingerprint mismatch for charge scope or principal.")
      assertReplayMatches sha256 r (rows.map Transaction.toEffect) canonicalIntent
      return some principal
    | _ => .error (.valueError "Replay fingerprint mismatch for charge scope or principal.")

variable {sha256 : String → String}

theorem replayReservedCharge_none {L : LedgerState} {id : CommandIdentity}
    {seatId actorSeatId : ℕ} {type : TransactionType} {intent : Value}
    (h : replayReservedCharge sha256 L id seatId actorSeatId type intent = .ok none) :
    L.reservations.find? (·.identity = id) = none := by
  unfold replayReservedCharge at h
  split at h
  · assumption
  · simp only at h
    split at h
    · simp only [bind_eq_ok, pure_eq_ok] at h
      obtain ⟨-, -, -, -, h⟩ := h
      cases h
    · cases h

theorem replayReservedCharge_some {L : LedgerState} {id : CommandIdentity}
    {seatId actorSeatId : ℕ} {type : TransactionType} {intent : Value} {debit : Transaction}
    (h : replayReservedCharge sha256 L id seatId actorSeatId type intent = .ok (some debit)) :
    ∃ r, L.reservations.find? (·.identity = id) = some r ∧
      (reservedRows L r.id).filter (isPrincipal type) = [debit] ∧
      assertReplayMatches sha256 r ((reservedRows L r.id).map Transaction.toEffect) intent =
        .ok () := by
  unfold replayReservedCharge at h
  split at h
  · cases h
  · next r hr =>
    simp only at h
    split at h
    · next principal hprincipal =>
      rw [unit_bind_eq_ok, unit_bind_eq_ok, pure_eq_ok, Option.some.injEq] at h
      obtain ⟨-, hmatches, rfl⟩ := h
      exact ⟨r, hr, hprincipal, hmatches⟩
    · cases h

end TokenHub.Ledger
