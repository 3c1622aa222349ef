import TokenHub.Ledger.Rows
import TokenHub.Lib.Checks

set_option autoImplicit false

namespace TokenHub.Ledger

open Lib.Decimals Lib.Checks

/-- `_quantize_currency`: whatever cannot be quantized counts as `0.00`. -/
def quantizeCurrency : Option Decimal → Hundredths
  | some (.finite s c e) => (Decimal.quantizeFinite s c e).getD ⟨false, 0⟩
  | _ => ⟨false, 0⟩

section Constraints

/-- The last posting sequence allocated in a class, zero before the first. -/
def maxPostingSequence (transactions : List Transaction) (classId : String) : ℕ :=
  ((transactions.filter (·.classId = classId)).filterMap (·.postingSequence)).foldr max 0

def allocateCreationPostingSequence (L : LedgerState) (classId : String) : ℕ :=
  maxPostingSequence L.transactions classId + 1

def attributableRecovery (t : Transaction) : Prop :=
  0 ≤ t.compensationAmountCents ∧
    (t.compensationAmountCents = 0 ∨
      (t.amountCents = -t.compensationAmountCents ∧ t.compensationOriginLocator.isSome ∧
        t.correctionIntentLocator.isSome))

instance (t : Transaction) : Decidable (attributableRecovery t) := by
  unfold attributableRecovery; infer_instance

/-- `uq_ledger_exact_reversal_origin`. -/
def sameExactReversal (t u : Transaction) : Prop :=
  t.type = some .legacyReversal ∧ u.type = some .legacyReversal ∧
    t.originalTransactionId.isSome ∧ t.originalTransactionId = u.originalTransactionId

instance (t u : Transaction) : Decidable (sameExactReversal t u) := by
  unfold sameExactReversal; infer_instance

/-- `uq_ledger_recovery_intent`. -/
def sameRecoveryIntent (t u : Transaction) : Prop :=
  0 < t.compensationAmountCents ∧ 0 < u.compensationAmountCents ∧ t.classId = u.classId ∧
    t.targetSeatId = u.targetSeatId ∧
    t.compensationOriginLocator = u.compensationOriginLocator ∧
    t.correctionIntentLocator = u.correctionIntentLocator

instance (t u : Transaction) : Decidable (sameRecoveryIntent t u) := by
  unfold sameRecoveryIntent; infer_instance

end Constraints

variable (sha256 : String → String)

def fundingCorrelation (classId featCode idempotencyKey : String) : String :=
  "corr_funding_" ++ String.ofList
    ((sha256 (classId ++ ":" ++ featCode ++ ":" ++ idempotencyKey ++ ":funding")).toList.take 32)

def isCompensatingEffect (L : LedgerState) (t : Transaction) : Bool :=
  match t.originalTransactionId with
  | none => false
  | some i => (L.transactions.find? (·.id = i)).any (·.correlationId = t.correlationId)

def isFundingEffect (featCode : String) (reservation : Option LedgerCommandReservation)
    (t : Transaction) : Bool :=
  match reservation with
  | none => false
  | some r =>
    decide (r.classId = t.classId ∧ r.featCode = featCode ∧
      some r.idempotencyKey = t.idempotencyKey ∧
      t.correlationId = fundingCorrelation sha256 t.classId r.featCode r.idempotencyKey ∧
      ((t.accountType = .savings ∧ t.type = some .legacyWithdrawal ∧ t.amountCents < 0) ∨
        (t.accountType = .checking ∧ t.type = some .legacyDeposit ∧ 0 < t.amountCents)) ∧
      t.targetSeatId = t.seatId ∧ t.compensationAmountCents = 0)

/-- The row that an effect becomes, once its account, mechanism and type are known. -/
def draftTransaction (feat : FeatContext) (L : LedgerState)
    (reservation : Option LedgerCommandReservation) (e : Effect) (account : AccountType)
    (mechanism : LedgerMechanism) (type : Option TransactionType) : Transaction where
  id := L.transactions.length + 1
  classId := e.classId
  seatId := e.seatId
  targetSeatId := e.targetSeatId
  actorSeatId := e.actorSeatId
  mechanism := mechanism
  amountCents := (quantizeCurrency e.amount).value
  accountType := account
  type := type
  correlationId := match e.correlationId with
    | none => feat.correlationId
    | some c => if c = "" then feat.correlationId else c
  featCode := feat.activeFeat
  idempotencyKey := reservation.map (·.idempotencyKey)
  originalTransactionId := e.originalTransactionId
  policyId := e.policyId
  compensationSubtype := e.compensationSubtype
  compensationOriginLocator := e.compensationOriginLocator
  compensationAmountCents := e.compensationAmountCents
  correctionIntentLocator := e.correctionIntentLocator
  timestamp := feat.canonicalNowUtc
  postingSequence := some (allocateCreationPostingSequence L e.classId)
  commandReservationId := reservation.map (·.id)

def enforceTransactionIntegrity (feat : FeatContext) (L : LedgerState)
    (reservation : Option LedgerCommandReservation) (t : Transaction) : Except Raise Unit := do
  require (0 ≤ t.compensationAmountCents)
    (.valueError "New Ledger effects require explicit nonnegative attributable recovery.")
  require (t.compensationAmountCents = 0 →
      t.compensationOriginLocator.getD "" = "" ∧ t.correctionIntentLocator.getD "" = "")
    (.valueError "Non-recovery effect cannot claim compensation lineage.")
  require (t.correlationId = feat.correlationId ∨ isCompensatingEffect L t ∨
      isFundingEffect sha256 feat.activeFeat reservation t)
    (.valueError "FATAL: Mixed correlation in flush.")
  require ("corr_".toList <+: t.correlationId.toList)
    (.valueError "FATAL: Invalid correlation_id format for new insert.")

/-- The constraints and unique indexes of `ledger_transaction`. -/
def insertTransaction (L : LedgerState) (t : Transaction) : Except Raise LedgerState := do
  require (t.id ≤ 2147483647 ∧ inInt32 t.amountCents) .dataError
  require (attributableRecovery t) (.integrityError "ck_ledger_attributable_recovery")
  require (∀ u ∈ L.transactions,
      ¬ (u.classId = t.classId ∧ u.postingSequence.isSome ∧
        u.postingSequence = t.postingSequence))
    (.integrityError "uq_ledger_transaction_class_posting_sequence")
  require (∀ u ∈ L.transactions, ¬ sameExactReversal u t)
    (.integrityError "uq_ledger_exact_reversal_origin")
  require (∀ u ∈ L.transactions, ¬ sameRecoveryIntent u t)
    (.integrityError "uq_ledger_recovery_intent")
  return { L with transactions := L.transactions ++ [t] }

def parseTransactionType : Option String → Option (Option TransactionType)
  | none => some none
  | some s => (TransactionType.ofString s).map some

/-- `create_pending_transaction` without an idempotency key: one pending row, in its class's
posting order. -/
def createPendingEffect (feat : FeatContext) (L : LedgerState)
    (reservation : Option LedgerCommandReservation) (e : Effect) :
    Except Raise (Transaction × LedgerState) := do
  require (e.classId ≠ "" ∧ e.seatId ≠ 0 ∧ e.targetSeatId ≠ 0 ∧ e.actorSeatId ≠ 0)
    (.valueError "FATAL: Ledger mutation requires seat_id and class_id.")
  let account ← demand (AccountType.ofString e.accountType)
    (.valueError "FATAL: Ledger mutation requires a checking or savings account_type.")
  require (∀ s ∈ [e.seatId, e.targetSeatId, e.actorSeatId], L.seatClass s = some e.classId)
    (.valueError "FATAL: Ledger mutation seats must all belong to the provided class_id.")
  require (∀ r ∈ reservation, r.classId = e.classId)
    (.valueError "FATAL: Command reservation must belong to the provided class_id.")
  let mechanism ← demand (LedgerMechanism.ofString e.mechanism) .dataError
  let type ← demand (parseTransactionType e.type)
    (.integrityError "ck_ledger_transaction_type_closed_vocabulary")
  let t := draftTransaction feat L reservation e account mechanism type
  enforceTransactionIntegrity sha256 feat L reservation t
  let L' ← insertTransaction L t
  return (t, L')

/-- What an accepted insertion leaves: one more row, last in its class's posting order, that no
unique index refused. -/
structure Inserted (L : LedgerState) (t : Transaction) (L' : LedgerState) : Prop where
  state : L' = { L with transactions := L.transactions ++ [t] }
  id : t.id = L.transactions.length + 1
  sequence : t.postingSequence = some (maxPostingSequence L.transactions t.classId + 1)
  fits : t.id ≤ 2147483647 ∧ inInt32 t.amountCents
  recovery : attributableRecovery t
  lineage : t.compensationAmountCents = 0 →
    t.compensationOriginLocator.getD "" = "" ∧ t.correctionIntentLocator.getD "" = ""
  reversal : ∀ u ∈ L.transactions, ¬ sameExactReversal u t
  intent : ∀ u ∈ L.transactions, ¬ sameRecoveryIntent u t

inductive Insertions : LedgerState → List Transaction → LedgerState → Prop
  | nil (L : LedgerState) : Insertions L [] L
  | cons {L L' L'' : LedgerState} {t : Transaction} {ts : List Transaction} :
      Inserted L t L' → Insertions L' ts L'' → Insertions L (t :: ts) L''

theorem Insertions.state {L L' : LedgerState} {ts : List Transaction}
    (h : Insertions L ts L') : L' = { L with transactions := L.transactions ++ ts } := by
  induction h with
  | nil => simp
  | cons hi _ ih => rw [ih, hi.state]; simp

theorem Insertions.invariant {I : LedgerState → Prop} {L L' : LedgerState}
    {ts : List Transaction} (h : Insertions L ts L') (hI : I L)
    (hstep : ∀ L t L', I L → Inserted L t L' → I L') : I L' := by
  induction h with
  | nil => exact hI
  | cons hi _ ih => exact ih (hstep _ _ _ hI hi)

/-- The row an effect became: every stated field, and the provenance of its command. -/
structure RowOf (feat : FeatContext) (reservation : Option LedgerCommandReservation)
    (e : Effect) (t : Transaction) : Prop where
  classId : t.classId = e.classId
  seatId : t.seatId = e.seatId
  targetSeatId : t.targetSeatId = e.targetSeatId
  actorSeatId : t.actorSeatId = e.actorSeatId
  mechanism : LedgerMechanism.ofString e.mechanism = some t.mechanism
  amount : t.amountCents = (quantizeCurrency e.amount).value
  accountType : AccountType.ofString e.accountType = some t.accountType
  type : parseTransactionType e.type = some t.type
  featCode : t.featCode = feat.activeFeat
  idempotencyKey : t.idempotencyKey = reservation.map (·.idempotencyKey)
  originalTransactionId : t.originalTransactionId = e.originalTransactionId
  policyId : t.policyId = e.policyId
  compensationSubtype : t.compensationSubtype = e.compensationSubtype
  compensationOriginLocator : t.compensationOriginLocator = e.compensationOriginLocator
  compensationAmountCents : t.compensationAmountCents = e.compensationAmountCents
  correctionIntentLocator : t.correctionIntentLocator = e.correctionIntentLocator
  timestamp : t.timestamp = feat.canonicalNowUtc
  commandReservationId : t.commandReservationId = reservation.map (·.id)

theorem insertTransaction_ok {L L' : LedgerState} {t : Transaction}
    (h : insertTransaction L t = .ok L') :
    L' = { L with transactions := L.transactions ++ [t] } ∧
      (t.id ≤ 2147483647 ∧ inInt32 t.amountCents) ∧ attributableRecovery t ∧
      (∀ u ∈ L.transactions, ¬ sameExactReversal u t) ∧
      (∀ u ∈ L.transactions, ¬ sameRecoveryIntent u t) := by
  simp only [insertTransaction, require_bind_eq_ok, pure_eq_ok] at h
  obtain ⟨hfits, hrec, -, hrev, hint, rfl⟩ := h
  exact ⟨rfl, hfits, hrec, hrev, hint⟩

variable {sha256}

theorem createPendingEffect_ok {feat : FeatContext} {L L' : LedgerState}
    {r : Option LedgerCommandReservation} {e : Effect} {t : Transaction}
    (h : createPendingEffect sha256 feat L r e = .ok (t, L')) :
    Inserted L t L' ∧ RowOf feat r e t ∧
      ∀ s ∈ [e.seatId, e.targetSeatId, e.actorSeatId], L.seatClass s = some e.classId := by
  simp only [createPendingEffect, require_bind_eq_ok, demand_bind_eq_ok] at h
  obtain ⟨-, account, ha, hs, -, mechanism, hm, type, ht, h⟩ := h
  simp only [bind_eq_ok, pure_eq_ok, Prod.mk.injEq] at h
  obtain ⟨_, henforce, L'', hL, rfl, rfl⟩ := h
  obtain ⟨hstate, hfits, hrec, hrev, hint⟩ := insertTransaction_ok hL
  simp only [enforceTransactionIntegrity, require_bind_eq_ok] at henforce
  exact ⟨⟨hstate, rfl, rfl, hfits, hrec, henforce.2.1, hrev, hint⟩,
    ⟨rfl, rfl, rfl, rfl, hm, rfl, ha, ht, rfl, rfl, rfl, rfl, rfl, rfl, rfl, rfl, rfl, rfl⟩, hs⟩

end TokenHub.Ledger
