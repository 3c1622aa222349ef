import TokenHub.Lib.Json
import TokenHub.Ledger.Posting

set_option autoImplicit false

namespace TokenHub.Ledger

open Lib.Decimals Lib.Checks Lib.Json

def idempotentTransactionTypes : List String :=
  ["REVERSAL", "insurance_reimbursement", "insurance_premium", "purchase", "refund",
    "overdraft_fee", "payroll", "payroll_correction", "manual_payment", "penalty",
    "issue_reversal", "issue_compensation", "rent_payment", "Interest", "void_item_removed"]

def maxIdempotencyKeyLength : ℕ := 128

def fingerprintVersion : ℕ := 5

def supportedFingerprintVersions : List ℕ := [1, 2, 3, 4, 5]

/-- The characters that `str.strip` removes. -/
def isSpace (c : Char) : Bool :=
  let n := c.toNat
  decide ((9 ≤ n ∧ n ≤ 13) ∨ (28 ≤ n ∧ n ≤ 32) ∨ n = 133 ∨ n = 160 ∨ n = 5760 ∨
    (8192 ≤ n ∧ n ≤ 8202) ∨ n = 8232 ∨ n = 8233 ∨ n = 8239 ∨ n = 8287 ∨ n = 12288)

def isBlank (s : String) : Prop := ∀ c ∈ s.toList, isSpace c = true

instance (s : String) : Decidable (isBlank s) := List.decidableBAll (isSpace · = true) s.toList

section Fingerprint

def optText : Option String → Value
  | none => .null
  | some s => .str s

def optNum : Option ℕ → Value
  | none => .null
  | some n => .num n

def text (cs : List Char) : Value := .str (String.ofList cs)

/-- Whether an effect's amount takes part in the version's fingerprint. -/
def amountIsFingerprinted (type : Option String) (version : ℕ) : Bool :=
  version < 2 || type ≠ some "Interest"

/-- The amount field from version 4 on: quantized before an excluded type drops it. -/
def quantizedAmountField (e : Effect) (version : ℕ) : Except Raise Value :=
  match e.amount with
  | none => .ok .null
  | some d =>
    match d.quantize with
    | none => .error .decimalInvalidOperation
    | some q => .ok (if amountIsFingerprinted e.type version then text q.toText else .null)

def rawAmountField (e : Effect) (version : ℕ) : Value :=
  if amountIsFingerprinted e.type version then
    match e.amount with
    | none => .null
    | some d => text d.toText
  else .null

/-- `_command_fingerprint`'s representation. Its amount is the text of the amount, so an absent
one reads `None`. -/
def commandRepresentation (e : Effect) (version : ℕ) : Value :=
  .obj [("account_type", .str e.accountType), ("actor_seat_id", .num e.actorSeatId),
    ("amount", if amountIsFingerprinted e.type version then
      (match e.amount with
        | none => .str "None"
        | some d => text d.toText)
      else .null),
    ("original_transaction_id", optNum e.originalTransactionId),
    ("policy_id", optNum e.policyId), ("target_seat_id", .num e.targetSeatId),
    ("type", optText e.type)]

def effectFields (e : Effect) (version : ℕ) : Except Raise Value := do
  if version < 4 then
    return .obj [("account_type", .str e.accountType), ("actor_seat_id", .num e.actorSeatId),
      ("amount", rawAmountField e version), ("mechanism", .str e.mechanism),
      ("original_transaction_id", optNum e.originalTransactionId),
      ("policy_id", optNum e.policyId), ("seat_id", .num e.seatId),
      ("target_seat_id", .num e.targetSeatId), ("type", optText e.type)]
  else
    let amount ← quantizedAmountField e version
    let subtype := if version < 5 then []
      else [("compensation_subtype", optText e.compensationSubtype)]
    return .obj ([("account_type", .str e.accountType), ("actor_seat_id", .num e.actorSeatId),
      ("amount", amount), ("compensation_amount_cents", .num e.compensationAmountCents),
      ("compensation_origin_locator", optText e.compensationOriginLocator)] ++ subtype ++
      [("correction_intent_locator", optText e.correctionIntentLocator),
      ("mechanism", .str e.mechanism),
      ("original_transaction_id", optNum e.originalTransactionId),
      ("policy_id", optNum e.policyId), ("seat_id", .num e.seatId),
      ("target_seat_id", .num e.targetSeatId), ("type", optText e.type)])

variable (sha256 : String → String)

/-- `hashlib.sha256(json.dumps(value).encode()).hexdigest()`. -/
def digest (v : Value) : String := sha256 (String.ofList (dumps v))

/-- `_replay_fingerprint`: an effect plan serialized under one version. -/
def replayFingerprint (effects : List Effect) (version : ℕ) (canonicalIntent : Value) :
    Except Raise String := do
  match effects, decide (version < 4) with
  | [e], true => return digest sha256 (commandRepresentation e version)
  | _, _ =>
    require (3 ≤ version) (.valueError
      "Legacy multi-effect reservations require the seat-ownership migration.")
    let fields ← effects.mapM (effectFields · version)
    return digest sha256 (if version < 4 then .arr fields
      else .obj [("effects", .arr fields), ("intent", canonicalIntent)])

def assertReplayMatches (r : LedgerCommandReservation) (effects : List Effect)
    (canonicalIntent : Value) : Except Raise Unit := do
  let mismatch :=
    Raise.valueError "Replay fingerprint mismatch for existing Ledger command reservation."
  require (r.fingerprintVersion ∈ supportedFingerprintVersions) mismatch
  let fingerprint ← replayFingerprint sha256 effects r.fingerprintVersion canonicalIntent
  require (r.replayFingerprint = fingerprint) mismatch

end Fingerprint

structure CommandIdentity where
  classId : String
  featCode : String
  idempotencyKey : String
deriving DecidableEq, Repr

def LedgerCommandReservation.identity (r : LedgerCommandReservation) : CommandIdentity :=
  ⟨r.classId, r.featCode, r.idempotencyKey⟩

def reservedRows (L : LedgerState) (reservationId : ℕ) : List Transaction :=
  L.transactions.filter (·.commandReservationId = some reservationId)

variable (sha256 : String → String)

def replayReserved (L : LedgerState) (r : LedgerCommandReservation) (effects : List Effect)
    (canonicalIntent : Value) : Except Raise (List Transaction) := do
  assertReplayMatches sha256 r effects canonicalIntent
  require (reservedRows L r.id ≠ [])
    (.runtimeError "Ledger command reservation has no committed effects.")
  return reservedRows L r.id

def createEffects (feat : FeatContext) (r : LedgerCommandReservation) :
    LedgerState → List Effect → Except Raise (List Transaction × LedgerState)
  | L, [] => return ([], L)
  | L, e :: es => do
    let (t, L') ← createPendingEffect sha256 feat L (some r) e
    let (ts, L'') ← createEffects feat r L' es
    return (t :: ts, L'')

def newReservation (L : LedgerState) (id : CommandIdentity) (fingerprint : String) :
    LedgerCommandReservation where
  id := L.reservations.length + 1
  classId := id.classId
  featCode := id.featCode
  idempotencyKey := id.idempotencyKey
  replayFingerprint := fingerprint
  fingerprintVersion := fingerprintVersion

def checkIdempotencyKey (key : String) : Except Raise Unit := do
  require (¬ isBlank key) (.valueError "Idempotency key must be a non-empty string.")
  require (key.length ≤ maxIdempotencyKeyLength)
    (.valueError "Idempotency key exceeds the maximum allowed length.")

/-- The reservation a command meets: the one its first query finds, or else the one that the
unique constraint finds at its insertion, where a rival committed in between. -/
def reservationMet (seen table : List LedgerCommandReservation) (id : CommandIdentity) :
    Option LedgerCommandReservation :=
  match seen.find? (·.identity = id) with
  | some r => some r
  | none => table.find? (·.identity = id)

/-- `create_reserved_effects`. The first query may run before a racing call commits, so it
reads `seen` rather than the table the insertion meets; a caller with no rival sees the table. -/
def createReservedEffects (feat : FeatContext) (L : LedgerState)
    (seen : List LedgerCommandReservation) (id : CommandIdentity) (effects : List Effect)
    (canonicalIntent : Value) : Except Raise ((List Transaction × Bool) × LedgerState) := do
  require (id.classId ≠ "" ∧ id.featCode ≠ "" ∧ id.idempotencyKey ≠ "" ∧ effects ≠ [])
    (.valueError "A reserved command requires class, FEAT, key, and effects.")
  checkIdempotencyKey id.idempotencyKey
  let fingerprint ← replayFingerprint sha256 effects fingerprintVersion canonicalIntent
  match reservationMet seen L.reservations id with
  | some r =>
    let rows ← replayReserved sha256 L r effects canonicalIntent
    return ((rows, false), L)
  | none =>
    let r := newReservation L id fingerprint
    let (rows, L') ← createEffects sha256 feat r
      { L with reservations := L.reservations ++ [r] } effects
    return ((rows, true), L')

/-- `create_idempotent_transaction`: one effect under the active FEAT. -/
def createIdempotentTransaction (feat : FeatContext) (L : LedgerState)
    (seen : List LedgerCommandReservation) (idempotencyKey : String) (e : Effect) :
    Except Raise ((List Transaction × Bool) × LedgerState) := do
  require (idempotencyKey ≠ "" ∧ e.classId ≠ "" ∧ feat.activeFeat ≠ "")
    (.valueError "Idempotent Ledger effects require class, FEAT, and key.")
  checkIdempotencyKey idempotencyKey
  require (∃ t ∈ e.type, t ∈ idempotentTransactionTypes)
    (.valueError "Transaction type is not enabled for idempotent creation.")
  createReservedEffects sha256 feat L seen ⟨e.classId, feat.activeFeat, idempotencyKey⟩ [e] .null

/-- `create_pending_transaction`. With a key, the amount is quantized and the effect goes through
its reservation. -/
def createPendingTransaction (feat : FeatContext) (L : LedgerState)
    (idempotencyKey : Option String) (reservation : Option LedgerCommandReservation)
    (e : Effect) : Except Raise (List Transaction × LedgerState) := do
  let key := idempotencyKey.getD ""
  require (¬ (key ≠ "" ∧ reservation.isSome))
    (.valueError "Provide either idempotency_key or command_reservation, not both.")
  if key ≠ "" then
    let quantized := { e with
      amount := some (Decimal.ofHundredths (quantizeCurrency e.amount)) }
    let ((rows, _), L') ← createIdempotentTransaction sha256 feat L L.reservations key quantized
    return (rows.take 1, L')
  else
    let (t, L') ← createPendingEffect sha256 feat L reservation e
    return ([t], L')

section Specification

variable {sha256} {feat : FeatContext} {L L' : LedgerState}

theorem createEffects_ok {r : LedgerCommandReservation} {es : List Effect}
    {ts : List Transaction} (h : createEffects sha256 feat r L es = .ok (ts, L')) :
    Insertions L ts L' ∧ List.Forall₂ (RowOf feat (some r)) es ts := by
  induction es generalizing L ts with
  | nil =>
    simp only [createEffects, pure_eq_ok, Prod.mk.injEq] at h
    obtain ⟨rfl, rfl⟩ := h
    exact ⟨.nil _, .nil⟩
  | cons e es ih =>
    simp only [createEffects, bind_eq_ok, Prod.exists, pure_eq_ok, Prod.mk.injEq] at h
    obtain ⟨t, L₁, ht, ts', L₂, hts, rfl, rfl⟩ := h
    obtain ⟨hi, hrow, -⟩ := createPendingEffect_ok ht
    obtain ⟨his, hrows⟩ := ih hts
    exact ⟨.cons hi his, .cons hrow hrows⟩

theorem replayReserved_ok {r : LedgerCommandReservation} {effects : List Effect}
    {intent : Value} {rows : List Transaction} :
    replayReserved sha256 L r effects intent = .ok rows ↔
      assertReplayMatches sha256 r effects intent = .ok () ∧ reservedRows L r.id ≠ [] ∧
        rows = reservedRows L r.id := by
  simp only [replayReserved, bind_eq_ok, require_eq_ok, pure_eq_ok]
  constructor
  · rintro ⟨⟨⟩, hm, ⟨⟩, hne, rfl⟩
    exact ⟨hm, hne, rfl⟩
  · rintro ⟨hm, hne, rfl⟩
    exact ⟨(), hm, (), hne, rfl⟩

theorem reservationMet_some {seen table : List LedgerCommandReservation} {id : CommandIdentity}
    {r : LedgerCommandReservation} (h : reservationMet seen table id = some r) :
    (r ∈ seen ∨ r ∈ table) ∧ r.identity = id := by
  unfold reservationMet at h
  split at h
  · next hr =>
    cases h
    exact ⟨.inl (List.mem_of_find?_eq_some hr), by simpa using List.find?_some hr⟩
  · exact ⟨.inr (List.mem_of_find?_eq_some h), by simpa using List.find?_some h⟩

theorem reservationMet_none {seen table : List LedgerCommandReservation} {id : CommandIdentity}
    (h : reservationMet seen table id = none) : ∀ r ∈ table, r.identity ≠ id := by
  unfold reservationMet at h
  split at h
  · cases h
  · simpa using h

/-- A reserved command either replays the reservation that holds its identity, and changes
nothing, or reserves the identity and appends its effects. -/
theorem createReservedEffects_ok {seen : List LedgerCommandReservation} {id : CommandIdentity}
    {effects : List Effect} {intent : Value} {rows : List Transaction} {created : Bool}
    (h : createReservedEffects sha256 feat L seen id effects intent = .ok ((rows, created), L')) :
    (created = false ∧ L' = L ∧ ∃ r, (r ∈ seen ∨ r ∈ L.reservations) ∧ r.identity = id ∧
        replayReserved sha256 L r effects intent = .ok rows) ∨
      (created = true ∧ (∀ r ∈ L.reservations, r.identity ≠ id) ∧ ∃ fingerprint,
        replayFingerprint sha256 effects fingerprintVersion intent = .ok fingerprint ∧
        Insertions { L with reservations := L.reservations ++ [newReservation L id fingerprint] }
          rows L' ∧
        List.Forall₂ (RowOf feat (some (newReservation L id fingerprint))) effects rows) := by
  simp only [createReservedEffects, require_bind_eq_ok] at h
  obtain ⟨-, h⟩ := h
  simp only [bind_eq_ok] at h
  obtain ⟨-, -, fingerprint, hf, h⟩ := h
  split at h
  · next r hr =>
    simp only [bind_eq_ok, pure_eq_ok, Prod.mk.injEq] at h
    obtain ⟨rows', hrows, ⟨rfl, rfl⟩, rfl⟩ := h
    obtain ⟨hmem, hid⟩ := reservationMet_some hr
    exact .inl ⟨rfl, rfl, r, hmem, hid, hrows⟩
  · next hnone =>
    simp only [bind_eq_ok, pure_eq_ok, Prod.mk.injEq, Prod.exists] at h
    obtain ⟨rows', L'', hc, ⟨rfl, rfl⟩, rfl⟩ := h
    obtain ⟨hi, hrows⟩ := createEffects_ok hc
    exact .inr ⟨rfl, reservationMet_none hnone, fingerprint, hf, hi, hrows⟩

end Specification

end TokenHub.Ledger
