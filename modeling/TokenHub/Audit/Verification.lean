import TokenHub.Audit.Rows

set_option autoImplicit false

namespace TokenHub.Audit

open Ledger Lib.Json Lib.Digits
open Rent (isoFormat)

inductive LineageState
  | verified
  | unverified
  | invalid
  | degraded
deriving DecidableEq, Repr

structure VerificationResult where
  chainScope : String
  state : LineageState
  eventCount : ℤ
  failureType : Option String
  firstBadSequence : Option ℤ
  lastGoodHash : Option String
deriving DecidableEq, Repr

section Chain

variable (signingKey : String) (S : AuditState) (chainScope : String)

def orderedEvents : List AuditEvent :=
  (S.events.filter (·.chainScope = chainScope)).mergeSort
    (fun e f ↦ e.sequenceNumber ≤ f.sequenceNumber)

/-- The hash that the verifier expects of an event behind `previousHash`. -/
def expectedHash (previousHash : String) (e : AuditEvent) : String :=
  computeEventHash signingKey previousHash chainScope e.sequenceNumber e.tableName e.rowPk
    e.operation e.rebuildActorContextJson e.payloadDigest (isoFormat e.createdAtUtc)

/-- The loop of `verify_chain`, after `verified` events of which the last has the hash
`previousHash`. -/
def walkEvents : String → ℤ → List AuditEvent → VerificationResult
  | previousHash, verified, [] =>
    { chainScope := chainScope, state := .verified, eventCount := verified, failureType := none,
      firstBadSequence := none, lastGoodHash := some previousHash }
  | previousHash, verified, e :: rest =>
    let failed (failureType : String) (firstBadSequence : ℤ) : VerificationResult :=
      { chainScope := chainScope, state := .invalid, eventCount := verified,
        failureType := some failureType, firstBadSequence := some firstBadSequence,
        lastGoodHash := some previousHash }
    if e.sequenceNumber ≠ verified + 1 then failed "SEQUENCE_GAP" (verified + 1)
    else if e.previousHash ≠ previousHash then failed "BAD_HASH" e.sequenceNumber
    else if expectedHash signingKey chainScope previousHash e ≠ e.eventHash then
      failed "BAD_HMAC" e.sequenceNumber
    else walkEvents e.eventHash (verified + 1) rest

def verifyChain (limit : ℕ) : VerificationResult :=
  match headOf S chainScope with
  | none =>
    { chainScope := chainScope, state := .degraded, eventCount := 0,
      failureType := some "MISSING_CHAIN_HEAD", firstBadSequence := none, lastGoodHash := none }
  | some _ => walkEvents signingKey chainScope "genesis" 0 ((orderedEvents S chainScope).take limit)

def runFullInvariantCheck : List VerificationResult :=
  S.heads.map (fun h ↦ verifyChain signingKey S h.chainScope 1000)

end Chain

section Rows

def protectedFieldsByTable : String → List String
  | "attendance_interval_invalidation" =>
    ["id", "class_id", "actor_seat_id", "target_seat_id", "opening_event_id", "closing_event_id",
     "recorded_at", "reason_code", "idempotency_key", "correlation_id", "receipt_json"]
  | "payroll_event" =>
    ["id", "class_id", "payroll_cycle_id", "actor_seat_id", "target_seat_id", "correlation_id",
     "idempotency_key", "policy_uuid", "mechanism", "payroll_event_type", "recorded_at",
     "summary_json"]
  | "transaction" =>
    ["amount", "account_type", "type", "status", "class_id", "seat_id", "description",
     "correlation_id"]
  | "ledger_transaction" =>
    ["id", "class_id", "actor_seat_id", "target_seat_id", "mechanism", "amount_cents", "timestamp",
     "account_type", "description", "correlation_id", "feat_code", "idempotency_key", "policy_id",
     "type", "posting_sequence", "command_reservation_id", "compensation_origin_locator",
     "compensation_amount_cents", "correction_intent_locator"]
  | _ => []

def ledgerFieldsByVersion : ℤ → List String
  | 2 =>
    ["id", "class_id", "actor_seat_id", "target_seat_id", "mechanism", "amount_cents", "timestamp",
     "account_type", "description", "correlation_id", "feat_code", "idempotency_key", "policy_id",
     "type", "posting_sequence", "command_reservation_id"]
  | 3 =>
    ["id", "class_id", "actor_seat_id", "target_seat_id", "mechanism", "amount_cents", "timestamp",
     "account_type", "description", "correlation_id", "feat_code", "idempotency_key", "policy_id",
     "type", "posting_sequence", "command_reservation_id", "compensation_origin_locator",
     "compensation_amount_cents", "correction_intent_locator"]
  | _ => []

def creationProofFields (table : String) (signatureVersion : ℤ) : List String :=
  if table = "ledger_transaction" then ledgerFieldsByVersion signatureVersion
  else protectedFieldsByTable table

variable (signingKey : String) (S : AuditState)

def currentValues (row : ProtectedRow) : List String → Option (List (String × FieldValue))
  | [] => some []
  | f :: fs => do
    let v ← row.get f
    let vs ← currentValues row fs
    return (f, v) :: vs

structure RowVerificationResult where
  tableName : String
  rowPk : String
  state : LineageState
  lineageEventId : Option ℕ
  failureType : Option String
deriving DecidableEq, Repr

def verifyRowLineage (table : String) (row : ProtectedRow) : RowVerificationResult :=
  let result (state : LineageState) (failureType : Option String) : RowVerificationResult :=
    ⟨table, intString row.id, state, row.lineageEventId, failureType⟩
  match row.lineageEventId with
  | none => result .unverified none
  | some pointer =>
    match S.events.find? (·.id = pointer) with
    | none => result .invalid (some "MISSING_EVENT")
    | some event =>
      if table = "ledger_transaction" ∧ event.signatureVersion ≠ 2 ∧
          event.signatureVersion ≠ 3 then
        result .degraded (some "VERIFIER_COVERAGE_UNAVAILABLE")
      else if creationProofFields table event.signatureVersion = [] then
        result .degraded (some "UNKNOWN_TABLE")
      else
        match currentValues row (creationProofFields table event.signatureVersion) with
        | none => result .degraded (some "VERIFIER_COVERAGE_UNAVAILABLE")
        | some values =>
          if computePayloadDigest event.tableName event.rowPk event.operation event.classId values
              ≠ event.payloadDigest then
            result .invalid (some "PAYLOAD_MISMATCH")
          else result .verified none

/-- The checks of an event against the row that names it, which the two forms of the proof
share: the event is the row's creation, in its class. -/
def linksCreation (table : String) (row : ProtectedRow) (classId : String) (event : AuditEvent) :
    Bool :=
  event.tableName = table ∧ event.rowPk = intString row.id ∧ event.classId = some classId ∧
    event.chainScope = "class:" ++ classId ∧ event.operation = "INSERT" ∧
    row.lineageToken = some event.hmacSignature ∧
    row.lineageVersion = some event.signatureVersion

def verifyRecordCreationLineage (table : String) (row : ProtectedRow) (classId : String)
    (requiredFields : List String) : Bool :=
  match row.lineageEventId.bind (fun pointer ↦ S.events.find? (·.id = pointer)) with
  | none => false
  | some event =>
    let fields := creationProofFields table event.signatureVersion
    if linksCreation table row classId event ∧ (∀ f ∈ requiredFields, f ∈ fields) ∧
        (currentValues row fields).isSome then
      match headOf S event.chainScope with
      | none => false
      | some head =>
        let verification :=
          verifyChain signingKey S event.chainScope (head.latestSequence + 1).toNat
        event.sequenceNumber ≤ head.latestSequence ∧ verification.state = .verified ∧
          verification.eventCount = head.latestSequence ∧
          verification.lastGoodHash = some head.latestHash ∧
          head.eventCount = verification.eventCount ∧
          (verifyRowLineage S table row).state = .verified
    else false

structure VerifiedCreationEvidence where
  tableName : String
  rowPk : String
  classId : String
  lineageEventId : ℕ
  lineageToken : String
  signatureVersion : ℤ
  protectedFields : List String
  protectedValues : List (String × FieldValue)

def verifiedCreationEvidence (table : String) (row : ProtectedRow) (classId : String)
    (requiredFields : List String) : Option VerifiedCreationEvidence := do
  guard (verifyRecordCreationLineage signingKey S table row classId requiredFields = true)
  let pointer ← row.lineageEventId
  let token ← row.lineageToken
  let event ← S.events.find? (·.id = pointer)
  let values ← currentValues row (creationProofFields table event.signatureVersion)
  return ⟨table, intString row.id, classId, pointer, token, event.signatureVersion,
    creationProofFields table event.signatureVersion, values⟩

section Batch

inductive ChainStatus
  | complete
  | unavailable
  | invalid
deriving DecidableEq, Repr

structure CreationEvidenceBatch where
  evidence : List (Option VerifiedCreationEvidence)
  chainStatus : ChainStatus
  reason : Option String

def creationProofMaxChainEvents : ℕ := 100000

def creationProofMaxRows : ℕ := 2000

def rowCreationEvidence (table : String) (row : ProtectedRow) (classId : String)
    (event : Option AuditEvent) (latestSequence : ℤ) (requiredFields : List String) :
    Option VerifiedCreationEvidence := do
  let pointer ← row.lineageEventId
  let token ← row.lineageToken
  let event ← event
  let fields := creationProofFields table event.signatureVersion
  guard (event.id = pointer ∧ linksCreation table row classId event = true ∧
    event.sequenceNumber ≤ latestSequence)
  guard (table = "ledger_transaction" →
    event.signatureVersion = 2 ∨ event.signatureVersion = 3)
  guard (fields ≠ [] ∧ ∀ f ∈ requiredFields, f ∈ fields)
  let values ← currentValues row fields
  guard (computePayloadDigest event.tableName event.rowPk event.operation event.classId values =
    event.payloadDigest)
  return ⟨table, intString row.id, classId, pointer, token, event.signatureVersion, fields, values⟩

/-- What the walk of a batch finds: a failure, or the number of events and the last hash. -/
def walkBatch (chainScope : String) (maxChainEvents : ℕ) : String → ℕ → List AuditEvent →
    Except (ChainStatus × String) (ℕ × String)
  | previous, walked, [] => .ok (walked, previous)
  | previous, walked, item :: rest =>
    if maxChainEvents < walked + 1 then .error (.unavailable, "EVIDENCE_LIMIT_EXCEEDED")
    else if item.sequenceNumber ≠ (walked + 1 : ℕ) ∨ item.previousHash ≠ previous then
      .error (.invalid, "CHAIN_CONTINUITY_MISMATCH")
    else if expectedHash signingKey chainScope previous item ≠ item.eventHash then
      .error (.invalid, "ENVELOPE_HMAC_MISMATCH")
    else walkBatch chainScope maxChainEvents item.eventHash (walked + 1) rest

/-- `_creation_evidence_batch`. The two reads of the head agree: no append comes between them. -/
def creationEvidenceBatch (items : List (String × ProtectedRow)) (classId : String)
    (requiredFields : List String) (maxChainEvents : ℕ) : CreationEvidenceBatch :=
  let unavailable (status : ChainStatus) (reason : Option String) : CreationEvidenceBatch :=
    ⟨items.map (fun _ ↦ none), status, reason⟩
  let scope := "class:" ++ classId
  let events := (orderedEvents S scope).take (maxChainEvents + 1)
  if items.all (·.2.lineageEventId.isNone) then unavailable .complete none
  else if signingKey = "" then unavailable .unavailable (some "AUDIT_KEY_UNAVAILABLE")
  else
    match headOf S scope with
    | none => unavailable .unavailable (some "MISSING_CHAIN_HEAD")
    | some head =>
      if head.latestSequence < 0 ∨ head.eventCount < 0 then
        unavailable .invalid (some "MALFORMED_CHAIN_HEAD")
      else if maxChainEvents < head.latestSequence ∨ maxChainEvents < head.eventCount then
        unavailable .unavailable (some "EVIDENCE_LIMIT_EXCEEDED")
      else
        match walkBatch signingKey scope maxChainEvents "genesis" 0 events with
        | .error (status, reason) => unavailable status (some reason)
        | .ok (walked, previous) =>
          if (walked : ℤ) ≠ head.latestSequence ∨ (walked : ℤ) ≠ head.eventCount ∨
              previous ≠ head.latestHash then
            unavailable .invalid (some "CHAIN_HEAD_MISMATCH")
          else
            -- A later row of one id takes the place of an earlier one.
            ⟨items.map (fun item ↦ rowCreationEvidence item.1 item.2 classId
              (item.2.lineageEventId.bind (fun pointer ↦ events.reverse.find? (·.id = pointer)))
              head.latestSequence requiredFields), .complete, none⟩

def verifiedCreationEvidences (items : List (String × ProtectedRow)) (classId : String)
    (requiredFields : List String) (maxChainEvents maxRows : ℤ) :
    Except Raise CreationEvidenceBatch :=
  if maxChainEvents < 1 ∨ creationProofMaxChainEvents < maxChainEvents ∨ maxRows < 1 ∨
      creationProofMaxRows < maxRows then
    .error (.valueError "Invalid audit evidence bound.")
  else if classId = "" then .error (.valueError "Unsupported audit evidence scope.")
  else if maxRows < items.length then
    .ok ⟨items.map (fun _ ↦ none), .unavailable, some "EVIDENCE_LIMIT_EXCEEDED"⟩
  else if items = [] then .ok ⟨[], .complete, none⟩
  else .ok (creationEvidenceBatch signingKey S items classId requiredFields maxChainEvents.toNat)

end Batch

end Rows

end TokenHub.Audit
