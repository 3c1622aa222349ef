import TokenHub.Ledger.Command
import TokenHub.Lib.Chain
import TokenHub.Lib.Decimals
import TokenHub.Lib.Sha256
import TokenHub.Rent.Schedule

set_option autoImplicit false

namespace TokenHub.Audit

open Ledger Lib.Json Lib.Decimals Lib.Digits Lib.Sha256
open Rent (Instant isoFormat)

structure AuditEvent where
  id : ℕ
  chainScope : String
  sequenceNumber : ℤ
  previousHash : String
  eventHash : String
  tableName : String
  rowPk : String
  operation : String
  actorType : Option String
  actorIdHash : Option String
  classId : Option String
  seatId : Option ℤ
  featId : Option String
  idempotencyKey : Option String
  correlationId : Option String
  requestId : Option String
  payloadDigest : String
  contextDigest : String
  createdAtUtc : Instant
  signerKeyId : String
  signatureVersion : ℤ
  hmacSignature : String
deriving DecidableEq, Repr

structure ChainHead where
  chainScope : String
  latestHash : String
  latestSequence : ℤ
  eventCount : ℤ
deriving DecidableEq, Repr

structure AuditState where
  events : List AuditEvent
  heads : List ChainHead
  /-- The last key that the events table gave out. -/
  lastEventId : ℕ
deriving DecidableEq, Repr

/-- A value of a protected field. A dictionary in a JSON column is held with its keys in order. -/
inductive FieldValue
  | null
  | num (n : ℤ)
  | text (s : String)
  | instant (t : Instant)
  | money (q : Hundredths)
  | json (v : Value)

inductive ColumnType
  | number
  | text
  | instant
  | money
  | json
deriving DecidableEq, Repr

def columnType (column : String) : ColumnType :=
  if column ∈ ["id", "actor_seat_id", "target_seat_id", "seat_id", "opening_event_id",
      "closing_event_id", "amount_cents", "policy_id", "posting_sequence",
      "command_reservation_id", "compensation_amount_cents"] then .number
  else if column ∈ ["recorded_at", "timestamp"] then .instant
  else if column = "amount" then .money
  else if column ∈ ["summary_json", "receipt_json"] then .json
  else .text

def Storable (t : Instant) : Prop :=
  1 ≤ t / 86400000000 + 719163 ∧ t / 86400000000 + 719163 ≤ 3652059

instance (t : Instant) : Decidable (Storable t) := by unfold Storable; infer_instance

/-- A column of a type holds a value. A JSON `null` reads as an absent value. -/
def FieldValue.HasType : FieldValue → ColumnType → Prop
  | .null, _ => True
  | .num _, .number => True
  | .text _, .text => True
  | .instant t, .instant => Storable t
  | .money _, .money => True
  | .json v, .json => v ≠ .null
  | _, _ => False

structure ProtectedRow where
  id : ℤ
  columns : List (String × FieldValue)
  typed : ∀ p ∈ columns, p.2.HasType (columnType p.1)
  lineageEventId : Option ℕ
  lineageToken : Option String
  lineageVersion : Option ℤ

def ProtectedRow.get (row : ProtectedRow) (field : String) : Option FieldValue :=
  if field = "id" then some (.num row.id) else row.columns.lookup field

def intString (n : ℤ) : String := String.ofList (intText n)

section Digests

/-- A value as `_canonical_payload` writes it. -/
def FieldValue.toJson : FieldValue → Value
  | .null => .null
  | .num n => .num n
  | .text s => .str s
  | .instant t => .str (isoFormat t)
  | .money q => .str (String.ofList q.toText)
  | .json v => v

def resolveScope (classId : Option String) : String :=
  match classId.filter (· ≠ "") with
  | some classId => "class:" ++ classId
  | none => "system"

def reservedKeys : List String := ["__table__", "__pk__", "__op__", "__class_id__"]

def prefixFields (tableName rowPk operation : String) (classId : Option String) :
    List (String × Value) :=
  [("__table__", .str tableName), ("__pk__", .str rowPk), ("__op__", .str operation),
   ("__class_id__", optText classId)]

/-- The dictionary that `_canonical_payload` writes: its prefix fields, as far as no business field
replaces them, and the business fields, by key. -/
def canonicalFields (tableName rowPk operation : String) (classId : Option String)
    (fields : List (String × FieldValue)) : List (String × Value) :=
  ((prefixFields tableName rowPk operation classId).filter (fun p ↦ p.1 ∉ fields.map Prod.fst) ++
    fields.map (fun p ↦ (p.1, p.2.toJson))).mergeSort (fun p q ↦ p.1 ≤ q.1)

def canonicalPayload (tableName rowPk operation : String) (classId : Option String)
    (fields : List (String × FieldValue)) : String :=
  String.ofList (dumps (.obj (canonicalFields tableName rowPk operation classId fields)))

def computePayloadDigest (tableName rowPk operation : String) (classId : Option String)
    (fields : List (String × FieldValue)) : String :=
  sha256Hex (canonicalPayload tableName rowPk operation classId fields)

def computeContextDigest (featId classId actorType actorIdHash correlationId idempotencyKey :
    Option String) : String :=
  sha256Hex (String.ofList (dumps (.obj [("actor_id_hash", optText actorIdHash),
    ("actor_type", optText actorType), ("class_id", optText classId),
    ("correlation_id", optText correlationId), ("feat_id", optText featId),
    ("idempotency_key", optText idempotencyKey)])))

/-- The message that `_compute_event_hash` signs. -/
def eventMessage (previousHash chainScope : String) (sequenceNumber : ℤ)
    (tableName rowPk operation actorContextJson payloadDigest createdAtUtc : String) : String :=
  "|".intercalate [previousHash, chainScope, intString sequenceNumber, tableName, rowPk, operation,
    actorContextJson, payloadDigest, createdAtUtc]

def computeEventHash (signingKey previousHash chainScope : String) (sequenceNumber : ℤ)
    (tableName rowPk operation actorContextJson payloadDigest createdAtUtc : String) : String :=
  hmacHex signingKey (eventMessage previousHash chainScope sequenceNumber tableName rowPk operation
    actorContextJson payloadDigest createdAtUtc)

def actorContextFields (actorType actorIdHash featId correlationId : Option String) :
    List (String × Value) :=
  [("actor_id_hash", optText actorIdHash), ("actor_type", optText actorType),
   ("correlation_id", optText correlationId), ("feat_id", optText featId)]

def actorContextJson (actorType actorIdHash featId correlationId : Option String) : String :=
  String.ofList (dumps (.obj (actorContextFields actorType actorIdHash featId correlationId)))

def AuditEvent.rebuildActorContextJson (e : AuditEvent) : String :=
  actorContextJson e.actorType e.actorIdHash e.featId e.correlationId

def AuditEvent.message (e : AuditEvent) : String :=
  eventMessage e.previousHash e.chainScope e.sequenceNumber e.tableName e.rowPk e.operation
    e.rebuildActorContextJson e.payloadDigest (isoFormat e.createdAtUtc)

end Digests

section Emission

/-- What the FEAT runtime and the temporal resolver supply to an emission. -/
structure AuditContext where
  /-- Within `system_audit_authority`. -/
  systemAuthority : Bool
  /-- The active FEAT and its correlation id. -/
  feat : Option (String × String)
  canonicalNowUtc : Instant
deriving DecidableEq, Repr

structure EmitRequest where
  tableName : String
  rowPk : String
  operation : String
  protectedFields : List (String × FieldValue)
  classId : Option String := none
  seatId : Option ℤ := none
  actorType : Option String := none
  actorIdHash : Option String := none
  featId : Option String := none
  idempotencyKey : Option String := none
  correlationId : Option String := none
  requestId : Option String := none
  signatureVersion : ℤ := 1

variable (signingKey : String) (S : AuditState) (ctx : AuditContext) (q : EmitRequest)

/-- `a or b` on texts that may be absent. -/
def orText (a b : Option String) : Option String := (a.filter (· ≠ "")).or b

def genesisHead (chainScope : String) : ChainHead := ⟨chainScope, "genesis", 0, 0⟩

def headOf (chainScope : String) : Option ChainHead :=
  S.heads.find? (·.chainScope = chainScope)

def nextEvent (head : ChainHead) : AuditEvent :=
  let correlationId :=
    if ctx.systemAuthority then q.correlationId
    else orText q.correlationId (ctx.feat.map Prod.snd)
  let featId := if ctx.systemAuthority then q.featId else orText q.featId (ctx.feat.map Prod.fst)
  let actorType := if ctx.systemAuthority then some "system" else q.actorType
  let payloadDigest :=
    computePayloadDigest q.tableName q.rowPk q.operation q.classId q.protectedFields
  let eventHash := computeEventHash signingKey head.latestHash (resolveScope q.classId)
    (head.latestSequence + 1) q.tableName q.rowPk q.operation
    (actorContextJson actorType q.actorIdHash featId correlationId) payloadDigest
    (isoFormat ctx.canonicalNowUtc)
  { id := S.lastEventId + 1, chainScope := resolveScope q.classId,
    sequenceNumber := head.latestSequence + 1, previousHash := head.latestHash,
    eventHash := eventHash, tableName := q.tableName, rowPk := q.rowPk, operation := q.operation,
    actorType := actorType, actorIdHash := q.actorIdHash, classId := q.classId, seatId := q.seatId,
    featId := featId, idempotencyKey := q.idempotencyKey, correlationId := correlationId,
    requestId := q.requestId, payloadDigest := payloadDigest,
    contextDigest := computeContextDigest featId q.classId actorType q.actorIdHash correlationId
      q.idempotencyKey,
    createdAtUtc := ctx.canonicalNowUtc, signerKeyId := "v1",
    signatureVersion := q.signatureVersion, hmacSignature := eventHash }

/-- A head row put in the place of its scope's, or after the others. -/
def setHead : List ChainHead → ChainHead → List ChainHead
  | [], head => [head]
  | h :: hs, head => if h.chainScope = head.chainScope then head :: hs else h :: setHead hs head

def emitAuditEvent : Except Raise (AuditEvent × AuditState) :=
  if signingKey = "" then
    .error (.domainError "AuditContextError"
      "AUDIT_HMAC_KEY is not set. Cannot emit audit events.")
  else if ctx.systemAuthority = false ∧ ctx.feat = none then
    .error (.domainError "AuditContextError"
      ("emit_audit_event must be called inside an active FEAT context or " ++
        "system_audit_authority. Direct calls without a context are forbidden."))
  else
    let head := (headOf S (resolveScope q.classId)).getD (genesisHead (resolveScope q.classId))
    let event := nextEvent signingKey S ctx q head
    .ok (event,
      { events := S.events ++ [event],
        heads := setHead S.heads ⟨head.chainScope, event.eventHash, event.sequenceNumber,
          head.eventCount + 1⟩,
        lastEventId := event.id })

def auditProtected (tableName : String) (row : ProtectedRow) (operation : String)
    (fields : List String) (signatureVersion : ℤ) : EmitRequest :=
  { tableName := tableName, rowPk := intString row.id, operation := operation,
    protectedFields := fields.map (fun f ↦ (f, (row.get f).getD .null)),
    classId :=
      match row.get "class_id" with
      | some (.text s) => some s
      | _ => none,
    seatId :=
      match row.get "seat_id" with
      | some (.num n) => some n
      | _ => none,
    signatureVersion := signatureVersion }

end Emission

end TokenHub.Audit
