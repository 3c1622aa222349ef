import TokenHub.Ledger.Command
import TokenHub.Rent.Schedule

set_option autoImplicit false

namespace TokenHub.Configuration

open Ledger Lib.Checks Lib.Json
open Rent (Instant isoFormat)

abbrev Groups := List (String × Value)

section Rows

structure Context where
  userId : ℕ
  classId : String
  seatId : ℕ
  actorRole : String
deriving DecidableEq, Repr

structure Session where
  nonce : Option String
  idleExpired : Bool
deriving DecidableEq, Repr

structure User where
  id : ℕ
  userRole : String
  currentSessionNonce : Option String
deriving DecidableEq, Repr

structure ClassEconomy where
  classId : String
  teacherUserId : ℕ
deriving DecidableEq, Repr

structure Seat where
  id : ℕ
  classId : String
  userId : ℕ
  role : String
deriving DecidableEq, Repr

structure Identities where
  users : List User
  classes : List ClassEconomy
  seats : List Seat
deriving DecidableEq, Repr

/-- The two columns of `users` that exports own. -/
structure ExportAuthority where
  configurationExportVerifier : Option String
  configurationExportExpiresAt : Option Instant
deriving DecidableEq, Repr

/-- A verified export. Its `format` is 1, and its instants travel as ISO texts. -/
structure Envelope where
  reference : String
  issuedAt : Instant
  expiresAt : Instant
  groups : Groups

/-- A verified confirmation. The random operation id is a fresh number here. -/
structure Token where
  operationId : ℕ
  classId : String
  seatId : ℕ
  digest : String
  reference : String
  expiresAt : Instant
  selection : Value
  schedules : Value
  state : String

structure ConfigurationImportReceipt where
  classId : String
  operationId : ℕ
  actorSeatId : ℕ
  fingerprint : String
  expiresAt : Instant
  acceptedAt : Instant
  result : Value

inductive AuditEntry
  | exported (userId : ℕ) (fileDigest : String)
  | imported (classId : String) (operationId : ℕ) (fingerprint : String) (result : Value)
  | cleanup (classId : String) (count : ℕ)

/-- A confirmation that a preview has signed, and the file that it was signed for. -/
structure Issue where
  token : Token
  file : String

end Rows

/-- The surroundings of a transfer: its signatures, and what a configuration is made of. `κ` is the
rest of the database, `δ` a decoded configuration. `_validate` reads of the class only its time
zone, which is set once. -/
structure Surroundings (κ δ : Type) where
  sha256 : String → String
  signExport : Envelope → String
  verifyExport : String → Option Envelope
  signConfirmation : Token → String
  verifyConfirmation : String → Option Token
  inventory : κ → Context → Groups
  selectEntries : Groups → Value → Except Raise Groups
  schedule : Groups → Value → Groups → Except Raise Groups
  validate : Groups → String → Except Raise δ
  previewTiming : κ → Context → δ → Instant → Except Raise Unit
  stateText : κ → Context → Instant → String
  enabled : κ → String → List String
  apply : κ → Context → ℕ → δ → List String → Instant → Except Raise (Value × κ)

structure TransferState (κ : Type) where
  clock : Instant
  identities : Identities
  exports : ℕ → ExportAuthority
  receipts : List ConfigurationImportReceipt
  audit : List AuditEntry
  configuration : κ
  /-- Every confirmation that has been signed. -/
  issued : List Issue

def configurationError (message : String) : Raise := .domainError "ConfigurationError" message

variable {κ δ : Type} (W : Surroundings κ δ)

section Authority

def executionAuthority (I : Identities) (ctx : Context) (session : Session) : Except Raise Unit := do
  let user ← demand ((I.users.find? (·.id = ctx.userId)).filter (fun u ↦ u.userRole = "teacher" ∧
      ctx.actorRole = "teacher" ∧ session.nonce.getD "" ≠ "" ∧
      u.currentSessionNonce.getD "" = session.nonce.getD ""))
    (configurationError "Your authorization has changed. Sign in again.")
  require (session.idleExpired = false) (configurationError "Your session expired. Sign in again.")
  require (∃ s ∈ I.seats, s.id = ctx.seatId ∧ s.classId = ctx.classId ∧ s.userId = ctx.userId ∧
      s.role = "teacher")
    (configurationError "You must hold the teacher seat in this class")
  require ((I.classes.find? (·.classId = ctx.classId)).any (fun c ↦
      decide (c.teacherUserId = user.id)) = true)
    (configurationError "You must own this class to transfer its configuration")

def validateReference (authority : ExportAuthority) (now : Instant) (envelope : Envelope)
    (token : Option Token) : Except Raise Unit := do
  require (authority.configurationExportVerifier.getD "" = W.sha256 envelope.reference ∧
      authority.configurationExportExpiresAt = some envelope.expiresAt ∧ now < envelope.expiresAt)
    (configurationError "This export has expired or has been replaced")
  require (∀ t ∈ token, now < t.expiresAt) (configurationError "This confirmation has expired")

def load (raw : String) (ctx : Context) : Except Raise Envelope := do
  let envelope ← demand (W.verifyExport raw) (configurationError
    "Configuration is invalid or its signature cannot be verified")
  require (envelope.reference.length = 64) (configurationError "Unsupported configuration format")
  let _ ← W.validate envelope.groups ctx.classId
  return envelope

end Authority

section Receipts

def findReceipt (receipts : List ConfigurationImportReceipt) (classId : String)
    (operationId : ℕ) : Option ConfigurationImportReceipt :=
  receipts.find? (fun r ↦ r.classId = classId ∧ r.operationId = operationId)

/-- `receipts.reserve`: the receipt of an operation, and whether this call inserted it. -/
def reserve (receipts : List ConfigurationImportReceipt) (ctx : Context) (operationId : ℕ)
    (fingerprint : String) (expiresAt acceptedAt : Instant) :
    Except Raise (ConfigurationImportReceipt × Bool × List ConfigurationImportReceipt) := do
  let row : ConfigurationImportReceipt :=
    { classId := ctx.classId, operationId := operationId, actorSeatId := ctx.seatId,
      fingerprint := fingerprint, expiresAt := expiresAt, acceptedAt := acceptedAt,
      result := .obj [] }
  let (receipt, inserted, receipts') := match findReceipt receipts ctx.classId operationId with
    | some r => (r, false, receipts)
    | none => (row, true, receipts ++ [row])
  require (receipt.fingerprint = fingerprint ∧ receipt.actorSeatId = ctx.seatId)
    (configurationError "This operation was already submitted with different inputs")
  return (receipt, inserted, receipts')

def setResult (receipts : List ConfigurationImportReceipt) (classId : String) (operationId : ℕ)
    (result : Value) : List ConfigurationImportReceipt :=
  receipts.map (fun r ↦
    if r.classId = classId ∧ r.operationId = operationId then { r with result := result } else r)

/-- `receipts.cleanup`: what is left. -/
def keptReceipts (receipts : List ConfigurationImportReceipt) (classId : String)
    (cutoff : Instant) : List ConfigurationImportReceipt :=
  receipts.filter (fun r ↦ ¬ (r.classId = classId ∧ r.expiresAt ≤ cutoff))

end Receipts

section Commands

/-- `StrictJSON.dumps` of a confirmation, its keys sorted. -/
def Token.value (t : Token) : Value :=
  .obj [("class_id", .str t.classId), ("digest", .str t.digest),
    ("expires_at", .str (isoFormat t.expiresAt)), ("operation_id", .num t.operationId),
    ("reference", .str t.reference), ("schedules", t.schedules), ("seat_id", .num t.seatId),
    ("selection", t.selection), ("state", .str t.state)]

def skippedFamilies (enabled : List String) (groups : Groups) : List String :=
  (groups.map (·.1)).filter (fun family ↦ family ≠ "economy" ∧ family ∉ enabled)

def keptFamilies (enabled : List String) (groups : Groups) : Groups :=
  groups.filter (fun p ↦ p.1 ∉ skippedFamilies enabled groups)

def select (groups : Groups) (selection : Value) : Except Raise Groups :=
  if selection matches .null then .ok groups else W.selectEntries groups selection

def exportLifetime : Instant := 5 * 86400 * 1000000

def exportConfiguration (S : TransferState κ) (ctx : Context) (session : Session)
    (selection : Value) (expectedInventoryDigest : Option String) (reference : String) :
    Except Raise (String × TransferState κ) := do
  executionAuthority S.identities ctx session
  let current := W.inventory S.configuration ctx
  require (∀ expected ∈ expectedInventoryDigest, expected = digest W.sha256 (.obj current))
    (configurationError "Class configuration changed. Review your export selection again.")
  let groups ← select W current selection
  let _ ← W.validate groups ctx.classId
  let expires := S.clock + exportLifetime
  let raw := W.signExport ⟨reference, S.clock, expires, groups⟩
  let authority : ExportAuthority := ⟨some (W.sha256 reference), some expires⟩
  return (raw, { S with
    exports := Function.update S.exports ctx.userId authority
    audit := S.audit ++ [.exported ctx.userId (W.sha256 raw)] })

/-- `select` and `_schedule`. -/
def chosenGroups (k : κ) (ctx : Context) (envelope : Envelope) (selection schedules : Value) :
    Except Raise Groups := do
  let groups ← select W envelope.groups selection
  W.schedule groups schedules (W.inventory k ctx)

/-- `preview_import`: a confirmation is signed, and nothing written. -/
def previewImport (S : TransferState κ) (ctx : Context) (session : Session) (raw : String)
    (selection schedules : Value) : Except Raise (String × TransferState κ) := do
  executionAuthority S.identities ctx session
  let envelope ← load W raw ctx
  validateReference W (S.exports ctx.userId) S.clock envelope none
  let groups ← chosenGroups W S.configuration ctx envelope selection schedules
  let decoded ← W.validate
    (keptFamilies (W.enabled S.configuration ctx.classId) groups) ctx.classId
  W.previewTiming S.configuration ctx decoded S.clock
  let token : Token :=
    { operationId := S.issued.length, classId := ctx.classId, seatId := ctx.seatId,
      digest := W.sha256 raw, reference := envelope.reference, expiresAt := envelope.expiresAt,
      selection := selection, schedules := schedules,
      state := W.sha256 (W.stateText S.configuration ctx S.clock) }
  return (W.signConfirmation token, { S with issued := S.issued ++ [⟨token, raw⟩] })

/-- `confirm_import` up to `validate_reference`: what it takes for a reference to be accepted. -/
def acceptReference (S : TransferState κ) (ctx : Context) (session : Session)
    (raw confirmation : String) : Except Raise (Token × Envelope) := do
  let token ← demand (W.verifyConfirmation confirmation) (configurationError
    "Configuration is invalid or its signature cannot be verified")
  require (token.classId = ctx.classId ∧ token.seatId = ctx.seatId ∧ token.digest = W.sha256 raw)
    (configurationError "Confirmation does not match this class, actor or file")
  executionAuthority S.identities ctx session
  let envelope ← load W raw ctx
  require (token.reference = envelope.reference ∧ token.expiresAt = envelope.expiresAt)
    (configurationError "Confirmation does not match the export")
  validateReference W (S.exports ctx.userId) S.clock envelope (some token)
  return (token, envelope)

/-- The rest of `confirm_import` where the operation has no receipt. The receipt is accepted
`lasting` after the reference was. -/
def applyImport (S : TransferState κ) (ctx : Context) (token : Token) (envelope : Envelope)
    (lasting : ℕ) : Except Raise (Value × TransferState κ) := do
  let acceptedAt := S.clock + lasting
  require (W.sha256 (W.stateText S.configuration ctx acceptedAt) = token.state)
    (configurationError "Class configuration changed. Preview the import again.")
  let groups ← chosenGroups W S.configuration ctx envelope token.selection token.schedules
  let enabled := W.enabled S.configuration ctx.classId
  let decoded ← W.validate (keptFamilies enabled groups) ctx.classId
  let fingerprint := digest W.sha256 token.value
  let (receipt, inserted, receipts) ← reserve S.receipts ctx token.operationId fingerprint
    token.expiresAt acceptedAt
  if inserted = false then return (receipt.result, { S with clock := acceptedAt })
  else
    let (result, k) ← W.apply S.configuration ctx token.operationId decoded
      (skippedFamilies enabled groups) acceptedAt
    return (result, { S with
      clock := acceptedAt
      receipts := setResult receipts ctx.classId token.operationId result
      audit := S.audit ++ [.imported ctx.classId token.operationId fingerprint result]
      configuration := k })

def confirmImport (S : TransferState κ) (ctx : Context) (session : Session)
    (raw confirmation : String) (lasting : ℕ) : Except Raise (Value × TransferState κ) := do
  let (token, envelope) ← acceptReference W S ctx session raw confirmation
  match findReceipt S.receipts ctx.classId token.operationId with
  | some previous =>
    require (previous.fingerprint = digest W.sha256 token.value ∧
        previous.actorSeatId = ctx.seatId)
      (configurationError "Operation identity was reused with different inputs")
    return (previous.result, S)
  | none => applyImport W S ctx token envelope lasting

def cleanupReceipts (S : TransferState κ) (ctx : Context) (session : Session) :
    Except Raise (ℕ × TransferState κ) := do
  executionAuthority S.identities ctx session
  let kept := keptReceipts S.receipts ctx.classId S.clock
  let count := S.receipts.length - kept.length
  return (count, { S with receipts := kept, audit := S.audit ++ [.cleanup ctx.classId count] })

end Commands

section Steps

inductive Action (κ : Type)
  | elapsed (d : ℕ)
  /-- Sign-ins, hand-overs of a class and changes of its seats. -/
  | identified (I : Identities)
  /-- Commands elsewhere change the rest of the database. -/
  | configured (k : κ)
  | exports (ctx : Context) (session : Session) (selection : Value)
      (expectedInventoryDigest : Option String) (reference : String)
  | preview (ctx : Context) (session : Session) (raw : String) (selection schedules : Value)
  | confirm (ctx : Context) (session : Session) (raw confirmation : String) (lasting : ℕ)
  | cleanup (ctx : Context) (session : Session)

def step (S : TransferState κ) : Action κ → TransferState κ
  | .elapsed d => { S with clock := S.clock + d }
  | .identified I => { S with identities := I }
  | .configured k => { S with configuration := k }
  | .exports ctx session selection expected reference =>
    committed S (exportConfiguration W S ctx session selection expected reference)
  | .preview ctx session raw selection schedules =>
    committed S (previewImport W S ctx session raw selection schedules)
  | .confirm ctx session raw confirmation lasting =>
    committed S (confirmImport W S ctx session raw confirmation lasting)
  | .cleanup ctx session => committed S (cleanupReceipts S ctx session)

def TransferState.initial (clock : Instant) (I : Identities) (exports : ℕ → ExportAuthority)
    (k : κ) : TransferState κ where
  clock := clock
  identities := I
  exports := exports
  receipts := []
  audit := []
  configuration := k
  issued := []

def Unforged (S : TransferState κ) (confirmation : String) : Prop :=
  ∀ token, W.verifyConfirmation confirmation = some token → ∃ i ∈ S.issued, i.token = token

def Unforgeable (S : TransferState κ) : Action κ → Prop
  | .confirm _ _ _ confirmation _ => Unforged W S confirmation
  | _ => True

end Steps

end TokenHub.Configuration
