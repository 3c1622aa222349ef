import Mathlib.Logic.Function.Basic
import TokenHub.Identity.Seats
import TokenHub.Lib.Digits
import TokenHub.Lib.Json
import TokenHub.Lib.Past

set_option autoImplicit false

namespace TokenHub.Identity

open Ledger Lib.Checks Lib.Json
open Rent (Instant)

section Store

def ttlSeconds : ℤ := 1800

def second : ℤ := 1000000

inductive Owner
  | seat (id : ℕ)
  | user (id : ℕ)
deriving DecidableEq, Repr

def Owner.text : Owner → String
  | .seat id => "seat:" ++ String.ofList (Lib.Digits.natText id)
  | .user id => "user:" ++ String.ofList (Lib.Digits.natText id)

/-- The keyed digests of setup: of a setup's scope and of a recovery authorization. -/
structure SetupKeys where
  hmac : List Char → String
  recoveryNonceHash : ℕ → String

def SetupKeys.Separates (K : SetupKeys) : Prop :=
  Function.Injective K.hmac ∧ Function.Injective K.recoveryNonceHash

/-- A record of the volatile store. Tokens, generations and authorizations are numbers that are
drawn once. -/
structure SetupRecord where
  owner : Owner
  scope : String
  generation : ℕ
  username : Option String := none
  verifiedPage : Option String := none
  attempts : ℕ := 0
  collision : Bool := false
  completing : Bool := false
  completionLookup : Option String := none
  expiresAt : Instant
deriving DecidableEq, Repr

structure OwnerIndex where
  tokens : List ℕ
  expiresAt : Instant
deriving DecidableEq, Repr

/-- What a setup is for: a seat's claim of some generation, or a principal's recovery under some
authorization. -/
inductive Target
  | seat (id claimGeneration : ℕ)
  | user (id authorization : ℕ)
deriving DecidableEq, Repr

/-- What commands have done, as the log of a run tells it. -/
inductive SetupEvent
  | begun (token : ℕ) (target : Target) (at' : Instant)
  | generated (token generation : ℕ) (username : String)
  | verified (token : ℕ) (page typed : String)
  | taken (token generation : ℕ) (page : String)
  | restored (token : ℕ)
  | activated (token generation : ℕ) (username : String) (target : Target) (at' : Instant)
  | issued (userId : ℕ) (code : String) (at' : Instant)
  | validated (userId : ℕ) (code : String) (authorization : ℕ)
  | unclaimed (seatId : ℕ)
deriving DecidableEq, Repr

/-- The tables, the volatile store, what `take_verified` has returned for which token, and the log,
newest first. -/
structure SetupState where
  clock : Instant
  tables : IdentityState
  records : ℕ → Option SetupRecord
  owners : Owner → Option OwnerIndex
  taken : List (ℕ × SetupRecord)
  lastToken : ℕ
  lastGeneration : ℕ
  lastAuthorization : ℕ
  log : List SetupEvent

variable (S : SetupState) (token : ℕ) (binding : String)

def SetupState.record : Option SetupRecord :=
  (S.records token).filter (fun r ↦ S.clock < r.expiresAt)

/-- The members of an owner's index, none when it has expired. -/
def SetupState.tokensOf (owner : Owner) : List ℕ :=
  match (S.owners owner).filter (fun i ↦ S.clock < i.expiresAt) with
  | some i => i.tokens
  | none => []

def setupExpired (message : String) : Raise := .domainError "SetupExpired" message

def startAgain : Raise := setupExpired "Setup expired. Please start again."

def beginSetup (owner : Owner) (ttl : ℤ) : ℕ × SetupState :=
  let token := S.lastToken + 1
  let record : SetupRecord :=
    { owner := owner, scope := binding, generation := S.lastGeneration + 1
      expiresAt := S.clock + max 1 (min ttlSeconds ttl) * second }
  (token, { S with
    records := Function.update S.records token (some record)
    owners := Function.update S.owners owner
      (some ⟨token :: S.tokensOf owner, S.clock + (ttlSeconds + 60) * second⟩)
    lastToken := token
    lastGeneration := S.lastGeneration + 1 })

def discard : SetupState := { S with records := Function.update S.records token none }

def forgetOwner (owner : Owner) : SetupState :=
  { S with
    records := fun t ↦ if t ∈ S.tokensOf owner then none else S.records t
    owners := Function.update S.owners owner none }

def readSetup : Except Raise SetupRecord :=
  demand ((S.record token).filter (·.scope = binding)) startAgain

/-- `_change`: an operation on one record, which keeps its expiry. -/
def change {α : Type} (operation : SetupRecord → Except Raise (α × SetupRecord)) :
    Except Raise (α × SetupState) := do
  let record ← readSetup S token binding
  let (result, record') ← operation record
  return (result, { S with records := Function.update S.records token (some record') })

/-- `generate`. It answers whether it wrote a username. -/
def generate (value : String) : Except Raise (Bool × SetupState) := do
  let (written, S') ← change S token binding fun record ↦ do
    require (record.completing = false) (setupExpired "Setup is being completed.")
    if record.username.isSome = true ∧ record.collision = false then return (false, record)
    else return (true, { record with
      username := some value, generation := S.lastGeneration + 1, verifiedPage := none
      attempts := 0, collision := false })
  return (written, { S' with lastGeneration := S.lastGeneration + 1 })

variable (T : Texts)

def verify (page typed : String) : Except Raise ((Bool × ℕ) × SetupState) := do
  require (20 ≤ page.length ∧ page.length ≤ 128)
    (setupExpired "The setup page expired. Please reload it.")
  change S token binding fun record ↦ do
    let username ← demand (record.username.filter (fun _ ↦
      record.completing = false ∧ record.collision = false)) startAgain
    let matched := decide (hashUsernameLookup T typed = hashUsernameLookup T username)
    return ((matched, record.attempts + 1), { record with
      attempts := record.attempts + 1, verifiedPage := if matched then some page else none })

def takeVerified (page : String) : Except Raise (SetupRecord × SetupState) :=
  change S token binding fun record ↦ do
    let username ← demand (record.username.filter (fun _ ↦
        record.completing = false ∧ page ≠ "" ∧ record.verifiedPage = some page))
      (setupExpired "Confirm your saved username before setting your credentials.")
    return (record, { record with
      username := none, verifiedPage := none, completing := true
      completionLookup := some (hashUsernameLookup T username) })

def restore (taken : SetupRecord) (collision : Bool) : Except Raise (Unit × SetupState) :=
  change S token binding fun record ↦ do
    require (record.completing = true ∧ record.generation = taken.generation) startAgain
    return ((), { record with
      username := taken.username, verifiedPage := none, completing := false
      collision := collision, completionLookup := none })

def completionIsValid (generation : ℕ) (value : String) : Bool :=
  match readSetup S token binding with
  | .ok record => decide (record.completing = true ∧ record.generation = generation ∧
      record.completionLookup = some (hashUsernameLookup T value))
  | .error _ => false

end Store

section Staging

variable (K : SetupKeys)

def scopeDigest (owner : Owner) (values : List Value) : String :=
  K.hmac (dumps (.arr (.str owner.text :: values)))

def seatScope (seat : Seat) : Owner × String :=
  (.seat seat.id, scopeDigest K (.seat seat.id) [.str seat.classId, .num seat.claimGeneration])

def userScope (user : User) (authorization : Option ℕ) : Owner × String :=
  (.user user.id, scopeDigest K (.user user.id) [authorization.elim .null fun n ↦ .num n])

variable (S : SetupState)

def recoverySetupIsValid (user : User) (authorization : Option ℕ) : Bool :=
  decide (user.userRole = "student" ∧
    (∃ t ∈ user.recoverySetupExpiresAt, S.clock < t) ∧
    ∃ n ∈ authorization, user.recoverySetupNonceHash = some (K.recoveryNonceHash n))

def SetupState.user (userId : ℕ) : Option User := S.tables.users.find? (·.id = userId)

/-- `_stage_username_setup` of a claim. -/
def stageClaim (seatId : ℕ) (claimGeneration : Option ℕ) : Except Raise (ℕ × SetupState) := do
  let seat ← demand ((S.tables.seat seatId).filter (fun s ↦
    s.userId = none ∧ some s.claimGeneration = claimGeneration)) (setupExpired "Setup expired.")
  return beginSetup S (seatScope K seat).2 (seatScope K seat).1 ttlSeconds

/-- `_stage_username_setup` of a recovery. -/
def stageRecovery (userId : ℕ) (authorization : Option ℕ) : Except Raise (ℕ × SetupState) := do
  let user ← demand ((S.user userId).filter (recoverySetupIsValid K S · authorization))
    (setupExpired "Setup expired.")
  let ttl := min ttlSeconds ((user.recoverySetupExpiresAt.getD S.clock - S.clock) / second)
  require (0 < ttl) (setupExpired "Setup expired.")
  return beginSetup S (userScope K user authorization).2 (userScope K user authorization).1 ttl

end Staging

section Activation

variable (K : SetupKeys) (T : Texts) (S : SetupState) (token generation : ℕ)

def setUser (users : List User) (userId : ℕ) (f : User → User) : List User :=
  users.map (fun u ↦ if u.id = userId then f u else u)

def User.recovered (u : User) (credentials : Credentials) (sessionNonce : String) : User :=
  { u with
    usernameLookupHash := some (hashUsernameLookup T credentials.username)
    pinHash := some (T.hashPassword credentials.pin)
    passphraseHash := some (T.hashPassword credentials.passphrase)
    resetCode := none
    resetCodeGeneratedAt := none
    resetCodeExpiresAt := none
    recoverySetupNonceHash := none
    recoverySetupExpiresAt := none
    currentSessionNonce := some sessionNonce }

/-- The recovery path of `activate_student_credentials`. -/
def activateRecovery (seatId : Option ℕ) (userId : ℕ) (authorization : Option ℕ)
    (credentials : Credentials) (sessionNonce : String) : Except Raise (ℕ × SetupState) := do
  require (pinIsWellFormed credentials.pin = true)
    (refusal "INVALID_PIN" "PIN must be 4-6 digits, not all the same or sequential.")
  let user ← demand ((S.user userId).filter (fun u ↦
      seatId = none ∧ recoverySetupIsValid K S u authorization = true))
    (refusal "INVALID_RECOVERY_STATE" "Invalid or expired recovery code.")
  require (completionIsValid S token (userScope K user authorization).2 T generation
      credentials.username = true)
    (refusal "INVALID_SETUP_STATE" "Your setup session expired. Please start again.")
  require (∀ u ∈ S.tables.users, u.id ≠ userId →
      u.usernameLookupHash ≠ some (hashUsernameLookup T credentials.username))
    (refusal "USERNAME_TAKEN"
      "That username is already taken. Please go back and choose another word.")
  let users := setUser S.tables.users userId (·.recovered T credentials sessionNonce)
  return (user.id, forgetOwner { S with tables := { S.tables with users := users } } (.user userId))

/-- The claim path of `activate_student_credentials`. -/
def activateClaim (seatId : Option ℕ) (claimGeneration : Option ℕ) (credentials : Credentials) :
    Except Raise (ℕ × SetupState) := do
  require (pinIsWellFormed credentials.pin = true)
    (refusal "INVALID_PIN" "PIN must be 4-6 digits, not all the same or sequential.")
  let seatId ← demand seatId
    (refusal "INVALID_SEAT_STATE" "Invalid setup state. Please start over.")
  let (userId, tables) ← claimSeat T S.tables S.clock seatId claimGeneration credentials fun seat ↦
    completionIsValid S token (seatScope K seat).2 T generation credentials.username
  return (userId, forgetOwner { S with tables := tables } (.seat seatId))

end Activation

section Recovery

def resetCodeAlphabet : List Char := "ABCDEFGHJKLMNPQRSTUVWXYZ23456789".toList

structure ResetCode where
  text : String
  length : text.length = 8
  letters : ∀ c ∈ text.toList, c ∈ resetCodeAlphabet

def isTriviallyWeakResetCode (code : String) : Bool :=
  let positions := code.toList.map (fun c ↦ (resetCodeAlphabet.idxOf c : ℤ))
  let steps := positions.zipWith (fun a b ↦ b - a) positions.tail
  decide (code.toList.eraseDups.length = 1) ||
    (code.toList.all (· ∈ resetCodeAlphabet) && !steps.isEmpty &&
      (steps.all (· = 1) || steps.all (· = -1)))

/-- `_generate_reset_code`: the first draw that is not weak. -/
def generateResetCode : List ResetCode → Except Raise String
  | [] => throw (.runtimeError "still drawing")
  | d :: ds => if isTriviallyWeakResetCode d.text then generateResetCode ds else return d.text

variable (K : SetupKeys) (T : Texts) (D : ClassDirectory T) (S : SetupState)

def User.issued (u : User) (code : String) (now : Instant) : User :=
  { u with
    recoverySetupNonceHash := none
    recoverySetupExpiresAt := none
    resetCode := some code
    resetCodeGeneratedAt := some now
    resetCodeExpiresAt := some (now + 10 * 60 * second) }

def issueStudentRecoveryCode (userId : ℕ) (draws : List ResetCode) :
    Except Raise (Option String × SetupState) :=
  match (S.user userId).filter (·.userRole = "student") with
  | none => return (none, S)
  | some user => do
    let S₁ := forgetOwner S (.user user.id)
    let code ← generateResetCode draws
    let users := setUser S₁.tables.users userId (·.issued code S.clock)
    return (some code, { S₁ with tables := { S₁.tables with users := users } })

def User.validated (u : User) (nonceHash : String) : User :=
  { u with
    recoverySetupNonceHash := some nonceHash
    recoverySetupExpiresAt := u.resetCodeExpiresAt
    resetCode := none
    resetCodeGeneratedAt := none
    resetCodeExpiresAt := none }

def holderOfCode (users : List User) (resetCode : String) : Option User :=
  match users.filter (fun u ↦ u.resetCode = some resetCode ∧ u.userRole = "student") with
  | [u] => some u
  | _ => none

/-- `validate_recovery_code`: the principal, and the authorization that the session receives. -/
def validateRecoveryCode (resetCode : String) : Except Raise ((ℕ × ℕ) × SetupState) := do
  let user ← demand ((holderOfCode S.tables.users resetCode).filter (fun u ↦
      resetCode ≠ "" ∧ ∃ t ∈ u.resetCodeExpiresAt, S.clock < t))
    (refusal "INVALID_OR_EXPIRED" "Invalid or expired recovery code.")
  let nonce := S.lastAuthorization + 1
  let users := setUser S.tables.users user.id (·.validated (K.recoveryNonceHash nonce))
  return ((user.id, nonce),
    { S with tables := { S.tables with users := users }, lastAuthorization := nonce })

/-- What `delete_user_if_orphaned` forgets of a principal. -/
def forgetOrphaned (principal : Option ℕ) : SetupState :=
  match principal.filter (!S.tables.isRetained T D ·) with
  | some userId => forgetOwner S (.user userId)
  | none => S

/-- `unclaim_student_seat`, with the setups that it forgets. -/
def unclaimSeat (ctx : CanonicalContext) (seatId : ℕ) (expectedGeneration : Option ℕ)
    (firstName lastName : String) (draws : List ClaimCode) : Except Raise (ℕ × SetupState) := do
  let (id, tables) ← unclaimStudentSeat T D S.tables ctx seatId expectedGeneration firstName
    lastName draws
  return (id, forgetOrphaned T D (forgetOwner { S with tables := tables } (.seat id))
    ((S.tables.seat id).bind (·.userId)))

end Recovery

section Steps

inductive SetupAction
  | elapsed (d : ℕ)
  | beginClaim (seatId : ℕ) (claimGeneration : Option ℕ)
  | beginRecovery (userId : ℕ) (authorization : Option ℕ)
  | generate (token : ℕ) (binding value : String)
  | verify (token : ℕ) (binding page typed : String)
  | takeVerified (token : ℕ) (binding page : String)
  | restore (token : ℕ) (binding : String) (taken : SetupRecord) (collision : Bool)
  | discard (token : ℕ)
  | forgetOwner (owner : Owner)
  | activateClaim (token generation : ℕ) (seatId claimGeneration : Option ℕ)
      (credentials : Credentials)
  | activateRecovery (token generation : ℕ) (seatId : Option ℕ) (userId : ℕ)
      (authorization : Option ℕ) (credentials : Credentials) (sessionNonce : String)
  | issue (userId : ℕ) (draws : List ResetCode)
  | validate (resetCode : String)
  | unclaim (ctx : CanonicalContext) (seatId : ℕ) (expectedGeneration : Option ℕ)
      (firstName lastName : String) (draws : List ClaimCode)

/-- A command's state with what it tells the log. A refused command leaves nothing. -/
def told {α : Type} (S : SetupState) (r : Except Raise (α × SetupState))
    (event : α → Option SetupEvent) : SetupState :=
  match r with
  | .ok (a, S') => { S' with log := (event a).toList ++ S'.log }
  | .error _ => S

variable (K : SetupKeys) (T : Texts) (D : ClassDirectory T) (S : SetupState)

/-- A `restore` is handed what `take_verified` has returned for its token. -/
def setupStep : SetupAction → SetupState
  | .elapsed d => { S with clock := S.clock + d }
  | .beginClaim seatId claimGeneration =>
    told S (stageClaim K S seatId claimGeneration) fun token ↦
      some (.begun token (.seat seatId (claimGeneration.getD 0)) S.clock)
  | .beginRecovery userId authorization =>
    told S (stageRecovery K S userId authorization) fun token ↦
      some (.begun token (.user userId (authorization.getD 0)) S.clock)
  | .generate token binding value =>
    told S (generate S token binding value) fun written ↦
      if written then some (.generated token (S.lastGeneration + 1) value) else none
  | .verify token binding page typed =>
    told S (verify S token binding T page typed) fun out ↦
      if out.1 then some (.verified token page typed) else none
  | .takeVerified token binding page =>
    match Identity.takeVerified S token binding T page with
    | .ok (taken, S') =>
      { S' with
        taken := (token, taken) :: S'.taken
        log := .taken token taken.generation page :: S'.log }
    | .error _ => S
  | .restore token binding taken collision =>
    if (token, taken) ∈ S.taken then
      told S (restore S token binding taken collision) fun _ ↦ some (.restored token)
    else S
  | .discard token => Identity.discard S token
  | .forgetOwner owner => Identity.forgetOwner S owner
  | .activateClaim token generation seatId claimGeneration credentials =>
    told S (Identity.activateClaim K T S token generation seatId claimGeneration credentials)
      fun _ ↦ some (.activated token generation credentials.username
        (.seat (seatId.getD 0) (claimGeneration.getD 0)) S.clock)
  | .activateRecovery token generation seatId userId authorization credentials sessionNonce =>
    told S (Identity.activateRecovery K T S token generation seatId userId authorization credentials
      sessionNonce) fun _ ↦ some (.activated token generation credentials.username
        (.user userId (authorization.getD 0)) S.clock)
  | .issue userId draws =>
    told S (issueStudentRecoveryCode S userId draws) fun code ↦
      code.map (.issued userId · S.clock)
  | .validate resetCode =>
    told S (validateRecoveryCode K S resetCode) fun out ↦ some (.validated out.1 resetCode out.2)
  | .unclaim ctx seatId expectedGeneration firstName lastName draws =>
    told S (unclaimSeat T D S ctx seatId expectedGeneration firstName lastName draws) fun id ↦
      some (.unclaimed id)

end Steps

section Proofs

open Lib.Past

variable (T : Texts)

/-- What the log tells of a token's username. -/
def GeneratedNow (token generation : ℕ) (username : String) : List SetupEvent → Prop :=
  Since (fun e ↦ ∀ g u, e ≠ .generated token g u) fun e _ ↦
    ∃ u, e = .generated token generation u ∧ normalizeUsername T u = normalizeUsername T username

def TypedBack (token generation : ℕ) (username page : String) : List SetupEvent → Prop :=
  Since (fun e ↦ ∀ g u, e ≠ .generated token g u) fun e older ↦
    ∃ typed, e = .verified token page typed ∧
      normalizeUsername T typed = normalizeUsername T username ∧
      GeneratedNow T token generation username older

def SetupEvent.Reopens (token : ℕ) : SetupEvent → Prop
  | .generated k .. => k = token
  | .taken k .. => k = token
  | .restored k => k = token
  | .activated k .. => k = token
  | _ => False

/-- The page on which the username was typed back was consumed, and nothing has happened to it. -/
def ConsumedNow (token generation : ℕ) (username : String) : List SetupEvent → Prop :=
  Since (fun e ↦ ¬ e.Reopens token) fun e older ↦
    ∃ page, e = .taken token generation page ∧ TypedBack T token generation username page older

/-- The principal's one authorization since its newest reset code, which opened it. -/
def AuthorizedUntil (userId authorization : ℕ) (deadline : Instant) : List SetupEvent → Prop :=
  Since (fun e ↦ (∀ c t, e ≠ .issued userId c t) ∧ ∀ c n, e ≠ .validated userId c n) fun e older ↦
    ∃ code, e = .validated userId code authorization ∧
      Since (fun e ↦ (∀ c t, e ≠ .issued userId c t) ∧ ∀ c n, e ≠ .validated userId c n)
        (fun e _ ↦ ∃ t, e = .issued userId code t ∧ deadline = t + 10 * 60 * second) older

/-- The setup began under the seat's present claim, or the principal's present reset code. -/
def BegunNow (token : ℕ) : Target → List SetupEvent → Prop
  | .seat id claimGeneration =>
    Since (fun e ↦ e ≠ .unclaimed id) fun e _ ↦ ∃ t, e = .begun token (.seat id claimGeneration) t
  | .user id authorization =>
    Since (fun e ↦ ∀ c t, e ≠ .issued id c t) fun e _ ↦
      ∃ t, e = .begun token (.user id authorization) t

/-- A recovery happens before its code's expiry. -/
def InTime : Target → Instant → List SetupEvent → Prop
  | .seat .., _, _ => True
  | .user id authorization, at', log =>
    ∃ deadline, at' < deadline ∧ AuthorizedUntil id authorization deadline log

def Backed : SetupEvent → List SetupEvent → Prop
  | .begun _ target at', older => InTime target at' older
  | .activated token generation username target at', older =>
    ConsumedNow T token generation username older ∧ BegunNow token target older ∧
      InTime target at' older ∧
      (∀ g u tgt t, .activated token g u tgt t ∉ older) ∧
      ∀ id claimGeneration, target = .seat id claimGeneration →
        ∀ k g u t, .activated k g u (.seat id claimGeneration) t ∉ older
  | .validated userId code _, older =>
    Since (fun e ↦ (∀ c t, e ≠ .issued userId c t) ∧ ∀ c n, e ≠ .validated userId c n)
      (fun e _ ↦ ∃ t, e = .issued userId code t) older
  | _, _ => True

end Proofs

end TokenHub.Identity
