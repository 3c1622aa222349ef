import TokenHub.Identity.Rows

set_option autoImplicit false

namespace TokenHub.Identity

open Ledger Lib.Checks
open Rent (Instant)

section ClaimCodes

def claimCodeAlphabet : List Char := "ABCDEFGHJKLMNPQRSTUVWXYZ23456789".toList

def claimCodeLength : ℕ := 4

structure ClaimCode where
  text : String
  length : text.length = claimCodeLength
  letters : ∀ c ∈ text.toList, c ∈ claimCodeAlphabet

/-- `_generate_claim_code`: the first draw that is not in use, and the draws after it. A call whose
draws run out has not returned. -/
def generateClaimCode (used : List String) : List ClaimCode → Except Raise (String × List ClaimCode)
  | [] => throw (.runtimeError "still drawing")
  | d :: ds => if d.text ∈ used then generateClaimCode used ds else return (d.text, ds)

variable (T : Texts)

/-- An unclaimed student seat of a class with given claim-name hashes. -/
def Seat.IsNamesake (classId firstHash lastHash : String) (s : Seat) : Prop :=
  s.classId = classId ∧ s.role = "student" ∧ s.userId = none ∧
    s.claimFirstNameHash = some firstHash ∧ s.claimLastNameHash = some lastHash

instance (classId firstHash lastHash : String) (s : Seat) :
    Decidable (s.IsNamesake classId firstHash lastHash) := by
  unfold Seat.IsNamesake; infer_instance

/-- A code is kept when it is not empty and no earlier namesake holds it. -/
def KeepsCode (seen : List String) (s : Seat) : Prop :=
  s.dedupeCode.getD "" ≠ "" ∧ s.dedupeCode.getD "" ∉ seen

instance (seen : List String) (s : Seat) : Decidable (KeepsCode seen s) := by
  unfold KeepsCode; infer_instance

/-- The loop of `_ensure_distinct_claim_codes` over the seats, by id. -/
def assignCodes (classId firstHash lastHash firstName lastName : String) :
    List Seat → List String → List String → List ClaimCode → Except Raise (List Seat × List ClaimCode)
  | [], _, _, draws => return ([], draws)
  | s :: rest, used, seen, draws =>
    if s.IsNamesake classId firstHash lastHash then
      if KeepsCode seen s then do
        let (rest', draws') ← assignCodes classId firstHash lastHash firstName lastName rest used
          (s.dedupeCode.getD "" :: seen) draws
        return (s :: rest', draws')
      else do
        let (code, draws₁) ← generateClaimCode used draws
        let s' := { s with
          dedupeCode := some code
          rosterFingerprint := some (hashRosterFingerprint T classId firstName lastName code) }
        let (rest', draws') ← assignCodes classId firstHash lastHash firstName lastName rest
          (code :: used) (code :: seen) draws₁
        return (s' :: rest', draws')
    else do
      let (rest', draws') ← assignCodes classId firstHash lastHash firstName lastName rest used seen
        draws
      return (s :: rest', draws')

def namesakes (S : IdentityState) (classId firstHash lastHash : String) : List Seat :=
  S.seats.filter (·.IsNamesake classId firstHash lastHash)

def ensureDistinctClaimCodes (S : IdentityState)
    (classId firstHash lastHash firstName lastName : String) (draws : List ClaimCode) :
    Except Raise (IdentityState × List ClaimCode) :=
  let seats := namesakes S classId firstHash lastHash
  if seats.length < 2 then return (S, draws)
  else do
    let used := (seats.map (·.dedupeCode.getD "")).filter (· ≠ "")
    let (seats', draws') ← assignCodes T classId firstHash lastHash firstName lastName S.seats used
      [] draws
    return ({ S with seats := seats' }, draws')

end ClaimCodes

section Provisioning

variable (T : Texts) (D : ClassDirectory T)

def provisionChecks (S : IdentityState) (ctx : CanonicalContext)
    (classId firstName lastName dedupeCode : String) : Except Raise Unit := do
  require (ctx.seatId ≠ 0 ∧ ctx.classId ≠ "")
    (refusal "INVALID_CONTEXT" "Missing canonical context (class_id, seat_id)")
  require (classId = ctx.classId) (refusal "CLASS_SCOPE_MISMATCH"
    "Class ID in context does not match provided class_id")
  require (ctx.actorRole = "teacher")
    (refusal "UNAUTHORIZED" "Only teachers can provision student seats")
  require ((S.seat ctx.seatId).any (fun s ↦ decide (s.classId = classId ∧ s.role = "teacher" ∧
      s.userId = some ctx.userId)) = true)
    (refusal "TEACHER_SEAT_NOT_FOUND" "Teacher seat not found or not in class scope")
  require ((D.find classId).isSome = true) (refusal "CLASS_NOT_FOUND" "Class not found")
  require (strip firstName ≠ "" ∧ strip lastName ≠ "")
    (refusal "INVALID_NAME" "first_name and last_name must be non-empty strings")
  require (dedupeCode.length ≤ 8)
    (refusal "INVALID_DEDUPE_CODE" "dedupe_code must be at most 8 characters")

/-- A new student seat with its profile: `create_student_seat_with_profile` and
`create_roster_student_seat` write the same rows but for what they leave to their callers. -/
def addSeat (S : IdentityState) (seat : Seat) (firstName lastName : String)
    (notes : Option String) : IdentityState :=
  let profile : IdentityProfile :=
    { seatId := seat.id, classId := seat.classId, profileType := "student", firstName := firstName,
      lastName := lastName, notes := notes }
  { S with
    seats := S.seats ++ [seat]
    profiles := S.profiles ++ [profile]
    lastSeatId := seat.id }

/-- `execute_provision_student_seat`. It gives the seat its code and no namesake another. -/
def executeProvisionStudentSeat (S : IdentityState) (ctx : CanonicalContext)
    (classId firstName lastName : String) (notes : Option String) (dedupeCode : String)
    (hasReceivedRentExemption : Bool) : Except Raise (ℕ × IdentityState) := do
  provisionChecks T D S ctx classId firstName lastName dedupeCode
  let (first, last) := (strip firstName, strip lastName)
  let seat : Seat :=
    { id := S.lastSeatId + 1, classId := classId, role := "student"
      claimFirstNameHash := some (hashClaimName T first classId .first)
      claimLastNameHash := some (hashClaimName T last classId .last)
      dedupeCode := some dedupeCode, hasReceivedRentExemption := hasReceivedRentExemption }
  return (seat.id, addSeat S seat first last notes)

/-- A row of an upload. A name that is not a string is `none`. -/
structure RosterRow where
  firstName : Option String
  lastName : Option String
  notes : Option String
deriving DecidableEq, Repr

structure PreparedRow where
  first : String
  last : String
  notes : Option String
deriving DecidableEq, Repr

def prepareRow (row : RosterRow) : Except Raise PreparedRow := do
  let first ← demand (row.firstName.filter (fun n ↦ strip n ≠ ""))
    (.valueError "Every row needs a first and last name.")
  let last ← demand (row.lastName.filter (fun n ↦ strip n ≠ ""))
    (.valueError "Every row needs a first and last name.")
  return ⟨strip first, strip last, row.notes⟩

def addPreparedRow (classId : String) (S : IdentityState) (row : PreparedRow) : IdentityState :=
  let seat : Seat :=
    { id := S.lastSeatId + 1, classId := classId, role := "student"
      claimFirstNameHash := some (hashClaimName T row.first classId .first)
      claimLastNameHash := some (hashClaimName T row.last classId .last)
      rosterFingerprint := some (hashRosterFingerprint T classId row.first row.last "") }
  addSeat S seat row.first row.last row.notes

def PreparedRow.key (classId : String) (row : PreparedRow) : String × String :=
  (hashClaimName T row.first classId .first, hashClaimName T row.last classId .last)

def firstOfNames (classId : String) : List (String × String) → List PreparedRow → List PreparedRow
  | _, [] => []
  | seen, row :: rows =>
    if row.key T classId ∈ seen then firstOfNames classId seen rows
    else row :: firstOfNames classId (row.key T classId :: seen) rows

def repairNames (classId : String) : IdentityState → List ClaimCode → List PreparedRow →
    Except Raise IdentityState
  | S, _, [] => return S
  | S, draws, row :: rows => do
    let (S', draws') ← ensureDistinctClaimCodes T S classId (row.key T classId).1
      (row.key T classId).2 row.first row.last draws
    repairNames classId S' draws' rows

def teacherOwns (S : IdentityState) (ctx : CanonicalContext) : Prop :=
  (∃ s ∈ S.seats, s.id = ctx.seatId ∧ s.userId = some ctx.userId ∧ s.classId = ctx.classId ∧
    s.role = "teacher") ∧
  ∃ c ∈ D.find ctx.classId, c.teacherUserId = ctx.userId

instance (S : IdentityState) (ctx : CanonicalContext) : Decidable (teacherOwns T D S ctx) := by
  unfold teacherOwns; infer_instance

def importStudentSeats (S : IdentityState) (ctx : CanonicalContext) (rows : List RosterRow)
    (draws : List ClaimCode) : Except Raise (ℕ × IdentityState) := do
  require (ctx.actorRole = "teacher" ∧ ctx.classId ≠ "" ∧ ctx.seatId ≠ 0)
    (.valueError "Select a class before importing students.")
  require (teacherOwns T D S ctx) (.valueError "You cannot import students into this class.")
  require (rows ≠ []) (.valueError "Provide at least one student row.")
  let prepared ← rows.mapM prepareRow
  let S₁ := prepared.foldl (addPreparedRow T ctx.classId) S
  let S₂ ← repairNames T ctx.classId S₁ draws (firstOfNames T ctx.classId [] prepared)
  return (prepared.length, S₂)

end Provisioning

section Claims

variable (T : Texts) (D : ClassDirectory T)

/-- Steps 2 to 4 of a claim: the one seat that a name and a code pick out. -/
def matchSeat (unclaimed : List Seat) (classId firstName lastName dedupeCode : String) :
    Except Raise Seat := do
  let matched := unclaimed.filter (fun s ↦
    s.claimFirstNameHash = some (hashClaimName T firstName classId .first) ∧
    s.claimLastNameHash = some (hashClaimName T lastName classId .last))
  match matched with
  | [] => throw (refusal "INVALID_CREDENTIALS" "No matching account found.")
  | [s] => return s
  | _ =>
    require (dedupeCode ≠ "") (refusal "AMBIGUOUS_IDENTITY"
      "Multiple students in this class share that name.")
    match matched.filter (·.dedupeCode = some dedupeCode) with
    | [s] => return s
    | _ => throw (refusal "INVALID_DEDUPE_CODE" "Invalid deduplication code.")

def resolveSeatClaim (S : IdentityState) (joinCode firstName lastName dedupeCode : String) :
    Except Raise (ℕ × ℕ) := do
  let c ← demand (D.findByJoinCode joinCode) (refusal "INVALID_JOIN_CODE"
    "Invalid join code or all seats already claimed. Check with your teacher.")
  let unclaimed := S.seats.filter (fun s ↦ s.classId = c.classId ∧ s.userId = none)
  require (unclaimed ≠ []) (refusal "NO_UNCLAIMED_SEATS"
    "Invalid join code or all seats already claimed. Check with your teacher.")
  let s ← matchSeat T unclaimed c.classId firstName lastName dedupeCode
  return (s.id, s.claimGeneration)

def Seat.bound (s : Seat) (userId : ℕ) (now : Instant) : Seat :=
  { s with
    userId := some userId
    claimedAt := some (s.claimedAt.getD now)
    claimFirstNameHash := none
    claimLastNameHash := none
    rosterFingerprint := none
    dedupeCode := none }

def bindAuthenticatedStudentToClass (S : IdentityState) (now : Instant) (userId : ℕ)
    (joinCode firstName lastName dedupeCode : String) : Except Raise (ℕ × IdentityState) := do
  let c ← demand (D.findByJoinCode joinCode) (refusal "INVALID_JOIN_CODE"
    "Invalid join code or all seats already claimed. Check with your teacher.")
  require (∃ u ∈ S.users, u.id = userId ∧ u.userRole = "student")
    (refusal "INVALID_PRINCIPAL" "Sign in again before joining a class.")
  require (∀ s ∈ S.seats, ¬ (s.classId = c.classId ∧ s.userId = some userId))
    (refusal "ALREADY_IN_CLASS" "You're already in this class.")
  let unclaimed := S.seats.filter (fun s ↦
    s.classId = c.classId ∧ s.claimedAt = none ∧ s.userId = none)
  require (unclaimed ≠ []) (refusal "NO_UNCLAIMED_SEATS"
    "Invalid join code or all seats already claimed. Check with your teacher.")
  let s ← matchSeat T unclaimed c.classId firstName lastName dedupeCode
  return (s.id, S.setSeat s.id (·.bound userId now))

def pinIsWellFormed (pin : String) : Bool :=
  let digits := pin.toList.map (fun c ↦ (c.toNat : ℤ))
  decide (4 ≤ pin.length ∧ pin.length ≤ 6) && pin.toList.all (·.isDigit) &&
    decide (pin.toList.eraseDups.length ≠ 1) &&
    !(digits.zip digits.tail).all (fun p ↦ p.2 - p.1 = 1) &&
    !(digits.zip digits.tail).all (fun p ↦ p.2 - p.1 = -1)

structure Credentials where
  username : String
  pin : String
  passphrase : String
deriving DecidableEq, Repr

/-- `create_student_user_for_seat`. The lookup hash of a username is unique. -/
def createStudentUserForSeat (S : IdentityState) (now : Instant) (seat : Seat)
    (credentials : Credentials) : Except Raise (ℕ × IdentityState) := do
  let lookup := hashUsernameLookup T credentials.username
  require (∀ u ∈ S.users, u.usernameLookupHash ≠ some lookup)
    (refusal "USERNAME_TAKEN" "That username is already taken.")
  let user : User :=
    { id := S.lastUserId + 1, userRole := "student", usernameLookupHash := some lookup
      pinHash := some (T.hashPassword credentials.pin)
      passphraseHash := some (T.hashPassword credentials.passphrase)
      lastActiveSeatId := some seat.id, lastActiveClassId := some seat.classId }
  return (user.id, { S.setSeat seat.id (·.bound user.id now) with
    users := S.users ++ [user], lastUserId := user.id })

/-- The claim path of `activate_student_credentials`. What `completion_is_valid` answers under its
locks is `proven`. -/
def claimSeat (S : IdentityState) (now : Instant) (seatId : ℕ) (claimGeneration : Option ℕ)
    (credentials : Credentials) (proven : Seat → Bool) : Except Raise (ℕ × IdentityState) := do
  require (pinIsWellFormed credentials.pin = true)
    (refusal "INVALID_PIN" "PIN must be 4-6 digits, not all the same or sequential.")
  let seat ← demand ((S.seat seatId).filter (fun s ↦ s.userId = none ∧ s.claimedAt = none ∧
      claimGeneration = some s.claimGeneration))
    (refusal "INVALID_SEAT_STATE" "Invalid setup state. Please start over.")
  require (proven seat = true)
    (refusal "INVALID_SETUP_STATE" "Your setup session expired. Please start again.")
  createStudentUserForSeat T S now seat credentials

end Claims

section Unclaim

variable (T : Texts) (D : ClassDirectory T)

def IdentityState.isRetained (S : IdentityState) (userId : ℕ) : Bool :=
  S.seats.any (·.userId = some userId) || D.rows.any (·.teacherUserId = userId)

def deleteUserIfOrphaned (S : IdentityState) (userId : ℕ) : IdentityState :=
  if S.isRetained T D userId then S
  else { S with users := S.users.filter (·.id ≠ userId) }

def Seat.unclaimed (s : Seat) (first last : String) : Seat :=
  { s with
    userId := none
    claimedAt := none
    claimGeneration := s.claimGeneration + 1
    claimFirstNameHash := some (hashClaimName T first s.classId .first)
    claimLastNameHash := some (hashClaimName T last s.classId .last)
    dedupeCode := none
    rosterFingerprint := some (hashRosterFingerprint T s.classId first last "") }

def detachSeat (S : IdentityState) (seat : Seat) (userId : ℕ) (first last : String) :
    IdentityState :=
  { S.setSeat seat.id (·.unclaimed T first last) with
    profiles := S.profiles.map (fun p ↦
      if p.seatId = seat.id then { p with firstName := first, lastName := last } else p)
    users := S.users.map (fun u ↦
      if u.id = userId ∧ (u.lastActiveSeatId = some seat.id ∨
          u.lastActiveClassId = some seat.classId) then
        { u with lastActiveSeatId := none, lastActiveClassId := none }
      else u) }

def unclaimStudentSeat (S : IdentityState) (ctx : CanonicalContext) (seatId : ℕ)
    (expectedGeneration : Option ℕ) (firstName lastName : String) (draws : List ClaimCode) :
    Except Raise (ℕ × IdentityState) := do
  require (ctx.actorRole = "teacher" ∧ ctx.classId ≠ "" ∧ ctx.seatId ≠ 0)
    (.valueError "A class-scoped teacher is required.")
  let (first, last) := (strip firstName, strip lastName)
  require (first ≠ "" ∧ last ≠ "" ∧ first.length ≤ 100 ∧ last.length ≤ 100)
    (.valueError "Enter a first and last name, each at most 100 characters.")
  require (teacherOwns T D S ctx) (.valueError "The teacher does not own this class.")
  let seat ← demand ((S.seat seatId).filter (fun s ↦ s.classId = ctx.classId ∧ s.role = "student"))
    (.domainError "LookupError" "Student seat not found in this class.")
  let userId ← demand seat.userId
    (.valueError "This seat is already unclaimed. Refresh the roster.")
  require (expectedGeneration = some seat.claimGeneration)
    (.valueError "The seat's claim has changed. Refresh the roster before unclaiming it.")
  let (S₁, _) ← ensureDistinctClaimCodes T (detachSeat T S seat userId first last) ctx.classId
    (hashClaimName T first ctx.classId .first) (hashClaimName T last ctx.classId .last) first last
    draws
  return (seat.id, deleteUserIfOrphaned T D S₁ userId)

end Unclaim

section Steps

variable (T : Texts) (D : ClassDirectory T)

inductive Action
  | import (ctx : CanonicalContext) (rows : List RosterRow) (draws : List ClaimCode)
  | provision (ctx : CanonicalContext) (classId firstName lastName : String)
      (notes : Option String) (dedupeCode : String) (hasReceivedRentExemption : Bool)
  | unclaim (ctx : CanonicalContext) (seatId : ℕ) (expectedGeneration : Option ℕ)
      (firstName lastName : String) (draws : List ClaimCode)
  | claim (now : Instant) (seatId : ℕ) (claimGeneration : Option ℕ) (credentials : Credentials)
      (proven : Seat → Bool)
  | bind (now : Instant) (userId : ℕ) (joinCode firstName lastName dedupeCode : String)

def step (S : IdentityState) : Action → IdentityState
  | .import ctx rows draws => committed S (importStudentSeats T D S ctx rows draws)
  | .provision ctx classId firstName lastName notes dedupeCode exemption =>
    committed S (executeProvisionStudentSeat T D S ctx classId firstName lastName notes dedupeCode
      exemption)
  | .unclaim ctx seatId expectedGeneration firstName lastName draws =>
    committed S (unclaimStudentSeat T D S ctx seatId expectedGeneration firstName lastName draws)
  | .claim now seatId claimGeneration credentials proven =>
    committed S (claimSeat T S now seatId claimGeneration credentials proven)
  | .bind now userId joinCode firstName lastName dedupeCode =>
    committed S (bindAuthenticatedStudentToClass T D S now userId joinCode firstName lastName
      dedupeCode)

end Steps

end TokenHub.Identity
