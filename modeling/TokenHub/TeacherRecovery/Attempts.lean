import Mathlib.Data.List.Sort
import TokenHub.Identity.Rows
import TokenHub.Lib.Digits
import TokenHub.Lib.Json
import TokenHub.Lib.Past

set_option autoImplicit false

namespace TokenHub.TeacherRecovery

open Lib.Checks Lib.Json Identity
open Rent (Instant)

section Rows

/-- A principal's row, with the credential that teachers sign in with. -/
structure Principal extends User where
  totpSecretEncrypted : Option String := none
deriving DecidableEq, Repr

structure PasskeyCredential where
  id : ℕ
  userId : ℕ
deriving DecidableEq, Repr

inductive RequestStatus
  | pending
  | verified
  | expired
  | cancelled
deriving DecidableEq, Repr

structure RecoveryRequest where
  id : ℕ
  userId : ℕ
  status : RequestStatus := .pending
  expiresAt : Instant
  completedAt : Option Instant := none
  resumePinHash : Option String := none
  resumeNewUsername : Option String := none
  submissionRound : ℕ := 0
  requiredClassIds : List String
  attemptNonceHash : Option String := none
  selectionStartedAt : Option Instant := none
  setupNonceHash : Option String := none
  setupTotp : Option String := none
  setupUsername : Option String := none
deriving DecidableEq, Repr

structure RecoveryClassChallenge where
  requestId : ℕ
  classId : String
  proofVerifiedAt : Instant
  selectedAt : Option Instant := none
  selectedCount : Option ℕ := none
  satisfiedAt : Option Instant := none
  satisfiedRound : Option ℕ := none
  receivedRound : Option ℕ := none
deriving DecidableEq, Repr

structure StudentRecoveryCode where
  id : ℕ
  requestId : ℕ
  seatId : ℕ
  classId : String
  issuedRound : Option ℕ := none
  codeExpiresAt : Option Instant := none
  codeHash : Option String := none
  verifiedAt : Option Instant := none
  dismissed : Bool := false
deriving DecidableEq, Repr

/-- What commands have done, as the log of a run tells it. -/
inductive RecoveryEvent
  | begun (requestId userId : ℕ) (classIds : List String) (at' : Instant)
  | drawn (requestId : ℕ) (classId : String) (seatIds : List ℕ)
  | issued (requestId : ℕ) (classId : String) (seat : Seat) (principal : Principal)
      (passphrase code : String) (round : ℕ) (expiresAt : Instant)
  | submitted (requestId : ℕ) (classId code : String) (round : ℕ) (at' : Instant)
  | refused (requestId : ℕ)
  | completed (requestId userId : ℕ) (owned : List String) (round : ℕ) (at' : Instant)
deriving DecidableEq, Repr

structure RecoveryState where
  clock : Instant
  classes : List ClassEconomy
  seats : List Seat
  users : List Principal
  passkeys : List PasskeyCredential
  requests : List RecoveryRequest
  challenges : List RecoveryClassChallenge
  codes : List StudentRecoveryCode
  lastRequestId : ℕ
  lastCodeId : ℕ
  lastNonce : ℕ
  log : List RecoveryEvent
deriving DecidableEq, Repr

/-- The digests and verifiers of recovery. Nonces are numbers that are drawn once. -/
structure RecoveryKeys where
  hmac : List Char → String
  resumeDigest : String → String
  attemptDigest : ℕ → String
  setupDigest : ℕ → String
  verifyPassword : String → Option String → Bool
  totpVerify : String → String → Instant → Bool

end Rows

section Access

variable (K : RecoveryKeys) (S : RecoveryState)

def second : ℤ := 1000000

def codeDigest (value : String) (requestId : ℕ) (classId : String) : String :=
  K.hmac (dumps (.arr [.str "teacher-recovery-code:v2", .num requestId, .str classId, .str value]))

def lock (requestId : ℕ) : Option (Principal × RecoveryRequest) :=
  (S.requests.find? (·.id = requestId)).bind fun row ↦
    (S.users.find? (fun u ↦ u.id = row.userId ∧ u.userRole = "teacher")).map (·, row)

def RecoveryRequest.IsActive (row : RecoveryRequest) (now : Instant) : Prop :=
  row.status = .pending ∧ row.completedAt = none ∧ now < row.expiresAt

instance (row : RecoveryRequest) (now : Instant) : Decidable (row.IsActive now) :=
  inferInstanceAs (Decidable (_ ∧ _ ∧ _))

/-- `_access`. -/
def RecoveryRequest.Admits (row : RecoveryRequest) (nonce : Option ℕ) : Prop :=
  ∃ n ∈ nonce, row.attemptNonceHash = some (K.attemptDigest n)

instance (row : RecoveryRequest) (nonce : Option ℕ) : Decidable (row.Admits K nonce) :=
  inferInstanceAs (Decidable (∃ n ∈ nonce, _))

def activeRow (requestId : ℕ) : Except Unit (Principal × RecoveryRequest) :=
  demand ((lock S requestId).filter (fun p ↦ p.2.IsActive S.clock)) ()

def setRequest (requestId : ℕ) (f : RecoveryRequest → RecoveryRequest) : RecoveryState :=
  { S with requests := S.requests.map (fun r ↦ if r.id = requestId then f r else r) }

def setChallenge (requestId : ℕ) (classId : String)
    (f : RecoveryClassChallenge → RecoveryClassChallenge) : RecoveryState :=
  { S with challenges := S.challenges.map (fun ch ↦
      if ch.requestId = requestId ∧ ch.classId = classId then f ch else ch) }

def RecoveryRequest.cleared (row : RecoveryRequest) : RecoveryRequest :=
  { row with
    setupNonceHash := none, setupTotp := none, setupUsername := none
    resumePinHash := none, resumeNewUsername := none }

def ownedClasses (userId : ℕ) : List String :=
  (S.classes.filter (·.teacherUserId = userId)).map (·.classId)

def SameClasses (l l' : List String) : Prop := l ⊆ l' ∧ l' ⊆ l

instance (l l' : List String) : Decidable (SameClasses l l') :=
  inferInstanceAs (Decidable (_ ∧ _))

/-- `_coverage`. -/
def Covers (user : Principal) (row : RecoveryRequest) : Prop :=
  row.requiredClassIds ≠ [] ∧ SameClasses (ownedClasses S user.id) row.requiredClassIds ∧
    SameClasses ((S.challenges.filter (·.requestId = row.id)).map (·.classId)) row.requiredClassIds

instance (user : Principal) (row : RecoveryRequest) : Decidable (Covers S user row) :=
  inferInstanceAs (Decidable (_ ∧ _ ∧ _))

/-- `_coverage` with `confirmed`. -/
def CoversConfirmed (user : Principal) (row : RecoveryRequest) : Prop :=
  Covers S user row ∧ ∀ ch ∈ S.challenges, ch.requestId = row.id →
    ch.satisfiedAt ≠ none ∧ ch.satisfiedRound = some row.submissionRound

instance (user : Principal) (row : RecoveryRequest) : Decidable (CoversConfirmed S user row) :=
  inferInstanceAs (Decidable (_ ∧ _))

def classRow (row : RecoveryRequest) (classId : String) : Option RecoveryClassChallenge :=
  if classId ∈ row.requiredClassIds then
    S.challenges.find? (fun ch ↦ ch.requestId = row.id ∧ ch.classId = classId)
  else none

def HoldsClaimedSeat (s : Seat) (classId : String) : Prop :=
  s.classId = classId ∧ s.role = "student" ∧ s.userId ≠ none ∧ s.claimedAt ≠ none

instance (s : Seat) (classId : String) : Decidable (HoldsClaimedSeat s classId) :=
  inferInstanceAs (Decidable (_ ∧ _ ∧ _ ∧ _))

end Access

section Beginning

variable (T : Texts) (K : RecoveryKeys) (S : RecoveryState)

def minClaimedStudentsPerClass : ℕ := 3

def usernamesRequiredPerClass : ℕ → ℕ
  | 1 => 6
  | 2 => 3
  | 3 => 2
  | _ => 1

def claimedStudents (classId : String) : List Principal :=
  (S.seats.filter (fun s ↦ s.classId = classId ∧ s.role = "student" ∧ s.claimedAt ≠ none)).filterMap
    fun s ↦ S.users.find? (fun u ↦ some u.id = s.userId)

/-- The matches of a class's usernames: none where a student backs two. -/
def matchUsernames (claimed : List Principal) : List ℕ → ℕ → List String → Option (List ℕ × ℕ)
  | seen, matched, [] => some (seen, matched)
  | seen, matched, username :: rest =>
    match claimed.find? (·.usernameLookupHash = some (hashUsernameLookup T username)) with
    | none => matchUsernames claimed seen matched rest
    | some u => if u.id ∈ seen then none else matchUsernames claimed (u.id :: seen) (matched + 1) rest

def proofHolds (required : ℕ) : List ℕ → List (String × List String) → Bool
  | _, [] => true
  | seen, (classId, usernames) :: rest =>
    let claimed := claimedStudents S classId
    if claimed.length < minClaimedStudentsPerClass then false
    else
      match matchUsernames T claimed seen 0 usernames with
      | none => false
      | some (seen', matched) =>
        if matched < min required claimed.length then false else proofHolds required seen' rest

/-- The usernames under their join codes, in the order in which these first come. -/
def addUsername (join username : String) :
    List (String × List String) → List (String × List String)
  | [] => [(join, [username])]
  | (j, us) :: rest =>
    if j = join then (j, us ++ [username]) :: rest else (j, us) :: addUsername join username rest

def usernamesByJoin (pairs : List (String × String)) : List (String × List String) :=
  pairs.foldl (fun l p ↦ addUsername (T.upper (strip p.1)) (normalizeUsername T p.2) l) []

def classroomsOf (byJoin : List (String × List String)) :
    Option (List (ClassEconomy × List String)) :=
  byJoin.mapM fun p ↦ (S.classes.find? (·.joinCode = p.1)).map (·, p.2)

def soleTeacher : List (ClassEconomy × List String) → Option ℕ
  | [] => none
  | c :: cs => if cs.all (·.1.teacherUserId = c.1.teacherUserId) then some c.1.teacherUserId else none

def RecoveryRequest.IsCeremony (row : RecoveryRequest) (userId : ℕ) (now : Instant) : Prop :=
  row.userId = userId ∧ row.status = .pending ∧ now < row.expiresAt ∧ row.selectionStartedAt ≠ none

instance (row : RecoveryRequest) (userId : ℕ) (now : Instant) :
    Decidable (row.IsCeremony userId now) := inferInstanceAs (Decidable (_ ∧ _ ∧ _ ∧ _))

def insertAttempt (userId : ℕ) (owned : List String) : RecoveryState :=
  let request : RecoveryRequest :=
    { id := S.lastRequestId + 1, userId := userId, expiresAt := S.clock + 5 * 86400 * second
      requiredClassIds := owned, attemptNonceHash := some (K.attemptDigest (S.lastNonce + 1)) }
  { S with
    requests := S.requests ++ [request]
    challenges := S.challenges ++ owned.map fun c ↦
      { requestId := request.id, classId := c, proofVerifiedAt := S.clock }
    lastRequestId := request.id
    lastNonce := S.lastNonce + 1 }

structure Attempt where
  id : ℕ
  nonce : Option ℕ
  existing : Bool
  userId : ℕ
  classIds : List String
deriving DecidableEq, Repr

/-- `begin_attempt` for a teacher who is found and locked. -/
def beginFor (user : Principal) (classrooms : List (ClassEconomy × List String))
    (currentRequestId nonce : Option ℕ) : Except Unit (Attempt × RecoveryState) :=
  match S.requests.find? (·.IsCeremony user.id S.clock) with
  | some existing => do
    require (some existing.id = currentRequestId ∧ existing.Admits K nonce) ()
    return (⟨existing.id, nonce, true, user.id, existing.requiredClassIds⟩, S)
  | none => do
    let owned := (ownedClasses S user.id).insertionSort (· ≤ ·)
    let byClass := classrooms.map fun c ↦ (c.1.classId, c.2)
    require ((byClass.map (·.1)).insertionSort (· ≤ ·) = owned ∧
      proofHolds T S (usernamesRequiredPerClass owned.length) []
        (byClass.insertionSort (·.1 ≤ ·.1)) = true) ()
    return (⟨S.lastRequestId + 1, some (S.lastNonce + 1), false, user.id, owned⟩,
      insertAttempt K S user.id owned)

def beginAttempt (pairs : List (String × String)) (currentRequestId nonce : Option ℕ) :
    Except Unit (Attempt × RecoveryState) := do
  require (pairs ≠ [] ∧ ∀ p ∈ pairs, strip p.1 ≠ "" ∧ strip p.2 ≠ "") ()
  let classrooms ← demand (classroomsOf S (usernamesByJoin T pairs)) ()
  let teacherId ← demand (soleTeacher classrooms) ()
  let user ← demand (S.users.find? (fun u ↦ u.id = teacherId ∧ u.userRole = "teacher")) ()
  beginFor T K S user classrooms currentRequestId nonce

end Beginning

section Ceremony

variable (K : RecoveryKeys) (S : RecoveryState)

def eligibleSeats (classId : String) : List ℕ :=
  (S.seats.filter (HoldsClaimedSeat · classId)).map (·.id)

def IsSample (eligible : List ℕ) (draw : ℕ × ℕ) : Prop :=
  draw.1 ∈ eligible ∧ draw.2 ∈ eligible ∧ draw.1 ≠ draw.2

instance (eligible : List ℕ) (draw : ℕ × ℕ) : Decidable (IsSample eligible draw) :=
  inferInstanceAs (Decidable (_ ∧ _ ∧ _))

def drawRecipients (row : RecoveryRequest) (classId : String) (draw : ℕ × ℕ) : RecoveryState :=
  let code (id seatId : ℕ) : StudentRecoveryCode :=
    { id := id, requestId := row.id, seatId := seatId, classId := classId }
  let S₁ := setChallenge S row.id classId fun ch ↦
    { ch with selectedAt := some S.clock, selectedCount := some 2 }
  setRequest { S₁ with
    codes := S.codes ++ [code (S.lastCodeId + 1) draw.1, code (S.lastCodeId + 2) draw.2]
    lastCodeId := S.lastCodeId + 2 } row.id fun r ↦
      { r with selectionStartedAt := some (r.selectionStartedAt.getD S.clock) }

/-- `select_class_recipients`: whether recipients were drawn now. -/
def selectClassRecipients (requestId : ℕ) (nonce : Option ℕ) (classId : String) (draw : ℕ × ℕ) :
    Except Unit (Bool × RecoveryState) := do
  let (user, row) ← activeRow S requestId
  require (row.Admits K nonce ∧ Covers S user row) ()
  let challenge ← demand (classRow S row classId) ()
  if challenge.selectedAt ≠ none then return (false, S)
  else do
    require (∀ r ∈ S.requests, ¬ (r.IsCeremony user.id S.clock ∧ r.id ≠ row.id)) ()
    require (minClaimedStudentsPerClass ≤ (eligibleSeats S classId).length ∧
      IsSample (eligibleSeats S classId) draw) ()
    return (true, drawRecipients S row classId draw)

def sixDigits (n : Fin 1000000) : String :=
  let digits := Lib.Digits.natText n
  String.ofList (List.replicate (6 - digits.length) '0' ++ digits)

structure Confirmation where
  seat : Seat
  principal : Principal
  round : ℕ
  expiresAt : Instant
deriving DecidableEq, Repr

def issueConfirmation (requestId : ℕ) (classId : String) (codeId seatId principalId : ℕ)
    (passphrase : String) (value : Fin 1000000) : Except Unit (Confirmation × RecoveryState) := do
  let (_, row) ← activeRow S requestId
  let _ ← demand ((classRow S row classId).filter (fun ch ↦
    ch.selectedAt ≠ none ∧ ch.satisfiedRound ≠ some row.submissionRound)) ()
  require (∃ c ∈ S.codes, c.requestId = row.id ∧ c.classId = classId ∧ c.id = codeId ∧
    c.seatId = seatId) ()
  let seat ← demand (S.seats.find? (fun s ↦ s.id = seatId ∧ s.classId = classId ∧
    s.userId = some principalId ∧ s.role = "student")) ()
  let principal ← demand (S.users.find? (·.id = principalId)) ()
  require (seat.claimedAt ≠ none ∧ K.verifyPassword passphrase principal.passphraseHash = true) ()
  let expiresAt := min (S.clock + 30 * 60 * second) row.expiresAt
  let codes := S.codes.map fun c ↦
    if c.id = codeId ∧ c.classId = classId then
      { c with
        codeHash := some (codeDigest K (sixDigits value) row.id classId)
        verifiedAt := some S.clock, issuedRound := some row.submissionRound
        codeExpiresAt := some expiresAt, dismissed := false }
    else c
  return (⟨seat, principal, row.submissionRound, expiresAt⟩, { S with codes := codes })

def IsSixDigits (code : String) : Prop := code.length = 6 ∧ code.toList.all (·.isDigit) = true

instance (code : String) : Decidable (IsSixDigits code) := inferInstanceAs (Decidable (_ ∧ _))

/-- A live code of the round whose recipient still holds a claimed seat. -/
def Matches (row : RecoveryRequest) (classId code : String) (c : StudentRecoveryCode) : Prop :=
  c.requestId = row.id ∧ c.classId = classId ∧
    c.codeHash = some (codeDigest K code row.id classId) ∧
    c.issuedRound = some row.submissionRound ∧ (∃ t ∈ c.codeExpiresAt, S.clock < t) ∧
    ∃ s ∈ S.seats, s.id = c.seatId ∧ HoldsClaimedSeat s classId

instance (row : RecoveryRequest) (classId code : String) (c : StudentRecoveryCode) :
    Decidable (Matches K S row classId code c) :=
  inferInstanceAs (Decidable (_ ∧ _ ∧ _ ∧ _ ∧ (∃ t ∈ c.codeExpiresAt, _) ∧ _))

def satisfyClass (row : RecoveryRequest) (classId : String) : RecoveryState :=
  { setChallenge S row.id classId fun ch ↦
      { ch with satisfiedAt := some S.clock, satisfiedRound := some row.submissionRound } with
    codes := S.codes.map fun c ↦
      if c.requestId = row.id ∧ c.classId = classId then
        { c with codeHash := none, codeExpiresAt := none }
      else c }

/-- `confirm_class`: a receipt that does not tell whether the code matched. It holds the round. -/
def confirmClass (requestId : ℕ) (nonce : Option ℕ) (classId code : String) :
    Except Unit (ℕ × RecoveryState) := do
  let (_, row) ← activeRow S requestId
  require (row.Admits K nonce) ()
  let challenge ← demand ((classRow S row classId).filter (·.selectedAt ≠ none)) ()
  let S₁ := setChallenge S row.id classId fun ch ↦
    { ch with receivedRound := some row.submissionRound }
  if challenge.satisfiedRound ≠ some row.submissionRound ∧ IsSixDigits code ∧
      ∃ c ∈ S.codes, Matches K S row classId code c then
    return (row.submissionRound, satisfyClass S₁ row classId)
  else return (row.submissionRound, S₁)

end Ceremony

section Setup

variable (T : Texts) (K : RecoveryKeys) (S : RecoveryState)

structure Enrollment where
  nonce : ℕ
  secret : String
  username : String
deriving DecidableEq, Repr

/-- `authorize_setup`: an enrollment, or a refusal for coverage, which closes the round. -/
def authorizeSetup (requestId : ℕ) (nonce : Option ℕ) (username secret : String) :
    Except Unit (Option Enrollment × RecoveryState) := do
  let (user, row) ← activeRow S requestId
  require (row.Admits K nonce ∧ row.setupNonceHash = none) ()
  if CoversConfirmed S user row then do
    let username := normalizeUsername T username
    require (username ≠ "" ∧ username.length ≤ 100 ∧ ∀ u ∈ S.users, u.id ≠ user.id →
      u.usernameLookupHash ≠ some (hashUsernameLookup T username)) ()
    let enrollment : Enrollment := ⟨S.lastNonce + 1, secret, username⟩
    let S₁ := setRequest S row.id fun r ↦
      { r with
        setupNonceHash := some (K.setupDigest enrollment.nonce)
        setupTotp := some secret, setupUsername := some username }
    return (some enrollment, { S₁ with lastNonce := enrollment.nonce })
  else
    return (none, setRequest S row.id fun r ↦
      { r.cleared with submissionRound := row.submissionRound + 1 })

def Principal.recovered (u : Principal) (username secret sessionNonce : String) : Principal :=
  { u with
    usernameLookupHash := some (hashUsernameLookup T username)
    totpSecretEncrypted := some secret
    currentSessionNonce := some sessionNonce }

structure Completion where
  userId : ℕ
  owned : List String
  round : ℕ
deriving DecidableEq, Repr

def completeSetup (requestId : ℕ) (nonce : Option ℕ) (totpCode sessionNonce : String) :
    Except Unit (Completion × RecoveryState) := do
  let (user, row) ← activeRow S requestId
  require (∃ n ∈ nonce, row.setupNonceHash = some (K.setupDigest n)) ()
  require (CoversConfirmed S user row) ()
  let secret ← demand (row.setupTotp.filter (· ≠ "")) ()
  let username ← demand (row.setupUsername.filter (· ≠ "")) ()
  require (K.totpVerify secret totpCode S.clock = true ∧ ∀ u ∈ S.users, u.id ≠ user.id →
    u.usernameLookupHash ≠ some (hashUsernameLookup T username)) ()
  let S₁ := setRequest S row.id fun r ↦
    { r.cleared with
      status := .verified, completedAt := some S.clock, attemptNonceHash := none }
  return (⟨user.id, ownedClasses S user.id, row.submissionRound⟩, { S₁ with
    users := S.users.map (fun u ↦
      if u.id = user.id then u.recovered T username secret sessionNonce else u)
    passkeys := S.passkeys.filter (·.userId ≠ user.id) })

/-- `save_progress`: the first of twenty draws that no request holds. -/
def saveProgress (requestId : ℕ) (nonce : Option ℕ) (username : String)
    (draws : List (Fin 1000000)) : Except Unit (String × RecoveryState) := do
  let (_, row) ← activeRow S requestId
  require (row.Admits K nonce) ()
  let pin ← demand (((draws.take 20).map sixDigits).find? (fun p ↦
    ∀ r ∈ S.requests, r.resumePinHash ≠ some (K.resumeDigest p))) ()
  return (pin, setRequest S row.id fun r ↦
    { r with
      resumePinHash := some (K.resumeDigest pin)
      resumeNewUsername := if username = "" then none else some username })

/-- `find_recovery_request_by_resume_pin`. -/
def findByResumePin (digest : String) : Option RecoveryRequest :=
  match S.requests.filter (fun r ↦
    r.resumePinHash = some digest ∧ r.status = .pending ∧ S.clock < r.expiresAt) with
  | [r] => some r
  | _ => none

def resumeAttempt (pin : String) : Except Unit (ℕ × RecoveryState) := do
  let found ← demand (findByResumePin S (K.resumeDigest pin)) ()
  let (_, row) ← activeRow S found.id
  require (row.resumePinHash = some (K.resumeDigest pin)) ()
  let nonce := S.lastNonce + 1
  let S₁ := setRequest S row.id fun r ↦
    { r with
      attemptNonceHash := some (K.attemptDigest nonce)
      setupNonceHash := none, setupTotp := none, setupUsername := none }
  return (nonce, { S₁ with lastNonce := nonce })

end Setup

section Steps

variable (T : Texts) (K : RecoveryKeys) (S : RecoveryState)

inductive RecoveryAction
  | elapsed (d : ℕ)
  | enroll (seat : Seat)
  | claim (seatId : ℕ) (student : Principal)
  | unclaim (seatId : ℕ)
  | createClass (c : ClassEconomy)
  | removeClass (classId : String)
  | beginAttempt (pairs : List (String × String)) (currentRequestId nonce : Option ℕ)
  | select (requestId : ℕ) (nonce : Option ℕ) (classId : String) (draw : ℕ × ℕ)
  | issue (requestId : ℕ) (classId : String) (codeId seatId principalId : ℕ) (passphrase : String)
      (value : Fin 1000000)
  | confirm (requestId : ℕ) (nonce : Option ℕ) (classId code : String)
  | authorize (requestId : ℕ) (nonce : Option ℕ) (username secret : String)
  | complete (requestId : ℕ) (nonce : Option ℕ) (totpCode sessionNonce : String)
  | save (requestId : ℕ) (nonce : Option ℕ) (username : String) (draws : List (Fin 1000000))
  | resume (pin : String)

/-- A student claims a seat, with a principal's row that is written when there is none. -/
def claimed (seatId : ℕ) (student : Principal) : RecoveryState :=
  { S with
    users := if ∃ u ∈ S.users, u.id = student.id then S.users else S.users ++ [student]
    seats := S.seats.map fun s ↦
      if s.id = seatId ∧ s.userId = none then
        { s with userId := some student.id, claimedAt := some S.clock }
      else s }

/-- An unclaim, with `invalidate_recovery_participation_for_seat`. -/
def unclaimed (seatId : ℕ) : RecoveryState :=
  { S with
    seats := S.seats.map fun s ↦
      if s.id = seatId then
        { s with userId := none, claimedAt := none, claimGeneration := s.claimGeneration + 1 }
      else s
    codes := S.codes.filter (·.seatId ≠ seatId) }

def classRemoved (classId : String) : RecoveryState :=
  { S with
    classes := S.classes.filter (·.classId ≠ classId)
    seats := S.seats.filter (·.classId ≠ classId)
    challenges := S.challenges.filter (·.classId ≠ classId)
    codes := S.codes.filter (·.classId ≠ classId) }

/-- A command's state with what it tells the log. A refused command leaves nothing. -/
def told {α : Type} (r : Except Unit (α × RecoveryState)) (event : α → Option RecoveryEvent) :
    RecoveryState :=
  match r with
  | .ok (a, S') => { S' with log := (event a).toList ++ S'.log }
  | .error _ => S

def recoveryStep : RecoveryAction → RecoveryState
  | .elapsed d => { S with clock := S.clock + d }
  | .enroll seat => { S with seats := S.seats ++ [seat] }
  | .claim seatId student => claimed S seatId student
  | .unclaim seatId => unclaimed S seatId
  | .createClass c => { S with classes := S.classes ++ [c] }
  | .removeClass classId => classRemoved S classId
  | .beginAttempt pairs currentRequestId nonce =>
    told S (TeacherRecovery.beginAttempt T K S pairs currentRequestId nonce) fun attempt ↦
      if attempt.existing then none
      else some (.begun attempt.id attempt.userId attempt.classIds S.clock)
  | .select requestId nonce classId draw =>
    told S (selectClassRecipients K S requestId nonce classId draw) fun drawn ↦
      if drawn then some (.drawn requestId classId [draw.1, draw.2]) else none
  | .issue requestId classId codeId seatId principalId passphrase value =>
    told S (issueConfirmation K S requestId classId codeId seatId principalId passphrase value)
      fun c ↦ some (.issued requestId classId c.seat c.principal passphrase (sixDigits value)
        c.round c.expiresAt)
  | .confirm requestId nonce classId code =>
    told S (confirmClass K S requestId nonce classId code) fun round ↦
      some (.submitted requestId classId code round S.clock)
  | .authorize requestId nonce username secret =>
    told S (authorizeSetup T K S requestId nonce username secret) fun enrollment ↦
      if enrollment = none then some (.refused requestId) else none
  | .complete requestId nonce totpCode sessionNonce =>
    told S (completeSetup T K S requestId nonce totpCode sessionNonce) fun c ↦
      some (.completed requestId c.userId c.owned c.round S.clock)
  | .save requestId nonce username draws =>
    told S (saveProgress K S requestId nonce username draws) fun _ ↦ none
  | .resume pin => told S (resumeAttempt K S pin) fun _ ↦ none

end Steps

section Backing

open Lib.Past

def Drawn (requestId : ℕ) (classId : String) (seatId : ℕ) (log : List RecoveryEvent) : Prop :=
  ∃ seatIds, .drawn requestId classId seatIds ∈ log ∧ seatIds.Nodup ∧ seatIds.length = 2 ∧
    seatId ∈ seatIds

/-- A code was issued to a drawn student in the present round. -/
def IssuedNow (requestId : ℕ) (classId : String) (seatId : ℕ) (code : String) (round : ℕ)
    (expiresAt : Instant) : List RecoveryEvent → Prop :=
  Since (· ≠ .refused requestId) fun e older ↦ ∃ seat principal passphrase,
    e = .issued requestId classId seat principal passphrase code round expiresAt ∧
      seat.id = seatId ∧ Drawn requestId classId seatId older

/-- Such a code was submitted in the present round, before it expired. -/
def ConfirmedNow (requestId : ℕ) (classId : String) (round : ℕ) : List RecoveryEvent → Prop :=
  Since (· ≠ .refused requestId) fun e older ↦ ∃ code seatId at' expiresAt,
    e = .submitted requestId classId code round at' ∧ at' < expiresAt ∧
      IssuedNow requestId classId seatId code round expiresAt older

def Backed (K : RecoveryKeys) : RecoveryEvent → List RecoveryEvent → Prop
  | .drawn requestId classId _, older => ∀ seatIds, .drawn requestId classId seatIds ∉ older
  | .issued _ classId seat principal passphrase .., _ =>
    HoldsClaimedSeat seat classId ∧ seat.userId = some principal.id ∧
      K.verifyPassword passphrase principal.passphraseHash = true
  | .completed requestId userId owned round at', older =>
    (∃ classIds begunAt, .begun requestId userId classIds begunAt ∈ older ∧
      SameClasses owned classIds ∧ at' < begunAt + 5 * 86400 * second) ∧
    (∀ u l n t, .completed requestId u l n t ∉ older) ∧
    ∀ classId ∈ owned, ConfirmedNow requestId classId round older
  | _, _ => True

/-- At most one unexpired pending request of a teacher has drawn recipients. -/
def OneCeremony (S : RecoveryState) : Prop :=
  ∀ r ∈ S.requests, ∀ r' ∈ S.requests, r.userId = r'.userId →
    (r.status = .pending ∧ S.clock < r.expiresAt ∧ ∃ c l, .drawn r.id c l ∈ S.log) →
    (r'.status = .pending ∧ S.clock < r'.expiresAt ∧ ∃ c l, .drawn r'.id c l ∈ S.log) → r = r'

/-- A step leaves every principal's row and passkey, but a completion of an active request. -/
def KeepsCredentials (T : Texts) (K : RecoveryKeys) (S : RecoveryState) (a : RecoveryAction) :
    Prop :=
  ((∀ u ∈ S.users, u ∈ (recoveryStep T K S a).users) ∧
      (recoveryStep T K S a).passkeys = S.passkeys) ∨
    ∃ row ∈ S.requests, ∃ nonce totpCode sessionNonce,
      a = .complete row.id nonce totpCode sessionNonce ∧ row.IsActive S.clock ∧
      (recoveryStep T K S a).log =
        .completed row.id row.userId (ownedClasses S row.userId) row.submissionRound S.clock :: S.log

end Backing

end TokenHub.TeacherRecovery
