import TokenHub.Ledger.Command
import TokenHub.Rent.Rows

set_option autoImplicit false

namespace TokenHub.Identity

open Ledger Lib.Checks
open Rent (Instant)

section Text

def strip (s : String) : String :=
  String.ofList ((s.toList.dropWhile isSpace).reverse.dropWhile isSpace).reverse

/-- The Unicode functions and the keyed digests that identity rests on. -/
structure Texts where
  nfkc : String → String
  lower : String → String
  upper : String → String
  /-- `_lookup_digest`: a keyed digest of a label and its framed parts. -/
  lookupDigest : String → List String → String
  hashPassword : String → String

variable (T : Texts)

/-- `normalize_lookup_text` of a name. -/
def normalizeName (value : String) : String := T.lower (strip (T.nfkc value))

def normalizeUsername (value : String) : String := strip (T.nfkc value)

inductive NameField
  | first
  | last
deriving DecidableEq, Repr

def NameField.label : NameField → String
  | .first => "claim-first-name"
  | .last => "claim-last-name"

def hashClaimName (value classId : String) (field : NameField) : String :=
  T.lookupDigest field.label [classId, normalizeName T value]

def hashRosterFingerprint (classId firstName lastName dedupeCode : String) : String :=
  T.lookupDigest "roster-fingerprint" [classId, normalizeName T firstName,
    normalizeName T lastName, T.upper (strip dedupeCode)]

def hashUsernameLookup (username : String) : String :=
  T.lookupDigest "username" [normalizeUsername T username]

/-- Digests of different labels or parts differ. -/
def Texts.Separates (T : Texts) : Prop :=
  ∀ l l' ps ps', T.lookupDigest l ps = T.lookupDigest l' ps' → l = l' ∧ ps = ps'

theorem Texts.Separates.hashClaimName (h : T.Separates) {v v' c c' : String} {f f' : NameField}
    (heq : hashClaimName T v c f = hashClaimName T v' c' f') :
    c = c' ∧ normalizeName T v = normalizeName T v' := by
  have hparts := (h _ _ _ _ heq).2
  simpa using hparts

end Text

section Rows

structure Seat where
  id : ℕ
  userId : Option ℕ := none
  classId : String
  role : String
  claimGeneration : ℕ := 0
  rosterFingerprint : Option String := none
  dedupeCode : Option String := none
  claimFirstNameHash : Option String := none
  claimLastNameHash : Option String := none
  claimedAt : Option Instant := none
  hasReceivedRentExemption : Bool := false
deriving DecidableEq, Repr

structure IdentityProfile where
  seatId : ℕ
  classId : String
  profileType : String
  firstName : String
  lastName : String
  notes : Option String
deriving DecidableEq, Repr

structure ClassEconomy where
  classId : String
  joinCode : String
  teacherUserId : ℕ
deriving DecidableEq, Repr

structure User where
  id : ℕ
  userRole : String
  usernameLookupHash : Option String := none
  pinHash : Option String := none
  passphraseHash : Option String := none
  currentSessionNonce : Option String := none
  resetCode : Option String := none
  resetCodeGeneratedAt : Option Instant := none
  resetCodeExpiresAt : Option Instant := none
  recoverySetupNonceHash : Option String := none
  recoverySetupExpiresAt : Option Instant := none
  lastActiveSeatId : Option ℕ := none
  lastActiveClassId : Option String := none
deriving DecidableEq, Repr

/-- The tables, and the last keys that seats and users were given. -/
structure IdentityState where
  seats : List Seat
  profiles : List IdentityProfile
  users : List User
  lastSeatId : ℕ
  lastUserId : ℕ
deriving DecidableEq, Repr

/-- The classes. Their keys and join codes are unique, and a join code is kept as it is looked
up. -/
structure ClassDirectory (T : Texts) where
  rows : List ClassEconomy
  classIds : (rows.map (·.classId)).Nodup
  joinCodes : (rows.map (·.joinCode)).Nodup
  normal : ∀ c ∈ rows, c.joinCode ≠ "" ∧ T.upper (strip c.joinCode) = c.joinCode

structure CanonicalContext where
  userId : ℕ
  classId : String
  seatId : ℕ
  actorRole : String
deriving DecidableEq, Repr

variable {T : Texts}

def ClassDirectory.find (D : ClassDirectory T) (classId : String) : Option ClassEconomy :=
  D.rows.find? (·.classId = classId)

/-- `get_class_economy_by_join_code`. -/
def ClassDirectory.findByJoinCode (D : ClassDirectory T) (joinCode : String) :
    Option ClassEconomy :=
  let normalized := if joinCode = "" then joinCode else T.upper (strip joinCode)
  D.rows.find? (·.joinCode = normalized)

variable (S : IdentityState)

def IdentityState.seat (seatId : ℕ) : Option Seat := S.seats.find? (·.id = seatId)

def IdentityState.profile (seatId : ℕ) : Option IdentityProfile :=
  S.profiles.find? (·.seatId = seatId)

def IdentityState.setSeat (seatId : ℕ) (f : Seat → Seat) : IdentityState :=
  { S with seats := S.seats.map (fun s ↦ if s.id = seatId then f s else s) }

/-- A command's result that carries an error code. Nothing was written. -/
def refusal (code message : String) : Raise := .domainError code message

end Rows

end TokenHub.Identity
