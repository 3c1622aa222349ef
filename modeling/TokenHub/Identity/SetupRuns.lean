import TokenHub.Identity.SeatRuns
import TokenHub.Identity.SetupMoves

set_option autoImplicit false

namespace TokenHub.Identity

open Ledger Lib.Checks Lib.Past Lib.Runs
open Rent (Instant)

variable {K : SetupKeys} {T : Texts} {D : ClassDirectory T} {S : SetupState}

theorem setupStep_invariant (hi : SetupInvariant K T S) (hT : T.Separates) (hK : K.Separates)
    (a : SetupAction) : SetupInvariant K T (setupStep K T D S a) := by
  cases a with
  | elapsed d => exact hi.elapsed d
  | beginClaim seatId claimGeneration => exact hi.stageClaim
  | beginRecovery userId authorization => exact hi.stageRecovery hK
  | generate token binding value => exact hi.generate
  | verify token binding page typed => exact hi.verify hT
  | takeVerified token binding page =>
    cases hok : takeVerified S token binding T page with
    | error e =>
      rw [setupStep, hok]
      exact hi
    | ok out =>
      rw [setupStep, hok]
      exact hi.takeVerified hT hok
  | restore token binding taken collision =>
    rw [setupStep]
    split_ifs with hmem
    · exact hi.restore hmem
    · exact hi
  | discard token => exact hi.discard token
  | forgetOwner owner => exact hi.forgetOwner owner
  | activateClaim token generation seatId claimGeneration credentials =>
    exact hi.activateClaim hK
  | activateRecovery token generation seatId userId authorization credentials sessionNonce =>
    exact hi.activateRecovery hK
  | issue userId draws => exact hi.issue
  | validate resetCode => exact hi.validate hK
  | unclaim ctx seatId expectedGeneration firstName lastName draws => exact hi.unclaim

/-- The tables with no code outstanding, and an empty store. -/
def SetupState.opening (clock : Instant) (tables : IdentityState) : SetupState :=
  { clock := clock, tables := tables, records := fun _ ↦ none, owners := fun _ ↦ none, taken := []
    lastToken := 0, lastGeneration := 0, lastAuthorization := 0, log := [] }

theorem opening_invariant {clock : Instant} {tables : IdentityState} (hkeyed : Keyed tables)
    (hcodes : ∀ u ∈ tables.users, u.resetCode = none ∧ u.recoverySetupNonceHash = none) :
    SetupInvariant K T (.opening clock tables) := by
  have hnone : ∀ k r, (SetupState.opening clock tables).record k ≠ some r := by
    intro k r hr
    cases (record_some.1 hr).1
  refine ⟨hkeyed, fun k r hr ↦ absurd hr (hnone k r), fun k r hr ↦ absurd hr (hnone k r),
    fun k r hr ↦ absurd hr (hnone k r), fun k r hr ↦ absurd hr (hnone k r), ?_, ?_, ?_, ?_, trivial⟩
  · intro k t hk
    cases hk
  · intro u hu
    exact .of_none (hcodes u hu).2 (hcodes u hu).1
  · intro row _ k g u generation t he
    cases he
  · intro k g u target t he
    cases he

/-- In every run each activation, each authorization and each setup that begins is backed by what
the log tells before it. -/
theorem credentials_backed_by_current_proof (hT : T.Separates) (hK : K.Separates) (clock : Instant)
    (tables : IdentityState) (hkeyed : Keyed tables)
    (hcodes : ∀ u ∈ tables.users, u.resetCode = none ∧ u.recoverySetupNonceHash = none)
    (as : List SetupAction) (newer older : List SetupEvent) (e : SetupEvent)
    (hlog : (run (setupStep K T D) (.opening clock tables) as).log = newer ++ e :: older) :
    Backed T e older := by
  have hinvariant : SetupInvariant K T (run (setupStep K T D) (.opening clock tables) as) :=
    run_invariant (f := setupStep K T D) (opening_invariant hkeyed hcodes)
      (fun S a hi ↦ setupStep_invariant hi hT hK a) as
  exact lawful_iff.1 hinvariant.lawful newer e older hlog

section Sample

def sampleKeys : SetupKeys := ⟨String.ofList, fun n ↦ String.ofList (Lib.Digits.natText n)⟩

theorem sampleKeys_separates : sampleKeys.Separates := by
  constructor
  · intro a b h
    exact String.ofList_injective h
  · intro n m h
    exact Lib.Digits.natText_injective (String.ofList_injective h)

def sampleStudentSeat : Seat :=
  { id := 2, classId := "math", role := "student"
    claimFirstNameHash := some "ada", claimLastNameHash := some "byron" }

def sampleUnclaimed : IdentityState :=
  { seats := [sampleStudentSeat], profiles := [], users := [], lastSeatId := 2, lastUserId := 1 }

def samplePage : String := "a page of twenty letters"

def sampleCredentials (username : String) : Credentials := ⟨username, "2580", "a long phrase"⟩

def sampleResetCode : ResetCode :=
  ⟨"QW7E2R9T", by decide,
    @of_decide_eq_true _ (List.decidableBAll (· ∈ resetCodeAlphabet) "QW7E2R9T".toList) (by decide)⟩

/-- A seat is claimed, a code is issued for its student, and the account is recovered. -/
def sampleSetup : List SetupAction :=
  let claim := (seatScope sampleKeys sampleStudentSeat).2
  let recovery := (userScope sampleKeys { id := 2, userRole := "student" } (some 1)).2
  [.beginClaim 2 (some 0), .generate 1 claim "bluefox", .verify 1 claim samplePage "bluefox",
    .takeVerified 1 claim samplePage, .activateClaim 1 2 (some 2) (some 0) (sampleCredentials "bluefox"),
    .issue 2 [sampleResetCode], .validate "QW7E2R9T",
    .beginRecovery 2 (some 1), .generate 2 recovery "redfox", .verify 2 recovery samplePage "redfox",
    .takeVerified 2 recovery samplePage,
    .activateRecovery 2 4 none 2 (some 1) (sampleCredentials "redfox") "nonce"]

/-- The recovery is backed by the entries that the run has told before it. -/
theorem credentials_backed_by_current_proof_recovered : ∃ older,
    (run (setupStep sampleKeys sampleTexts sampleClasses) (.opening 0 sampleUnclaimed)
      sampleSetup).log = .activated 2 4 "redfox" (.user 2 1) 0 :: older ∧
    Backed sampleTexts (.activated 2 4 "redfox" (.user 2 1) 0) older := by
  have hlog : (run (setupStep sampleKeys sampleTexts sampleClasses) (.opening 0 sampleUnclaimed)
      sampleSetup).log.head? = some (.activated 2 4 "redfox" (.user 2 1) 0) := by
    decide +kernel
  obtain ⟨older, holder⟩ := List.head?_eq_some_iff.1 hlog
  refine ⟨older, holder, ?_⟩
  exact credentials_backed_by_current_proof sampleTexts_separates sampleKeys_separates 0
    sampleUnclaimed ⟨by decide, by decide, by decide⟩ (by decide) sampleSetup [] older _ holder

end Sample

end TokenHub.Identity
