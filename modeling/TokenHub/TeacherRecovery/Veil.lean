import TokenHub.TeacherRecovery.AttemptRuns

set_option autoImplicit false

namespace TokenHub.TeacherRecovery

open Lib.Checks Lib.Runs Identity
open Rent (Instant)

section Status

structure ClassDisplay where
  publicId : ClassEconomy → String
  label : ClassEconomy → String

structure ClassProgress where
  classRef : String
  number : ℕ
  label : String
  received : Bool
  selected : Bool
deriving DecidableEq, Repr

structure AttemptStatus where
  expiresAt : Instant
  classes : List ClassProgress
deriving DecidableEq, Repr

variable (D : ClassDisplay) (K : RecoveryKeys) (S : RecoveryState)

def proofOf (proofs : List RecoveryClassChallenge) (classId : String) :
    Option RecoveryClassChallenge :=
  proofs.reverse.find? (·.classId = classId)

def proofsOf (row : RecoveryRequest) : List RecoveryClassChallenge :=
  S.challenges.filter (·.requestId = row.id)

def ownedRows (row : RecoveryRequest) : List ClassEconomy :=
  S.classes.filter (·.teacherUserId = row.userId)

def StatusTold (row : RecoveryRequest) (nonce : Option ℕ) : Prop :=
  row.Admits K nonce ∧ row.status = .pending ∧ S.clock < row.expiresAt ∧
    SameClasses ((proofsOf S row).map (·.classId)) row.requiredClassIds ∧
    (∀ classId ∈ (proofsOf S row).map (·.classId),
      ((proofOf (proofsOf S row) classId).bind (·.selectedAt)).isSome) ∧
    row.requiredClassIds ⊆ (ownedRows S row).map (·.classId)

instance (row : RecoveryRequest) (nonce : Option ℕ) : Decidable (StatusTold K S row nonce) :=
  inferInstanceAs (Decidable (_ ∧ _ ∧ _ ∧ _ ∧ _ ∧ _))

def classProgress (row : RecoveryRequest) (place : String × ℕ) : Option ClassProgress :=
  let proof := proofOf (proofsOf S row) place.1
  ((ownedRows S row).reverse.find? (·.classId = place.1)).map fun c ↦
    { classRef := D.publicId c, number := place.2 + 1, label := D.label c
      received := proof.bind (·.receivedRound) = some row.submissionRound
      selected := (proof.bind (·.selectedAt)).isSome }

def attemptStatus (requestId : ℕ) (nonce : Option ℕ) : Option AttemptStatus :=
  ((S.requests.find? (·.id = requestId)).filter (StatusTold K S · nonce)).map fun row ↦
    ⟨row.expiresAt, row.requiredClassIds.zipIdx.filterMap (classProgress D S row)⟩

end Status

section Veil

def veilChallenge (secret : ℕ) (ch : RecoveryClassChallenge) : RecoveryClassChallenge :=
  if ch.requestId = secret then { ch with satisfiedAt := none, satisfiedRound := none } else ch

/-- A recipient's row without what issues and right codes write of it. -/
def veilCode (secret : ℕ) (c : StudentRecoveryCode) : StudentRecoveryCode :=
  if c.requestId = secret then
    { id := c.id, requestId := c.requestId, seatId := c.seatId, classId := c.classId }
  else c

/-- The state without what the codes of one attempt decide, and without the log. -/
def veil (secret : ℕ) (S : RecoveryState) : RecoveryState :=
  { S with
    challenges := S.challenges.map (veilChallenge secret)
    codes := S.codes.map (veilCode secret)
    log := [] }

variable {T : Texts} {K : RecoveryKeys} {S S' : RecoveryState} {secret requestId : ℕ}
  {row : RecoveryRequest} {user : Principal} {nonce : Option ℕ} {classId : String}

@[simp] theorem veilChallenge_requestId (ch : RecoveryClassChallenge) :
    (veilChallenge secret ch).requestId = ch.requestId := by
  unfold veilChallenge
  split_ifs <;> rfl

@[simp] theorem veilChallenge_classId (ch : RecoveryClassChallenge) :
    (veilChallenge secret ch).classId = ch.classId := by
  unfold veilChallenge
  split_ifs <;> rfl

@[simp] theorem veilChallenge_selectedAt (ch : RecoveryClassChallenge) :
    (veilChallenge secret ch).selectedAt = ch.selectedAt := by
  unfold veilChallenge
  split_ifs <;> rfl

@[simp] theorem veilChallenge_receivedRound (ch : RecoveryClassChallenge) :
    (veilChallenge secret ch).receivedRound = ch.receivedRound := by
  unfold veilChallenge
  split_ifs <;> rfl

theorem veilChallenge_of_ne {ch : RecoveryClassChallenge} (h : ch.requestId ≠ secret) :
    veilChallenge secret ch = ch := if_neg h

theorem veilCode_of_ne {c : StudentRecoveryCode} (h : c.requestId ≠ secret) :
    veilCode secret c = c := if_neg h

@[simp] theorem veilCode_requestId (c : StudentRecoveryCode) :
    (veilCode secret c).requestId = c.requestId := by
  unfold veilCode
  split_ifs <;> rfl

@[simp] theorem veilCode_id (c : StudentRecoveryCode) : (veilCode secret c).id = c.id := by
  unfold veilCode
  split_ifs <;> rfl

@[simp] theorem veilCode_classId (c : StudentRecoveryCode) :
    (veilCode secret c).classId = c.classId := by
  unfold veilCode
  split_ifs <;> rfl

@[simp] theorem veilCode_seatId (c : StudentRecoveryCode) :
    (veilCode secret c).seatId = c.seatId := by
  unfold veilCode
  split_ifs <;> rfl

@[simp] theorem veilChallenge_veilChallenge (ch : RecoveryClassChallenge) :
    veilChallenge secret (veilChallenge secret ch) = veilChallenge secret ch := by
  unfold veilChallenge
  split_ifs <;> rfl

@[simp] theorem veilCode_veilCode (c : StudentRecoveryCode) :
    veilCode secret (veilCode secret c) = veilCode secret c := by
  unfold veilCode
  split_ifs <;> rfl

@[simp] theorem veil_veil : veil secret (veil secret S) = veil secret S := by
  simp [veil]

@[simp] theorem activeRow_veil : activeRow (veil secret S) requestId = activeRow S requestId := rfl

@[simp] theorem classRow_veil : classRow (veil secret S) row classId =
    (classRow S row classId).map (veilChallenge secret) := by
  unfold classRow
  split_ifs
  · simp [veil, List.find?_map, Function.comp_def]
  · rfl

@[simp] theorem covers_veil : Covers (veil secret S) user row ↔ Covers S user row := by
  have hclasses : ((veil secret S).challenges.filter (·.requestId = row.id)).map (·.classId) =
      (S.challenges.filter (·.requestId = row.id)).map (·.classId) := by
    simp [veil, List.filter_map, Function.comp_def]
  unfold Covers
  rw [hclasses]
  rfl

def veiled {α : Type} (secret : ℕ) (x : Except Unit (α × RecoveryState)) :
    Except Unit (α × RecoveryState) :=
  x.map fun p ↦ (p.1, veil secret p.2)

theorem veiled_bind {α β : Type} {x : Except Unit β} {f g : β → Except Unit (α × RecoveryState)}
    (h : ∀ b, x = .ok b → veiled secret (f b) = veiled secret (g b)) :
    veiled secret (x >>= f) = veiled secret (x >>= g) := by
  cases x with
  | error u => rfl
  | ok b => exact h b rfl

theorem require_congr {p q : Prop} [Decidable p] [Decidable q] (h : p ↔ q) :
    require p () = require q () := by
  unfold require
  exact if_congr h rfl rfl

theorem demand_map_bind {α β γ : Type} {o : Option α} {g : α → β} {f : β → Except Unit γ} :
    (demand (o.map g) () >>= f) = demand o () >>= fun a ↦ f (g a) := by
  cases o <;> rfl

theorem veiled_pure {α : Type} {a : α} (h : veil secret S = veil secret S') :
    veiled secret (pure (a, S)) = veiled secret (pure (a, S')) := by
  simp only [veiled, pure, Except.pure, Except.map, h]

theorem veil_told {α : Type} {x y : Except Unit (α × RecoveryState)}
    {event event' : α → Option RecoveryEvent} (hS : veil secret S = veil secret S')
    (h : veiled secret x = veiled secret y) :
    veil secret (told S x event) = veil secret (told S' y event') := by
  cases x with
  | error u =>
    cases y with
    | error u' => exact hS
    | ok q => cases h
  | ok p =>
    cases y with
    | error u' => cases h
    | ok q => exact (Prod.ext_iff.1 (Except.ok.inj h)).2

end Veil

section Commands

variable {T : Texts} {K : RecoveryKeys} {S S' : RecoveryState} {secret requestId : ℕ}
  {row : RecoveryRequest} {user : Principal} {nonce : Option ℕ} {classId : String}

theorem veil_setChallenge {f : RecoveryClassChallenge → RecoveryClassChallenge}
    (hf : ∀ ch, veilChallenge secret (f (veilChallenge secret ch)) = veilChallenge secret (f ch)) :
    veil secret (setChallenge (veil secret S) requestId classId f) =
      veil secret (setChallenge S requestId classId f) := by
  simp only [veil, setChallenge, List.map_map, RecoveryState.mk.injEq, and_true, true_and,
    veilCode_veilCode, Function.comp_def, veilChallenge_requestId, veilChallenge_classId]
  apply List.map_congr_left
  intro ch hch
  split_ifs
  · exact hf ch
  · exact veilChallenge_veilChallenge ch

theorem veil_setRequest {f : RecoveryRequest → RecoveryRequest} :
    veil secret (setRequest (veil secret S) requestId f) =
      veil secret (setRequest S requestId f) := by
  simp [veil, setRequest]

theorem proofHolds_veil {required : ℕ} {seen : List ℕ} {byClass : List (String × List String)} :
    proofHolds T (veil secret S) required seen byClass = proofHolds T S required seen byClass := by
  induction byClass generalizing seen with
  | nil => rfl
  | cons c rest ih =>
    have hclaimed : claimedStudents (veil secret S) c.1 = claimedStudents S c.1 := rfl
    simp only [proofHolds, hclaimed, ih]

theorem insertAttempt_veil {userId : ℕ} {owned : List String} :
    veil secret (insertAttempt K (veil secret S) userId owned) =
      veil secret (insertAttempt K S userId owned) := by
  simp [veil, insertAttempt]

theorem beginFor_veil {classrooms : List (ClassEconomy × List String)} {current : Option ℕ} :
    veiled secret (beginFor T K (veil secret S) user classrooms current nonce) =
      veiled secret (beginFor T K S user classrooms current nonce) := by
  have hfind : (veil secret S).requests.find? (·.IsCeremony user.id (veil secret S).clock) =
      S.requests.find? (·.IsCeremony user.id S.clock) := rfl
  have howned : ownedClasses (veil secret S) user.id = ownedClasses S user.id := rfl
  simp only [beginFor, hfind, howned, proofHolds_veil]
  cases S.requests.find? (·.IsCeremony user.id S.clock) with
  | none => exact veiled_bind fun _ _ ↦ veiled_pure insertAttempt_veil
  | some existing => exact veiled_bind fun _ _ ↦ veiled_pure veil_veil

theorem beginAttempt_veil {pairs : List (String × String)} {current : Option ℕ} :
    veiled secret (beginAttempt T K (veil secret S) pairs current nonce) =
      veiled secret (beginAttempt T K S pairs current nonce) := by
  unfold beginAttempt
  exact veiled_bind fun _ _ ↦ veiled_bind fun classrooms _ ↦ veiled_bind fun teacherId _ ↦
    veiled_bind fun user _ ↦ beginFor_veil

theorem drawRecipients_veil {draw : ℕ × ℕ} :
    veil secret (drawRecipients (veil secret S) row classId draw) =
      veil secret (drawRecipients S row classId draw) := by
  simp only [drawRecipients, veil, setRequest, setChallenge, List.map_map, List.map_append,
    RecoveryState.mk.injEq, and_true, true_and, Function.comp_def, veilCode_veilCode,
    veilChallenge_requestId, veilChallenge_classId]
  apply List.map_congr_left
  intro ch hch
  unfold veilChallenge
  split_ifs <;> simp_all

theorem selectClassRecipients_veil {draw : ℕ × ℕ} :
    veiled secret (selectClassRecipients K (veil secret S) requestId nonce classId draw) =
      veiled secret (selectClassRecipients K S requestId nonce classId draw) := by
  simp only [selectClassRecipients, activeRow_veil, covers_veil, classRow_veil, demand_map_bind,
    veilChallenge_selectedAt]
  refine veiled_bind fun p _ ↦ veiled_bind fun _ _ ↦ veiled_bind fun challenge _ ↦ ?_
  by_cases hselected : challenge.selectedAt ≠ none
  · rw [if_pos hselected, if_pos hselected]
    exact veiled_pure veil_veil
  · rw [if_neg hselected, if_neg hselected]
    exact veiled_bind fun _ _ ↦ veiled_bind fun _ _ ↦ veiled_pure drawRecipients_veil

section Others

theorem classRow_veil_of_ne (h : row.id ≠ secret) :
    classRow (veil secret S) row classId = classRow S row classId := by
  rw [classRow_veil]
  cases hrow : classRow S row classId with
  | none => rfl
  | some challenge =>
    have hid := (classRow_some hrow).2.1
    rw [Option.map_some, veilChallenge_of_ne (by rw [hid]; exact h)]

theorem coversConfirmed_veil (h : row.id ≠ secret) :
    CoversConfirmed (veil secret S) user row ↔ CoversConfirmed S user row := by
  unfold CoversConfirmed
  rw [covers_veil]
  refine and_congr_right fun _ ↦ ?_
  simp only [veil, List.mem_map, forall_exists_index, and_imp, forall_apply_eq_imp_iff₂,
    veilChallenge_requestId]
  refine forall₂_congr fun ch _ ↦ forall_congr' fun hid ↦ ?_
  rw [veilChallenge_of_ne (by rw [hid]; exact h)]

theorem matches_veil {code : String} (h : row.id ≠ secret) :
    (∃ c ∈ (veil secret S).codes, Matches K (veil secret S) row classId code c) ↔
      ∃ c ∈ S.codes, Matches K S row classId code c := by
  constructor
  · intro ⟨c, hc, hmatch⟩
    obtain ⟨c', hc', rfl⟩ := List.mem_map.1 hc
    have hid : c'.requestId = row.id := by simpa using hmatch.1
    rw [veilCode_of_ne (by rw [hid]; exact h)] at hmatch
    exact ⟨c', hc', hmatch⟩
  · intro ⟨c, hc, hmatch⟩
    refine ⟨c, List.mem_map.2 ⟨c, hc, veilCode_of_ne (by rw [hmatch.1]; exact h)⟩, hmatch⟩

theorem veil_codes {f : StudentRecoveryCode → StudentRecoveryCode}
    (hf : ∀ c, veilCode secret (f (veilCode secret c)) = veilCode secret (f c)) :
    veil secret { veil secret S with codes := (veil secret S).codes.map f } =
      veil secret { S with codes := S.codes.map f } := by
  simp only [veil, List.map_map, Function.comp_def, hf, veilChallenge_veilChallenge]

theorem issueConfirmation_veil {codeId seatId principalId : ℕ} {passphrase : String}
    {value : Fin 1000000} (hne : requestId ≠ secret) :
    veiled secret (issueConfirmation K (veil secret S) requestId classId codeId seatId principalId
        passphrase value) =
      veiled secret (issueConfirmation K S requestId classId codeId seatId principalId passphrase
        value) := by
  unfold issueConfirmation
  rw [activeRow_veil]
  refine veiled_bind fun (user, row) hp ↦ ?_
  have hid : row.id ≠ secret := by
    rw [(activeRow_ok hp).2.1]
    exact hne
  have hcode : require (∃ c ∈ (veil secret S).codes, c.requestId = row.id ∧ c.classId = classId ∧
      c.id = codeId ∧ c.seatId = seatId) () = require (∃ c ∈ S.codes, c.requestId = row.id ∧
        c.classId = classId ∧ c.id = codeId ∧ c.seatId = seatId) () :=
    require_congr (by simp [veil])
  simp only [classRow_veil_of_ne hid, hcode]
  refine veiled_bind fun _ _ ↦ veiled_bind fun _ _ ↦ veiled_bind fun seat _ ↦
    veiled_bind fun principal _ ↦ veiled_bind fun _ _ ↦ veiled_pure (veil_codes ?_)
  intro c
  unfold veilCode
  split_ifs <;> simp_all

theorem satisfyClass_veil {f : RecoveryClassChallenge → RecoveryClassChallenge}
    (hid : row.id ≠ secret) :
    veil secret (satisfyClass (setChallenge (veil secret S) row.id classId f) row classId) =
      veil secret (satisfyClass (setChallenge S row.id classId f) row classId) := by
  simp only [veil, satisfyClass, setChallenge, List.map_map, RecoveryState.mk.injEq, and_true,
    true_and]
  constructor
  · apply List.map_congr_left
    intro ch _
    by_cases hch : ch.requestId = row.id
    · have hseen : veilChallenge secret ch = ch := veilChallenge_of_ne (by rw [hch]; exact hid)
      rw [Function.comp_apply, Function.comp_apply, Function.comp_apply, hseen]
      rfl
    · simp [hch]
  · apply List.map_congr_left
    intro c _
    by_cases hc : c.requestId = row.id
    · have hseen : veilCode secret c = c := veilCode_of_ne (by rw [hc]; exact hid)
      rw [Function.comp_apply, Function.comp_apply, hseen]
      rfl
    · simp [hc]

theorem confirmClass_veil {code : String} (hne : requestId ≠ secret) :
    veiled secret (confirmClass K (veil secret S) requestId nonce classId code) =
      veiled secret (confirmClass K S requestId nonce classId code) := by
  unfold confirmClass
  rw [activeRow_veil]
  refine veiled_bind fun (user, row) hp ↦ veiled_bind fun _ _ ↦ ?_
  have hid : row.id ≠ secret := by
    rw [(activeRow_ok hp).2.1]
    exact hne
  simp only [classRow_veil_of_ne hid, matches_veil hid]
  refine veiled_bind fun challenge _ ↦ ?_
  split_ifs
  · exact veiled_pure (satisfyClass_veil hid)
  · apply veiled_pure
    apply veil_setChallenge
    intro ch
    unfold veilChallenge
    split_ifs <;> simp_all

theorem authorizeSetup_veil {username setupSecret : String} (hne : requestId ≠ secret) :
    veiled secret (authorizeSetup T K (veil secret S) requestId nonce username setupSecret) =
      veiled secret (authorizeSetup T K S requestId nonce username setupSecret) := by
  unfold authorizeSetup
  rw [activeRow_veil]
  refine veiled_bind fun p hp ↦ veiled_bind fun _ _ ↦ ?_
  have hid : p.2.id ≠ secret := by
    rw [(activeRow_ok hp).2.1]
    exact hne
  by_cases hcovers : CoversConfirmed S p.1 p.2
  · rw [if_pos hcovers, if_pos ((coversConfirmed_veil hid).2 hcovers)]
    refine veiled_bind fun _ _ ↦ veiled_pure ?_
    simp [veil, setRequest]
  · rw [if_neg hcovers, if_neg (fun h ↦ hcovers ((coversConfirmed_veil hid).1 h))]
    exact veiled_pure veil_setRequest

theorem completeSetup_veil {totpCode sessionNonce : String} (hne : requestId ≠ secret) :
    veiled secret (completeSetup T K (veil secret S) requestId nonce totpCode sessionNonce) =
      veiled secret (completeSetup T K S requestId nonce totpCode sessionNonce) := by
  unfold completeSetup
  rw [activeRow_veil]
  refine veiled_bind fun p hp ↦ veiled_bind fun _ _ ↦ ?_
  have hid : p.2.id ≠ secret := by
    rw [(activeRow_ok hp).2.1]
    exact hne
  have hcovers : require (CoversConfirmed (veil secret S) p.1 p.2) () =
    require (CoversConfirmed S p.1 p.2) () := require_congr (coversConfirmed_veil hid)
  rw [hcovers]
  refine veiled_bind fun _ _ ↦ veiled_bind fun _ _ ↦ veiled_bind fun _ _ ↦
    veiled_bind fun _ _ ↦ veiled_pure ?_
  simp [veil, setRequest]

end Others

theorem saveProgress_veil {username : String} {draws : List (Fin 1000000)} :
    veiled secret (saveProgress K (veil secret S) requestId nonce username draws) =
      veiled secret (saveProgress K S requestId nonce username draws) := by
  unfold saveProgress
  exact veiled_bind fun p _ ↦ veiled_bind fun _ _ ↦ veiled_bind fun pin _ ↦
    veiled_pure veil_setRequest

theorem resumeAttempt_veil {pin : String} :
    veiled secret (resumeAttempt K (veil secret S) pin) = veiled secret (resumeAttempt K S pin) := by
  unfold resumeAttempt
  refine veiled_bind fun found _ ↦ veiled_bind fun p _ ↦ veiled_bind fun _ _ ↦ ?_
  apply veiled_pure
  simp [veil, setRequest]

section Own

def acknowledgeClass (K : RecoveryKeys) (S : RecoveryState) (requestId : ℕ) (nonce : Option ℕ)
    (classId : String) : Except Unit (ℕ × RecoveryState) := do
  let (_, row) ← activeRow S requestId
  require (row.Admits K nonce) ()
  let _ ← demand ((classRow S row classId).filter (·.selectedAt ≠ none)) ()
  return (row.submissionRound, setChallenge S row.id classId fun ch ↦
    { ch with receivedRound := some row.submissionRound })

theorem veil_satisfyClass (hid : row.id = secret) :
    veil secret (satisfyClass S row classId) = veil secret S := by
  simp only [veil, satisfyClass, setChallenge, List.map_map, RecoveryState.mk.injEq, and_true,
    true_and]
  constructor
  · apply List.map_congr_left
    intro ch _
    rw [Function.comp_apply]
    unfold veilChallenge
    split_ifs <;> simp_all
  · apply List.map_congr_left
    intro c _
    rw [Function.comp_apply]
    unfold veilCode
    split_ifs <;> simp_all

/-- Behind the veil a code's receipt is the same for every code. -/
theorem confirmClass_acknowledges {code : String} :
    veiled secret (confirmClass K S secret nonce classId code) =
      veiled secret (acknowledgeClass K S secret nonce classId) := by
  unfold confirmClass acknowledgeClass
  refine veiled_bind fun (user, row) hp ↦ veiled_bind fun _ _ ↦ veiled_bind fun challenge _ ↦ ?_
  split_ifs
  · exact veiled_pure (veil_satisfyClass (activeRow_ok hp).2.1)
  · rfl

theorem acknowledgeClass_veil :
    veiled secret (acknowledgeClass K (veil secret S) requestId nonce classId) =
      veiled secret (acknowledgeClass K S requestId nonce classId) := by
  unfold acknowledgeClass
  rw [activeRow_veil]
  refine veiled_bind fun (user, row) _ ↦ veiled_bind fun _ _ ↦ ?_
  have hselected : ((classRow S row classId).map (veilChallenge secret)).filter
      (·.selectedAt ≠ none) = ((classRow S row classId).filter (·.selectedAt ≠ none)).map
        (veilChallenge secret) := by
    rw [Option.filter_map]
    simp [Function.comp_def]
  rw [classRow_veil, hselected, demand_map_bind]
  refine veiled_bind fun challenge _ ↦ veiled_pure (veil_setChallenge ?_)
  intro ch
  unfold veilChallenge
  split_ifs <;> simp_all

end Own

end Commands

end TokenHub.TeacherRecovery
