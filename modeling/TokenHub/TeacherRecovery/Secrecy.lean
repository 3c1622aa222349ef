import TokenHub.TeacherRecovery.Veil

set_option autoImplicit false

namespace TokenHub.TeacherRecovery

open Lib.Checks Lib.Runs Identity
open Rent (Instant)

section Invariant

variable {T : Texts} {K : RecoveryKeys} {S S' : RecoveryState} {secret requestId : ℕ}
  {row : RecoveryRequest} {user : Principal} {nonce : Option ℕ} {classId : String}

/-- The attempt has no setup that is authorized, and recipients' rows are numbered apart. -/
structure Unauthorized (secret : ℕ) (S : RecoveryState) : Prop where
  codeIds : (S.codes.map (·.id)).Nodup
  given : ∀ id ∈ S.codes.map (·.id), id ≤ S.lastCodeId
  unset : ∀ r ∈ S.requests, r.id = secret → r.setupNonceHash = none

theorem Unauthorized.of_sublist (h : Unauthorized secret S)
    (hcodes : (S'.codes.map (·.id)).Sublist (S.codes.map (·.id)))
    (hlast : S'.lastCodeId = S.lastCodeId)
    (hunset : ∀ r ∈ S'.requests, r.id = secret → r.setupNonceHash = none) :
    Unauthorized secret S' where
  codeIds := hcodes.nodup h.codeIds
  given := by
    rw [hlast]
    exact fun id hid ↦ h.given id (hcodes.subset hid)
  unset := hunset

theorem Unauthorized.told {α : Type} {x : Except Unit (α × RecoveryState)}
    {event : α → Option RecoveryEvent} (h : Unauthorized secret S)
    (hok : ∀ a S', x = .ok (a, S') → Unauthorized secret S') :
    Unauthorized secret (told S x event) := by
  cases x with
  | error u => exact h
  | ok p =>
    obtain ⟨hcodes, hgiven, hunset⟩ := hok p.1 p.2 rfl
    exact ⟨hcodes, hgiven, hunset⟩

theorem Unauthorized.setRequest (h : Unauthorized secret S) (requestId : ℕ)
    (f : RecoveryRequest → RecoveryRequest) (hid : ∀ r, (f r).id = r.id)
    (hf : ∀ r, requestId = secret → r.setupNonceHash = none → (f r).setupNonceHash = none) :
    Unauthorized secret (setRequest S requestId f) := by
  refine ⟨h.codeIds, h.given, ?_⟩
  intro r hr hsecret
  obtain ⟨r₀, hr₀, rfl⟩ := List.mem_map.1 hr
  by_cases hsame : r₀.id = requestId
  · rw [if_pos hsame] at hsecret ⊢
    rw [hid] at hsecret
    exact hf r₀ (hsame.symm.trans hsecret) (h.unset r₀ hr₀ hsecret)
  · rw [if_neg hsame] at hsecret ⊢
    exact h.unset r₀ hr₀ hsecret

theorem Unauthorized.begin {pairs : List (String × String)} {current : Option ℕ} {a : Attempt}
    (hi : Unauthorized secret S) (h : beginAttempt T K S pairs current nonce = .ok (a, S')) :
    Unauthorized secret S' := by
  simp only [beginAttempt, require_bind_eq_ok, demand_bind_eq_ok] at h
  obtain ⟨-, classrooms, -, teacherId, -, user, -, h⟩ := h
  rw [beginFor] at h
  split at h
  · rw [require_bind_eq_ok, pure_eq_ok] at h
    obtain ⟨-, ⟨⟩⟩ := h
    exact hi
  · rw [require_bind_eq_ok, pure_eq_ok] at h
    obtain ⟨-, ⟨⟩⟩ := h
    refine hi.of_sublist (.refl _) rfl ?_
    intro r hr hsecret
    rcases List.mem_append.1 hr with hold | hnew
    · exact hi.unset r hold hsecret
    · rw [List.mem_singleton.1 hnew]

theorem Unauthorized.select {draw : ℕ × ℕ} {drawn : Bool} (hi : Unauthorized secret S)
    (h : selectClassRecipients K S requestId nonce classId draw = .ok (drawn, S')) :
    Unauthorized secret S' := by
  simp only [selectClassRecipients, bind_eq_ok, Prod.exists] at h
  obtain ⟨user, row, -, -, -, challenge, -, h⟩ := h
  split_ifs at h
  · cases pure_eq_ok.1 h
    exact hi
  · simp only [bind_eq_ok, require_eq_ok, exists_const, pure_eq_ok] at h
    obtain ⟨-, -, ⟨⟩⟩ := h
    refine Unauthorized.setRequest ?_ row.id _ (fun _ ↦ rfl) (fun _ _ hunset ↦ hunset)
    refine ⟨?_, ?_, hi.unset⟩
    · have hnew : ∀ id ∈ S.codes.map (·.id), id ≠ S.lastCodeId + 1 ∧ id ≠ S.lastCodeId + 2 := by
        intro id hid
        have := hi.given id hid
        omega
      simp only [List.map_append, List.map_cons, List.map_nil, List.nodup_append]
      refine ⟨hi.codeIds, by simp, ?_⟩
      intro id hid id' hid'
      rcases List.mem_cons.1 hid' with rfl | hid'
      · exact (hnew id hid).1
      · rw [List.mem_singleton.1 hid']
        exact (hnew id hid).2
    · intro id hid
      rw [List.map_append, List.mem_append] at hid
      change id ≤ S.lastCodeId + 2
      rcases hid with hold | hnew
      · exact (hi.given id hold).trans (by omega)
      · simp only [List.map_cons, List.map_nil, List.mem_cons, List.not_mem_nil, or_false] at hnew
        omega

/-- Rewrites of recipients' rows keep their numbers. -/
theorem Unauthorized.codes {f : StudentRecoveryCode → StudentRecoveryCode}
    (hi : Unauthorized secret S) (hf : ∀ c, (f c).id = c.id)
    (hcodes : S'.codes = S.codes.map f) (hlast : S'.lastCodeId = S.lastCodeId)
    (hrequests : S'.requests = S.requests) : Unauthorized secret S' := by
  have hids : S'.codes.map (·.id) = S.codes.map (·.id) := by
    rw [hcodes, List.map_map]
    exact List.map_congr_left fun c _ ↦ hf c
  refine hi.of_sublist ?_ hlast ?_
  · rw [hids]
  · rw [hrequests]
    exact hi.unset

theorem Unauthorized.issue {codeId seatId principalId : ℕ} {passphrase : String}
    {value : Fin 1000000} {c : Confirmation} (hi : Unauthorized secret S)
    (h : issueConfirmation K S requestId classId codeId seatId principalId passphrase value =
      .ok (c, S')) : Unauthorized secret S' := by
  simp only [issueConfirmation, bind_eq_ok, Prod.exists, pure_eq_ok] at h
  obtain ⟨user, row, -, challenge, -, -, -, seat, -, principal, -, -, -, ⟨⟩⟩ := h
  refine hi.codes (fun c ↦ ?_) rfl rfl rfl
  split_ifs <;> rfl

theorem Unauthorized.confirm {code : String} {round : ℕ} (hi : Unauthorized secret S)
    (h : confirmClass K S requestId nonce classId code = .ok (round, S')) :
    Unauthorized secret S' := by
  simp only [confirmClass, bind_eq_ok, Prod.exists] at h
  obtain ⟨user, row, -, -, -, challenge, -, h⟩ := h
  split_ifs at h
  · cases pure_eq_ok.1 h
    refine hi.codes (fun c ↦ ?_) rfl rfl rfl
    split_ifs <;> rfl
  · cases pure_eq_ok.1 h
    exact hi.of_sublist (.refl _) rfl hi.unset

theorem Unauthorized.authorize {username setupSecret : String} {enrollment : Option Enrollment}
    (hi : Unauthorized secret S) (hne : requestId ≠ secret)
    (h : authorizeSetup T K S requestId nonce username setupSecret = .ok (enrollment, S')) :
    Unauthorized secret S' := by
  simp only [authorizeSetup, bind_eq_ok, Prod.exists] at h
  obtain ⟨user, row, hrow, -, -, h⟩ := h
  have hid := (activeRow_ok hrow).2.1
  split_ifs at h
  · rw [require_bind_eq_ok, pure_eq_ok] at h
    obtain ⟨-, ⟨⟩⟩ := h
    obtain ⟨hcodes, hgiven, hunset⟩ := hi.setRequest row.id (fun r ↦
      { r with
        setupNonceHash := some (K.setupDigest (S.lastNonce + 1))
        setupTotp := some setupSecret
        setupUsername := some (normalizeUsername T username) }) (fun _ ↦ rfl)
        (fun _ hsame ↦ absurd (hid.symm.trans hsame) hne)
    exact ⟨hcodes, hgiven, hunset⟩
  · cases pure_eq_ok.1 h
    exact hi.setRequest row.id _ (fun _ ↦ rfl) fun _ _ _ ↦ rfl

theorem Unauthorized.complete {totpCode sessionNonce : String} {c : Completion}
    (hi : Unauthorized secret S)
    (h : completeSetup T K S requestId nonce totpCode sessionNonce = .ok (c, S')) :
    requestId ≠ secret ∧ Unauthorized secret S' := by
  simp only [completeSetup, bind_eq_ok, Prod.exists, require_eq_ok, exists_const,
    pure_eq_ok] at h
  obtain ⟨user, row, hrow, ⟨n, -, hsetup⟩, -, setupSecret, -, username, -, -, ⟨⟩⟩ := h
  obtain ⟨hmem, hid, -⟩ := activeRow_ok hrow
  have hne : requestId ≠ secret := by
    intro hsecret
    rw [hi.unset row hmem (hid.trans hsecret)] at hsetup
    cases hsetup
  obtain ⟨hcodes, hgiven, hunset⟩ := hi.setRequest row.id (fun r ↦
    { r.cleared with
      status := .verified, completedAt := some S.clock, attemptNonceHash := none })
    (fun _ ↦ rfl) (fun _ _ _ ↦ rfl)
  exact ⟨hne, hcodes, hgiven, hunset⟩

theorem Unauthorized.save {username pin : String} {draws : List (Fin 1000000)}
    (hi : Unauthorized secret S)
    (h : saveProgress K S requestId nonce username draws = .ok (pin, S')) :
    Unauthorized secret S' := by
  simp only [saveProgress, bind_eq_ok, Prod.exists, pure_eq_ok] at h
  obtain ⟨user, row, -, -, -, _, -, ⟨⟩⟩ := h
  exact hi.setRequest row.id _ (fun _ ↦ rfl) fun _ _ hunset ↦ hunset

theorem Unauthorized.resume {pin : String} {n : ℕ} (hi : Unauthorized secret S)
    (h : resumeAttempt K S pin = .ok (n, S')) : Unauthorized secret S' := by
  simp only [resumeAttempt, bind_eq_ok, Prod.exists, pure_eq_ok] at h
  obtain ⟨found, -, user, row, -, -, -, ⟨⟩⟩ := h
  obtain ⟨hcodes, hgiven, hunset⟩ := hi.setRequest row.id (fun r ↦
    { r with
      attemptNonceHash := some (K.attemptDigest (S.lastNonce + 1))
      setupNonceHash := none, setupTotp := none, setupUsername := none })
    (fun _ ↦ rfl) (fun _ _ _ ↦ rfl)
  exact ⟨hcodes, hgiven, hunset⟩

/-- The call that ends the time in which codes are guessed. -/
def Authorizes (secret : ℕ) : RecoveryAction → Prop
  | .authorize requestId .. => requestId = secret
  | _ => False

instance (secret : ℕ) (a : RecoveryAction) : Decidable (Authorizes secret a) := by
  cases a <;> unfold Authorizes <;> infer_instance

theorem recoveryStep_unauthorized (hi : Unauthorized secret S) {a : RecoveryAction}
    (ha : ¬ Authorizes secret a) : Unauthorized secret (recoveryStep T K S a) := by
  cases a with
  | elapsed d => exact hi.of_sublist (.refl _) rfl hi.unset
  | enroll seat => exact hi.of_sublist (.refl _) rfl hi.unset
  | claim seatId student => exact hi.of_sublist (.refl _) rfl hi.unset
  | unclaim seatId => exact hi.of_sublist (List.filter_sublist.map _) rfl hi.unset
  | createClass c => exact hi.of_sublist (.refl _) rfl hi.unset
  | removeClass classId => exact hi.of_sublist (List.filter_sublist.map _) rfl hi.unset
  | beginAttempt pairs currentRequestId nonce => exact hi.told fun a S' h ↦ hi.begin h
  | select requestId nonce classId draw => exact hi.told fun a S' h ↦ hi.select h
  | issue requestId classId codeId seatId principalId passphrase value =>
    exact hi.told fun a S' h ↦ hi.issue h
  | confirm requestId nonce classId code => exact hi.told fun a S' h ↦ hi.confirm h
  | authorize requestId nonce username setupSecret =>
    exact hi.told fun a S' h ↦ hi.authorize ha h
  | complete requestId nonce totpCode sessionNonce =>
    exact hi.told fun a S' h ↦ (hi.complete h).2
  | save requestId nonce username draws => exact hi.told fun a S' h ↦ hi.save h
  | resume pin => exact hi.told fun a S' h ↦ hi.resume h

end Invariant

section Twins

variable {T : Texts} {K : RecoveryKeys} {D : ClassDisplay} {S S' : RecoveryState} {secret : ℕ}

inductive SameCall (secret : ℕ) : RecoveryAction → RecoveryAction → Prop
  | same (a : RecoveryAction) : SameCall secret a a
  | confirm (nonce : Option ℕ) (classId code code' : String) :
    SameCall secret (.confirm secret nonce classId code) (.confirm secret nonce classId code')

/-- The results that the holder of an attempt's nonce gets, in two states. -/
structure SameAnswers (D : ClassDisplay) (K : RecoveryKeys) (secret : ℕ) (S S' : RecoveryState) :
    Prop where
  receipt : ∀ nonce classId code code', (confirmClass K S secret nonce classId code).isOk =
    (confirmClass K S' secret nonce classId code').isOk
  status : ∀ nonce, attemptStatus D K S secret nonce = attemptStatus D K S' secret nonce
  selection : ∀ nonce classId draw, (selectClassRecipients K S secret nonce classId draw).isOk =
    (selectClassRecipients K S' secret nonce classId draw).isOk
  progress : ∀ nonce username draws,
    (saveProgress K S secret nonce username draws).map Prod.fst =
      (saveProgress K S' secret nonce username draws).map Prod.fst

theorem veil_issue {S' : RecoveryState} {classId : String} {codeId seatId principalId : ℕ}
    {passphrase : String} {value : Fin 1000000} {c : Confirmation} (hi : Unauthorized secret S)
    (h : issueConfirmation K S secret classId codeId seatId principalId passphrase value =
      .ok (c, S')) : veil secret S' = veil secret S := by
  simp only [issueConfirmation, bind_eq_ok, Prod.exists, require_eq_ok, exists_const,
    pure_eq_ok] at h
  obtain ⟨user, row, hrow, challenge, -, ⟨c₀, hc₀, hrequest, -, hid, -⟩, seat, -, principal, -, -,
    ⟨⟩⟩ := h
  have hrow := (activeRow_ok hrow).2.1
  simp only [veil, List.map_map, RecoveryState.mk.injEq, and_true, true_and]
  apply List.map_congr_left
  intro c hc
  rw [Function.comp_apply]
  split_ifs with hsame
  · have heq : c = c₀ := List.inj_on_of_nodup_map hi.codeIds hc hc₀ (hsame.1.trans hid.symm)
    have hsecret : c.requestId = secret := by rw [heq, hrequest, hrow]
    unfold veilCode
    rw [if_pos hsecret, if_pos hsecret]
  · rfl

theorem veiled_isOk {α : Type} (secret : ℕ) {x y : Except Unit (α × RecoveryState)}
    (h : veiled secret x = veiled secret y) : x.isOk = y.isOk := by
  cases x <;> cases y <;> first | rfl | cases h

theorem veiled_result {α : Type} (secret : ℕ) {x y : Except Unit (α × RecoveryState)}
    (h : veiled secret x = veiled secret y) : x.map Prod.fst = y.map Prod.fst := by
  cases x with
  | error u =>
    cases y with
    | error u' => rfl
    | ok q => cases h
  | ok p =>
    cases y with
    | error u' => cases h
    | ok q => exact congrArg Except.ok (Prod.ext_iff.1 (Except.ok.inj h)).1

theorem attemptStatus_veil {nonce : Option ℕ} :
    attemptStatus D K (veil secret S) secret nonce = attemptStatus D K S secret nonce := by
  have hproofs : ∀ row, proofsOf (veil secret S) row =
      (proofsOf S row).map (veilChallenge secret) := by
    intro row
    simp [proofsOf, veil, List.filter_map, Function.comp_def]
  have hproof : ∀ proofs classId, proofOf (proofs.map (veilChallenge secret)) classId =
      (proofOf proofs classId).map (veilChallenge secret) := by
    intro proofs classId
    rw [proofOf, ← List.map_reverse, List.find?_map]
    simp [proofOf, Function.comp_def]
  have htold : ∀ row, StatusTold K (veil secret S) row nonce ↔ StatusTold K S row nonce := by
    intro row
    simp only [StatusTold, hproof, hproofs, List.map_map, Function.comp_def,
      veilChallenge_classId, Option.bind_map, veilChallenge_selectedAt]
    rfl
  have hprogress : ∀ row, classProgress D (veil secret S) row = classProgress D S row := by
    intro row
    funext place
    simp only [classProgress, hproofs, hproof, Option.bind_map, Function.comp_def,
      veilChallenge_selectedAt, veilChallenge_receivedRound]
    rfl
  simp only [attemptStatus, htold, hprogress]
  rfl

/-- States that agree behind the veil answer the holder alike. -/
theorem SameAnswers.of_veil (h : veil secret S = veil secret S') :
    SameAnswers D K secret S S' where
  receipt := by
    intro nonce classId code code'
    apply veiled_isOk secret
    rw [confirmClass_acknowledges, confirmClass_acknowledges, ← acknowledgeClass_veil, h,
      acknowledgeClass_veil]
  status := by
    intro nonce
    rw [← attemptStatus_veil, h, attemptStatus_veil]
  selection := by
    intro nonce classId draw
    apply veiled_isOk secret
    rw [← selectClassRecipients_veil, h, selectClassRecipients_veil]
  progress := by
    intro nonce username draws
    apply veiled_result secret
    rw [← saveProgress_veil, h, saveProgress_veil]

/-- The actions that read or write nothing that is behind the veil. -/
def Elsewhere (secret : ℕ) : RecoveryAction → Prop
  | .issue requestId .. | .confirm requestId .. | .authorize requestId .. |
    .complete requestId .. => requestId ≠ secret
  | _ => True

theorem recoveryStep_veil {a : RecoveryAction} (ha : Elsewhere secret a) :
    veil secret (recoveryStep T K (veil secret S) a) = veil secret (recoveryStep T K S a) := by
  cases a with
  | elapsed d => simp [recoveryStep, veil]
  | enroll seat => simp [recoveryStep, veil]
  | claim seatId student =>
    simp only [recoveryStep, claimed, veil, List.map_map, Function.comp_def,
      veilChallenge_veilChallenge, veilCode_veilCode]
    rfl
  | unclaim seatId =>
    simp [recoveryStep, unclaimed, veil, List.filter_map, Function.comp_def]
  | createClass c => simp [recoveryStep, veil]
  | removeClass classId =>
    simp [recoveryStep, classRemoved, veil, List.filter_map, Function.comp_def]
  | beginAttempt pairs currentRequestId nonce => exact veil_told veil_veil beginAttempt_veil
  | select requestId nonce classId draw => exact veil_told veil_veil selectClassRecipients_veil
  | issue requestId classId codeId seatId principalId passphrase value =>
    exact veil_told veil_veil (issueConfirmation_veil ha)
  | confirm requestId nonce classId code => exact veil_told veil_veil (confirmClass_veil ha)
  | authorize requestId nonce username setupSecret =>
    exact veil_told veil_veil (authorizeSetup_veil ha)
  | complete requestId nonce totpCode sessionNonce =>
    exact veil_told veil_veil (completeSetup_veil ha)
  | save requestId nonce username draws => exact veil_told veil_veil saveProgress_veil
  | resume pin => exact veil_told veil_veil resumeAttempt_veil

theorem twin_elsewhere (h : veil secret S = veil secret S') {a : RecoveryAction}
    (ha : Elsewhere secret a) :
    veil secret (recoveryStep T K S a) = veil secret (recoveryStep T K S' a) := by
  rw [← recoveryStep_veil ha, h, recoveryStep_veil ha]

theorem twin_confirm (h : veil secret S = veil secret S') (nonce : Option ℕ)
    (classId code code' : String) :
    veil secret (recoveryStep T K S (.confirm secret nonce classId code)) =
      veil secret (recoveryStep T K S' (.confirm secret nonce classId code')) := by
  apply veil_told h
  rw [confirmClass_acknowledges, confirmClass_acknowledges, ← acknowledgeClass_veil, h,
    acknowledgeClass_veil]

/-- A student may get a code in one state only: nothing of it is seen. -/
theorem own_issue_veil (hi : Unauthorized secret S) {classId : String}
    {codeId seatId principalId : ℕ} {passphrase : String} {value : Fin 1000000} :
    veil secret (recoveryStep T K S
      (.issue secret classId codeId seatId principalId passphrase value)) = veil secret S := by
  simp only [recoveryStep]
  cases hissue : issueConfirmation K S secret classId codeId seatId principalId passphrase value with
  | error u => rfl
  | ok p =>
    change veil secret p.2 = veil secret S
    exact veil_issue hi hissue

theorem own_complete_refused (hi : Unauthorized secret S) {nonce : Option ℕ}
    {totpCode sessionNonce : String} :
    recoveryStep T K S (.complete secret nonce totpCode sessionNonce) = S := by
  simp only [recoveryStep]
  cases hcomplete : completeSetup T K S secret nonce totpCode sessionNonce with
  | error u => rfl
  | ok p => exact absurd rfl (hi.complete hcomplete).1

/-- Before an authorization, states that agree behind the veil agree after any two calls that
differ in a code at most. -/
theorem twin_step (hi : Unauthorized secret S) (hi' : Unauthorized secret S')
    (h : veil secret S = veil secret S') {a b : RecoveryAction} (hab : SameCall secret a b)
    (ha : ¬ Authorizes secret a) :
    veil secret (recoveryStep T K S a) = veil secret (recoveryStep T K S' b) := by
  cases hab with
  | confirm nonce classId code code' => exact twin_confirm h nonce classId code code'
  | same =>
    cases a with
    | issue requestId classId codeId seatId principalId passphrase value =>
      by_cases hown : requestId = secret
      · subst hown
        rw [own_issue_veil hi, own_issue_veil hi', h]
      · exact twin_elsewhere h hown
    | confirm requestId nonce classId code =>
      by_cases hown : requestId = secret
      · subst hown
        exact twin_confirm h nonce classId code code
      · exact twin_elsewhere h hown
    | authorize requestId nonce username setupSecret => exact twin_elsewhere h ha
    | complete requestId nonce totpCode sessionNonce =>
      by_cases hown : requestId = secret
      · subst hown
        rw [own_complete_refused hi, own_complete_refused hi', h]
      · exact twin_elsewhere h hown
    | _ => exact twin_elsewhere h trivial

theorem SameCall.authorizes {a b : RecoveryAction} (hab : SameCall secret a b)
    (ha : ¬ Authorizes secret a) : ¬ Authorizes secret b := by
  cases hab with
  | same => exact ha
  | confirm => exact id

theorem twin_run {as bs : List RecoveryAction} (hcalls : List.Forall₂ (SameCall secret) as bs)
    (hbefore : ∀ a ∈ as, ¬ Authorizes secret a) (hi : Unauthorized secret S)
    (hi' : Unauthorized secret S') (h : veil secret S = veil secret S') :
    veil secret (run (recoveryStep T K) S as) = veil secret (run (recoveryStep T K) S' bs) := by
  induction hcalls generalizing S S' with
  | nil => exact h
  | @cons a b as bs hab _ ih =>
    have ha := hbefore a List.mem_cons_self
    rw [run_cons, run_cons]
    apply ih
    · exact fun a' ha' ↦ hbefore a' (List.mem_cons_of_mem a ha')
    · exact recoveryStep_unauthorized hi ha
    · exact recoveryStep_unauthorized hi' (hab.authorizes ha)
    · exact twin_step hi hi' h hab ha

theorem opening_unauthorized (clock : Instant) (classes : List ClassEconomy) (seats : List Seat)
    (users : List Principal) (passkeys : List PasskeyCredential) (lastNonce : ℕ) :
    Unauthorized secret (.opening clock classes seats users passkeys lastNonce) where
  codeIds := List.nodup_nil
  given := by simp [RecoveryState.opening]
  unset := by simp [RecoveryState.opening]

/-- Whatever codes the holder of an attempt tries, the answers are the same until a setup is
authorized. -/
theorem confirmation_is_no_oracle (T : Texts) (K : RecoveryKeys) (D : ClassDisplay)
    (clock : Instant) (classes : List ClassEconomy) (seats : List Seat) (users : List Principal)
    (passkeys : List PasskeyCredential) (lastNonce secret : ℕ) (as bs : List RecoveryAction)
    (hcalls : List.Forall₂ (SameCall secret) as bs) (n : ℕ)
    (hbefore : ∀ a ∈ as.take n, ¬ Authorizes secret a) :
    let S₀ := RecoveryState.opening clock classes seats users passkeys lastNonce
    SameAnswers D K secret (run (recoveryStep T K) S₀ (as.take n))
      (run (recoveryStep T K) S₀ (bs.take n)) := by
  intro S₀
  have hi : Unauthorized secret S₀ :=
    opening_unauthorized clock classes seats users passkeys lastNonce
  exact .of_veil (twin_run (List.forall₂_take n hcalls) hbefore hi hi rfl)

local instance drawnValue_neZero : NeZero 1000000 := ⟨by decide⟩

def rightGuess : List RecoveryAction := sampleRecovery.take 2 ++
  [.issue 1 "math" 1 1 2 "a long phrase" 42, .confirm 1 (some 1) "math" "000042"]

def wrongGuess : List RecoveryAction := sampleRecovery.take 2 ++
  [.issue 1 "math" 1 1 2 "a long phrase" 42, .confirm 1 (some 1) "math" "999999"]

theorem confirmation_is_no_oracle_guess :
    SameAnswers ⟨(·.classId), (·.joinCode)⟩ sampleKeys 1
      (run (recoveryStep sampleTexts sampleKeys) sampleSchool rightGuess)
      (run (recoveryStep sampleTexts sampleKeys) sampleSchool wrongGuess) ∧
    (run (recoveryStep sampleTexts sampleKeys) sampleSchool rightGuess).challenges ≠
      (run (recoveryStep sampleTexts sampleKeys) sampleSchool wrongGuess).challenges := by
  refine ⟨?_, by decide +kernel⟩
  have hcalls : List.Forall₂ (SameCall 1) rightGuess wrongGuess :=
    .cons (.same _) (.cons (.same _) (.cons (.same _) (.cons (.confirm _ _ _ _) .nil)))
  exact confirmation_is_no_oracle sampleTexts sampleKeys ⟨(·.classId), (·.joinCode)⟩ 10
    sampleSchool.classes sampleSchool.seats sampleSchool.users sampleSchool.passkeys 0 1
    rightGuess wrongGuess hcalls 4 (by decide +kernel)

end Twins

end TokenHub.TeacherRecovery
