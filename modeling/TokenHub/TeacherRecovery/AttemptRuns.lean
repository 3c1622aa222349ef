import TokenHub.Identity.SeatRuns
import TokenHub.Lib.Runs
import TokenHub.TeacherRecovery.AttemptSteps

set_option autoImplicit false

namespace TokenHub.TeacherRecovery

open Lib.Checks Lib.Past Lib.Json Lib.Runs Identity
open Rent (Instant)

variable {T : Texts} {K : RecoveryKeys} {S S' : RecoveryState} {r row : RecoveryRequest}
  {user : Principal} {requestId : ℕ} {nonce : Option ℕ}

section Attempts

theorem insertAttempt_requests {userId : ℕ} {owned : List String}
    (hr : r ∈ (insertAttempt K S userId owned).requests) : r ∈ S.requests ∨
      r.id = S.lastRequestId + 1 ∧ r.userId = userId ∧ r.requiredClassIds = owned ∧
        r.expiresAt = S.clock + 5 * 86400 * second ∧ r.selectionStartedAt = none := by
  rcases List.mem_append.1 hr with hr | hr
  · exact .inl hr
  · rw [List.mem_singleton.1 hr]
    exact .inr ⟨rfl, rfl, rfl, rfl, rfl⟩

theorem insertAttempt_challenges {userId : ℕ} {owned : List String} {ch : RecoveryClassChallenge}
    (hch : ch ∈ (insertAttempt K S userId owned).challenges) : ch ∈ S.challenges ∨
      ch.requestId = S.lastRequestId + 1 ∧ ch.satisfiedRound = none := by
  rcases List.mem_append.1 hch with hch | hch
  · exact .inl hch
  · obtain ⟨c, -, rfl⟩ := List.mem_map.1 hch
    exact .inr ⟨rfl, rfl⟩

theorem RecoveryInvariant.insertAttempt_ids (hi : RecoveryInvariant K S) {userId : ℕ}
    {owned : List String} : ((insertAttempt K S userId owned).requests.map (·.id)).Nodup := by
  have hids : (insertAttempt K S userId owned).requests.map (·.id) =
      S.requests.map (·.id) ++ [S.lastRequestId + 1] := List.map_append
  rw [hids]
  refine List.Nodup.append hi.requestIds (List.nodup_singleton _) ?_
  intro n hn hn'
  obtain ⟨r, hr, rfl⟩ := List.mem_map.1 hn
  have hle := hi.given r hr
  rw [List.mem_singleton] at hn'
  omega

theorem RecoveryInvariant.insert {userId : ℕ} {owned : List String} (hi : RecoveryInvariant K S) :
    RecoveryInvariant K { insertAttempt K S userId owned with
      log := .begun (S.lastRequestId + 1) userId owned S.clock :: S.log } := by
  have hlog : ∀ e ∈ RecoveryEvent.begun (S.lastRequestId + 1) userId owned S.clock :: S.log,
      (∀ id u l t, e ≠ .begun id u l t) → e ∈ S.log := by
    intro e he hne
    rcases List.mem_cons.1 he with he | he
    · exact absurd he (hne _ _ _ _)
    · exact he
  have hcloses : ∀ id,
      RecoveryEvent.begun (S.lastRequestId + 1) userId owned S.clock ≠ .refused id := nofun
  exact
    { requestIds := hi.insertAttempt_ids
      given := by
        intro r hr
        change r.id ≤ S.lastRequestId + 1
        rcases insertAttempt_requests hr with hr | ⟨hid, -⟩
        · have hle := hi.given r hr
          omega
        · exact hid.le
      challengesGiven := by
        intro ch hch
        change ch.requestId ≤ S.lastRequestId + 1
        rcases insertAttempt_challenges hch with hch | ⟨hid, -⟩
        · have hle := hi.challengesGiven ch hch
          omega
        · exact hid.le
      codesGiven := fun c hc ↦ (hi.codesGiven c hc).trans (Nat.le_succ _)
      codeIds := hi.codeIds
      codeIdsGiven := hi.codeIdsGiven
      begun := by
        intro r hr
        rcases insertAttempt_requests hr with hr | ⟨hid, huser, hclasses, hexpires, -⟩
        · obtain ⟨t, hbegun, hdeadline⟩ := hi.begun r hr
          exact ⟨t, List.mem_cons_of_mem _ hbegun, hdeadline⟩
        · rw [hid, huser, hclasses, hexpires]
          exact ⟨S.clock, List.mem_cons_self, rfl⟩
      done := by
        intro r hr u l n t he
        have he' := hlog _ he nofun
        rcases insertAttempt_requests hr with hr | ⟨hid, -⟩
        · exact hi.done r hr u l n t he'
        · have hle := hi.doneGiven _ u l n t he'
          omega
      doneGiven := fun id u l n t he ↦
        (hi.doneGiven id u l n t (hlog _ he nofun)).trans (Nat.le_succ _)
      drawnGiven := fun id c l he ↦
        (hi.drawnGiven id c l (hlog _ he nofun)).trans (Nat.le_succ _)
      satisfied := by
        intro ch hch r hr hid n hn
        rcases insertAttempt_challenges hch with hch | ⟨-, hnone⟩
        · rcases insertAttempt_requests hr with hr | ⟨hnew, -⟩
          · exact (hi.satisfied ch hch).later hcloses r hr hid n hn
          · have hle := hi.challengesGiven ch hch
            omega
        · rw [hnone] at hn
          cases hn
      codes := by
        intro c hc x hx
        obtain ⟨value, n, expiresAt, hvalue, hround, hexpires, hissued⟩ :=
          (hi.codes c hc).later hcloses x hx
        refine ⟨value, n, expiresAt, hvalue, hround, hexpires, ?_⟩
        intro r hr hid
        rcases insertAttempt_requests hr with hr | ⟨hnew, -⟩
        · exact hissued r hr hid
        · have hle := hi.codesGiven c hc
          omega
      drawn := fun c hc ↦ (hi.drawn c hc).later
      undrawn := by
        intro ch hch hnone l he
        have he' := hlog _ he nofun
        rcases insertAttempt_challenges hch with hch | ⟨hnew, -⟩
        · exact hi.undrawn ch hch hnone l he'
        · have hle := hi.drawnGiven _ _ l he'
          omega
      started := by
        intro r hr c l he
        have he' := hlog _ he nofun
        rcases insertAttempt_requests hr with hr | ⟨hnew, -⟩
        · exact hi.started r hr c l he'
        · have hle := hi.drawnGiven _ c l he'
          omega
      ceremony := by
        intro r hr r' hr' userId' h h'
        rcases insertAttempt_requests hr with hr | ⟨-, -, -, -, hnone⟩
        · rcases insertAttempt_requests hr' with hr' | ⟨-, -, -, -, hnone⟩
          · exact hi.ceremony r hr r' hr' userId' h h'
          · exact absurd hnone h'.2.2.2
        · exact absurd hnone h.2.2.2
      lawful := ⟨trivial, hi.lawful⟩ }

theorem RecoveryInvariant.begin {pairs : List (String × String)} {current : Option ℕ}
    (hi : RecoveryInvariant K S) :
    RecoveryInvariant K (told S (beginAttempt T K S pairs current nonce) fun attempt ↦
      if attempt.existing then none
      else some (.begun attempt.id attempt.userId attempt.classIds S.clock)) := by
  cases hok : beginAttempt T K S pairs current nonce with
  | error u => exact hi
  | ok out =>
    simp only [beginAttempt, require_bind_eq_ok, demand_bind_eq_ok] at hok
    obtain ⟨-, classrooms, -, teacherId, -, user, -, hok⟩ := hok
    rw [beginFor] at hok
    split at hok
    · rw [require_bind_eq_ok, pure_eq_ok] at hok
      obtain ⟨-, rfl⟩ := hok
      exact hi
    · rw [require_bind_eq_ok, pure_eq_ok] at hok
      obtain ⟨-, rfl⟩ := hok
      exact hi.insert

/-- A rewrite that keeps a request's round, status and completion, told to nobody. -/
theorem Rewrites.quiet {f : RecoveryRequest → RecoveryRequest}
    (hsame : ∀ r, (f r).id = r.id ∧ (f r).userId = r.userId ∧
      (f r).requiredClassIds = r.requiredClassIds ∧ (f r).expiresAt = r.expiresAt ∧
      (f r).selectionStartedAt = r.selectionStartedAt)
    (hkept : ∀ r, (f r).submissionRound = r.submissionRound ∧ (f r).completedAt = r.completedAt ∧
      (f r).status = r.status) : Rewrites K S requestId f none where
  same r _ _ := hsame r
  round r _ _ := (hkept r).1.ge
  completed r _ _ h := (hkept r).2.1 ▸ h
  pending r _ _ h := (hkept r).2.2 ▸ h
  refused _ h := by cases h
  undrawn _ _ _ h := by cases h
  done _ _ _ _ _ h := by cases h
  backed _ h := by cases h

theorem RecoveryInvariant.authorize {username secret : String} (hi : RecoveryInvariant K S) :
    RecoveryInvariant K (told S (authorizeSetup T K S requestId nonce username secret)
      fun enrollment ↦ if enrollment = none then some (.refused requestId) else none) := by
  cases hok : authorizeSetup T K S requestId nonce username secret with
  | error u => exact hi
  | ok out =>
    simp only [authorizeSetup, bind_eq_ok, Prod.exists] at hok
    obtain ⟨user, row, hrow, hok⟩ := hok
    obtain ⟨hmem, rfl, -⟩ := activeRow_ok hrow
    simp only [require_eq_ok, exists_const] at hok
    obtain ⟨-, hok⟩ := hok
    split_ifs at hok
    · rw [require_bind_eq_ok, pure_eq_ok] at hok
      obtain ⟨-, rfl⟩ := hok
      exact hi.rewritten (.quiet (fun _ ↦ ⟨rfl, rfl, rfl, rfl, rfl⟩) fun _ ↦ ⟨rfl, rfl, rfl⟩)
    · rw [pure_eq_ok] at hok
      subst hok
      refine hi.rewritten ?_
      constructor
      · exact fun _ _ _ ↦ ⟨rfl, rfl, rfl, rfl, rfl⟩
      · intro r hr hid
        obtain rfl := hi.request_inj hr hmem hid
        exact Nat.le_succ _
      · exact fun _ _ _ h ↦ h
      · exact fun _ _ _ h ↦ h
      · intro id hrefused
        obtain rfl := RecoveryEvent.refused.inj (Option.some.inj hrefused)
        refine ⟨rfl, ?_⟩
        intro r hr hid
        obtain rfl := hi.request_inj hr hmem hid
        exact Nat.lt_succ_self _
      · exact fun _ _ _ h ↦ by cases h
      · exact fun _ _ _ _ _ h ↦ by cases h
      · intro e he
        obtain rfl := Option.some.inj he
        trivial

/-- A confirmed coverage: each class of the teacher is confirmed in the present round. -/
theorem RecoveryInvariant.confirmed (hi : RecoveryInvariant K S) (hrow : row ∈ S.requests)
    (h : CoversConfirmed S user row) : ∀ classId ∈ ownedClasses S user.id,
      ConfirmedNow row.id classId row.submissionRound S.log := by
  intro classId hclass
  obtain ⟨⟨-, howned, hchallenges⟩, hall⟩ := h
  obtain ⟨ch, hch, rfl⟩ := List.mem_map.1 (hchallenges.2 (howned.1 hclass))
  rw [List.mem_filter, decide_eq_true_iff] at hch
  obtain ⟨hch, hid⟩ := hch
  exact (hi.satisfied ch hch row hrow hid.symm _ (hall ch hch hid).2).2 rfl

theorem RecoveryInvariant.complete {totpCode sessionNonce : String} (hi : RecoveryInvariant K S) :
    RecoveryInvariant K (told S (completeSetup T K S requestId nonce totpCode sessionNonce)
      fun c ↦ some (.completed requestId c.userId c.owned c.round S.clock)) := by
  cases hok : completeSetup T K S requestId nonce totpCode sessionNonce with
  | error u => exact hi
  | ok out =>
    simp only [completeSetup, bind_eq_ok, Prod.exists] at hok
    obtain ⟨user, row, hrow, hok⟩ := hok
    obtain ⟨hmem, rfl, -, howner, hactive⟩ := activeRow_ok hrow
    simp only [require_eq_ok, demand_eq_ok, exists_const, pure_eq_ok] at hok
    obtain ⟨-, hcovers, secret, -, username, -, -, rfl⟩ := hok
    refine hi.rewritten ?_
    constructor
    · exact fun _ _ _ ↦ ⟨rfl, rfl, rfl, rfl, rfl⟩
    · exact fun _ _ _ ↦ le_rfl
    · exact fun _ _ _ _ h ↦ by cases h
    · exact fun _ _ _ h ↦ by cases h
    · exact fun _ h ↦ by cases h
    · exact fun _ _ _ h ↦ by cases h
    · intro id u l n t h
      obtain ⟨rfl, -⟩ := RecoveryEvent.completed.inj (Option.some.inj h)
      exact ⟨rfl, hi.given row hmem, fun _ _ _ h ↦ (by cases h)⟩
    · intro e he
      obtain rfl := Option.some.inj he
      obtain ⟨t, hbegun, hdeadline⟩ := hi.begun row hmem
      refine ⟨⟨row.requiredClassIds, t, ?_, hcovers.1.2.1, ?_⟩, ?_, hi.confirmed hmem hcovers⟩
      · rw [howner]
        exact hbegun
      · rw [← hdeadline]
        exact hactive.2.2
      · intro u l n t' hdone
        exact hi.done row hmem u l n t' hdone hactive.2.1

theorem RecoveryInvariant.save {username : String} {draws : List (Fin 1000000)}
    (hi : RecoveryInvariant K S) :
    RecoveryInvariant K (told S (saveProgress K S requestId nonce username draws) fun _ ↦ none) := by
  cases hok : saveProgress K S requestId nonce username draws with
  | error u => exact hi
  | ok out =>
    simp only [saveProgress, bind_eq_ok, Prod.exists, demand_eq_ok, pure_eq_ok] at hok
    obtain ⟨user, row, -, -, -, pin, -, rfl⟩ := hok
    exact hi.rewritten (.quiet (fun _ ↦ ⟨rfl, rfl, rfl, rfl, rfl⟩) fun _ ↦ ⟨rfl, rfl, rfl⟩)

theorem RecoveryInvariant.resume {pin : String} (hi : RecoveryInvariant K S) :
    RecoveryInvariant K (told S (resumeAttempt K S pin) fun _ ↦ none) := by
  cases hok : resumeAttempt K S pin with
  | error u => exact hi
  | ok out =>
    simp only [resumeAttempt, bind_eq_ok, Prod.exists, demand_eq_ok, pure_eq_ok] at hok
    obtain ⟨found, -, user, row, -, -, -, rfl⟩ := hok
    exact hi.rewritten (.quiet (fun _ ↦ ⟨rfl, rfl, rfl, rfl, rfl⟩) fun _ ↦ ⟨rfl, rfl, rfl⟩)

end Attempts

section Credentials

/-- A command that writes no principal and no passkey leaves both, refused or not. -/
theorem told_keeps {α : Type} {x : Except Unit (α × RecoveryState)}
    {event : α → Option RecoveryEvent}
    (h : ∀ a S', x = .ok (a, S') → S'.users = S.users ∧ S'.passkeys = S.passkeys) :
    (∀ u ∈ S.users, u ∈ (told S x event).users) ∧ (told S x event).passkeys = S.passkeys := by
  cases x with
  | error u => exact ⟨fun _ hu ↦ hu, rfl⟩
  | ok out =>
    obtain ⟨husers, hpasskeys⟩ := h out.1 out.2 rfl
    refine ⟨fun u hu ↦ ?_, hpasskeys⟩
    change u ∈ out.2.users
    rw [husers]
    exact hu

theorem beginAttempt_keeps {pairs : List (String × String)} {current : Option ℕ} {a : Attempt}
    (h : beginAttempt T K S pairs current nonce = .ok (a, S')) :
    S'.users = S.users ∧ S'.passkeys = S.passkeys := by
  simp only [beginAttempt, require_bind_eq_ok, demand_bind_eq_ok] at h
  obtain ⟨-, classrooms, -, teacherId, -, user, -, h⟩ := h
  rw [beginFor] at h
  split at h
  all_goals
    rw [require_bind_eq_ok, pure_eq_ok] at h
    obtain ⟨-, ⟨⟩⟩ := h
    exact ⟨rfl, rfl⟩

theorem selectClassRecipients_keeps {classId : String} {draw : ℕ × ℕ} {drawn : Bool}
    (h : selectClassRecipients K S requestId nonce classId draw = .ok (drawn, S')) :
    S'.users = S.users ∧ S'.passkeys = S.passkeys := by
  simp only [selectClassRecipients, bind_eq_ok, Prod.exists] at h
  obtain ⟨user, row, -, -, -, challenge, -, h⟩ := h
  split_ifs at h
  · cases pure_eq_ok.1 h
    exact ⟨rfl, rfl⟩
  · simp only [bind_eq_ok, require_eq_ok, exists_const, pure_eq_ok] at h
    obtain ⟨-, -, ⟨⟩⟩ := h
    exact ⟨rfl, rfl⟩

theorem authorizeSetup_keeps {username secret : String} {enrollment : Option Enrollment}
    (h : authorizeSetup T K S requestId nonce username secret = .ok (enrollment, S')) :
    S'.users = S.users ∧ S'.passkeys = S.passkeys := by
  simp only [authorizeSetup, bind_eq_ok, Prod.exists] at h
  obtain ⟨user, row, -, -, -, h⟩ := h
  split_ifs at h
  · rw [require_bind_eq_ok, pure_eq_ok] at h
    obtain ⟨-, ⟨⟩⟩ := h
    exact ⟨rfl, rfl⟩
  · cases pure_eq_ok.1 h
    exact ⟨rfl, rfl⟩

theorem recoveryStep_keepsCredentials (a : RecoveryAction) : KeepsCredentials T K S a := by
  cases a with
  | elapsed d => exact .inl ⟨fun _ hu ↦ hu, rfl⟩
  | enroll seat => exact .inl ⟨fun _ hu ↦ hu, rfl⟩
  | claim seatId student =>
    refine .inl ⟨fun u hu ↦ ?_, rfl⟩
    rw [recoveryStep, claimed]
    split_ifs
    · exact hu
    · exact List.mem_append_left _ hu
  | unclaim seatId => exact .inl ⟨fun _ hu ↦ hu, rfl⟩
  | createClass c => exact .inl ⟨fun _ hu ↦ hu, rfl⟩
  | removeClass classId => exact .inl ⟨fun _ hu ↦ hu, rfl⟩
  | beginAttempt pairs currentRequestId nonce =>
    exact .inl (told_keeps fun a S' h ↦ beginAttempt_keeps h)
  | select requestId nonce classId draw =>
    exact .inl (told_keeps fun a S' h ↦ selectClassRecipients_keeps h)
  | issue requestId classId codeId seatId principalId passphrase value =>
    refine .inl (told_keeps ?_)
    intro a S' h
    simp only [issueConfirmation, bind_eq_ok, Prod.exists, pure_eq_ok] at h
    obtain ⟨user, row, -, ch, -, -, -, seat, -, principal, -, -, -, ⟨⟩⟩ := h
    exact ⟨rfl, rfl⟩
  | confirm requestId nonce classId code =>
    refine .inl (told_keeps ?_)
    intro a S' h
    simp only [confirmClass, bind_eq_ok, Prod.exists] at h
    obtain ⟨user, row, -, -, -, ch, -, h⟩ := h
    split_ifs at h
    all_goals
      cases pure_eq_ok.1 h
      exact ⟨rfl, rfl⟩
  | authorize requestId nonce username secret =>
    exact .inl (told_keeps fun a S' h ↦ authorizeSetup_keeps h)
  | complete requestId nonce totpCode sessionNonce =>
    rw [KeepsCredentials, recoveryStep]
    cases hok : completeSetup T K S requestId nonce totpCode sessionNonce with
    | error u => exact .inl ⟨fun _ hu ↦ hu, rfl⟩
    | ok out =>
      simp only [completeSetup, bind_eq_ok, Prod.exists] at hok
      obtain ⟨user, row, hrow, hok⟩ := hok
      obtain ⟨hmem, rfl, -, howner, hactive⟩ := activeRow_ok hrow
      simp only [require_eq_ok, demand_eq_ok, exists_const, pure_eq_ok] at hok
      obtain ⟨-, -, secret, -, username, -, -, rfl⟩ := hok
      refine .inr ⟨row, hmem, nonce, totpCode, sessionNonce, rfl, hactive, ?_⟩
      rw [← howner]
      rfl
  | save requestId nonce username draws =>
    refine .inl (told_keeps ?_)
    intro a S' h
    simp only [saveProgress, bind_eq_ok, Prod.exists, demand_eq_ok, pure_eq_ok] at h
    obtain ⟨user, row, -, -, -, pin, -, ⟨⟩⟩ := h
    exact ⟨rfl, rfl⟩
  | resume pin =>
    refine .inl (told_keeps ?_)
    intro a S' h
    simp only [resumeAttempt, bind_eq_ok, Prod.exists, demand_eq_ok, pure_eq_ok] at h
    obtain ⟨found, -, user, row, -, -, -, ⟨⟩⟩ := h
    exact ⟨rfl, rfl⟩

end Credentials

section Runs

theorem recoveryStep_invariant (hi : RecoveryInvariant K S) (hK : Function.Injective K.hmac)
    (a : RecoveryAction) : RecoveryInvariant K (recoveryStep T K S a) := by
  cases a with
  | elapsed d =>
    refine hi.fewer rfl rfl rfl rfl ?_ (List.Subset.refl _) (List.Sublist.refl _)
    exact le_add_of_nonneg_right (Int.natCast_nonneg d)
  | enroll seat =>
    exact hi.fewer rfl rfl rfl rfl le_rfl (List.Subset.refl _) (List.Sublist.refl _)
  | claim seatId student =>
    exact hi.fewer rfl rfl rfl rfl le_rfl (List.Subset.refl _) (List.Sublist.refl _)
  | unclaim seatId =>
    exact hi.fewer rfl rfl rfl rfl le_rfl (List.Subset.refl _) List.filter_sublist
  | createClass c =>
    exact hi.fewer rfl rfl rfl rfl le_rfl (List.Subset.refl _) (List.Sublist.refl _)
  | removeClass classId =>
    exact hi.fewer rfl rfl rfl rfl le_rfl (List.filter_subset_self _) List.filter_sublist
  | beginAttempt pairs currentRequestId nonce => exact hi.begin
  | select requestId nonce classId draw => exact hi.select
  | issue requestId classId codeId seatId principalId passphrase value => exact hi.issue
  | confirm requestId nonce classId code => exact hi.confirm hK
  | authorize requestId nonce username secret => exact hi.authorize
  | complete requestId nonce totpCode sessionNonce => exact hi.complete
  | save requestId nonce username draws => exact hi.save
  | resume pin => exact hi.resume

def RecoveryState.opening (clock : Instant) (classes : List ClassEconomy) (seats : List Seat)
    (users : List Principal) (passkeys : List PasskeyCredential) (lastNonce : ℕ) : RecoveryState :=
  { clock := clock, classes := classes, seats := seats, users := users, passkeys := passkeys
    requests := [], challenges := [], codes := []
    lastRequestId := 0, lastCodeId := 0, lastNonce := lastNonce, log := [] }

variable {clock : Instant} {classes : List ClassEconomy} {seats : List Seat}
  {users : List Principal} {passkeys : List PasskeyCredential} {lastNonce : ℕ}

theorem opening_invariant :
    RecoveryInvariant K (.opening clock classes seats users passkeys lastNonce) := by
  constructor
  case requestIds => exact List.nodup_nil
  case codeIds => exact List.nodup_nil
  case lawful => trivial
  all_goals simp [RecoveryState.opening]

/-- In every run each completed recovery, each code and each draw is backed by what the log tells
before it, a teacher has one ceremony at a time, and only an active request changes credentials. -/
theorem recovered_accounts_are_backed (hK : Function.Injective K.hmac) (clock : Instant)
    (classes : List ClassEconomy) (seats : List Seat) (users : List Principal)
    (passkeys : List PasskeyCredential) (lastNonce : ℕ) (as : List RecoveryAction) :
    let S₀ := RecoveryState.opening clock classes seats users passkeys lastNonce
    (∀ newer e older, (run (recoveryStep T K) S₀ as).log = newer ++ e :: older →
      Backed K e older) ∧
    OneCeremony (run (recoveryStep T K) S₀ as) ∧
    AllAlong (KeepsCredentials T K) (recoveryStep T K) S₀ as := by
  intro S₀
  have hi : RecoveryInvariant K (run (recoveryStep T K) S₀ as) :=
    run_invariant opening_invariant (fun S a hi ↦ recoveryStep_invariant hi hK a) as
  refine ⟨lawful_iff.1 hi.lawful, hi.oneCeremony, ?_⟩
  exact .of_forall (fun S a ↦ recoveryStep_keepsCredentials a) as

end Runs

section Sample

def sampleKeys : RecoveryKeys :=
  { hmac := String.ofList, resumeDigest := id
    attemptDigest := fun n ↦ String.ofList (Lib.Digits.natText n)
    setupDigest := fun n ↦ String.ofList (Lib.Digits.natText n)
    verifyPassword := fun typed stored ↦ stored = some typed
    totpVerify := fun secret typed _ ↦ secret = typed }

def sampleStudent (id : ℕ) (username : String) : Principal :=
  { id := id, userRole := "student"
    usernameLookupHash := some (hashUsernameLookup sampleTexts username)
    passphraseHash := some "a long phrase" }

def sampleSeat (id userId : ℕ) : Seat :=
  { id := id, userId := some userId, classId := "math", role := "student", claimedAt := some 0 }

/-- A class of three students who have claimed their seats. -/
def sampleSchool : RecoveryState :=
  .opening 10 [⟨"math", "MATH7", 1⟩] [sampleSeat 1 2, sampleSeat 2 3, sampleSeat 3 4]
    [{ id := 1, userRole := "teacher" }, sampleStudent 2 "ada", sampleStudent 3 "bo",
      sampleStudent 4 "cy"] [⟨1, 1⟩] 0

/-- A round that is refused, and the next one that recovers the account. -/
def sampleRecovery : List RecoveryAction :=
  [.beginAttempt [("MATH7", "ada"), ("MATH7", "bo"), ("MATH7", "cy")] none none,
    .select 1 (some 1) "math" (1, 3), .authorize 1 (some 1) "grace" "secret",
    .issue 1 "math" 1 1 2 "a long phrase" 42, .confirm 1 (some 1) "math" "000042",
    .authorize 1 (some 1) "grace" "secret", .complete 1 (some 2) "secret" "session"]

theorem recovered_accounts_are_backed_once : ∃ older,
    (run (recoveryStep sampleTexts sampleKeys) sampleSchool sampleRecovery).log =
      .completed 1 1 ["math"] 1 10 :: older ∧
    Backed sampleKeys (.completed 1 1 ["math"] 1 10) older := by
  have hlog : (run (recoveryStep sampleTexts sampleKeys) sampleSchool sampleRecovery).log.head? =
      some (.completed 1 1 ["math"] 1 10) := by
    decide +kernel
  obtain ⟨older, holder⟩ := List.head?_eq_some_iff.1 hlog
  refine ⟨older, holder, ?_⟩
  have hbacked := recovered_accounts_are_backed (T := sampleTexts) (K := sampleKeys)
    (fun _ _ h ↦ String.ofList_injective h) 10 sampleSchool.classes sampleSchool.seats
    sampleSchool.users sampleSchool.passkeys 0 sampleRecovery
  exact hbacked.1 [] _ older holder

end Sample

end TokenHub.TeacherRecovery
