import TokenHub.Store.ReversalSteps

set_option autoImplicit false

namespace TokenHub.Store

open Ledger Attendance HallPass Lib.Checks Lib.Runs Relation
open Rent (Instant ClassZone AcquisitionType EntitlementEventType)

variable {env : StoreEnv} {S S' : StoreState} {a : StoreStep}

/-- A caller that ends a lineage copies the data of its grant, and does not end an item that a
request waits on. Of a hall pass the writers themselves check that. -/
def CopiesFreeGrant (S : StoreState) (q : EndingRequest) : Prop :=
  S.ended q.classId q.entitlementId = false → ∃ g ∈ S.grantedRows,
    q = g.ending q.actorSeatId q.correlationId ∧ (g.entitlementType ≠ .hallPass →
      S.hasPendingAction g.classId g.entitlementId = false)

instance (S : StoreState) (q : EndingRequest) : Decidable (CopiesFreeGrant S q) := by
  unfold CopiesFreeGrant; infer_instance

/-- The commands that do not look for waiting requests themselves meet none. -/
def EndsNoWaitingItem (S : StoreState) : StoreAction → Prop
  | .consume q => CopiesFreeGrant S q
  | .expire q => CopiesFreeGrant S q
  | .revoke q => CopiesFreeGrant S q
  | .expireGoal call => NoneWaiting S call
  | _ => True

instance (S : StoreState) (action : StoreAction) : Decidable (EndsNoWaitingItem S action) := by
  unfold EndsNoWaitingItem
  split <;> infer_instance

def decidedRequest (env : StoreEnv) (S : StoreState) : StoreStep → Option ℕ
  | (t, .approveHallPass ctx requestId idempotencyKey) =>
    (approveHallPassRequest S ctx env.zone env.fold env.isoformat t requestId
      idempotencyKey).toOption.map (fun _ ↦ requestId)
  | (_, .rejectHallPass ctx requestId) =>
    (rejectHallPassRequest S ctx requestId).toOption.map (fun _ ↦ requestId)
  | (_, .cancelHallPass ctx requestId) =>
    (cancelHallPassRequest S ctx requestId).toOption.map (fun _ ↦ requestId)
  | (t, .decideRedemption decision ctx requestId entitlementId) =>
    (decideRedemption env.eventIds S decision ctx t requestId entitlementId).toOption.map (·.1)
  | _ => none

inductive Effected (env : StoreEnv) (S : StoreState) (a : StoreStep) (S' : StoreState) : Prop
  | wrote (hmoves : Moves S S') (hnone : decidedRequest env S a = none)
  | queued (hmoves : RequestMoves S S') (hnone : decidedRequest env S a = none)
  | decided (requestId : ℕ) (hdecided : decidedRequest env S a = some requestId)
      (hdecision : Decision requestId S.lineages S'.lineages)

theorem CopiesFreeGrant.endable {q : EndingRequest} (h : CopiesFreeGrant S q)
    (hopen : S.ended q.classId q.entitlementId = false) : ∃ g, Endable S q g := by
  obtain ⟨g, hg, hq, hfree⟩ := h hopen
  refine ⟨g, hg, ?_, hfree⟩
  rw [hq]
  exact .ending _ _

theorem endEntitlement_moves_of_copies {eventIds : ℕ → ℕ} {t : Instant} {q : EndingRequest}
    {eventType : EntitlementEventType} (htype : eventType ≠ .granted) (hq : CopiesFreeGrant S q)
    (h : endEntitlement eventIds S t eventType q = .ok S') : Moves S S' := by
  obtain ⟨-, hopen, -⟩ := endEntitlement_ok h
  obtain ⟨g, hg⟩ := hq.endable hopen
  exact endEntitlement_moves htype h hg

theorem expireEntitlement_moves_of_copies {eventIds : ℕ → ℕ} {t : Instant} {q : EndingRequest}
    (hq : CopiesFreeGrant S q) (h : expireEntitlement eventIds S t q = .ok S') : Moves S S' := by
  rcases expireEntitlement_ok h with rfl | ⟨-, hopen, -⟩
  · exact .refl
  · obtain ⟨g, hg⟩ := hq.endable hopen
    exact expireEntitlement_moves h hg

theorem dropHallPassRequest_decides (hi : LineageInvariant S.lineages) {ctx : ClassContext}
    {seatId : Option ℕ} {requestId : ℕ}
    (h : dropHallPassRequest S ctx seatId requestId = .ok S') :
    Decision requestId S.lineages S'.lineages := by
  obtain ⟨⟨p, hp, hid⟩, rfl⟩ := dropHallPassRequest_ok hi h
  exact .mk hp hid (fun i hended ↦ .inl hended) .refl

theorem perform_ok (hi : LineageInvariant S.lineages) (hmeets : EndsNoWaitingItem S a.2)
    (h : perform env S a = .ok S') : Effected env S a S' := by
  obtain ⟨t, action⟩ := a
  cases action with
  | grantHallPasses q => exact .wrote (grantHallPasses_moves h) rfl
  | grantStoreEntitlements type q => exact .wrote (grantStoreEntitlements_moves h) rfl
  | grantInsuranceEntitlement q => exact .wrote (grantInsuranceEntitlement_moves h) rfl
  | purchase m call =>
    obtain ⟨⟨result, S₁⟩, hbought, rfl⟩ := map_eq_ok.1 h
    exact .wrote (executeStorePurchase_moves hi hbought) rfl
  | consume q => exact .wrote (endEntitlement_moves_of_copies (by decide) hmeets h) rfl
  | expire q => exact .wrote (expireEntitlement_moves_of_copies hmeets h) rfl
  | revoke q => exact .wrote (endEntitlement_moves_of_copies (by decide) hmeets h) rfl
  | removeHallPasses seatId classId quantity actor correlationId =>
    exact .wrote (removeHallPasses_moves h) rfl
  | expireRentPerks classId correlationId actor => exact .wrote (expireRentPerks_moves hi h) rfl
  | voidTransaction call =>
    obtain ⟨⟨row, S₁⟩, hvoided, rfl⟩ := map_eq_ok.1 h
    exact .wrote (executeVoidTransaction_moves hvoided) rfl
  | resolveIssue call =>
    obtain ⟨⟨row, S₁⟩, hresolved, rfl⟩ := map_eq_ok.1 h
    exact .wrote (resolveIssue_moves hresolved) rfl
  | expireGoal call =>
    obtain ⟨⟨result, S₁⟩, hexpired, rfl⟩ := map_eq_ok.1 h
    exact .wrote (expireLapsedCollectiveGoal_moves hmeets hexpired) rfl
  | submitHallPass ctx destination requestedAt =>
    exact .queued (submitHallPassRequest_moves hi h) rfl
  | approveHallPass ctx requestId key =>
    have h' : approveHallPassRequest S ctx env.zone env.fold env.isoformat t requestId key =
      .ok S' := h
    exact .decided requestId (by simp [decidedRequest, h', Except.toOption])
      (approveHallPassRequest_decides hi h')
  | rejectHallPass ctx requestId =>
    have h' : rejectHallPassRequest S ctx requestId = .ok S' := h
    exact .decided requestId (by simp [decidedRequest, h', Except.toOption])
      (dropHallPassRequest_decides hi h')
  | cancelHallPass ctx requestId =>
    have h' : cancelHallPassRequest S ctx requestId = .ok S' := h
    exact .decided requestId (by simp [decidedRequest, h', Except.toOption])
      (dropHallPassRequest_decides hi h')
  | closePriorDay ctx =>
    obtain rfl : closePriorDayHallPassRequests S ctx env.zone t = S' := Except.ok.inj h
    exact .queued closePriorDay_moves rfl
  | recordHallPass classId holder approver destination key =>
    exact .wrote (recordHallPass_moves h) rfl
  | useItem seatId entitlementId =>
    rcases useItem_moves h with hmoves | hmoves
    · exact .wrote hmoves rfl
    · exact .queued hmoves rfl
  | decideRedemption decision ctx requestId entitlementId =>
    obtain ⟨⟨id, S₁⟩, hdecided, rfl⟩ := map_eq_ok.1 h
    exact .decided id (by simp [decidedRequest, hdecided, Except.toOption])
      (decideRedemption_decides hi hdecided)
  | completeImmediateUse ctx pendingActionId =>
    exact .queued (completeImmediateUse_moves h) rfl

theorem decidedRequest_of_error {e : Raise} (h : perform env S a = .error e) :
    decidedRequest env S a = none := by
  obtain ⟨t, action⟩ := a
  cases action with
  | approveHallPass ctx requestId key =>
    have h' : approveHallPassRequest S ctx env.zone env.fold env.isoformat t requestId key =
      .error e := h
    simp [decidedRequest, h', Except.toOption]
  | rejectHallPass ctx requestId =>
    have h' : rejectHallPassRequest S ctx requestId = .error e := h
    simp [decidedRequest, h', Except.toOption]
  | cancelHallPass ctx requestId =>
    have h' : cancelHallPassRequest S ctx requestId = .error e := h
    simp [decidedRequest, h', Except.toOption]
  | decideRedemption decision ctx requestId entitlementId =>
    cases hd : decideRedemption env.eventIds S decision ctx t requestId entitlementId with
    | error e => simp [decidedRequest, hd, Except.toOption]
    | ok out =>
      simp only [perform, hd, Except.map] at h
      cases h
  | _ => rfl

theorem storeStep_effected (hi : LineageInvariant S.lineages)
    (hmeets : EndsNoWaitingItem S a.2) : Effected env S a (storeStep env S a) := by
  unfold storeStep
  split
  · next S' h => exact perform_ok hi hmeets h
  · next e h => exact .wrote .refl (decidedRequest_of_error h)

end TokenHub.Store
