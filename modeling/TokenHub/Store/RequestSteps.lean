import TokenHub.Store.EntitlementSteps
import TokenHub.HallPass.DayMoves

set_option autoImplicit false

namespace TokenHub.Store

open Ledger Attendance HallPass Lib.Checks Relation
open Rent (Instant ClassZone AcquisitionType EntitlementEventType)

abbrev RequestMoves (S S' : StoreState) : Prop :=
  ReflTransGen RequestMove S.lineages S'.lineages

variable {eventIds : ℕ → ℕ} {S S' : StoreState} {g : EntitlementEvent} {p : PendingAction}
  {ctx : ClassContext} {t : Instant} {requestId : ℕ}

section Queue

theorem insertPending_ok (h : S.insertPending p = .ok S') :
    S' = { S with
      pendingActions := S.pendingActions ++ [{ p with pendingActionId := S.uuids }]
      uuids := S.uuids + 1 } := by
  rw [StoreState.insertPending, require_bind_eq_ok, pure_eq_ok] at h
  exact h.2.symm

theorem deletePending_moves (id : ℕ) : RequestMoves S (S.deletePending id) :=
  .single (.withdraw (L := S.lineages) _)

/-- A request that the queue yields waits, for its class, and its deletion is the new state. -/
theorem popPending_some (hi : LineageInvariant S.lineages) {classId : String}
    {seatId : Option ℕ}
    (h : S.popPendingHallPassRequest requestId classId seatId = some (p, S')) :
    p ∈ S.waitingRows ∧ p.classId = classId ∧ p.pendingActionId = requestId ∧
      S' = S.deletePending requestId := by
  rw [StoreState.popPendingHallPassRequest, Option.map_eq_some_iff] at h
  obtain ⟨r, hr, h⟩ := h
  rw [Prod.mk.injEq] at h
  obtain ⟨rfl, rfl⟩ := h
  have hmem : r ∈ S.pendingActions := List.mem_of_find?_eq_some hr
  have hfound := List.find?_some hr
  simp only [PendingAction.isHallPassRequest, decide_eq_true_eq] at hfound
  obtain ⟨⟨hclass, -, hkind⟩, hid, -⟩ := hfound
  refine ⟨List.mem_filter.2 ⟨hmem, ?_⟩, hclass, hid, by rw [hid]⟩
  simp [PendingAction.isUnresolved, hkind, hi.requestsOpen r hmem]

/-- With the request on it gone, an item that it waited on is held again. -/
theorem Held.of_withdrawn (hi : LineageInvariant S.lineages) (hp : p ∈ S.waitingRows)
    (hg : g ∈ S.grantedRows) (hitem : p.entitlementId = g.entitlementId)
    (hopen : S.ended g.classId g.entitlementId = false) :
    Held (S.deletePending p.pendingActionId).toEntitlementTables g where
  mem := hg
  notEnded := hopen
  notWaiting := by
    rw [hasPendingAction_false_iff]
    intro r hr _ hsame
    have hrows : (S.deletePending p.pendingActionId).waitingRows =
        S.waitingRows.filter (·.pendingActionId ≠ p.pendingActionId) :=
      waitingRows_keepRequests (T := S.toEntitlementTables)
    rw [hrows, List.mem_filter, decide_eq_true_eq] at hr
    obtain rfl := List.inj_on_of_nodup_map hi.waitingUnique hr.1 hp (hsame.trans hitem.symm)
    exact hr.2 rfl

end Queue

section HallPasses

theorem availableHallPassGrant_held {seatId : ℕ} {classId : String}
    (h : S.availableHallPassGrant classId seatId = some g) :
    Held S.toEntitlementTables g ∧ g.classId = classId ∧ g.entitlementType = .hallPass := by
  have hmem := List.mem_of_find?_eq_some h
  have hfree := List.find?_some h
  rw [List.mem_insertionSort, List.mem_filter, decide_eq_true_eq] at hmem
  simp only [decide_eq_true_eq, not_or, Bool.not_eq_true] at hfree
  obtain ⟨hrow, -, rfl, htype, hgranted⟩ := hmem
  exact ⟨⟨List.mem_filter.2 ⟨hrow, by simpa using hgranted⟩, hfree.1, hfree.2⟩, rfl, htype⟩

theorem submitHallPassRequest_moves (hi : LineageInvariant S.lineages) {destination : String}
    {requestedAt : Instant} (h : submitHallPassRequest S ctx destination requestedAt = .ok S') :
    RequestMoves S S' := by
  simp only [submitHallPassRequest, demand_bind_eq_ok] at h
  obtain ⟨-, -, -, -, grant, hgrant, h⟩ := h
  obtain rfl := insertPending_ok h
  obtain ⟨hheld, hclass, -⟩ := availableHallPassGrant_held hgrant
  refine .tail (.single (.withdraw (L := S.lineages) (fun p ↦
    ¬ (p.isHallPassRequest ctx.classId ∧ p.seatId = ctx.seatId)))) ?_
  refine .submit (g := grant) hheld _ rfl (by simp [PendingAction.isUnresolved, hallPassRequestRow])
    rfl hclass.symm (fun _ ↦ ⟨rfl, fun q hq hkind hq' hseat ↦ ?_⟩)
  -- the clearing took every other hall-pass request of the seat
  obtain ⟨hmem, hkept⟩ := List.mem_filter.1 hq
  have hclass' : q.classId = ctx.classId := hq'
  have hseat' : q.seatId = ctx.seatId := hseat
  simp [PendingAction.isHallPassRequest, hkind, hi.requestsFeat q hmem hkind, hclass', hseat']
    at hkept

theorem recordHallPassLog_pass {zone : ClassZone} {fold : String → String}
    {isoformat : Instant → String} {P P' : PassState} {classId : String} {log : HallPassLog}
    {request : PassRequest}
    (h : recordHallPassLog zone fold P isoformat classId t request = .ok (log, P')) :
    log.hallPassId = none ∨ ∃ grant, log.hallPassId = some grant.entitlementId ∧
      P.passToUse request.hallPassEntitlementId request.requestedBySeatId classId = .ok grant := by
  unfold recordHallPassLog at h
  simp only [bind_eq_ok] at h
  obtain ⟨-, -, settings, -, usedPass, hused, -, -, h⟩ := h
  rw [pure_eq_ok, Prod.mk.injEq] at h
  rw [← h.1]
  unfold PassState.usedPass at hused
  split_ifs at hused
  · cases hgrant : P.passToUse request.hallPassEntitlementId request.requestedBySeatId classId with
    | error e =>
      rw [hgrant] at hused
      exact absurd hused (by simp [Except.map])
    | ok grant =>
      rw [hgrant] at hused
      obtain rfl : some grant = usedPass := Except.ok.inj hused
      exact .inr ⟨grant, rfl, rfl⟩
  · obtain rfl : none = usedPass := Except.ok.inj hused
    exact .inl rfl

theorem passToUse_ok {P : PassState} {named : Option ℕ} {seatId : ℕ} {classId : String}
    (h : P.passToUse named seatId classId = .ok g) :
    (∃ i, named = some i ∧ P.namedHallPass i seatId classId = some g) ∨
      named = none ∧ P.availableHallPassGrant classId seatId = some g := by
  unfold PassState.passToUse at h
  cases named with
  | none =>
    simp only [demand_bind_eq_ok] at h
    obtain ⟨grant, hgrant, h⟩ := h
    rw [require_bind_eq_ok, pure_eq_ok] at h
    exact .inr ⟨rfl, h.2 ▸ hgrant⟩
  | some i =>
    simp only [demand_bind_eq_ok] at h
    obtain ⟨grant, hgrant, h⟩ := h
    rw [require_bind_eq_ok, pure_eq_ok] at h
    exact .inl ⟨i, rfl, h.2 ▸ hgrant⟩

theorem namedHallPass_mem {P : PassState} {i seatId : ℕ} {classId : String}
    (h : P.namedHallPass i seatId classId = some g) :
    g ∈ P.grantedRows ∧ g.entitlementId = i ∧ g.classId = classId ∧
      g.entitlementType = .hallPass := by
  rw [PassState.namedHallPass, Option.filter_eq_some_iff] at h
  have hmem := List.mem_of_find?_eq_some h.1
  have hfound := List.find?_some h.1
  simp only [decide_eq_true_eq] at hfound
  obtain ⟨hid, hclass, -, htype, hgranted⟩ := hfound
  exact ⟨List.mem_filter.2 ⟨hmem, by simpa using hgranted⟩, hid, hclass, htype⟩

theorem recordHallPass_moves {env : StoreEnv} {classId : String} {holder approver : ℕ}
    {destination : String} {key : Option String}
    (h : recordHallPass env S t classId holder approver destination key = .ok S') :
    Moves S S' := by
  simp only [recordHallPass, bind_eq_ok, Prod.exists] at h
  obtain ⟨log, P, hlog, h⟩ := h
  rw [pure_eq_ok] at h
  obtain ⟨-, hclass, -, -, -, rfl, -⟩ := recordHallPassLog_ok hlog
  rw [← h]
  rcases recordHallPassLog_pass hlog with hnone | ⟨grant, hsome, hpass⟩
  · exact .single (.log (L := S.lineages) log hnone)
  · rcases passToUse_ok hpass with ⟨i, hnamed, -⟩ | ⟨-, hgrant⟩
    · cases hnamed
    · obtain ⟨hheld, hclass', htype⟩ := availableHallPassGrant_held hgrant
      exact .single (.use (L := S.lineages) hheld htype log hsome (hclass.trans hclass'.symm))

theorem approveHallPassRequest_decides (hi : LineageInvariant S.lineages) {zone : ClassZone}
    {fold : String → String} {isoformat : Instant → String} {key : Option String}
    (h : approveHallPassRequest S ctx zone fold isoformat t requestId key = .ok S') :
    Decision requestId S.lineages S'.lineages := by
  simp only [approveHallPassRequest, demand_bind_eq_ok] at h
  obtain ⟨peek, -, h⟩ := h
  rw [require_bind_eq_ok] at h
  simp only [bind_eq_ok, demand_eq_ok, Prod.exists] at h
  obtain ⟨-, seat, -, request, S₁, hpop, log, P, hlog, h⟩ := h
  rw [pure_eq_ok] at h
  obtain ⟨hwaits, hclass, hid, rfl⟩ := popPending_some hi hpop
  obtain ⟨-, hlogClass, -, -, -, rfl, -⟩ := recordHallPassLog_ok hlog
  rw [← h]
  rcases recordHallPassLog_pass hlog with hnone | ⟨grant, hsome, hpass⟩
  · refine .mk hwaits hid (fun i hended ↦ .inl ?_)
      (.single (.log (L := (S.deletePending requestId).lineages) log hnone))
    have hlogged : ((S.deletePending requestId).toEntitlementTables.addLog log).ended
        request.classId i = true := hended
    rcases ended_addLog.1 hlogged with hended | ⟨-, hused⟩
    · exact hended
    · rw [hnone] at hused
      cases hused
  · rcases passToUse_ok hpass with ⟨i, hnamed, hgrant⟩ | ⟨hnamed, -⟩
    · cases hnamed
      obtain ⟨hmem, hitem, hgrantClass, htype⟩ := namedHallPass_mem hgrant
      obtain ⟨g, hg, hgid, hgclass, hopen⟩ := hi.waitingOf request hwaits
      obtain rfl : g = grant := hi.unique_grant hg hmem (hgid.trans hitem.symm)
      have hheld := Held.of_withdrawn hi hwaits hmem hitem.symm hopen
      rw [hid] at hheld
      refine .mk hwaits hid (fun i hended ↦ ?_)
        (.single (.use (L := (S.deletePending requestId).lineages) hheld htype log hsome
          (hlogClass.trans hgrantClass.symm)))
      have hlogged : ((S.deletePending requestId).toEntitlementTables.addLog log).ended
          request.classId i = true := hended
      rcases ended_addLog.1 hlogged with hended | ⟨-, hused⟩
      · exact .inl hended
      · rw [hsome, Option.some.injEq] at hused
        exact .inr (hused.symm.trans hitem)
    · cases hnamed

theorem dropHallPassRequest_ok (hi : LineageInvariant S.lineages) {seatId : Option ℕ}
    (h : dropHallPassRequest S ctx seatId requestId = .ok S') :
    (∃ p ∈ S.waitingRows, p.pendingActionId = requestId) ∧ S' = S.deletePending requestId := by
  simp only [dropHallPassRequest, demand_bind_eq_ok, Prod.exists, pure_eq_ok] at h
  obtain ⟨p, S₁, hpop, rfl⟩ := h
  obtain ⟨hwaits, -, hid, rfl⟩ := popPending_some hi hpop
  exact ⟨⟨p, hwaits, hid⟩, rfl⟩

theorem closePriorDay_moves {zone : ClassZone} :
    RequestMoves S (closePriorDayHallPassRequests S ctx zone t) := by
  simp only [closePriorDayHallPassRequests]
  generalize List.insertionSort (fun a b : PendingAction ↦ a.requester ≤ b.requester) _ = stale
  induction stale generalizing S with
  | nil => exact .refl
  | cons p stale ih =>
    rw [List.foldl_cons]
    refine .trans ?_ ih
    split
    · next r S₁ hpop =>
      rw [StoreState.popPendingHallPassRequest, Option.map_eq_some_iff] at hpop
      obtain ⟨r', -, hr'⟩ := hpop
      rw [← (Prod.mk.inj hr').2]
      exact deletePending_moves _
    · exact .refl

end HallPasses

section Redemptions

theorem latestEntitlementGrant_mem {i : ℕ} (h : S.latestEntitlementGrant i = some g) :
    g ∈ S.grantedRows ∧ g.entitlementId = i := by
  have hmem := List.mem_of_getLast? h
  rw [List.mem_insertionSort, List.mem_filter, decide_eq_true_eq] at hmem
  exact ⟨List.mem_filter.2 ⟨hmem.1, by simpa using hmem.2.2⟩, hmem.2.1⟩

/-- The reads of the redemption route look at every class, so they answer for the item's own. -/
theorem held_of_redeemable (hg : g ∈ S.grantedRows) (hfree : S.isPending g.entitlementId = false)
    (h : S.isRedeemable g = true) : Held S.toEntitlementTables g where
  mem := hg
  notEnded := by
    rw [EntitlementTables.isRedeemable, hfree, Bool.false_or, Bool.and_eq_true,
      Bool.not_eq_true', Bool.not_eq_true'] at h
    rw [← Bool.not_eq_true, EntitlementTables.ended, h.2, Bool.or_false,
      EntitlementTables.terminalEvent, List.find?_isSome]
    rintro ⟨e, he, hends⟩
    have hnone := h.1
    rw [EntitlementTables.hasTerminalEvent, List.any_eq_false] at hnone
    simp only [decide_eq_true_eq] at hends hnone
    exact hnone e he hends.2
  notWaiting := by
    rw [hasPendingAction_false_iff]
    intro p hp _ hitem
    rw [EntitlementTables.isPending, List.any_eq_false] at hfree
    obtain ⟨hmem, hwaits⟩ := List.mem_filter.1 hp
    exact hfree p hmem (by simp [hwaits, hitem])

theorem useItem_moves {seatId entitlementId : ℕ}
    (h : useItem eventIds S seatId t entitlementId = .ok S') :
    Moves S S' ∨ RequestMoves S S' := by
  simp only [useItem, demand_bind_eq_ok, Option.filter_eq_some_iff] at h
  obtain ⟨grant, ⟨hgrant, -⟩, h⟩ := h
  rw [require_bind_eq_ok] at h
  obtain ⟨hredeemable, h⟩ := h
  simp only [demand_bind_eq_ok] at h
  obtain ⟨item, -, h⟩ := h
  rw [require_bind_eq_ok] at h
  obtain ⟨hfree, h⟩ := h
  obtain ⟨hmem, -⟩ := latestEntitlementGrant_mem hgrant
  have hheld := held_of_redeemable hmem hfree hredeemable
  have hrequest : ∀ S', S.insertPending (redemptionRow grant seatId
      (S.pendingActions.filter (·.entitlementId = grant.entitlementId)).length t) = .ok S' →
      RequestMoves S S' := by
    intro S' hins
    rw [insertPending_ok hins]
    exact .single (.submit (L := S.lineages) hheld _ rfl
      (by simp [PendingAction.isUnresolved, redemptionRow]) rfl rfl (fun hkind ↦ by cases hkind))
  cases hitem : item.itemType with
  | immediate =>
    rw [hitem] at h
    rw [require_bind_eq_ok] at h
    exact .inl (endEntitlement_moves (by decide) h.2
      ⟨hmem, .ending _ _, fun _ ↦ hheld.notWaiting⟩)
  | hallPass =>
    rw [hitem] at h
    cases h
  | delayed =>
    rw [hitem] at h
    exact .inr (hrequest S' h)
  | collective =>
    rw [hitem] at h
    exact .inr (hrequest S' h)
  | privilege =>
    rw [hitem] at h
    exact .inr (hrequest S' h)

theorem lockUnresolved_ok {request locked : PendingAction}
    (h : lockUnresolved S request g = .ok locked) :
    locked ∈ S.waitingRows ∧ locked.entitlementId = g.entitlementId ∧
      locked.classId = g.classId ∧ locked.pendingActionId = request.pendingActionId := by
  simp only [lockUnresolved, demand_bind_eq_ok] at h
  obtain ⟨l, hl, h⟩ := h
  rw [require_bind_eq_ok, require_bind_eq_ok, pure_eq_ok] at h
  obtain ⟨⟨houtcome, hkind⟩, ⟨hitem, hclass, -⟩, rfl⟩ := h
  refine ⟨List.mem_filter.2 ⟨List.mem_of_find?_eq_some hl, ?_⟩, hitem, hclass, ?_⟩
  · simp [PendingAction.isUnresolved, houtcome, hkind]
  · simpa using List.find?_some hl

theorem decideRedemption_decides (hi : LineageInvariant S.lineages)
    {decision : RedemptionDecision} {request item : Option ℕ}
    (h : decideRedemption eventIds S decision ctx t request item = .ok (requestId, S')) :
    Decision requestId S.lineages S'.lineages := by
  simp only [decideRedemption, bind_eq_ok, Prod.exists, pure_eq_ok, Prod.mk.injEq] at h
  obtain ⟨found, grant, hload, locked, hlock, S₁, hresolve, rfl, rfl⟩ := h
  obtain ⟨hwaits, hitem, hclass, -⟩ := lockUnresolved_ok hlock
  have hmem : grant ∈ S.grantedRows := by
    rw [loadRedemption, require_bind_eq_ok] at hload
    simp only [demand_bind_eq_ok, Option.filter_eq_some_iff] at hload
    obtain ⟨-, r, -, grant', ⟨hlatest, -⟩, i, -, hload⟩ := hload
    rw [require_bind_eq_ok, pure_eq_ok, Prod.mk.injEq] at hload
    rw [← hload.2.2]
    exact (latestEntitlementGrant_mem hlatest).1
  have hfinish : ∀ eventType, eventType ≠ .granted → endEntitlement eventIds S t eventType
      (grant.ending ctx.seatId (some locked.correlationId)) = .ok S₁ →
      Decision locked.pendingActionId S.lineages
        (S₁.deletePending locked.pendingActionId).lineages := by
    intro eventType htype hend
    obtain ⟨rfl, hopen, -⟩ := endEntitlement_ok hend
    have hheld := Held.of_withdrawn hi hwaits hmem hitem hopen
    refine .mk hwaits rfl (fun i hended ↦ ?_) (.single (.finish
      (L := (S.deletePending locked.pendingActionId).lineages) hheld _
      ((Copies.ending _ _).ends htype _)))
    have hadded : (S.toEntitlementTables.addEvent _).ended locked.classId i = true := hended
    rcases ended_addEvent.1 hadded with hended | ⟨-, -, hsame⟩
    · exact .inl hended
    · exact .inr (hsame.symm.trans hitem.symm)
  cases decision with
  | approve => exact hfinish .consumed (by decide) hresolve
  | deny => exact hfinish .revoked (by decide) hresolve
  | «return» =>
    obtain rfl : S = S₁ := Except.ok.inj hresolve
    exact .mk hwaits rfl (fun i hended ↦ .inl hended) .refl

theorem completeImmediateUse_moves {pendingActionId : ℕ}
    (h : completeImmediateUse S ctx pendingActionId = .ok S') : RequestMoves S S' := by
  simp only [completeImmediateUse, demand_bind_eq_ok] at h
  obtain ⟨locked, -, h⟩ := h
  rw [require_bind_eq_ok, require_bind_eq_ok, pure_eq_ok] at h
  rw [← h.2.2]
  exact deletePending_moves _

end Redemptions

end TokenHub.Store
