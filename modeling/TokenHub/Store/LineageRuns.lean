import TokenHub.Store.CommandSteps
import TokenHub.Store.LineageBalance
import TokenHub.HallPass.DayRuns

set_option autoImplicit false

namespace TokenHub.Store

open Ledger Attendance HallPass Lib.Checks Lib.Runs Relation
open Rent (Instant ClassZone AcquisitionType EntitlementEventType)

variable {env : StoreEnv} {S S' : StoreState} {a : StoreStep} {L L' L'' : LineageState}

section Queue

def EntitlementTables.waitingIds (T : EntitlementTables) : List ℕ :=
  T.waitingRows.map (·.pendingActionId)

structure Queued (L L' : LineageState) : Prop where
  uuids : L.uuids ≤ L'.uuids
  fresh : ∀ p ∈ L'.waitingRows, p ∈ L.waitingRows ∨ L.uuids ≤ p.pendingActionId

theorem Queued.refl (L : LineageState) : Queued L L := ⟨le_rfl, fun _ hp ↦ .inl hp⟩

theorem Queued.trans (h : Queued L L') (h' : Queued L' L'') : Queued L L'' where
  uuids := h.uuids.trans h'.uuids
  fresh := fun p hp ↦ by
    rcases h'.fresh p hp with hp | hnew
    · exact h.fresh p hp
    · exact .inr (h.uuids.trans hnew)

theorem Queued.moves (h : ReflTransGen LineageMove L L') : Queued L L' := by
  obtain ⟨hrows, hle, -⟩ := moves_keep_waiting h
  refine ⟨hle, fun p hp ↦ .inl ?_⟩
  rwa [hrows] at hp

theorem Queued.requests (h : ReflTransGen RequestMove L L') : Queued L L' := by
  induction h with
  | refl => exact .refl L
  | tail _ hmove ih =>
    refine ih.trans ?_
    cases hmove with
    | submit hg p hid hwaits hitem hclass hfeat =>
      refine ⟨Nat.le_succ _, fun r hr ↦ ?_⟩
      simp only [waitingRows_addRequest, hwaits, if_true, List.mem_append,
        List.mem_singleton] at hr
      rcases hr with hr | rfl
      · exact .inl hr
      · exact .inr hid.ge
    | withdraw keep =>
      refine ⟨le_rfl, fun r hr ↦ .inl ?_⟩
      simp only [waitingRows_keepRequests] at hr
      exact (List.mem_filter.1 hr).1

theorem Decision.waitingRows {requestId : ℕ} (h : Decision requestId L L') :
    L'.waitingRows = L.waitingRows.filter (·.pendingActionId ≠ requestId) ∧
      requestId ∈ L.waitingIds ∧ L.uuids ≤ L'.uuids := by
  obtain ⟨hp, hid, -, hmoves⟩ := h
  obtain ⟨hrows, hle, -⟩ := moves_keep_waiting hmoves
  refine ⟨?_, ?_, hle⟩
  · rw [hrows]
    exact waitingRows_keepRequests
  · rw [← hid]
    exact List.mem_map_of_mem hp

theorem Queued.decision {requestId : ℕ} (h : Decision requestId L L') : Queued L L' := by
  obtain ⟨hrows, -, hle⟩ := h.waitingRows
  refine ⟨hle, fun p hp ↦ .inl ?_⟩
  rw [hrows] at hp
  exact (List.mem_filter.1 hp).1

end Queue

section Steps

theorem LineageInvariant.requests (h : LineageInvariant L) (hmoves : ReflTransGen RequestMove L L') :
    LineageInvariant L' := by
  induction hmoves with
  | refl => exact h
  | tail _ hmove ih => exact ih.request hmove

theorem LineageInvariant.decision {requestId : ℕ} (h : LineageInvariant L)
    (hd : Decision requestId L L') : LineageInvariant L' := by
  obtain ⟨-, -, -, hmoves⟩ := hd
  exact (h.withdraw _).moves hmoves

theorem LineageInvariant.effected (h : LineageInvariant S.lineages) (he : Effected env S a S') :
    LineageInvariant S'.lineages ∧ Queued S.lineages S'.lineages := by
  cases he with
  | wrote hmoves => exact ⟨h.moves hmoves, .moves hmoves⟩
  | queued hmoves => exact ⟨h.requests hmoves, .requests hmoves⟩
  | decided requestId _ hdecision => exact ⟨h.decision hdecision, .decision hdecision⟩

theorem requests_keep_ended (hmoves : ReflTransGen RequestMove L L') (classId : String) (i : ℕ) :
    L'.ended classId i = L.ended classId i := by
  induction hmoves with
  | refl => rfl
  | tail _ hmove ih =>
    rw [← ih]
    cases hmove with
    | submit => rfl
    | withdraw => rfl

theorem Effected.waiting_item (h : LineageInvariant S.lineages) (he : Effected env S a S')
    {p : PendingAction} (hp : p ∈ S.waitingRows)
    (hended : S'.ended p.classId p.entitlementId = true) :
    decidedRequest env S a = some p.pendingActionId := by
  obtain ⟨g, -, hid, hclass, hopen⟩ := h.waitingOf p hp
  rw [hid, hclass] at hopen
  have hbefore : S.ended p.classId p.entitlementId = false := hopen
  cases he with
  | wrote hmoves =>
    have habsurd : S.ended p.classId p.entitlementId = true :=
      (moves_keep_waiting hmoves).2.2 p hp hended
    rw [hbefore] at habsurd
    cases habsurd
  | queued hmoves =>
    have hsame : S'.ended p.classId p.entitlementId = S.ended p.classId p.entitlementId :=
      requests_keep_ended hmoves p.classId p.entitlementId
    rw [hsame, hbefore] at hended
    cases hended
  | decided requestId hdecided hdecision =>
    obtain ⟨hq, hqid, hitem, hmoves⟩ := hdecision
    -- only the item of the request that was decided on can have ended
    have hwaits : ∀ r ∈ S.waitingRows, r.pendingActionId ≠ requestId →
        S'.ended r.classId r.entitlementId = false := by
      intro r hr hne
      rw [← Bool.not_eq_true]
      intro hr'
      have hkept : r ∈ (S.toEntitlementTables.keepRequests
          (·.pendingActionId ≠ requestId)).waitingRows := by
        rw [waitingRows_keepRequests]
        exact List.mem_filter.2 ⟨hr, by simpa using hne⟩
      obtain ⟨g', -, hid', hclass', hopen'⟩ := h.waitingOf r hr
      rw [hid', hclass'] at hopen'
      have habsurd : S.lineages.ended r.classId r.entitlementId = true :=
        (moves_keep_waiting hmoves).2.2 r hkept hr'
      rw [hopen'] at habsurd
      cases habsurd
    by_cases hsame : p.pendingActionId = requestId
    · rw [hsame, hdecided]
    · rw [hwaits p hp hsame] at hended
      cases hended

/-- An accepted decision is on a request that waits, and that does not wait any longer. -/
theorem Effected.decides (he : Effected env S a S') {requestId : ℕ}
    (hd : decidedRequest env S a = some requestId) :
    requestId ∈ S.waitingIds ∧ requestId ∉ S'.waitingIds := by
  cases he with
  | wrote _ hnone =>
    rw [hnone] at hd
    cases hd
  | queued _ hnone =>
    rw [hnone] at hd
    cases hd
  | decided id hdecided hdecision =>
    rw [hd, Option.some.injEq] at hdecided
    subst hdecided
    obtain ⟨hrows, hmem, -⟩ := hdecision.waitingRows
    refine ⟨hmem, fun hafter ↦ ?_⟩
    obtain ⟨p, hp, hid⟩ := List.mem_map.1 hafter
    have hp' : p ∈ S'.lineages.waitingRows := hp
    rw [hrows, List.mem_filter] at hp'
    simp [hid] at hp'

end Steps

section Runs

def requestsMade (S S' : EntitlementTables) : List ℕ :=
  S'.waitingIds.filter (· ∉ S.waitingIds)

def requestsResolved (S S' : EntitlementTables) : List ℕ :=
  S.waitingIds.filter (· ∉ S'.waitingIds)

def alongRun {β : Type} (yields : EntitlementTables → EntitlementTables → List β)
    (env : StoreEnv) : StoreState → List StoreStep → List β
  | _, [] => []
  | S, a :: as => yields S.toEntitlementTables (storeStep env S a).toEntitlementTables ++
      alongRun yields env (storeStep env S a) as

theorem waitingIds_nodup (h : LineageInvariant L) : L.waitingIds.Nodup :=
  h.requestsUnique.sublist (List.filter_sublist.map _)

theorem count_filter_not_mem {xs ys : List ℕ} (i : ℕ) :
    (xs.filter (· ∉ ys)).count i = if i ∈ ys then 0 else xs.count i := by
  split_ifs with hi
  · rw [List.count_eq_zero, List.mem_filter]
    simp [hi]
  · exact List.count_filter (by simpa using hi)

/-- A step's requests balance: what waited or came has gone or waits. -/
theorem count_step (h : LineageInvariant L) (h' : LineageInvariant L') (i : ℕ) :
    L.waitingIds.count i + (requestsMade L.toEntitlementTables L'.toEntitlementTables).count i =
      (requestsResolved L.toEntitlementTables L'.toEntitlementTables).count i +
        L'.waitingIds.count i := by
  rw [requestsMade, requestsResolved, count_filter_not_mem, count_filter_not_mem]
  have hone := List.nodup_iff_count_le_one.1 (waitingIds_nodup h) i
  have hone' := List.nodup_iff_count_le_one.1 (waitingIds_nodup h') i
  have hmem := List.count_pos_iff (a := i) (l := L.waitingIds)
  have hmem' := List.count_pos_iff (a := i) (l := L'.waitingIds)
  split_ifs with hi hi' hi'
  · have := hmem.2 hi
    have := hmem'.2 hi'
    omega
  · have := List.count_eq_zero.2 hi'
    omega
  · have := List.count_eq_zero.2 hi
    omega
  · have := List.count_eq_zero.2 hi
    have := List.count_eq_zero.2 hi'
    omega

theorem mem_requestsMade (hq : Queued L L') {i : ℕ}
    (h : i ∈ requestsMade L.toEntitlementTables L'.toEntitlementTables) : L.uuids ≤ i := by
  obtain ⟨hafter, hbefore⟩ := List.mem_filter.1 h
  obtain ⟨p, hp, rfl⟩ := List.mem_map.1 hafter
  rcases hq.fresh p hp with hold | hnew
  · exact absurd (List.mem_map_of_mem hold) (of_decide_eq_true hbefore)
  · exact hnew

structure LineageRun (env : StoreEnv) (S : StoreState) (as : List StoreStep) : Prop where
  invariant : LineageInvariant (run (storeStep env) S as).lineages
  madeFresh : ∀ i ∈ alongRun requestsMade env S as, S.uuids ≤ i
  madeOnce : (alongRun requestsMade env S as).Nodup
  balanced : ∀ i, S.waitingIds.count i + (alongRun requestsMade env S as).count i =
    (alongRun requestsResolved env S as).count i +
      (run (storeStep env) S as).waitingIds.count i

theorem LineageInvariant.run (h : LineageInvariant S.lineages) {as : List StoreStep}
    (hmeets : AllAlong (fun S a ↦ EndsNoWaitingItem S a.2) (storeStep env) S as) :
    LineageRun env S as := by
  induction as generalizing S with
  | nil => exact ⟨h, by simp [alongRun], by simp [alongRun], by simp [alongRun]⟩
  | cons a as ih =>
    obtain ⟨hmeet, hmeets⟩ := hmeets
    obtain ⟨h', hq⟩ := h.effected (storeStep_effected h hmeet)
    have hrun := ih h' hmeets
    have hmade := fun i (hi : i ∈ requestsMade S.toEntitlementTables
      (storeStep env S a).toEntitlementTables) ↦ mem_requestsMade hq hi
    refine ⟨hrun.invariant, fun i hi ↦ ?_, ?_, fun i ↦ ?_⟩
    · rcases List.mem_append.1 hi with hi | hi
      · exact hmade i hi
      · exact hq.uuids.trans (hrun.madeFresh i hi)
    · refine List.nodup_append.2 ⟨(waitingIds_nodup h').filter _, hrun.madeOnce, ?_⟩
      intro i hi j hj
      obtain ⟨p, hp, rfl⟩ := List.mem_map.1 (List.mem_filter.1 hi).1
      have hlt := h'.requestsFresh p (List.mem_filter.1 hp).1
      have hle := hrun.madeFresh j hj
      have hlt' : p.pendingActionId < (storeStep env S a).uuids := hlt
      omega
    · have hstep : S.waitingIds.count i + (requestsMade S.toEntitlementTables
          (storeStep env S a).toEntitlementTables).count i =
          (requestsResolved S.toEntitlementTables
            (storeStep env S a).toEntitlementTables).count i +
            (storeStep env S a).waitingIds.count i := count_step h h' i
      have hrest := hrun.balanced i
      simp only [alongRun, List.count_append, run_cons]
      omega

end Runs

section Main

theorem LineageInvariant.empty (hevents : S.entitlementEvents = []) (hpending : S.pendingActions = [])
    (hlogs : S.hallPassLogs = []) : LineageInvariant S.lineages := by
  have hgrants : S.lineages.grantedRows = [] := by
    simp [EntitlementTables.grantedRows, StoreState.lineages, hevents]
  have hends : S.lineages.terminalRows = [] := by
    simp [EntitlementTables.terminalRows, StoreState.lineages, hevents]
  have hwaiting : S.lineages.waitingRows = [] := by
    simp [EntitlementTables.waitingRows, StoreState.lineages, hpending]
  have hevents' : S.lineages.entitlementEvents = [] := hevents
  have hpending' : S.lineages.pendingActions = [] := hpending
  have hlogs' : S.lineages.hallPassLogs = [] := hlogs
  constructor <;>
    simp [hgrants, hends, hwaiting, hevents', hpending', hlogs', EntitlementTables.usedPasses]

/-- Every lineage ends at most once; a request keeps its item until it is decided on, alone, and is
resolved once; and the balances count what is left. -/
theorem entitlements_end_once (env : StoreEnv) (S₀ : StoreState)
    (hevents : S₀.entitlementEvents = []) (hpending : S₀.pendingActions = [])
    (hlogs : S₀.hallPassLogs = []) (steps : List StoreStep)
    (hmeets : AllAlong (fun S a ↦ EndsNoWaitingItem S a.2) (storeStep env) S₀ steps) :
    let S := run (storeStep env) S₀ steps
    let made := alongRun requestsMade env S₀ steps
    let resolved := alongRun requestsResolved env S₀ steps
    (∀ i, S.endings i ≤ 1) ∧
    AllAlong (fun S a ↦ ∀ p ∈ S.waitingRows,
      (storeStep env S a).ended p.classId p.entitlementId = true →
        decidedRequest env S a = some p.pendingActionId) (storeStep env) S₀ steps ∧
    ((S.waitingRows.filter (·.kind = some .hallPassRequest)).map
      (fun p ↦ (p.classId, p.seatId))).Nodup ∧
    (S.waitingRows.map (·.entitlementId)).Nodup ∧
    made.Nodup ∧
    (∀ i, made.count i = resolved.count i + S.waitingIds.count i) ∧
    AllAlong (fun S a ↦ ∀ requestId, decidedRequest env S a = some requestId →
      requestId ∈ S.waitingIds ∧ requestId ∉ (storeStep env S a).waitingIds) (storeStep env) S₀
        steps ∧
    ∀ classId seatId type productId,
      S.getEntitlementBalance classId seatId type productId =
        (S.balanceGrants classId seatId type productId).length -
          ((S.balanceGrants classId seatId type productId).filter
            (fun g ↦ S.ended classId g.entitlementId)).length ∧
      0 ≤ S.getEntitlementBalance classId seatId type productId := by
  have h₀ : LineageInvariant S₀.lineages := .empty hevents hpending hlogs
  have hrun := h₀.run hmeets
  have hstep : ∀ (S : StoreState) (a : StoreStep), LineageInvariant S.lineages →
      EndsNoWaitingItem S a.2 → LineageInvariant (storeStep env S a).lineages :=
    fun S a h hmeet ↦ (h.effected (storeStep_effected h hmeet)).1
  have hi := hrun.invariant
  have hnone : S₀.waitingIds = [] := by
    simp [EntitlementTables.waitingIds, EntitlementTables.waitingRows, hpending]
  refine ⟨hi.endings_le, ?_, ?_, hi.waitingUnique, hrun.madeOnce, fun i ↦ ?_, ?_, ?_⟩
  · refine hmeets.of_invariant h₀ hstep (fun S a h hmeet p hp hended ↦ ?_)
    exact (storeStep_effected h hmeet).waiting_item h hp hended
  · refine hi.oneHallPassRequest.sublist (List.Sublist.map _ ?_)
    exact List.filter_sublist.filter _
  · have hcount := hrun.balanced i
    rw [hnone] at hcount
    simpa using hcount
  · refine hmeets.of_invariant h₀ hstep (fun S a h hmeet requestId hdecided ↦ ?_)
    exact (storeStep_effected h hmeet).decides hdecided
  · intro classId seatId type productId
    have hbalance : (run (storeStep env) S₀ steps).lineages.getEntitlementBalance classId seatId
      type productId = _ := hi.balance_eq
    have hle := List.length_filter_le
      (fun g : EntitlementEvent ↦ (run (storeStep env) S₀ steps).lineages.ended classId g.entitlementId)
      ((run (storeStep env) S₀ steps).lineages.balanceGrants classId seatId type productId)
    refine ⟨hbalance, ?_⟩
    show 0 ≤ (run (storeStep env) S₀ steps).lineages.getEntitlementBalance _ _ _ _
    rw [hbalance]
    omega

def sampleEnv : StoreEnv := ⟨id, id, utcDays, id, fun _ ↦ ""⟩

def redeemedBuyIn : List StoreStep :=
  [(10, .purchase sampleMoment (samplePurchase 1 (some "k") "corr_1")), (12, .useItem 1 0),
    (20, .decideRedemption .approve ⟨"c", 2⟩ (some 1) none)]

theorem entitlements_end_once_redeemed :
    (run (storeStep sampleEnv) (sampleStore (sampleProduct 1000 .collective none))
      redeemedBuyIn).endings 0 ≤ 1 :=
  (entitlements_end_once sampleEnv (sampleStore (sampleProduct 1000 .collective none)) rfl rfl rfl
    redeemedBuyIn (by decide +kernel)).1 0

/-- The expiry of a goal ends a buy-in under its waiting request. -/
theorem goal_expiry_ends_waiting_item :
    let S := run (storeStep sampleEnv) (sampleStore (sampleProduct 1000 .collective none))
      (redeemedBuyIn.take 2)
    let expiry : StoreStep := (100, .expireGoal ⟨sampleProduct 1000 .collective none, 2, "corr_2",
      ⟨"c", none, false⟩, ⟨[], fun _ ↦ false⟩⟩)
    ∃ p ∈ S.waitingRows, (storeStep sampleEnv S expiry).ended p.classId p.entitlementId = true ∧
      decidedRequest sampleEnv S expiry ≠ some p.pendingActionId := by
  decide +kernel

end Main

end TokenHub.Store
