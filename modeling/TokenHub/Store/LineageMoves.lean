import TokenHub.Store.System

set_option autoImplicit false

namespace TokenHub.Store

open Relation
open Rent (Instant AcquisitionType EntitlementEventType)

section Ended

variable {T : EntitlementTables} {row : EntitlementEvent} {log : HallPassLog} {p : PendingAction}
  {c : String} {i : ℕ}

theorem ended_addEvent : (T.addEvent row).ended c i = true ↔
    T.ended c i = true ∨ row.isTerminal = true ∧ row.classId = c ∧ row.entitlementId = i := by
  rw [ended_iff, ended_iff, terminalRows_addEvent]
  simp only [List.mem_append]
  constructor
  · rintro (⟨e, he | he, hc, hi⟩ | h)
    · exact .inl (.inl ⟨e, he, hc, hi⟩)
    · split_ifs at he with ht
      · rw [List.mem_singleton.1 he] at hc hi
        exact .inr ⟨ht, hc, hi⟩
      · cases he
    · exact .inl (.inr h)
  · rintro ((⟨e, he, hc, hi⟩ | h) | ⟨ht, hc, hi⟩)
    · exact .inl ⟨e, .inl he, hc, hi⟩
    · exact .inr h
    · exact .inl ⟨row, .inr (by simp [ht]), hc, hi⟩

theorem ended_addLog : (T.addLog log).ended c i = true ↔
    T.ended c i = true ∨ log.classId = c ∧ log.hallPassId = some i := by
  rw [ended_iff, ended_iff, terminalRows_addLog]
  simp only [EntitlementTables.addLog, List.mem_append, List.mem_singleton, or_and_right, exists_or,
    exists_eq_left, or_assoc]

@[simp] theorem ended_addRequest : (T.addRequest p).ended c i = T.ended c i := rfl

@[simp] theorem ended_keepRequests {keep : PendingAction → Bool} :
    (T.keepRequests keep).ended c i = T.ended c i := rfl

end Ended

namespace LineageInvariant

variable {L L' : LineageState} {g row : EntitlementEvent} {log : HallPassLog} {p : PendingAction}

theorem ended_grant (hrow : row.eventType = .granted) {c : String} {i : ℕ}
    (h : L.ended c i = false) : (L.addEvent row).ended c i = false := by
  rw [← Bool.not_eq_true, ended_addEvent, isTerminal_of_granted hrow, h]
  simp

theorem grant (h : LineageInvariant L) (hrow : row.eventType = .granted)
    (hid : row.entitlementId = L.uuids) :
    LineageInvariant { L.addEvent row with uuids := L.uuids + 1 } := by
  have hnew : ∀ e ∈ L.entitlementEvents, e.entitlementId ≠ row.entitlementId := by
    intro e he
    have := h.fresh e he
    omega
  have hkeep : ∀ g ∈ L.grantedRows, g ∈ (L.addEvent row).grantedRows := by
    intro g hg
    rw [grantedRows_addEvent]
    exact List.mem_append_left _ hg
  refine { h with
    fresh := ?_, grantsUnique := ?_, endsUnique := ?_, endsOf := ?_, usesOf := ?_
    exclusive := ?_, requestsFresh := ?_, waitingOf := ?_ }
  · intro e he
    rcases List.mem_append.1 he with he | he
    · have := h.fresh e he
      exact Nat.lt_succ_of_lt this
    · rw [List.mem_singleton.1 he, hid]
      exact Nat.lt_succ_self _
  · simp only [grantedRows_addEvent, hrow, if_true, List.map_append, List.map_cons, List.map_nil]
    refine List.nodup_append.2 ⟨h.grantsUnique, by simp, ?_⟩
    rintro i hi j hj rfl
    obtain ⟨g, hg, rfl⟩ := List.mem_map.1 hi
    exact hnew g (List.mem_filter.1 hg).1 (List.mem_singleton.1 hj)
  · simpa [isTerminal_of_granted hrow] using h.endsUnique
  · intro e he
    rw [terminalRows_addEvent, isTerminal_of_granted hrow] at he
    obtain ⟨g, hg, hends⟩ := h.endsOf e (by simpa using he)
    exact ⟨g, hkeep g hg, hends⟩
  · intro l hl i hi
    obtain ⟨g, hg, hrest⟩ := h.usesOf l hl i hi
    exact ⟨g, hkeep g hg, hrest⟩
  · intro e he
    rw [terminalRows_addEvent, isTerminal_of_granted hrow] at he
    exact h.exclusive e (by simpa using he)
  · intro p hp
    exact Nat.lt_succ_of_lt (h.requestsFresh p hp)
  · intro p hp
    obtain ⟨g, hg, hid', hclass, hopen⟩ := h.waitingOf p hp
    exact ⟨g, hkeep g hg, hid', hclass, ended_grant hrow hopen⟩

theorem finish (h : LineageInvariant L) (hg : Held L.toEntitlementTables g) (hrow : Ends g row) :
    LineageInvariant { L.addEvent row with uuids := L.uuids } := by
  obtain ⟨hends, huses⟩ := h.not_ended hg.mem hg.notEnded
  have hwaits := h.not_waiting hg.mem hg.notWaiting
  have hgrants : (L.addEvent row).grantedRows = L.grantedRows := by
    simp [isTerminal_iff.1 hrow.isTerminal]
  refine { h with
    fresh := ?_, grantsUnique := ?_, endsUnique := ?_, endsOf := ?_, usesOf := ?_
    exclusive := ?_, waitingOf := ?_ }
  · intro e he
    rcases List.mem_append.1 he with he | he
    · exact h.fresh e he
    · rw [List.mem_singleton.1 he, hrow.entitlementId]
      exact h.fresh_granted hg.mem
  · simpa only [hgrants] using h.grantsUnique
  · simp only [terminalRows_addEvent, hrow.isTerminal, if_true, List.map_append, List.map_cons,
      List.map_nil]
    refine List.nodup_append.2 ⟨h.endsUnique, by simp, ?_⟩
    rintro i hi j hj rfl
    rw [List.mem_singleton.1 hj, hrow.entitlementId] at hi
    exact hends hi
  · intro e he
    simp only [terminalRows_addEvent, hrow.isTerminal, if_true, List.mem_append,
      List.mem_singleton] at he
    simp only [hgrants]
    rcases he with he | rfl
    · exact h.endsOf e he
    · exact ⟨g, hg.mem, hrow⟩
  · intro l hl i hi
    simp only [hgrants]
    exact h.usesOf l hl i hi
  · intro e he
    simp only [terminalRows_addEvent, hrow.isTerminal, if_true, List.mem_append,
      List.mem_singleton] at he
    rcases he with he | rfl
    · exact h.exclusive e he
    · rw [hrow.entitlementId]
      exact huses
  · intro p hp
    obtain ⟨g', hg', hid, hclass, hopen⟩ := h.waitingOf p hp
    refine ⟨g', by simpa only [hgrants] using hg', hid, hclass, ?_⟩
    rw [← Bool.not_eq_true, ended_addEvent, hopen]
    rintro (habsurd | ⟨-, -, hsame⟩)
    · cases habsurd
    · rw [hrow.entitlementId, hid] at hsame
      exact hwaits (List.mem_map.2 ⟨p, hp, hsame.symm⟩)

theorem use (h : LineageInvariant L) (hg : Held L.toEntitlementTables g)
    (htype : g.entitlementType = .hallPass) (hlog : log.hallPassId = some g.entitlementId)
    (hclass : log.classId = g.classId) :
    LineageInvariant { L.addLog log with uuids := L.uuids } := by
  obtain ⟨hends, huses⟩ := h.not_ended hg.mem hg.notEnded
  have hwaits := h.not_waiting hg.mem hg.notWaiting
  have hused : (L.addLog log).usedPasses = L.usedPasses ++ [g.entitlementId] := by
    simp [hlog]
  refine { h with usesUnique := ?_, usesOf := ?_, exclusive := ?_, waitingOf := ?_ }
  · simp only [hused]
    refine List.nodup_append.2 ⟨h.usesUnique, by simp, ?_⟩
    rintro i hi j hj rfl
    rw [List.mem_singleton.1 hj] at hi
    exact huses hi
  · intro l hl i hi
    rcases List.mem_append.1 hl with hl | hl
    · exact h.usesOf l hl i hi
    · rw [List.mem_singleton.1 hl] at hi ⊢
      rw [hlog, Option.some.injEq] at hi
      exact ⟨g, hg.mem, hi, hclass.symm, htype⟩
  · intro e he
    simp only [hused, List.mem_append, List.mem_singleton, not_or]
    refine ⟨h.exclusive e he, fun heq ↦ hends (List.mem_map.2 ⟨e, he, heq⟩)⟩
  · intro p hp
    obtain ⟨g', hg', hid, hclass', hopen⟩ := h.waitingOf p hp
    refine ⟨g', hg', hid, hclass', ?_⟩
    rw [← Bool.not_eq_true, ended_addLog, hopen]
    rintro (habsurd | ⟨-, hsame⟩)
    · cases habsurd
    · rw [hlog, Option.some.injEq, hid] at hsame
      exact hwaits (List.mem_map.2 ⟨p, hp, hsame.symm⟩)

theorem plainLog (h : LineageInvariant L) (hlog : log.hallPassId = none) :
    LineageInvariant { L.addLog log with uuids := L.uuids } := by
  have hused : (L.addLog log).usedPasses = L.usedPasses := by
    simp [hlog]
  refine { h with usesUnique := ?_, usesOf := ?_, exclusive := ?_, waitingOf := ?_ }
  · simpa only [hused] using h.usesUnique
  · intro l hl i hi
    rcases List.mem_append.1 hl with hl | hl
    · exact h.usesOf l hl i hi
    · rw [List.mem_singleton.1 hl, hlog] at hi
      cases hi
  · intro e he
    simp only [hused]
    exact h.exclusive e he
  · intro p hp
    obtain ⟨g, hg, hid, hclass, hopen⟩ := h.waitingOf p hp
    refine ⟨g, hg, hid, hclass, ?_⟩
    rw [← Bool.not_eq_true, ended_addLog, hopen, hlog]
    simp

/-- A new request waits on its item alone, or on none. -/
theorem addRequest (h : LineageInvariant L) (hid : p.pendingActionId = L.uuids)
    (houtcome : p.outcome = none)
    (hfeat : p.kind = some .hallPassRequest → p.authoritativeFeat = "FEAT-PROD-002" ∧
      ∀ q ∈ L.pendingActions, q.kind = some .hallPassRequest → q.classId = p.classId →
        q.seatId ≠ p.seatId)
    (hitem : p.isUnresolved = true → ∃ g, Held L.toEntitlementTables g ∧
      p.entitlementId = g.entitlementId ∧ p.classId = g.classId) :
    LineageInvariant { L.addRequest p with uuids := L.uuids + 1 } := by
  refine { h with
    fresh := ?_, requestsFresh := ?_, requestsUnique := ?_, requestsOpen := ?_
    requestsFeat := ?_, waitingUnique := ?_, waitingOf := ?_, oneHallPassRequest := ?_ }
  · exact fun e he ↦ Nat.lt_succ_of_lt (h.fresh e he)
  · intro q hq
    rcases List.mem_append.1 hq with hq | hq
    · exact Nat.lt_succ_of_lt (h.requestsFresh q hq)
    · rw [List.mem_singleton.1 hq, hid]
      exact Nat.lt_succ_self _
  · simp only [EntitlementTables.addRequest, List.map_append, List.map_cons, List.map_nil]
    refine List.nodup_append.2 ⟨h.requestsUnique, by simp, ?_⟩
    rintro i hi j hj rfl
    obtain ⟨q, hq, hqi⟩ := List.mem_map.1 hi
    have := h.requestsFresh q hq
    rw [List.mem_singleton.1 hj, hid] at hqi
    omega
  · intro q hq
    rcases List.mem_append.1 hq with hq | hq
    · exact h.requestsOpen q hq
    · rwa [List.mem_singleton.1 hq]
  · intro q hq hkind
    rcases List.mem_append.1 hq with hq | hq
    · exact h.requestsFeat q hq hkind
    · rw [List.mem_singleton.1 hq] at hkind ⊢
      exact (hfeat hkind).1
  · simp only [waitingRows_addRequest, List.map_append]
    split_ifs with hwaits
    · obtain ⟨g, hg, hsame, -⟩ := hitem hwaits
      refine List.nodup_append.2 ⟨h.waitingUnique, by simp, ?_⟩
      rintro i hi j hj rfl
      rw [List.map_cons, List.map_nil, List.mem_singleton] at hj
      rw [hj, hsame] at hi
      exact h.not_waiting hg.mem hg.notWaiting hi
    · simpa using h.waitingUnique
  · intro q hq
    simp only [waitingRows_addRequest, List.mem_append] at hq
    rcases hq with hq | hq
    · exact h.waitingOf q hq
    · split_ifs at hq with hwaits
      · obtain ⟨g, hg, hsame, hclass⟩ := hitem hwaits
        rw [List.mem_singleton.1 hq]
        exact ⟨g, hg.mem, hsame.symm, hclass.symm, hg.notEnded⟩
      · cases hq
  · simp only [EntitlementTables.addRequest, List.filter_append, List.map_append]
    refine List.nodup_append.2 ⟨h.oneHallPassRequest, ?_, ?_⟩
    · exact List.Nodup.sublist ((List.filter_sublist).map _) (by simp)
    · rintro k hk k' hk' rfl
      obtain ⟨q, hq, hqk⟩ := List.mem_map.1 hk
      obtain ⟨r, hr, hrk⟩ := List.mem_map.1 hk'
      simp only [List.mem_filter, decide_eq_true_eq, List.mem_singleton] at hq hr
      obtain ⟨rfl, hkind⟩ := hr
      have hsame := hqk.trans hrk.symm
      rw [Prod.mk.injEq] at hsame
      exact (hfeat hkind).2 q hq.1 hq.2 hsame.1 hsame.2

theorem withdraw (h : LineageInvariant L) (keep : PendingAction → Bool) :
    LineageInvariant { L.keepRequests keep with uuids := L.uuids } := by
  have hmem : ∀ p ∈ (L.keepRequests keep).pendingActions, p ∈ L.pendingActions :=
    fun p hp ↦ (List.mem_filter.1 hp).1
  refine { h with
    requestsFresh := ?_, requestsUnique := ?_, requestsOpen := ?_, requestsFeat := ?_
    waitingUnique := ?_, waitingOf := ?_, oneHallPassRequest := ?_ }
  · exact fun p hp ↦ h.requestsFresh p (hmem p hp)
  · exact h.requestsUnique.sublist (List.filter_sublist.map _)
  · exact fun p hp ↦ h.requestsOpen p (hmem p hp)
  · exact fun p hp ↦ h.requestsFeat p (hmem p hp)
  · simp only [waitingRows_keepRequests]
    exact h.waitingUnique.sublist (List.filter_sublist.map _)
  · intro p hp
    simp only [waitingRows_keepRequests] at hp
    exact h.waitingOf p (List.mem_filter.1 hp).1
  · refine h.oneHallPassRequest.sublist (List.Sublist.map _ ?_)
    exact List.filter_sublist.filter _

theorem move (h : LineageInvariant L) (hmove : LineageMove L L') : LineageInvariant L' := by
  cases hmove with
  | grant row hrow hid => exact h.grant hrow hid
  | finish hg row hrow => exact h.finish hg hrow
  | use hg htype log hlog hclass => exact h.use hg htype hlog hclass
  | log log hlog => exact h.plainLog hlog
  | acknowledge p hid hkind houtcome =>
    refine h.addRequest hid houtcome (fun hpass ↦ ?_) (fun hwaits ↦ ?_)
    · rw [hkind] at hpass
      cases hpass
    · simp [PendingAction.isUnresolved, hkind] at hwaits

theorem moves (h : LineageInvariant L) (hmoves : ReflTransGen LineageMove L L') :
    LineageInvariant L' := by
  induction hmoves with
  | refl => exact h
  | tail _ hmove ih => exact ih.move hmove

theorem request (h : LineageInvariant L) (hmove : RequestMove L L') : LineageInvariant L' := by
  cases hmove with
  | submit hg p hid hwaits hitem hclass hfeat =>
    refine h.addRequest hid ?_ hfeat (fun _ ↦ ⟨_, hg, hitem, hclass⟩)
    exact (decide_eq_true_eq.mp hwaits).1
  | withdraw keep => exact h.withdraw keep

end LineageInvariant

section Waiting

variable {L L' : LineageState}

theorem LineageMove.keeps_waiting (hmove : LineageMove L L') :
    L'.waitingRows = L.waitingRows ∧ L.uuids ≤ L'.uuids ∧
      ∀ p ∈ L.waitingRows, L'.ended p.classId p.entitlementId = true →
        L.ended p.classId p.entitlementId = true := by
  cases hmove with
  | grant row hrow hid =>
    refine ⟨rfl, Nat.le_succ _, fun p _ hended ↦ ?_⟩
    simpa [ended_addEvent, isTerminal_of_granted hrow] using hended
  | finish hg row hrow =>
    refine ⟨rfl, le_rfl, fun p hp hended ↦ ?_⟩
    rcases ended_addEvent.1 hended with hended | ⟨-, hclass, hitem⟩
    · exact hended
    · exact absurd (hitem.symm.trans hrow.entitlementId)
        (hasPendingAction_false_iff.1 hg.notWaiting p hp (hclass.symm.trans hrow.classId))
  | use hg htype log hlog hclass =>
    refine ⟨rfl, le_rfl, fun p hp hended ↦ ?_⟩
    rcases ended_addLog.1 hended with hended | ⟨hclass', hitem⟩
    · exact hended
    · rw [hlog, Option.some.injEq] at hitem
      exact absurd hitem.symm
        (hasPendingAction_false_iff.1 hg.notWaiting p hp (hclass'.symm.trans hclass))
  | log log hlog =>
    refine ⟨rfl, le_rfl, fun p _ hended ↦ ?_⟩
    simpa [ended_addLog, hlog] using hended
  | acknowledge p hid hkind houtcome =>
    have hdone : p.isUnresolved = false := by
      simp [PendingAction.isUnresolved, hkind]
    exact ⟨by simp [hdone], Nat.le_succ _, fun q _ hended ↦ hended⟩

theorem moves_keep_waiting (hmoves : ReflTransGen LineageMove L L') :
    L'.waitingRows = L.waitingRows ∧ L.uuids ≤ L'.uuids ∧
      ∀ p ∈ L.waitingRows, L'.ended p.classId p.entitlementId = true →
        L.ended p.classId p.entitlementId = true := by
  induction hmoves with
  | refl => exact ⟨rfl, le_rfl, fun _ _ h ↦ h⟩
  | tail _ hmove ih =>
    obtain ⟨hrows, hle, hended⟩ := ih
    obtain ⟨hrows', hle', hended'⟩ := hmove.keeps_waiting
    refine ⟨hrows'.trans hrows, hle.trans hle', fun p hp h ↦ hended p hp (hended' p ?_ h)⟩
    rw [hrows]
    exact hp

end Waiting

end TokenHub.Store
