import TokenHub.Store.LineageMoves

set_option autoImplicit false

namespace TokenHub.Store

open Ledger Attendance HallPass Lib.Checks Relation
open Rent (Instant AcquisitionType EntitlementEventType)

abbrev Moves (S S' : StoreState) : Prop :=
  ReflTransGen LineageMove S.lineages S'.lineages

structure Copies (q : EndingRequest) (g : EntitlementEvent) : Prop where
  entitlementId : q.entitlementId = g.entitlementId
  classId : q.classId = g.classId
  targetSeatId : q.targetSeatId = g.targetSeatId
  productId : q.productId = g.productId
  entitlementType : q.entitlementType = g.entitlementType
  acquisitionType : q.acquisitionType = g.acquisitionType

variable {eventIds : ℕ → ℕ} {S S' : StoreState} {g row : EntitlementEvent} {q : EndingRequest}
  {t : Instant}

theorem Copies.ending (actor : ℕ) (correlationId : Option String) :
    Copies (g.ending actor correlationId) g := ⟨rfl, rfl, rfl, rfl, rfl, rfl⟩

theorem Copies.ends (h : Copies q g) {eventType : EntitlementEventType}
    (htype : eventType ≠ .granted) (eventId : ℕ) :
    Ends g { q.row t eventType with eventId := eventId } where
  isTerminal := isTerminal_iff.2 htype
  entitlementId := h.entitlementId
  classId := h.classId
  targetSeatId := h.targetSeatId
  productId := h.productId
  entitlementType := h.entitlementType
  acquisitionType := h.acquisitionType

section Recording

theorem Held.record (h : Held S.toEntitlementTables g)
    (hrow : Ends g { row with eventId := eventIds S.entitlementEvents.length }) :
    Moves S (S.record eventIds row) :=
  .single (.finish (L := S.lineages) h _ hrow)

theorem Held.record_other (h : Held S.toEntitlementTables g)
    (hne : row.entitlementId ≠ g.entitlementId) :
    Held (S.record eventIds row).toEntitlementTables g where
  mem := by
    show g ∈ (S.toEntitlementTables.addEvent _).grantedRows
    rw [grantedRows_addEvent]
    exact List.mem_append_left _ h.mem
  notEnded := by
    show (S.toEntitlementTables.addEvent _).ended _ _ = false
    rw [← Bool.not_eq_true, ended_addEvent, h.notEnded]
    rintro (habsurd | ⟨-, -, hsame⟩)
    · cases habsurd
    · exact hne hsame
  notWaiting := h.notWaiting

theorem foldl_record_moves {β : Type} {rows : β → EntitlementEvent} (grants : β → EntitlementEvent)
    {bs : List β} (hheld : ∀ b ∈ bs, Held S.toEntitlementTables (grants b))
    (hends : ∀ b ∈ bs, ∀ n, Ends (grants b) { rows b with eventId := n })
    (hdistinct : (bs.map (fun b ↦ (grants b).entitlementId)).Nodup) :
    Moves S (bs.foldl (fun S b ↦ S.record eventIds (rows b)) S) := by
  induction bs generalizing S with
  | nil => exact .refl
  | cons b bs ih =>
    rw [List.map_cons, List.nodup_cons] at hdistinct
    have hb := hends b (by simp)
    refine ((hheld b (by simp)).record (hb _)).trans
      (ih (fun b' hb' ↦ ?_) (fun b' hb' ↦ hends b' (by simp [hb'])) hdistinct.2)
    refine (hheld b' (by simp [hb'])).record_other (fun heq ↦ ?_)
    exact hdistinct.1 (List.mem_map.2 ⟨b', hb', heq.symm.trans (hb 0).entitlementId⟩)

theorem recordGrant_moves (hrow : row.eventType = .granted) :
    Moves S (S.recordGrant eventIds row) :=
  .single (.grant (L := S.lineages) _ hrow rfl)

theorem recordGrants_moves (hrow : row.eventType = .granted) (n : ℕ) :
    Moves S (S.recordGrants eventIds row n) := by
  induction n generalizing S with
  | zero => exact .refl
  | succ n ih => exact (recordGrant_moves hrow).trans ih

end Recording

section Adding

/-- Rows added to the events, each of which satisfies `P`, and nothing else. -/
def EventsAdded (P : EntitlementEvent → Prop) (S S' : StoreState) : Prop :=
  ∃ rows, S' = { S with entitlementEvents := S.entitlementEvents ++ rows } ∧ ∀ e ∈ rows, P e

variable {P : EntitlementEvent → Prop} {S'' : StoreState}

theorem EventsAdded.refl (S : StoreState) : EventsAdded P S S := ⟨[], by simp, by simp⟩

theorem EventsAdded.trans (h : EventsAdded P S S') (h' : EventsAdded P S' S'') :
    EventsAdded P S S'' := by
  obtain ⟨rows, rfl, hP⟩ := h
  obtain ⟨rows', rfl, hP'⟩ := h'
  refine ⟨rows ++ rows', by simp, fun e he ↦ ?_⟩
  exact (List.mem_append.1 he).elim (hP e) (hP' e)

theorem EventsAdded.record (h : P { row with eventId := eventIds S.entitlementEvents.length }) :
    EventsAdded P S (S.record eventIds row) :=
  ⟨_, rfl, fun e he ↦ by rwa [List.mem_singleton.1 he]⟩

theorem EventsAdded.ended (h : EventsAdded P S S') {classId : String} {i : ℕ}
    (hended : S.ended classId i = true) : S'.ended classId i = true := by
  obtain ⟨rows, rfl, -⟩ := h
  rw [ended_iff] at hended ⊢
  refine hended.imp_left (fun ⟨e, he, hclass, hid⟩ ↦ ⟨e, ?_, hclass, hid⟩)
  exact List.mem_filter.2 ⟨List.mem_append_left _ (List.mem_filter.1 he).1, (List.mem_filter.1 he).2⟩

theorem EventsAdded.granted (h : EventsAdded P S S') (hg : g ∈ S.grantedRows) :
    g ∈ S'.grantedRows := by
  obtain ⟨rows, rfl, -⟩ := h
  exact List.mem_filter.2 ⟨List.mem_append_left _ (List.mem_filter.1 hg).1, (List.mem_filter.1 hg).2⟩

theorem endEach_adds {finish : StoreState → EndingRequest → Except Raise StoreState}
    {P : EntitlementEvent → Prop} {qs : List EndingRequest}
    (hfinish : ∀ q ∈ qs, ∀ S S', finish S q = .ok S' →
      EventsAdded P S S' ∧ S'.ended q.classId q.entitlementId = true)
    (h : endEach finish S qs = .ok S') :
    EventsAdded P S S' ∧ ∀ q ∈ qs, S'.ended q.classId q.entitlementId = true := by
  induction qs generalizing S with
  | nil =>
    rw [endEach, pure_eq_ok] at h
    rw [← h]
    exact ⟨.refl S, fun q hq ↦ absurd hq List.not_mem_nil⟩
  | cons q qs ih =>
    rw [endEach, bind_eq_ok] at h
    obtain ⟨S₁, hq, h⟩ := h
    obtain ⟨hadded, hended⟩ := hfinish q (by simp) S S₁ hq
    obtain ⟨hrest, hall⟩ := ih (fun q' hq' ↦ hfinish q' (by simp [hq'])) h
    refine ⟨hadded.trans hrest, fun q' hq' ↦ ?_⟩
    rcases List.mem_cons.1 hq' with rfl | hq'
    · exact hrest.ended hended
    · exact hall q' hq'

end Adding

section Writers

theorem checkHallPassRequests_ok (h : checkHallPassRequests S q = .ok ())
    (htype : q.entitlementType = .hallPass) :
    S.hasPendingAction q.classId q.entitlementId = false := by
  rw [checkHallPassRequests, if_pos htype, unit_bind_eq_ok, require_eq_ok] at h
  exact h.2

theorem checkUnused_ok : checkUnused S q = .ok () ↔
    S.isUsedHallPass q.classId q.entitlementId = false := require_eq_ok

theorem endEntitlement_ok {eventType : EntitlementEventType}
    (h : endEntitlement eventIds S t eventType q = .ok S') :
    S' = S.record eventIds (q.row t eventType) ∧ S.ended q.classId q.entitlementId = false ∧
      (q.entitlementType = .hallPass → S.hasPendingAction q.classId q.entitlementId = false) := by
  rw [endEntitlement, unit_bind_eq_ok] at h
  obtain ⟨hcheck, h⟩ := h
  split at h
  · cases h
  · next hnone =>
    rw [unit_bind_eq_ok, checkUnused_ok, pure_eq_ok] at h
    refine ⟨h.2.symm, ?_, checkHallPassRequests_ok hcheck⟩
    rw [EntitlementTables.ended, hnone, h.1]
    rfl

theorem expireEntitlement_ok (h : expireEntitlement eventIds S t q = .ok S') :
    S' = S ∨ S' = S.record eventIds (q.row t .expired) ∧
      S.ended q.classId q.entitlementId = false ∧
      (q.entitlementType = .hallPass →
        S.hasPendingAction q.classId q.entitlementId = false) := by
  rw [expireEntitlement, unit_bind_eq_ok] at h
  obtain ⟨hcheck, h⟩ := h
  split at h
  · split_ifs at h
    rw [pure_eq_ok] at h
    exact .inl h.symm
  · next hnone =>
    rw [unit_bind_eq_ok, checkUnused_ok, pure_eq_ok] at h
    refine .inr ⟨h.2.symm, ?_, checkHallPassRequests_ok hcheck⟩
    rw [EntitlementTables.ended, hnone, h.1]
    rfl

theorem expireEntitlement_ended (h : expireEntitlement eventIds S t q = .ok S') :
    S'.ended q.classId q.entitlementId = true := by
  rw [expireEntitlement, unit_bind_eq_ok] at h
  obtain ⟨-, h⟩ := h
  split at h
  · next terminal hterminal =>
    split_ifs at h
    rw [pure_eq_ok] at h
    rw [← h, EntitlementTables.ended, hterminal]
    rfl
  · rw [unit_bind_eq_ok, pure_eq_ok] at h
    rw [← h.2]
    exact ended_addEvent.2 (.inr ⟨rfl, rfl, rfl⟩)

def EndingRequest.WritesRow (q : EndingRequest) (eventType : EntitlementEventType) (t : Instant)
    (e : EntitlementEvent) : Prop :=
  e = { q.row t eventType with eventId := e.eventId }

theorem revokeEach_rows {qs : List EndingRequest}
    (h : endEach (fun S q ↦ revokeEntitlement eventIds S t q) S qs = .ok S') :
    ∃ rows, S' = { S with entitlementEvents := S.entitlementEvents ++ rows } ∧
      List.Forall₂ (fun q e ↦ q.WritesRow .revoked t e) qs rows := by
  induction qs generalizing S with
  | nil =>
    rw [endEach, pure_eq_ok] at h
    exact ⟨[], by simp [h], .nil⟩
  | cons q qs ih =>
    rw [endEach, bind_eq_ok] at h
    obtain ⟨S₁, hq, h⟩ := h
    obtain ⟨rfl, -, -⟩ := endEntitlement_ok hq
    obtain ⟨rows, rfl, hrows⟩ := ih h
    refine ⟨{ q.row t .revoked with eventId := eventIds S.entitlementEvents.length } :: rows,
      by simp [StoreState.record], .cons rfl hrows⟩

theorem expireEach_adds {qs : List EndingRequest}
    (h : endEach (fun S q ↦ expireEntitlement eventIds S t q) S qs = .ok S') :
    EventsAdded (fun e ↦ ∃ q ∈ qs, q.WritesRow .expired t e) S S' ∧
      ∀ q ∈ qs, S'.ended q.classId q.entitlementId = true := by
  refine endEach_adds (fun q hq S S' hend ↦ ?_) h
  refine ⟨?_, expireEntitlement_ended hend⟩
  rcases expireEntitlement_ok hend with rfl | ⟨rfl, -, -⟩
  · exact .refl _
  · exact .record ⟨q, hq, rfl⟩

structure Endable (S : StoreState) (q : EndingRequest) (g : EntitlementEvent) : Prop where
  mem : g ∈ S.grantedRows
  copies : Copies q g
  notWaiting : g.entitlementType ≠ .hallPass →
    S.hasPendingAction g.classId g.entitlementId = false

theorem Endable.held (h : Endable S q g) (hopen : S.ended q.classId q.entitlementId = false)
    (hpass : q.entitlementType = .hallPass →
      S.hasPendingAction q.classId q.entitlementId = false) :
    Held S.toEntitlementTables g where
  mem := h.mem
  notEnded := by rwa [← h.copies.classId, ← h.copies.entitlementId]
  notWaiting := by
    by_cases htype : g.entitlementType = .hallPass
    · rw [← h.copies.classId, ← h.copies.entitlementId]
      exact hpass (h.copies.entitlementType.trans htype)
    · exact h.notWaiting htype

theorem Endable.record (h : Endable S q g) : Endable (S.record eventIds row) q g where
  mem := by
    show g ∈ (S.toEntitlementTables.addEvent _).grantedRows
    rw [grantedRows_addEvent]
    exact List.mem_append_left _ h.mem
  copies := h.copies
  notWaiting := h.notWaiting

theorem endEntitlement_moves {eventType : EntitlementEventType} (htype : eventType ≠ .granted)
    (h : endEntitlement eventIds S t eventType q = .ok S') (hq : Endable S q g) :
    Moves S S' := by
  obtain ⟨rfl, hopen, hpass⟩ := endEntitlement_ok h
  exact (hq.held hopen hpass).record (hq.copies.ends htype _)

theorem expireEntitlement_moves (h : expireEntitlement eventIds S t q = .ok S')
    (hq : Endable S q g) : Moves S S' := by
  rcases expireEntitlement_ok h with rfl | ⟨rfl, hopen, hpass⟩
  · exact .refl
  · exact (hq.held hopen hpass).record (hq.copies.ends (by decide) _)

theorem endEach_moves {finish : StoreState → EndingRequest → Except Raise StoreState}
    (hmoves : ∀ S S' q g, finish S q = .ok S' → Endable S q g → Moves S S')
    (hkeeps : ∀ S S' q q' g', finish S q = .ok S' → Endable S q' g' → Endable S' q' g')
    {qs : List EndingRequest} (hqs : ∀ q ∈ qs, ∃ g, Endable S q g)
    (h : endEach finish S qs = .ok S') : Moves S S' := by
  induction qs generalizing S with
  | nil =>
    rw [endEach, pure_eq_ok] at h
    rw [h]
  | cons q qs ih =>
    rw [endEach, bind_eq_ok] at h
    obtain ⟨S₁, hq, h⟩ := h
    obtain ⟨g, hg⟩ := hqs q (by simp)
    refine (hmoves S S₁ q g hq hg).trans (ih (fun q' hq' ↦ ?_) h)
    obtain ⟨g', hg'⟩ := hqs q' (by simp [hq'])
    exact ⟨g', hkeeps S S₁ q q' g' hq hg'⟩

theorem revokeEach_moves {qs : List EndingRequest} (hqs : ∀ q ∈ qs, ∃ g, Endable S q g)
    (h : endEach (fun S q ↦ revokeEntitlement eventIds S t q) S qs = .ok S') : Moves S S' := by
  refine endEach_moves (fun S S' q g hq ↦ endEntitlement_moves (by decide) hq) ?_ hqs h
  intro S S' q q' g' hq hg'
  obtain ⟨rfl, -, -⟩ := endEntitlement_ok hq
  exact hg'.record

theorem expireEach_moves {qs : List EndingRequest} (hqs : ∀ q ∈ qs, ∃ g, Endable S q g)
    (h : endEach (fun S q ↦ expireEntitlement eventIds S t q) S qs = .ok S') : Moves S S' := by
  refine endEach_moves (fun S S' q g hq ↦ expireEntitlement_moves hq) ?_ hqs h
  intro S S' q q' g' hq hg'
  rcases expireEntitlement_ok hq with rfl | ⟨rfl, -, -⟩
  · exact hg'
  · exact hg'.record

theorem removeHallPasses_moves {seatId : ℕ} {classId : String} {quantity : ℤ} {actor : ℕ}
    {correlationId : String}
    (h : removeHallPasses eventIds S t seatId classId quantity actor correlationId = .ok S') :
    Moves S S' := by
  rw [removeHallPasses, require_bind_eq_ok, unit_bind_eq_ok, require_bind_eq_ok] at h
  obtain ⟨-, -, -, h⟩ := h
  refine revokeEach_moves (fun q hq ↦ ?_) h
  obtain ⟨g, hg, rfl⟩ := List.mem_map.1 hq
  obtain ⟨hsorted, hfree⟩ := List.mem_filter.1 (List.mem_of_mem_take hg)
  rw [List.mem_insertionSort, List.mem_filter, decide_eq_true_eq] at hsorted
  obtain ⟨hmem, -, -, htype, hgranted, -⟩ := hsorted
  refine ⟨g, List.mem_filter.2 ⟨hmem, by simpa using hgranted⟩, .ending _ _, ?_⟩
  exact fun hne ↦ absurd htype hne

theorem expireRentPerks_moves {classId correlationId : String} {actor : ℕ}
    (hi : LineageInvariant S.lineages)
    (h : expireRentPerks eventIds S t classId correlationId actor = .ok S') : Moves S S' := by
  rw [expireRentPerks, require_bind_eq_ok, pure_eq_ok] at h
  obtain ⟨-, rfl⟩ := h
  refine foldl_record_moves id (fun g hg ↦ ?_)
    (fun g _ n ↦ (Copies.ending _ _).ends (by decide) n) ?_
  · obtain ⟨hperk, hfree⟩ := List.mem_filter.1 hg
    obtain ⟨hmem, hperk⟩ := List.mem_filter.1 hperk
    simp only [decide_eq_true_eq, not_or, Bool.not_eq_true] at hperk hfree
    obtain ⟨rfl, -, -, hgranted⟩ := hperk
    exact ⟨List.mem_filter.2 ⟨hmem, by simpa using hgranted⟩, hfree.1, hfree.2⟩
  · refine hi.grantsUnique.sublist (List.Sublist.map _ ?_)
    refine List.filter_sublist.trans ?_
    show List.Sublist (S.entitlementEvents.filter _) (S.entitlementEvents.filter _)
    refine List.monotone_filter_right _ (fun e he ↦ ?_)
    simp only [decide_eq_true_eq] at he ⊢
    exact he.2.2.2

end Writers

section Grants

variable {request : GrantRequest}

theorem grantHallPasses_moves (h : grantHallPasses eventIds S t request = .ok S') :
    Moves S S' := by
  rw [grantHallPasses, require_bind_eq_ok, unit_bind_eq_ok, pure_eq_ok] at h
  rw [← h.2.2]
  exact recordGrants_moves rfl _

theorem grantStoreEntitlements_moves {type : EntitlementType}
    (h : grantStoreEntitlements eventIds S t type request = .ok S') : Moves S S' := by
  rw [grantStoreEntitlements, require_bind_eq_ok, require_bind_eq_ok, require_bind_eq_ok,
    unit_bind_eq_ok, pure_eq_ok] at h
  rw [← h.2.2.2.2]
  exact recordGrants_moves rfl _

theorem grantInsuranceEntitlement_moves
    (h : grantInsuranceEntitlement eventIds S t request = .ok S') : Moves S S' := by
  rw [grantInsuranceEntitlement, require_bind_eq_ok] at h
  obtain ⟨-, h⟩ := h
  split_ifs at h
  · rw [pure_eq_ok] at h
    rw [h]
  · rw [pure_eq_ok] at h
    rw [← h]
    exact recordGrant_moves rfl

end Grants

end TokenHub.Store
