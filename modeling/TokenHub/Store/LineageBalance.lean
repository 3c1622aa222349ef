import TokenHub.Store.LineageMoves
import Mathlib.Data.List.Dedup

set_option autoImplicit false

namespace TokenHub.Store

open Rent (AcquisitionType EntitlementEventType)

variable {L : LineageState}

section Endings

/-- How often a lineage has ended: its terminal events, and the logs that name it. -/
def EntitlementTables.endings (T : EntitlementTables) (entitlementId : ℕ) : ℕ :=
  (T.terminalRows.map (·.entitlementId)).count entitlementId + T.usedPasses.count entitlementId

theorem LineageInvariant.endings_le (h : LineageInvariant L) (i : ℕ) : L.endings i ≤ 1 := by
  have hevents := List.nodup_iff_count_le_one.1 h.endsUnique i
  have hlogs := List.nodup_iff_count_le_one.1 h.usesUnique i
  unfold EntitlementTables.endings
  by_cases hmem : i ∈ L.terminalRows.map (·.entitlementId)
  · obtain ⟨e, he, rfl⟩ := List.mem_map.1 hmem
    have hunused := List.count_eq_zero.2 (h.exclusive e he)
    omega
  · have hopen := List.count_eq_zero.2 hmem
    omega

end Endings

section Balance

variable {classId : String} {seatId : ℕ} {type : EntitlementType} {productId : Option String}

def EntitlementTables.balanceGrants (T : EntitlementTables) (classId : String) (seatId : ℕ)
    (type : EntitlementType) (productId : Option String) : List EntitlementEvent :=
  T.balanceRows classId seatId type productId (·.eventType = .granted)

theorem length_eq_of_ids {xs : List EntitlementEvent} {ids : List ℕ}
    (hxs : (xs.map (·.entitlementId)).Nodup) (hids : ids.Nodup)
    (h : ∀ i, i ∈ ids ↔ ∃ g ∈ xs, g.entitlementId = i) : ids.length = xs.length := by
  have hperm := (List.perm_ext_iff_of_nodup hids hxs).2
    (fun i ↦ (h i).trans (by rw [List.mem_map]))
  rw [hperm.length_eq, List.length_map]

theorem mem_balanceRows {T : EntitlementTables} {counted : EntitlementEvent → Bool}
    {e : EntitlementEvent} : e ∈ T.balanceRows classId seatId type productId counted ↔
      e ∈ T.entitlementEvents ∧ e.targetSeatId = seatId ∧ e.classId = classId ∧
        e.entitlementType = type ∧ counted e ∧ productId.all (fun p ↦ e.productId = some p) := by
  rw [EntitlementTables.balanceRows, List.mem_filter, decide_eq_true_eq]

theorem mem_balanceGrants {T : EntitlementTables} {g : EntitlementEvent} :
    g ∈ T.balanceGrants classId seatId type productId ↔ g ∈ T.grantedRows ∧
      g.targetSeatId = seatId ∧ g.classId = classId ∧ g.entitlementType = type ∧
        productId.all (fun p ↦ g.productId = some p) := by
  rw [EntitlementTables.balanceGrants, mem_balanceRows, EntitlementTables.grantedRows,
    List.mem_filter]
  simp only [decide_eq_true_eq]
  constructor
  · rintro ⟨hmem, hseat, hclass, htype, hgranted, hproduct⟩
    exact ⟨⟨hmem, hgranted⟩, hseat, hclass, htype, hproduct⟩
  · rintro ⟨⟨hmem, hgranted⟩, hseat, hclass, htype, hproduct⟩
    exact ⟨hmem, hseat, hclass, htype, hgranted, hproduct⟩

/-- The terminal rows that a balance counts are those of the grants that it counts. -/
theorem LineageInvariant.mem_terminalIds (h : LineageInvariant L) (i : ℕ) :
    i ∈ (L.balanceRows classId seatId type productId (·.isTerminal)).map (·.entitlementId) ↔
      ∃ g ∈ (L.balanceGrants classId seatId type productId).filter
        (fun g ↦ g.entitlementId ∈ L.terminalRows.map (·.entitlementId)),
        g.entitlementId = i := by
  constructor
  · intro hmem
    obtain ⟨e, he, rfl⟩ := List.mem_map.1 hmem
    obtain ⟨hrow, hseat, hclass, htype, hterminal, hproduct⟩ := mem_balanceRows.1 he
    have hends : e ∈ L.terminalRows := List.mem_filter.2 ⟨hrow, hterminal⟩
    obtain ⟨g, hg, hcopy⟩ := h.endsOf e hends
    refine ⟨g, List.mem_filter.2 ⟨mem_balanceGrants.2 ⟨hg, hcopy.targetSeatId ▸ hseat,
      hcopy.classId ▸ hclass, hcopy.entitlementType ▸ htype, hcopy.productId ▸ hproduct⟩, ?_⟩,
      hcopy.entitlementId.symm⟩
    rw [decide_eq_true_eq, ← hcopy.entitlementId]
    exact List.mem_map_of_mem hends
  · rintro ⟨g, hg, rfl⟩
    obtain ⟨hmem, hended⟩ := List.mem_filter.1 hg
    obtain ⟨hrow, hseat, hclass, htype, hproduct⟩ := mem_balanceGrants.1 hmem
    rw [decide_eq_true_eq] at hended
    obtain ⟨e, he, hid⟩ := List.mem_map.1 hended
    obtain ⟨g', hg', hcopy⟩ := h.endsOf e he
    obtain rfl := h.unique_grant hrow hg' (hid.symm.trans hcopy.entitlementId)
    obtain ⟨he', hterminal⟩ := List.mem_filter.1 he
    rw [← hid]
    refine List.mem_map_of_mem (mem_balanceRows.2 ⟨he', hcopy.targetSeatId.trans hseat,
      hcopy.classId.trans hclass, hcopy.entitlementType.trans htype, hterminal, ?_⟩)
    rw [hcopy.productId]
    exact hproduct

/-- The passes that logs alone end are those of the grants that the balance counts. -/
theorem LineageInvariant.mem_loggedOnly (h : LineageInvariant L) (i : ℕ) :
    i ∈ L.loggedOnly classId (L.balanceGrants classId seatId .hallPass productId)
        (L.balanceRows classId seatId .hallPass productId (·.isTerminal)) ↔
      ∃ g ∈ (L.balanceGrants classId seatId .hallPass productId).filter
        (fun g ↦ g.entitlementId ∉ L.terminalRows.map (·.entitlementId) ∧
          g.entitlementId ∈ L.usedPasses), g.entitlementId = i := by
  simp only [EntitlementTables.loggedOnly, List.mem_filter, List.mem_dedup, decide_eq_true_eq,
    h.mem_terminalIds]
  constructor
  · rintro ⟨hlogged, hgranted, hopen⟩
    obtain ⟨g, hg, rfl⟩ := List.mem_map.1 hgranted
    refine ⟨g, ⟨hg, fun hended ↦ hopen ⟨g, ⟨hg, hended⟩, rfl⟩, ?_⟩, rfl⟩
    obtain ⟨l, hl, hid⟩ := List.mem_filterMap.1 hlogged
    exact List.mem_filterMap.2 ⟨l, (List.mem_filter.1 hl).1, hid⟩
  · rintro ⟨g, ⟨hg, hopen, hused⟩, rfl⟩
    obtain ⟨hrow, -, hclass, -, -⟩ := mem_balanceGrants.1 hg
    refine ⟨?_, List.mem_map_of_mem hg, fun ⟨g', ⟨hg', hended⟩, hsame⟩ ↦ hopen (hsame ▸ hended)⟩
    obtain ⟨l, hl, hid⟩ := List.mem_filterMap.1 hused
    obtain ⟨g', hg', hgid, hgclass, -⟩ := h.usesOf l hl _ hid
    obtain rfl := h.unique_grant hrow hg' hgid.symm
    have hclass' : l.classId = classId := hgclass.symm.trans hclass
    exact List.mem_filterMap.2 ⟨l, List.mem_filter.2 ⟨hl, decide_eq_true hclass'⟩, hid⟩

theorem LineageInvariant.ended_grant_iff (h : LineageInvariant L) {g : EntitlementEvent}
    (hg : g ∈ L.grantedRows) : L.ended g.classId g.entitlementId = true ↔
      g.entitlementId ∈ L.terminalRows.map (·.entitlementId) ∨ g.entitlementId ∈ L.usedPasses := by
  constructor
  · intro hended
    rcases ended_iff.1 hended with ⟨e, he, -, hid⟩ | ⟨l, hl, -, hid⟩
    · exact .inl (hid ▸ List.mem_map_of_mem he)
    · exact .inr (List.mem_filterMap.2 ⟨l, hl, hid⟩)
  · intro hmem
    by_contra hopen
    obtain ⟨hevents, hlogs⟩ := h.not_ended hg (by simpa using hopen)
    exact hmem.elim hevents hlogs

theorem length_filter_or {α : Type} (p q : α → Bool) (xs : List α) :
    (xs.filter (fun x ↦ p x || q x)).length =
      (xs.filter p).length + (xs.filter (fun x ↦ !p x && q x)).length := by
  induction xs with
  | nil => rfl
  | cons x xs ih =>
    simp only [List.filter_cons]
    cases p x <;> cases q x <;> simp [ih] <;> omega

theorem LineageInvariant.balance_eq (h : LineageInvariant L) :
    L.getEntitlementBalance classId seatId type productId =
      (L.balanceGrants classId seatId type productId).length -
        ((L.balanceGrants classId seatId type productId).filter
          (fun g ↦ L.ended classId g.entitlementId)).length := by
  have hnodup : ∀ p : EntitlementEvent → Bool, (((L.balanceGrants classId seatId type
      productId).filter p).map (·.entitlementId)).Nodup := by
    intro p
    refine h.grantsUnique.sublist (List.Sublist.map _ (List.filter_sublist.trans ?_))
    show List.Sublist (L.entitlementEvents.filter _) (L.entitlementEvents.filter _)
    refine List.monotone_filter_right _ (fun e he ↦ ?_)
    simp only [decide_eq_true_eq] at he ⊢
    exact he.2.2.2.1
  have hended : (L.balanceGrants classId seatId type productId).filter
      (fun g ↦ L.ended classId g.entitlementId) =
      (L.balanceGrants classId seatId type productId).filter (fun g ↦
        decide (g.entitlementId ∈ L.terminalRows.map (·.entitlementId)) ||
          decide (g.entitlementId ∈ L.usedPasses)) := by
    refine List.filter_congr (fun g hg ↦ ?_)
    obtain ⟨hrow, -, hclass, -, -⟩ := mem_balanceGrants.1 hg
    rw [Bool.eq_iff_iff, ← hclass, h.ended_grant_iff hrow]
    simp
  have hterminal : (L.balanceRows classId seatId type productId (·.isTerminal)).length =
      ((L.balanceGrants classId seatId type productId).filter
        (fun g ↦ g.entitlementId ∈ L.terminalRows.map (·.entitlementId))).length := by
    rw [← List.length_map (·.entitlementId)]
    refine length_eq_of_ids (hnodup _) (h.endsUnique.sublist (List.Sublist.map _ ?_))
      h.mem_terminalIds
    show List.Sublist (L.entitlementEvents.filter _) (L.entitlementEvents.filter _)
    refine List.monotone_filter_right _ (fun e he ↦ ?_)
    simp only [decide_eq_true_eq] at he
    exact he.2.2.2.1
  have hlogged : (if type = .hallPass then (L.loggedOnly classId
        (L.balanceGrants classId seatId type productId)
        (L.balanceRows classId seatId type productId (·.isTerminal))).length else 0) =
      ((L.balanceGrants classId seatId type productId).filter (fun g ↦
        !decide (g.entitlementId ∈ L.terminalRows.map (·.entitlementId)) &&
          decide (g.entitlementId ∈ L.usedPasses))).length := by
    split_ifs with htype
    · subst htype
      refine length_eq_of_ids (hnodup _) ((List.nodup_dedup _).filter _) (fun i ↦ ?_)
      rw [h.mem_loggedOnly]
      simp
    · -- only hall passes are named by logs
      rw [eq_comm, List.length_eq_zero_iff, List.filter_eq_nil_iff]
      intro g hg hmem
      simp only [Bool.and_eq_true, decide_eq_true_eq] at hmem
      obtain ⟨hrow, -, -, hgtype, -⟩ := mem_balanceGrants.1 hg
      obtain ⟨l, hl, hid⟩ := List.mem_filterMap.1 hmem.2
      obtain ⟨g', hg', hgid, -, hpass⟩ := h.usesOf l hl _ hid
      obtain rfl := h.unique_grant hrow hg' hgid.symm
      exact htype (hgtype.symm.trans hpass)
  have hsplit := length_filter_or
    (fun g : EntitlementEvent ↦ decide (g.entitlementId ∈ L.terminalRows.map (·.entitlementId)))
    (fun g ↦ decide (g.entitlementId ∈ L.usedPasses))
    (L.balanceGrants classId seatId type productId)
  rw [hended, hsplit, ← hterminal, ← hlogged]
  show (((L.balanceGrants classId seatId type productId).length : ℤ) - _) = _
  push_cast
  rfl

end Balance

end TokenHub.Store
