import TokenHub.Attendance.FrozenEvidence

set_option autoImplicit false

namespace TokenHub.Attendance

open Rent Lib.Checks
open Ledger (PyValue AllocationRaise)

section Simulation

variable {σ τ α ε : Type} {f : σ → α → Except ε σ} {g : τ → α → τ × Bool} {R : σ → τ → Prop}

/-- Where each strict step that succeeds is followed by a lenient one, so is a whole loop. -/
theorem foldUntil_follows
    (hstep : ∀ s t a s', R s t → f s a = .ok s' → ∃ t', g t a = (t', false) ∧ R s' t')
    {as : List α} {s s' : σ} {t : τ} (hR : R s t) (h : as.foldlM f s = .ok s') :
    ∃ t', foldUntil g t as = (t', false) ∧ R s' t' := by
  induction as generalizing s t with
  | nil =>
    rw [List.foldlM_nil, pure_eq_ok] at h
    subst h
    exact ⟨t, rfl, hR⟩
  | cons a as ih =>
    rw [List.foldlM_cons, bind_eq_ok] at h
    obtain ⟨next, hfirst, hrest⟩ := h
    obtain ⟨t', hg, hR'⟩ := hstep s t a next hR hfirst
    obtain ⟨t'', hg', hR''⟩ := ih hR' hrest
    refine ⟨t'', ?_, hR''⟩
    rw [foldUntil, hg]
    exact hg'

/-- What the loop has only grows where each step lets it grow. -/
theorem foldlM_prefix {β : Type} {f : List β → α → Except ε (List β)}
    (hstep : ∀ s a s', f s a = .ok s' → s <+: s') {as : List α} {s s' : List β}
    (h : as.foldlM f s = .ok s') : s <+: s' := by
  induction as generalizing s with
  | nil =>
    rw [List.foldlM_nil, pure_eq_ok] at h
    exact h ▸ List.prefix_rfl
  | cons a as ih =>
    rw [List.foldlM_cons, bind_eq_ok] at h
    obtain ⟨next, hfirst, hrest⟩ := h
    exact (hstep s a next hfirst).trans (ih hrest)

end Simulation

section Agreement

variable {isoformat : Instant → String} {pairs : List AttendanceInterval}
  {earlier settled settled' : List PairKey} {noted : Noted}

structure ReadsAlong (earlier settled : List PairKey) (noted : Noted) : Prop where
  valid : noted.valid = true
  read : settled = earlier ++ noted.mentioned
  nodup : settled.Nodup

theorem settleSource_ok {source : PyValue}
    (h : settleSource isoformat pairs settled source = .ok settled') :
    ∃ key, sourceKey source = .ok key ∧ key ∉ settled ∧
      evidenceIs isoformat pairs key source = true ∧ settled' = settled ++ [key] := by
  unfold settleSource at h
  rw [bind_eq_ok] at h
  obtain ⟨key, hkey, h⟩ := h
  rw [require_bind_eq_ok, pure_eq_ok] at h
  obtain ⟨⟨hfresh, hevidence⟩, rfl⟩ := h
  exact ⟨key, hkey, hfresh, hevidence, rfl⟩

theorem noteSource_follows {source : PyValue} (hR : ReadsAlong earlier settled noted)
    (h : settleSource isoformat pairs settled source = .ok settled') :
    ∃ noted', noteSource isoformat pairs noted source = (noted', false) ∧
      ReadsAlong earlier settled' noted' := by
  obtain ⟨key, hkey, hfresh, hevidence, rfl⟩ := settleSource_ok h
  have hnew : key ∉ noted.mentioned := by
    intro hmem
    apply hfresh
    rw [hR.read]
    exact List.mem_append_right _ hmem
  refine ⟨_, by rw [noteSource, hkey], ?_⟩
  constructor
  · simp [hR.valid, hevidence, hnew]
  · rw [hR.read, List.append_assoc]
  · exact hR.nodup.append (List.nodup_singleton key) (List.disjoint_singleton.2 hfresh)

theorem settleShare_ok {share : PyValue}
    (h : settleShare isoformat pairs settled share = .ok settled') :
    ∃ sources, sources ≠ [] ∧ shareSources share = .ok (sources, true) ∧
      sources.foldlM (settleSource isoformat pairs) settled = .ok settled' := by
  unfold settleShare at h
  rw [bind_eq_ok] at h
  obtain ⟨sourcesValue, hvalue, h⟩ := h
  rw [demand_bind_eq_ok] at h
  obtain ⟨sources, hlist, h⟩ := h
  rw [require_bind_eq_ok, bind_eq_ok] at h
  obtain ⟨hsome, total, htotal, h⟩ := h
  rw [bind_eq_ok] at h
  obtain ⟨seconds, hseconds, h⟩ := h
  rw [require_bind_eq_ok] at h
  obtain ⟨hagrees, h⟩ := h
  obtain rfl : sourcesValue = .list sources := by
    cases sourcesValue <;> simp_all
  refine ⟨sources, hsome, ?_, h⟩
  rw [shareSources, hvalue]
  simp only [ok_bind, PyValue.iterate, htotal, hseconds, hagrees]
  rfl

theorem settleSource_prefix {source : PyValue}
    (h : settleSource isoformat pairs settled source = .ok settled') : settled <+: settled' := by
  obtain ⟨key, -, -, -, rfl⟩ := settleSource_ok h
  exact List.prefix_append _ _

theorem settleShare_grows {share : PyValue}
    (h : settleShare isoformat pairs settled share = .ok settled') :
    settled <+: settled' ∧ settled.length < settled'.length := by
  obtain ⟨sources, hsome, -, hfold⟩ := settleShare_ok h
  cases sources with
  | nil => exact absurd rfl hsome
  | cons source sources =>
    rw [List.foldlM_cons, bind_eq_ok] at hfold
    obtain ⟨next, hfirst, hrest⟩ := hfold
    have hprefix := foldlM_prefix (fun _ _ _ ↦ settleSource_prefix) hrest
    obtain ⟨key, -, -, -, rfl⟩ := settleSource_ok hfirst
    refine ⟨(List.prefix_append _ _).trans hprefix, ?_⟩
    have hlength := hprefix.length_le
    rw [List.length_append, List.length_singleton] at hlength
    omega

theorem noteShare_follows {share : PyValue} (hR : ReadsAlong earlier settled noted)
    (h : settleShare isoformat pairs settled share = .ok settled') :
    ∃ noted', noteShare isoformat pairs noted share = (noted', false) ∧
      ReadsAlong earlier settled' noted' := by
  obtain ⟨sources, -, hshare, hfold⟩ := settleShare_ok h
  have hstart : ReadsAlong earlier settled ⟨noted.valid && true, noted.mentioned⟩ :=
    ⟨by rw [hR.valid]; rfl, hR.read, hR.nodup⟩
  obtain ⟨noted', hnote, hR'⟩ := foldUntil_follows (fun _ _ _ _ ↦ noteSource_follows) hstart hfold
  refine ⟨noted', ?_, hR'⟩
  rw [noteShare, hshare]
  exact hnote

/-- Frozen pricing that the payroll run accepts is valid for the membership proof, and both read
the same pairs from it. -/
theorem notePricing_of_settleFrozen {summary : PyValue} (hsettled : settled.Nodup)
    (h : settleFrozen isoformat pairs settled summary = .ok settled') :
    (notePricing isoformat pairs (pricingOf summary)).valid = true ∧
      settled' = settled ++ (notePricing isoformat pairs (pricingOf summary)).mentioned ∧
      settled'.Nodup := by
  unfold settleFrozen at h
  rw [bind_eq_ok] at h
  obtain ⟨pricing, hpricing, h⟩ := h
  rw [demand_bind_eq_ok] at h
  obtain ⟨shares, hlist, h⟩ := h
  rw [require_bind_eq_ok] at h
  obtain ⟨hsome, hfold⟩ := h
  obtain rfl : pricing = .list shares := by
    cases pricing <;> simp_all
  have hstart : ReadsAlong settled settled ⟨true, []⟩ := ⟨rfl, (List.append_nil _).symm, hsettled⟩
  obtain ⟨noted, hnote, hR⟩ := foldUntil_follows (fun _ _ _ _ ↦ noteShare_follows) hstart hfold
  have hmentioned : noted.mentioned ≠ [] := by
    intro hnone
    have heq := hR.read
    rw [hnone, List.append_nil] at heq
    cases shares with
    | nil => exact hsome rfl
    | cons share shares =>
      rw [List.foldlM_cons, bind_eq_ok] at hfold
      obtain ⟨next, hfirst, hrest⟩ := hfold
      have hgrows := (settleShare_grows hfirst).2
      have hprefix := foldlM_prefix (fun _ _ _ h ↦ (settleShare_grows h).1) hrest
      have hlength := hprefix.length_le
      rw [heq] at hlength
      omega
  have hpricing' : notePricing isoformat pairs (pricingOf summary) = ⟨true, noted.mentioned⟩ := by
    rw [pricingOf, hpricing, notePricing, PyValue.iterate]
    simp only [hnote, hR.valid, Bool.not_false, Bool.and_true, Bool.true_and]
    rw [decide_eq_true hmentioned]
  rw [hpricing']
  exact ⟨rfl, hR.read, hR.nodup⟩

end Agreement

section Events

variable {isoformat : Instant → String} {pairs : List AttendanceInterval} {e : PayrollEvent}

/-- The pairs that an event freezes, as the membership proof reads them. -/
def eventKeys (isoformat : Instant → String) (pairs : List AttendanceInterval) (e : PayrollEvent) :
    List PairKey :=
  if frozen (asDict e.summaryJson) then
    (notePricing isoformat pairs (pricingOf (asDict e.summaryJson))).mentioned
  else []

structure Sound (isoformat : Instant → String) (pairs : List AttendanceInterval)
    (e : PayrollEvent) : Prop where
  dict : asDict e.summaryJson = e.summaryJson
  valid : frozen e.summaryJson = true →
    (notePricing isoformat pairs (pricingOf e.summaryJson)).valid = true

theorem settlePayroll_ok {settled settled' : List PairKey} (hsettled : settled.Nodup)
    (h : settlePayroll isoformat pairs settled e = .ok settled') :
    Sound isoformat pairs e ∧ settled' = settled ++ eventKeys isoformat pairs e ∧
      settled'.Nodup := by
  unfold settlePayroll at h
  split at h
  · rename_i fields hdict
    have hsame : asDict e.summaryJson = e.summaryJson := by rw [hdict]; rfl
    split_ifs at h with hfrozen
    · obtain ⟨hvalid, hkeys, hnodup⟩ := notePricing_of_settleFrozen hsettled h
      refine ⟨⟨hsame, fun _ ↦ hvalid⟩, ?_, hnodup⟩
      rw [eventKeys, hsame, if_pos hfrozen]
      exact hkeys
    · obtain rfl := Except.ok.inj h
      refine ⟨⟨hsame, fun hfrozen' ↦ absurd hfrozen' hfrozen⟩, ?_, hsettled⟩
      rw [eventKeys, hsame, if_neg hfrozen, List.append_nil]
  · cases h

/-- Where the payroll run reads all events, no pair is frozen twice. -/
theorem settlePayrolls_ok {events : List PayrollEvent} {settled settled' : List PairKey}
    (hsettled : settled.Nodup) (h : events.foldlM (settlePayroll isoformat pairs) settled =
      .ok settled') : (∀ e ∈ events, Sound isoformat pairs e) ∧
        settled' = settled ++ events.flatMap (eventKeys isoformat pairs) ∧ settled'.Nodup := by
  induction events generalizing settled with
  | nil =>
    rw [List.foldlM_nil, pure_eq_ok] at h
    subst h
    exact ⟨fun e he ↦ (List.not_mem_nil he).elim, (List.append_nil _).symm, hsettled⟩
  | cons e events ih =>
    rw [List.foldlM_cons, bind_eq_ok] at h
    obtain ⟨next, hfirst, hrest⟩ := h
    obtain ⟨hsound, rfl, hnodup⟩ := settlePayroll_ok hsettled hfirst
    obtain ⟨hsounds, hsettled', hnodup'⟩ := ih hnodup hrest
    refine ⟨?_, ?_, hnodup'⟩
    · intro e' he'
      rcases List.mem_cons.1 he' with rfl | he'
      · exact hsound
      · exact hsounds e' he'
    · rw [hsettled', List.flatMap_cons, List.append_assoc]

end Events

section Proof

variable {isoformat : Instant → String} {pairs : List AttendanceInterval} {e : PayrollEvent}
  {result : List Membership} {m : Membership}

theorem memberPayroll_intervals : (memberPayroll isoformat pairs result e).map (·.interval) =
    result.map (·.interval) := by
  unfold memberPayroll
  dsimp only
  split_ifs
  all_goals
    rw [List.map_map]
    apply List.map_congr_left
    intro m _
    rw [Function.comp_apply]
    split_ifs <;> rfl

theorem foldl_memberPayroll_intervals (events : List PayrollEvent) (result : List Membership) :
    (events.foldl (memberPayroll isoformat pairs) result).map (·.interval) =
      result.map (·.interval) := by
  induction events generalizing result with
  | nil => rfl
  | cons e events ih => rw [List.foldl_cons, ih, memberPayroll_intervals]

theorem mem_memberPayroll {m' : Membership} (h : m' ∈ memberPayroll isoformat pairs result e) :
    ∃ m ∈ result, m'.interval = m.interval ∧ (m' = m ∨
      (m'.status = .recorded ∧ m'.event = some e ∧ frozen (asDict e.summaryJson) = true ∧
        (notePricing isoformat pairs (pricingOf (asDict e.summaryJson))).valid = true ∧
        m.isIn (eventKeys isoformat pairs e) = true) ∨
      (m'.status = .provenanceUnavailable ∧ frozen (asDict e.summaryJson) = true ∧
        admitted result (notePricing isoformat pairs (pricingOf (asDict e.summaryJson))) = false) ∨
      (m'.status = .historicalUnavailable ∧ frozen (asDict e.summaryJson) = false ∧
        potentiallySelected e m.interval = true)) := by
  unfold memberPayroll at h
  dsimp only at h
  split_ifs at h with hfrozen hadmitted
  · obtain ⟨m, hm, rfl⟩ := List.mem_map.1 h
    refine ⟨m, hm, ?_⟩
    split_ifs with hin
    · refine ⟨rfl, .inr (.inl ⟨rfl, rfl, hfrozen, ?_, ?_⟩)⟩
      · exact (Bool.and_eq_true_iff.1 hadmitted).1
      · rw [eventKeys, if_pos hfrozen]
        exact hin
    · exact ⟨rfl, .inl rfl⟩
  · obtain ⟨m, hm, rfl⟩ := List.mem_map.1 h
    refine ⟨m, hm, ?_⟩
    split_ifs with hin
    · exact ⟨rfl, .inr (.inr (.inl ⟨rfl, hfrozen, Bool.eq_false_iff.2 hadmitted⟩))⟩
    · exact ⟨rfl, .inl rfl⟩
  · obtain ⟨m, hm, rfl⟩ := List.mem_map.1 h
    refine ⟨m, hm, ?_⟩
    split_ifs with hselected
    · exact ⟨rfl, .inr (.inr (.inr ⟨rfl, Bool.eq_false_iff.2 hfrozen, hselected⟩))⟩
    · exact ⟨rfl, .inl rfl⟩

/-- An entry is recorded by a valid event that names its pair. -/
theorem recorded_by {events : List PayrollEvent}
    (h : m ∈ events.foldl (memberPayroll isoformat pairs) result)
    (hstart : ∀ m ∈ result, m.status ≠ .recorded) (hrecorded : m.status = .recorded) :
    ∃ e ∈ events, m.event = some e ∧ frozen (asDict e.summaryJson) = true ∧
      (notePricing isoformat pairs (pricingOf (asDict e.summaryJson))).valid = true ∧
      m.isIn (eventKeys isoformat pairs e) = true := by
  induction events using List.reverseRecOn generalizing m with
  | nil => exact absurd hrecorded (hstart m h)
  | append_singleton events e ih =>
    rw [List.foldl_append, List.foldl_cons, List.foldl_nil] at h
    obtain ⟨before, hbefore, hinterval, hcase⟩ := mem_memberPayroll h
    rcases hcase with rfl | ⟨-, hevent, hfrozen, hvalid, hin⟩ | ⟨hstatus, -⟩ | ⟨hstatus, -⟩
    · obtain ⟨e', he', hby⟩ := ih hbefore hrecorded
      exact ⟨e', List.mem_append_left _ he', hby⟩
    · refine ⟨e, by simp, hevent, hfrozen, hvalid, ?_⟩
      rw [Membership.isIn, hinterval]
      exact hin
    · rw [hstatus] at hrecorded
      cases hrecorded
    · rw [hstatus] at hrecorded
      cases hrecorded

/-- No event that the payroll run reads is refused where no pair is frozen twice. -/
theorem admitted_of_disjoint {events : List PayrollEvent} (hsound : Sound isoformat pairs e)
    (hfrozen : frozen (asDict e.summaryJson) = true)
    (hstart : ∀ m ∈ result, m.status ≠ .recorded)
    (hdisjoint : ∀ e' ∈ events,
      (eventKeys isoformat pairs e').Disjoint (eventKeys isoformat pairs e)) :
    admitted (events.foldl (memberPayroll isoformat pairs) result)
      (notePricing isoformat pairs (pricingOf (asDict e.summaryJson))) = true := by
  have hvalid := hsound.valid
  rw [hsound.dict] at hfrozen ⊢
  rw [admitted, hvalid hfrozen, Bool.true_and, List.all_eq_true]
  intro m hm
  rw [Bool.not_eq_true', Bool.and_eq_false_iff]
  by_cases hrecorded : m.status = .recorded
  · right
    obtain ⟨e', he', -, -, -, hin⟩ := recorded_by hm hstart hrecorded
    have hkeys : eventKeys isoformat pairs e =
        (notePricing isoformat pairs (pricingOf e.summaryJson)).mentioned := by
      rw [eventKeys, hsound.dict, if_pos hfrozen]
    rw [← hkeys, Bool.eq_false_iff]
    intro hin'
    unfold Membership.isIn at hin hin'
    rw [Option.any_eq_true] at hin hin'
    obtain ⟨key, hkey, hmem⟩ := hin
    obtain ⟨key', hkey', hmem'⟩ := hin'
    obtain rfl : key = key' := Option.some.inj (hkey.symm.trans hkey')
    exact hdisjoint e' he' (of_decide_eq_true hmem) (of_decide_eq_true hmem')
  · left
    exact decide_eq_false hrecorded

/-- A pair that no event freezes and no older settlement selects stays unpaid. -/
theorem stays_unpaid {events : List PayrollEvent} {i : AttendanceInterval}
    (hsound : ∀ e ∈ events, Sound isoformat pairs e)
    (hdisjoint : events.Pairwise fun e e' ↦
      (eventKeys isoformat pairs e).Disjoint (eventKeys isoformat pairs e'))
    (hstart : ∀ m ∈ result, m.status = .unpaid)
    (hfree : ∀ e ∈ events, ∀ key ∈ eventKeys isoformat pairs e, i.pairKey ≠ some key)
    (hselected : ∀ e ∈ events, frozen e.summaryJson = false → potentiallySelected e i = false)
    (h : m ∈ events.foldl (memberPayroll isoformat pairs) result) (hinterval : m.interval = i) :
    m.status = .unpaid := by
  have hstart' : ∀ m ∈ result, m.status ≠ .recorded := by
    intro m hm
    rw [hstart m hm]
    decide
  induction events using List.reverseRecOn generalizing m with
  | nil => exact hstart m h
  | append_singleton events e ih =>
    have hlast : e ∈ events ++ [e] := by simp
    obtain ⟨hearlier, -, hbetween⟩ := List.pairwise_append.1 hdisjoint
    rw [List.foldl_append, List.foldl_cons, List.foldl_nil] at h
    obtain ⟨before, hbefore, hsame, hcase⟩ := mem_memberPayroll h
    rcases hcase with rfl | ⟨-, -, -, -, hin⟩ | ⟨-, hfrozen, hrefused⟩ | ⟨-, hfrozen, hpaid⟩
    · exact ih (fun e' he' ↦ hsound e' (List.mem_append_left _ he')) hearlier
        (fun e' he' ↦ hfree e' (List.mem_append_left _ he'))
        (fun e' he' ↦ hselected e' (List.mem_append_left _ he')) hbefore hinterval
    · unfold Membership.isIn at hin
      rw [Option.any_eq_true, ← hsame, hinterval] at hin
      obtain ⟨key, hkey, hmem⟩ := hin
      exact absurd hkey (hfree e hlast key (of_decide_eq_true hmem))
    · have hadmitted := admitted_of_disjoint (hsound e hlast) hfrozen hstart' fun e' he' ↦
        hbetween e' he' e List.mem_cons_self
      rw [hadmitted] at hrefused
      cases hrefused
    · rw [(hsound e hlast).dict] at hfrozen
      rw [← hsame, hinterval, hselected e hlast hfrozen] at hpaid
      cases hpaid

end Proof

section Readings

variable {isoformat : Instant → String} {intervals : List AttendanceInterval}
  {payrolls : List PayrollEvent} {invalidated : List (ℕ × ℕ)} {asOf : Instant}
  {i : AttendanceInterval}

structure Payable (isoformat : Instant → String) (intervals : List AttendanceInterval)
    (payrolls : List PayrollEvent) (invalidated : List (ℕ × ℕ)) (i : AttendanceInterval) :
    Prop where
  closed : i ∈ closedIntervals intervals
  sound : ∀ e ∈ payrolls, Sound isoformat (closedIntervals intervals) e
  disjoint : payrolls.Pairwise fun e e' ↦ (eventKeys isoformat (closedIntervals intervals) e).Disjoint
    (eventKeys isoformat (closedIntervals intervals) e')
  unsettled : ∀ e ∈ payrolls, ∀ key ∈ eventKeys isoformat (closedIntervals intervals) e,
    i.pairKey ≠ some key
  valid : ∀ closing ∈ i.closingEventId, (i.openingEventId, closing) ∉ invalidated
  later : ∀ e ∈ payrolls, frozen e.summaryJson = false → e.recordedAt < i.closedAt
  whole : ∀ e ∈ payrolls, frozen e.summaryJson = false → underClosedRule e.summaryJson = false →
    ¬ (i.openedAt < e.recordedAt ∧ e.recordedAt < i.closedAt)

theorem payable_of_mem (hpast : ∀ e ∈ payrolls, e.recordedAt ≤ asOf)
    (h : i ∈ (calculateSeatPayrollIntervals isoformat intervals payrolls invalidated asOf).payable) :
    Payable isoformat intervals payrolls invalidated i := by
  have hall : payrolls.filter (fun e ↦ decide (e.recordedAt ≤ asOf)) = payrolls := by
    rw [List.filter_eq_self]
    intro e he
    exact decide_eq_true (hpast e he)
  unfold calculateSeatPayrollIntervals at h
  simp only [hall] at h
  cases hread : payrolls.foldlM (settlePayroll isoformat (closedIntervals intervals)) [] with
  | error raised =>
    rw [hread] at h
    exact (List.not_mem_nil h).elim
  | ok settled =>
    rw [hread] at h
    dsimp only at h
    obtain ⟨hsound, hsettled, hnodup⟩ := settlePayrolls_ok List.nodup_nil hread
    rw [List.nil_append] at hsettled
    rw [hsettled] at hnodup
    rw [List.mem_filter, List.mem_filter, decide_eq_true_iff, decide_eq_true_iff] at h
    obtain ⟨⟨hclosed, hunsettled, hvalid, hlater⟩, hwhole, -⟩ := h
    constructor
    · exact hclosed
    · exact hsound
    · exact (List.nodup_flatMap.1 hnodup).2
    · intro e he key hkey hsame
      apply hunsettled
      rw [hsame, hsettled]
      exact List.mem_map_of_mem (List.mem_flatMap.2 ⟨e, he, hkey⟩)
    · exact hvalid
    · intro e he hfrozen
      exact hlater e (List.mem_filter.2 ⟨he, by rw [hfrozen]; rfl⟩)
    · intro e he hfrozen hrule hbetween
      apply hwhole
      refine ⟨e.recordedAt, List.mem_map_of_mem (List.mem_filter.2 ⟨?_, ?_⟩), hbetween⟩
      · exact List.mem_filter.2 ⟨he, by rw [hfrozen]; rfl⟩
      · rw [hrule]
        rfl

theorem Payable.not_selected {e : PayrollEvent}
    (h : Payable isoformat intervals payrolls invalidated i) (he : e ∈ payrolls)
    (hfrozen : frozen e.summaryJson = false) : potentiallySelected e i = false := by
  have hlater := h.later e he hfrozen
  unfold potentiallySelected
  rw [(h.sound e he).dict]
  split_ifs with hrule
  · exact decide_eq_false (not_not.2 hlater)
  · have hwhole := h.whole e he hfrozen (Bool.eq_false_iff.2 hrule)
    exact decide_eq_false fun hopened ↦ hwhole ⟨hopened, hlater⟩

/-- A pair that a payroll run would pay is unpaid for the membership proof. -/
theorem Payable.unpaid (h : Payable isoformat intervals payrolls invalidated i) {m : Membership}
    (hm : m ∈ payrollIntervalMemberships isoformat intervals payrolls) (hinterval : m.interval = i) :
    m.status = .unpaid := by
  have hperm := List.perm_insertionSort PayrollEvent.Sooner payrolls
  have hmem : ∀ {e}, e ∈ payrolls.insertionSort PayrollEvent.Sooner → e ∈ payrolls :=
    fun he ↦ hperm.mem_iff.1 he
  refine stays_unpaid (fun e he ↦ h.sound e (hmem he)) ?_ ?_ (fun e he ↦ h.unsettled e (hmem he))
    (fun e he ↦ h.not_selected (hmem he)) hm hinterval
  · exact (hperm.symm.pairwise_iff fun hdisjoint ↦ List.disjoint_symm hdisjoint).1 h.disjoint
  · intro m hm
    obtain ⟨j, -, rfl⟩ := List.mem_map.1 hm
    rfl

theorem exists_membership (hclosed : i ∈ closedIntervals intervals) :
    ∃ m ∈ payrollIntervalMemberships isoformat intervals payrolls, m.interval = i := by
  have hintervals : (payrollIntervalMemberships isoformat intervals payrolls).map (·.interval) =
      closedIntervals intervals := by
    rw [payrollIntervalMemberships, foldl_memberPayroll_intervals, List.map_map]
    exact List.map_id' _
  rw [← hintervals] at hclosed
  obtain ⟨m, hm, hsame⟩ := List.mem_map.1 hclosed
  exact ⟨m, hm, hsame⟩

end Readings

end TokenHub.Attendance
