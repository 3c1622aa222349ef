import TokenHub.Attendance.Pairing
import TokenHub.Attendance.ReplayShares

set_option autoImplicit false

namespace TokenHub.Attendance

open Rent Lib.Checks Lib.Ordered Lib.Segments
open Ledger (PyValue)
open Payroll (PayrollEventType)

section Windows

def HistoricalEvent.summary (e : HistoricalEvent) : PyValue := asDict e.summaryJson

def HistoricalEvent.isFrozen (e : HistoricalEvent) : Bool := frozen e.summary

def HistoricalEvent.isLegacy (e : HistoricalEvent) : Bool :=
  !e.isFrozen && !underClosedRule e.summary

/-- A payroll with the boundary before it and the instants of the legacy payrolls before it. -/
structure Window where
  event : HistoricalEvent
  previous : Option Instant
  legacyTimes : List Instant

def windowsOf (previous : Option Instant) (legacyTimes : List Instant) :
    List HistoricalEvent → List Window
  | [] => []
  | e :: es => ⟨e, previous, legacyTimes⟩ :: windowsOf (some e.recordedAt)
      (legacyTimes ++ if e.isLegacy then [e.recordedAt] else []) es

variable (zone : ClassZone) (rows : List AttendanceSession) (intervals : List AttendanceInterval)

def Window.paid (w : Window) : List Segment :=
  legacySegments zone w.previous w.event.recordedAt none rows

def Window.worked (w : Window) : List Segment :=
  workedSegments intervals w.previous w.event.recordedAt

def Window.facts (w : Window) : WindowFacts := ⟨w.event, w.paid zone rows, w.worked intervals⟩

def HistoricalEvent.Names (e : HistoricalEvent) (i : AttendanceInterval) : Prop :=
  ∃ key ∈ frozenPairs e.summary, i.pairId = some key

def Window.settled (w : Window) : Set Instant :=
  if w.event.isFrozen then {t | ∃ i ∈ intervals, w.event.Names i ∧ t ∈ span i.span}
  else if underClosedRule w.event.summary then
    {t | ∃ i ∈ intervals, closesWithin w.previous w.event.recordedAt i ∧
      t ∈ span (closedPart w.legacyTimes i)}
  else cover (w.paid zone rows)

def Window.owed (w : Window) : Set Instant :=
  cover (w.worked intervals) \ cover (w.paid zone rows)

end Windows

section Replay

variable {zone : ClassZone} {isoformat : Instant → String} {rows : List AttendanceSession}
  {intervals : List AttendanceInterval} {settings : List HistoricalPayrollSettingInput}

theorem summaryOf_ok {e : HistoricalEvent} {summary : PyValue} (h : summaryOf e = .ok summary) :
    e.summary = summary := by
  unfold summaryOf at h
  rw [HistoricalEvent.summary]
  split at h
  · next hnone =>
    rw [hnone]
    exact Except.ok.inj h
  · next fields hdict =>
    rw [hdict]
    exact Except.ok.inj h
  · cases h

theorem legacySegments_within {previous : Option Instant} {stop : Instant} {opened : Option Instant}
    {rows : List AttendanceSession} (hopened : ∀ o ∈ opened, ∀ p ∈ previous, p ≤ o) :
    ∀ s ∈ legacySegments zone previous stop opened rows,
      s.2 ≤ stop ∧ ∀ p ∈ previous, p ≤ s.1 := by
  have hend : ∀ opened : Option Instant, (∀ o ∈ opened, ∀ p ∈ previous, p ≤ o) →
      ∀ s ∈ (opened.map fun o ↦ (o, min stop (dayEnd zone o))).toList,
        s.2 ≤ stop ∧ ∀ p ∈ previous, p ≤ s.1 := by
    intro opened hopened s hs
    rw [Option.mem_toList, Option.map_eq_some_iff] at hs
    obtain ⟨o, ho, rfl⟩ := hs
    exact ⟨min_le_left _ _, hopened o ho⟩
  induction rows generalizing opened with
  | nil => exact hend opened hopened
  | cons row rows ih =>
    rw [legacySegments.eq_def]
    dsimp only
    split_ifs with hlate hearly
    · exact hend opened hopened
    · exact ih hopened
    · have hrow : ∀ p ∈ previous, p ≤ row.timestamp := by
        intro p hp
        by_contra hlt
        apply hearly
        rw [Option.mem_def.1 hp]
        exact decide_eq_true (not_le.1 hlt)
      split
      · refine ih ?_
        intro o ho
        rw [← Option.some.inj ho]
        exact hrow
      · next o _ =>
        intro s hs
        rcases List.mem_cons.1 hs with rfl | hs
        · exact ⟨(min_le_left _ _).trans (not_lt.1 hlate), hopened o rfl⟩
        · exact ih (fun o ho ↦ absurd ho (Option.not_mem_none o)) s hs
      · exact ih (fun o ho ↦ absurd ho (Option.not_mem_none o))

theorem closedPart_within (legacyTimes : List Instant) (i : AttendanceInterval) :
    i.openedAt ≤ (closedPart legacyTimes i).1 ∧
      ∀ t ∈ legacyTimes, t < i.closedAt → t ≤ (closedPart legacyTimes i).1 := by
  have hmax : ∀ (times : List Instant) (start : Instant), start ≤ times.foldl max start ∧
      ∀ t ∈ times, t ≤ times.foldl max start := by
    intro times
    induction times with
    | nil => exact fun start ↦ ⟨le_rfl, by simp⟩
    | cons u times ih =>
      intro start
      obtain ⟨hstart, htimes⟩ := ih (max start u)
      refine ⟨(le_max_left start u).trans hstart, fun t ht ↦ ?_⟩
      rcases List.mem_cons.1 ht with rfl | ht
      · exact (le_max_right start t).trans hstart
      · exact htimes t ht
  obtain ⟨hstart, htimes⟩ := hmax (legacyTimes.filter (· < i.closedAt)) i.openedAt
  exact ⟨hstart, fun t ht hlt ↦ htimes t (List.mem_filter.2 ⟨ht, decide_eq_true hlt⟩)⟩

structure Replayed (zone : ClassZone) (rows : List AttendanceSession)
    (intervals : List AttendanceInterval) (w : Window) (r : HistoricalReconstructedEvent) :
    Prop where
  event : r.event = w.event
  sound : ∀ s ∈ r.shares, ShareSound intervals s
  disjoint : (sourcesOf r.shares).Pairwise fun s u ↦ Disjoint (span s) (span u)
  settled : cover (sourcesOf r.shares) = w.settled zone rows intervals
  named : w.event.isFrozen = true → ∀ i ∈ intervals, w.event.Names i →
    i.closedAt ≤ w.event.recordedAt

theorem mem_settled_frozen {w : Window} (h : w.event.isFrozen = true) :
    w.settled zone rows intervals = {t | ∃ i ∈ intervals, w.event.Names i ∧ t ∈ span i.span} :=
  if_pos h

theorem settled_closed {w : Window} (h : w.event.isFrozen = false)
    (hclosed : underClosedRule w.event.summary = true) : w.settled zone rows intervals =
      {t | ∃ i ∈ intervals, closesWithin w.previous w.event.recordedAt i ∧
        t ∈ span (closedPart w.legacyTimes i)} := by
  rw [Window.settled, if_neg (by simp [h]), if_pos hclosed]

theorem settled_legacy {w : Window} (h : w.event.isLegacy = true) :
    w.settled zone rows intervals = cover (w.paid zone rows) := by
  rw [HistoricalEvent.isLegacy, Bool.and_eq_true, Bool.not_eq_true', Bool.not_eq_true'] at h
  rw [Window.settled, if_neg (by simp [h.1]), if_neg (by simp [h.2])]

section Ordered

variable (hordered : intervals.Pairwise fun i j ↦ i.closedAt ≤ j.openedAt)

include hordered

theorem interval_of_point {i j : AttendanceInterval} {t : Instant} (hi : i ∈ intervals)
    (hj : j ∈ intervals) (hti : t ∈ span i.span) (htj : t ∈ span j.span) : i = j := by
  obtain ⟨m, hm, rfl⟩ := List.getElem_of_mem hi
  obtain ⟨n, hn, rfl⟩ := List.getElem_of_mem hj
  have hpairs := List.pairwise_iff_getElem.1 hordered
  rcases lt_trichotomy m n with hlt | rfl | hgt
  · exact absurd ((hti.2.trans_le (hpairs m n hm hn hlt)).trans_le htj.1) (lt_irrefl t)
  · rfl
  · exact absurd ((htj.2.trans_le (hpairs n m hn hm hgt)).trans_le hti.1) (lt_irrefl t)

theorem intervals_disjoint :
    intervals.Pairwise fun i j ↦ Disjoint (span i.span) (span j.span) := by
  refine hordered.imp fun {i j} hle ↦ Set.disjoint_left.2 fun t hti htj ↦ ?_
  exact absurd ((hti.2.trans_le hle).trans_le htj.1) (lt_irrefl t)

/-- A frozen payroll settles the whole intervals that its summary names. -/
theorem replayed_frozen (hkeys : (intervals.map (·.openingEventId)).Nodup) {w : Window}
    (hfrozen : w.event.isFrozen = true) {shares : List HistoricalReconstructedShare}
    (h : frozenShares isoformat intervals settings w.event.recordedAt w.event.id w.event.summary =
      .ok shares) (multiplyFirst : Bool) :
    Replayed zone rows intervals w ⟨w.event, multiplyFirst, shares, [], []⟩ := by
  obtain ⟨p, hp, rfl⟩ := frozenShares_ok h
  obtain ⟨named, hsources, hseen, hall⟩ := hp.named
  have hnames : ∀ i, w.event.Names i ↔ ∃ n ∈ named, i.pairId = some n.1 := by
    intro i
    rw [HistoricalEvent.Names, ← hp.seen, ← hseen]
    simp only [List.mem_map, exists_exists_and_eq_and]
  have hsame : ∀ n ∈ named, ∀ i ∈ intervals, i.pairId = some n.1 → n.2 = i.span ∧
      i.closedAt ≤ w.event.recordedAt := by
    intro n hn i hi hkey
    obtain ⟨j, hj, hkey', hspan, hstop⟩ := hall n hn
    obtain ⟨c, -, hc⟩ := Option.map_eq_some_iff.1 hkey
    obtain ⟨c', -, hc'⟩ := Option.map_eq_some_iff.1 hkey'
    have hij : i = j := List.inj_on_of_nodup_map hkeys hi hj
      ((congrArg Prod.fst hc).trans (congrArg Prod.fst hc').symm)
    rw [hij]
    exact ⟨hspan, hstop⟩
  refine ⟨rfl, hp.shares, ?_, ?_, ?_⟩
  · show (sourcesOf p.shares).Pairwise _
    rw [hsources, List.pairwise_map]
    have hnodup : (named.map (·.1)).Nodup := hseen ▸ hp.nodup
    refine (List.pairwise_map.1 hnodup).imp_of_mem fun {n n'} hn hn' hne ↦ ?_
    obtain ⟨i, hi, hkey, hspan, -⟩ := hall n hn
    obtain ⟨j, hj, hkey', hspan', -⟩ := hall n' hn'
    rw [hspan, hspan', Set.disjoint_left]
    intro t hti htj
    have hij := interval_of_point hordered hi hj hti htj
    exact hne (Option.some.inj (hkey.symm.trans (hij ▸ hkey')))
  · show cover (sourcesOf p.shares) = _
    rw [mem_settled_frozen hfrozen, hsources]
    ext t
    constructor
    · rintro ⟨s, hs, ht⟩
      obtain ⟨n, hn, rfl⟩ := List.mem_map.1 hs
      obtain ⟨i, hi, hkey, hspan, -⟩ := hall n hn
      exact ⟨i, hi, (hnames i).2 ⟨n, hn, hkey⟩, hspan ▸ ht⟩
    · rintro ⟨i, hi, hnamed, ht⟩
      obtain ⟨n, hn, hkey⟩ := (hnames i).1 hnamed
      exact ⟨n.2, List.mem_map_of_mem hn, (hsame n hn i hi hkey).1 ▸ ht⟩
  · intro _ i hi hnamed
    obtain ⟨n, hn, hkey⟩ := (hnames i).1 hnamed
    exact (hsame n hn i hi hkey).2

/-- A payroll of closed sessions settles what its window closes and no legacy window ended in. -/
theorem replayed_closed {w : Window} (hfrozen : w.event.isFrozen = false)
    (hclosed : underClosedRule w.event.summary = true) {shares : List HistoricalReconstructedShare}
    (h : closedShares isoformat intervals settings w.previous w.event.recordedAt w.legacyTimes
      w.event.id = .ok shares) (multiplyFirst : Bool) :
    Replayed zone rows intervals w ⟨w.event, multiplyFirst, shares, [], []⟩ := by
  obtain ⟨hsound, hperm⟩ := closedShares_ok h
  have hpart : ∀ i : AttendanceInterval, span (closedPart w.legacyTimes i) ⊆ span i.span :=
    fun i t ht ↦ ⟨(closedPart_within w.legacyTimes i).1.trans ht.1, ht.2⟩
  refine ⟨rfl, hsound, ?_, ?_, fun hf ↦ by rw [hfrozen] at hf; cases hf⟩
  · refine (hperm.pairwise_iff fun hsu ↦ hsu.symm).2 ?_
    rw [List.pairwise_map]
    refine ((intervals_disjoint hordered).sublist List.filter_sublist).imp fun {i j} hij ↦ ?_
    exact hij.mono (hpart i) (hpart j)
  · show cover (sourcesOf shares) = _
    rw [settled_closed hfrozen hclosed]
    ext t
    rw [mem_cover]
    constructor
    · rintro ⟨s, hs, ht⟩
      obtain ⟨i, hi, rfl⟩ := List.mem_map.1 (hperm.mem_iff.1 hs)
      obtain ⟨hmem, hcond⟩ := List.mem_filter.1 hi
      exact ⟨i, hmem, (of_decide_eq_true hcond).1, ht⟩
    · rintro ⟨i, hi, hcloses, ht⟩
      refine ⟨closedPart w.legacyTimes i, hperm.mem_iff.2 (List.mem_map_of_mem ?_), ht⟩
      exact List.mem_filter.2 ⟨hi, decide_eq_true ⟨hcloses, not_lt.2 (ht.1.trans ht.2.le)⟩⟩

theorem replayed_legacy {w : Window} (hlegacy : w.event.isLegacy = true)
    {built : HistoricalReconstructedShare}
    (h : share isoformat intervals settings w.event.recordedAt (w.paid zone rows) w.event.id none
      true = .ok built) (multiplyFirst : Bool) :
    Replayed zone rows intervals w ⟨w.event, multiplyFirst, [built], [], []⟩ := by
  obtain ⟨hsource, -, hsound⟩ := share_ok h
  obtain ⟨seen, hseen⟩ := hsound.1
  have hsources : sourcesOf [built] = w.paid zone rows := by
    rw [sourcesOf, List.flatMap_singleton, hsource]
  refine ⟨rfl, fun s hs ↦ ?_, ?_, ?_, fun hf ↦ ?_⟩
  · rw [List.mem_singleton.1 hs]
    exact hsound
  · show (sourcesOf [built]).Pairwise _
    rw [hsources, ← hsource]
    exact hseen.disjoint hordered
  · show cover (sourcesOf [built]) = _
    rw [settled_legacy hlegacy, hsources]
  · rw [HistoricalEvent.isLegacy, hf] at hlegacy
    cases hlegacy

/-- One turn of the loop replays the window of its payroll and opens the next one. -/
theorem replayPayroll_ok (hkeys : (intervals.map (·.openingEventId)).Nodup) {p p' : ReplayProgress}
    {e : HistoricalEvent}
    (h : replayPayroll zone isoformat rows intervals settings p e = .ok p') :
    ∃ r, Replayed zone rows intervals ⟨e, p.previous, p.legacyTimes⟩ r ∧ p' = {
      result := p.result ++ [r]
      windowFacts := p.windowFacts ++ if e.isLegacy then
        [Window.facts zone rows intervals ⟨e, p.previous, p.legacyTimes⟩] else []
      previous := some e.recordedAt
      legacyTimes := p.legacyTimes ++ if e.isLegacy then [e.recordedAt] else [] } := by
  rw [replayPayroll, bind_eq_ok] at h
  obtain ⟨summary, hsummary, h⟩ := h
  obtain rfl := summaryOf_ok hsummary
  rw [require_bind_eq_ok, require_bind_eq_ok] at h
  obtain ⟨-, -, h⟩ := h
  change (if e.isFrozen = true then _ else _) = _ at h
  by_cases hfrozen : e.isFrozen = true
  · rw [if_pos hfrozen, bind_eq_ok] at h
    obtain ⟨shares, hshares, h⟩ := h
    rw [pure_eq_ok] at h
    have hlegacy : e.isLegacy = false := by rw [HistoricalEvent.isLegacy, hfrozen]; rfl
    refine ⟨_, replayed_frozen hordered hkeys (w := ⟨e, p.previous, p.legacyTimes⟩) hfrozen hshares
      true, ?_⟩
    rw [← h, hlegacy]
    simp
  · have hfrozen' : e.isFrozen = false := Bool.eq_false_iff.2 hfrozen
    rw [if_neg hfrozen, bind_eq_ok] at h
    obtain ⟨shares, hshares, h⟩ := h
    rw [unfrozenShares] at hshares
    by_cases hclosed : underClosedRule e.summary = true
    · rw [if_pos hclosed, bind_eq_ok] at hshares
      obtain ⟨shares', hshares, hpricing⟩ := hshares
      rw [unit_bind_eq_ok, pure_eq_ok] at hpricing
      obtain ⟨-, rfl⟩ := hpricing
      rw [if_pos hclosed, pure_eq_ok] at h
      have hlegacy : e.isLegacy = false := by
        rw [HistoricalEvent.isLegacy, hclosed, Bool.not_true, Bool.and_false]
      refine ⟨_, replayed_closed hordered (w := ⟨e, p.previous, p.legacyTimes⟩) hfrozen' hclosed
        hshares false, ?_⟩
      rw [← h, hlegacy]
      simp
    · rw [if_neg hclosed] at hshares
      simp only [bind_eq_ok, pure_eq_ok] at hshares
      obtain ⟨built, hbuilt, _, rfl, -, -, rfl⟩ := hshares
      rw [if_neg hclosed, pure_eq_ok] at h
      have hlegacy : e.isLegacy = true := by
        rw [HistoricalEvent.isLegacy, hfrozen', Bool.eq_false_iff.2 hclosed]
        rfl
      refine ⟨_, replayed_legacy hordered (w := ⟨e, p.previous, p.legacyTimes⟩) hlegacy hbuilt
        false, ?_⟩
      rw [← h, hlegacy, if_pos rfl, if_pos rfl]
      rfl

theorem replayPayrolls_ok (hkeys : (intervals.map (·.openingEventId)).Nodup)
    {payrolls : List HistoricalEvent} {p p' : ReplayProgress}
    (h : payrolls.foldlM (replayPayroll zone isoformat rows intervals settings) p = .ok p') :
    ∃ replays : List (Window × HistoricalReconstructedEvent),
      replays.map (·.1) = windowsOf p.previous p.legacyTimes payrolls ∧
      p'.result = p.result ++ replays.map (·.2) ∧
      p'.windowFacts = p.windowFacts ++ ((windowsOf p.previous p.legacyTimes payrolls).filter
        (·.event.isLegacy)).map (·.facts zone rows intervals) ∧
      ∀ x ∈ replays, Replayed zone rows intervals x.1 x.2 := by
  induction payrolls generalizing p with
  | nil =>
    rw [List.foldlM_nil, pure_eq_ok] at h
    subst h
    exact ⟨[], rfl, by simp, by simp [windowsOf], by simp⟩
  | cons e payrolls ih =>
    rw [List.foldlM_cons, bind_eq_ok] at h
    obtain ⟨middle, hturn, h⟩ := h
    obtain ⟨r, hr, rfl⟩ := replayPayroll_ok hordered hkeys hturn
    obtain ⟨replays, hwindows, hresult, hfacts, hall⟩ := ih h
    refine ⟨(⟨e, p.previous, p.legacyTimes⟩, r) :: replays, ?_, ?_, ?_, ?_⟩
    · rw [List.map_cons, hwindows, windowsOf]
    · rw [hresult, List.map_cons, List.append_assoc]
      rfl
    · rw [hfacts, windowsOf, List.filter_cons, List.append_assoc]
      congr 1
      split_ifs <;> rfl
    · intro x hx
      rcases List.mem_cons.1 hx with rfl | hx
      · exact hr
      · exact hall x hx

end Ordered

end Replay

section Order

variable {zone : ClassZone} {rows : List AttendanceSession} {intervals : List AttendanceInterval}
  {w w' : Window} {r : HistoricalReconstructedEvent}

/-- A window begins no earlier than an earlier one ends, and knows of it if it was a legacy one. -/
structure Window.Before (w w' : Window) : Prop where
  boundary : ∃ p, w'.previous = some p ∧ w.event.recordedAt ≤ p
  legacy : w.event.isLegacy = true → w.event.recordedAt ∈ w'.legacyTimes

theorem windowsOf_from {payrolls : List HistoricalEvent} {legacyTimes : List Instant} {b : Instant}
    (hsorted : payrolls.Pairwise fun e e' ↦ e.recordedAt ≤ e'.recordedAt)
    (hb : ∀ e ∈ payrolls, b ≤ e.recordedAt) : ∀ w ∈ windowsOf (some b) legacyTimes payrolls,
      (∃ p, w.previous = some p ∧ b ≤ p) ∧ ∀ t ∈ legacyTimes, t ∈ w.legacyTimes := by
  induction payrolls generalizing b legacyTimes with
  | nil => simp [windowsOf]
  | cons e payrolls ih =>
    obtain ⟨he, hsorted⟩ := List.pairwise_cons.1 hsorted
    intro w hw
    rcases List.mem_cons.1 hw with rfl | hw
    · exact ⟨⟨b, rfl, le_rfl⟩, fun t ht ↦ ht⟩
    · obtain ⟨⟨p, hp, hle⟩, htimes⟩ := ih hsorted he w hw
      refine ⟨⟨p, hp, (hb e List.mem_cons_self).trans hle⟩, fun t ht ↦ ?_⟩
      exact htimes t (List.mem_append_left _ ht)

theorem windowsOf_before {payrolls : List HistoricalEvent} {previous : Option Instant}
    {legacyTimes : List Instant}
    (hsorted : payrolls.Pairwise fun e e' ↦ e.recordedAt ≤ e'.recordedAt) :
    (windowsOf previous legacyTimes payrolls).Pairwise Window.Before := by
  induction payrolls generalizing previous legacyTimes with
  | nil => exact List.Pairwise.nil
  | cons e payrolls ih =>
    obtain ⟨he, hsorted⟩ := List.pairwise_cons.1 hsorted
    refine List.pairwise_cons.2 ⟨fun w hw ↦ ?_, ih hsorted⟩
    obtain ⟨hboundary, htimes⟩ := windowsOf_from hsorted he w hw
    refine ⟨hboundary, fun hlegacy ↦ htimes _ ?_⟩
    rw [if_pos hlegacy]
    exact List.mem_append_right _ List.mem_cons_self

theorem windowsOf_events (previous : Option Instant) (legacyTimes : List Instant)
    (payrolls : List HistoricalEvent) :
    (windowsOf previous legacyTimes payrolls).map (·.event) = payrolls := by
  induction payrolls generalizing previous legacyTimes with
  | nil => rfl
  | cons e payrolls ih => rw [windowsOf, List.map_cons, ih]

theorem isLegacy_of (hfrozen : w.event.isFrozen = false)
    (hclosed : ¬underClosedRule w.event.summary = true) : w.event.isLegacy = true := by
  rw [HistoricalEvent.isLegacy, hfrozen, Bool.eq_false_iff.2 hclosed]
  rfl

theorem paid_within {t : Instant} (ht : t ∈ cover (w.paid zone rows)) :
    t < w.event.recordedAt ∧ ∀ p ∈ w.previous, p ≤ t := by
  obtain ⟨s, hs, hst⟩ := ht
  have hopened : ∀ o ∈ (none : Option Instant), ∀ p ∈ w.previous, p ≤ o :=
    fun o ho ↦ absurd ho (Option.not_mem_none o)
  obtain ⟨hstop, hstart⟩ := legacySegments_within hopened s hs
  exact ⟨hst.2.trans_le hstop, fun p hp ↦ (hstart p hp).trans hst.1⟩

/-- The time that a payroll settles comes before it; under a rule of whole sessions the sessions
have closed by then. -/
theorem settled_within (hr : Replayed zone rows intervals w r) {t : Instant}
    (ht : t ∈ w.settled zone rows intervals) : t < w.event.recordedAt ∧
      (w.event.isLegacy = true ∨ ∃ i ∈ intervals, t ∈ span i.span ∧
        i.closedAt ≤ w.event.recordedAt) := by
  by_cases hfrozen : w.event.isFrozen = true
  · rw [mem_settled_frozen hfrozen] at ht
    obtain ⟨i, hi, hnames, hti⟩ := ht
    have hclosed := hr.named hfrozen i hi hnames
    exact ⟨hti.2.trans_le hclosed, .inr ⟨i, hi, hti, hclosed⟩⟩
  · by_cases hclosed : underClosedRule w.event.summary = true
    · rw [settled_closed (Bool.eq_false_iff.2 hfrozen) hclosed] at ht
      obtain ⟨i, hi, hcloses, hti⟩ := ht
      have hti' : t ∈ span i.span := ⟨(closedPart_within _ i).1.trans hti.1, hti.2⟩
      exact ⟨hti.2.trans_le hcloses.1, .inr ⟨i, hi, hti', hcloses.1⟩⟩
    · have hlegacy := isLegacy_of (Bool.eq_false_iff.2 hfrozen) hclosed
      rw [settled_legacy hlegacy] at ht
      exact ⟨(paid_within ht).1, .inl hlegacy⟩

/-- What a top-up may pay of a window lies within it, in sessions that closed after it began. -/
theorem owed_within {t : Instant} (ht : t ∈ w.owed zone rows intervals) :
    t < w.event.recordedAt ∧ (∀ p ∈ w.previous, p ≤ t) ∧ ∃ i ∈ intervals, t ∈ span i.span ∧
      ∀ p ∈ w.previous, p < i.closedAt := by
  obtain ⟨⟨s, hs, hst⟩, -⟩ := ht
  obtain ⟨i, hi, rfl⟩ := List.mem_map.1 hs
  obtain ⟨hmem, hcond⟩ := List.mem_filter.1 hi
  obtain ⟨-, hafter⟩ := of_decide_eq_true hcond
  have hstart : i.openedAt ≤ t ∧ ∀ p ∈ w.previous, p ≤ t := by
    have hfrom := hst.1
    cases hp : w.previous with
    | none =>
      rw [hp] at hfrom
      exact ⟨hfrom, fun p hp ↦ absurd hp (Option.not_mem_none p)⟩
    | some p =>
      rw [hp] at hfrom
      refine ⟨(le_max_left _ _).trans hfrom, fun q hq ↦ ?_⟩
      rw [← Option.some.inj hq]
      exact (le_max_right _ _).trans hfrom
  refine ⟨hst.2.trans_le (min_le_right _ _), hstart.2, i, hmem,
    ⟨hstart.1, hst.2.trans_le (min_le_left _ _)⟩, fun p hp ↦ ?_⟩
  rw [Option.all_eq_true] at hafter
  exact of_decide_eq_true (hafter p hp)

variable (hordered : intervals.Pairwise fun i j ↦ i.closedAt ≤ j.openedAt)

include hordered

/-- Time that lies before an earlier window's end, and is settled by none of the frozen kind, is
not settled again: a legacy window begins later, and a payroll of closed sessions leaves out both
the sessions that have closed and the part that a legacy window reached. -/
theorem not_settled_again (hbefore : w.Before w') (hw' : w'.event.isFrozen = false) {t : Instant}
    (ht : t < w.event.recordedAt) (hkind : w.event.isLegacy = true ∨ ∃ i ∈ intervals,
      t ∈ span i.span ∧ i.closedAt ≤ w.event.recordedAt) :
    t ∉ w'.settled zone rows intervals := by
  intro ht'
  obtain ⟨p, hp, hle⟩ := hbefore.boundary
  by_cases hclosed : underClosedRule w'.event.summary = true
  · rw [settled_closed hw' hclosed] at ht'
    obtain ⟨j, hj, hcloses, htj⟩ := ht'
    obtain ⟨hstart, htimes⟩ := closedPart_within w'.legacyTimes j
    have hafter : p < j.closedAt := hcloses.2 p hp
    rcases hkind with hlegacy | ⟨i, hi, hti, hstop⟩
    · have hreached := htimes _ (hbefore.legacy hlegacy) (hle.trans_lt hafter)
      exact absurd (hreached.trans htj.1) (not_le.2 ht)
    · obtain rfl := interval_of_point hordered hi hj hti ⟨hstart.trans htj.1, htj.2⟩
      exact absurd hafter (not_lt.2 (hstop.trans hle))
  · rw [settled_legacy (isLegacy_of hw' hclosed)] at ht'
    exact absurd (hle.trans ((paid_within ht').2 p hp)) (not_le.2 ht)

theorem settled_disjoint (hr : Replayed zone rows intervals w r) (hbefore : w.Before w')
    (hw' : w'.event.isFrozen = false) :
    Disjoint (w.settled zone rows intervals) (w'.settled zone rows intervals) := by
  refine Set.disjoint_left.2 fun t ht ↦ ?_
  obtain ⟨hlt, hkind⟩ := settled_within hr ht
  exact not_settled_again hordered hbefore hw' hlt hkind

theorem owed_not_settled (hlegacy : w.event.isLegacy = true)
    {t : Instant} (ht : t ∈ w.owed zone rows intervals) :
    (t ∉ w.settled zone rows intervals) ∧
      (w.Before w' → w'.event.isFrozen = false → t ∉ w'.settled zone rows intervals) ∧
      (w'.Before w → Replayed zone rows intervals w' r → t ∉ w'.settled zone rows intervals) := by
  obtain ⟨hlt, hstart, -⟩ := owed_within ht
  refine ⟨?_, fun hbefore hw' ↦ ?_, fun hbefore hr ht' ↦ ?_⟩
  · rw [settled_legacy hlegacy]
    exact ht.2
  · exact not_settled_again hordered hbefore hw' hlt (.inl hlegacy)
  · obtain ⟨p, hp, hle⟩ := hbefore.boundary
    obtain ⟨hlt', -⟩ := settled_within hr ht'
    exact absurd (hle.trans (hstart p hp)) (not_le.2 hlt')

omit hordered in
theorem owed_disjoint (hbefore : w.Before w') :
    Disjoint (w.owed zone rows intervals) (w'.owed zone rows intervals) := by
  refine Set.disjoint_left.2 fun t ht ht' ↦ ?_
  obtain ⟨p, hp, hle⟩ := hbefore.boundary
  exact absurd (hle.trans ((owed_within ht').2.1 p hp)) (not_le.2 (owed_within ht).1)

end Order

end TokenHub.Attendance
