import TokenHub.Attendance.ReplayExclusion
import TokenHub.Attendance.SettlementRuns

set_option autoImplicit false

namespace TokenHub.Attendance

open Rent Lib.Checks Lib.Ordered Lib.Segments
open Ledger (PyValue)
open Payroll (PayrollEventType)

section TopUps

variable {isoformat : Instant → String} {uuid5 : String → String}
  {intervals : List AttendanceInterval} {settings : List HistoricalPayrollSettingInput}
  {facts : List WindowFacts} {f : WindowFacts} {e : HistoricalEvent}

theorem difference_ok {worked paid loss : List Segment} (h : difference worked paid = .ok loss) :
    cover loss = cover worked \ cover paid := by
  have hfold : ∀ (paid result : List Segment), paid.foldlM (fun result p ↦ do
      require (p.1 ≤ p.2 ∧ (worked.filter fun w ↦ w.1 ≤ p.1 ∧ p.2 ≤ w.2).length = 1)
        .paidOutsideWorked
      return result.flatMap (cut p)) result = (.ok loss : Except ReplayRaise _) →
        loss = without result paid := by
    intro paid
    induction paid with
    | nil =>
      intro result h
      rw [List.foldlM_nil, pure_eq_ok] at h
      exact h.symm
    | cons p paid ih =>
      intro result h
      simp only [List.foldlM_cons, bind_eq_ok, pure_eq_ok] at h
      obtain ⟨-, ⟨-, -, rfl⟩, h⟩ := h
      exact ih _ h
  rw [hfold paid worked h, cover_without]

/-- A candidate pays exactly the work of its window that the window did not pay. -/
structure PaysLoss (intervals : List AttendanceInterval) (f : WindowFacts)
    (s : HistoricalReconstructedShare) : Prop where
  sound : ShareSound intervals s
  window : s.windowEventId = f.event.id
  loss : cover s.sourceSegments = cover f.worked \ cover f.paid

theorem candidateShare_ok {s : HistoricalReconstructedShare}
    (h : candidateShare isoformat intervals settings f = .ok (some s)) :
    PaysLoss intervals f s := by
  simp only [candidateShare, bind_eq_ok] at h
  obtain ⟨paidSeconds, -, workedSeconds, -, h⟩ := h
  split_ifs at h
  · cases h
  · simp only [bind_eq_ok, pure_eq_ok] at h
    obtain ⟨-, -, loss, hloss, base, hbase, ws, hweights, h⟩ := h
    obtain ⟨-, hwindow, -⟩ := share_ok hbase
    obtain ⟨seen, hseen, htotal⟩ := weights_ok hweights
    obtain rfl := Option.some.inj h
    exact ⟨⟨⟨seen, hseen⟩, htotal⟩, hwindow, difference_ok hloss⟩

theorem candidateShares_ok {recordedAt : Instant} {candidates : List HistoricalReconstructedShare}
    (h : candidateShares isoformat intervals settings facts recordedAt = .ok candidates) :
    ∀ s ∈ candidates, ∃ f ∈ facts, PaysLoss intervals f s := by
  rw [candidateShares, bind_eq_ok] at h
  obtain ⟨found, hfound, h⟩ := h
  rw [pure_eq_ok] at h
  subst h
  intro s hs
  obtain ⟨found', hfound', hid⟩ := List.mem_filterMap.1 hs
  obtain ⟨f, hf, hok⟩ := forall₂_exists_left (mapM_eq_ok.1 hfound) hfound'
  obtain rfl : found' = some s := hid
  exact ⟨f, (List.mem_filter.1 hf).1, candidateShare_ok hok⟩

def topUpReferences (e : HistoricalEvent) : List ℤ := (referencedIds e.summary).getD []

/-- What the replay of a top-up gives: one share for each window that it references. -/
structure ToppedUp (intervals : List AttendanceInterval) (facts : List WindowFacts)
    (e : HistoricalEvent) (r : HistoricalReconstructedEvent) : Prop where
  event : r.event = e
  shares : ∀ s ∈ r.shares, ∃ f ∈ facts, PaysLoss intervals f s
  windows : r.shares.map (fun s ↦ (s.windowEventId : ℤ)) = topUpReferences e
  once : (topUpReferences e).Nodup

theorem replayTopUp_ok {classId : String} {targetSeatId : ℕ} {r : HistoricalReconstructedEvent}
    (h : replayTopUp isoformat intervals settings uuid5 classId targetSeatId facts e e.summary =
      .ok r) : ToppedUp intervals facts e r ∧
      e.idempotencyKey = topUpKey classId targetSeatId ∧
      e.correlationId = uuid5 (topUpKey classId targetSeatId) := by
  rw [replayTopUp, require_bind_eq_ok] at h
  obtain ⟨⟨hkey, hcorrelation, -⟩, h⟩ := h
  simp only [bind_eq_ok, demand_eq_ok, pure_eq_ok] at h
  obtain ⟨references, hreferences, -, -, candidates, hcandidates, shares, hshares, rfl⟩ := h
  have hall := candidateShares_ok hcandidates
  have hfound : List.Forall₂ (fun i s ↦ s ∈ candidates ∧ (s.windowEventId : ℤ) = i) references
      shares := by
    refine (mapM_eq_ok.1 hshares).imp fun i s hs ↦ ?_
    rw [demand_eq_ok] at hs
    exact ⟨List.mem_of_find?_eq_some hs, by simpa using List.find?_some hs⟩
  have hnodup : (topUpReferences e).Nodup := by
    rw [topUpReferences, hreferences, Option.getD_some]
    exact (of_decide_eq_true (Option.filter_eq_some_iff.1 hreferences).2).2
  refine ⟨⟨rfl, fun s hs ↦ ?_, ?_, hnodup⟩, hkey, hcorrelation⟩
  · obtain ⟨i, -, hmem, -⟩ := forall₂_exists_left hfound hs
    exact hall s hmem
  · rw [topUpReferences, hreferences, Option.getD_some]
    clear hshares hnodup hreferences
    induction hfound with
    | nil => rfl
    | cons hfirst hrest ih => rw [List.map_cons, hfirst.2, ih]

end TopUps

section Graph

variable {zone : ClassZone} {isoformat : Instant → String} {uuid5 : String → String}
  {ctx : ReplayContext} {targetSeatId : ℕ} {rows : List AttendanceSession}
  {intervals : List AttendanceInterval} {events : List HistoricalEvent}
  {settingInputs : List HistoricalPayrollSettingInput} {graph : HistoricalReconstructedGraph}

/-- The unique key `uq_payroll_event_replay_guard`. -/
def HistoricalEvent.replayKey (e : HistoricalEvent) :
    String × ℕ × String × String × PayrollEventType :=
  (e.classId, e.targetSeatId, e.correlationId, e.idempotencyKey, e.payrollEventType)

def payrollsOf (events : List HistoricalEvent) : List HistoricalEvent :=
  (events.insertionSort HistoricalEvent.Sooner).filter (·.payrollEventType = .payroll)

theorem sooner_total (e e' : HistoricalEvent) : e.Sooner e' ∨ e'.Sooner e := by
  unfold HistoricalEvent.Sooner PayrollEvent.Sooner
  lia

theorem sooner_sorted (events : List HistoricalEvent) :
    (events.insertionSort HistoricalEvent.Sooner).Pairwise HistoricalEvent.Sooner := by
  have : Std.Total (α := HistoricalEvent) HistoricalEvent.Sooner := ⟨sooner_total⟩
  have : IsTrans HistoricalEvent HistoricalEvent.Sooner := ⟨fun a b c hab hbc ↦ by
    unfold HistoricalEvent.Sooner PayrollEvent.Sooner at *
    lia⟩
  exact List.pairwise_insertionSort HistoricalEvent.Sooner events

theorem payrollsOf_sorted (events : List HistoricalEvent) :
    (payrollsOf events).Pairwise fun e e' ↦ e.recordedAt ≤ e'.recordedAt := by
  refine ((sooner_sorted events).sublist List.filter_sublist).imp fun {e e'} h ↦ ?_
  rcases h with hlt | ⟨heq, -⟩
  · exact hlt.le
  · exact heq.le

theorem payrollWindows_before (events : List HistoricalEvent) :
    (windowsOf none [] (payrollsOf events)).Pairwise Window.Before :=
  windowsOf_before (payrollsOf_sorted events)

theorem replayOthers_ok {classId : String} {settings : List HistoricalPayrollSettingInput}
    {all ordered : List HistoricalEvent} {facts : List WindowFacts} {p p' : OtherProgress}
    (h : ordered.foldlM (replayOther isoformat uuid5 classId targetSeatId intervals settings all
      facts) p = .ok p') :
    ∃ topUps, p'.topUps = p.topUps ++ topUps ∧
      List.Forall₂ (fun e r ↦ ToppedUp intervals facts e r ∧
      e.idempotencyKey = topUpKey classId targetSeatId ∧
      e.correlationId = uuid5 (topUpKey classId targetSeatId))
        (ordered.filter fun e ↦ isTopUp e e.summary) topUps := by
  induction ordered generalizing p with
  | nil =>
    rw [List.foldlM_nil, pure_eq_ok] at h
    exact ⟨[], by rw [h, List.append_nil], .nil⟩
  | cons e ordered ih =>
    rw [List.foldlM_cons, bind_eq_ok] at h
    obtain ⟨middle, hturn, h⟩ := h
    obtain ⟨topUps, htopUps, hall⟩ := ih h
    rw [replayOther, bind_eq_ok] at hturn
    obtain ⟨summary, hsummary, hturn⟩ := hturn
    obtain rfl := summaryOf_ok hsummary
    by_cases htop : isTopUp e e.summary
    · rw [if_pos htop, bind_eq_ok] at hturn
      obtain ⟨r, hr, hturn⟩ := hturn
      rw [pure_eq_ok] at hturn
      refine ⟨r :: topUps, ?_, ?_⟩
      · rw [htopUps, ← hturn, List.append_assoc]
        rfl
      · rw [List.filter_cons, if_pos (decide_eq_true htop)]
        exact .cons (replayTopUp_ok hr) hall
    · rw [if_neg htop] at hturn
      have hsame : middle.topUps = p.topUps := by
        split_ifs at hturn
        · simp only [bind_eq_ok, pure_eq_ok] at hturn
          obtain ⟨-, -, rfl⟩ := hturn
          rfl
        · simp only [bind_eq_ok, pure_eq_ok] at hturn
          obtain ⟨-, -, -, -, rfl⟩ := hturn
          rfl
        · rw [pure_eq_ok] at hturn
          rw [hturn]
      refine ⟨topUps, by rw [htopUps, hsame], ?_⟩
      rw [List.filter_cons_of_neg (by simpa using htop)]
      exact hall

/-- How an accepted reconstruction is built: every window replayed, then at most one top-up. -/
structure Rebuilt (zone : ClassZone) (rows : List AttendanceSession)
    (intervals : List AttendanceInterval) (events : List HistoricalEvent)
    (graph : HistoricalReconstructedGraph)
    (replays : List (Window × HistoricalReconstructedEvent))
    (topUps : List HistoricalReconstructedEvent) : Prop where
  sameIntervals : graph.intervals = intervals
  sameEvents : graph.events.Perm (replays.map (·.2) ++ topUps)
  windows : replays.map (·.1) = windowsOf none [] (payrollsOf events)
  replayed : ∀ x ∈ replays, Replayed zone rows intervals x.1 x.2
  toppedUp : List.Forall₂ (ToppedUp intervals (((windowsOf none [] (payrollsOf events)).filter
    (·.event.isLegacy)).map (·.facts zone rows intervals)))
      ((events.insertionSort HistoricalEvent.Sooner).filter fun e ↦ isTopUp e e.summary) topUps
  single : topUps.length ≤ 1

theorem Rebuilt.of_sorted {replays : List (Window × HistoricalReconstructedEvent)}
    {topUps : List HistoricalReconstructedEvent}
    (h : Rebuilt zone rows intervals (events.insertionSort HistoricalEvent.Sooner) graph replays
      topUps) : Rebuilt zone rows intervals events graph replays topUps := by
  have hsorted := (sooner_sorted events).insertionSort_eq
  have hpayrolls : payrollsOf (events.insertionSort HistoricalEvent.Sooner) =
      payrollsOf events := by
    rw [payrollsOf, hsorted, payrollsOf]
  obtain ⟨hintervals, hevents, hwindows, hreplayed, htoppedUp, hsingle⟩ := h
  rw [hpayrolls] at hwindows htoppedUp
  rw [hsorted] at htoppedUp
  exact ⟨hintervals, hevents, hwindows, hreplayed, htoppedUp, hsingle⟩

theorem snapshot_ok (hordered : intervals.Pairwise fun i j ↦ i.closedAt ≤ j.openedAt)
    (hkeys : (intervals.map (·.openingEventId)).Nodup)
    (hreplay : (events.map (·.replayKey)).Nodup)
    (h : reconstructHistoricalPayrollSnapshot isoformat uuid5 zone ctx targetSeatId rows intervals
      events settingInputs = .ok graph) :
    ∃ replays topUps, Rebuilt zone rows intervals events graph replays topUps := by
  rw [reconstructHistoricalPayrollSnapshot, require_bind_eq_ok, require_bind_eq_ok] at h
  obtain ⟨-, ⟨-, hscope⟩, h⟩ := h
  simp only [bind_eq_ok, pure_eq_ok] at h
  obtain ⟨-, -, -, -, replayed, hpayrolls, others, hothers, rfl⟩ := h
  obtain ⟨replays, hwindows, hresult, hfacts, hall⟩ := replayPayrolls_ok hordered hkeys hpayrolls
  rw [List.nil_append] at hresult hfacts
  rw [hfacts] at hothers
  obtain ⟨topUps, htopUps, hforall⟩ := replayOthers_ok hothers
  rw [List.nil_append] at htopUps
  refine ⟨replays, topUps, rfl, ?_, hwindows, hall, hforall.imp fun e r hr ↦ hr.1, ?_⟩
  · rw [← hresult, ← htopUps]
    exact List.perm_insertionSort _ _
  · rw [← hforall.length_eq]
    have hperm := List.perm_insertionSort HistoricalEvent.Sooner events
    have hnodup := (hperm.map (·.replayKey)).nodup_iff.2 hreplay
    have hsame : ∀ e ∈ (events.insertionSort HistoricalEvent.Sooner).filter
        (fun e ↦ isTopUp e e.summary), e.replayKey = (ctx.classId, targetSeatId,
          uuid5 (topUpKey ctx.classId targetSeatId), topUpKey ctx.classId targetSeatId,
          PayrollEventType.manualCredit) := by
      intro e he
      obtain ⟨r, -, -, hkey, hcorrelation⟩ := forall₂_exists_right hforall he
      obtain ⟨hmem, htop⟩ := List.mem_filter.1 he
      obtain ⟨hclass, hseat⟩ := hscope e (hperm.mem_iff.1 hmem)
      rw [HistoricalEvent.replayKey, hclass, hseat, hkey, hcorrelation,
        (of_decide_eq_true htop : isTopUp e e.summary).1]
    have hsub := (List.filter_sublist (p := fun e ↦ decide (isTopUp e e.summary))
      (l := events.insertionSort HistoricalEvent.Sooner)).map (·.replayKey)
    have hone := hnodup.sublist hsub
    have hconst := List.eq_replicate_of_mem (l := ((events.insertionSort
      HistoricalEvent.Sooner).filter (fun e ↦ isTopUp e e.summary)).map (·.replayKey))
        (List.forall_mem_map.2 hsame)
    rw [hconst, List.nodup_replicate] at hone
    simpa using hone

end Graph

section Exclusion

variable {zone : ClassZone} {rows : List AttendanceSession} {intervals : List AttendanceInterval}
  {events : List HistoricalEvent} {graph : HistoricalReconstructedGraph}
  {replays : List (Window × HistoricalReconstructedEvent)}
  {topUps : List HistoricalReconstructedEvent} {segments : List Segment}

def HistoricalReconstructedGraph.attributed (graph : HistoricalReconstructedGraph) (key : PairId) :
    List Segment :=
  belonging graph.intervals key (graph.events.flatMap fun r ↦ sourcesOf r.shares)

def HistoricalReconstructedGraph.weighed (graph : HistoricalReconstructedGraph)
    (key : PairId) : ℤ :=
  ((graph.events.flatMap (·.shares)).map fun s ↦ weightOf key s.weights).sum

/-- No time of a pair is paid twice, and no pair beyond its extent. -/
structure HistoricalReconstructedGraph.Exclusive (graph : HistoricalReconstructedGraph) : Prop where
  apart : ∀ i ∈ graph.intervals, ∀ key, i.pairId = some key →
    (graph.attributed key).Pairwise fun s u ↦ Disjoint (span s) (span u)
  bounded : ∀ i ∈ graph.intervals, ∀ key, i.pairId = some key →
    graph.weighed key ≤ i.closedAt - i.openedAt

/-- No frozen payroll names time that an earlier payroll settled, or that a top-up pays. -/
structure FrozenApart (zone : ClassZone) (rows : List AttendanceSession)
    (intervals : List AttendanceInterval) (events : List HistoricalEvent) : Prop where
  payrolls : (windowsOf none [] (payrollsOf events)).Pairwise fun w w' ↦
    w'.event.isFrozen = true →
      Disjoint (w.settled zone rows intervals) (w'.settled zone rows intervals)
  topUps : ∀ e ∈ events, isTopUp e e.summary → ∀ w ∈ windowsOf none [] (payrollsOf events),
    w.event.isLegacy = true → (w.event.id : ℤ) ∈ topUpReferences e →
    ∀ w' ∈ windowsOf none [] (payrollsOf events), w'.event.isFrozen = true →
      Disjoint (w.owed zone rows intervals) (w'.settled zone rows intervals)

theorem belonging_apart (hordered : intervals.Pairwise fun i j ↦ i.closedAt ≤ j.openedAt)
    (hpairs : ∀ s ∈ segments, ∃ key, pairOf intervals s = .ok key) :
    (∀ i ∈ intervals, ∀ key, i.pairId = some key → (belonging intervals key segments).Pairwise
      fun s u ↦ Disjoint (span s) (span u)) ↔
    segments.Pairwise fun s u ↦ Disjoint (span s) (span u) := by
  constructor
  · intro h
    rw [List.pairwise_iff_forall_sublist]
    intro s u hsub
    refine Set.disjoint_left.2 fun t ht ht' ↦ ?_
    obtain ⟨key, hkey⟩ := hpairs s (hsub.subset List.mem_cons_self)
    obtain ⟨key', hkey'⟩ := hpairs u (hsub.subset (List.mem_cons_of_mem s List.mem_cons_self))
    obtain ⟨-, i, hi, hid, hfrom, hto⟩ := pairOf_ok hkey
    have hti : t ∈ span i.span := ⟨hfrom.trans ht.1, ht.2.trans_le hto⟩
    obtain rfl : key = key' :=
      Option.some.inj (hid.symm.trans (pairId_of_point hordered hkey' hi ht' hti))
    have hfilter := h i hi key hid
    rw [belonging, List.pairwise_filter, List.pairwise_iff_forall_sublist] at hfilter
    refine Set.disjoint_left.1 (hfilter hsub ?_ ?_) ht ht'
    · rw [hkey]
      exact decide_eq_true rfl
    · rw [hkey']
      exact decide_eq_true rfl
  · intro h i _ key _
    exact h.sublist List.filter_sublist

theorem belonging_flatMap {α : Type} (key : PairId) (l : List α) (f : α → List Segment) :
    belonging intervals key (l.flatMap f) = l.flatMap fun a ↦ belonging intervals key (f a) :=
  List.filter_flatMap

theorem total_flatMap {α : Type} (l : List α) (f : α → List Segment) :
    total (l.flatMap f) = (l.map fun a ↦ total (f a)).sum := by
  induction l with
  | nil => rfl
  | cons a l ih => rw [List.flatMap_cons, total_append, ih, List.map_cons, List.sum_cons]

/-- The weights of sound shares are those of the segments of their pair. -/
theorem weighed_eq (hsame : graph.intervals = intervals)
    (hsound : ∀ r ∈ graph.events, ∀ s ∈ r.shares, ShareSound intervals s) (key : PairId) :
    graph.weighed key = total (graph.attributed key) := by
  have hsources : (graph.events.flatMap fun r ↦ sourcesOf r.shares) =
      (graph.events.flatMap (·.shares)).flatMap (·.sourceSegments) := by
    rw [List.flatMap_assoc]
    rfl
  rw [HistoricalReconstructedGraph.attributed, hsources, belonging_flatMap, total_flatMap,
    HistoricalReconstructedGraph.weighed, hsame]
  congr 1
  refine List.map_congr_left fun s hs ↦ ?_
  obtain ⟨r, hr, hs⟩ := List.mem_flatMap.1 hs
  exact (hsound r hr s hs).2 key

/-- Time that is paid once in a pair takes no more than the pair. -/
theorem weighed_le (hsame : graph.intervals = intervals)
    (hforward : ∀ i ∈ intervals, i.openedAt ≤ i.closedAt)
    (hkeys : (intervals.map (·.openingEventId)).Nodup)
    (hsound : ∀ r ∈ graph.events, ∀ s ∈ r.shares, ShareSound intervals s)
    (hapart : (graph.events.flatMap fun r ↦ sourcesOf r.shares).Pairwise
      fun s u ↦ Disjoint (span s) (span u)) {i : AttendanceInterval} (hi : i ∈ intervals)
    {key : PairId} (hkey : i.pairId = some key) : graph.weighed key ≤ i.closedAt - i.openedAt := by
  have hwithin : ∀ s ∈ graph.attributed key, s.1 ≤ s.2 ∧ i.openedAt ≤ s.1 ∧ s.2 ≤ i.closedAt := by
    intro s hs
    rw [HistoricalReconstructedGraph.attributed, hsame] at hs
    obtain ⟨hproper, j, hj, hid, hfrom, hto⟩ := pairOf_ok (mem_belonging.1 hs).2
    obtain rfl : i = j := by
      refine List.inj_on_of_nodup_map hkeys hi hj ?_
      obtain ⟨c, -, rfl⟩ := Option.map_eq_some_iff.1 hkey
      obtain ⟨c', -, hpair⟩ := Option.map_eq_some_iff.1 hid
      exact (congrArg Prod.fst hpair).symm
    exact ⟨hproper, hfrom, hto⟩
  rw [weighed_eq hsame hsound]
  refine total_le (fun s hs ↦ (hwithin s hs).1) (fun s hs ↦ (hwithin s hs).2) ?_ (hforward i hi)
  exact hapart.sublist List.filter_sublist

theorem pairwise_of_mem {α : Type} {R : α → α → Prop} {l : List α} (h : l.Pairwise R) {a b : α}
    (ha : a ∈ l) (hb : b ∈ l) : a = b ∨ R a b ∨ R b a := by
  have hcases : l.Pairwise fun a b ↦ R a b ∨ R b a := h.imp fun hab ↦ .inl hab
  have : Std.Symm fun a b ↦ R a b ∨ R b a := ⟨fun a b ↦ Or.symm⟩
  by_cases heq : a = b
  · exact .inl heq
  · exact .inr (hcases.forall ha hb heq)

/-- What a top-up pays is settled by no payroll but a frozen one. -/
theorem owed_unsettled (hordered : intervals.Pairwise fun i j ↦ i.closedAt ≤ j.openedAt)
    {w : Window} (hw : w ∈ windowsOf none [] (payrollsOf events))
    (hlegacy : w.event.isLegacy = true)
    {w' : Window} {r : HistoricalReconstructedEvent}
    (hw' : w' ∈ windowsOf none [] (payrollsOf events)) (hr : Replayed zone rows intervals w' r)
    (hfrozen : w'.event.isFrozen = true →
      Disjoint (w.owed zone rows intervals) (w'.settled zone rows intervals)) :
    Disjoint (w.owed zone rows intervals) (w'.settled zone rows intervals) := by
  cases hkind : w'.event.isFrozen with
  | true => exact hfrozen hkind
  | false =>
    refine Set.disjoint_left.2 fun t ht ↦ ?_
    have hnot : t ∉ w.settled zone rows intervals ∧
        (w.Before w' → w'.event.isFrozen = false → t ∉ w'.settled zone rows intervals) ∧
        (w'.Before w → Replayed zone rows intervals w' r → t ∉ w'.settled zone rows intervals) :=
      owed_not_settled hordered hlegacy ht
    obtain ⟨hown, hlater, hsooner⟩ := hnot
    have hbefore := payrollWindows_before events
    rcases pairwise_of_mem hbefore hw hw' with rfl | h | h
    · exact hown
    · exact hlater h hkind
    · exact hsooner h hr

theorem Rebuilt.sound (h : Rebuilt zone rows intervals events graph replays topUps) :
    ∀ r ∈ graph.events, ∀ s ∈ r.shares, ShareSound intervals s := by
  intro r hr s hs
  rcases List.mem_append.1 (h.sameEvents.mem_iff.1 hr) with hr | hr
  · obtain ⟨x, hx, rfl⟩ := List.mem_map.1 hr
    exact (h.replayed x hx).sound s hs
  · obtain ⟨e, -, htopped⟩ := forall₂_exists_left h.toppedUp hr
    obtain ⟨f, -, hpays⟩ := htopped.shares s hs
    exact hpays.sound

/-- The payrolls pay no time twice if the frozen ones do not. -/
theorem Rebuilt.payrolls_apart (hordered : intervals.Pairwise fun i j ↦ i.closedAt ≤ j.openedAt)
    (h : Rebuilt zone rows intervals events graph replays topUps) :
    ((replays.map (·.2)).Pairwise fun r r' ↦
      ∀ s ∈ sourcesOf r.shares, ∀ u ∈ sourcesOf r'.shares, Disjoint (span s) (span u)) ↔
    (windowsOf none [] (payrollsOf events)).Pairwise fun w w' ↦ w'.event.isFrozen = true →
      Disjoint (w.settled zone rows intervals) (w'.settled zone rows intervals) := by
  have hbefore := payrollWindows_before events
  rw [← h.windows, List.pairwise_map] at hbefore
  rw [← h.windows, List.pairwise_map, List.pairwise_map]
  constructor
  · intro hapart
    refine hapart.imp_of_mem fun {x y} hx hy hxy _ ↦ ?_
    rw [← (h.replayed x hx).settled, ← (h.replayed y hy).settled, disjoint_cover]
    exact hxy
  · intro hapart
    refine (hapart.and hbefore).imp_of_mem fun {x y} hx hy hxy ↦ ?_
    rw [← disjoint_cover, (h.replayed x hx).settled, (h.replayed y hy).settled]
    cases hkind : y.1.event.isFrozen with
    | true => exact hxy.1 hkind
    | false => exact settled_disjoint hordered (h.replayed x hx) hxy.2 hkind

theorem ToppedUp.apart (hordered : intervals.Pairwise fun i j ↦ i.closedAt ≤ j.openedAt)
    {e : HistoricalEvent} {r : HistoricalReconstructedEvent}
    (h : ToppedUp intervals (((windowsOf none [] (payrollsOf events)).filter
      (·.event.isLegacy)).map (·.facts zone rows intervals)) e r) :
    (sourcesOf r.shares).Pairwise fun s u ↦ Disjoint (span s) (span u) := by
  have honce : (r.shares.map fun s ↦ (s.windowEventId : ℤ)).Nodup := h.windows ▸ h.once
  rw [sourcesOf, List.pairwise_flatMap]
  constructor
  · intro s hs
    obtain ⟨f, -, hpays⟩ := h.shares s hs
    obtain ⟨seen, hseen⟩ := hpays.sound.1
    exact hseen.disjoint hordered
  · rw [List.Nodup, List.pairwise_map] at honce
    refine honce.imp_of_mem fun {s s'} hs hs' hne ↦ ?_
    obtain ⟨f, hf, hpays⟩ := h.shares s hs
    obtain ⟨f', hf', hpays'⟩ := h.shares s' hs'
    obtain ⟨w, hw, rfl⟩ := List.mem_map.1 hf
    obtain ⟨w', hw', rfl⟩ := List.mem_map.1 hf'
    have hbefore := payrollWindows_before events
    rw [← disjoint_cover, hpays.loss, hpays'.loss]
    rcases pairwise_of_mem hbefore (List.mem_filter.1 hw).1 (List.mem_filter.1 hw').1
      with rfl | hww | hww
    · exact absurd (by rw [hpays.window, hpays'.window]) hne
    · exact owed_disjoint hww
    · exact (owed_disjoint hww).symm

variable (hids : (events.map (·.id)).Nodup)

include hids

theorem window_of_id {w w' : Window} (hw : w ∈ windowsOf none [] (payrollsOf events))
    (hw' : w' ∈ windowsOf none [] (payrollsOf events)) (h : w.event.id = w'.event.id) : w = w' := by
  have hnodup : ((windowsOf none [] (payrollsOf events)).map fun w ↦ w.event.id).Nodup := by
    have hmap := congrArg (List.map (·.id)) (windowsOf_events none [] (payrollsOf events))
    rw [List.map_map] at hmap
    refine (congrArg List.Nodup hmap).mpr ?_
    refine List.Nodup.sublist (List.filter_sublist.map _) ?_
    exact ((List.perm_insertionSort HistoricalEvent.Sooner events).map (·.id)).nodup_iff.2 hids
  exact List.inj_on_of_nodup_map hnodup hw hw' h

/-- A top-up pays what is owed of the windows that it references. -/
theorem ToppedUp.covers {e : HistoricalEvent} {r : HistoricalReconstructedEvent}
    (h : ToppedUp intervals (((windowsOf none [] (payrollsOf events)).filter
      (·.event.isLegacy)).map (·.facts zone rows intervals)) e r) :
    cover (sourcesOf r.shares) = {t | ∃ w ∈ windowsOf none [] (payrollsOf events),
      w.event.isLegacy = true ∧ (w.event.id : ℤ) ∈ topUpReferences e ∧
      t ∈ w.owed zone rows intervals} := by
  have hwindow : ∀ s ∈ r.shares, ∃ w ∈ windowsOf none [] (payrollsOf events),
      w.event.isLegacy = true ∧ w.event.id = s.windowEventId ∧
      cover s.sourceSegments = w.owed zone rows intervals := by
    intro s hs
    obtain ⟨f, hf, hpays⟩ := h.shares s hs
    obtain ⟨w, hw, rfl⟩ := List.mem_map.1 hf
    obtain ⟨hmem, hlegacy⟩ := List.mem_filter.1 hw
    exact ⟨w, hmem, hlegacy, hpays.window.symm, hpays.loss⟩
  ext t
  constructor
  · rintro ⟨g, hg, ht⟩
    obtain ⟨s, hs, hgs⟩ := List.mem_flatMap.1 hg
    obtain ⟨w, hw, hlegacy, hid, hcover⟩ := hwindow s hs
    refine ⟨w, hw, hlegacy, ?_, hcover ▸ ⟨g, hgs, ht⟩⟩
    rw [← h.windows, hid]
    exact List.mem_map_of_mem hs
  · rintro ⟨w, hw, hlegacy, hreference, ht⟩
    rw [← h.windows] at hreference
    obtain ⟨s, hs, hsame⟩ := List.mem_map.1 hreference
    obtain ⟨w', hw', -, hid, hcover⟩ := hwindow s hs
    obtain rfl := window_of_id hids hw hw' (by rw [hid]; exact_mod_cast hsame.symm)
    rw [← hcover] at ht
    obtain ⟨g, hg, htg⟩ := ht
    exact ⟨g, List.mem_flatMap.2 ⟨s, hs, hg⟩, htg⟩

/-- The payrolls and the top-up pay no time twice if no frozen payroll names time of a top-up. -/
theorem Rebuilt.topUps_apart (hordered : intervals.Pairwise fun i j ↦ i.closedAt ≤ j.openedAt)
    (h : Rebuilt zone rows intervals events graph replays topUps) :
    (∀ r ∈ replays.map (·.2), ∀ r' ∈ topUps,
      ∀ s ∈ sourcesOf r.shares, ∀ u ∈ sourcesOf r'.shares, Disjoint (span s) (span u)) ↔
    ∀ e ∈ events, isTopUp e e.summary → ∀ w ∈ windowsOf none [] (payrollsOf events),
      w.event.isLegacy = true → (w.event.id : ℤ) ∈ topUpReferences e →
      ∀ w' ∈ windowsOf none [] (payrollsOf events), w'.event.isFrozen = true →
        Disjoint (w.owed zone rows intervals) (w'.settled zone rows intervals) := by
  constructor
  · intro hapart e he htop w hw hlegacy hreference w' hw' _
    have hordered' : e ∈ (events.insertionSort HistoricalEvent.Sooner).filter
        fun e ↦ isTopUp e e.summary :=
      List.mem_filter.2 ⟨(List.perm_insertionSort _ _).mem_iff.2 he, decide_eq_true htop⟩
    obtain ⟨r', hr', htopped⟩ := forall₂_exists_right h.toppedUp hordered'
    rw [← h.windows] at hw'
    obtain ⟨x, hx, rfl⟩ := List.mem_map.1 hw'
    have hdisjoint := disjoint_cover.2 (hapart x.2 (List.mem_map_of_mem hx) r' hr')
    rw [(h.replayed x hx).settled, htopped.covers hids] at hdisjoint
    refine Disjoint.mono_left ?_ hdisjoint.symm
    exact fun t ht ↦ ⟨w, hw, hlegacy, hreference, ht⟩
  · intro hfrozen r hr r' hr'
    obtain ⟨x, hx, rfl⟩ := List.mem_map.1 hr
    obtain ⟨e, he, htopped⟩ := forall₂_exists_left h.toppedUp hr'
    obtain ⟨hmem, htop⟩ := List.mem_filter.1 he
    have hwindow : x.1 ∈ windowsOf none [] (payrollsOf events) :=
      h.windows ▸ List.mem_map_of_mem hx
    rw [← disjoint_cover, (h.replayed x hx).settled, htopped.covers hids]
    refine Set.disjoint_left.2 fun t ht hpaid ↦ ?_
    obtain ⟨w, hw, hlegacy, hreference, howed⟩ := hpaid
    refine Set.disjoint_left.1 (owed_unsettled hordered hw hlegacy hwindow (h.replayed x hx) ?_)
      howed ht
    exact hfrozen e ((List.perm_insertionSort _ _).mem_iff.1 hmem) (of_decide_eq_true htop) w hw
      hlegacy hreference x.1 hwindow

/-- The events of the graph pay no time twice if its frozen payrolls do not. -/
theorem Rebuilt.apart_iff (hordered : intervals.Pairwise fun i j ↦ i.closedAt ≤ j.openedAt)
    (h : Rebuilt zone rows intervals events graph replays topUps) :
    ((graph.events.flatMap fun r ↦ sourcesOf r.shares).Pairwise
      fun s u ↦ Disjoint (span s) (span u)) ↔ FrozenApart zone rows intervals events := by
  have hsingle : topUps.Pairwise fun r r' ↦
      ∀ s ∈ sourcesOf r.shares, ∀ u ∈ sourcesOf r'.shares, Disjoint (span s) (span u) := by
    match topUps, h.single with
    | [], _ => exact .nil
    | [r], _ => exact List.pairwise_singleton _ r
  have heach : ∀ r ∈ replays.map (·.2) ++ topUps,
      (sourcesOf r.shares).Pairwise fun s u ↦ Disjoint (span s) (span u) := by
    intro r hr
    rcases List.mem_append.1 hr with hr | hr
    · obtain ⟨x, hx, rfl⟩ := List.mem_map.1 hr
      exact (h.replayed x hx).disjoint
    · obtain ⟨e, -, htopped⟩ := forall₂_exists_left h.toppedUp hr
      exact htopped.apart hordered
  have hperm := h.sameEvents.flatMap_right fun r ↦ sourcesOf r.shares
  rw [hperm.pairwise_iff fun hsu ↦ hsu.symm, List.pairwise_flatMap, List.pairwise_append,
    h.payrolls_apart hordered, h.topUps_apart hids hordered]
  constructor
  · rintro ⟨-, hpayrolls, -, htopUps⟩
    exact ⟨hpayrolls, htopUps⟩
  · rintro ⟨hpayrolls, htopUps⟩
    exact ⟨heach, hpayrolls, hsingle, htopUps⟩

end Exclusion

section Reconstruction

variable {zone : ClassZone} {isoformat : Instant → String} {uuid5 : String → String}
  {ctx : ReplayContext} {targetSeatId : ℕ} {A : AttendanceTables}
  {payrollEvents : List HistoricalEvent} {settingInputs : List HistoricalPayrollSettingInput}
  {sourceLimit eventLimit : ℕ} {asOf : Instant} {graph : HistoricalReconstructedGraph}

/-- An accepted reconstruction replays every payroll of the seat by the rule of its window and pays
a top-up exactly what its windows left unpaid. It pays no time of a pair twice, and no pair beyond
its extent, just when no frozen payroll names time that another event pays. -/
theorem reconstruction_exclusive (hsessions : (A.sessions.map (·.id)).Nodup)
    (hzone : ∀ t, t < dayEnd zone t) (hevents : (payrollEvents.map (·.id)).Nodup)
    (hreplay : (payrollEvents.map (·.replayKey)).Nodup)
    (h : reconstructHistoricalPayrollGraph isoformat uuid5 zone ctx targetSeatId A payrollEvents
      settingInputs sourceLimit eventLimit asOf = .ok graph) :
    (∃ replays topUps, Rebuilt zone (A.seatRows targetSeatId ctx.classId) graph.intervals
      (payrollEvents.filter fun e ↦ e.classId = ctx.classId ∧ e.targetSeatId = targetSeatId) graph
      replays topUps) ∧
    (graph.Exclusive ↔ FrozenApart zone (A.seatRows targetSeatId ctx.classId) graph.intervals
      (payrollEvents.filter fun e ↦ e.classId = ctx.classId ∧ e.targetSeatId = targetSeatId)) := by
  simp only [reconstructHistoricalPayrollGraph, require_bind_eq_ok] at h
  obtain ⟨-, -, -, -, -, -, h⟩ := h
  set rows := A.seatRows targetSeatId ctx.classId
  set events := payrollEvents.filter fun e ↦ e.classId = ctx.classId ∧ e.targetSeatId = targetSeatId
  have hperm := List.perm_insertionSort HistoricalEvent.Sooner events
  have hids : ∀ {α : Type} (key : HistoricalEvent → α), (payrollEvents.map key).Nodup →
      (events.map key).Nodup := fun key hkey ↦ hkey.sublist (List.filter_sublist.map key)
  have hrows : (rows.map (·.id)).Nodup := by
    have hsorted := (List.perm_insertionSort AttendanceSession.Sooner (A.sessions.filter fun r ↦
      r.targetSeatId = targetSeatId ∧ r.classId = ctx.classId)).map (·.id)
    exact hsorted.nodup_iff.2 (hsessions.sublist (List.filter_sublist.map _))
  have hpaired : WellPaired zone rows asOf (listAttendanceIntervals zone rows asOf) :=
    (listAttendanceIntervals_paired hrows seatRows_sorted hzone).1
  obtain ⟨replays, topUps, hsorted⟩ := snapshot_ok hpaired.ordered hpaired.openings
    ((hperm.map (·.replayKey)).nodup_iff.2 (hids _ hreplay)) h
  have hsame : graph.intervals = listAttendanceIntervals zone rows asOf := hsorted.sameIntervals
  rw [← hsame] at hpaired hsorted
  have hrebuilt := hsorted.of_sorted
  refine ⟨⟨replays, topUps, hrebuilt⟩, ?_⟩
  rw [← hrebuilt.apart_iff (hids _ hevents) hpaired.ordered]
  have hpairs : ∀ s ∈ graph.events.flatMap fun r ↦ sourcesOf r.shares,
      ∃ key, pairOf graph.intervals s = .ok key := by
    intro s hs
    obtain ⟨r, hr, hs⟩ := List.mem_flatMap.1 hs
    obtain ⟨built, hbuilt, hs⟩ := List.mem_flatMap.1 hs
    obtain ⟨seen, hseen⟩ := (hrebuilt.sound r hr built hbuilt).1
    exact hseen.exists_pair hs
  rw [← belonging_apart hpaired.ordered hpairs]
  constructor
  · exact fun hexclusive ↦ hexclusive.apart
  · intro hapart
    refine ⟨hapart, fun i hi key hkey ↦ ?_⟩
    rw [belonging_apart hpaired.ordered hpairs] at hapart
    exact weighed_le rfl hpaired.forward hpaired.openings hrebuilt.sound hapart hi hkey

/-- A payroll halfway through an hour of work by the first rule, and one after it of the rest. -/
def replayedPayrolls : List HistoricalEvent :=
  [{ id := 1, classId := "math", targetSeatId := 1, payrollEventType := .payroll
     idempotencyKey := "cycle-1", recordedAt := 12600000000, summaryJson := .none
     actorSeatId := 9, mechanism := "SYSTEM", correlationId := "corr-1" },
   { id := 2, classId := "math", targetSeatId := 1, payrollEventType := .payroll
     idempotencyKey := "cycle-2", recordedAt := 18000000000
     summaryJson := .dict [("settlement_rule", .str "closed_sessions")]
     actorSeatId := 9, mechanism := "SYSTEM", correlationId := "corr-2" }]

def replayedHour : AttendanceInterval :=
  ⟨1, some 2, 10800000000, 14400000000, 3600, .self, some .self, false⟩

def frozenPayroll : HistoricalEvent :=
  { id := 3, classId := "math", targetSeatId := 1, payrollEventType := .payroll
    idempotencyKey := "cycle-3", recordedAt := 21600000000
    summaryJson := .dict [("settlement_rule", .str "closed_sessions"),
      ("allocation_version", .int 1),
      ("pricing", .list [.dict [("policy_uuid", .str "p-1"), ("seconds", .int 3600),
        ("pay_rate_per_minute", .str "0.25"), ("intervals", .list [.dict
          (replayedHour.asEvidence toString 2)])]])]
    actorSeatId := 9, mechanism := "SYSTEM", correlationId := "corr-3" }

def replayOf (payrollEvents : List HistoricalEvent) :
    Except ReplayRaise HistoricalReconstructedGraph :=
  reconstructHistoricalPayrollGraph toString id fallBackZone ⟨"math", some 9, some 4, "teacher"⟩ 1
    sampleAttendance payrollEvents [⟨"math", "p-1", 0, 0, "0.25", some "0.25"⟩] 10 10 36000000000

/-- The two payrolls share the hour; a frozen payroll that names it again is accepted, and pays it
twice. -/
theorem replayOf_exclusive :
    (∃ graph, replayOf replayedPayrolls = .ok graph ∧ graph.Exclusive) ∧
    ∃ graph, replayOf (replayedPayrolls ++ [frozenPayroll]) = .ok graph ∧ ¬graph.Exclusive := by
  constructor
  · cases h : replayOf replayedPayrolls with
    | error raise =>
      have haccepted : (replayOf replayedPayrolls).toOption.isSome = true := by decide +kernel
      rw [h] at haccepted
      cases haccepted
    | ok graph =>
      obtain ⟨-, hiff⟩ := reconstruction_exclusive (by decide) fallBackZone_dayEnd (by decide)
        (by decide) h
      have hnone : ∀ w ∈ windowsOf none [] (payrollsOf replayedPayrolls),
          w.event.isFrozen = false := by decide +kernel
      refine ⟨graph, rfl, hiff.2 ⟨?_, ?_⟩⟩
      · refine List.pairwise_of_forall_mem_list fun w _ w' hw' hfrozen ↦ ?_
        rw [hnone w' hw'] at hfrozen
        cases hfrozen
      · intro e _ _ w _ _ _ w' hw' hfrozen
        rw [hnone w' hw'] at hfrozen
        cases hfrozen
  · cases h : replayOf (replayedPayrolls ++ [frozenPayroll]) with
    | error raise =>
      have haccepted : (replayOf (replayedPayrolls ++ [frozenPayroll])).toOption.isSome = true := by
        decide +kernel
      rw [h] at haccepted
      cases haccepted
    | ok graph =>
      obtain ⟨-, hiff⟩ := reconstruction_exclusive (by decide) fallBackZone_dayEnd (by decide)
        (by decide) h
      refine ⟨graph, rfl, fun hexclusive ↦ ?_⟩
      have hapart := (hiff.1 hexclusive).payrolls
      have hintervals : (replayOf (replayedPayrolls ++ [frozenPayroll])).toOption.map
          (·.intervals) = some [replayedHour] := by decide +kernel
      rw [h] at hintervals
      have hsame : graph.intervals = [replayedHour] := Option.some.inj hintervals
      rw [hsame, List.pairwise_iff_getElem] at hapart
      have hpaid := hapart 0 2 (by decide +kernel) (by decide +kernel) (by decide)
        (by decide +kernel)
      rw [Set.disjoint_left] at hpaid
      refine @hpaid 10800000000 ?_ ?_
      · rw [settled_legacy (by decide)]
        exact ⟨(10800000000, 12600000000), by decide +kernel, mem_span.2 (by decide)⟩
      · rw [mem_settled_frozen (by decide)]
        exact ⟨replayedHour, List.mem_singleton_self _, ⟨(1, 2), by decide, rfl⟩,
          mem_span.2 (by decide)⟩

end Reconstruction

end TokenHub.Attendance
