import Mathlib.Data.List.Nodup
import TokenHub.Attendance.Intervals

set_option autoImplicit false

namespace TokenHub.Attendance

open Rent

section Elapsed

/-- `AttendanceInterval.__iter__`. -/
def AttendanceInterval.span (i : AttendanceInterval) : Instant × Instant := (i.openedAt, i.closedAt)

def elapsedDuration (intervals : List (Instant × Instant)) : Except String ℤ :=
  if intervals = [] then .error "Empty interval list"
  else
    match intervals.findIdx? (fun p ↦ p.2 < p.1) with
    | some i => .error ("Interval " ++ toString i ++ " has end before start")
    | none =>
      let normalized := intervals.insertionSort (·.1 ≤ ·.1)
      if normalized.IsChain (fun p q ↦ ¬ q.1 < p.2) then
        .ok ((normalized.map (fun p ↦ p.2 - p.1)).sum / 1000000)
      else .error "Overlapping intervals detected"

variable {spans : List (Instant × Instant)}

theorem elapsedDuration_ok (hne : spans ≠ []) (hforward : ∀ p ∈ spans, p.1 ≤ p.2)
    (hordered : spans.Pairwise (fun p q ↦ p.2 ≤ q.1)) :
    elapsedDuration spans = .ok ((spans.map (fun p ↦ p.2 - p.1)).sum / 1000000) := by
  have hbackward : spans.findIdx? (fun p ↦ p.2 < p.1) = none := by
    rw [List.findIdx?_eq_none_iff]
    intro p hp
    simpa using hforward p hp
  have hstarts : spans.Pairwise (fun p q ↦ p.1 ≤ q.1) := by
    refine hordered.imp_of_mem ?_
    intro p q hp _ hpq
    exact (hforward p hp).trans hpq
  have hchain : spans.IsChain (fun p q ↦ ¬ q.1 < p.2) :=
    (hordered.imp fun h ↦ not_lt.2 h).isChain
  rw [elapsedDuration, if_neg hne, hbackward]
  dsimp only
  rw [List.Pairwise.insertionSort_eq hstarts, if_pos hchain]

end Elapsed

section Pairs

variable (zone : ClassZone) (rows : List AttendanceSession) (asOf : Instant)

/-- Intervals in chronological order that do not overlap, each of its own rows. -/
structure WellPaired (intervals : List AttendanceInterval) : Prop where
  forward : ∀ i ∈ intervals, i.openedAt ≤ i.closedAt
  ordered : intervals.Pairwise (fun i j ↦ i.closedAt ≤ j.openedAt)
  withinDay : ∀ i ∈ intervals, i.closedAt ≤ dayEnd zone i.openedAt
  past : ∀ i ∈ intervals, i.closedAt ≤ asOf
  opened : ∀ i ∈ intervals, ∃ r ∈ rows, r.id = i.openingEventId ∧ r.status = .active ∧
    r.timestamp = i.openedAt
  closed : ∀ i ∈ intervals, ∀ id ∈ i.closingEventId, ∃ r ∈ rows, r.id = id ∧
    r.status = .inactive ∧ r.timestamp = i.closedAt
  openings : (intervals.map (·.openingEventId)).Nodup
  closings : (intervals.filterMap (·.closingEventId)).Nodup

structure ProjectionInvariant (p : Projection) (todo : List AttendanceSession) : Prop where
  paired : WellPaired zone rows asOf p.intervals
  bounded : ∀ i ∈ p.intervals, i.closingEventId = none → i.boundedAtDayEnd = true
  ahead : ∀ i ∈ p.intervals, ∀ r ∈ todo, i.closedAt ≤ r.timestamp ∧ i.openingEventId ≠ r.id
  consumed : ∀ i ∈ p.intervals, ∀ r ∈ todo, i.closingEventId = some r.id →
    r.id ∈ p.consumedClosings
  isOpening : ∀ o ∈ p.opening, o ∈ rows ∧ o.status = .active ∧ o.timestamp ≤ asOf
  after : ∀ o ∈ p.opening, ∀ i ∈ p.intervals, i.closedAt ≤ o.timestamp ∧ i.openingEventId ≠ o.id
  before : ∀ o ∈ p.opening, ∀ r ∈ todo, o.timestamp ≤ r.timestamp ∧ o.id ≠ r.id

variable {zone rows asOf} {intervals : List AttendanceInterval} {o row : AttendanceSession}
  {closing : Option AttendanceSession} {stop : Instant} {bounded : Bool} {p : Projection}
  {todo : List AttendanceSession}

theorem WellPaired.snoc (h : WellPaired zone rows asOf intervals) (ho : o ∈ rows)
    (hactive : o.status = .active)
    (hafter : ∀ i ∈ intervals, i.closedAt ≤ o.timestamp ∧ i.openingEventId ≠ o.id)
    (hforward : o.timestamp ≤ stop) (hday : stop ≤ dayEnd zone o.timestamp) (hpast : stop ≤ asOf)
    (hclosing : ∀ c ∈ closing, c ∈ rows ∧ c.status = .inactive ∧ c.timestamp = stop ∧
      ∀ i ∈ intervals, i.closingEventId ≠ some c.id) :
    WellPaired zone rows asOf (intervals ++ [intervalOf o closing stop bounded]) := by
  have hmem : ∀ {P : AttendanceInterval → Prop}, (∀ i ∈ intervals, P i) →
      P (intervalOf o closing stop bounded) →
      ∀ i ∈ intervals ++ [intervalOf o closing stop bounded], P i := by
    intro P hold hnew i hi
    rcases List.mem_append.1 hi with hi | hi
    · exact hold i hi
    · rw [List.mem_singleton.1 hi]
      exact hnew
  constructor
  · exact hmem h.forward hforward
  · refine List.pairwise_append.2 ⟨h.ordered, List.pairwise_singleton _ _, ?_⟩
    intro i hi j hj
    rw [List.mem_singleton.1 hj]
    exact (hafter i hi).1
  · exact hmem h.withinDay hday
  · exact hmem h.past hpast
  · exact hmem h.opened ⟨o, ho, rfl, hactive, rfl⟩
  · refine hmem h.closed ?_
    intro id hid
    obtain ⟨c, hc, rfl⟩ := Option.mem_map.1 hid
    obtain ⟨hrow, hinactive, htime, -⟩ := hclosing c hc
    exact ⟨c, hrow, rfl, hinactive, htime⟩
  · rw [List.map_append]
    refine List.Nodup.append h.openings (List.nodup_singleton _) ?_
    intro id hid hid'
    obtain ⟨i, hi, rfl⟩ := List.mem_map.1 hid
    exact (hafter i hi).2 (List.mem_singleton.1 hid')
  · rw [List.filterMap_append]
    refine List.Nodup.append h.closings ?_ ?_
    · cases closing with
      | none => exact List.nodup_nil
      | some c => exact List.nodup_singleton _
    · intro id hid hid'
      obtain ⟨i, hi, hi'⟩ := List.mem_filterMap.1 hid
      obtain ⟨j, hj, hj'⟩ := List.mem_filterMap.1 hid'
      rw [List.mem_singleton.1 hj] at hj'
      obtain ⟨c, hc, rfl⟩ := Option.mem_map.1 hj'
      exact (hclosing c hc).2.2.2 i hi hi'

/-- A row that the loop passes over leaves what it carries. -/
theorem ProjectionInvariant.skip (h : ProjectionInvariant zone rows asOf p (row :: todo)) :
    ProjectionInvariant zone rows asOf p todo where
  paired := h.paired
  bounded := h.bounded
  ahead i hi r hr := h.ahead i hi r (List.mem_cons_of_mem row hr)
  consumed i hi r hr := h.consumed i hi r (List.mem_cons_of_mem row hr)
  isOpening := h.isOpening
  after := h.after
  before o ho r hr := h.before o ho r (List.mem_cons_of_mem row hr)

theorem ProjectionInvariant.halt (h : ProjectionInvariant zone rows asOf p todo) :
    ProjectionInvariant zone rows asOf p [] where
  paired := h.paired
  bounded := h.bounded
  ahead _ _ _ hr := absurd hr List.not_mem_nil
  consumed _ _ _ hr := absurd hr List.not_mem_nil
  isOpening := h.isOpening
  after := h.after
  before _ _ _ hr := absurd hr List.not_mem_nil

/-- An opening that the present row closes, by itself or at its day's end. -/
theorem ProjectionInvariant.close (h : ProjectionInvariant zone rows asOf p (row :: todo))
    (hopening : p.opening = some o) (hlater : ∀ r ∈ todo, row.timestamp ≤ r.timestamp)
    (hforward : o.timestamp ≤ stop) (hday : stop ≤ dayEnd zone o.timestamp)
    (hstop : stop ≤ row.timestamp) (hpast : row.timestamp ≤ asOf)
    (hbounded : closing = none → bounded = true)
    (hclosing : ∀ c ∈ closing, c ∈ rows ∧ c.status = .inactive ∧ c.timestamp = stop ∧
      ∀ i ∈ p.intervals, i.closingEventId ≠ some c.id)
    {consumed : List ℕ} (hconsumed : p.consumedClosings ⊆ consumed)
    (hspent : ∀ c ∈ closing, ∀ r ∈ todo, c.id = r.id → r.id ∈ consumed)
    {opening : Option AttendanceSession}
    (hnext : ∀ o' ∈ opening, o' = row ∧ row ∈ rows ∧ row.status = .active ∧
      ∀ r ∈ todo, row.id ≠ r.id) :
    ProjectionInvariant zone rows asOf
      ⟨p.intervals ++ [intervalOf o closing stop bounded], opening, consumed⟩ todo := by
  obtain ⟨ho, hactive, -⟩ := h.isOpening o hopening
  have hafter := h.after o hopening
  have hbefore := h.before o hopening
  constructor
  · exact h.paired.snoc ho hactive hafter hforward hday (hstop.trans hpast) hclosing
  · intro i hi hnone
    rcases List.mem_append.1 hi with hi | hi
    · exact h.bounded i hi hnone
    · rw [List.mem_singleton.1 hi] at hnone ⊢
      exact hbounded (Option.map_eq_none_iff.1 hnone)
  · intro i hi r hr
    rcases List.mem_append.1 hi with hi | hi
    · exact h.ahead i hi r (List.mem_cons_of_mem row hr)
    · rw [List.mem_singleton.1 hi]
      exact ⟨hstop.trans (hlater r hr), (hbefore r (List.mem_cons_of_mem row hr)).2⟩
  · intro i hi r hr hid
    rcases List.mem_append.1 hi with hi | hi
    · exact hconsumed (h.consumed i hi r (List.mem_cons_of_mem row hr) hid)
    · rw [List.mem_singleton.1 hi] at hid
      obtain ⟨c, hc, hid⟩ := Option.map_eq_some_iff.1 hid
      exact hspent c hc r hr hid
  · intro o' ho'
    obtain ⟨rfl, hrow, hstatus, -⟩ := hnext o' ho'
    exact ⟨hrow, hstatus, hpast⟩
  · intro o' ho' i hi
    obtain ⟨rfl, -⟩ := hnext o' ho'
    rcases List.mem_append.1 hi with hi | hi
    · exact h.ahead i hi o' List.mem_cons_self
    · rw [List.mem_singleton.1 hi]
      exact ⟨hstop, (hbefore o' List.mem_cons_self).2⟩
  · intro o' ho' r hr
    obtain ⟨rfl, -, -, hids⟩ := hnext o' ho'
    exact ⟨hlater r hr, hids r hr⟩

/-- A recorded closure at a day's end closes no earlier interval. -/
theorem ProjectionInvariant.boundaryClose_fresh (h : ProjectionInvariant zone rows asOf p todo)
    (hids : (rows.map (·.id)).Nodup) (hzone : ∀ t, t < dayEnd zone t) (hopening : p.opening = some o)
    {c : AttendanceSession}
    (hc : boundaryClose rows p.consumedClosings (dayEnd zone o.timestamp) = some c) :
    c ∈ rows ∧ c.status = .inactive ∧ c.timestamp = dayEnd zone o.timestamp ∧
      ∀ i ∈ p.intervals, i.closingEventId ≠ some c.id := by
  have hmem := List.mem_of_find?_eq_some hc
  have hfound := List.find?_some hc
  rw [decide_eq_true_iff] at hfound
  obtain ⟨-, hinactive, htime, -⟩ := hfound
  refine ⟨hmem, hinactive, htime, ?_⟩
  intro i hi hid
  obtain ⟨r, hr, hsame, -, hclosed⟩ := h.paired.closed i hi c.id hid
  obtain rfl := List.inj_on_of_nodup_map hids hr hmem hsame
  have hle := (h.after o hopening i hi).1
  rw [← hclosed, htime] at hle
  exact absurd (hzone o.timestamp) (not_lt.2 hle)

theorem ProjectionInvariant.step (h : ProjectionInvariant zone rows asOf p (row :: todo))
    (hids : (rows.map (·.id)).Nodup) (hzone : ∀ t, t < dayEnd zone t) (hrow : row ∈ rows)
    (hsorted : (row :: todo).Pairwise AttendanceSession.Sooner)
    (htodo : ((row :: todo).map (·.id)).Nodup) (hpast : row.timestamp ≤ asOf)
    (hunspent : row.id ∉ p.consumedClosings) :
    ProjectionInvariant zone rows asOf (p.step zone rows row) todo := by
  have hlater : ∀ r ∈ todo, row.timestamp ≤ r.timestamp := by
    intro r hr
    rcases List.rel_of_pairwise_cons hsorted hr with hlt | ⟨heq, -⟩
    · exact hlt.le
    · exact heq.le
  have hown : ∀ r ∈ todo, row.id ≠ r.id := by
    intro r hr heq
    rw [List.map_cons, List.nodup_cons] at htodo
    exact htodo.1 (heq ▸ List.mem_map_of_mem hr)
  rw [Projection.step]
  cases hstatus : row.status with
  | active =>
    cases hopening : p.opening with
    | none =>
      constructor
      · exact h.paired
      · exact h.bounded
      · exact h.skip.ahead
      · exact h.skip.consumed
      · intro o' ho'
        obtain rfl := Option.some.inj ho'
        exact ⟨hrow, hstatus, hpast⟩
      · intro o' ho' i hi
        obtain rfl := Option.some.inj ho'
        exact h.ahead i hi row List.mem_cons_self
      · intro o' ho' r hr
        obtain rfl := Option.some.inj ho'
        exact ⟨hlater r hr, hown r hr⟩
    | some o =>
      dsimp only
      split_ifs with hsameDay
      · exact h.skip
      · refine h.close hopening hlater (hzone _).le le_rfl (not_lt.1 hsameDay) hpast (fun _ ↦ rfl)
          ?_ (List.subset_append_left _ _) ?_ ?_
        · intro c hc
          exact h.boundaryClose_fresh hids hzone hopening hc
        · intro c hc r hr hid
          rw [← hid, Option.mem_def.1 hc]
          exact List.mem_append_right _ List.mem_cons_self
        · intro o' ho'
          obtain rfl := Option.some.inj ho'
          exact ⟨rfl, hrow, hstatus, hown⟩
  | inactive =>
    cases hopening : p.opening with
    | none => exact h.skip
    | some o =>
      have hafter := (h.before o hopening row List.mem_cons_self).1
      dsimp only
      split_ifs with hlate
      · have hstop : dayEnd zone o.timestamp ≤ row.timestamp := by
          rcases hlate with hearly | hlate
          · exact absurd hearly (not_lt.2 hafter)
          · exact hlate.le
        refine h.close hopening hlater (hzone _).le le_rfl hstop hpast (fun _ ↦ rfl) ?_
          (List.Subset.refl _) ?_ ?_
        · exact fun c hc ↦ by cases hc
        · exact fun c hc ↦ by cases hc
        · exact fun o' ho' ↦ by cases ho'
      · rw [not_or, not_lt, not_lt] at hlate
        refine h.close hopening hlater hafter hlate.2 le_rfl hpast ?_ ?_ (List.Subset.refl _)
          ?_ ?_
        · exact fun hnone ↦ by cases hnone
        · intro c hc
          obtain rfl := Option.some.inj hc
          refine ⟨hrow, hstatus, rfl, ?_⟩
          intro i hi hid
          exact hunspent (h.consumed i hi row List.mem_cons_self hid)
        · intro c hc r hr hid
          obtain rfl := Option.some.inj hc
          exact absurd hid (hown r hr)
        · exact fun o' ho' ↦ by cases ho'

/-- The loop's result, whichever row it stops at. -/
theorem ProjectionInvariant.project (hids : (rows.map (·.id)).Nodup)
    (hzone : ∀ t, t < dayEnd zone t) (htodo : todo.Sublist rows)
    (hsorted : todo.Pairwise AttendanceSession.Sooner)
    (h : ProjectionInvariant zone rows asOf p todo) :
    ProjectionInvariant zone rows asOf (projectRows zone rows asOf todo p) [] := by
  induction todo generalizing p with
  | nil => exact h
  | cons row todo ih =>
    have hrest : todo.Sublist rows := (List.sublist_cons_self row todo).trans htodo
    rw [projectRows]
    split_ifs with hspent hafter
    · exact ih hrest (List.pairwise_cons.1 hsorted).2 h.skip
    · exact h.halt
    · refine ih hrest (List.pairwise_cons.1 hsorted).2 ?_
      exact h.step hids hzone (htodo.subset List.mem_cons_self) hsorted
        ((htodo.map _).nodup hids) (not_lt.1 hafter) hspent

theorem listAttendanceIntervals_paired (hids : (rows.map (·.id)).Nodup)
    (hsorted : rows.Pairwise AttendanceSession.Sooner) (hzone : ∀ t, t < dayEnd zone t) :
    WellPaired zone rows asOf (listAttendanceIntervals zone rows asOf) ∧
      ∀ i ∈ (listAttendanceIntervals zone rows asOf).dropLast, i.closingEventId = none →
        i.boundedAtDayEnd = true := by
  have hstart : ProjectionInvariant zone rows asOf ⟨[], none, []⟩ rows := by
    constructor
    case paired => constructor <;> simp
    all_goals simp
  have h := hstart.project hids hzone (List.Sublist.refl rows) hsorted
  rw [listAttendanceIntervals]
  generalize projectRows zone rows asOf rows ⟨[], none, []⟩ = p at h
  dsimp only
  cases hopening : p.opening with
  | none => exact ⟨h.paired, fun i hi ↦ h.bounded i (List.dropLast_subset _ hi)⟩
  | some o =>
    obtain ⟨ho, hactive, hpast⟩ := h.isOpening o hopening
    have hday := hzone o.timestamp
    refine ⟨?_, ?_⟩
    · exact h.paired.snoc ho hactive (h.after o hopening) (le_min hpast hday.le)
        (min_le_right _ _) (min_le_left _ _) (fun c hc ↦ by cases hc)
    · rw [List.dropLast_concat]
      exact h.bounded

/-- The pairs of every log are well formed, and some of them always have a duration. -/
theorem attendance_pairs_well_formed (zone : ClassZone) (hzone : ∀ t, t < dayEnd zone t)
    (rows : List AttendanceSession) (hids : (rows.map (·.id)).Nodup)
    (hsorted : rows.Pairwise AttendanceSession.Sooner) (asOf : Instant) :
    WellPaired zone rows asOf (listAttendanceIntervals zone rows asOf) ∧
      (∀ i ∈ (listAttendanceIntervals zone rows asOf).dropLast, i.closingEventId = none →
        i.boundedAtDayEnd = true) ∧
      ∀ some', some' ≠ [] → some'.Sublist (listAttendanceIntervals zone rows asOf) →
        ∃ seconds, elapsedDuration (some'.map (·.span)) = .ok seconds := by
  have hlist : WellPaired zone rows asOf (listAttendanceIntervals zone rows asOf) ∧ _ :=
    listAttendanceIntervals_paired hids hsorted hzone
  obtain ⟨hpaired, hbounded⟩ := hlist
  refine ⟨hpaired, hbounded, ?_⟩
  intro some' hne hsome
  refine ⟨_, elapsedDuration_ok ?_ ?_ ?_⟩
  · exact mt List.map_eq_nil_iff.1 hne
  · intro p hp
    obtain ⟨i, hi, rfl⟩ := List.mem_map.1 hp
    exact hpaired.forward i (hsome.subset hi)
  · exact List.pairwise_map.2 (hpaired.ordered.sublist hsome)

end Pairs

section Sample

/-- Clocks that go back from one o'clock to midnight at the end of the first hour, as those of the
Azores do in autumn: `localize` takes a midnight that comes twice for the second one. -/
def fallBackDate (t : ℤ) : ℤ :=
  if t < 3600000000 then t / 86400000000 else (t - 3600000000) / 86400000000

def fallBackMidnight (d : ℤ) : ℤ :=
  if 0 ≤ d then d * 86400000000 + 3600000000 else d * 86400000000

def fallBackZone : ClassZone where
  localDate := fallBackDate
  startOfDate := fallBackMidnight
  startOfDate_localDate d := by
    have hdate : fallBackDate (fallBackMidnight d) = d := by
      rw [fallBackDate, fallBackMidnight]
      split_ifs <;> omega
    rw [hdate]

theorem fallBackZone_dayEnd (t : Instant) : t < dayEnd fallBackZone t := by
  have h : ∀ t : ℤ, t < fallBackMidnight (fallBackDate t + 1) := by
    intro t
    rw [fallBackDate, fallBackMidnight]
    split_ifs <;> omega
  exact h t

def sampleRow (id : ℕ) (status : AttendanceStatus) (timestamp : Instant) : AttendanceSession :=
  ⟨id, 1, 1, "math", .self, status, .startWork, none, timestamp⟩

/-- Work that starts within the hour that comes twice starts before its own day, and no intervals
at all have no duration. -/
theorem repeated_midnight_opens_early :
    (listAttendanceIntervals fallBackZone [sampleRow 1 .active 1800000000] 7200000000).map
        (fun i ↦ (i.openedAt, dayStart fallBackZone i.openedAt)) = [(1800000000, 3600000000)] ∧
      elapsedDuration (([] : List AttendanceInterval).map (·.span)) =
        .error "Empty interval list" := by
  decide +kernel

/-- Work over a day's end that was not recorded, and work that goes on. -/
theorem attendance_pairs_well_formed_overnight :
    (listAttendanceIntervals fallBackZone
      [sampleRow 1 .active (-7200000000), sampleRow 2 .active 7200000000] 9000000000).length = 2 ∧
    WellPaired fallBackZone [sampleRow 1 .active (-7200000000), sampleRow 2 .active 7200000000]
      9000000000 (listAttendanceIntervals fallBackZone
        [sampleRow 1 .active (-7200000000), sampleRow 2 .active 7200000000] 9000000000) ∧
    ∃ seconds, elapsedDuration ((listAttendanceIntervals fallBackZone
      [sampleRow 1 .active (-7200000000), sampleRow 2 .active 7200000000] 9000000000).map
        (·.span)) = .ok seconds := by
  have h := attendance_pairs_well_formed fallBackZone fallBackZone_dayEnd
    [sampleRow 1 .active (-7200000000), sampleRow 2 .active 7200000000] (by decide) (by decide)
    9000000000
  exact ⟨by decide +kernel, h.1, h.2.2 _ (by decide +kernel) (List.Sublist.refl _)⟩

end Sample

end TokenHub.Attendance
