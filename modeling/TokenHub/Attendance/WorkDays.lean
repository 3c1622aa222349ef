import Mathlib.Data.Int.ConditionallyCompleteOrder
import Mathlib.Data.List.Chain
import TokenHub.Attendance.Pairing

set_option autoImplicit false

namespace TokenHub.Attendance

open Rent

section Readings

variable (start : Option Instant) (stop : Instant)

/-- A session that a row closes, as `_pair_active_intervals` bounds it. -/
def boundedSpan (opened closed : Instant) : Option (Instant × Instant) :=
  if start.any (fun b ↦ ¬ b < closed) then none
  -- a session belongs wholly to the day it opened on
  else if start.any (fun b ↦ opened < b) then none
  else if min closed stop < opened then none
  else some (opened, min closed stop)

def openSpan (opened : Instant) : Option (Instant × Instant) :=
  if start.any (fun b ↦ opened < b) ∨ stop < opened then none else some (opened, stop)

/-- The loop of `_pair_active_intervals`, from the start of the session under way. -/
def pairActiveRows : Option Instant → List AttendanceSession → List (Instant × Instant)
  | none, [] => []
  | some opened, [] => (openSpan start stop opened).toList
  | active, row :: rest =>
    match row.status, active with
    | .active, _ => pairActiveRows (some row.timestamp) rest
    | .inactive, none => pairActiveRows none rest
    | .inactive, some opened =>
      (boundedSpan start stop opened row.timestamp).toList ++ pairActiveRows none rest

def pairActiveIntervals (rows : List AttendanceSession) : List (Instant × Instant) :=
  pairActiveRows start stop none rows

end Readings

def elapsedAttendanceSeconds (spans : List (Instant × Instant)) : Except String ℤ :=
  if spans = [] then .ok 0 else elapsedDuration spans

section Seconds

variable (zone : ClassZone) (rows : List AttendanceSession) (now : Instant)

def calculateWorkedAttendanceSecondsForDate (date : ℤ) : Except String ℤ :=
  let stop := min (zone.startOfDate (date + 1)) now
  if zone.startOfDate date < stop then
    elapsedAttendanceSeconds (pairActiveIntervals (some (zone.startOfDate date)) stop rows)
  else .ok 0

def calculateWorkedAttendanceSecondsToday : Except String ℤ :=
  let stop := min (dayEnd zone now) now
  if dayStart zone now < stop then
    elapsedAttendanceSeconds (pairActiveIntervals (some (dayStart zone now)) stop rows)
  else .ok 0

def intervalsOpenedOn (date : ℤ) : List AttendanceInterval :=
  (listAttendanceIntervals zone rows now).filter (fun i ↦ zone.localDate i.openedAt = date)

end Seconds

section Sessions

/-- The sessions of a seat's rows: what opens one and, where it has been closed, what closes it.
A row that comes while a session is under way opens none. -/
def sessionsFrom : Option AttendanceSession → List AttendanceSession →
    List (AttendanceSession × Option AttendanceSession)
  | none, [] => []
  | some o, [] => [(o, none)]
  | opening, row :: rest =>
    match row.status, opening with
    | .active, none => sessionsFrom (some row) rest
    | .active, some o => sessionsFrom (some o) rest
    | .inactive, none => sessionsFrom none rest
    | .inactive, some o => (o, some row) :: sessionsFrom none rest

/-- Of two successive `active` rows neither is later. -/
def Steady (rows : List AttendanceSession) : Prop :=
  rows.IsChain (fun r s ↦ r.status = .active → s.status = .active → r.timestamp = s.timestamp)

variable {rows : List AttendanceSession} {o : AttendanceSession} {now : Instant}
  {zone : ClassZone}

theorem Steady.tail {row : AttendanceSession} (h : Steady (row :: rows)) : Steady rows :=
  List.IsChain.tail h

theorem Steady.head {row next : AttendanceSession} (h : Steady (row :: next :: rows))
    (hrow : row.status = .active) (hnext : next.status = .active) :
    row.timestamp = next.timestamp :=
  (List.isChain_cons_cons.1 h).1 hrow hnext

/-- The row that a steady session goes on with starts when the session did. -/
def Follows (opening : Option AttendanceSession) (rows : List AttendanceSession) : Prop :=
  ∀ o ∈ opening, ∀ row ∈ rows.head?, row.status = .active → row.timestamp = o.timestamp

theorem Steady.follows {row : AttendanceSession} (h : Steady (row :: rows))
    (hrow : row.status = .active) {o : AttendanceSession} (ho : row.timestamp = o.timestamp) :
    Follows (some o) rows := by
  intro o' ho' next hnext hactive
  obtain rfl := Option.some.inj ho'
  cases rows with
  | nil => cases hnext
  | cons r rest =>
    obtain rfl := Option.some.inj hnext
    rw [← h.head hrow hactive, ho]

theorem follows_none : Follows none rows := nofun

/-- What `list_attendance_intervals` makes of one session. -/
def canonicalInterval (zone : ClassZone) (now : Instant)
    (s : AttendanceSession × Option AttendanceSession) : AttendanceInterval :=
  match s.2 with
  | some c =>
    if dayEnd zone s.1.timestamp < c.timestamp then
      intervalOf s.1 none (dayEnd zone s.1.timestamp) true
    else intervalOf s.1 (some c) c.timestamp false
  | none =>
    let stop := min now (dayEnd zone s.1.timestamp)
    intervalOf s.1 none stop (stop = dayEnd zone s.1.timestamp)

/-- The loop of `list_attendance_intervals` where nothing reopens a session. -/
theorem projectRows_steady (all : List AttendanceSession) (hzone : ∀ t, t < dayEnd zone t)
    (hsteady : Steady rows) (hpast : ∀ r ∈ rows, r.timestamp ≤ now)
    (hsorted : rows.Pairwise AttendanceSession.Sooner) {opening : Option AttendanceSession}
    (hfollows : Follows opening rows) (hfrom : ∀ o ∈ opening, ∀ r ∈ rows, o.timestamp ≤ r.timestamp)
    (intervals : List AttendanceInterval) :
    let p := projectRows zone all now rows ⟨intervals, opening, []⟩
    p.intervals ++ p.opening.toList.map (fun o ↦ canonicalInterval zone now (o, none)) =
      intervals ++ (sessionsFrom opening rows).map (canonicalInterval zone now) := by
  induction rows generalizing opening intervals with
  | nil =>
    cases opening with
    | none => simp [projectRows, sessionsFrom]
    | some o => simp [projectRows, sessionsFrom]
  | cons row rows ih =>
    have hlater : ∀ r ∈ rows, row.timestamp ≤ r.timestamp := by
      intro r hr
      rcases List.rel_of_pairwise_cons hsorted hr with hlt | ⟨heq, -⟩
      · exact hlt.le
      · exact heq.le
    have hrest := @ih hsteady.tail (fun r hr ↦ hpast r (List.mem_cons_of_mem row hr))
      (List.pairwise_cons.1 hsorted).2
    have hnow : ¬ now < row.timestamp := not_lt.2 (hpast row List.mem_cons_self)
    rw [projectRows, if_neg List.not_mem_nil, if_neg hnow]
    cases hstatus : row.status with
    | active =>
      cases opening with
      | none =>
        have hstep : Projection.step zone all ⟨intervals, none, []⟩ row =
            ⟨intervals, some row, []⟩ := by
          rw [Projection.step, hstatus]
        have hsessions : sessionsFrom none (row :: rows) = sessionsFrom (some row) rows := by
          simp only [sessionsFrom, hstatus]
        rw [hstep, hsessions]
        refine hrest (hsteady.follows hstatus rfl) ?_ intervals
        intro o ho r hr
        obtain rfl := Option.some.inj ho
        exact hlater r hr
      | some o =>
        have htime := hfollows o rfl row rfl hstatus
        have hstep : Projection.step zone all ⟨intervals, some o, []⟩ row =
            ⟨intervals, some o, []⟩ := by
          rw [Projection.step, hstatus]
          exact if_pos (htime ▸ hzone o.timestamp)
        have hsessions : sessionsFrom (some o) (row :: rows) = sessionsFrom (some o) rows := by
          simp only [sessionsFrom, hstatus]
        rw [hstep, hsessions]
        refine hrest (hsteady.follows hstatus htime) ?_ intervals
        intro o' ho' r hr
        obtain rfl := Option.some.inj ho'
        exact htime ▸ hlater r hr
    | inactive =>
      cases opening with
      | none =>
        have hstep : Projection.step zone all ⟨intervals, none, []⟩ row =
            ⟨intervals, none, []⟩ := by
          rw [Projection.step, hstatus]
        have hsessions : sessionsFrom none (row :: rows) = sessionsFrom none rows := by
          simp only [sessionsFrom, hstatus]
        rw [hstep, hsessions]
        exact hrest follows_none (fun o ho ↦ absurd ho (Option.not_mem_none o)) intervals
      | some o =>
        have hforward : ¬ row.timestamp < o.timestamp :=
          not_lt.2 (hfrom o rfl row List.mem_cons_self)
        have hstep : Projection.step zone all ⟨intervals, some o, []⟩ row =
            ⟨intervals ++ [canonicalInterval zone now (o, some row)], none, []⟩ := by
          rw [Projection.step, hstatus]
          simp only [canonicalInterval, hforward, false_or]
          split_ifs <;> rfl
        have hsessions : sessionsFrom (some o) (row :: rows) =
            (o, some row) :: sessionsFrom none rows := by
          simp only [sessionsFrom, hstatus]
        rw [hstep, hsessions, List.map_cons]
        refine (hrest follows_none (fun o ho ↦ absurd ho (Option.not_mem_none o)) _).trans ?_
        rw [List.append_assoc, List.singleton_append]

theorem listAttendanceIntervals_steady (hzone : ∀ t, t < dayEnd zone t) (hsteady : Steady rows)
    (hpast : ∀ r ∈ rows, r.timestamp ≤ now) (hsorted : rows.Pairwise AttendanceSession.Sooner) :
    listAttendanceIntervals zone rows now =
      (sessionsFrom none rows).map (canonicalInterval zone now) := by
  have h := projectRows_steady rows hzone hsteady hpast hsorted follows_none nofun []
  rw [List.nil_append] at h
  rw [← h, listAttendanceIntervals]
  dsimp only
  cases (projectRows zone rows now rows ⟨[], none, []⟩).opening with
  | none => exact (List.append_nil _).symm
  | some o => rfl

/-- What `_pair_active_intervals` makes of one session. -/
def dayIntervals (start : Option Instant) (stop : Instant)
    (s : AttendanceSession × Option AttendanceSession) : Option (Instant × Instant) :=
  match s.2 with
  | some c => boundedSpan start stop s.1.timestamp c.timestamp
  | none => openSpan start stop s.1.timestamp

/-- The loop of `_pair_active_intervals` where nothing reopens a session. -/
theorem pairActiveRows_steady (start : Option Instant) (stop : Instant) (hsteady : Steady rows)
    {opening : Option AttendanceSession} (hfollows : Follows opening rows) :
    pairActiveRows start stop (opening.map (·.timestamp)) rows =
      (sessionsFrom opening rows).filterMap (dayIntervals start stop) := by
  induction rows generalizing opening with
  | nil =>
    cases opening with
    | none => rfl
    | some o => cases h : openSpan start stop o.timestamp <;>
        simp [pairActiveRows, sessionsFrom, dayIntervals, h]
  | cons row rows ih =>
    cases hstatus : row.status with
    | active =>
      cases opening with
      | none =>
        have hrest := ih hsteady.tail (hsteady.follows hstatus rfl)
        simp only [Option.map_none, pairActiveRows, sessionsFrom, hstatus]
        exact hrest
      | some o =>
        have htime := hfollows o rfl row rfl hstatus
        have hrest := ih hsteady.tail (hsteady.follows hstatus htime)
        simp only [Option.map_some, pairActiveRows, sessionsFrom, hstatus, htime]
        exact hrest
    | inactive =>
      have hrest := ih hsteady.tail follows_none
      cases opening with
      | none =>
        simp only [Option.map_none, pairActiveRows, sessionsFrom, hstatus]
        exact hrest
      | some o =>
        simp only [Option.map_some, pairActiveRows, sessionsFrom, hstatus, List.filterMap_cons]
        cases h : boundedSpan start stop o.timestamp row.timestamp with
        | none =>
          simp only [dayIntervals, h]
          exact hrest
        | some p =>
          simp only [dayIntervals, h]
          exact congrArg (p :: ·) hrest

theorem mem_sessionsFrom {opening : Option AttendanceSession}
    (hsorted : rows.Pairwise AttendanceSession.Sooner)
    (hfrom : ∀ o ∈ opening, ∀ r ∈ rows, o.timestamp ≤ r.timestamp)
    {s : AttendanceSession × Option AttendanceSession} (hs : s ∈ sessionsFrom opening rows) :
    (s.1 ∈ opening ∨ s.1 ∈ rows ∧ s.1.status = .active) ∧
      ∀ c ∈ s.2, c ∈ rows ∧ c.status = .inactive ∧ s.1.timestamp ≤ c.timestamp := by
  induction rows generalizing opening with
  | nil =>
    cases opening with
    | none => cases hs
    | some o =>
      rw [sessionsFrom, List.mem_singleton] at hs
      subst hs
      exact ⟨.inl rfl, nofun⟩
  | cons row rows ih =>
    have hrest : ∀ {opening : Option AttendanceSession},
        (∀ o ∈ opening, ∀ r ∈ rows, o.timestamp ≤ r.timestamp) → s ∈ sessionsFrom opening rows →
          (s.1 ∈ opening ∨ s.1 ∈ row :: rows ∧ s.1.status = .active) ∧
            ∀ c ∈ s.2, c ∈ row :: rows ∧ c.status = .inactive ∧ s.1.timestamp ≤ c.timestamp := by
      intro opening hfrom hs
      obtain ⟨hopens, hcloses⟩ := ih (List.pairwise_cons.1 hsorted).2 hfrom hs
      refine ⟨hopens.imp_right fun h ↦ ⟨List.mem_cons_of_mem row h.1, h.2⟩, ?_⟩
      intro c hc
      exact ⟨List.mem_cons_of_mem row (hcloses c hc).1, (hcloses c hc).2⟩
    cases hstatus : row.status with
    | active =>
      cases opening with
      | none =>
        simp only [sessionsFrom, hstatus] at hs
        have hlater : ∀ o ∈ some row, ∀ r ∈ rows, o.timestamp ≤ r.timestamp := by
          intro o ho r hr
          obtain rfl := Option.some.inj ho
          exact (List.rel_of_pairwise_cons hsorted hr).timestamp_le
        obtain ⟨hopens, hcloses⟩ := hrest hlater hs
        refine ⟨.inr ?_, hcloses⟩
        rcases hopens with hopens | hopens
        · obtain rfl := Option.some.inj hopens
          exact ⟨List.mem_cons_self, hstatus⟩
        · exact hopens
      | some o =>
        simp only [sessionsFrom, hstatus] at hs
        exact hrest (fun o' ho' r hr ↦ hfrom o' ho' r (List.mem_cons_of_mem row hr)) hs
    | inactive =>
      cases opening with
      | none =>
        simp only [sessionsFrom, hstatus] at hs
        exact hrest nofun hs
      | some o =>
        simp only [sessionsFrom, hstatus, List.mem_cons] at hs
        rcases hs with rfl | hs
        · refine ⟨.inl rfl, ?_⟩
          intro c hc
          obtain rfl := Option.some.inj hc
          exact ⟨List.mem_cons_self, hstatus, hfrom o rfl row List.mem_cons_self⟩
        · obtain ⟨hopens, hcloses⟩ := @hrest none nofun hs
          exact ⟨hopens.imp_left nofun, hcloses⟩

theorem sessionsFrom_ordered {opening : Option AttendanceSession}
    (hsorted : rows.Pairwise AttendanceSession.Sooner)
    (hfrom : ∀ o ∈ opening, ∀ r ∈ rows, o.timestamp ≤ r.timestamp) :
    (sessionsFrom opening rows).Pairwise
      (fun s t ↦ ∃ c, s.2 = some c ∧ c.timestamp ≤ t.1.timestamp) := by
  induction rows generalizing opening with
  | nil => cases opening <;> simp [sessionsFrom]
  | cons row rows ih =>
    have hlater : ∀ r ∈ rows, row.timestamp ≤ r.timestamp :=
      fun r hr ↦ (List.rel_of_pairwise_cons hsorted hr).timestamp_le
    have htail := (List.pairwise_cons.1 hsorted).2
    cases hstatus : row.status with
    | active =>
      cases opening with
      | none =>
        simp only [sessionsFrom, hstatus]
        apply ih htail
        intro o ho r hr
        obtain rfl := Option.some.inj ho
        exact hlater r hr
      | some o =>
        simp only [sessionsFrom, hstatus]
        exact ih htail (fun o' ho' r hr ↦ hfrom o' ho' r (List.mem_cons_of_mem row hr))
    | inactive =>
      cases opening with
      | none =>
        simp only [sessionsFrom, hstatus]
        exact ih htail nofun
      | some o =>
        simp only [sessionsFrom, hstatus]
        refine List.pairwise_cons.2 ⟨?_, ih htail nofun⟩
        intro t ht
        obtain ⟨hopens, -⟩ := @mem_sessionsFrom rows none htail nofun t ht
        exact ⟨row, rfl, hlater t.1 (hopens.resolve_left nofun).1⟩

end Sessions

section Agreement

/-- What the clock of a class promises: no day starts before the one before it, and each ends after
every instant of its date. -/
structure DaysFollow (zone : ClassZone) : Prop where
  starts : Monotone zone.startOfDate
  ends : ∀ t, t < dayEnd zone t

variable {zone : ClassZone} {now : Instant} {date : ℤ} {rows : List AttendanceSession}
  {s : AttendanceSession × Option AttendanceSession}

theorem elapsedAttendanceSeconds_ok {spans : List (Instant × Instant)}
    (hforward : ∀ p ∈ spans, p.1 ≤ p.2) (hordered : spans.Pairwise (fun p q ↦ p.2 ≤ q.1)) :
    elapsedAttendanceSeconds spans =
      .ok ((spans.map (fun p ↦ p.2 - p.1)).sum / 1000000) := by
  rw [elapsedAttendanceSeconds]
  split_ifs with hempty
  · subst hempty
    rfl
  · exact elapsedDuration_ok hempty hforward hordered

/-- An instant that does not come before its day's start lies outside the bounds of every other
day. -/
theorem DaysFollow.outside (h : DaysFollow zone) {t : Instant} (ht : dayStart zone t ≤ t)
    (hdate : zone.localDate t ≠ date) :
    t < zone.startOfDate date ∨ zone.startOfDate (date + 1) ≤ t := by
  rcases lt_or_gt_of_ne hdate with hlt | hgt
  · left
    calc t < zone.startOfDate (zone.localDate t + 1) := h.ends t
      _ ≤ zone.startOfDate date := h.starts hlt
  · right
    calc zone.startOfDate (date + 1) ≤ zone.startOfDate (zone.localDate t) := h.starts hgt
      _ ≤ t := ht

/-- A session that opened no earlier than its day started, and what is known of its end. -/
structure Regular (zone : ClassZone) (now : Instant)
    (s : AttendanceSession × Option AttendanceSession) : Prop where
  opensInDay : dayStart zone s.1.timestamp ≤ s.1.timestamp
  past : s.1.timestamp ≤ now
  closed : ∀ c ∈ s.2, s.1.timestamp ≤ c.timestamp ∧ c.timestamp ≤ now

def spanLength (p : Instant × Instant) : ℤ := p.2 - p.1

theorem boundedSpan_length {b stop opened closed : Instant} (hforward : opened ≤ closed) :
    ((boundedSpan (some b) stop opened closed).map spanLength).getD 0 =
      if b ≤ opened ∧ opened ≤ stop then min closed stop - opened else 0 := by
  simp only [boundedSpan, Option.any_some, decide_eq_true_eq]
  split_ifs <;>
    simp only [Option.map_none, Option.map_some, Option.getD_none, Option.getD_some, spanLength] <;>
    lia

theorem openSpan_length {b stop opened : Instant} :
    ((openSpan (some b) stop opened).map spanLength).getD 0 =
      if b ≤ opened ∧ opened ≤ stop then stop - opened else 0 := by
  simp only [openSpan, Option.any_some, decide_eq_true_eq]
  split_ifs <;>
    simp only [Option.map_none, Option.map_some, Option.getD_none, Option.getD_some, spanLength] <;>
    lia

theorem canonicalInterval_span : (canonicalInterval zone now s).span =
    (s.1.timestamp, min (s.2.elim now (·.timestamp)) (dayEnd zone s.1.timestamp)) := by
  obtain ⟨o, c⟩ := s
  cases c with
  | none => rfl
  | some c =>
    simp only [canonicalInterval, Option.elim_some]
    split_ifs with hlate
    · rw [min_eq_right hlate.le]
      rfl
    · rw [min_eq_left (not_lt.1 hlate)]
      rfl

theorem Regular.agrees (h : Regular zone now s) (hdays : DaysFollow zone) (date : ℤ) :
    ((dayIntervals (some (zone.startOfDate date)) (min (zone.startOfDate (date + 1)) now) s).map
        spanLength).getD 0 =
      if zone.localDate s.1.timestamp = date then spanLength (canonicalInterval zone now s).span
      else 0 := by
  have hstart : dayStart zone s.1.timestamp ≤ s.1.timestamp := h.opensInDay
  have hend : s.1.timestamp < dayEnd zone s.1.timestamp := hdays.ends _
  have hnow := h.past
  have hin : zone.localDate s.1.timestamp = date →
      zone.startOfDate date ≤ s.1.timestamp ∧ s.1.timestamp < zone.startOfDate (date + 1) ∧
        dayEnd zone s.1.timestamp = zone.startOfDate (date + 1) := by
    rintro rfl
    exact ⟨hstart, hend, rfl⟩
  have hout : zone.localDate s.1.timestamp ≠ date →
      s.1.timestamp < zone.startOfDate date ∨ zone.startOfDate (date + 1) ≤ s.1.timestamp :=
    hdays.outside hstart
  rw [canonicalInterval_span, spanLength]
  obtain ⟨o, c⟩ := s
  cases c with
  | none =>
    simp only [dayIntervals, openSpan_length, Option.elim_none] at *
    by_cases hdate : zone.localDate o.timestamp = date
    · obtain ⟨hfrom, htill, hstop⟩ := hin hdate
      rw [if_pos hdate, hstop]
      split_ifs <;> lia
    · have := hout hdate
      rw [if_neg hdate]
      split_ifs <;> lia
  | some c =>
    obtain ⟨hforward, hpast⟩ := h.closed c rfl
    simp only [dayIntervals, boundedSpan_length hforward, Option.elim_some] at *
    by_cases hdate : zone.localDate o.timestamp = date
    · obtain ⟨hfrom, htill, hstop⟩ := hin hdate
      rw [if_pos hdate, hstop]
      split_ifs <;> lia
    · have := hout hdate
      rw [if_neg hdate]
      split_ifs <;> lia

theorem sum_filterMap {α : Type} (f : α → Option (Instant × Instant)) (as : List α) :
    ((as.filterMap f).map spanLength).sum =
      (as.map (fun a ↦ ((f a).map spanLength).getD 0)).sum := by
  induction as with
  | nil => rfl
  | cons a as ih =>
    rw [List.map_cons, List.sum_cons, ← ih, List.filterMap_cons]
    cases f a with
    | none => simp
    | some p => simp

theorem sum_filter {α : Type} (P : α → Prop) [DecidablePred P] (f : α → ℤ) (as : List α) :
    ((as.filter P).map f).sum = (as.map (fun a ↦ if P a then f a else 0)).sum := by
  induction as with
  | nil => rfl
  | cons a as ih =>
    rw [List.map_cons, List.sum_cons, ← ih, List.filter_cons]
    by_cases h : P a <;> simp [h]

theorem dayIntervals_some {start : Option Instant} {stop : Instant} {p : Instant × Instant}
    (h : dayIntervals start stop s = some p) :
    p.1 = s.1.timestamp ∧ p.1 ≤ p.2 ∧ ∀ c ∈ s.2, p.2 ≤ c.timestamp := by
  obtain ⟨o, c⟩ := s
  cases c with
  | none =>
    simp only [dayIntervals, openSpan] at h
    split_ifs at h with hout
    obtain rfl := Option.some.inj h
    exact ⟨rfl, not_lt.1 (not_or.1 hout).2, nofun⟩
  | some c =>
    simp only [dayIntervals, boundedSpan] at h
    split_ifs at h with hends hopens hout
    obtain rfl := Option.some.inj h
    refine ⟨rfl, not_lt.1 hout, ?_⟩
    intro c' hc'
    obtain rfl := Option.some.inj hc'
    exact min_le_left _ _

theorem elapsed_pairActiveIntervals (start : Option Instant) (stop : Instant)
    (hsteady : Steady rows) (hsorted : rows.Pairwise AttendanceSession.Sooner) :
    elapsedAttendanceSeconds (pairActiveIntervals start stop rows) =
      .ok (((sessionsFrom none rows).map (fun s ↦
        ((dayIntervals start stop s).map spanLength).getD 0)).sum / 1000000) := by
  have hpairs : pairActiveIntervals start stop rows =
      (sessionsFrom none rows).filterMap (dayIntervals start stop) :=
    pairActiveRows_steady start stop hsteady follows_none
  rw [hpairs, elapsedAttendanceSeconds_ok, ← sum_filterMap]
  · rfl
  · intro p hp
    obtain ⟨s, -, hs⟩ := List.mem_filterMap.1 hp
    exact (dayIntervals_some hs).2.1
  · have hordered := @sessionsFrom_ordered rows none hsorted nofun
    refine List.pairwise_filterMap.2 (hordered.imp ?_)
    intro s t hst p hp q hq
    obtain ⟨c, hc, hle⟩ := hst
    rw [(dayIntervals_some hq).1]
    exact ((dayIntervals_some hp).2.2 c hc).trans hle

theorem elapsed_intervalsOpenedOn (hdays : DaysFollow zone) (date : ℤ) (hsteady : Steady rows)
    (hsorted : rows.Pairwise AttendanceSession.Sooner) (hids : (rows.map (·.id)).Nodup)
    (hpast : ∀ r ∈ rows, r.timestamp ≤ now) :
    elapsedAttendanceSeconds ((intervalsOpenedOn zone rows now date).map (·.span)) =
      .ok (((sessionsFrom none rows).map (fun s ↦
        if zone.localDate s.1.timestamp = date then spanLength (canonicalInterval zone now s).span
        else 0)).sum / 1000000) := by
  have hpaired : WellPaired zone rows now (listAttendanceIntervals zone rows now) :=
    (listAttendanceIntervals_paired hids hsorted hdays.ends).1
  rw [elapsedAttendanceSeconds_ok]
  · have hopened : ∀ s, (canonicalInterval zone now s).openedAt = s.1.timestamp :=
      fun s ↦ congrArg Prod.fst canonicalInterval_span
    rw [← sum_filter, intervalsOpenedOn,
      listAttendanceIntervals_steady hdays.ends hsteady hpast hsorted, List.filter_map,
      List.map_map, List.map_map]
    simp only [Function.comp_def, hopened]
    rfl
  · intro p hp
    obtain ⟨i, hi, rfl⟩ := List.mem_map.1 hp
    exact hpaired.forward i (List.mem_of_mem_filter hi)
  · exact List.pairwise_map.2 (hpaired.ordered.filter _)

/-- The time of a day is the same in both readings, where no row reopens a session and none opens
one before its own day starts. -/
theorem seconds_agree (hdays : DaysFollow zone) (date : ℤ) (hsteady : Steady rows)
    (hsorted : rows.Pairwise AttendanceSession.Sooner) (hids : (rows.map (·.id)).Nodup)
    (hpast : ∀ r ∈ rows, r.timestamp ≤ now)
    (hopens : ∀ r ∈ rows, r.status = .active → dayStart zone r.timestamp ≤ r.timestamp) :
    calculateWorkedAttendanceSecondsForDate zone rows now date =
      elapsedAttendanceSeconds ((intervalsOpenedOn zone rows now date).map (·.span)) := by
  have hregular : ∀ s ∈ sessionsFrom none rows, Regular zone now s := by
    intro s hs
    obtain ⟨hopen, hcloses⟩ := @mem_sessionsFrom rows none hsorted nofun s hs
    obtain ⟨hrow, hactive⟩ := hopen.resolve_left nofun
    refine ⟨hopens _ hrow hactive, hpast _ hrow, ?_⟩
    intro c hc
    obtain ⟨hmem, -, hle⟩ := hcloses c hc
    exact ⟨hle, hpast c hmem⟩
  have hlengths : (sessionsFrom none rows).map (fun s ↦
        if zone.localDate s.1.timestamp = date then spanLength (canonicalInterval zone now s).span
        else 0) = (sessionsFrom none rows).map (fun s ↦ ((dayIntervals
          (some (zone.startOfDate date)) (min (zone.startOfDate (date + 1)) now) s).map
            spanLength).getD 0) := by
    apply List.map_congr_left
    intro s hs
    exact ((hregular s hs).agrees hdays date).symm
  rw [elapsed_intervalsOpenedOn hdays date hsteady hsorted hids hpast, hlengths,
    calculateWorkedAttendanceSecondsForDate]
  split_ifs with hbegun
  · exact elapsed_pairActiveIntervals _ _ hsteady hsorted
  · -- what opened on the day opened at the present instant, and has no length yet
    have hzero : ∀ s ∈ sessionsFrom none rows, ((dayIntervals (some (zone.startOfDate date))
        (min (zone.startOfDate (date + 1)) now) s).map spanLength).getD 0 = 0 := by
      intro s hs
      obtain ⟨o, c⟩ := s
      cases c with
      | none =>
        rw [dayIntervals, openSpan_length]
        split_ifs <;> lia
      | some c =>
        have hforward := ((hregular _ hs).closed c rfl).1
        rw [dayIntervals, boundedSpan_length hforward]
        split_ifs <;> lia
    rw [List.map_congr_left hzero]
    simp

end Agreement

end TokenHub.Attendance
