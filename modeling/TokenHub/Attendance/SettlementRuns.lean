import TokenHub.Attendance.PayrollSettlement
import TokenHub.Attendance.WorkDayRuns

set_option autoImplicit false

namespace TokenHub.Attendance

open Rent Lib.Checks Lib.Runs
open Ledger (PyValue AllocationRaise)
open Payroll (PayrollEventType PayrollSetting)

section System

/-- What can happen between two readings. The attendance writers may leave any rows behind, and
an earlier release may have settled by any rule that freezes no intervals. -/
inductive SettlementAction
  | attend (attendance : AttendanceTables) (primaryKeys : (attendance.sessions.map (·.id)).Nodup)
  | earlierRun (classId : String) (seatId : ℕ) (idempotencyKey : String) (summary : PyValue)
      (unfrozen : frozen (asDict summary) = false)
  | otherEvent (classId : String) (seatId : ℕ) (type : PayrollEventType) (idempotencyKey : String)
      (summary : PyValue) (other : type ≠ .payroll)
  | payroll (q : PayrollCommand)
  | invalidate (decision : AttendanceIntervalInvalidation)

structure TimedSettlementAction where
  wait : ℕ
  action : SettlementAction

/-- The tables and the clock, which nothing turns back. -/
structure SettlementSystem where
  clock : Instant
  tables : SettlementTables

variable (zones : String → ClassZone) (isoformat : Instant → String) (rateText : ℤ → String)

def settlementStep (now : Instant) (T : SettlementTables) : SettlementAction → SettlementTables
  | .attend attendance primaryKeys =>
    { T with attendance := attendance, primaryKeys := primaryKeys }
  | .earlierRun classId seatId idempotencyKey summary _ =>
    T.append ⟨T.events.length + 1, classId, seatId, .payroll, idempotencyKey, now, summary⟩
  | .otherEvent classId seatId type idempotencyKey summary _ =>
    T.append ⟨T.events.length + 1, classId, seatId, type, idempotencyKey, now, summary⟩
  | .payroll q =>
    match recordPayrollEvent (zones q.classId) isoformat rateText T now q with
    | .ok T' => T'
    | .error _ => T
  | .invalidate decision => { T with invalidations := T.invalidations ++ [decision] }

def settlementSystemStep (s : SettlementSystem) (a : TimedSettlementAction) :
    SettlementSystem where
  clock := s.clock + a.wait
  tables := settlementStep zones isoformat rateText (s.clock + a.wait) s.tables a.action

def unsettled (attendance : AttendanceTables)
    (primaryKeys : (attendance.sessions.map (·.id)).Nodup) : SettlementTables :=
  ⟨attendance, primaryKeys, [], []⟩

end System

section Invariant

variable {zones : String → ClassZone} {isoformat : Instant → String} {rateText : ℤ → String}
  {T : SettlementTables} {now : Instant} {e : PayrollEvent}

/-- No pair is frozen by two payrolls of a seat, and no event lies in the future. -/
structure FrozenOnce (isoformat : Instant → String) (T : SettlementTables) (now : Instant) :
    Prop where
  past : ∀ e ∈ T.events, e.recordedAt ≤ now
  disjoint : ∀ classId seatId, (seatPayrolls T.events classId seatId).Pairwise fun e e' ↦
    (eventKeys isoformat [] e).Disjoint (eventKeys isoformat [] e')

theorem FrozenOnce.later {later : Instant} (h : FrozenOnce isoformat T now) (hle : now ≤ later) :
    FrozenOnce isoformat T later :=
  ⟨fun e he ↦ (h.past e he).trans hle, h.disjoint⟩

theorem FrozenOnce.seat_past (h : FrozenOnce isoformat T now) {classId : String} {seatId : ℕ} :
    ∀ e ∈ seatPayrolls T.events classId seatId, e.recordedAt ≤ now :=
  fun e he ↦ h.past e (List.mem_of_mem_filter he)

theorem FrozenOnce.append (h : FrozenOnce isoformat T now) (htime : e.recordedAt ≤ now)
    (hfresh : e.payrollEventType = .payroll →
      ∀ e' ∈ seatPayrolls T.events e.classId e.targetSeatId,
        (eventKeys isoformat [] e').Disjoint (eventKeys isoformat [] e)) :
    FrozenOnce isoformat (T.append e) now := by
  constructor
  · intro e' he'
    rcases List.mem_append.1 he' with he' | he'
    · exact h.past e' he'
    · rw [List.mem_singleton.1 he']
      exact htime
  · intro classId seatId
    rw [SettlementTables.append, seatPayrolls, List.filter_append]
    apply List.pairwise_append.2
    refine ⟨h.disjoint classId seatId, ?_, ?_⟩
    · exact (List.pairwise_singleton _ e).filter _
    · intro e' he' e'' hlast
      obtain ⟨hlast, hown⟩ := List.mem_filter.1 hlast
      rw [List.mem_singleton.1 hlast] at hown ⊢
      rw [decide_eq_true_iff] at hown
      obtain ⟨rfl, rfl, htype⟩ := hown
      exact hfresh htype e' he'

theorem eventKeys_unfrozen (h : frozen (asDict e.summaryJson) = false)
    (pairs : List AttendanceInterval) : eventKeys isoformat pairs e = [] := by
  rw [eventKeys, h]
  rfl

/-- Each step keeps it: a run freezes pairs that no payroll of the seat has frozen. -/
theorem FrozenOnce.step (h : FrozenOnce isoformat T now) (a : SettlementAction) :
    FrozenOnce isoformat (settlementStep zones isoformat rateText now T a) now := by
  cases a with
  | attend attendance primaryKeys => exact ⟨h.past, h.disjoint⟩
  | earlierRun classId seatId idempotencyKey summary unfrozen =>
    apply h.append le_rfl
    intro _ e' _ key _ hkey
    have hnone : eventKeys isoformat [] ⟨T.events.length + 1, classId, seatId, .payroll,
        idempotencyKey, now, summary⟩ = [] := eventKeys_unfrozen unfrozen []
    rw [hnone] at hkey
    exact List.not_mem_nil hkey
  | otherEvent classId seatId type idempotencyKey summary other =>
    apply h.append le_rfl
    intro htype
    exact absurd htype other
  | payroll q =>
    rw [settlementStep]
    cases hrecord : recordPayrollEvent (zones q.classId) isoformat rateText T now q with
    | error raised => exact h
    | ok T' =>
      rcases recordPayrollEvent_ok hrecord with rfl | ⟨e, rfl, htime, hkeys⟩
      · exact h
      · apply h.append htime.le
        intro _ e' he' key hkey' hkey
        obtain ⟨i, hi, hpair⟩ := hkeys key hkey
        have hpayable := payable_of_mem h.seat_past hi
        apply hpayable.unsettled e' he' key _ hpair
        rw [eventKeys_pairs]
        exact hkey'
  | invalidate decision => exact ⟨h.past, h.disjoint⟩

theorem FrozenOnce.system {s : SettlementSystem} (h : FrozenOnce isoformat s.tables s.clock)
    (a : TimedSettlementAction) :
    FrozenOnce isoformat (settlementSystemStep zones isoformat rateText s a).tables
      (settlementSystemStep zones isoformat rateText s a).clock := by
  have hlater : s.clock ≤ s.clock + a.wait := Int.le_add_of_nonneg_right (Int.natCast_nonneg _)
  exact (h.later hlater).step a.action

end Invariant

section Agreement

variable (zone : ClassZone) (isoformat : Instant → String) (T : SettlementTables)
  (classId : String) (seatId : ℕ) (asOf : Instant)

local instance pairKey_lawful : LawfulBEq PairKey := inferInstance

def validMembership (pairs : List AttendanceInterval) (i : AttendanceInterval) (e : PayrollEvent) :
    Bool :=
  frozen (asDict e.summaryJson) &&
    (notePricing isoformat pairs (pricingOf (asDict e.summaryJson))).valid &&
    i.pairKey.any (· ∈ eventKeys isoformat pairs e)

/-- How the payroll run and the correction gate read one seat at one instant. -/
structure ReadAlike : Prop where
  payable_unpaid : ∀ i ∈ (T.seatPayrollIntervals zone isoformat classId seatId asOf).payable,
    (∃ m ∈ T.memberships zone isoformat classId seatId asOf, m.interval = i) ∧
      ∀ m ∈ T.memberships zone isoformat classId seatId asOf, m.interval = i → m.status = .unpaid
  recorded_once : ∀ m ∈ T.memberships zone isoformat classId seatId asOf, m.status = .recorded →
    m.interval ∉ (T.seatPayrollIntervals zone isoformat classId seatId asOf).payable ∧
      ∃ e, m.event = some e ∧ (seatPayrolls T.events classId seatId).filter
        (validMembership isoformat (closedIntervals (T.intervals zone classId seatId asOf))
          m.interval) = [e]
  payable_available : ∀ i ∈ (T.seatPayrollIntervals zone isoformat classId seatId asOf).payable,
    ∀ m ∈ T.memberships zone isoformat classId seatId asOf, m.interval = i →
      m.status ≠ .historicalUnavailable ∧ m.status ≠ .provenanceUnavailable
  gate : ∀ i ∈ (T.seatPayrollIntervals zone isoformat classId seatId asOf).payable,
    ∀ closing, i.closingEventId = some closing →
      ∃ eligibility, intervalEligibility zone isoformat T classId seatId asOf true i.openingEventId
          closing = .ok eligibility ∧ eligibility.interval = i ∧
        eligibility.invalidation = none ∧ eligibility.settlementStatus = .unpaid

end Agreement

section Main

variable {zone : ClassZone} {isoformat : Instant → String} {T : SettlementTables}
  {classId : String} {seatId : ℕ} {now asOf : Instant}

theorem filter_eq_singleton {α : Type} {R : α → α → Prop} {p : α → Bool} {l : List α} {a : α}
    (hl : l.Pairwise R) (hexcludes : ∀ {x y}, R x y → p x = true → p y = true → False)
    (ha : a ∈ l) (hp : p a = true) : l.filter p = [a] := by
  induction l with
  | nil => exact absurd ha List.not_mem_nil
  | cons x l ih =>
    obtain ⟨hx, hl⟩ := List.pairwise_cons.1 hl
    rcases List.mem_cons.1 ha with rfl | ha
    · rw [List.filter_cons_of_pos hp, List.filter_eq_nil_iff.2]
      intro y hy hpy
      exact hexcludes (hx y hy) hp hpy
    · have hpx : ¬ p x = true := fun hpx ↦ hexcludes (hx a ha) hpx hp
      rw [List.filter_cons_of_neg hpx, ih hl ha]

theorem FrozenOnce.recorded_once (h : FrozenOnce isoformat T now) {m : Membership}
    (hm : m ∈ T.memberships zone isoformat classId seatId asOf) (hrecorded : m.status = .recorded) :
    ∃ e, m.event = some e ∧ (seatPayrolls T.events classId seatId).filter
      (validMembership isoformat (closedIntervals (T.intervals zone classId seatId asOf))
        m.interval) = [e] := by
  have hstart : ∀ m ∈ (closedIntervals (T.intervals zone classId seatId asOf)).map
      (fun i ↦ (⟨i, .unpaid, none, false⟩ : Membership)), m.status ≠ .recorded := by
    intro m hm
    obtain ⟨i, -, rfl⟩ := List.mem_map.1 hm
    exact fun h ↦ by cases h
  obtain ⟨e, he, hevent, hfrozen, hvalid, hin⟩ := recorded_by hm hstart hrecorded
  rw [List.mem_insertionSort] at he
  refine ⟨e, hevent, filter_eq_singleton (h.disjoint classId seatId) ?_ he ?_⟩
  · intro x y hdisjoint hx hy
    unfold validMembership at hx hy
    rw [Bool.and_eq_true_iff, Option.any_eq_true] at hx hy
    obtain ⟨-, key, hkey, hmem⟩ := hx
    obtain ⟨-, key', hkey', hmem'⟩ := hy
    obtain rfl : key = key' := Option.some.inj (hkey.symm.trans hkey')
    have hpairs : ∀ e, eventKeys isoformat (closedIntervals (T.intervals zone classId seatId asOf)) e =
        eventKeys isoformat [] e := eventKeys_pairs
    rw [decide_eq_true_iff, hpairs] at hmem hmem'
    exact hdisjoint hmem hmem'
  · rw [validMembership, hfrozen, hvalid]
    exact hin

/-- The entry of a pair is found by the ids of its rows. -/
theorem find_opening {α : Type} {l : List α} {opening : α → ℕ} {closing : α → Option ℕ} {a : α}
    {c : ℕ} (hl : (l.map opening).Nodup) (ha : a ∈ l) (hc : closing a = some c) :
    l.find? (fun x ↦ opening x = opening a ∧ closing x = some c) = some a := by
  rw [List.find?_eq_some_iff_getElem]
  obtain ⟨k, hk, rfl⟩ := List.getElem_of_mem ha
  refine ⟨by simp [hc], k, hk, rfl, ?_⟩
  intro j hj
  have hne : opening l[j] ≠ opening l[k] := by
    intro heq
    have hinj := List.nodup_iff_injective_get.1 hl
    have hsame : (⟨j, by rw [List.length_map]; omega⟩ : Fin (l.map opening).length) =
        ⟨k, by rw [List.length_map]; omega⟩ := by
      apply hinj
      simpa using heq
    have := Fin.mk.inj hsame
    omega
  simp [hne]

theorem FrozenOnce.gate (hzone : ∀ t, t < dayEnd zone t) {i : AttendanceInterval} {closing : ℕ}
    (h : Payable isoformat (T.intervals zone classId seatId asOf)
      (seatPayrolls T.events classId seatId) (T.invalidated classId seatId) i)
    (hclosing : i.closingEventId = some closing) :
    ∃ eligibility, intervalEligibility zone isoformat T classId seatId asOf true i.openingEventId
        closing = .ok eligibility ∧ eligibility.interval = i ∧
      eligibility.invalidation = none ∧ eligibility.settlementStatus = .unpaid := by
  have hids : ((T.attendance.seatRows seatId classId).map (·.id)).Nodup := by
    have hsub : (T.attendance.sessions.filter fun r ↦
        r.targetSeatId = seatId ∧ r.classId = classId).Sublist T.attendance.sessions :=
      List.filter_sublist
    have hfiltered := (hsub.map AttendanceSession.id).nodup T.primaryKeys
    exact ((List.perm_insertionSort _ _).map _).nodup_iff.2 hfiltered
  have hpaired : ((T.intervals zone classId seatId asOf).map (·.openingEventId)).Nodup :=
    (listAttendanceIntervals_paired hids seatRows_sorted hzone).1.openings
  have hmem : i ∈ T.intervals zone classId seatId asOf := List.mem_of_mem_filter h.closed
  have hfind := find_opening hpaired hmem hclosing
  obtain ⟨m, hm, rfl⟩ : ∃ m ∈ T.memberships zone isoformat classId seatId asOf, m.interval = i :=
    exists_membership h.closed
  have hopenings : ((T.memberships zone isoformat classId seatId asOf).map
      (·.interval.openingEventId)).Nodup := by
    have hintervals : (T.memberships zone isoformat classId seatId asOf).map (·.interval) =
        closedIntervals (T.intervals zone classId seatId asOf) := by
      rw [SettlementTables.memberships, payrollIntervalMemberships,
        foldl_memberPayroll_intervals, List.map_map]
      exact List.map_id' _
    have hsub : (closedIntervals (T.intervals zone classId seatId asOf)).Sublist
        (T.intervals zone classId seatId asOf) := List.filter_sublist
    have hclosed := (hsub.map AttendanceInterval.openingEventId).nodup hpaired
    rw [← hintervals, List.map_map] at hclosed
    exact hclosed
  have hentry : (T.memberships zone isoformat classId seatId asOf).find? (fun x ↦
      x.interval.openingEventId = m.interval.openingEventId ∧
        x.interval.closingEventId = some closing) = some m := find_opening hopenings hm hclosing
  have hdecision : T.invalidations.find? (fun d ↦ d.classId = classId ∧ d.targetSeatId = seatId ∧
      d.openingEventId = m.interval.openingEventId ∧ d.closingEventId = closing) = none := by
    rw [List.find?_eq_none]
    intro d hd hsame
    rw [decide_eq_true_iff] at hsame
    obtain ⟨hclass, hseat, hopening, hclosing'⟩ := hsame
    apply h.valid closing hclosing
    rw [← hopening, ← hclosing']
    exact List.mem_map_of_mem (List.mem_filter.2 ⟨hd, decide_eq_true ⟨hclass, hseat⟩⟩)
  refine ⟨⟨m.interval, none, m.status, m.event, m.requiresReconstruction⟩, ?_, rfl, rfl,
    h.unpaid hm rfl⟩
  unfold intervalEligibility
  rw [require_of rfl, ok_bind, hfind, demand_some, ok_bind, hdecision, hentry]
  rfl

/-- In every history the payroll run and the correction gate read membership alike. -/
theorem readings_agree (zones : String → ClassZone) (hzones : ∀ classId t, t < dayEnd (zones classId) t)
    (isoformat : Instant → String) (rateText : ℤ → String) (attendance : AttendanceTables)
    (primaryKeys : (attendance.sessions.map (·.id)).Nodup) (clock : Instant)
    (as : List TimedSettlementAction) (classId : String) (seatId : ℕ) (asOf : Instant)
    (hnow : (run (settlementSystemStep zones isoformat rateText)
      ⟨clock, unsettled attendance primaryKeys⟩ as).clock ≤ asOf) :
    ReadAlike (zones classId) isoformat (run (settlementSystemStep zones isoformat rateText)
      ⟨clock, unsettled attendance primaryKeys⟩ as).tables classId seatId asOf := by
  have hstart : FrozenOnce isoformat (unsettled attendance primaryKeys) clock := by
    constructor
    · exact fun e he ↦ (List.not_mem_nil he).elim
    · exact fun _ _ ↦ List.Pairwise.nil
  have hrun : FrozenOnce isoformat
      (run (settlementSystemStep zones isoformat rateText)
        ⟨clock, unsettled attendance primaryKeys⟩ as).tables
      (run (settlementSystemStep zones isoformat rateText)
        ⟨clock, unsettled attendance primaryKeys⟩ as).clock :=
    run_invariant (I := fun s : SettlementSystem ↦ FrozenOnce isoformat s.tables s.clock) hstart
      (fun s a hs ↦ hs.system a) as
  generalize run (settlementSystemStep zones isoformat rateText)
    ⟨clock, unsettled attendance primaryKeys⟩ as = s at hrun hnow
  have hpast : ∀ e ∈ seatPayrolls s.tables.events classId seatId, e.recordedAt ≤ asOf :=
    (hrun.later hnow).seat_past
  constructor
  · intro i hi
    have hpayable := payable_of_mem hpast hi
    exact ⟨exists_membership hpayable.closed, fun m hm ↦ hpayable.unpaid hm⟩
  · intro m hm hrecorded
    refine ⟨?_, hrun.recorded_once hm hrecorded⟩
    intro hi
    have hunpaid := (payable_of_mem hpast hi).unpaid hm rfl
    rw [hrecorded] at hunpaid
    cases hunpaid
  · intro i hi m hm hinterval
    rw [(payable_of_mem hpast hi).unpaid hm hinterval]
    exact ⟨by decide, by decide⟩
  · intro i hi closing hclosing
    exact FrozenOnce.gate (hzones classId) (payable_of_mem hpast hi) hclosing

def sampleAttendance : AttendanceTables :=
  ⟨[⟨1, "math", "student", some 0, some 5⟩],
    [sampleRow 1 .active 10800000000, sampleRow 2 .inactive 14400000000]⟩

/-- An hour of work at three o'clock that a run pays, after a legacy settlement at two, and an hour
more that no run has paid. -/
def sampleSettlement : List TimedSettlementAction :=
  [⟨7200000000, .earlierRun "math" 1 "older" (.dict [("source", .str "legacy")]) (by decide)⟩,
    ⟨7200000000, .payroll ⟨"math", 1, "cycle-1", [("source", .str "class_payroll_settlement")],
      [{ payScheduleType := .weekly, firstPayDate := 0, policyUuid := 1, classId := "math",
         payRate := 2500, effectiveDate := 0, createdAt := 0, overtimeThreshold := none,
         overtimeThresholdUnit := none, maxTimePerDay := none, maxTimePerDayUnit := none }]⟩⟩,
    ⟨3600000000, .attend ⟨sampleAttendance.seats,
      [sampleRow 1 .active 10800000000, sampleRow 2 .inactive 14400000000,
      sampleRow 3 .active 14400000000, sampleRow 4 .inactive 18000000000]⟩ (by decide)⟩]

theorem readings_agree_after_run :
    ((run (settlementSystemStep (fun _ ↦ fallBackZone) toString toString)
      ⟨0, unsettled sampleAttendance (by decide)⟩ sampleSettlement).tables.memberships fallBackZone
        toString "math" 1 18000000000).map (·.status) = [.recorded, .unpaid] ∧
    ReadAlike fallBackZone toString (run (settlementSystemStep (fun _ ↦ fallBackZone) toString
      toString) ⟨0, unsettled sampleAttendance (by decide)⟩ sampleSettlement).tables "math" 1
        18000000000 :=
  ⟨by decide +kernel, readings_agree (fun _ ↦ fallBackZone) (fun _ ↦ fallBackZone_dayEnd) toString
    toString sampleAttendance (by decide) 0 sampleSettlement "math" 1 18000000000 (by decide)⟩

end Main

end TokenHub.Attendance
