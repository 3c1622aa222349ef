import TokenHub.Attendance.Memberships
import TokenHub.Lib.Runs

set_option autoImplicit false

namespace TokenHub.Attendance

open Rent Lib.Checks Lib.Runs
open Ledger (PyValue AllocationRaise)
open Payroll (PayrollEventType PayrollSetting payrollSettingGoverningWork)

section Gate

structure AttendanceIntervalInvalidation where
  classId : String
  targetSeatId : ℕ
  openingEventId : ℕ
  closingEventId : ℕ
deriving DecidableEq, Repr

/-- The codes that `interval_eligibility` denies with. -/
inductive AttendanceCorrectionDenied
  | unauthorizedScope
  | incompleteInterval
deriving DecidableEq, Repr

structure IntervalEligibility where
  interval : AttendanceInterval
  invalidation : Option AttendanceIntervalInvalidation
  settlementStatus : SettlementStatus
  payrollEvent : Option PayrollEvent
  requiresReconstruction : Bool

/-- What the payroll run and the corrections of a class work on. -/
structure SettlementTables where
  attendance : AttendanceTables
  primaryKeys : (attendance.sessions.map (·.id)).Nodup
  events : List PayrollEvent
  invalidations : List AttendanceIntervalInvalidation

variable (zone : ClassZone) (isoformat : Instant → String) (T : SettlementTables)
  (classId : String) (seatId : ℕ) (asOf : Instant)

def SettlementTables.intervals : List AttendanceInterval :=
  listAttendanceIntervals zone (T.attendance.seatRows seatId classId) asOf

def SettlementTables.invalidated : List (ℕ × ℕ) :=
  (T.invalidations.filter fun d ↦ d.classId = classId ∧ d.targetSeatId = seatId).map fun d ↦
    (d.openingEventId, d.closingEventId)

def SettlementTables.seatPayrollIntervals : SeatPayrollIntervals :=
  calculateSeatPayrollIntervals isoformat (T.intervals zone classId seatId asOf)
    (seatPayrolls T.events classId seatId) (T.invalidated classId seatId) asOf

def SettlementTables.memberships : List Membership :=
  payrollIntervalMemberships isoformat (T.intervals zone classId seatId asOf)
    (seatPayrolls T.events classId seatId)

/-- `interval_eligibility`, asked by a teacher of the class or by anybody else. -/
def intervalEligibility (teacher : Bool) (openingEventId closingEventId : ℕ) :
    Except AttendanceCorrectionDenied IntervalEligibility := do
  require (teacher = true) .unauthorizedScope
  let interval ← demand ((T.intervals zone classId seatId asOf).find? fun i ↦
    i.openingEventId = openingEventId ∧ i.closingEventId = some closingEventId) .incompleteInterval
  let decision := T.invalidations.find? fun d ↦ d.classId = classId ∧ d.targetSeatId = seatId ∧
    d.openingEventId = openingEventId ∧ d.closingEventId = closingEventId
  let membership ← demand ((T.memberships zone isoformat classId seatId asOf).find? fun m ↦
    m.interval.openingEventId = openingEventId ∧
      m.interval.closingEventId = some closingEventId) .incompleteInterval
  return ⟨interval, decision, membership.status, membership.event,
    membership.requiresReconstruction⟩

end Gate

section Writer

inductive PayrollRaise
  | valueError (message : String)
  | lookupError (message : String)
  | noPayrollSettingError
  | temporalResolutionError (message : String)
deriving DecidableEq, Repr

structure SettingShare where
  policyUuid : ℕ
  payRate : ℤ
  seconds : ℤ
  lastClosedAt : Instant
  intervals : List AttendanceInterval

variable (zone : ClassZone) (isoformat : Instant → String) (rateText : ℤ → String)

def SettingShare.asSummary (share : SettingShare) : PyValue :=
  .dict [("policy_uuid", .int share.policyUuid), ("seconds", .int share.seconds),
    ("pay_rate_per_minute", .str (rateText share.payRate)),
    ("intervals", .list (share.intervals.filterMap fun i ↦
      i.closingEventId.map fun closing ↦ .dict (i.asEvidence isoformat closing)))]

def shareOf (setting : PayrollSetting) (grouped : List AttendanceInterval) :
    Except PayrollRaise SettingShare := do
  let seconds ← (elapsedDuration (grouped.map (·.span))).mapError .temporalResolutionError
  return ⟨setting.policyUuid, setting.payRate, seconds,
    (grouped.map (·.closedAt)).max?.getD 0, grouped⟩

/-- `_price_intervals` of a settlement: the shares in the order of their last closings. -/
def priceIntervals (settings : List PayrollSetting) (classId : String)
    (intervals : List AttendanceInterval) : Except PayrollRaise (List SettingShare) := do
  let governed ← intervals.mapM fun i ↦ do
    let setting ← demand (payrollSettingGoverningWork settings classId i.closedAt)
      .noPayrollSettingError
    return (setting, i)
  let firsts := governed.eraseDupsBy fun a b ↦ a.1.policyUuid = b.1.policyUuid
  let shares ← firsts.mapM fun first ↦ shareOf first.1
    ((governed.filter fun g ↦ g.1.policyUuid = first.1.policyUuid).map (·.2))
  return (shares.filter fun share ↦ 0 < share.seconds).insertionSort
    fun a b ↦ a.lastClosedAt ≤ b.lastClosedAt

/-- `{**base, **fields}`. -/
def mergeDict (base fields : List (String × PyValue)) : List (String × PyValue) :=
  (base.filter fun field ↦ field.1 ∉ fields.map (·.1)) ++ fields

def settlementSummary (base : List (String × PyValue)) (shares : List SettingShare) : PyValue :=
  .dict (mergeDict base [("settlement_rule", .str closedSessionSettlementRule),
    ("allocation_version", .int 1),
    ("pricing", .list (shares.map (·.asSummary isoformat rateText)))])

/-- The arguments of a payroll run on a seat, with the settings that it finds. -/
structure PayrollCommand where
  classId : String
  targetSeatId : ℕ
  idempotencyKey : String
  summaryJson : List (String × PyValue)
  settings : List PayrollSetting

def SettlementTables.append (T : SettlementTables) (e : PayrollEvent) : SettlementTables :=
  { T with events := T.events ++ [e] }

variable (T : SettlementTables) (now : Instant)

def recordPayrollEvent (q : PayrollCommand) : Except PayrollRaise SettlementTables := do
  if T.events.any fun e ↦ e.classId = q.classId ∧ e.targetSeatId = q.targetSeatId ∧
      e.payrollEventType = .payroll ∧ e.idempotencyKey = q.idempotencyKey ∧
      q.idempotencyKey ≠ "" then
    return T
  else
    let read := T.seatPayrollIntervals zone isoformat q.classId q.targetSeatId now
    require (read.unprovable = [])
      (.valueError "Historical partial settlement has no provable interval membership.")
    let shares ← priceIntervals q.settings q.classId read.payable
    require (shares ≠ [])
      (.valueError "FEAT-PROD-003 found no payable attendance to price for this payroll event.")
    let seat ← demand (T.attendance.seat q.targetSeatId q.classId)
      (.lookupError ("Seat " ++ toString q.targetSeatId ++ " not found."))
    require (seat.claimedAt.isSome ∧ seat.userId.isSome)
      (.valueError "A payroll event target seat must be claimed.")
    return T.append {
      id := T.events.length + 1
      classId := q.classId
      targetSeatId := q.targetSeatId
      payrollEventType := .payroll
      idempotencyKey := q.idempotencyKey
      recordedAt := now
      summaryJson := settlementSummary isoformat rateText q.summaryJson shares }

end Writer

section Written

variable {isoformat : Instant → String} {rateText : ℤ → String}

theorem foldUntil_invariant {σ α : Type} {g : σ → α → σ × Bool} {P : σ → Prop} {as : List α} {t : σ}
    (hstep : ∀ a ∈ as, ∀ t, P t → P (g t a).1) (ht : P t) : P (foldUntil g t as).1 := by
  induction as generalizing t with
  | nil => exact ht
  | cons a as ih =>
    have hnext := hstep a List.mem_cons_self t ht
    have hrest := fun t ↦ ih (t := t) fun b hb ↦ hstep b (List.mem_cons_of_mem a hb)
    rw [foldUntil]
    generalize g t a = next at hnext
    obtain ⟨t', raised⟩ := next
    cases raised
    · exact hrest t' hnext
    · exact hnext

/-- The pairs that an event names do not depend on the intervals that there are by now. -/
theorem foldUntil_mentioned {α : Type} {g g' : Noted → α → Noted × Bool}
    (hstep : ∀ t t' a, t.mentioned = t'.mentioned →
      (g t a).1.mentioned = (g' t' a).1.mentioned ∧ (g t a).2 = (g' t' a).2)
    {as : List α} {t t' : Noted} (ht : t.mentioned = t'.mentioned) :
    (foldUntil g t as).1.mentioned = (foldUntil g' t' as).1.mentioned ∧
      (foldUntil g t as).2 = (foldUntil g' t' as).2 := by
  induction as generalizing t t' with
  | nil => exact ⟨ht, rfl⟩
  | cons a as ih =>
    obtain ⟨hmentioned, hraised⟩ := hstep t t' a ht
    rw [foldUntil, foldUntil]
    generalize g t a = next at hmentioned hraised
    generalize g' t' a = next' at hmentioned hraised
    obtain ⟨n, raised⟩ := next
    obtain ⟨n', raised'⟩ := next'
    dsimp only at hmentioned hraised
    subst hraised
    cases raised
    · exact ih hmentioned
    · exact ⟨hmentioned, rfl⟩

variable {pairs pairs' : List AttendanceInterval}

theorem noteSource_mentioned {n n' : Noted} (source : PyValue) (h : n.mentioned = n'.mentioned) :
    (noteSource isoformat pairs n source).1.mentioned =
        (noteSource isoformat pairs' n' source).1.mentioned ∧
      (noteSource isoformat pairs n source).2 = (noteSource isoformat pairs' n' source).2 := by
  unfold noteSource
  cases sourceKey source with
  | error raised => exact ⟨h, rfl⟩
  | ok key => exact ⟨by rw [h], rfl⟩

theorem noteShare_mentioned {n n' : Noted} (share : PyValue) (h : n.mentioned = n'.mentioned) :
    (noteShare isoformat pairs n share).1.mentioned =
        (noteShare isoformat pairs' n' share).1.mentioned ∧
      (noteShare isoformat pairs n share).2 = (noteShare isoformat pairs' n' share).2 := by
  unfold noteShare
  cases shareSources share with
  | error raised => exact ⟨h, rfl⟩
  | ok read => exact foldUntil_mentioned (fun t t' a ↦ noteSource_mentioned a) h

theorem eventKeys_pairs (e : PayrollEvent) :
    eventKeys isoformat pairs e = eventKeys isoformat pairs' e := by
  have hpricing : ∀ pricing, (notePricing isoformat pairs pricing).mentioned =
      (notePricing isoformat pairs' pricing).mentioned := by
    intro pricing
    unfold notePricing
    cases pricing.iterate with
    | error raised => rfl
    | ok shares => exact (foldUntil_mentioned (fun t t' a ↦ noteShare_mentioned a) rfl).1
  unfold eventKeys
  rw [hpricing]

theorem getItem_mergeDict {base fields : List (String × PyValue)} {key : String} {value : PyValue}
    (h : fields.find? (·.1 = key) = some (key, value)) :
    (PyValue.dict (mergeDict base fields)).getItem key = .ok value := by
  have hbase : (base.filter fun field ↦ field.1 ∉ fields.map (·.1)).find? (·.1 = key) = none := by
    rw [List.find?_eq_none]
    intro field hfield hsame
    obtain ⟨-, hnew⟩ := List.mem_filter.1 hfield
    rw [decide_eq_true_iff] at hnew hsame
    apply hnew
    rw [hsame]
    exact List.mem_map_of_mem (List.mem_of_find?_eq_some h)
  rw [PyValue.getItem, mergeDict, List.find?_append, hbase, Option.none_or, h]
  rfl

theorem sourceKey_evidence {i : AttendanceInterval} {closing : ℕ}
    (hclosing : i.closingEventId = some closing) :
    ∃ key, sourceKey (.dict (i.asEvidence isoformat closing)) = .ok key ∧ i.pairKey = some key := by
  refine ⟨(.number i.openingEventId, .number closing), ?_, ?_⟩
  · simp [sourceKey, AttendanceInterval.asEvidence, PyValue.getItem, hashKey]
  · rw [AttendanceInterval.pairKey, hclosing]
    rfl

theorem shareSources_asSummary {share : SettingShare} {sources : List PyValue} {agrees : Bool}
    (h : shareSources (share.asSummary isoformat rateText) = .ok (sources, agrees)) :
    ∀ source ∈ sources, ∃ i ∈ share.intervals, ∃ closing, i.closingEventId = some closing ∧
      source = .dict (i.asEvidence isoformat closing) := by
  have hintervals : (share.asSummary isoformat rateText).getItem "intervals" =
      .ok (.list (share.intervals.filterMap fun i ↦
        i.closingEventId.map fun closing ↦ .dict (i.asEvidence isoformat closing))) := rfl
  unfold shareSources at h
  rw [hintervals, ok_bind] at h
  simp only [PyValue.iterate, ok_bind, bind_eq_ok, pure_eq_ok, Prod.mk.injEq] at h
  obtain ⟨total, -, seconds, -, rfl, -⟩ := h
  intro source hsource
  obtain ⟨i, hi, hmap⟩ := List.mem_filterMap.1 hsource
  obtain ⟨closing, hclosing, rfl⟩ := Option.map_eq_some_iff.1 hmap
  exact ⟨i, hi, closing, hclosing, rfl⟩

theorem eventKeys_settlement {e : PayrollEvent} {base : List (String × PyValue)}
    {shares : List SettingShare}
    (hsummary : e.summaryJson = settlementSummary isoformat rateText base shares) {key : PairKey}
    (hkey : key ∈ eventKeys isoformat pairs e) :
    ∃ share ∈ shares, ∃ i ∈ share.intervals, i.pairKey = some key := by
  have hdict : asDict e.summaryJson = e.summaryJson := by rw [hsummary]; rfl
  have hpricing : pricingOf e.summaryJson =
      .list (shares.map (·.asSummary isoformat rateText)) := by
    rw [pricingOf, hsummary, settlementSummary, getItem_mergeDict rfl]
  unfold eventKeys at hkey
  rw [hdict, hpricing] at hkey
  split_ifs at hkey with hfrozen
  · let Named (noted : Noted) : Prop := ∀ key ∈ noted.mentioned,
      ∃ share ∈ shares, ∃ i ∈ share.intervals, i.pairKey = some key
    have hnamed : Named (foldUntil (noteShare isoformat pairs) ⟨true, []⟩
        (shares.map (·.asSummary isoformat rateText))).1 := by
      apply foldUntil_invariant
      · intro value hvalue noted hnoted
        obtain ⟨share, hshare, rfl⟩ := List.mem_map.1 hvalue
        rw [noteShare]
        cases hread : shareSources (share.asSummary isoformat rateText) with
        | error raised => exact hnoted
        | ok read =>
          obtain ⟨sources, agrees⟩ := read
          apply foldUntil_invariant
          · intro source hsource noted hnoted
            obtain ⟨i, hi, closing, hclosing, rfl⟩ := shareSources_asSummary hread source hsource
            obtain ⟨key', hkey', hpair⟩ : ∃ key,
                sourceKey (.dict (i.asEvidence isoformat closing)) = .ok key ∧
                  i.pairKey = some key := sourceKey_evidence hclosing
            rw [noteSource, hkey']
            intro key hkey
            rcases List.mem_append.1 hkey with hkey | hkey
            · exact hnoted key hkey
            · rw [List.mem_singleton.1 hkey]
              exact ⟨share, hshare, i, hi, hpair⟩
          · exact hnoted
      · intro key hkey
        exact (List.not_mem_nil hkey).elim
    rw [notePricing, PyValue.iterate] at hkey
    exact hnamed key hkey
  · exact (List.not_mem_nil hkey).elim

theorem priceIntervals_subset {settings : List PayrollSetting} {classId : String}
    {intervals : List AttendanceInterval} {shares : List SettingShare}
    (h : priceIntervals settings classId intervals = .ok shares) {share : SettingShare}
    (hshare : share ∈ shares) {i : AttendanceInterval} (hi : i ∈ share.intervals) :
    i ∈ intervals := by
  unfold priceIntervals at h
  rw [bind_eq_ok] at h
  obtain ⟨governed, hgoverned, h⟩ := h
  rw [bind_eq_ok] at h
  obtain ⟨priced, hpriced, h⟩ := h
  rw [pure_eq_ok] at h
  subst h
  rw [List.mem_insertionSort, List.mem_filter] at hshare
  obtain ⟨first, -, hfirst⟩ := forall₂_exists_left (mapM_eq_ok.1 hpriced) hshare.1
  unfold shareOf at hfirst
  rw [bind_eq_ok] at hfirst
  obtain ⟨seconds, -, hfirst⟩ := hfirst
  rw [pure_eq_ok] at hfirst
  subst hfirst
  obtain ⟨g, hg, rfl⟩ := List.mem_map.1 hi
  obtain ⟨j, hj, hsetting⟩ := forall₂_exists_left (mapM_eq_ok.1 hgoverned) (List.mem_of_mem_filter hg)
  rw [bind_eq_ok] at hsetting
  obtain ⟨setting, -, hpair⟩ := hsetting
  rw [pure_eq_ok] at hpair
  subst hpair
  exact hj

end Written

section Recording

variable {zone : ClassZone} {isoformat : Instant → String} {rateText : ℤ → String}
  {T T' : SettlementTables} {now : Instant} {q : PayrollCommand}

/-- A run records nothing, or an event that names pairs which are payable now. -/
theorem recordPayrollEvent_ok (h : recordPayrollEvent zone isoformat rateText T now q = .ok T') :
    T' = T ∨ ∃ e, T' = T.append e ∧ e.recordedAt = now ∧ ∀ key ∈ eventKeys isoformat [] e,
      ∃ i ∈ (T.seatPayrollIntervals zone isoformat e.classId e.targetSeatId now).payable,
        i.pairKey = some key := by
  unfold recordPayrollEvent at h
  split_ifs at h with hreplay
  · rw [pure_eq_ok] at h
    exact .inl h.symm
  · right
    rw [require_bind_eq_ok, bind_eq_ok] at h
    obtain ⟨-, shares, hshares, h⟩ := h
    rw [require_bind_eq_ok, demand_bind_eq_ok] at h
    obtain ⟨-, seat, -, h⟩ := h
    rw [require_bind_eq_ok, pure_eq_ok] at h
    obtain ⟨-, rfl⟩ := h
    refine ⟨_, rfl, rfl, ?_⟩
    intro key hkey
    obtain ⟨share, hshare, i, hi, hpair⟩ := eventKeys_settlement rfl hkey
    exact ⟨i, priceIntervals_subset hshares hshare hi, hpair⟩

end Recording

end TokenHub.Attendance
