import Mathlib.Data.List.Induction
import TokenHub.Lib.Runs
import TokenHub.Payroll.Boundaries

set_option autoImplicit false

namespace TokenHub.Payroll

open Ledger Rent Insurance Lib.Checks Lib.Runs Lib.Search

section Commands

variable (now : Instant) (S : PayrollState)

/-- The events of one run: one for each seat that it settles. -/
def settlementEvents (classId : String) (mechanism : RunMechanism)
    (scheduledOccurrence : Option Instant) (seats : List ℕ) : List PayrollEvent :=
  seats.zipIdx.map fun (seatId, i) ↦
    { id := S.events.length + i + 1, classId := classId, targetSeatId := seatId,
      payrollEventType := .payroll, mechanism := mechanism, recordedAt := now,
      payrollCycleId := some (S.completions.length + 1),
      scheduledOccurrence := scheduledOccurrence }

/-- `complete_payroll_cycle`, given the seats with closed, unpaid attendance. A run that was
completed before is not repeated, and one with nothing to settle is rolled back. -/
def completePayrollCycle (classId : String) (idempotencyKey : RunKey) (mechanism : RunMechanism)
    (scheduledOccurrence : Option Instant) (seats : List ℕ) : PayrollState :=
  if S.completions.any (fun c ↦ c.classId = classId ∧ c.idempotencyKey = idempotencyKey) then S
  else if seats = [] then S
  else
    { events := S.events ++ settlementEvents now S classId mechanism scheduledOccurrence seats
      completions := S.completions ++ [⟨classId, idempotencyKey, S.completions.length + 1⟩] }

def runAutomaticPayroll (zone : PaydayZone) (setting : PayrollSettings) (classId : String)
    (seats : List ℕ) : PayrollState :=
  match nextPayrollDate zone setting S classId now with
  | .error _ => S
  | .ok occurrence =>
    if now < occurrence then S
    else completePayrollCycle now S classId (.auto occurrence) .system (some occurrence) seats

def recordEvent (classId : String) (seatId : ℕ) (payrollEventType : PayrollEventType)
    (mechanism : RunMechanism) : PayrollState :=
  { S with events := S.events ++
      [{ id := S.events.length + 1, classId := classId, targetSeatId := seatId,
         payrollEventType := payrollEventType, mechanism := mechanism, recordedAt := now,
         payrollCycleId := none, scheduledOccurrence := none }] }

inductive PayrollAction
  | systemRun (classId : String) (seats : List ℕ)
  | teacherRun (classId token : String) (seats : List ℕ)
  | manualCredit (classId : String) (seatId : ℕ) (mechanism : RunMechanism)
  | recover (classId : String) (seatId : ℕ) (exact : Bool)

variable (zones : String → PaydayZone) (settings : String → PayrollSettings)

def payrollStep : PayrollAction → PayrollState
  | .systemRun classId seats =>
    runAutomaticPayroll now S (zones classId) (settings classId) classId seats
  | .teacherRun classId token seats =>
    completePayrollCycle now S classId (.manual token) .teacher none seats
  | .manualCredit classId seatId mechanism =>
    recordEvent now S classId seatId .manualCredit mechanism
  | .recover classId seatId exact =>
    recordEvent now S classId seatId (if exact then .reversal else .correction) .teacher

end Commands

/-- The payroll tables and the clock, which no command turns back. -/
structure PayrollSystem where
  clock : Instant
  tables : PayrollState

structure TimedPayrollAction where
  wait : ℕ
  action : PayrollAction

def payrollSystemStep (zones : String → PaydayZone) (settings : String → PayrollSettings)
    (s : PayrollSystem) (a : TimedPayrollAction) : PayrollSystem where
  clock := s.clock + a.wait
  tables := payrollStep (s.clock + a.wait) s.tables zones settings a.action

def PayrollSystem.start (clock : Instant) : PayrollSystem := ⟨clock, ⟨[], []⟩⟩

/-- The occurrence that a completed run settled, if the schedule started it. -/
def occurrenceOf (classId : String) (c : PayrollCycleCompletion) : Option Instant :=
  match c.idempotencyKey with
  | .auto occurrence => if c.classId = classId then some occurrence else none
  | .manual _ => none

def systemRuns (S : PayrollState) (classId : String) : List Instant :=
  S.completions.filterMap (occurrenceOf classId)

section Invariant

variable (zone : PaydayZone) (setting : PayrollSettings) (clock : Instant) (S : PayrollState)
  (classId : String)

def RecordedBefore (a b : PayrollEvent) : Prop := a.recordedAt ≤ b.recordedAt ∧ a.id < b.id

def systemEvents : List PayrollEvent := S.events.filter (SystemPayroll classId)

structure OnSchedule : Prop where
  ids : ∀ e ∈ S.events, e.id ≤ S.events.length
  ordered : (systemEvents S classId).Pairwise RecordedBefore
  past : ∀ e ∈ systemEvents S classId, e.recordedAt ≤ clock
  settled : systemRuns S classId =
    (List.range (systemRuns S classId).length).map (setting.boundary zone)
  recorded : ∀ e ∈ systemEvents S classId, ∃ c ∈ S.completions,
    e.payrollCycleId = some c.payrollCycleId ∧ e.scheduledOccurrence.isSome ∧
      occurrenceOf classId c = e.scheduledOccurrence
  latest : (systemEvents S classId).getLast?.bind (·.scheduledOccurrence) =
    (systemRuns S classId).getLast?

end Invariant

variable {zone : PaydayZone} {setting : PayrollSettings} {clock now : Instant}
  {S : PayrollState} {classId : String}

section Reads

theorem foldl_laterRecorded {es : List PayrollEvent} (h : es.Pairwise RecordedBefore) :
    es.foldl laterRecorded none = es.getLast? := by
  induction es using List.reverseRecOn with
  | nil => rfl
  | append_singleton es e ih =>
    rw [List.pairwise_append] at h
    rw [List.foldl_append, ih h.1, List.getLast?_concat, List.foldl_cons, List.foldl_nil]
    cases hlast : es.getLast? with
    | none => rfl
    | some b =>
      obtain ⟨hle, hid⟩ := h.2.2 b (List.mem_of_getLast? hlast) e (List.mem_singleton_self e)
      rw [laterRecorded, if_pos]
      rcases hle.lt_or_eq with hlt | heq
      · exact .inl hlt
      · exact .inr ⟨heq, hid⟩

theorem OnSchedule.lastSystemPayrollOccurrence (h : OnSchedule zone setting clock S classId)
    (hnow : clock ≤ now) : lastSystemPayrollOccurrence S classId now =
      (systemRuns S classId).getLast? := by
  have hfilter : S.events.filter (fun e ↦ SystemPayroll classId e ∧ e.recordedAt ≤ now) =
      systemEvents S classId := by
    apply List.filter_congr
    intro e he
    rw [decide_eq_decide]
    refine ⟨And.left, fun hs ↦ ⟨hs, ?_⟩⟩
    exact (h.past e (List.mem_filter.2 ⟨he, decide_eq_true hs⟩)).trans hnow
  rw [Payroll.lastSystemPayrollOccurrence, hfilter, foldl_laterRecorded h.ordered, ← h.latest]
  cases hlast : (systemEvents S classId).getLast? with
  | none => rfl
  | some e =>
    obtain ⟨c, -, -, hsome, -⟩ := h.recorded e (List.mem_of_getLast? hlast)
    obtain ⟨occurrence, ho⟩ := Option.isSome_iff_exists.1 hsome
    simp [ho]

theorem boundary_strictMono (zone : PaydayZone) (setting : PayrollSettings) :
    StrictMono (setting.boundary zone) := scheduleBoundary_strictMono _ _ _

/-- The next date is the boundary whose index is the number of runs. -/
theorem OnSchedule.nextPayrollDate (h : OnSchedule zone setting clock S classId)
    (hnow : clock ≤ now) : nextPayrollDate zone setting S classId now =
      .ok (setting.boundary zone (systemRuns S classId).length) := by
  rw [Payroll.nextPayrollDate, h.lastSystemPayrollOccurrence hnow]
  generalize hruns : (systemRuns S classId).length = k
  have hsettled := h.settled
  rw [hruns] at hsettled
  rw [hsettled]
  cases k with
  | zero => rfl
  | succ k =>
    rw [List.range_succ, List.map_append, List.map_singleton, List.getLast?_concat,
      deriveNextPayrollDate]
    exact firstBoundaryAfter_eq _ _ _ (leastAfter_self (boundary_strictMono zone setting) k)

end Reads

section Steps

/-- Events of other kinds or classes, and runs that the schedule did not start, change nothing
that the schedule reads. -/
theorem OnSchedule.beside (h : OnSchedule zone setting clock S classId) (hnow : clock ≤ now)
    {S' : PayrollState} {es : List PayrollEvent} {cs : List PayrollCycleCompletion}
    (hevents : S'.events = S.events ++ es) (hcompletions : S'.completions = S.completions ++ cs)
    (hids : ∀ e ∈ es, e.id ≤ S'.events.length) (hes : ∀ e ∈ es, ¬ SystemPayroll classId e)
    (hcs : ∀ c ∈ cs, occurrenceOf classId c = none) : OnSchedule zone setting now S' classId := by
  have hsame : systemEvents S' classId = systemEvents S classId := by
    have hnil : es.filter (SystemPayroll classId) = [] := by
      rw [List.filter_eq_nil_iff]
      intro e he
      simpa using hes e he
    rw [systemEvents, hevents, List.filter_append, hnil, List.append_nil, systemEvents]
  have hruns : systemRuns S' classId = systemRuns S classId := by
    rw [systemRuns, hcompletions, List.filterMap_append, List.filterMap_eq_nil_iff.2 hcs,
      List.append_nil, systemRuns]
  refine ⟨?_, ?_, ?_, ?_, ?_, ?_⟩
  · intro e he
    rw [hevents, List.mem_append] at he
    rcases he with hold | hnew
    · have hle := h.ids e hold
      rw [hevents, List.length_append]
      omega
    · exact hids e hnew
  · rw [hsame]
    exact h.ordered
  · intro e he
    rw [hsame] at he
    exact (h.past e he).trans hnow
  · rw [hruns]
    exact h.settled
  · intro e he
    rw [hsame] at he
    obtain ⟨c, hc, hfields⟩ := h.recorded e he
    rw [hcompletions]
    exact ⟨c, List.mem_append_left _ hc, hfields⟩
  · rw [hsame, hruns]
    exact h.latest

theorem OnSchedule.wait (h : OnSchedule zone setting clock S classId) (hnow : clock ≤ now) :
    OnSchedule zone setting now S classId :=
  h.beside hnow (List.append_nil _).symm (List.append_nil _).symm (by simp) (by simp) (by simp)

theorem mem_settlementEvents {mechanism : RunMechanism} {occurrence : Option Instant}
    {seats : List ℕ} {e : PayrollEvent} {classId' : String}
    (he : e ∈ settlementEvents now S classId' mechanism occurrence seats) :
    e.classId = classId' ∧ e.payrollEventType = .payroll ∧ e.mechanism = mechanism ∧
      e.recordedAt = now ∧ e.payrollCycleId = some (S.completions.length + 1) ∧
      e.scheduledOccurrence = occurrence ∧ S.events.length < e.id ∧
      e.id ≤ S.events.length + seats.length := by
  obtain ⟨⟨seatId, i⟩, hmem, rfl⟩ := List.mem_map.1 he
  have hi := (List.mem_zipIdx' hmem).1
  refine ⟨rfl, rfl, rfl, rfl, rfl, rfl, ?_, ?_⟩ <;> simp only <;> omega

theorem settlementEvents_ordered (mechanism : RunMechanism) (occurrence : Option Instant)
    (seats : List ℕ) (classId' : String) :
    (settlementEvents now S classId' mechanism occurrence seats).Pairwise RecordedBefore := by
  rw [settlementEvents, List.pairwise_map, List.pairwise_iff_getElem]
  intro i j hi hj hij
  simp only [List.getElem_zipIdx, RecordedBefore, le_refl, true_and]
  omega

theorem OnSchedule.otherRun (h : OnSchedule zone setting clock S classId) (hnow : clock ≤ now)
    {classId' : String} {key : RunKey} {mechanism : RunMechanism} {occurrence : Option Instant}
    (seats : List ℕ) (hother : classId' ≠ classId ∨ mechanism = .teacher)
    (hkey : ∀ n, occurrenceOf classId ⟨classId', key, n⟩ = none) :
    OnSchedule zone setting now
      (completePayrollCycle now S classId' key mechanism occurrence seats) classId := by
  unfold completePayrollCycle
  split_ifs
  · exact h.wait hnow
  · exact h.wait hnow
  · refine h.beside hnow rfl rfl ?_ ?_ ?_
    · intro e he
      have hid := (mem_settlementEvents he).2.2.2.2.2.2.2
      simp only [List.length_append, settlementEvents, List.length_map, List.length_zipIdx]
      omega
    · rintro e he ⟨hclass, -, hsystem⟩
      obtain ⟨hclass', -, hmechanism, -⟩ := mem_settlementEvents he
      rcases hother with hne | rfl
      · exact hne (hclass'.symm.trans hclass)
      · rw [hmechanism] at hsystem
        cases hsystem
    · intro c hc
      obtain rfl := List.mem_singleton.1 hc
      exact hkey _

theorem OnSchedule.scheduledRun (h : OnSchedule zone setting clock S classId)
    (hnow : clock ≤ now) (seats : List ℕ) :
    OnSchedule zone setting now (runAutomaticPayroll now S zone setting classId seats) classId := by
  unfold runAutomaticPayroll
  rw [h.nextPayrollDate hnow]
  generalize hk : (systemRuns S classId).length = k
  simp only
  split_ifs with hearly
  · exact h.wait hnow
  unfold completePayrollCycle
  split_ifs with hdone hseats
  · exact h.wait hnow
  · exact h.wait hnow
  generalize hes : settlementEvents now S classId .system (some (setting.boundary zone k)) seats = es
  have hmem : ∀ e ∈ es, e.classId = classId ∧ e.payrollEventType = .payroll ∧
      e.mechanism = .system ∧ e.recordedAt = now ∧
      e.payrollCycleId = some (S.completions.length + 1) ∧
      e.scheduledOccurrence = some (setting.boundary zone k) ∧ S.events.length < e.id ∧
      e.id ≤ S.events.length + seats.length := fun e he ↦ mem_settlementEvents (hes ▸ he)
  have hlen : es.length = seats.length := by
    rw [← hes, settlementEvents, List.length_map, List.length_zipIdx]
  have hall : es.filter (SystemPayroll classId) = es := by
    rw [List.filter_eq_self]
    intro e he
    obtain ⟨hclass, htype, hmechanism, -⟩ := hmem e he
    exact decide_eq_true ⟨hclass, htype, hmechanism⟩
  have hruns : (S.completions ++ [PayrollCycleCompletion.mk classId
      (.auto (setting.boundary zone k)) (S.completions.length + 1)]).filterMap
        (occurrenceOf classId) = systemRuns S classId ++ [setting.boundary zone k] := by
    simp [systemRuns, occurrenceOf]
  refine ⟨?_, ?_, ?_, ?_, ?_, ?_⟩
  · intro e he
    rw [List.length_append]
    rcases List.mem_append.1 he with hold | hnew
    · have hid := h.ids e hold
      omega
    · have hid := (hmem e hnew).2.2.2.2.2.2.2
      omega
  · rw [systemEvents, List.filter_append, hall, List.pairwise_append]
    refine ⟨h.ordered, hes ▸ settlementEvents_ordered _ _ _ _, ?_⟩
    intro a ha b hb
    obtain ⟨-, -, -, hat, -, -, hid, -⟩ := hmem b hb
    have hida := h.ids a (List.mem_of_mem_filter ha)
    refine ⟨?_, by omega⟩
    rw [hat]
    exact (h.past a ha).trans hnow
  · intro e he
    rw [systemEvents, List.filter_append, hall, List.mem_append] at he
    rcases he with hold | hnew
    · exact (h.past e hold).trans hnow
    · exact (hmem e hnew).2.2.2.1.le
  · rw [systemRuns, hruns, List.length_append, List.length_singleton, hk, List.range_succ,
      List.map_append, List.map_singleton]
    have hsettled := h.settled
    rw [hk] at hsettled
    rw [← hsettled]
  · intro e he
    rw [systemEvents, List.filter_append, hall, List.mem_append] at he
    rcases he with hold | hnew
    · obtain ⟨c, hc, hfields⟩ := h.recorded e hold
      exact ⟨c, List.mem_append_left _ hc, hfields⟩
    · obtain ⟨-, -, -, -, hcycle, hoccurrence, -⟩ := hmem e hnew
      refine ⟨_, List.mem_append_right _ (List.mem_singleton_self _), hcycle, ?_, ?_⟩
      · rw [hoccurrence]
        rfl
      · rw [hoccurrence]
        simp [occurrenceOf]
  · rw [systemRuns, hruns, List.getLast?_concat, systemEvents, List.filter_append, hall]
    have hne : es ≠ [] := by
      intro hnil
      rw [hnil] at hlen
      exact hseats (List.length_eq_zero_iff.1 hlen.symm)
    rw [List.getLast?_append_of_ne_nil _ hne]
    obtain ⟨e, he⟩ := Option.isSome_iff_exists.1 (List.getLast?_isSome.2 hne)
    rw [he]
    exact (hmem e (List.mem_of_getLast? he)).2.2.2.2.2.1

theorem OnSchedule.unsettled (h : OnSchedule zone setting clock S classId) :
    ¬ S.completions.any (fun c ↦ c.classId = classId ∧
      c.idempotencyKey = .auto (setting.boundary zone (systemRuns S classId).length)) = true := by
  intro hany
  obtain ⟨c, hc, hfields⟩ := List.any_eq_true.1 hany
  obtain ⟨hclass, hkey⟩ := of_decide_eq_true hfields
  have hmem : setting.boundary zone (systemRuns S classId).length ∈ systemRuns S classId := by
    refine List.mem_filterMap.2 ⟨c, hc, ?_⟩
    simp only [occurrenceOf, hkey, hclass, if_true]
  rw [h.settled, List.mem_map] at hmem
  obtain ⟨n, hn, heq⟩ := hmem
  have hsame := (boundary_strictMono zone setting).injective heq
  rw [hsame, List.length_map, List.length_range, List.mem_range] at hn
  exact absurd hn (lt_irrefl _)

theorem OnSchedule.systemRuns_run (h : OnSchedule zone setting clock S classId)
    (hnow : clock ≤ now) {seats : List ℕ} (hseats : seats ≠ [])
    (hdue : setting.boundary zone (systemRuns S classId).length ≤ now) :
    systemRuns (runAutomaticPayroll now S zone setting classId seats) classId =
      systemRuns S classId ++ [setting.boundary zone (systemRuns S classId).length] := by
  unfold runAutomaticPayroll
  rw [h.nextPayrollDate hnow]
  simp only
  rw [if_neg hdue.not_gt, completePayrollCycle, if_neg h.unsettled, if_neg hseats]
  simp [systemRuns, occurrenceOf]

end Steps

section Runs

def payrollAfter (zones : String → PaydayZone) (settings : String → PayrollSettings)
    (clock : Instant) (as : List TimedPayrollAction) : PayrollSystem :=
  run (payrollSystemStep zones settings) (.start clock) as

variable {zones : String → PaydayZone} {settings : String → PayrollSettings}

theorem OnSchedule.step (h : OnSchedule (zones classId) (settings classId) clock S classId)
    (hnow : clock ≤ now) (a : PayrollAction) : OnSchedule (zones classId) (settings classId) now
      (payrollStep now S zones settings a) classId := by
  cases a with
  | systemRun classId' seats =>
    by_cases hsame : classId' = classId
    · subst hsame
      exact h.scheduledRun hnow seats
    · simp only [payrollStep, runAutomaticPayroll]
      split
      · exact h.wait hnow
      · split_ifs
        · exact h.wait hnow
        · refine h.otherRun hnow seats (.inl hsame) (fun n ↦ ?_)
          simp only [occurrenceOf, if_neg hsame]
  | teacherRun classId' token seats => exact h.otherRun hnow seats (.inr rfl) (fun _ ↦ rfl)
  | manualCredit classId' seatId mechanism =>
    refine h.beside hnow rfl (List.append_nil _).symm ?_ ?_ (by simp)
    · intro e he
      obtain rfl := List.mem_singleton.1 he
      simp [payrollStep, recordEvent]
    · intro e he hs
      obtain rfl := List.mem_singleton.1 he
      cases hs.2.1
  | recover classId' seatId exact =>
    refine h.beside hnow rfl (List.append_nil _).symm ?_ ?_ (by simp)
    · intro e he
      obtain rfl := List.mem_singleton.1 he
      simp [payrollStep, recordEvent]
    · intro e he hs
      obtain rfl := List.mem_singleton.1 he
      cases hs.2.2

theorem OnSchedule.start (zone : PaydayZone) (setting : PayrollSettings) (clock : Instant)
    (classId : String) : OnSchedule zone setting clock ⟨[], []⟩ classId where
  ids := by simp
  ordered := .nil
  past := by simp [systemEvents]
  settled := rfl
  recorded := by simp [systemEvents]
  latest := rfl

theorem OnSchedule.run (zones : String → PaydayZone) (settings : String → PayrollSettings)
    (clock : Instant) (as : List TimedPayrollAction) (classId : String) :
    OnSchedule (zones classId) (settings classId) (payrollAfter zones settings clock as).clock
      (payrollAfter zones settings clock as).tables classId := by
  apply run_invariant (I := fun s : PayrollSystem ↦
    OnSchedule (zones classId) (settings classId) s.clock s.tables classId)
  · exact .start _ _ clock classId
  · intro s a h
    exact h.step (Int.le_add_of_nonneg_right (Int.natCast_nonneg a.wait)) a.action

/-- The paydays of a class come in order, and none is repeated or skipped. -/
structure PaydaysKept (zones : String → PaydayZone) (settings : String → PayrollSettings)
    (s : PayrollSystem) (classId : String) : Prop where
  settled : ∀ k occurrence, (systemRuns s.tables classId)[k]? = some occurrence →
    occurrence = (settings classId).boundary (zones classId) k
  recorded : ∀ e ∈ s.tables.events, SystemPayroll classId e → ∃ c ∈ s.tables.completions,
    e.payrollCycleId = some c.payrollCycleId ∧ e.scheduledOccurrence.isSome ∧
      occurrenceOf classId c = e.scheduledOccurrence
  next : ∀ now, s.clock ≤ now →
    nextPayrollDate (zones classId) (settings classId) s.tables classId now =
      .ok ((settings classId).boundary (zones classId) (systemRuns s.tables classId).length)
  runs : ∀ now, s.clock ≤ now →
    (settings classId).boundary (zones classId) (systemRuns s.tables classId).length ≤ now →
    ∀ seats, seats ≠ [] →
      systemRuns (payrollStep now s.tables zones settings (.systemRun classId seats)) classId =
        systemRuns s.tables classId ++
          [(settings classId).boundary (zones classId) (systemRuns s.tables classId).length]
  least : ∀ asOf last, lastSystemPayrollOccurrence s.tables classId asOf = some last →
    ∃ n, nextPayrollDate (zones classId) (settings classId) s.tables classId asOf =
        .ok ((settings classId).boundary (zones classId) n) ∧
      LeastAfter ((settings classId).boundary (zones classId)) last n

/-- After any run the paydays are kept; boundaries increase, and the search for the one after an
instant looks at no more than three. -/
theorem automatic_paydays_never_drift (zones : String → PaydayZone)
    (settings : String → PayrollSettings) (clock : Instant) (as : List TimedPayrollAction)
    (classId : String) :
    PaydaysKept zones settings (payrollAfter zones settings clock as) classId ∧
    ∀ zone anchor cadence, StrictMono (scheduleBoundary zone anchor cadence) ∧
      ∀ instant, ∃ n, firstIndexAfterWithin zone anchor cadence 3 instant = .ok n ∧
        firstBoundaryAfter zone anchor cadence instant =
          .ok (scheduleBoundary zone anchor cadence n) ∧
        LeastAfter (scheduleBoundary zone anchor cadence) instant n := by
  have h := OnSchedule.run zones settings clock as classId
  refine ⟨⟨fun k occurrence hk ↦ ?_, fun e he hs ↦ ?_, fun now hnow ↦ h.nextPayrollDate hnow,
    fun now hnow hdue seats hs ↦ h.systemRuns_run hnow hs hdue, fun asOf last hlast ↦ ?_⟩,
    fun zone anchor cadence ↦ ⟨scheduleBoundary_strictMono zone anchor cadence,
      fun instant ↦ ?_⟩⟩
  · rw [h.settled, List.getElem?_map, Option.map_eq_some_iff] at hk
    obtain ⟨n, hn, rfl⟩ := hk
    obtain ⟨hlt, rfl⟩ := List.getElem?_eq_some_iff.1 hn
    rw [List.getElem_range]
  · exact h.recorded e (List.mem_filter.2 ⟨he, decide_eq_true hs⟩)
  · obtain ⟨n, -, hleast⟩ := firstIndexAfterWithin_spec (zones classId)
      ((settings classId).anchor (zones classId)) (payCadence (settings classId).payScheduleType)
      3 le_rfl last
    refine ⟨n, ?_, hleast⟩
    rw [nextPayrollDate, hlast]
    exact firstBoundaryAfter_eq _ _ _ hleast
  · obtain ⟨n, hn, hleast⟩ := firstIndexAfterWithin_spec zone anchor cadence 3 le_rfl instant
    exact ⟨n, hn, firstBoundaryAfter_eq _ _ _ hleast, hleast⟩

end Runs

end TokenHub.Payroll
