import TokenHub.HallPass.PassDay

set_option autoImplicit false

namespace TokenHub.HallPass

open Ledger Attendance Store Lib.Checks Lib.Ordered Lib.Runs
open Rent (Instant ClassZone)

section Status

variable {A : AttendanceTables} {e r x : AttendanceSession} {seatId : ℕ} {classId : String}
  {passId : Option ℕ}

theorem mem_passRows : r ∈ passRows A seatId classId passId ↔
    r ∈ A.sessions ∧ r.classId = classId ∧ r.targetSeatId = seatId ∧ r.hallPassId = passId := by
  rw [passRows, List.mem_insertionSort, List.mem_filter, decide_eq_true_eq]

theorem passRows_append_other (h : x.hallPassId ≠ passId) :
    passRows (A.append x) seatId classId passId = passRows A seatId classId passId := by
  rw [passRows, passRows, AttendanceTables.append, List.filter_append,
    List.filter_cons_of_neg (by simp [h]), List.filter_nil, List.append_nil]

theorem passRows_append {now : Instant} (h : A.UpTo classId now) (hid : x.id = A.nextSessionId)
    (hseat : x.targetSeatId = seatId) (hclass : x.classId = classId) (htime : x.timestamp = now)
    (hpass : x.hallPassId = passId) :
    passRows (A.append x) seatId classId passId = passRows A seatId classId passId ++ [x] := by
  have hx : [x].filter (fun r ↦ r.classId = classId ∧ r.targetSeatId = seatId ∧
      r.hallPassId = passId) = [x] := by
    simp [hseat, hclass, hpass]
  rw [passRows, AttendanceTables.append, List.filter_append, hx]
  apply insertionSort_concat
  intro r hr
  obtain ⟨hr, hp⟩ := List.mem_filter.1 hr
  exact h.sooner hid htime hr (of_decide_eq_true hp).1

theorem lifecycleStatus_nil : lifecycleStatus [] = .approved := rfl

theorem lifecycleStatus_exit (he : e.isHallPassExit = true) : lifecycleStatus [e] = .left := by
  have hstatus : e.status = .inactive := (of_decide_eq_true he).1
  simp [lifecycleStatus, returnRow, leftRow, he, hstatus]

theorem lifecycleStatus_return (he : e.isHallPassExit = true) (hr : r.status = .active)
    (hle : e.timestamp ≤ r.timestamp) : lifecycleStatus [e, r] = .returned := by
  have hstatus : e.status = .inactive := (of_decide_eq_true he).1
  simp [lifecycleStatus, returnRow, leftRow, he, hstatus, hr, hle]

end Status

section Days

variable {zone : ClassZone} {d : ℤ} {t u : Instant}

theorem InClassDay.dayStart_eq (h : InClassDay zone d t) : dayStart zone t = zone.startOfDate d := by
  rw [dayStart, h.1]

theorem InClassDay.dayEnd_eq (h : InClassDay zone d t) :
    dayEnd zone t = zone.startOfDate (d + 1) := by
  rw [dayEnd, h.1]

theorem isDoneForDay_congr {A B : AttendanceTables} {seatId : ℕ} {classId : String}
    (hrows : A.seatRows seatId classId = B.seatRows seatId classId) (ht : InClassDay zone d t)
    (hu : InClassDay zone d u) :
    isDoneForDay zone A seatId classId t = isDoneForDay zone B seatId classId u := by
  unfold isDoneForDay
  rw [hrows, ht.dayStart_eq, ht.dayEnd_eq, hu.dayStart_eq, hu.dayEnd_eq]

end Days

section Moves

variable (zone : ClassZone) (classId : String) (t : Instant)

inductive PassMove : PassDay → PassDay → Prop
  | stay (D : PassDay) : PassMove D D
  | issue {S : PassState} {es : List PassEvent} {log : HallPassLog} :
      log.id = S.hallPassLogs.length + 1 → log.classId = classId → log.timestamp = t →
        (∀ l ∈ S.hallPassLogs, log.hallPassId.isSome → l.hallPassId ≠ log.hallPassId) →
          PassMove ⟨S, es⟩ ⟨{ S with hallPassLogs := S.hallPassLogs ++ [log] },
            es ++ [.approved log.id (log.destination.getD "")]⟩
  | leave {S : PassState} {es : List PassEvent} {log : HallPassLog} {actor p : ℕ}
      {mechanism : AttendanceMechanism} :
      S.log log.id = some log → log.classId = classId → log.hallPassId = some p →
        S.passStatus log = .approved → S.Claimed log.requestedBySeatId classId →
          isLiveSession zone t (S.latestSeatEvent log.requestedBySeatId classId) = true →
            PassMove ⟨S, es⟩ ⟨{ S with toAttendanceTables := S.append (S.row classId t
              log.requestedBySeatId actor mechanism .inactive .hallPass (some p)) },
                es ++ [.left log.id (!isDoneForDay zone S.toAttendanceTables
                  log.requestedBySeatId classId t)]⟩
  | back {S : PassState} {es : List PassEvent} {log : HallPassLog} {actor p : ℕ}
      {mechanism : AttendanceMechanism} :
      S.log log.id = some log → log.classId = classId → log.hallPassId = some p →
        S.passStatus log ≠ .returned → S.OutOn zone log.requestedBySeatId classId t p →
          PassMove ⟨S, es⟩ ⟨{ S with toAttendanceTables := S.append (S.row classId t
            log.requestedBySeatId actor mechanism .active .startWork (some p)) },
              es ++ [.returned log.id]⟩
  | start {S : PassState} {es : List PassEvent} {log : HallPassLog} {actor : ℕ}
      {mechanism : AttendanceMechanism} {B : AttendanceTables} :
      S.log log.id = some log → log.hallPassId = none →
        (∀ e, S.latestSeatEvent log.requestedBySeatId classId = some e →
          e.isHallPassExit = true →
            ¬ (dayStart zone e.timestamp ≤ t ∧ t < dayEnd zone e.timestamp)) →
          (B = S.toAttendanceTables ∨ ∃ stop ≤ t, B = S.append (S.row classId stop
            log.requestedBySeatId actor mechanism .inactive .doneForDay none)) →
            PassMove ⟨S, es⟩ ⟨{ S with toAttendanceTables := B.append (B.row classId t
              log.requestedBySeatId actor mechanism .active .startWork none) },
                es ++ [.returned log.id]⟩

end Moves

section Steps

variable {zone : ClassZone} {fold : String → String} {isoformat : Instant → String}
  {classId : String} {t : Instant} {S S' : PassState} {log : HallPassLog}

theorem recordHallPassLog_ok {request : PassRequest}
    (h : recordHallPassLog zone fold S isoformat classId t request = .ok (log, S')) :
    log.id = S.hallPassLogs.length + 1 ∧ log.classId = classId ∧ log.timestamp = t ∧
      log.destination = some request.destination ∧
      (∀ l ∈ S.hallPassLogs, log.hallPassId.isSome → l.hallPassId ≠ log.hallPassId) ∧
      S' = { S with hallPassLogs := S.hallPassLogs ++ [log] } ∧
      ∃ settings, enforceHallPassSettings zone fold S classId t request.destination =
          .ok settings ∧
        (settings.consumesPass fold request.destination = true → log.hallPassId.isSome) := by
  unfold recordHallPassLog at h
  simp only [demand_bind_eq_ok] at h
  obtain ⟨s, hs, h⟩ := h
  rw [bind_eq_ok] at h
  obtain ⟨settings, hsettings, h⟩ := h
  rw [bind_eq_ok] at h
  obtain ⟨usedPass, hused, h⟩ := h
  rw [require_bind_eq_ok, pure_eq_ok, Prod.mk.injEq] at h
  obtain ⟨hindex, rfl, rfl⟩ := h
  refine ⟨rfl, rfl, rfl, rfl, hindex, rfl, settings, hsettings, fun hconsumes ↦ ?_⟩
  rw [hconsumes, PassState.usedPass, if_pos rfl] at hused
  cases hgrant : S.passToUse request.hallPassEntitlementId request.requestedBySeatId classId with
  | error _ =>
    rw [hgrant] at hused
    exact absurd hused (by simp [Except.map])
  | ok grant =>
    rw [hgrant] at hused
    obtain rfl : some grant = usedPass := Except.ok.inj hused
    rfl

theorem PassState.log_id {passId : ℕ} (h : S.log passId = some log) : log.id = passId := by
  simpa using List.find?_some h

theorem markRoute_ok {own : Bool} {seatId passId : ℕ} {action : HallPassAction}
    {answer : PassAnswer}
    (h : markRoute zone fold classId own S seatId t passId action = .ok (answer, S')) :
    ∃ log mechanism, S.log passId = some log ∧ log.classId = classId ∧
      markPass zone fold S mechanism ⟨classId, seatId⟩ t log action = .ok (answer, S') := by
  unfold markRoute at h
  split_ifs at h
  · unfold handleOwnPass at h
    simp only [demand_bind_eq_ok] at h
    obtain ⟨log, hlog, h⟩ := h
    rw [require_bind_eq_ok, require_bind_eq_ok] at h
    exact ⟨log, .self, hlog, h.2.1.symm, h.2.2⟩
  · unfold handleHallPassAction at h
    simp only [demand_bind_eq_ok] at h
    obtain ⟨log, hlog, h⟩ := h
    rw [require_bind_eq_ok] at h
    exact ⟨log, .teacher, hlog, h.1.symm, h.2⟩

theorem markPass_moves {mechanism : AttendanceMechanism} {seatId : ℕ} {action : HallPassAction}
    {answer : PassAnswer} (hlog : S.log log.id = some log) (hclass : log.classId = classId)
    (h : markPass zone fold S mechanism ⟨classId, seatId⟩ t log action = .ok (answer, S'))
    (es : List PassEvent) :
    match answer with
    | .hasLeft => PassMove zone classId t ⟨S, es⟩
        ⟨S', es ++ [.left log.id (S.freeToWork zone classId t log.id)]⟩
    | .hasReturned => PassMove zone classId t ⟨S, es⟩ ⟨S', es ++ [.returned log.id]⟩
    | _ => S' = S := by
  unfold markPass at h
  cases action with
  | leave =>
    dsimp only at h
    split_ifs at h with hleft
    · rw [pure_eq_ok, Prod.mk.injEq] at h
      obtain ⟨rfl, rfl⟩ := h
      rfl
    · rw [require_bind_eq_ok, require_bind_eq_ok, bind_eq_ok] at h
      obtain ⟨hreturned, -, A, hA, h⟩ := h
      rw [pure_eq_ok, Prod.mk.injEq] at h
      obtain ⟨rfl, rfl⟩ := h
      obtain ⟨hpass, hclaimed, -, hlive, rfl⟩ := recordAttendanceSession_leave.1 hA
      obtain ⟨p, hp⟩ := Option.isSome_iff_exists.1 hpass
      have hstatus : S.passStatus log = .approved := by
        cases hs : S.passStatus log with
        | approved => rfl
        | left => exact absurd hs hleft
        | returned => exact absurd hs hreturned
      have hfree : S.freeToWork zone classId t log.id =
          !isDoneForDay zone S.toAttendanceTables log.requestedBySeatId classId t := by
        rw [PassState.freeToWork, hlog]
        rfl
      dsimp only
      rw [hfree, hp]
      exact .leave hlog hclass hp hstatus hclaimed hlive
  | «return» =>
    dsimp only at h
    split_ifs at h with hreturned
    · rw [pure_eq_ok, Prod.mk.injEq] at h
      obtain ⟨rfl, rfl⟩ := h
      rfl
    · rw [bind_eq_ok] at h
      obtain ⟨A, hA, h⟩ := h
      rw [pure_eq_ok, Prod.mk.injEq] at h
      obtain ⟨rfl, rfl⟩ := h
      dsimp only
      rw [actionRequest] at hA
      cases hp : log.hallPassId with
      | none =>
        rw [hp] at hA
        obtain ⟨hout, B, hB, rfl⟩ := recordAttendanceSession_start hA
        exact .start hlog hp hout hB
      | some p =>
        rw [hp] at hA
        obtain ⟨-, -, hout, -, rfl⟩ := recordAttendanceSession_return.1 hA
        exact .back hlog hclass hp hreturned hout

theorem passStep_moves (D : PassDay) (step : Instant × PassAction) :
    PassMove zone classId step.1 D (passStep zone fold isoformat classId D step) := by
  obtain ⟨S, es⟩ := D
  obtain ⟨t, action⟩ := step
  cases action with
  | approve request =>
    simp only [passStep]
    cases h : recordHallPassLog zone fold S isoformat classId t request with
    | error _ => exact .stay _
    | ok result =>
      obtain ⟨log, S'⟩ := result
      obtain ⟨hid, hclass, htime, hdest, hindex, rfl, -⟩ := recordHallPassLog_ok h
      have hmove : PassMove zone classId t ⟨S, es⟩ _ := .issue hid hclass htime hindex
      rw [hdest] at hmove
      exact hmove
  | mark own seatId passId action =>
    simp only [passStep]
    cases h : markRoute zone fold classId own S seatId t passId action with
    | error _ => exact .stay _
    | ok result =>
      obtain ⟨answer, S'⟩ := result
      obtain ⟨log, mechanism, hlog, hclass, hmark⟩ := markRoute_ok h
      obtain rfl := PassState.log_id hlog
      have hmoves := markPass_moves hlog hclass hmark es
      cases answer with
      | hasLeft => exact hmoves
      | hasReturned => exact hmoves
      | alreadyOut =>
        obtain rfl : S' = S := hmoves
        exact .stay _
      | alreadyReturned =>
        obtain rfl : S' = S := hmoves
        exact .stay _

end Steps

section Invariant

variable (zone : ClassZone) (classId : String) (d : ℤ)

/-- What the tables of a class keep: ids of their own, no row of the future, each used pass in one
log, and every attendance row of a pass after its log. -/
structure PassTables (S : PassState) (now : Instant) : Prop where
  upTo : S.UpTo classId now
  logs_le : ∀ l ∈ S.hallPassLogs, l.id ≤ S.hallPassLogs.length
  logs_nodup : (S.hallPassLogs.map (·.id)).Nodup
  uses : ∀ l ∈ S.hallPassLogs, ∀ l' ∈ S.hallPassLogs, l.hallPassId.isSome →
    l'.hallPassId = l.hallPassId → l' = l
  named : ∀ r ∈ S.sessions, r.hallPassId.isSome → ∃ l ∈ S.hallPassLogs, l.hallPassId = r.hallPassId

def logsOn (S : PassState) : List HallPassLog :=
  S.hallPassLogs.filter (fun l ↦ l.classId = classId ∧ zone.startOfDate d ≤ l.timestamp ∧
    l.timestamp < zone.startOfDate (d + 1))

/-- The state before any pass of class day `d` is issued. -/
structure Morning (S : PassState) (now : Instant) : Prop extends PassTables classId S now where
  none_issued : logsOn zone classId d S = []

inductive PassTrack (D : PassDay) (log : HallPassLog) (p : ℕ) : Prop
  | waiting : D.history log.id = [.approved log.id (log.destination.getD "")] →
      passRows D.state.toAttendanceTables log.requestedBySeatId classId (some p) = [] →
        PassTrack D log p
  | out {atWork : Bool} {e : AttendanceSession} :
      D.history log.id = [.approved log.id (log.destination.getD ""), .left log.id atWork] →
      passRows D.state.toAttendanceTables log.requestedBySeatId classId (some p) = [e] →
      e.isHallPassExit = true →
      D.state.latestSeatEvent log.requestedBySeatId classId = some e →
      InClassDay zone d e.timestamp →
      D.state.Claimed log.requestedBySeatId classId →
      (atWork = true →
        isDoneForDay zone D.state.toAttendanceTables log.requestedBySeatId classId e.timestamp =
          false) →
        PassTrack D log p
  | back {atWork : Bool} {e r : AttendanceSession} :
      D.history log.id = [.approved log.id (log.destination.getD ""), .left log.id atWork,
        .returned log.id] →
      passRows D.state.toAttendanceTables log.requestedBySeatId classId (some p) = [e, r] →
      e.isHallPassExit = true → r.status = .active → e.timestamp ≤ r.timestamp →
        PassTrack D log p

/-- The day so far: the events name the logs of the day, and the rows follow the events. -/
structure Tracked (D : PassDay) (now : Instant) : Prop extends PassTables classId D.state now where
  events_le : ∀ e ∈ D.events, e.passId ≤ D.state.hallPassLogs.length
  issues : D.events.filterMap (·.issue) =
    (logsOn zone classId d D.state).map (fun l ↦ (l.id, l.destination.getD ""))
  tracks : ∀ l ∈ logsOn zone classId d D.state,
    ∃ p, l.hallPassId = some p ∧ PassTrack zone classId d D l p

end Invariant

section Kept

variable {zone : ClassZone} {classId : String} {d : ℤ} {S : PassState} {now t : Instant}
  {x : AttendanceSession} {log : HallPassLog}

theorem PassTables.mono {later : Instant} (h : PassTables classId S now) (hle : now ≤ later) :
    PassTables classId S later :=
  { h with upTo := h.upTo.mono hle }

theorem PassTables.log_eq (h : PassTables classId S now) (hlog : log ∈ S.hallPassLogs) :
    S.log log.id = some log := by
  unfold PassState.log
  have hfound : ∃ l, S.hallPassLogs.find? (fun l ↦ l.id = log.id) = some l := by
    rw [← Option.isSome_iff_exists, List.find?_isSome]
    exact ⟨log, hlog, by simp⟩
  obtain ⟨l, hl⟩ := hfound
  have hid : l.id = log.id := by simpa using List.find?_some hl
  rw [hl, List.inj_on_of_nodup_map h.logs_nodup (List.mem_of_find?_eq_some hl) hlog hid]

theorem PassTables.append {S' : PassState} (h : PassTables classId S now)
    (hS' : S' = { S with toAttendanceTables := S.append x }) (hid : x.id = S.nextSessionId)
    (htime : x.timestamp ≤ now)
    (hnamed : x.hallPassId.isSome → ∃ l ∈ S.hallPassLogs, l.hallPassId = x.hallPassId) :
    PassTables classId S' now := by
  subst hS'
  refine ⟨h.upTo.append hid (fun _ ↦ htime), h.logs_le, h.logs_nodup, h.uses, ?_⟩
  intro r hr hsome
  rcases List.mem_append.1 hr with hr | hr
  · exact h.named r hr hsome
  · rw [List.mem_singleton.1 hr] at hsome ⊢
    exact hnamed hsome

theorem PassTables.issue (h : PassTables classId S now) (hid : log.id = S.hallPassLogs.length + 1)
    (hindex : ∀ l ∈ S.hallPassLogs, log.hallPassId.isSome → l.hallPassId ≠ log.hallPassId) :
    PassTables classId { S with hallPassLogs := S.hallPassLogs ++ [log] } now := by
  refine ⟨h.upTo, ?_, ?_, ?_, ?_⟩
  · intro l hl
    rw [List.length_append]
    rcases List.mem_append.1 hl with hl | hl
    · exact (h.logs_le l hl).trans (Nat.le_add_right _ _)
    · rw [List.mem_singleton.1 hl, hid]
      rfl
  · rw [List.map_append, List.nodup_append]
    refine ⟨h.logs_nodup, List.nodup_singleton _, ?_⟩
    intro i hi j hj
    obtain ⟨l, hl, rfl⟩ := List.mem_map.1 hi
    have := h.logs_le l hl
    rw [List.mem_singleton.1 hj]
    dsimp only
    omega
  · intro l hl l' hl' hsome heq
    rcases List.mem_append.1 hl with hl | hl <;> rcases List.mem_append.1 hl' with hl' | hl'
    · exact h.uses l hl l' hl' hsome heq
    · rw [List.mem_singleton.1 hl'] at heq ⊢
      rw [← heq] at hsome
      exact absurd heq.symm (hindex l hl hsome)
    · rw [List.mem_singleton.1 hl] at heq hsome ⊢
      exact absurd heq (hindex l' hl' hsome)
    · rw [List.mem_singleton.1 hl, List.mem_singleton.1 hl']
  · intro r hr hsome
    obtain ⟨l, hl, heq⟩ := h.named r hr hsome
    exact ⟨l, List.mem_append_left _ hl, heq⟩

theorem PassTables.distinct {l : HallPassLog} {p q : ℕ} (h : PassTables classId S now)
    (hlog : log ∈ S.hallPassLogs) (hp : log.hallPassId = some p) (hl : l ∈ S.hallPassLogs)
    (hq : l.hallPassId = some q) (hid : l.id ≠ log.id) : some p ≠ some q := by
  intro heq
  have hsame : l.hallPassId = log.hallPassId := by rw [hq, hp, heq]
  exact hid (by rw [h.uses log hlog l hl (by rw [hp]; rfl) hsame])

end Kept

section Tracking

variable {zone : ClassZone} {classId : String} {d : ℤ} {D D' : PassDay} {now t : Instant}
  {log l : HallPassLog} {p : ℕ}

theorem history_self {S S' : PassState} {es : List PassEvent} {ev : PassEvent} {passId : ℕ}
    (h : ev.passId = passId) : (PassDay.mk S' (es ++ [ev])).history passId =
      (PassDay.mk S es).history passId ++ [ev] := by
  simp [PassDay.history, h]

theorem history_other {S S' : PassState} {es : List PassEvent} {ev : PassEvent} {passId : ℕ}
    (h : ev.passId ≠ passId) : (PassDay.mk S' (es ++ [ev])).history passId =
      (PassDay.mk S es).history passId := by
  simp [PassDay.history, h]

/-- Where a step leaves the rows of a pass and, while the pass is out, of its holder, the pass is
as far as before. -/
theorem PassTrack.frame (h : PassTrack zone classId d D l p)
    (hhistory : D'.history l.id = D.history l.id)
    (hrows : passRows D'.state.toAttendanceTables l.requestedBySeatId classId (some p) =
      passRows D.state.toAttendanceTables l.requestedBySeatId classId (some p))
    (hseats : D'.state.seats = D.state.seats)
    (hout : ∀ e, D.state.latestSeatEvent l.requestedBySeatId classId = some e →
      e.isHallPassExit = true → e.hallPassId = some p → InClassDay zone d e.timestamp →
        D'.state.seatRows l.requestedBySeatId classId =
          D.state.seatRows l.requestedBySeatId classId) :
    PassTrack zone classId d D' l p := by
  cases h with
  | waiting hist rows => exact .waiting (hhistory.trans hist) (hrows.trans rows)
  | out hist rows hexit hlatest hday hclaimed hwork =>
    rename_i atWork e
    have he : e ∈ passRows D.state.toAttendanceTables l.requestedBySeatId classId (some p) := by
      rw [rows]
      exact List.mem_singleton_self e
    have hseatRows := hout e hlatest hexit (mem_passRows.1 he).2.2.2 hday
    refine .out (hhistory.trans hist) (hrows.trans rows) hexit ?_ hday ?_ ?_
    · rw [AttendanceTables.latestSeatEvent, hseatRows]
      exact hlatest
    · obtain ⟨s, hs, hs'⟩ := hclaimed
      refine ⟨s, ?_, hs'⟩
      rw [AttendanceTables.seat, hseats]
      exact hs
    · intro hw
      rw [isDoneForDay_congr hseatRows hday hday]
      exact hwork hw
  | back hist rows hexit hactive hle =>
    exact .back (hhistory.trans hist) (hrows.trans rows) hexit hactive hle

theorem Tracked.mono {later : Instant} (h : Tracked zone classId d D now) (hle : now ≤ later) :
    Tracked zone classId d D later :=
  { h with toPassTables := h.toPassTables.mono hle }

theorem mem_logsOn {S : PassState} : l ∈ logsOn zone classId d S ↔ l ∈ S.hallPassLogs ∧
    l.classId = classId ∧ zone.startOfDate d ≤ l.timestamp ∧
      l.timestamp < zone.startOfDate (d + 1) := by
  rw [logsOn, List.mem_filter, decide_eq_true_eq]

/-- The new log of a day waits for its holder to leave. -/
theorem Tracked.issue {S : PassState} {es : List PassEvent}
    (h : Tracked zone classId d ⟨S, es⟩ t) (hday : InClassDay zone d t)
    (hid : log.id = S.hallPassLogs.length + 1) (hclass : log.classId = classId)
    (htime : log.timestamp = t)
    (hindex : ∀ l ∈ S.hallPassLogs, log.hallPassId.isSome → l.hallPassId ≠ log.hallPassId)
    (hsome : log.hallPassId.isSome) :
    Tracked zone classId d ⟨{ S with hallPassLogs := S.hallPassLogs ++ [log] },
      es ++ [.approved log.id (log.destination.getD "")]⟩ t := by
  have hlogs : logsOn zone classId d { S with hallPassLogs := S.hallPassLogs ++ [log] } =
      logsOn zone classId d S ++ [log] := by
    rw [logsOn, logsOn, List.filter_append]
    have hlog : [log].filter (fun l ↦ l.classId = classId ∧ zone.startOfDate d ≤ l.timestamp ∧
        l.timestamp < zone.startOfDate (d + 1)) = [log] := by
      simp [hclass, htime, hday.2.1, hday.2.2]
    rw [hlog]
  refine ⟨h.toPassTables.issue hid hindex, ?_, ?_, ?_⟩
  · intro e he
    rw [List.length_append, List.length_singleton]
    rcases List.mem_append.1 he with he | he
    · exact (h.events_le e he).trans (Nat.le_succ _)
    · rw [List.mem_singleton.1 he, ← hid]
      exact le_rfl
  · rw [List.filterMap_append, h.issues, hlogs, List.map_append]
    rfl
  · intro l hl
    dsimp only at hl
    rw [hlogs] at hl
    rcases List.mem_append.1 hl with hl | hl
    · obtain ⟨p, hp, htrack⟩ := h.tracks l hl
      refine ⟨p, hp, htrack.frame ?_ rfl rfl (fun _ _ _ _ _ ↦ rfl)⟩
      have hle : l.id ≤ S.hallPassLogs.length := h.logs_le l (mem_logsOn.1 hl).1
      have hne : log.id ≠ l.id := by omega
      exact history_other hne
    · obtain rfl := List.mem_singleton.1 hl
      obtain ⟨p, hp⟩ := Option.isSome_iff_exists.1 hsome
      refine ⟨p, hp, .waiting ?_ ?_⟩
      · have hnone : PassDay.history ⟨S, es⟩ l.id = [] := by
          rw [PassDay.history, List.filter_eq_nil_iff]
          intro e he
          have := h.events_le e he
          dsimp only at this
          have hne : e.passId ≠ l.id := by omega
          simpa using hne
        exact (history_self (S := S) rfl).trans (congrArg (· ++ _) hnone)
      · rw [List.eq_nil_iff_forall_not_mem]
        intro r hr
        obtain ⟨hr, -, -, hpass⟩ := mem_passRows.1 hr
        obtain ⟨l', hl', heq⟩ := h.named r hr (by rw [hpass]; rfl)
        exact hindex l' hl' hsome (by rw [heq, hpass, hp])

theorem Tracked.marked {S S' : PassState} {es : List PassEvent} {ev : PassEvent}
    (h : Tracked zone classId d ⟨S, es⟩ t) (htables : PassTables classId S' t)
    (hlog : log ∈ S.hallPassLogs) (hev : ev.passId = log.id) (hissue : ev.issue = none)
    (hlogs : S'.hallPassLogs = S.hallPassLogs)
    (hself : log ∈ logsOn zone classId d S →
      ∃ p, log.hallPassId = some p ∧ PassTrack zone classId d ⟨S', es ++ [ev]⟩ log p)
    (hothers : ∀ l ∈ logsOn zone classId d S, l.id ≠ log.id → ∀ p, l.hallPassId = some p →
      PassTrack zone classId d ⟨S, es⟩ l p → PassTrack zone classId d ⟨S', es ++ [ev]⟩ l p) :
    Tracked zone classId d ⟨S', es ++ [ev]⟩ t := by
  have hon : logsOn zone classId d S' = logsOn zone classId d S := by
    rw [logsOn, logsOn, hlogs]
  refine ⟨htables, ?_, ?_, ?_⟩
  · intro e he
    dsimp only
    rw [hlogs]
    rcases List.mem_append.1 he with he | he
    · exact h.events_le e he
    · rw [List.mem_singleton.1 he, hev]
      exact h.logs_le log hlog
  · rw [List.filterMap_append, h.issues, hon]
    simp [hissue]
  · intro l hl
    dsimp only at hl
    rw [hon] at hl
    by_cases hid : l.id = log.id
    · obtain rfl : l = log :=
        List.inj_on_of_nodup_map h.logs_nodup (mem_logsOn.1 hl).1 hlog hid
      exact hself hl
    · obtain ⟨p, hp, htrack⟩ := h.tracks l hl
      exact ⟨p, hp, hothers l hl hid p hp htrack⟩

theorem Tracked.leave {S : PassState} {es : List PassEvent} {actor : ℕ}
    {mechanism : AttendanceMechanism} (h : Tracked zone classId d ⟨S, es⟩ t)
    (hday : InClassDay zone d t) (hlog : log ∈ S.hallPassLogs) (hclass : log.classId = classId)
    (hp : log.hallPassId = some p) (hstatus : S.passStatus log = .approved)
    (hclaimed : S.Claimed log.requestedBySeatId classId)
    (hlive : isLiveSession zone t (S.latestSeatEvent log.requestedBySeatId classId) = true) :
    Tracked zone classId d ⟨{ S with toAttendanceTables := S.append (S.row classId t
      log.requestedBySeatId actor mechanism .inactive .hallPass (some p)) },
        es ++ [.left log.id (!isDoneForDay zone S.toAttendanceTables
          log.requestedBySeatId classId t)]⟩ t := by
  set x := S.row classId t log.requestedBySeatId actor mechanism .inactive .hallPass (some p)
    with hx
  have hrows := h.upTo.seatRows_append (x := x) rfl rfl rfl rfl
  refine h.marked (h.toPassTables.append rfl rfl le_rfl (fun _ ↦ ⟨log, hlog, hp⟩)) hlog rfl rfl
    rfl ?_ ?_
  · intro hon
    obtain ⟨q, hq, htrack⟩ := h.tracks log hon
    obtain rfl : p = q := Option.some.inj (hp.symm.trans hq)
    refine ⟨p, hp, ?_⟩
    rw [PassState.passStatus, hclass, hp] at hstatus
    cases htrack with
    | waiting hist rows =>
      refine .out (e := x) ((history_self (S := S) rfl).trans (congrArg (· ++ _) hist)) ?_ rfl ?_
        hday hclaimed ?_
      · exact (passRows_append h.upTo rfl rfl rfl rfl rfl).trans (congrArg (· ++ [x]) rows)
      · exact (congrArg List.getLast? hrows).trans (List.getLast?_concat ..)
      · intro hfree
        rw [Bool.not_eq_true'] at hfree
        exact isDoneForDay_append hrows AttendanceReasonCode.noConfusion hfree
    | out hist rows hexit =>
      rw [rows, lifecycleStatus_exit hexit] at hstatus
      exact PassStatus.noConfusion hstatus
    | back hist rows hexit hactive hle =>
      rw [rows, lifecycleStatus_return hexit hactive hle] at hstatus
      exact PassStatus.noConfusion hstatus
  · intro l hl hid q hq htrack
    have hne : some p ≠ some q := h.distinct hlog hp (mem_logsOn.1 hl).1 hq hid
    refine htrack.frame (history_other (Ne.symm hid)) (passRows_append_other hne) rfl ?_
    intro e hlatest hexit _ _
    refine AttendanceTables.seatRows_append_other ?_
    rintro ⟨hseat, -⟩
    -- The holder of a pass that is out has no open session to leave.
    have hseat : log.requestedBySeatId = l.requestedBySeatId := hseat
    rw [hseat] at hlive
    dsimp only at hlatest
    rw [hlatest] at hlive
    have hactive : e.status = .active := by
      simp [isLiveSession] at hlive
      exact hlive.1
    rw [(of_decide_eq_true hexit).1] at hactive
    exact AttendanceStatus.noConfusion hactive

theorem Tracked.back {S : PassState} {es : List PassEvent} {actor : ℕ}
    {mechanism : AttendanceMechanism} (h : Tracked zone classId d ⟨S, es⟩ t)
    (hlog : log ∈ S.hallPassLogs) (hclass : log.classId = classId)
    (hp : log.hallPassId = some p) (hstatus : S.passStatus log ≠ .returned)
    (hout : S.OutOn zone log.requestedBySeatId classId t p) :
    Tracked zone classId d ⟨{ S with toAttendanceTables := S.append (S.row classId t
      log.requestedBySeatId actor mechanism .active .startWork (some p)) },
        es ++ [.returned log.id]⟩ t := by
  set x := S.row classId t log.requestedBySeatId actor mechanism .active .startWork (some p)
    with hx
  obtain ⟨e₀, hlatest₀, hexit₀, hpass₀, -, -⟩ := hout
  obtain ⟨hmem₀, hseat₀, hclass₀⟩ := AttendanceTables.mem_seatRows.1 (List.mem_of_getLast? hlatest₀)
  have hrow₀ : e₀ ∈ passRows S.toAttendanceTables log.requestedBySeatId classId (some p) :=
    mem_passRows.2 ⟨hmem₀, hclass₀, hseat₀, hpass₀⟩
  refine h.marked (h.toPassTables.append rfl rfl le_rfl (fun _ ↦ ⟨log, hlog, hp⟩)) hlog rfl rfl
    rfl ?_ ?_
  · intro hon
    obtain ⟨q, hq, htrack⟩ := h.tracks log hon
    obtain rfl : p = q := Option.some.inj (hp.symm.trans hq)
    refine ⟨p, hp, ?_⟩
    rw [PassState.passStatus, hclass, hp] at hstatus
    cases htrack with
    | waiting hist rows =>
      dsimp only at rows
      rw [rows] at hrow₀
      exact absurd hrow₀ List.not_mem_nil
    | @out w e hist rows hexit =>
      have he : e ∈ S.sessions ∧ e.classId = classId ∧ _ := mem_passRows.1
        (by rw [rows]; exact List.mem_singleton_self e)
      exact .back (r := x) ((history_self (S := S) rfl).trans (congrArg (· ++ _) hist))
        ((passRows_append h.upTo rfl rfl rfl rfl rfl).trans (congrArg (· ++ [x]) rows)) hexit rfl
        (h.upTo.times e he.1 he.2.1)
    | back hist rows hexit hactive hle =>
      rw [rows] at hstatus
      exact absurd (lifecycleStatus_return hexit hactive hle) hstatus
  · intro l hl hid q hq htrack
    have hne : some p ≠ some q := h.distinct hlog hp (mem_logsOn.1 hl).1 hq hid
    refine htrack.frame (history_other (Ne.symm hid)) (passRows_append_other hne) rfl ?_
    intro e hlatest hexit hpass _
    refine AttendanceTables.seatRows_append_other ?_
    rintro ⟨hseat, -⟩
    -- Nobody is out on two passes.
    have hseat : log.requestedBySeatId = l.requestedBySeatId := hseat
    rw [hseat] at hlatest₀
    obtain rfl : e₀ = e := Option.some.inj (hlatest₀.symm.trans hlatest)
    exact hne (hpass₀.symm.trans hpass)

theorem Tracked.start {S : PassState} {es : List PassEvent} {actor : ℕ}
    {mechanism : AttendanceMechanism} {B : AttendanceTables}
    (h : Tracked zone classId d ⟨S, es⟩ t) (hday : InClassDay zone d t)
    (hlog : log ∈ S.hallPassLogs) (hp : log.hallPassId = none)
    (hout : ∀ e, S.latestSeatEvent log.requestedBySeatId classId = some e →
      e.isHallPassExit = true → ¬ (dayStart zone e.timestamp ≤ t ∧ t < dayEnd zone e.timestamp))
    (hB : B = S.toAttendanceTables ∨ ∃ stop ≤ t, B = S.append (S.row classId stop
      log.requestedBySeatId actor mechanism .inactive .doneForDay none)) :
    Tracked zone classId d ⟨{ S with toAttendanceTables := B.append (B.row classId t
      log.requestedBySeatId actor mechanism .active .startWork none) },
        es ++ [.returned log.id]⟩ t := by
  have hB' : PassTables classId { S with toAttendanceTables := B } t ∧ B.seats = S.seats ∧
      (∀ seatId q, passRows B seatId classId (some q) =
        passRows S.toAttendanceTables seatId classId (some q)) ∧
      ∀ seatId, seatId ≠ log.requestedBySeatId →
        B.seatRows seatId classId = S.seatRows seatId classId := by
    rcases hB with rfl | ⟨stop, hstop, rfl⟩
    · exact ⟨h.toPassTables, rfl, fun _ _ ↦ rfl, fun _ _ ↦ rfl⟩
    · refine ⟨h.toPassTables.append rfl rfl hstop (fun hsome ↦ ?_), rfl,
        fun _ _ ↦ passRows_append_other (fun heq ↦ nomatch heq),
        fun _ hne ↦ AttendanceTables.seatRows_append_other (fun hx ↦ hne hx.1.symm)⟩
      exact Bool.noConfusion hsome
  obtain ⟨htables, hseats, hrows, hothers⟩ := hB'
  refine h.marked (htables.append rfl rfl le_rfl (fun hsome ↦ Bool.noConfusion hsome)) hlog rfl
    rfl rfl ?_ ?_
  · intro hon
    obtain ⟨q, hq, -⟩ := h.tracks log hon
    exact nomatch hp.symm.trans hq
  · intro l hl hid q hq htrack
    have hnone : none ≠ some q := (Option.some_ne_none q).symm
    refine htrack.frame (history_other (Ne.symm hid))
      ((passRows_append_other hnone).trans (hrows l.requestedBySeatId q)) hseats ?_
    · intro e hlatest hexit _ hin
      have hne : l.requestedBySeatId ≠ log.requestedBySeatId := by
        intro heq
        dsimp only at hlatest
        rw [heq] at hlatest
        refine hout e hlatest hexit ?_
        rw [hin.dayStart_eq, hin.dayEnd_eq]
        exact hday.2
      exact (AttendanceTables.seatRows_append_other (fun hx ↦ hne hx.1.symm)).trans
        (hothers _ hne)

theorem Tracked.move (h : Tracked zone classId d D now) (hle : now ≤ t) (hday : InClassDay zone d t)
    (hmove : PassMove zone classId t D D')
    (huses : ∀ log ∈ D'.state.hallPassLogs, log ∉ D.state.hallPassLogs → log.hallPassId.isSome) :
    Tracked zone classId d D' t := by
  have h := h.mono hle
  cases hmove with
  | stay => exact h
  | @issue S es log hid hclass htime hindex =>
    refine h.issue hday hid hclass htime hindex (huses log ?_ ?_)
    · exact List.mem_append_right _ (List.mem_singleton_self log)
    · intro hlog
      have := h.logs_le log hlog
      dsimp only at this
      omega
  | leave hlog hclass hp hstatus hclaimed hlive =>
    exact h.leave hday (List.mem_of_find?_eq_some hlog) hclass hp hstatus hclaimed hlive
  | back hlog hclass hp hstatus hout =>
    exact h.back (List.mem_of_find?_eq_some hlog) hclass hp hstatus hout
  | start hlog hp hout hB =>
    exact h.start hday (List.mem_of_find?_eq_some hlog) hp hout hB

end Tracking

end TokenHub.HallPass
