import TokenHub.HallPass.DayMoves

set_option autoImplicit false

namespace TokenHub.HallPass

open Ledger Attendance Store Lib.Checks Lib.Runs
open Rent (Instant ClassZone dayStart_steady)

section Counting

variable {zone : ClassZone} {fold : String → String} {isoformat : Instant → String}
  {classId : String} {d : ℤ} {D : PassDay} {now t : Instant} {l : HallPassLog} {p : ℕ}
  {settings : HallPassSettings} {request : PassRequest}

theorem mem_history {ev : PassEvent} : ev ∈ D.history ev.passId ↔ ev ∈ D.events := by
  simp [PassDay.history]

theorem PassTrack.returned_iff (h : PassTrack zone classId d D l p) (hp : l.hallPassId = some p)
    (hclass : l.classId = classId) :
    D.state.passStatus l ≠ .returned ↔ PassEvent.returned l.id ∉ D.events := by
  rw [PassState.passStatus, hclass, hp, ← mem_history]
  simp only [PassEvent.passId]
  cases h with
  | waiting hist rows => simp [rows, hist, lifecycleStatus_nil]
  | out hist rows hexit => simp [rows, hist, lifecycleStatus_exit hexit]
  | back hist rows hexit hactive hle => simp [rows, hist, lifecycleStatus_return hexit hactive hle]

theorem todaysLogs_eq (hday : InClassDay zone d t) (S : PassState) :
    S.todaysLogs zone classId t = logsOn zone classId d S := by
  rw [PassState.todaysLogs, hday.dayStart_eq, hday.dayEnd_eq, logsOn]

/-- The code counts the passes that were issued and not returned. -/
theorem Tracked.unreturned (h : Tracked zone classId d D now) (hday : InClassDay zone d t) :
    D.unreturned =
      (D.state.currentlyOut zone classId t).map (fun l ↦ (l.id, l.destination.getD "")) := by
  rw [PassDay.unreturned, h.issues, List.filter_map, PassState.currentlyOut, todaysLogs_eq hday]
  congr 1
  apply List.filter_congr
  intro l hl
  obtain ⟨p, hp, htrack⟩ := h.tracks l hl
  have hiff := htrack.returned_iff hp (mem_logsOn.1 hl).2.1
  exact (decide_eq_decide.2 hiff).symm

theorem Tracked.unreturnedTo (h : Tracked zone classId d D now) (hday : InClassDay zone d t)
    (destination : String) : (D.unreturnedTo fold destination).length =
      (destinationOut fold (D.state.currentlyOut zone classId t) destination).length := by
  rw [PassDay.unreturnedTo, h.unreturned hday, List.filter_map, List.length_map]
  rfl

theorem enforceHallPassSettings_ok {S : PassState} {destination : String}
    (h : enforceHallPassSettings zone fold S classId t destination = .ok settings) :
    S.settingsAt classId t = some settings ∧
      ((S.currentlyOut zone classId t).length : ℤ) < settings.queueLimit ∧
        ∀ limit, settings.destinationLimit fold destination = some limit →
          ((destinationOut fold (S.currentlyOut zone classId t) destination).length : ℤ) <
            limit := by
  unfold enforceHallPassSettings at h
  simp only [demand_bind_eq_ok] at h
  obtain ⟨settings', hsettings, h⟩ := h
  rw [require_bind_eq_ok, require_bind_eq_ok] at h
  obtain ⟨-, hqueue, h⟩ := h
  cases hlimit : settings'.destinationLimit fold destination with
  | none =>
    rw [hlimit, pure_eq_ok] at h
    subst h
    exact ⟨hsettings, hqueue, fun limit heq ↦ by cases hlimit.symm.trans heq⟩
  | some limit =>
    rw [hlimit, require_bind_eq_ok, pure_eq_ok] at h
    obtain ⟨hdest, rfl⟩ := h
    refine ⟨hsettings, hqueue, fun limit' heq ↦ ?_⟩
    obtain rfl : limit = limit' := Option.some.inj (hlimit.symm.trans heq)
    exact hdest

theorem destinationLimit_congr {destination destination' : String}
    (h : fold destination = fold destination') :
    settings.destinationLimit fold destination =
      settings.destinationLimit fold destination' := by
  rw [HallPassSettings.destinationLimit, HallPassSettings.passType, h]
  rfl

theorem unreturned_issue {S S' : PassState} {es : List PassEvent} {passId : ℕ}
    {destination : String} (hnew : .returned passId ∉ es) :
    (PassDay.mk S' (es ++ [.approved passId destination])).unreturned =
      (PassDay.mk S es).unreturned ++ [(passId, destination)] := by
  simp [PassDay.unreturned, List.filterMap_append, List.filter_append, PassEvent.issue, hnew]

/-- The pass that an approval uses is refused for other reasons than the limits. -/
theorem usedPass_rejects {P : Raise → Prop} {S : PassState} {consumes : Bool} {named : Option ℕ}
    {seatId : ℕ} (hother : ∀ e, e ≠ .valueError "Hall-pass queue limit reached." →
      e ≠ .valueError "Hall-pass destination limit reached." → P e) :
    Rejects P (S.usedPass consumes named seatId classId) := by
  have hpass : Rejects P (S.passToUse named seatId classId) := by
    unfold PassState.passToUse
    cases named with
    | none =>
      refine .bind (.demand (hother _ (by decide) (by decide))) (fun _ ↦ ?_)
      exact .bind (.require (hother _ (by decide) (by decide))) (fun _ ↦ .ok _)
    | some entitlementId =>
      refine .bind (.demand (hother _ (by decide) (by decide))) (fun _ ↦ ?_)
      exact .bind (.require (hother _ (by decide) (by decide))) (fun _ ↦ .ok _)
  unfold PassState.usedPass
  split_ifs
  · cases hresult : S.passToUse named seatId classId with
    | error e => exact .error (hpass e hresult)
    | ok grant => exact .ok _
  · exact .ok _

theorem recordHallPassLog_rejects {P : Raise → Prop} {S : PassState}
    (hsettings : S.settingsAt classId t = some settings)
    (hother : ∀ e, e ≠ .valueError "Hall-pass queue limit reached." →
      e ≠ .valueError "Hall-pass destination limit reached." → P e)
    (hqueue : settings.queueLimit ≤ (S.currentlyOut zone classId t).length →
      P (.valueError "Hall-pass queue limit reached."))
    (hdest : ∀ limit, settings.destinationLimit fold request.destination = some limit →
      limit ≤ (destinationOut fold (S.currentlyOut zone classId t) request.destination).length →
        P (.valueError "Hall-pass destination limit reached.")) :
    Rejects P (recordHallPassLog zone fold S isoformat classId t request) := by
  unfold recordHallPassLog
  refine .bind (.demand (hother _ (by decide) (by decide))) (fun _ ↦ ?_)
  refine .bind ?_ (fun settings' ↦ ?_)
  · unfold enforceHallPassSettings
    refine .bind_ok (.demand (hother _ (by decide) (by decide))) (fun settings' hs ↦ ?_)
    obtain rfl : settings = settings' := Option.some.inj (hsettings.symm.trans (demand_eq_ok.1 hs))
    refine .bind (.require (hother _ (by decide) (by decide))) (fun _ ↦ ?_)
    refine .bind (.require_failed (fun hfull ↦ hqueue (not_lt.1 hfull))) (fun _ ↦ ?_)
    cases hlimit : settings.destinationLimit fold request.destination with
    | none => exact .ok _
    | some limit =>
      exact .bind (.require_failed (fun hfull ↦ hdest limit hlimit (not_lt.1 hfull)))
        (fun _ ↦ .ok _)
  · refine .bind (usedPass_rejects hother) (fun _ ↦ ?_)
    exact .bind (.require (hother _ (by decide) (by decide))) (fun _ ↦ .ok _)

theorem Tracked.limitLaw (h : Tracked zone classId d D now) (hday : InClassDay zone d t)
    (hmeets : Meets zone fold isoformat classId D (t, .approve request)) :
    LimitLaw zone fold isoformat classId D t request := by
  intro settings hsettings
  cases hrecord : recordHallPassLog zone fold D.state isoformat classId t request with
  | error e =>
    have hcount : D.unreturned.length = (D.state.currentlyOut zone classId t).length := by
      rw [h.unreturned hday, List.length_map]
    refine recordHallPassLog_rejects
      (P := fun e ↦ (e = .valueError "Hall-pass queue limit reached." →
        settings.queueLimit ≤ D.unreturned.length) ∧
        (e = .valueError "Hall-pass destination limit reached." → ∃ limit,
          settings.destinationLimit fold request.destination = some limit ∧
            limit ≤ (D.unreturnedTo fold request.destination).length))
      hsettings ?_ ?_ ?_ e hrecord
    · exact fun e hq hd ↦ ⟨fun heq ↦ absurd heq hq, fun heq ↦ absurd heq hd⟩
    · intro hfull
      refine ⟨fun _ ↦ ?_, fun heq ↦ absurd heq (by decide)⟩
      rw [hcount]
      exact hfull
    · intro limit hlimit hfull
      refine ⟨fun heq ↦ absurd heq (by decide), fun _ ↦ ⟨limit, hlimit, ?_⟩⟩
      rw [h.unreturnedTo hday]
      exact hfull
  | ok result =>
    obtain ⟨-, hothers⟩ := hmeets request settings result rfl hsettings hrecord
    obtain ⟨S, es⟩ := D
    obtain ⟨log, S'⟩ := result
    obtain ⟨hid, -, -, -, -, -, settings', henforce, -⟩ := recordHallPassLog_ok hrecord
    obtain ⟨hsettings', hqueue, hlimit⟩ := enforceHallPassSettings_ok henforce
    obtain rfl : settings = settings' := Option.some.inj (hsettings.symm.trans hsettings')
    dsimp only at hid hqueue hlimit
    have hnew : PassEvent.returned log.id ∉ es := by
      intro hmem
      have hle : log.id ≤ S.hallPassLogs.length := h.events_le _ hmem
      omega
    have hstep : passStep zone fold isoformat classId ⟨S, es⟩ (t, .approve request) =
        ⟨S', es ++ [.approved log.id request.destination]⟩ := by
      simp only [passStep, hrecord]
    simp only [hstep]
    have hcount : (PassDay.mk S es).unreturned.length =
        (S.currentlyOut zone classId t).length := by
      rw [h.unreturned hday, List.length_map]
    constructor
    · rw [unreturned_issue (S := S) hnew, List.length_append, List.length_singleton, hcount]
      omega
    · intro destination limit hdest
      rw [PassDay.unreturnedTo, unreturned_issue (S := S) hnew, List.filter_append]
      by_cases hfold : fold request.destination = fold destination
      · have := hlimit limit ((destinationLimit_congr hfold).trans hdest)
        rw [← h.unreturnedTo hday, PassDay.unreturnedTo, hfold] at this
        have hone : ([(log.id, request.destination)].filter
            (fun issue ↦ fold issue.2 = fold destination)).length ≤ 1 :=
          List.length_filter_le _ _
        rw [List.length_append]
        omega
      · have hnone : [(log.id, request.destination)].filter
            (fun issue ↦ fold issue.2 = fold destination) = [] := by
          simp [hfold]
        rw [hnone, List.append_nil]
        exact hothers destination limit (Ne.symm hfold) hdest

end Counting

section Marking

variable {zone : ClassZone} {fold : String → String} {isoformat : Instant → String}
  {classId : String} {d : ℤ} {D : PassDay} {S : PassState} {now t : Instant} {log : HallPassLog}
  {p : ℕ}

theorem markRoute_teacher {seatId : ℕ} {action : HallPassAction}
    (hlog : S.log log.id = some log) (hclass : log.classId = classId) :
    markRoute zone fold classId false S seatId t log.id action =
      markPass zone fold S .teacher ⟨classId, seatId⟩ t log action := by
  rw [markRoute, if_neg Bool.false_ne_true, handleHallPassAction, hlog]
  simp [require_of hclass.symm]

theorem markRoute_cases (own : Bool) (seatId : ℕ) (action : HallPassAction)
    (hlog : S.log log.id = some log) (hclass : log.classId = classId) :
    (∃ e, markRoute zone fold classId own S seatId t log.id action = .error e) ∨
      ∃ mechanism, markRoute zone fold classId own S seatId t log.id action =
        markPass zone fold S mechanism ⟨classId, seatId⟩ t log action := by
  cases own with
  | false => exact .inr ⟨.teacher, markRoute_teacher hlog hclass⟩
  | true =>
    rw [markRoute, if_pos rfl, handleOwnPass, hlog, demand_some, ok_bind]
    by_cases hown : log.requestedBySeatId = seatId
    · refine .inr ⟨.self, ?_⟩
      rw [require_of hown, require_of hclass.symm, ok_bind, ok_bind]
    · rw [require_of_not hown]
      exact .inl ⟨_, rfl⟩

/-- A mark that both routes refuse or answer without a row leaves the day as it was. -/
theorem passStep_stays {own : Bool} {seatId : ℕ} {action : HallPassAction}
    (hlog : D.state.log log.id = some log) (hclass : log.classId = classId)
    (hmark : ∀ mechanism, (∃ e, markPass zone fold D.state mechanism ⟨classId, seatId⟩ t log
        action = .error e) ∨
      markPass zone fold D.state mechanism ⟨classId, seatId⟩ t log action =
        .ok (.alreadyOut, D.state) ∨
      markPass zone fold D.state mechanism ⟨classId, seatId⟩ t log action =
        .ok (.alreadyReturned, D.state)) :
    passStep zone fold isoformat classId D (t, .mark own seatId log.id action) = D := by
  simp only [passStep]
  rcases markRoute_cases (t := t) own seatId action hlog hclass with
    ⟨e, he⟩ | ⟨mechanism, hroute⟩
  · rw [he]
  · rw [hroute]
    rcases hmark mechanism with ⟨e, he⟩ | hout | hback
    · rw [he]
    · rw [hout]
    · rw [hback]

theorem Tracked.passLaw (h : Tracked zone classId d D now) (hday : InClassDay zone d t)
    {passId : ℕ} {destination : String} (hev : .approved passId destination ∈ D.events) :
    PassLaw zone fold isoformat classId D t passId destination := by
  have hissue : (passId, destination) ∈ D.events.filterMap (·.issue) :=
    List.mem_filterMap.2 ⟨_, hev, rfl⟩
  rw [h.issues] at hissue
  obtain ⟨log, hon, hpair⟩ := List.mem_map.1 hissue
  obtain ⟨rfl, rfl⟩ := Prod.mk.inj hpair
  obtain ⟨hmem, hclass, hfrom, -⟩ := mem_logsOn.1 hon
  have hlog := h.log_eq hmem
  obtain ⟨p, hp, htrack⟩ := h.tracks log hon
  have hstatus : D.state.passStatus log = lifecycleStatus
      (passRows D.state.toAttendanceTables log.requestedBySeatId classId (some p)) := by
    rw [PassState.passStatus, hclass, hp]
  refine ⟨log, hlog, ?_⟩
  cases htrack with
  | waiting hist rows =>
    refine .inl ⟨hist, fun seatId hseat hworks ↦ ?_⟩
    obtain ⟨hclaimed, hlive, hfree⟩ := hworks
    rw [rows, lifecycleStatus_nil] at hstatus
    have hvalid : hallPassRevoked zone t log .approved = false := by
      rw [hallPassRevoked, hday.dayStart_eq]
      simpa using hfrom
    obtain ⟨A, hA⟩ : ∃ A, recordAttendanceSession zone fold D.state.toAttendanceTables
        ⟨classId, seatId⟩ t (actionRequest .teacher ⟨classId, seatId⟩ log .leave) = .ok A :=
      ⟨_, recordAttendanceSession_leave.2
        ⟨Option.isSome_iff_exists.2 ⟨p, hp⟩, hclaimed, hseat, hlive, rfl⟩⟩
    have hmark : markPass zone fold D.state .teacher ⟨classId, seatId⟩ t log .leave =
        .ok (.hasLeft, { D.state with toAttendanceTables := A }) := by
      unfold markPass
      rw [hstatus]
      simp only [reduceCtorEq, if_false, require_of, hvalid, ne_eq, not_false_eq_true, ok_bind, hA]
      rfl
    have hatWork : D.state.freeToWork zone classId t log.id = true := by
      rw [PassState.freeToWork, hlog]
      simpa using hfree
    simp only [passStep, markRoute_teacher hlog hclass, hmark, hatWork]
  | @out atWork e hist rows hexit hlatest hexitDay hclaimed hwork =>
    rw [rows, lifecycleStatus_exit hexit] at hstatus
    refine .inr (.inl ⟨atWork, hist, fun own seatId ↦ ?_, fun seatId hseat hfree ↦ ?_⟩)
    · refine passStep_stays hlog hclass (fun mechanism ↦ .inr (.inl ?_))
      unfold markPass
      rw [hstatus]
      rfl
    · have he : e ∈ passRows D.state.toAttendanceTables log.requestedBySeatId classId (some p) := by
        rw [rows]
        exact List.mem_singleton_self e
      have hout : D.state.OutOn zone log.requestedBySeatId classId t p := by
        refine ⟨e, hlatest, hexit, (mem_passRows.1 he).2.2.2, ?_⟩
        rw [hexitDay.dayStart_eq, hexitDay.dayEnd_eq]
        exact hday.2
      have hdone := (isDoneForDay_congr rfl hday hexitDay).trans (hwork hfree)
      obtain ⟨A, hA⟩ : ∃ A, recordAttendanceSession zone fold D.state.toAttendanceTables
          ⟨classId, seatId⟩ t (actionRequest .teacher ⟨classId, seatId⟩ log .return) = .ok A := by
        rw [actionRequest, hp]
        exact ⟨_, recordAttendanceSession_return.2 ⟨hclaimed, hseat, hout, hdone, rfl⟩⟩
      have hmark : markPass zone fold D.state .teacher ⟨classId, seatId⟩ t log .return =
          .ok (.hasReturned, { D.state with toAttendanceTables := A }) := by
        unfold markPass
        rw [hstatus]
        simp only [reduceCtorEq, if_false, hA]
        rfl
      simp only [passStep, markRoute_teacher hlog hclass, hmark]
  | @back atWork e r hist rows hexit hactive hle =>
    rw [rows, lifecycleStatus_return hexit hactive hle] at hstatus
    refine .inr (.inr ⟨atWork, hist, fun own seatId action ↦ ?_⟩)
    refine passStep_stays hlog hclass (fun mechanism ↦ ?_)
    unfold markPass
    rw [hstatus]
    cases action with
    | leave => exact .inl ⟨_, rfl⟩
    | «return» => exact .inr (.inr rfl)

theorem markPass_logs {mechanism : AttendanceMechanism} {seatId : ℕ} {action : HallPassAction}
    {answer : PassAnswer} {S' : PassState}
    (h : markPass zone fold S mechanism ⟨classId, seatId⟩ t log action = .ok (answer, S')) :
    S'.hallPassLogs = S.hallPassLogs := by
  unfold markPass at h
  cases action with
  | leave =>
    dsimp only at h
    split_ifs at h
    · rw [pure_eq_ok, Prod.mk.injEq] at h
      rw [← h.2]
    · rw [require_bind_eq_ok, require_bind_eq_ok, bind_eq_ok] at h
      obtain ⟨-, -, A, -, h⟩ := h
      rw [pure_eq_ok, Prod.mk.injEq] at h
      rw [← h.2]
  | «return» =>
    dsimp only at h
    split_ifs at h
    · rw [pure_eq_ok, Prod.mk.injEq] at h
      rw [← h.2]
    · rw [bind_eq_ok] at h
      obtain ⟨A, -, h⟩ := h
      rw [pure_eq_ok, Prod.mk.injEq] at h
      rw [← h.2]

theorem markPass_without_id {mechanism : AttendanceMechanism} {seatId : ℕ} {S' : PassState}
    (hlog : log.hallPassId = none) :
    markPass zone fold S mechanism ⟨classId, seatId⟩ t log .leave ≠ .ok (.hasLeft, S') := by
  intro h
  unfold markPass at h
  dsimp only at h
  split_ifs at h
  · exact absurd h (by simp)
  · rw [require_bind_eq_ok, require_bind_eq_ok, bind_eq_ok] at h
    obtain ⟨-, -, A, hA, -⟩ := h
    have hpass := (recordAttendanceSession_leave.1 hA).1
    rw [hlog] at hpass
    exact Bool.noConfusion hpass

end Marking

section Runs

variable {zone : ClassZone} {fold : String → String} {isoformat : Instant → String}
  {classId : String} {d : ℤ} {D : PassDay} {S : PassState} {now : Instant}

/-- The logs that a step adds name a pass where the destination consumes one. -/
theorem Meets.uses {step : Instant × PassAction}
    (hmeets : Meets zone fold isoformat classId D step) :
    ∀ log ∈ (passStep zone fold isoformat classId D step).state.hallPassLogs,
      log ∉ D.state.hallPassLogs → log.hallPassId.isSome := by
  obtain ⟨t, action⟩ := step
  intro log hlog hnew
  cases action with
  | approve request =>
    simp only [passStep] at hlog
    cases hrecord : recordHallPassLog zone fold D.state isoformat classId t request with
    | error e =>
      rw [hrecord] at hlog
      exact absurd hlog hnew
    | ok result =>
      obtain ⟨log', S'⟩ := result
      obtain ⟨-, -, -, -, -, rfl, settings, henforce, huses⟩ := recordHallPassLog_ok hrecord
      rw [hrecord] at hlog
      rcases List.mem_append.1 hlog with hlog | hlog
      · exact absurd hlog hnew
      · rw [List.mem_singleton.1 hlog]
        have hsettings := (enforceHallPassSettings_ok henforce).1
        exact huses (hmeets request settings _ rfl hsettings hrecord).1
  | mark own seatId passId action =>
    have hlogs : (passStep zone fold isoformat classId D
        (t, .mark own seatId passId action)).state.hallPassLogs = D.state.hallPassLogs := by
      simp only [passStep]
      cases hroute : markRoute zone fold classId own D.state seatId t passId action with
      | error e => rfl
      | ok result =>
        obtain ⟨answer, S'⟩ := result
        obtain ⟨log, mechanism, -, -, hmark⟩ := markRoute_ok hroute
        cases answer <;> exact markPass_logs hmark
    rw [hlogs] at hlog
    exact absurd hlog hnew

theorem Tracked.run {steps : List (Instant × PassAction)} (h : Tracked zone classId d D now)
    (hday : OnDay zone d now steps) (hmeets : RunMeets zone fold isoformat classId D steps) :
    PassesLimited zone fold isoformat classId d D steps := by
  induction steps generalizing D now with
  | nil => exact fun t ht passId destination hev ↦ h.passLaw ht hev
  | cons step steps ih =>
    obtain ⟨t, action⟩ := step
    obtain ⟨hle, ht, hday⟩ := hday
    obtain ⟨hmeet, hmeets⟩ := hmeets
    refine ⟨⟨?_, fun passId destination hev ↦ h.passLaw ht hev⟩, ?_⟩
    · rintro request rfl
      exact h.limitLaw ht hmeet
    · exact ih (h.move hle ht (passStep_moves D (t, action)) hmeet.uses) hday hmeets

/-- Along every class day, from a morning on, whose approvals are all for destinations that consume
a pass, and none of which meets a limit lowered below the passes out, hall-pass limits count real
passes. -/
theorem hall_pass_limits_count (zone : ClassZone) (fold : String → String)
    (isoformat : Instant → String) (classId : String) (d : ℤ) (S : PassState) (now : Instant)
    (hS : Morning zone classId d S now) (steps : List (Instant × PassAction))
    (hday : OnDay zone d now steps)
    (hmeets : RunMeets zone fold isoformat classId ⟨S, []⟩ steps) :
    PassesLimited zone fold isoformat classId d ⟨S, []⟩ steps := by
  have hstart : Tracked zone classId d ⟨S, []⟩ now := by
    refine ⟨hS.toPassTables, fun _ he ↦ absurd he List.not_mem_nil, ?_, ?_⟩
    · rw [hS.none_issued]
      rfl
    · rw [hS.none_issued]
      exact fun _ hl ↦ absurd hl List.not_mem_nil
  exact hstart.run hday hmeets

def utcDays : ClassZone where
  localDate t := t / 86400000000
  startOfDate d := d * 86400000000
  startOfDate_localDate := dayStart_steady

/-- A class of a teacher in seat 1 and a student in seat 2 who works and holds one hall pass. -/
def classroom (passType : PassType) : PassState where
  seats := [⟨1, "c", "teacher", some 0, some 1⟩, ⟨2, "c", "student", some 0, some 2⟩]
  sessions := [⟨1, 2, 2, "c", .self, .active, .startWork, none, 10⟩]
  entitlementEvents :=
    [⟨1, "c", 1, 2, 1, none, .hallPass, .grant, .granted, some "corr_1", none, 0⟩]
  pendingActions := []
  hallPassLogs := []
  hallPassSettings := [⟨1, "policy", "c", 5, [passType], 0⟩]

theorem classroom_morning (passType : PassType) :
    Morning utcDays "c" 0 (classroom passType) 10 := by
  refine ⟨⟨⟨?_, ?_⟩, ?_, ?_, ?_, ?_⟩, rfl⟩ <;> simp [classroom]

def restroom : PassType := ⟨some "Restroom", none, some 1, some true⟩

def restroomTrip : List (Instant × PassAction) :=
  [(20, .approve ⟨2, 1, "Restroom", none, none⟩), (30, .mark false 1 1 .leave),
    (40, .mark true 2 1 .return)]

theorem hall_pass_limits_count_restroom :
    PassesLimited utcDays (fun s ↦ s) (fun _ ↦ "") "c" 0 ⟨classroom restroom, []⟩
      restroomTrip := by
  refine hall_pass_limits_count _ _ _ _ 0 _ 10 (classroom_morning _) _ ?_ ?_
  · decide
  · refine ⟨?_, ?_, ?_, trivial⟩
    · intro request settings _ hrequest hsettings _
      obtain rfl : PassRequest.mk 2 1 "Restroom" none none = request := PassAction.approve.inj hrequest
      obtain rfl : HallPassSettings.mk 1 "policy" "c" 5 [restroom] 0 = settings :=
        Option.some.inj hsettings
      refine ⟨by decide, fun destination limit hother hlimit ↦ ?_⟩
      have hnone : HallPassSettings.destinationLimit (fun s ↦ s)
          (HallPassSettings.mk 1 "policy" "c" 5 [restroom] 0) destination = none := by
        simp [HallPassSettings.destinationLimit, HallPassSettings.passType, restroom,
          Ne.symm hother]
      exact nomatch hnone.symm.trans hlimit
    · intro request _ _ hrequest
      cases hrequest
    · intro request _ _ hrequest
      cases hrequest

/-- A pass for a destination that consumes none is issued, but can never be left on. -/
theorem free_pass_never_leaves :
    Morning utcDays "c" 0 (classroom ⟨some "Office", none, some 1, some false⟩) 10 ∧
      OnDay utcDays 0 10 [(20, .approve ⟨2, 1, "Office", none, none⟩),
        (30, .mark false 1 1 .leave)] ∧
      ¬ PassesLimited utcDays (fun s ↦ s) (fun _ ↦ "") "c" 0
        ⟨classroom ⟨some "Office", none, some 1, some false⟩, []⟩
        [(20, .approve ⟨2, 1, "Office", none, none⟩), (30, .mark false 1 1 .leave)] := by
  refine ⟨classroom_morning _, by decide, ?_⟩
  rintro ⟨-, ⟨-, hlaw⟩, -⟩
  obtain ⟨log, hlog, hwaiting | ⟨w, hhist, -⟩ | ⟨w, hhist, -⟩⟩ :=
    hlaw 1 "Office" (by decide +kernel)
  · obtain rfl : HallPassLog.mk 1 2 1 "hall_pass_log:c:2:" "policy" none (some "Office") "c" 20 =
        log := Option.some.inj hlog
    have hleave := hwaiting.2 1 (by decide)
      ⟨⟨_, rfl, by decide, by decide⟩, by decide +kernel, by decide +kernel⟩
    exact absurd hleave (by decide +kernel)
  · cases w <;> exact absurd hhist (by decide +kernel)
  · cases w <;> exact absurd hhist (by decide +kernel)

end Runs

end TokenHub.HallPass
