import TokenHub.Attendance.Intervals
import TokenHub.Lib.Checks

set_option autoImplicit false

namespace TokenHub.Attendance

open Ledger Rent Lib.Checks

/-- The keyword arguments of `record_attendance_session_command`. -/
structure SessionRequest where
  status : AttendanceStatus
  targetSeatId : Option ℕ
  actorSeatId : Option ℕ
  mechanism : AttendanceMechanism
  reason : Option String
  reasonCode : Option AttendanceReasonCode
  hallPassId : Option ℕ
deriving DecidableEq, Repr

section Reasons

variable (fold : String → String)

/-- The reason code that a text names, where `fold` strips it and puts it in lower case. -/
def reasonCodeOf (reason : String) : Option AttendanceReasonCode :=
  let text := String.ofList ((fold reason).toList.map (fun c ↦ if c = ' ' then '_' else c))
  if text = "hall_pass" then some .hallPass
  else if text = "done_for_day" then some .doneForDay
  else none

def SessionRequest.resolvedReasonCode (request : SessionRequest) : Option AttendanceReasonCode :=
  match request.status, request.reasonCode with
  | .inactive, none => request.reason.bind (reasonCodeOf fold)
  | _, code => code

end Reasons

section Command

variable (zone : ClassZone) (fold : String → String)

/-- What an `active` row needs of the seat's latest event, and the closing row that it appends
first. -/
def startOfSession (A : AttendanceTables) (ctx : ClassContext) (t : Instant) (target actor : ℕ)
    (mechanism : AttendanceMechanism) (hallPassId : Option ℕ) :
    Except Raise (List AttendanceSession) := do
  require (isDoneForDay zone A target ctx.classId t = false)
    (.valueError ("Student is done for the day and cannot start work again until the next " ++
      "canonical day."))
  match A.latestSeatEvent target ctx.classId with
  | none => return []
  | some existing =>
    if existing.status = .active then
      return [{
        id := A.nextSessionId
        targetSeatId := existing.targetSeatId
        actorSeatId := actor
        classId := existing.classId
        mechanism := mechanism
        status := .inactive
        reasonCode := .doneForDay
        hallPassId := none
        timestamp := min t (dayEnd zone existing.timestamp) }]
    else if existing.reasonCode = .hallPass then do
      let sameDay := dayStart zone existing.timestamp ≤ t ∧ t < dayEnd zone existing.timestamp
      let returning := hallPassId.isSome ∧ hallPassId = existing.hallPassId
      require (¬ (sameDay ∧ ¬ returning))
        (.valueError ("Student is currently out on a hall pass and must check in before a new " ++
          "work session can start."))
      require (¬ (¬ sameDay ∧ returning))
        (.valueError "This hall pass ended with the day the student left on.")
      return []
    else return []

def recordAttendanceSession (A : AttendanceTables) (ctx : ClassContext) (t : Instant)
    (request : SessionRequest) : Except Raise AttendanceTables := do
  let reasonCode := request.resolvedReasonCode fold
  require (request.status = .inactive → reasonCode.isSome)
    (.valueError "Inactive attendance sessions require a reason_code.")
  require (request.status = .inactive ∧ reasonCode = some .hallPass → request.hallPassId.isSome)
    (.valueError "Hall-pass attendance sessions require hall_pass_id.")
  let actor := request.actorSeatId.getD ctx.seatId
  let target := request.targetSeatId.getD ctx.seatId
  let targetSeat ← demand (A.seat target ctx.classId)
    (.valueError "Attendance target seat must belong to the canonical class.")
  require (targetSeat.claimedAt.isSome ∧ targetSeat.userId.isSome)
    (.valueError "Attendance target seat must be claimed.")
  require ((A.seat actor ctx.classId).isSome)
    (.valueError "Attendance actor seat must belong to the canonical class.")
  let existing := A.latestSeatEvent target ctx.classId
  require (request.status = .inactive ∧ reasonCode = some .hallPass →
      isLiveSession zone t existing = true)
    (.valueError "Student has no work session to leave on a hall pass.")
  require (request.status = .active ∧ request.hallPassId.isSome →
      existing.any (fun r ↦ r.isHallPassExit ∧ r.hallPassId = request.hallPassId) = true)
    (.valueError "Student is not out on this hall pass.")
  let closing ← match request.status with
    | .active => startOfSession zone A ctx t target actor request.mechanism request.hallPassId
    | .inactive => pure []
  let sessions := A.sessions ++ closing
  return { A with
    sessions := sessions ++ [{
      id := sessions.length + 1
      targetSeatId := target
      actorSeatId := actor
      classId := ctx.classId
      mechanism := request.mechanism
      status := request.status
      reasonCode := reasonCode.getD .startWork
      hallPassId := request.hallPassId
      timestamp := t }] }

end Command

section Accepted

variable {zone : ClassZone} {fold : String → String} {A A' : AttendanceTables}
  {ctx : ClassContext} {t : Instant} {seatId actor : ℕ} {mechanism : AttendanceMechanism}
  {reason : Option String}

def AttendanceTables.Claimed (A : AttendanceTables) (seatId : ℕ) (classId : String) : Prop :=
  ∃ s, A.seat seatId classId = some s ∧ s.claimedAt.isSome ∧ s.userId.isSome

def AttendanceTables.row (A : AttendanceTables) (classId : String) (t : Instant)
    (seatId actor : ℕ) (mechanism : AttendanceMechanism) (status : AttendanceStatus)
    (reasonCode : AttendanceReasonCode) (hallPassId : Option ℕ) : AttendanceSession :=
  ⟨A.nextSessionId, seatId, actor, classId, mechanism, status, reasonCode, hallPassId, t⟩

theorem recordAttendanceSession_leave {hallPassId : Option ℕ} :
    recordAttendanceSession zone fold A ctx t ⟨.inactive, some seatId, some actor, mechanism,
        reason, some .hallPass, hallPassId⟩ = .ok A' ↔
      hallPassId.isSome ∧ A.Claimed seatId ctx.classId ∧ (A.seat actor ctx.classId).isSome ∧
        isLiveSession zone t (A.latestSeatEvent seatId ctx.classId) = true ∧
        A.append (A.row ctx.classId t seatId actor mechanism .inactive .hallPass hallPassId) =
          A' := by
  unfold recordAttendanceSession
  simp only [SessionRequest.resolvedReasonCode, Option.getD_some, Option.isSome_some,
    true_and, true_implies, reduceCtorEq, false_and, false_implies]
  rw [require_bind_eq_ok, require_bind_eq_ok]
  simp only [demand_bind_eq_ok]
  constructor
  · rintro ⟨-, hpass, s, hs, h⟩
    rw [require_bind_eq_ok, require_bind_eq_ok, require_bind_eq_ok, require_bind_eq_ok] at h
    obtain ⟨hclaimed, hactor, hlive, -, h⟩ := h
    rw [pure_bind, List.append_nil, pure_eq_ok] at h
    exact ⟨hpass, ⟨s, hs, hclaimed⟩, hactor, hlive, h⟩
  · rintro ⟨hpass, ⟨s, hs, hclaimed⟩, hactor, hlive, h⟩
    refine ⟨trivial, hpass, s, hs, ?_⟩
    rw [require_bind_eq_ok, require_bind_eq_ok, require_bind_eq_ok, require_bind_eq_ok]
    refine ⟨hclaimed, hactor, hlive, trivial, ?_⟩
    rw [pure_bind, List.append_nil, pure_eq_ok]
    exact h

/-- The latest event of the seat is the exit of this pass, on the class day of `t`. -/
def AttendanceTables.OutOn (zone : ClassZone) (A : AttendanceTables) (seatId : ℕ)
    (classId : String) (t : Instant) (passId : ℕ) : Prop :=
  ∃ e, A.latestSeatEvent seatId classId = some e ∧ e.isHallPassExit = true ∧
    e.hallPassId = some passId ∧ dayStart zone e.timestamp ≤ t ∧ t < dayEnd zone e.timestamp

theorem startOfSession_exit {e : AttendanceSession} {passId : Option ℕ}
    {closing : List AttendanceSession} (he : A.latestSeatEvent seatId ctx.classId = some e)
    (hexit : e.isHallPassExit = true) :
    startOfSession zone A ctx t seatId actor mechanism passId = .ok closing ↔
      isDoneForDay zone A seatId ctx.classId t = false ∧
        (dayStart zone e.timestamp ≤ t ∧ t < dayEnd zone e.timestamp ↔
          passId.isSome ∧ passId = e.hallPassId) ∧ closing = [] := by
  obtain ⟨hstatus, hreason⟩ := of_decide_eq_true hexit
  have hactive : e.status ≠ .active := by
    rw [hstatus]
    exact AttendanceStatus.noConfusion
  unfold startOfSession
  rw [require_bind_eq_ok, he]
  simp only [if_neg hactive, if_pos hreason]
  rw [require_bind_eq_ok, require_bind_eq_ok, pure_eq_ok]
  constructor
  · rintro ⟨hdone, hsame, hother, rfl⟩
    exact ⟨hdone, ⟨fun h ↦ not_not.1 (fun hn ↦ hsame ⟨h, hn⟩),
      fun h ↦ not_not.1 (fun hn ↦ hother ⟨hn, h⟩)⟩, rfl⟩
  · rintro ⟨hdone, hiff, rfl⟩
    exact ⟨hdone, fun h ↦ h.2 (hiff.1 h.1), fun h ↦ h.1 (hiff.2 h.2), rfl⟩

theorem recordAttendanceSession_return {passId : ℕ} :
    recordAttendanceSession zone fold A ctx t ⟨.active, some seatId, some actor, mechanism,
        reason, none, some passId⟩ = .ok A' ↔
      A.Claimed seatId ctx.classId ∧ (A.seat actor ctx.classId).isSome ∧
        A.OutOn zone seatId ctx.classId t passId ∧
        isDoneForDay zone A seatId ctx.classId t = false ∧
        A.append (A.row ctx.classId t seatId actor mechanism .active .startWork (some passId)) =
          A' := by
  unfold recordAttendanceSession
  simp only [SessionRequest.resolvedReasonCode, Option.getD_some, Option.isSome_some,
    reduceCtorEq, false_and, false_implies, true_and, true_implies]
  rw [require_bind_eq_ok, require_bind_eq_ok]
  simp only [demand_bind_eq_ok]
  constructor
  · rintro ⟨-, -, s, hs, h⟩
    rw [require_bind_eq_ok, require_bind_eq_ok, require_bind_eq_ok, require_bind_eq_ok,
      bind_eq_ok] at h
    obtain ⟨hclaimed, hactor, -, hout, closing, hstart, h⟩ := h
    cases he : A.latestSeatEvent seatId ctx.classId with
    | none =>
      rw [he] at hout
      exact absurd hout (by simp)
    | some e =>
      rw [he] at hout
      obtain ⟨hexit, hpass⟩ : e.isHallPassExit = true ∧ e.hallPassId = some passId := by
        simpa using hout
      obtain ⟨hdone, hday, rfl⟩ := (startOfSession_exit he hexit).1 hstart
      rw [List.append_nil, pure_eq_ok] at h
      obtain ⟨hfrom, htill⟩ := hday.2 ⟨rfl, hpass.symm⟩
      exact ⟨⟨s, hs, hclaimed⟩, hactor, ⟨e, he, hexit, hpass, hfrom, htill⟩, hdone, h⟩
  · rintro ⟨⟨s, hs, hclaimed⟩, hactor, ⟨e, he, hexit, hpass, hfrom, htill⟩, hdone, h⟩
    refine ⟨trivial, trivial, s, hs, ?_⟩
    rw [require_bind_eq_ok, require_bind_eq_ok, require_bind_eq_ok, require_bind_eq_ok,
      bind_eq_ok]
    refine ⟨hclaimed, hactor, trivial, ?_, [], ?_, ?_⟩
    · rw [he]
      simp [hexit, hpass]
    · refine (startOfSession_exit he hexit).2 ⟨hdone, ?_, rfl⟩
      exact ⟨fun _ ↦ ⟨rfl, hpass.symm⟩, fun _ ↦ ⟨hfrom, htill⟩⟩
    · rw [List.append_nil, pure_eq_ok]
      exact h

/-- A session that no pass opens appends its own row, after at most the closing row of the
session before it. -/
theorem recordAttendanceSession_start
    (h : recordAttendanceSession zone fold A ctx t ⟨.active, some seatId, some actor, mechanism,
      reason, none, none⟩ = .ok A') :
    (∀ e, A.latestSeatEvent seatId ctx.classId = some e → e.isHallPassExit = true →
      ¬ (dayStart zone e.timestamp ≤ t ∧ t < dayEnd zone e.timestamp)) ∧
    ∃ B, (B = A ∨ ∃ stop, stop ≤ t ∧ B = A.append
        (A.row ctx.classId stop seatId actor mechanism .inactive .doneForDay none)) ∧
      A' = B.append (B.row ctx.classId t seatId actor mechanism .active .startWork none) := by
  unfold recordAttendanceSession at h
  simp only [SessionRequest.resolvedReasonCode, Option.getD_some, Option.isSome_none,
    reduceCtorEq, false_implies, and_false] at h
  rw [require_bind_eq_ok, require_bind_eq_ok] at h
  simp only [demand_bind_eq_ok] at h
  obtain ⟨-, -, s, hs, h⟩ := h
  rw [require_bind_eq_ok, require_bind_eq_ok, require_bind_eq_ok, require_bind_eq_ok,
    bind_eq_ok] at h
  obtain ⟨-, -, -, -, closing, hstart, h⟩ := h
  rw [pure_eq_ok] at h
  constructor
  · intro e he hexit hday
    obtain ⟨-, hiff, -⟩ := (startOfSession_exit he hexit).1 hstart
    exact absurd (hiff.1 hday).1 (by simp)
  · unfold startOfSession at hstart
    rw [require_bind_eq_ok] at hstart
    obtain ⟨-, hstart⟩ := hstart
    cases he : A.latestSeatEvent seatId ctx.classId with
    | none =>
      rw [he, pure_eq_ok] at hstart
      subst hstart
      rw [List.append_nil] at h
      exact ⟨A, .inl rfl, h.symm⟩
    | some e =>
      rw [he] at hstart
      have hmem : e ∈ A.seatRows seatId ctx.classId := List.mem_of_getLast? he
      obtain ⟨-, hseat, hclass⟩ := AttendanceTables.mem_seatRows.1 hmem
      dsimp only at hstart
      split_ifs at hstart with hactive hpass
      · rw [pure_eq_ok] at hstart
        subst hstart
        rw [hseat, hclass] at h
        exact ⟨_, .inr ⟨_, min_le_left t _, rfl⟩, h.symm⟩
      · rw [require_bind_eq_ok, require_bind_eq_ok, pure_eq_ok] at hstart
        obtain ⟨-, -, rfl⟩ := hstart
        rw [List.append_nil] at h
        exact ⟨A, .inl rfl, h.symm⟩
      · rw [pure_eq_ok] at hstart
        subst hstart
        rw [List.append_nil] at h
        exact ⟨A, .inl rfl, h.symm⟩

end Accepted

end TokenHub.Attendance
