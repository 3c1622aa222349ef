import TokenHub.Attendance.WorkDays
import TokenHub.Attendance.Writer

set_option autoImplicit false

namespace TokenHub.Attendance

open Ledger Rent Lib.Checks

section Closures

variable (zone : ClassZone) (fold : String → String)

/-- The seconds credited to a day's closed sessions before one of them opened. -/
def previousSeconds (intervals : List AttendanceInterval) (i : AttendanceInterval) : ℤ :=
  ((intervals.filter (fun j ↦ j.closingEventId.isSome ∧ dayStart zone i.openedAt < i.openedAt ∧
    dayStart zone i.openedAt ≤ j.openedAt ∧ j.openedAt < i.openedAt)).map (·.creditedSeconds)).sum

/-- When an open session is to be closed: at its day's end, or when the daily limit is reached. -/
def dueAt (limit : Option ℤ) (intervals : List AttendanceInterval) (i : AttendanceInterval) :
    Instant :=
  match limit with
  | none => dayEnd zone i.openedAt
  | some seconds =>
    if seconds = 0 then dayEnd zone i.openedAt
    else
      let remaining := max 0 (seconds - previousSeconds zone intervals i)
      min (dayEnd zone i.openedAt) (i.openedAt + remaining * 1000000)

def systemClosure (seatId : ℕ) : SessionRequest where
  status := .inactive
  targetSeatId := some seatId
  actorSeatId := none
  mechanism := .system
  reason := none
  reasonCode := some .doneForDay
  hallPassId := none

/-- The loop of `close_due_attendance_intervals`. `limit` reads the daily limit that the payroll
settings in force at an instant set. -/
def closeIntervals (limit : Instant → Option ℤ) (ctx : ClassContext) (seatId : ℕ)
    (asOf : Instant) (intervals : List AttendanceInterval) :
    List AttendanceInterval → AttendanceTables → Except Raise AttendanceTables
  | [], A => .ok A
  | i :: rest, A => do
    let due := dueAt zone (limit i.openedAt) intervals i
    let A ←
      if i.closingEventId.isNone ∧ due ≤ asOf then
        recordAttendanceSession zone fold A ctx due (systemClosure seatId)
      else pure A
    closeIntervals limit ctx seatId asOf intervals rest A

def closeDueAttendanceIntervals (limit : Instant → Option ℤ) (A : AttendanceTables)
    (ctx : ClassContext) (seatId : ℕ) (asOf : Instant) : Except Raise AttendanceTables := do
  require ((A.seat seatId ctx.classId).isSome)
    (.valueError "Attendance target seat must belong to the canonical class.")
  let intervals := listAttendanceIntervals zone (A.seatRows seatId ctx.classId) asOf
  closeIntervals zone fold limit ctx seatId asOf intervals intervals A

def appendHangingPassClosure (A : AttendanceTables) (ctx : ClassContext)
    (leftRow : AttendanceSession) : AttendanceTables :=
  let stop := dayEnd zone leftRow.timestamp
  let A := A.append (A.row leftRow.classId stop leftRow.targetSeatId ctx.seatId .system .active
    .startWork leftRow.hallPassId)
  A.append (A.row leftRow.classId stop leftRow.targetSeatId ctx.seatId .system .inactive
    .doneForDay none)

local instance passId_lawful : LawfulBEq (Option ℕ) := inferInstance

/-- The exits of a seat that no return names and whose day has ended. -/
def hangingExits (A : AttendanceTables) (ctx : ClassContext) (seatId : ℕ) (asOf : Instant) :
    List AttendanceSession :=
  let rows := (A.seatRows seatId ctx.classId).filter (fun r ↦ r.hallPassId.isSome)
  let ended := (rows.filter (fun r ↦ r.status = .active)).map (·.hallPassId)
  rows.filter (fun r ↦ r.isHallPassExit ∧ r.hallPassId ∉ ended ∧ dayEnd zone r.timestamp ≤ asOf)

def closeDueHangingHallPass (A : AttendanceTables) (ctx : ClassContext) (seatId : ℕ)
    (asOf : Instant) : Except Raise AttendanceTables := do
  require ((A.seat seatId ctx.classId).isSome)
    (.valueError "Attendance target seat must belong to the canonical class.")
  return (hangingExits zone A ctx seatId asOf).foldl
    (fun A row ↦ appendHangingPassClosure zone A ctx row) A

/-- The daily-limit job, of one seat: an unclaimed seat is left untouched. -/
def enforceDailyLimit (limit : Instant → Option ℤ) (A : AttendanceTables) (ctx : ClassContext)
    (seatId : ℕ) (now : Instant) : Except Raise AttendanceTables := do
  let claimed := A.seats.any (fun s ↦ s.id = seatId ∧ s.classId = ctx.classId ∧
    s.role = "student" ∧ s.claimedAt.isSome)
  if claimed then
    let A ← closeDueAttendanceIntervals zone fold limit A ctx seatId now
    closeDueHangingHallPass zone A ctx seatId now
  else return A

end Closures

section Order

theorem AttendanceSession.Sooner.refl (a : AttendanceSession) : a.Sooner a :=
  .inr ⟨rfl, le_rfl⟩

theorem AttendanceSession.Sooner.trans {a b c : AttendanceSession} (h : a.Sooner b)
    (h' : b.Sooner c) : a.Sooner c := by
  unfold AttendanceSession.Sooner at *
  lia

instance : IsTrans AttendanceSession AttendanceSession.Sooner := ⟨fun _ _ _ ↦ .trans⟩

instance : Std.Total AttendanceSession.Sooner := by
  constructor
  intro a b
  unfold AttendanceSession.Sooner
  lia

variable {a b : AttendanceSession}

theorem AttendanceSession.Sooner.id_eq (h : a.Sooner b) (h' : b.Sooner a) : a.id = b.id := by
  unfold AttendanceSession.Sooner at *
  lia

end Order

section Invariant

variable (zones : String → ClassZone)

def AttendanceSession.Alongside (r s : AttendanceSession) : Prop :=
  r.targetSeatId = s.targetSeatId ∧ r.classId = s.classId

/-- An `inactive` row of the same seat that stands after `p` and before `q`. -/
def ClosedBetween (A : AttendanceTables) (p q : AttendanceSession) : Prop :=
  ∃ c ∈ A.sessions, c.Alongside p ∧ c.status = .inactive ∧ p.Sooner c ∧ c.Sooner q

structure Logged (A : AttendanceTables) (now : Instant) : Prop where
  ids : A.sessions.map (·.id) = List.range' 1 A.sessions.length
  times : ∀ r ∈ A.sessions, r.timestamp ≤ now
  opens : ∀ r ∈ A.sessions, r.status = .active →
    dayStart (zones r.classId) r.timestamp ≤ r.timestamp
  alternates : ∀ p ∈ A.sessions, ∀ q ∈ A.sessions, p.Alongside q → p.status = .active →
    q.status = .active → p.timestamp < q.timestamp → ClosedBetween A p q

variable {zones} {A : AttendanceTables} {now : Instant} {x : AttendanceSession}

theorem Logged.mono {later : Instant} (h : Logged zones A now) (hle : now ≤ later) :
    Logged zones A later :=
  { h with times := fun r hr ↦ (h.times r hr).trans hle }

theorem ClosedBetween.append {p q : AttendanceSession} (h : ClosedBetween A p q) :
    ClosedBetween (A.append x) p q := by
  obtain ⟨c, hc, h⟩ := h
  exact ⟨c, List.mem_append_left _ hc, h⟩

theorem Logged.id_le (h : Logged zones A now) {r : AttendanceSession} (hr : r ∈ A.sessions) :
    r.id ≤ A.sessions.length := by
  have hmem := List.mem_map_of_mem (f := (·.id)) hr
  rw [h.ids, List.mem_range'_1] at hmem
  omega

theorem Logged.ids_append (h : Logged zones A now) (hid : x.id = A.nextSessionId) :
    (A.append x).sessions.map (·.id) = List.range' 1 (A.append x).sessions.length := by
  rw [AttendanceTables.append, List.map_append, h.ids, List.length_append, List.map_singleton, hid,
    List.length_singleton, List.range'_concat, AttendanceTables.nextSessionId, mul_comm, mul_one,
    add_comm]

theorem Logged.sooner_new (h : Logged zones A now) (hid : x.id = A.nextSessionId)
    {r : AttendanceSession} (hr : r ∈ A.sessions) (htime : r.timestamp ≤ x.timestamp) :
    r.Sooner x := by
  have hle := h.id_le hr
  rw [AttendanceTables.nextSessionId] at hid
  rcases htime.lt_or_eq with hlt | heq
  · exact .inl hlt
  · exact .inr ⟨heq, by omega⟩

theorem Logged.close (h : Logged zones A now) (hid : x.id = A.nextSessionId)
    (htime : x.timestamp ≤ now) (hstatus : x.status = .inactive) :
    Logged zones (A.append x) now where
  ids := h.ids_append hid
  times := by
    intro r hr
    rcases List.mem_append.1 hr with hr | hr
    · exact h.times r hr
    · rw [List.mem_singleton.1 hr]
      exact htime
  opens := by
    intro r hr hactive
    rcases List.mem_append.1 hr with hr | hr
    · exact h.opens r hr hactive
    · rw [List.mem_singleton.1 hr, hstatus] at hactive
      cases hactive
  alternates := by
    intro p hp q hq hsame hpactive hqactive hlt
    have hold : ∀ r ∈ (A.append x).sessions, r.status = .active → r ∈ A.sessions := by
      intro r hr hactive
      rcases List.mem_append.1 hr with hr | hr
      · exact hr
      · rw [List.mem_singleton.1 hr, hstatus] at hactive
        cases hactive
    exact (h.alternates p (hold p hp hpactive) q (hold q hq hqactive) hsame hpactive hqactive
      hlt).append

/-- A new session at the present instant, after whatever was under way has been closed. -/
theorem Logged.start (h : Logged zones A now) (hid : x.id = A.nextSessionId)
    (htime : x.timestamp = now) (hopens : dayStart (zones x.classId) x.timestamp ≤ x.timestamp)
    (hclosed : ∀ p ∈ A.sessions, p.Alongside x → p.status = .active →
      p.timestamp < x.timestamp → ClosedBetween A p x) :
    Logged zones (A.append x) now where
  ids := h.ids_append hid
  times := by
    intro r hr
    rcases List.mem_append.1 hr with hr | hr
    · exact h.times r hr
    · rw [List.mem_singleton.1 hr]
      exact htime.le
  opens := by
    intro r hr hactive
    rcases List.mem_append.1 hr with hr | hr
    · exact h.opens r hr hactive
    · rw [List.mem_singleton.1 hr]
      exact hopens
  alternates := by
    intro p hp q hq hsame hpactive hqactive hlt
    have hp' : p ∈ A.sessions := by
      rcases List.mem_append.1 hp with hp | hp
      · exact hp
      · rcases List.mem_append.1 hq with hq | hq
        · rw [List.mem_singleton.1 hp, htime] at hlt
          exact absurd (h.times q hq) (not_le.2 hlt)
        · rw [List.mem_singleton.1 hp, List.mem_singleton.1 hq] at hlt
          exact absurd hlt (lt_irrefl _)
    rcases List.mem_append.1 hq with hq | hq
    · exact (h.alternates p hp' q hq hsame hpactive hqactive hlt).append
    · rw [List.mem_singleton.1 hq] at hsame hlt ⊢
      exact (hclosed p hp' hsame hpactive hlt).append

/-- A hall pass that ends with its day, by a session that is closed where it opens. -/
theorem Logged.endPass (h : Logged zones A now) {o r : AttendanceSession}
    (hoid : o.id = A.nextSessionId) (hrid : r.id = A.nextSessionId + 1)
    (hsame : r.Alongside o) (hrtime : r.timestamp = o.timestamp) (hrstatus : r.status = .inactive)
    (htime : o.timestamp ≤ now) (hopens : dayStart (zones o.classId) o.timestamp ≤ o.timestamp)
    (hclosed : ∀ p ∈ A.sessions, p.Alongside o → p.status = .active →
      p.timestamp < o.timestamp → ClosedBetween A p o) :
    Logged zones ((A.append o).append r) now := by
  have hlen : (A.append o).sessions.length = A.sessions.length + 1 := List.length_append
  have hmem : ∀ {q : AttendanceSession}, q ∈ ((A.append o).append r).sessions →
      q ∈ A.sessions ∨ q = o ∨ q = r := by
    intro q hq
    rcases List.mem_append.1 hq with hq | hq
    · rcases List.mem_append.1 hq with hq | hq
      · exact .inl hq
      · exact .inr (.inl (List.mem_singleton.1 hq))
    · exact .inr (.inr (List.mem_singleton.1 hq))
  constructor
  · have hids := h.ids_append hoid
    rw [AttendanceTables.append, List.map_append, hids, List.length_append, List.map_singleton,
      hrid, List.length_singleton, List.range'_concat, AttendanceTables.nextSessionId, hlen,
      mul_comm, mul_one, add_comm 1]
  · intro q hq
    rcases hmem hq with hq | rfl | rfl
    · exact h.times q hq
    · exact htime
    · exact hrtime.trans_le htime
  · intro q hq hactive
    rcases hmem hq with hq | rfl | rfl
    · exact h.opens q hq hactive
    · exact hopens
    · rw [hrstatus] at hactive
      cases hactive
  · intro p hp q hq hpq hpactive hqactive hlt
    rcases hmem hp with hold | rfl | rfl
    · rcases hmem hq with hq | rfl | rfl
      · exact (h.alternates p hold q hq hpq hpactive hqactive hlt).append.append
      · exact (hclosed p hold hpq hpactive hlt).append.append
      · rw [hrstatus] at hqactive
        cases hqactive
    · -- what follows the pass follows its closing row
      refine ⟨r, List.mem_append_right _ List.mem_cons_self, hsame, hrstatus, ?_, ?_⟩
      · exact .inr ⟨hrtime.symm, by omega⟩
      · exact .inl (hrtime.trans_lt hlt)
    · rw [hrstatus] at hpactive
      cases hpactive

end Invariant

end TokenHub.Attendance
