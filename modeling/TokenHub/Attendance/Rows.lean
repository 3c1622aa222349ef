import TokenHub.Lib.Ordered
import TokenHub.Rent.Schedule

set_option autoImplicit false

namespace TokenHub.Attendance

open Rent Lib.Ordered

inductive AttendanceStatus
  | active
  | inactive
deriving DecidableEq, Repr

inductive AttendanceReasonCode
  | hallPass
  | doneForDay
  | startWork
deriving DecidableEq, Repr

inductive AttendanceMechanism
  | self
  | teacher
  | system
deriving DecidableEq, Repr

structure Seat where
  id : ℕ
  classId : String
  role : String
  claimedAt : Option Instant
  userId : Option ℕ
deriving DecidableEq, Repr

/-- One row of `attendance_sessions`. A hall-pass row carries the id of the entitlement that the
pass used. -/
structure AttendanceSession where
  id : ℕ
  targetSeatId : ℕ
  actorSeatId : ℕ
  classId : String
  mechanism : AttendanceMechanism
  status : AttendanceStatus
  reasonCode : AttendanceReasonCode
  hallPassId : Option ℕ
  timestamp : Instant
deriving DecidableEq, Repr

/-- The order of `order_by(timestamp.asc(), id.asc())`. -/
def AttendanceSession.Sooner (a b : AttendanceSession) : Prop :=
  a.timestamp < b.timestamp ∨ a.timestamp = b.timestamp ∧ a.id ≤ b.id

instance : DecidableRel AttendanceSession.Sooner := fun a b ↦ by
  unfold AttendanceSession.Sooner; infer_instance

theorem AttendanceSession.Sooner.timestamp_le {a b : AttendanceSession} (h : a.Sooner b) :
    a.timestamp ≤ b.timestamp := by
  rcases h with hlt | ⟨heq, -⟩
  · exact hlt.le
  · exact heq.le

structure AttendanceTables where
  seats : List Seat
  sessions : List AttendanceSession

/-- `CanonicalContext`. -/
structure ClassContext where
  classId : String
  seatId : ℕ
deriving DecidableEq, Repr

section Days

variable (zone : ClassZone)

/-- The two ends of `evaluation_day_boundaries`. -/
def dayStart (t : Instant) : Instant := zone.startOfDate (zone.localDate t)

def dayEnd (t : Instant) : Instant := zone.startOfDate (zone.localDate t + 1)

end Days

section Reads

variable (A : AttendanceTables)

def AttendanceTables.seat (seatId : ℕ) (classId : String) : Option Seat :=
  A.seats.find? (fun s ↦ s.id = seatId ∧ s.classId = classId)

def AttendanceTables.seatRows (seatId : ℕ) (classId : String) : List AttendanceSession :=
  (A.sessions.filter (fun r ↦ r.targetSeatId = seatId ∧ r.classId = classId)).insertionSort
    AttendanceSession.Sooner

def AttendanceTables.latestSeatEvent (seatId : ℕ) (classId : String) : Option AttendanceSession :=
  (A.seatRows seatId classId).getLast?

def AttendanceTables.nextSessionId : ℕ := A.sessions.length + 1

end Reads

def isLiveSession (zone : ClassZone) (t : Instant) (row : Option AttendanceSession) : Bool :=
  row.any (fun r ↦ r.status = .active ∧ ¬ r.timestamp < dayStart zone t)

def AttendanceSession.isHallPassExit (r : AttendanceSession) : Bool :=
  decide (r.status = .inactive ∧ r.reasonCode = .hallPass)

section Appending

variable {A : AttendanceTables} {x : AttendanceSession} {seatId : ℕ} {classId : String}

def AttendanceTables.append (A : AttendanceTables) (x : AttendanceSession) : AttendanceTables :=
  { A with sessions := A.sessions ++ [x] }

@[simp] theorem AttendanceTables.append_seat : (A.append x).seat = A.seat := rfl

theorem AttendanceTables.mem_seatRows {r : AttendanceSession} : r ∈ A.seatRows seatId classId ↔
    r ∈ A.sessions ∧ r.targetSeatId = seatId ∧ r.classId = classId := by
  rw [seatRows, List.mem_insertionSort, List.mem_filter, decide_eq_true_eq]

theorem AttendanceTables.seatRows_append_other
    (h : ¬ (x.targetSeatId = seatId ∧ x.classId = classId)) :
    (A.append x).seatRows seatId classId = A.seatRows seatId classId := by
  rw [seatRows, seatRows, append, List.filter_append,
    List.filter_cons_of_neg (by simpa using h), List.filter_nil, List.append_nil]

/-- Every row has an id of its own below the next one, and no row of the class is later than
`now`. -/
structure AttendanceTables.UpTo (A : AttendanceTables) (classId : String) (now : Instant) :
    Prop where
  ids : ∀ r ∈ A.sessions, r.id ≤ A.sessions.length
  times : ∀ r ∈ A.sessions, r.classId = classId → r.timestamp ≤ now

theorem AttendanceTables.UpTo.mono {now later : Instant} (h : A.UpTo classId now)
    (hle : now ≤ later) : A.UpTo classId later :=
  ⟨h.ids, fun r hr hc ↦ (h.times r hr hc).trans hle⟩

theorem AttendanceTables.UpTo.append {now : Instant} (h : A.UpTo classId now)
    (hid : x.id = A.nextSessionId) (htime : x.classId = classId → x.timestamp ≤ now) :
    (A.append x).UpTo classId now := by
  have hlen : (A.append x).sessions.length = A.sessions.length + 1 := List.length_append
  constructor
  · intro r hr
    rcases List.mem_append.1 hr with hr | hr
    · have := h.ids r hr
      omega
    · rw [List.mem_singleton.1 hr, hid, hlen, nextSessionId]
  · intro r hr hc
    rcases List.mem_append.1 hr with hr | hr
    · exact h.times r hr hc
    · rw [List.mem_singleton.1 hr] at hc ⊢
      exact htime hc

/-- A new row at the present instant comes after every other row of the class. -/
theorem AttendanceTables.UpTo.sooner {now : Instant} (h : A.UpTo classId now)
    (hid : x.id = A.nextSessionId) (htime : x.timestamp = now) {r : AttendanceSession}
    (hr : r ∈ A.sessions) (hclass : r.classId = classId) : r.Sooner x := by
  have htimes := h.times r hr hclass
  have hids := h.ids r hr
  rw [← htime] at htimes
  rcases htimes.lt_or_eq with hlt | heq
  · exact .inl hlt
  · refine .inr ⟨heq, ?_⟩
    rw [hid, nextSessionId]
    exact hids.trans (Nat.le_succ _)

theorem AttendanceTables.UpTo.seatRows_append {now : Instant} (h : A.UpTo classId now)
    (hid : x.id = A.nextSessionId) (hseat : x.targetSeatId = seatId) (hclass : x.classId = classId)
    (htime : x.timestamp = now) :
    (A.append x).seatRows seatId classId = A.seatRows seatId classId ++ [x] := by
  have hx : [x].filter (fun r ↦ r.targetSeatId = seatId ∧ r.classId = classId) = [x] := by
    simp [hseat, hclass]
  rw [seatRows, AttendanceTables.append, List.filter_append, hx]
  apply insertionSort_concat
  intro r hr
  obtain ⟨hr, hp⟩ := List.mem_filter.1 hr
  exact h.sooner hid htime hr (of_decide_eq_true hp).2

end Appending

end TokenHub.Attendance
