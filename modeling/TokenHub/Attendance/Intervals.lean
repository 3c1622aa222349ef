import TokenHub.Attendance.Rows

set_option autoImplicit false

namespace TokenHub.Attendance

open Rent

structure AttendanceInterval where
  openingEventId : ℕ
  closingEventId : Option ℕ
  openedAt : Instant
  closedAt : Instant
  creditedSeconds : ℤ
  openingMechanism : AttendanceMechanism
  closingMechanism : Option AttendanceMechanism
  boundedAtDayEnd : Bool
deriving DecidableEq, Repr

/-- `elapsed_attendance_seconds` of one interval. -/
def elapsedSeconds (start stop : Instant) : ℤ := (stop - start) / 1000000

/-- What the loop of `list_attendance_interval_evidence` carries from row to row. -/
structure Projection where
  intervals : List AttendanceInterval
  opening : Option AttendanceSession
  consumedClosings : List ℕ
deriving DecidableEq, Repr

section Loop

variable (zone : ClassZone) (rows : List AttendanceSession)

/-- The recorded closure, if any, of a session that its day's end closes. -/
def boundaryClose (consumed : List ℕ) (stop : Instant) : Option AttendanceSession :=
  rows.find? (fun c ↦ c.id ∉ consumed ∧ c.status = .inactive ∧ c.timestamp = stop ∧
    c.mechanism = .system ∧ c.reasonCode = .doneForDay)

/-- An opening that `stop` ends, closed by a recorded row or by none. -/
def intervalOf (opening : AttendanceSession) (closing : Option AttendanceSession) (stop : Instant)
    (bounded : Bool) : AttendanceInterval where
  openingEventId := opening.id
  closingEventId := closing.map (·.id)
  openedAt := opening.timestamp
  closedAt := stop
  creditedSeconds := elapsedSeconds opening.timestamp stop
  openingMechanism := opening.mechanism
  closingMechanism := closing.map (·.mechanism)
  boundedAtDayEnd := bounded

/-- The loop's body for one row that it does not skip. -/
def Projection.step (p : Projection) (row : AttendanceSession) : Projection :=
  match row.status, p.opening with
  | .active, none => { p with opening := some row }
  | .active, some opening =>
    let stop := dayEnd zone opening.timestamp
    if row.timestamp < stop then p
    else
      let closing := boundaryClose rows p.consumedClosings stop
      { intervals := p.intervals ++ [intervalOf opening closing stop true]
        opening := some row
        consumedClosings := p.consumedClosings ++ (closing.map (·.id)).toList }
  | .inactive, none => p
  | .inactive, some opening =>
    let stop := dayEnd zone opening.timestamp
    if row.timestamp < opening.timestamp ∨ stop < row.timestamp then
      { p with intervals := p.intervals ++ [intervalOf opening none stop true], opening := none }
    else
      { p with
        intervals := p.intervals ++ [intervalOf opening (some row) row.timestamp false]
        opening := none }

def projectRows (asOf : Instant) : List AttendanceSession → Projection → Projection
  | [], p => p
  | row :: rest, p =>
    if row.id ∈ p.consumedClosings then projectRows asOf rest p
    else if asOf < row.timestamp then p
    else projectRows asOf rest (p.step zone rows row)

def listAttendanceIntervals (asOf : Instant) : List AttendanceInterval :=
  let p := projectRows zone rows asOf rows ⟨[], none, []⟩
  match p.opening with
  | none => p.intervals
  | some opening =>
    let stop := min asOf (dayEnd zone opening.timestamp)
    p.intervals ++ [intervalOf opening none stop (stop = dayEnd zone opening.timestamp)]

end Loop

def isDoneForDay (zone : ClassZone) (A : AttendanceTables) (seatId : ℕ) (classId : String)
    (t : Instant) : Bool :=
  let rows := A.seatRows seatId classId
  let closings := rows.filter (fun r ↦ r.status = .inactive ∧ r.reasonCode = .doneForDay ∧
    dayStart zone t ≤ r.timestamp ∧ r.timestamp < dayEnd zone t)
  let priorDayClosings :=
    ((listAttendanceIntervals zone rows (dayStart zone t)).filter (fun i ↦
      i.openingMechanism = .system ∨ i.openedAt < dayStart zone t)).map (·.closingEventId)
  closings.any (fun r ↦ r.timestamp ≠ dayStart zone t ∨ some r.id ∉ priorDayClosings)

section Later

variable {zone : ClassZone} {rows : List AttendanceSession} {x : AttendanceSession}

theorem boundaryClose_append (hx : x.reasonCode ≠ .doneForDay) (consumed : List ℕ)
    (stop : Instant) : boundaryClose (rows ++ [x]) consumed stop =
      boundaryClose rows consumed stop := by
  rw [boundaryClose, boundaryClose, List.find?_append]
  simp [hx]

theorem Projection.step_append (hx : x.reasonCode ≠ .doneForDay) (p : Projection)
    (row : AttendanceSession) : p.step zone (rows ++ [x]) row = p.step zone rows row := by
  simp only [Projection.step, boundaryClose_append hx]

theorem projectRows_append (hx : x.reasonCode ≠ .doneForDay) (asOf : Instant)
    (todo : List AttendanceSession) (p : Projection) :
    projectRows zone (rows ++ [x]) asOf todo p = projectRows zone rows asOf todo p := by
  induction todo generalizing p with
  | nil => rfl
  | cons row todo ih => simp only [projectRows, Projection.step_append hx, ih]

theorem Projection.step_intervals (p : Projection) (row : AttendanceSession) :
    ∃ more, (p.step zone rows row).intervals = p.intervals ++ more := by
  unfold Projection.step
  split
  · exact ⟨[], (List.append_nil _).symm⟩
  · dsimp only
    split_ifs
    · exact ⟨[], (List.append_nil _).symm⟩
    · exact ⟨_, rfl⟩
  · exact ⟨[], (List.append_nil _).symm⟩
  · dsimp only
    split_ifs
    · exact ⟨_, rfl⟩
    · exact ⟨_, rfl⟩

theorem projectRows_snoc (zone : ClassZone) (rows : List AttendanceSession)
    (x : AttendanceSession) (asOf : Instant) (todo : List AttendanceSession) (p : Projection) :
    ∃ more, (projectRows zone rows asOf (todo ++ [x]) p).intervals =
      (projectRows zone rows asOf todo p).intervals ++ more := by
  induction todo generalizing p with
  | nil =>
    simp only [List.nil_append, projectRows]
    split_ifs
    · exact ⟨[], (List.append_nil _).symm⟩
    · exact ⟨[], (List.append_nil _).symm⟩
    · exact p.step_intervals x
  | cons row todo ih =>
    simp only [List.cons_append, projectRows]
    split_ifs
    · exact ih p
    · exact ⟨[], (List.append_nil _).symm⟩
    · exact ih _

/-- A later row that ends no day leaves every closed interval as it was. -/
theorem closed_mem_append (hx : x.reasonCode ≠ .doneForDay) {asOf : Instant}
    {i : AttendanceInterval} (hi : i ∈ listAttendanceIntervals zone rows asOf)
    (hclosed : i.closingEventId ≠ none) : i ∈ listAttendanceIntervals zone (rows ++ [x]) asOf := by
  have hproj : i ∈ (projectRows zone rows asOf rows ⟨[], none, []⟩).intervals := by
    unfold listAttendanceIntervals at hi
    dsimp only at hi
    split at hi
    · exact hi
    · rcases List.mem_append.1 hi with hi | hi
      · exact hi
      · rw [List.mem_singleton.1 hi] at hclosed
        exact absurd rfl hclosed
  obtain ⟨more, hmore⟩ := projectRows_snoc zone rows x asOf rows ⟨[], none, []⟩
  have hproj' : i ∈
      (projectRows zone (rows ++ [x]) asOf (rows ++ [x]) ⟨[], none, []⟩).intervals := by
    rw [projectRows_append hx, hmore]
    exact List.mem_append_left _ hproj
  unfold listAttendanceIntervals
  dsimp only
  split
  · exact hproj'
  · exact List.mem_append_left _ hproj'

theorem isDoneForDay_append {A : AttendanceTables} {seatId : ℕ} {classId : String} {t : Instant}
    (hrows : (A.append x).seatRows seatId classId = A.seatRows seatId classId ++ [x])
    (hx : x.reasonCode ≠ .doneForDay) (h : isDoneForDay zone A seatId classId t = false) :
    isDoneForDay zone (A.append x) seatId classId t = false := by
  unfold isDoneForDay at h ⊢
  rw [hrows]
  simp only [List.any_eq_false] at h ⊢
  intro r hr
  have hr' : r ∈ (A.seatRows seatId classId).filter (fun r ↦ r.status = .inactive ∧
      r.reasonCode = .doneForDay ∧ dayStart zone t ≤ r.timestamp ∧
      r.timestamp < dayEnd zone t) := by
    rw [List.filter_append, List.filter_cons_of_neg (by simp [hx]), List.filter_nil,
      List.append_nil] at hr
    exact hr
  have hold := h r hr'
  simp only [decide_eq_true_eq, not_or, not_not] at hold ⊢
  refine ⟨hold.1, ?_⟩
  obtain ⟨i, hi, hid⟩ := List.mem_map.1 hold.2
  obtain ⟨hi, hprior⟩ := List.mem_filter.1 hi
  refine List.mem_map.2 ⟨i, List.mem_filter.2 ⟨closed_mem_append hx hi ?_, hprior⟩, hid⟩
  rw [hid]
  exact Option.some_ne_none _

end Later

end TokenHub.Attendance
