import TokenHub.Attendance.Sweeps
import TokenHub.Lib.Runs

set_option autoImplicit false

namespace TokenHub.Attendance

open Ledger Rent Lib.Checks Lib.Runs

section Rows

variable {zones : String → ClassZone} {A : AttendanceTables} {now : Instant}
  {rows : List AttendanceSession} {seatId : ℕ} {classId : String}

theorem steady_of_alternates (hsorted : rows.Pairwise AttendanceSession.Sooner)
    (hids : (rows.map (·.id)).Nodup)
    (h : ∀ p ∈ rows, ∀ q ∈ rows, p.status = .active → q.status = .active →
      p.timestamp < q.timestamp → ∃ c ∈ rows, c.status = .inactive ∧ p.Sooner c ∧ c.Sooner q) :
    Steady rows := by
  induction rows with
  | nil => exact List.IsChain.nil
  | cons a rows ih =>
    obtain ⟨hfirst, hrest⟩ := List.pairwise_cons.1 hsorted
    rw [List.map_cons, List.nodup_cons] at hids
    have htail : Steady rows := by
      apply ih hrest hids.2
      intro p hp q hq hpactive hqactive hlt
      obtain ⟨c, hc, hstatus, hpc, hcq⟩ := h p (List.mem_cons_of_mem a hp) q
        (List.mem_cons_of_mem a hq) hpactive hqactive hlt
      rcases List.mem_cons.1 hc with rfl | hc
      · have hid := hpc.id_eq (hfirst p hp)
        exact absurd (hid ▸ List.mem_map_of_mem hp) hids.1
      · exact ⟨c, hc, hstatus, hpc, hcq⟩
    cases rows with
    | nil => exact List.IsChain.singleton a
    | cons b rows =>
      refine List.isChain_cons_cons.2 ⟨?_, htail⟩
      intro ha hb
      rcases (hfirst b List.mem_cons_self).timestamp_le.lt_or_eq with hlt | heq
      · obtain ⟨c, hc, hstatus, -, hcb⟩ :=
          h a List.mem_cons_self b (List.mem_cons_of_mem a List.mem_cons_self) ha hb hlt
        have hne : ∀ {r : AttendanceSession}, r.status = .active → c ≠ r := by
          intro r hr heq
          rw [← heq, hstatus] at hr
          cases hr
        have hmem := ((List.mem_cons.1 hc).resolve_left (hne ha))
        have hlate := (List.mem_cons.1 hmem).resolve_left (hne hb)
        have hid := hcb.id_eq ((List.pairwise_cons.1 hrest).1 c hlate)
        rw [List.map_cons, List.nodup_cons] at hids
        exact absurd (hid ▸ List.mem_map_of_mem hlate) hids.2.1
      · exact heq

theorem seatRows_sorted : (A.seatRows seatId classId).Pairwise AttendanceSession.Sooner :=
  List.pairwise_insertionSort _ _

theorem Logged.seatRows_ids (h : Logged zones A now) :
    ((A.seatRows seatId classId).map (·.id)).Nodup := by
  have hnodup : (A.sessions.map (·.id)).Nodup := by
    rw [h.ids]
    exact List.nodup_range'
  have hsome : ((A.sessions.filter (fun r ↦ r.targetSeatId = seatId ∧ r.classId = classId)).map
      (·.id)).Nodup := (List.filter_sublist.map _).nodup hnodup
  exact ((List.perm_insertionSort _ _).map _).nodup_iff.2 hsome

theorem Logged.seatRows_steady (h : Logged zones A now) : Steady (A.seatRows seatId classId) := by
  apply steady_of_alternates seatRows_sorted h.seatRows_ids
  intro p hp q hq hpactive hqactive hlt
  obtain ⟨hp, hpseat, hpclass⟩ := AttendanceTables.mem_seatRows.1 hp
  obtain ⟨hq, hqseat, hqclass⟩ := AttendanceTables.mem_seatRows.1 hq
  obtain ⟨c, hc, hsame, hstatus, hbetween⟩ := h.alternates p hp q hq
    ⟨hpseat.trans hqseat.symm, hpclass.trans hqclass.symm⟩ hpactive hqactive hlt
  refine ⟨c, AttendanceTables.mem_seatRows.2 ⟨hc, ?_, ?_⟩, hstatus, hbetween⟩
  · exact hsame.1.trans hpseat
  · exact hsame.2.trans hpclass

theorem latestSeatEvent_last {e r : AttendanceSession}
    (he : A.latestSeatEvent seatId classId = some e) (hr : r ∈ A.seatRows seatId classId) :
    r.Sooner e := by
  obtain ⟨before, hbefore⟩ := List.getLast?_eq_some_iff.1 he
  have hsorted : (A.seatRows seatId classId).Pairwise AttendanceSession.Sooner := seatRows_sorted
  rw [hbefore] at hr hsorted
  rcases List.mem_append.1 hr with hr | hr
  · exact (List.pairwise_append.1 hsorted).2.2 r hr e List.mem_cons_self
  · rw [List.mem_singleton.1 hr]
    exact .refl e

end Rows

section Recording

variable {zone : ClassZone} {fold : String → String} {A A' : AttendanceTables}
  {ctx : ClassContext} {t : Instant} {request : SessionRequest}

/-- What a request appends: a row, and for a new session the closing row of the one under way. -/
theorem recordAttendanceSession_cases
    (h : recordAttendanceSession zone fold A ctx t request = .ok A') :
    ∃ actor code, let target := request.targetSeatId.getD ctx.seatId
      (request.status = .inactive ∧ A' = A.append (A.row ctx.classId t target actor
        request.mechanism .inactive code request.hallPassId)) ∨
      request.status = .active ∧ ∃ B, A' = B.append (B.row ctx.classId t target actor
          request.mechanism .active code request.hallPassId) ∧
        ((B = A ∧ ∀ e, A.latestSeatEvent target ctx.classId = some e → e.status = .inactive) ∨
          ∃ e, A.latestSeatEvent target ctx.classId = some e ∧ B = A.append (A.row ctx.classId
            (min t (dayEnd zone e.timestamp)) target actor request.mechanism .inactive .doneForDay
              none)) := by
  unfold recordAttendanceSession at h
  rw [require_bind_eq_ok, require_bind_eq_ok] at h
  simp only [demand_bind_eq_ok] at h
  obtain ⟨-, -, s, -, h⟩ := h
  rw [require_bind_eq_ok, require_bind_eq_ok, require_bind_eq_ok, require_bind_eq_ok] at h
  obtain ⟨-, -, -, -, h⟩ := h
  refine ⟨request.actorSeatId.getD ctx.seatId,
    (request.resolvedReasonCode fold).getD .startWork, ?_⟩
  cases hstatus : request.status with
  | inactive =>
    simp only [hstatus, pure_bind, List.append_nil] at h
    rw [pure_eq_ok] at h
    exact .inl ⟨rfl, h.symm⟩
  | active =>
    simp only [hstatus] at h
    rw [bind_eq_ok] at h
    obtain ⟨closing, hstart, h⟩ := h
    rw [pure_eq_ok] at h
    subst h
    refine .inr ⟨rfl, ?_⟩
    unfold startOfSession at hstart
    rw [require_bind_eq_ok] at hstart
    obtain ⟨-, hstart⟩ := hstart
    cases he : A.latestSeatEvent (request.targetSeatId.getD ctx.seatId) ctx.classId with
    | none =>
      rw [he, pure_eq_ok] at hstart
      subst hstart
      refine ⟨A, ?_, .inl ⟨rfl, fun e he' ↦ by cases he'⟩⟩
      rw [List.append_nil]
      rfl
    | some e =>
      rw [he] at hstart
      have hmem : e ∈ A.seatRows (request.targetSeatId.getD ctx.seatId) ctx.classId :=
        List.mem_of_getLast? he
      obtain ⟨-, hseat, hclass⟩ := AttendanceTables.mem_seatRows.1 hmem
      have hinactive : ¬ e.status = .active → ∀ e', some e = some e' → e'.status = .inactive := by
        rintro hnot e' ⟨⟩
        cases hs : e.status with
        | active => exact absurd hs hnot
        | inactive => rfl
      dsimp only at hstart
      split_ifs at hstart with hactive hpass
      · rw [pure_eq_ok] at hstart
        subst hstart
        rw [hseat, hclass]
        exact ⟨_, rfl, .inr ⟨e, rfl, rfl⟩⟩
      · rw [require_bind_eq_ok, require_bind_eq_ok, pure_eq_ok] at hstart
        obtain ⟨-, -, rfl⟩ := hstart
        refine ⟨A, ?_, .inl ⟨rfl, hinactive hactive⟩⟩
        rw [List.append_nil]
        rfl
      · rw [pure_eq_ok] at hstart
        subst hstart
        refine ⟨A, ?_, .inl ⟨rfl, hinactive hactive⟩⟩
        rw [List.append_nil]
        rfl

variable {zones : String → ClassZone}

theorem Logged.record (h : Logged zones A t) (hdays : ∀ c, DaysFollow (zones c))
    (hopens : request.status = .active → dayStart (zones ctx.classId) t ≤ t)
    (hok : recordAttendanceSession (zones ctx.classId) fold A ctx t request = .ok A') :
    Logged zones A' t := by
  obtain ⟨actor, code, ⟨hstatus, rfl⟩ | ⟨hstatus, B, rfl, hB⟩⟩ := recordAttendanceSession_cases hok
  · exact h.close rfl le_rfl rfl
  · rcases hB with ⟨rfl, hlatest⟩ | ⟨e, he, rfl⟩
    · refine h.start rfl rfl (hopens hstatus) ?_
      intro p hp hsame hpactive hlt
      have hmem : p ∈ B.seatRows (request.targetSeatId.getD ctx.seatId) ctx.classId :=
        AttendanceTables.mem_seatRows.2 ⟨hp, hsame⟩
      cases hlast : B.latestSeatEvent (request.targetSeatId.getD ctx.seatId) ctx.classId with
      | none =>
        rw [AttendanceTables.latestSeatEvent, List.getLast?_eq_none_iff] at hlast
        rw [hlast] at hmem
        cases hmem
      | some e =>
        obtain ⟨he, heseat, heclass⟩ := AttendanceTables.mem_seatRows.1 (List.mem_of_getLast? hlast)
        refine ⟨e, he, ?_, hlatest e hlast, latestSeatEvent_last hlast hmem, ?_⟩
        · exact ⟨heseat.trans hsame.1.symm, heclass.trans hsame.2.symm⟩
        · exact h.sooner_new rfl he (h.times e he)
    · have hclosing := h.close (x := A.row ctx.classId
        (min t (dayEnd (zones ctx.classId) e.timestamp)) (request.targetSeatId.getD ctx.seatId)
          actor request.mechanism .inactive .doneForDay none) rfl (min_le_left _ _) rfl
      refine hclosing.start rfl rfl (hopens hstatus) ?_
      intro p hp hsame hpactive hlt
      have hp' : p ∈ A.sessions := by
        rcases List.mem_append.1 hp with hp | hp
        · exact hp
        · rw [List.mem_singleton.1 hp] at hpactive
          cases hpactive
      have hmem : p ∈ A.seatRows (request.targetSeatId.getD ctx.seatId) ctx.classId :=
        AttendanceTables.mem_seatRows.2 ⟨hp', hsame⟩
      have hpe := latestSeatEvent_last he hmem
      have he' := (AttendanceTables.mem_seatRows.1 (List.mem_of_getLast? he)).1
      refine ⟨_, List.mem_append_right _ List.mem_cons_self, ⟨hsame.1.symm, hsame.2.symm⟩, rfl,
        ?_, ?_⟩
      · apply hpe.trans
        apply h.sooner_new rfl he'
        exact le_min (h.times e he') ((hdays ctx.classId).ends e.timestamp).le
      · apply hclosing.sooner_new rfl (List.mem_append_right _ List.mem_cons_self)
        exact min_le_left _ _

end Recording

section Closing

variable {zone : ClassZone} {rows : List AttendanceSession} {now : Instant}

theorem sessionsFrom_opening {o : AttendanceSession} :
    ∃ s ∈ sessionsFrom (some o) rows, s.1 = o ∧ ∀ c ∈ s.2, c ∈ rows ∧ c.status = .inactive := by
  induction rows with
  | nil => exact ⟨(o, none), List.mem_cons_self, rfl, nofun⟩
  | cons row rows ih =>
    cases hstatus : row.status with
    | active =>
      simp only [sessionsFrom, hstatus]
      obtain ⟨s, hs, hopen, hcloses⟩ := ih
      refine ⟨s, hs, hopen, ?_⟩
      intro c hc
      exact ⟨List.mem_cons_of_mem row (hcloses c hc).1, (hcloses c hc).2⟩
    | inactive =>
      simp only [sessionsFrom, hstatus]
      refine ⟨(o, some row), List.mem_cons_self, rfl, ?_⟩
      intro c hc
      obtain rfl := Option.some.inj hc
      exact ⟨List.mem_cons_self, hstatus⟩

/-- Every `active` row belongs to a session that starts with it and ends after it. -/
theorem sessionsFrom_covers {opening : Option AttendanceSession} (hsteady : Steady rows)
    (hsorted : rows.Pairwise AttendanceSession.Sooner) (hfollows : Follows opening rows)
    {p : AttendanceSession} (hp : p ∈ rows) (hactive : p.status = .active) :
    ∃ s ∈ sessionsFrom opening rows, s.1.timestamp = p.timestamp ∧
      ∀ c ∈ s.2, c ∈ rows ∧ c.status = .inactive ∧ p.Sooner c := by
  induction rows generalizing opening with
  | nil => cases hp
  | cons row rows ih =>
    obtain ⟨hfirst, hrest⟩ := List.pairwise_cons.1 hsorted
    -- the session that the head leaves under way covers the head and what follows it
    have hhead : ∀ o, row.status = .active → row.timestamp = o.timestamp →
        ∃ s ∈ sessionsFrom (some o) rows, s.1.timestamp = p.timestamp ∧
          ∀ c ∈ s.2, c ∈ row :: rows ∧ c.status = .inactive ∧ p.Sooner c := by
      intro o hstatus htime
      rcases List.mem_cons.1 hp with rfl | hp
      · obtain ⟨s, hs, rfl, hcloses⟩ := @sessionsFrom_opening rows o
        refine ⟨s, hs, htime.symm, ?_⟩
        intro c hc
        obtain ⟨hmem, hinactive⟩ := hcloses c hc
        exact ⟨List.mem_cons_of_mem _ hmem, hinactive, hfirst c hmem⟩
      · obtain ⟨s, hs, hopen, hcloses⟩ :=
          ih hsteady.tail hrest (hsteady.follows hstatus htime) hp
        refine ⟨s, hs, hopen, ?_⟩
        intro c hc
        exact ⟨List.mem_cons_of_mem row (hcloses c hc).1, (hcloses c hc).2⟩
    cases hstatus : row.status with
    | active =>
      cases opening with
      | none =>
        simp only [sessionsFrom, hstatus]
        exact hhead row hstatus rfl
      | some o =>
        simp only [sessionsFrom, hstatus]
        exact hhead o hstatus (hfollows o rfl row rfl hstatus)
    | inactive =>
      have hmem : p ∈ rows := by
        rcases List.mem_cons.1 hp with rfl | hp
        · rw [hstatus] at hactive
          cases hactive
        · exact hp
      obtain ⟨s, hs, hopen, hcloses⟩ := ih hsteady.tail hrest follows_none hmem
      refine ⟨s, ?_, hopen, ?_⟩
      · cases opening with
        | none => simpa only [sessionsFrom, hstatus] using hs
        | some o =>
          simp only [sessionsFrom, hstatus]
          exact List.mem_cons_of_mem _ hs
      · intro c hc
        exact ⟨List.mem_cons_of_mem row (hcloses c hc).1, (hcloses c hc).2⟩

theorem dueAt_bounds (hzone : ∀ t, t < dayEnd zone t) (limit : Option ℤ)
    (intervals : List AttendanceInterval) (i : AttendanceInterval) :
    i.openedAt ≤ dueAt zone limit intervals i ∧
      dueAt zone limit intervals i ≤ dayEnd zone i.openedAt := by
  have hday := hzone i.openedAt
  unfold dueAt
  split
  · exact ⟨hday.le, le_rfl⟩
  · dsimp only
    split_ifs
    · exact ⟨hday.le, le_rfl⟩
    · exact ⟨by lia, min_le_left _ _⟩

variable {zones : String → ClassZone} {fold : String → String} {limit : Instant → Option ℤ}
  {ctx : ClassContext} {seatId : ℕ} {asOf : Instant} {A A' : AttendanceTables}
  {intervals todo : List AttendanceInterval}

structure Closures (zone : ClassZone) (limit : Instant → Option ℤ) (ctx : ClassContext)
    (seatId : ℕ) (asOf : Instant) (intervals todo : List AttendanceInterval)
    (A A' : AttendanceTables) : Prop where
  kept : A.sessions ⊆ A'.sessions
  closing : ∀ r ∈ A'.sessions, r.status = .active → r ∈ A.sessions
  seats : A'.seats = A.seats
  done : ∀ i ∈ todo, i.closingEventId = none → dueAt zone (limit i.openedAt) intervals i ≤ asOf →
    ∃ c ∈ A'.sessions, c.targetSeatId = seatId ∧ c.classId = ctx.classId ∧ c.status = .inactive ∧
      c.timestamp = dueAt zone (limit i.openedAt) intervals i ∧ A.sessions.length < c.id

theorem Logged.closeIntervals (h : Logged zones A now) (hasOf : asOf ≤ now)
    (hok : closeIntervals (zones ctx.classId) fold limit ctx seatId asOf intervals todo A =
      .ok A') :
    Logged zones A' now ∧
      Closures (zones ctx.classId) limit ctx seatId asOf intervals todo A A' := by
  induction todo generalizing A with
  | nil =>
    obtain rfl := Except.ok.inj hok
    exact ⟨h, List.Subset.refl _, fun r hr _ ↦ hr, rfl, nofun⟩
  | cons i todo ih =>
    rw [Attendance.closeIntervals] at hok
    dsimp only at hok
    split_ifs at hok with hdue
    · rw [bind_eq_ok] at hok
      obtain ⟨B, hB, hok⟩ := hok
      obtain ⟨actor, code, hcases⟩ := recordAttendanceSession_cases hB
      obtain ⟨-, rfl⟩ := hcases.resolve_right (fun hactive ↦ by cases hactive.1)
      have hlen : ∀ x, (A.append x).sessions.length = A.sessions.length + 1 :=
        fun x ↦ List.length_append
      obtain ⟨hlogged, hrest⟩ := ih (h.close rfl (hdue.2.trans hasOf) rfl) hok
      refine ⟨hlogged, List.Subset.trans (List.subset_append_left _ _) hrest.kept, ?_, hrest.seats, ?_⟩
      · intro r hr hactive
        rcases List.mem_append.1 (hrest.closing r hr hactive) with hr | hr
        · exact hr
        · rw [List.mem_singleton.1 hr] at hactive
          cases hactive
      · intro j hj hopen hj'
        rcases List.mem_cons.1 hj with rfl | hj
        · exact ⟨_, hrest.kept (List.mem_append_right _ List.mem_cons_self), rfl, rfl, rfl, rfl,
            Nat.lt_succ_self _⟩
        · obtain ⟨c, hc, hseat, hclass, hstatus, htime, hid⟩ := hrest.done j hj hopen hj'
          rw [hlen] at hid
          exact ⟨c, hc, hseat, hclass, hstatus, htime, by omega⟩
    · rw [pure_bind] at hok
      obtain ⟨hlogged, hrest⟩ := ih h hok
      refine ⟨hlogged, hrest.kept, hrest.closing, hrest.seats, ?_⟩
      intro j hj hopen hj'
      rcases List.mem_cons.1 hj with rfl | hj
      · exact absurd ⟨by rw [hopen]; rfl, hj'⟩ hdue
      · exact hrest.done j hj hopen hj'

def DayEndsClosed (zone : ClassZone) (A : AttendanceTables) (seatId : ℕ) (classId : String)
    (asOf : Instant) : Prop :=
  ∀ p ∈ A.seatRows seatId classId, p.status = .active → dayEnd zone p.timestamp ≤ asOf →
    ∃ c ∈ A.seatRows seatId classId, c.status = .inactive ∧ p.Sooner c ∧
      c.timestamp ≤ dayEnd zone p.timestamp

theorem Logged.closeDue (h : Logged zones A now) (hasOf : asOf ≤ now)
    (hok : closeDueAttendanceIntervals (zones ctx.classId) fold limit A ctx seatId asOf = .ok A') :
    Logged zones A' now := by
  rw [closeDueAttendanceIntervals, require_bind_eq_ok] at hok
  exact (h.closeIntervals hasOf hok.2).1

theorem Logged.closeDue_closed (h : Logged zones A now) (hdays : ∀ c, DaysFollow (zones c))
    (hok : closeDueAttendanceIntervals (zones ctx.classId) fold limit A ctx seatId now = .ok A') :
    DayEndsClosed (zones ctx.classId) A' seatId ctx.classId now := by
  have hends := (hdays ctx.classId).ends
  have hsteady : Steady (A.seatRows seatId ctx.classId) := h.seatRows_steady
  have hpast : ∀ r ∈ A.seatRows seatId ctx.classId, r.timestamp ≤ now :=
    fun r hr ↦ h.times r (AttendanceTables.mem_seatRows.1 hr).1
  rw [closeDueAttendanceIntervals, require_bind_eq_ok] at hok
  obtain ⟨-, hclosures⟩ := h.closeIntervals le_rfl hok.2
  rw [listAttendanceIntervals_steady hends hsteady hpast seatRows_sorted] at hclosures
  intro p hp hactive hover
  obtain ⟨hp', hseat, hclass⟩ := AttendanceTables.mem_seatRows.1 hp
  have hold : p ∈ A.sessions := hclosures.closing p hp' hactive
  have hrow : p ∈ A.seatRows seatId ctx.classId :=
    AttendanceTables.mem_seatRows.2 ⟨hold, hseat, hclass⟩
  obtain ⟨s, hs, htime, hcloses⟩ :=
    sessionsFrom_covers hsteady seatRows_sorted follows_none hrow hactive
  have hmem := List.mem_map_of_mem (f := canonicalInterval (zones ctx.classId) now) hs
  have hopened : (canonicalInterval (zones ctx.classId) now s).openedAt = p.timestamp :=
    (congrArg Prod.fst canonicalInterval_span).trans htime
  -- a session that the log leaves open past its day is closed by the loop
  have hclosed : (canonicalInterval (zones ctx.classId) now s).closingEventId = none →
      ∃ c ∈ A'.seatRows seatId ctx.classId, c.status = .inactive ∧ p.Sooner c ∧
        c.timestamp ≤ dayEnd (zones ctx.classId) p.timestamp := by
    intro hopen
    have hbounds := dueAt_bounds hends (limit (canonicalInterval (zones ctx.classId) now s).openedAt)
      ((sessionsFrom none (A.seatRows seatId ctx.classId)).map
        (canonicalInterval (zones ctx.classId) now)) (canonicalInterval (zones ctx.classId) now s)
    obtain ⟨c, hc, hcseat, hcclass, hstatus, hctime, hid⟩ := hclosures.done _ hmem hopen
      (hbounds.2.trans (by rwa [hopened]))
    rw [← hctime, hopened] at hbounds
    refine ⟨c, AttendanceTables.mem_seatRows.2 ⟨hc, hcseat, hcclass⟩, hstatus, ?_, hbounds.2⟩
    have hle := h.id_le hold
    rcases hbounds.1.lt_or_eq with hlt | heq
    · exact .inl hlt
    · exact .inr ⟨heq, by omega⟩
  obtain ⟨o, c⟩ := s
  cases c with
  | none => exact hclosed rfl
  | some c =>
    obtain ⟨hc, hstatus, hsooner⟩ := hcloses c rfl
    obtain ⟨hc, hcseat, hcclass⟩ := AttendanceTables.mem_seatRows.1 hc
    by_cases hlate : dayEnd (zones ctx.classId) o.timestamp < c.timestamp
    · apply hclosed
      simp only [canonicalInterval, if_pos hlate]
      rfl
    · refine ⟨c, AttendanceTables.mem_seatRows.2 ⟨hclosures.kept hc, hcseat, hcclass⟩, hstatus,
        hsooner, ?_⟩
      rw [← htime]
      exact not_lt.1 hlate

theorem DaysFollow.dayEnd_mono {t u : Instant} (h : DaysFollow zone) (ht : dayStart zone t ≤ t)
    (hlt : t < dayEnd zone u) : dayEnd zone t ≤ dayEnd zone u := by
  have hdates : zone.localDate t < zone.localDate u + 1 := h.starts.reflect_lt (ht.trans_lt hlt)
  exact h.starts (by omega)

theorem Logged.appendHangingPassClosure (h : Logged zones A now) (hdays : ∀ c, DaysFollow (zones c))
    (hclosed : DayEndsClosed (zones ctx.classId) A seatId ctx.classId now)
    {e : AttendanceSession} (hseat : e.targetSeatId = seatId) (hclass : e.classId = ctx.classId)
    (hover : dayEnd (zones ctx.classId) e.timestamp ≤ now) :
    Logged zones (appendHangingPassClosure (zones ctx.classId) A ctx e) now ∧
      DayEndsClosed (zones ctx.classId) (appendHangingPassClosure (zones ctx.classId) A ctx e)
        seatId ctx.classId now := by
  have hends := (hdays ctx.classId).ends
  set zone := zones ctx.classId with hzone
  set o := A.row e.classId (dayEnd zone e.timestamp) e.targetSeatId ctx.seatId .system .active
    .startWork e.hallPassId with ho
  set B := A.append o with hB
  set r := B.row e.classId (dayEnd zone e.timestamp) e.targetSeatId ctx.seatId .system .inactive
    .doneForDay none with hr
  have hlen : B.sessions.length = A.sessions.length + 1 := List.length_append
  have hlogged : Logged zones (B.append r) now := by
    refine h.endPass rfl ?_ ⟨rfl, rfl⟩ rfl rfl hover ?_ ?_
    · simp only [hr, AttendanceTables.row, AttendanceTables.nextSessionId, hlen]
    · show dayStart (zones e.classId) (dayEnd zone e.timestamp) ≤ dayEnd zone e.timestamp
      rw [hclass, ← hzone]
      exact (zone.startOfDate_localDate _).le
    · intro p hp hsame hactive hlt
      have hrow : p ∈ A.seatRows seatId ctx.classId :=
        AttendanceTables.mem_seatRows.2 ⟨hp, hsame.1.trans hseat, hsame.2.trans hclass⟩
      have hopens := h.opens p hp hactive
      rw [hsame.2.trans hclass] at hopens
      have hle : dayEnd zone p.timestamp ≤ dayEnd zone e.timestamp :=
        (hdays ctx.classId).dayEnd_mono hopens hlt
      obtain ⟨c, hc, hstatus, hsooner, htime⟩ := hclosed p hrow hactive (hle.trans hover)
      obtain ⟨hc, hcseat, hcclass⟩ := AttendanceTables.mem_seatRows.1 hc
      refine ⟨c, hc, ⟨?_, ?_⟩, hstatus, hsooner, h.sooner_new rfl hc (htime.trans hle)⟩
      · exact hcseat.trans (hseat.symm.trans hsame.1.symm)
      · exact hcclass.trans (hclass.symm.trans hsame.2.symm)
  refine ⟨hlogged, ?_⟩
  have hkept : ∀ q ∈ A.seatRows seatId ctx.classId, q ∈ (B.append r).seatRows seatId ctx.classId := by
    intro q hq
    obtain ⟨hq, hsame⟩ := AttendanceTables.mem_seatRows.1 hq
    exact AttendanceTables.mem_seatRows.2
      ⟨List.mem_append_left _ (List.mem_append_left _ hq), hsame⟩
  intro p hp hactive hpover
  obtain ⟨hp, hsame⟩ := AttendanceTables.mem_seatRows.1 hp
  rcases List.mem_append.1 hp with hp | hp
  · rcases List.mem_append.1 hp with hp | hp
    · obtain ⟨c, hc, hclosing⟩ :=
        hclosed p (AttendanceTables.mem_seatRows.2 ⟨hp, hsame⟩) hactive hpover
      exact ⟨c, hkept c hc, hclosing⟩
    · rw [List.mem_singleton.1 hp]
      refine ⟨r, ?_, rfl, .inr ⟨rfl, ?_⟩, (hends _).le⟩
      · exact AttendanceTables.mem_seatRows.2
          ⟨List.mem_append_right _ List.mem_cons_self, hseat, hclass⟩
      · simp only [hr, AttendanceTables.row, AttendanceTables.nextSessionId, hlen]
        omega
  · rw [List.mem_singleton.1 hp] at hactive
    cases hactive

theorem Logged.closeHanging (h : Logged zones A now) (hdays : ∀ c, DaysFollow (zones c))
    (hclosed : DayEndsClosed (zones ctx.classId) A seatId ctx.classId now)
    (hok : closeDueHangingHallPass (zones ctx.classId) A ctx seatId now = .ok A') :
    Logged zones A' now := by
  rw [closeDueHangingHallPass, require_bind_eq_ok, pure_eq_ok] at hok
  obtain ⟨-, rfl⟩ := hok
  have hexits : ∀ e ∈ hangingExits (zones ctx.classId) A ctx seatId now,
      e.targetSeatId = seatId ∧ e.classId = ctx.classId ∧
        dayEnd (zones ctx.classId) e.timestamp ≤ now := by
    intro e he
    obtain ⟨he, hhanging⟩ := List.mem_filter.1 he
    obtain ⟨-, hseat, hclass⟩ :=
      AttendanceTables.mem_seatRows.1 (List.mem_of_mem_filter he)
    exact ⟨hseat, hclass, (of_decide_eq_true hhanging).2.2⟩
  revert hexits
  generalize hangingExits (zones ctx.classId) A ctx seatId now = exits
  intro hexits
  induction exits generalizing A with
  | nil => exact h
  | cons e exits ih =>
    obtain ⟨hseat, hclass, hover⟩ := hexits e List.mem_cons_self
    obtain ⟨hnext, hnextClosed⟩ := h.appendHangingPassClosure hdays hclosed hseat hclass hover
    exact ih hnext hnextClosed (fun e' he' ↦ hexits e' (List.mem_cons_of_mem e he'))

theorem Logged.enforce (h : Logged zones A now) (hdays : ∀ c, DaysFollow (zones c))
    (hok : enforceDailyLimit (zones ctx.classId) fold limit A ctx seatId now = .ok A') :
    Logged zones A' now := by
  unfold enforceDailyLimit at hok
  dsimp only at hok
  split_ifs at hok
  · rw [bind_eq_ok] at hok
    obtain ⟨B, hB, hok⟩ := hok
    exact (h.closeDue le_rfl hB).closeHanging hdays (h.closeDue_closed hdays hB) hok
  · rw [pure_eq_ok] at hok
    exact hok ▸ h

end Closing

section System

/-- What writes the attendance log. The daily limits that a job reads are those of the payroll
settings at the time; seats may be claimed, unclaimed and changed in any way. -/
inductive AttendanceAction
  | record (ctx : ClassContext) (request : SessionRequest)
  | enforce (limit : Instant → Option ℤ) (ctx : ClassContext) (seatId : ℕ)
  | settle (limit : Instant → Option ℤ) (ctx : ClassContext) (seatId : ℕ) (asOf : Instant)
  | reseat (seats : List Seat)

structure AttendanceState extends AttendanceTables where
  clock : Instant

variable (zones : String → ClassZone) (fold : String → String)

def attendanceCommand (A : AttendanceTables) (t : Instant) :
    AttendanceAction → Except Raise AttendanceTables
  | .record ctx request => recordAttendanceSession (zones ctx.classId) fold A ctx t request
  | .enforce limit ctx seatId => enforceDailyLimit (zones ctx.classId) fold limit A ctx seatId t
  | .settle limit ctx seatId asOf =>
    closeDueAttendanceIntervals (zones ctx.classId) fold limit A ctx seatId asOf
  | .reseat seats => .ok { A with seats := seats }

def attendanceStep (S : AttendanceState) (step : Instant × AttendanceAction) : AttendanceState :=
  match attendanceCommand zones fold S.toAttendanceTables step.1 step.2 with
  | .ok A => ⟨A, step.1⟩
  | .error _ => { S with clock := step.1 }

/-- Time does not run backwards, and a payroll run settles up to an instant that has passed. -/
def Timely (S : AttendanceState) (step : Instant × AttendanceAction) : Prop :=
  S.clock ≤ step.1 ∧ ∀ limit ctx seatId asOf, step.2 = .settle limit ctx seatId asOf →
    asOf ≤ step.1

/-- Work does not start before the class day of its date does, as it would in the first of two
passes of the clock through the hour after midnight. -/
def StartsInItsDay (step : Instant × AttendanceAction) : Prop :=
  ∀ ctx request, step.2 = .record ctx request → request.status = .active →
    dayStart (zones ctx.classId) step.1 ≤ step.1

variable {zones fold} {S : AttendanceState} {step : Instant × AttendanceAction}

theorem Logged.stepped (h : Logged zones S.toAttendanceTables S.clock)
    (hdays : ∀ c, DaysFollow (zones c)) (htimely : Timely S step)
    (hstarts : StartsInItsDay zones step) :
    Logged zones (attendanceStep zones fold S step).toAttendanceTables
      (attendanceStep zones fold S step).clock := by
  obtain ⟨t, action⟩ := step
  have hnow := h.mono htimely.1
  unfold attendanceStep
  cases hcommand : attendanceCommand zones fold S.toAttendanceTables t action with
  | error e => exact hnow
  | ok A' =>
    dsimp only
    cases action with
    | record ctx request => exact hnow.record hdays (hstarts ctx request rfl) hcommand
    | enforce limit ctx seatId => exact hnow.enforce hdays hcommand
    | settle limit ctx seatId asOf =>
      exact hnow.closeDue (htimely.2 limit ctx seatId asOf rfl) hcommand
    | reseat seats =>
      obtain rfl := Except.ok.inj hcommand
      exact ⟨hnow.ids, hnow.times, hnow.opens, hnow.alternates⟩

theorem attendanceStep_clock : (attendanceStep zones fold S step).clock = step.1 := by
  unfold attendanceStep
  split <;> rfl

/-- The time worked on a day is the same in every reading, after every run in which no work starts
before its own class day does. -/
theorem worked_time_reads_alike (zones : String → ClassZone) (hdays : ∀ c, DaysFollow (zones c))
    (fold : String → String) (seats : List Seat) (start : Instant)
    (steps : List (Instant × AttendanceAction))
    (htimely : AllAlong Timely (attendanceStep zones fold) ⟨⟨seats, []⟩, start⟩ steps)
    (hstarts : ∀ step ∈ steps, StartsInItsDay zones step) :
    let S := run (attendanceStep zones fold) ⟨⟨seats, []⟩, start⟩ steps
    ∀ seatId classId date now, S.clock ≤ now →
      let rows := S.seatRows seatId classId
      calculateWorkedAttendanceSecondsForDate (zones classId) rows now date =
          elapsedAttendanceSeconds
            ((intervalsOpenedOn (zones classId) rows now date).map (·.span)) ∧
        calculateWorkedAttendanceSecondsToday (zones classId) rows now =
          elapsedAttendanceSeconds ((intervalsOpenedOn (zones classId) rows now
            ((zones classId).localDate now)).map (·.span)) := by
  intro S seatId classId date now hnow
  have hinitial : Logged zones ⟨seats, []⟩ start := ⟨rfl, nofun, nofun, nofun⟩
  have hlogged : Logged zones S.toAttendanceTables S.clock :=
    (htimely.and_forall hstarts).invariant (I := fun S ↦ Logged zones S.toAttendanceTables S.clock)
      hinitial (fun S step hS h ↦ hS.stepped hdays h.1 h.2)
  have hagree : ∀ d, calculateWorkedAttendanceSecondsForDate (zones classId)
      (S.seatRows seatId classId) now d = elapsedAttendanceSeconds
        ((intervalsOpenedOn (zones classId) (S.seatRows seatId classId) now d).map (·.span)) := by
    intro d
    apply seconds_agree (hdays classId) d hlogged.seatRows_steady seatRows_sorted hlogged.seatRows_ids
    · intro r hr
      exact (hlogged.times r (AttendanceTables.mem_seatRows.1 hr).1).trans hnow
    · intro r hr hactive
      obtain ⟨hr, -, hclass⟩ := AttendanceTables.mem_seatRows.1 hr
      exact hclass ▸ hlogged.opens r hr hactive
  exact ⟨hagree date, hagree _⟩

section Sample

theorem fallBackZone_daysFollow : DaysFollow fallBackZone where
  starts := by
    intro d e hle
    have h : ∀ d e : ℤ, d ≤ e → fallBackMidnight d ≤ fallBackMidnight e := by
      intro d e hle
      rw [fallBackMidnight, fallBackMidnight]
      split_ifs <;> omega
    exact h d e hle
  ends := fallBackZone_dayEnd

def claimedSeat : Seat := ⟨1, "math", "student", some 0, some 7⟩

def startWork : AttendanceAction :=
  .record ⟨"math", 1⟩ ⟨.active, none, none, .self, none, none, none⟩

def stopWork : AttendanceAction :=
  .record ⟨"math", 1⟩ ⟨.inactive, none, none, .self, some "done", some .doneForDay, none⟩

/-- Work from two to three o'clock, and work on the next day that the job closes at its end. -/
theorem worked_time_reads_alike_overnight :
    let steps : List (Instant × AttendanceAction) :=
      [(7200000000, startWork), (10800000000, stopWork), (97200000000, startWork),
        (180000000000, .enforce (fun _ ↦ some 3600) ⟨"math", 1⟩ 1)]
    let S := run (attendanceStep (fun _ ↦ fallBackZone) id) ⟨⟨[claimedSeat], []⟩, 0⟩ steps
    calculateWorkedAttendanceSecondsForDate fallBackZone (S.seatRows 1 "math") 180000000000 1 =
        elapsedAttendanceSeconds
          ((intervalsOpenedOn fallBackZone (S.seatRows 1 "math") 180000000000 1).map (·.span)) ∧
      calculateWorkedAttendanceSecondsForDate fallBackZone (S.seatRows 1 "math") 180000000000 1 =
        .ok 3600 := by
  intro steps S
  have htimely : AllAlong Timely (attendanceStep (fun _ ↦ fallBackZone) id)
      ⟨⟨[claimedSeat], []⟩, 0⟩ steps := by
    refine ⟨⟨by decide, nofun⟩, ⟨?_, nofun⟩, ⟨?_, nofun⟩, ⟨?_, nofun⟩, trivial⟩ <;>
      rw [attendanceStep_clock] <;> decide
  have hstarts : ∀ step ∈ steps, StartsInItsDay (fun _ ↦ fallBackZone) step := by
    intro step hstep ctx request _ _
    have h : ∀ step ∈ steps, dayStart fallBackZone step.1 ≤ step.1 := by
      intro step hstep
      simp only [steps, List.mem_cons, List.not_mem_nil, or_false] at hstep
      rcases hstep with rfl | rfl | rfl | rfl <;> decide
    exact h step hstep
  have hclock : S.clock = 180000000000 := by
    simp only [S, steps, run_cons, run_nil, attendanceStep_clock]
  have h := worked_time_reads_alike (fun _ ↦ fallBackZone) (fun _ ↦ fallBackZone_daysFollow) id
    [claimedSeat] 0 steps htimely hstarts 1 "math" 1 180000000000 hclock.le
  exact ⟨h.1, by decide +kernel⟩

/-- Work started at half past midnight, before the clock went back to midnight: none of it is
counted on its own day, and half an hour on the day before. -/
theorem repeated_hour_counts_elsewhere :
    let S := run (attendanceStep (fun _ ↦ fallBackZone) id) ⟨⟨[claimedSeat], []⟩, 0⟩
      [(1800000000, startWork), (7200000000, stopWork)]
    let rows := S.seatRows 1 "math"
    fallBackZone.localDate 1800000000 = 0 ∧
      calculateWorkedAttendanceSecondsForDate fallBackZone rows 9000000000 0 = .ok 0 ∧
      calculateWorkedAttendanceSecondsToday fallBackZone rows 9000000000 = .ok 0 ∧
      elapsedAttendanceSeconds
        ((intervalsOpenedOn fallBackZone rows 9000000000 0).map (·.span)) = .ok 5400 ∧
      calculateWorkedAttendanceSecondsForDate fallBackZone rows 9000000000 (-1) = .ok 1800 ∧
      elapsedAttendanceSeconds
        ((intervalsOpenedOn fallBackZone rows 9000000000 (-1)).map (·.span)) = .ok 0 := by
  decide +kernel

end Sample

end System

end TokenHub.Attendance
