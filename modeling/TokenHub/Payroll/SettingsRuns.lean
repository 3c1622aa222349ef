import TokenHub.Payroll.Settings

set_option autoImplicit false

namespace TokenHub.Payroll

open Ledger Rent Insurance Lib.Checks Lib.Runs Lib.Search Lib.Ordered

variable {zone : PaydayZone} {T T' : SettingsTables} {classId : String} {now t : Instant}
  {row r : PayrollSetting} {data : SettingsData}

section Orders

instance : Std.Total NewestFirst where
  total a b := by unfold NewestFirst; grind

instance : IsTrans PayrollSetting NewestFirst where
  trans a b c hab hbc := by unfold NewestFirst at *; grind

instance : Std.Total OldestFirst where
  total a b := by unfold OldestFirst; grind

instance : IsTrans PayrollSetting OldestFirst where
  trans a b c hab hbc := by unfold OldestFirst at *; grind

theorem mem_effectiveAt {settings : List PayrollSetting}
    (h : payrollSettingEffectiveAt settings classId t = some r) :
    r ∈ settings ∧ r.classId = classId ∧ r.effectiveDate ≤ t := by
  obtain ⟨hmem, hr⟩ := List.mem_filter.1 (mem_of_firstBy h)
  exact ⟨hmem, of_decide_eq_true hr⟩

/-- The setting in force is none that another one of its date was saved after. -/
theorem effectiveAt_latest {settings : List PayrollSetting}
    (h : payrollSettingEffectiveAt settings classId t = some r) {q : PayrollSetting}
    (hq : q ∈ settings) (hclass : q.classId = classId) (hdate : q.effectiveDate = r.effectiveDate) :
    q.createdAt ≤ r.createdAt := by
  obtain ⟨-, -, hle⟩ := mem_effectiveAt h
  have hmem : q ∈ settings.filter (fun r ↦ r.classId = classId ∧ r.effectiveDate ≤ t) :=
    List.mem_filter.2 ⟨hq, decide_eq_true ⟨hclass, hdate.trans_le hle⟩⟩
  rcases firstBy_le h hmem with rfl | hle
  · exact le_rfl
  · rcases hle with hlt | ⟨-, hle⟩
    · exact absurd hdate hlt.ne
    · exact hle

end Orders

section Boundary

theorem nextPayrollBoundaryAfter_lt {b : Instant}
    (h : nextPayrollBoundaryAfter zone T classId now = .ok (some b)) : now < b := by
  rw [nextPayrollBoundaryAfter, bind_eq_ok] at h
  obtain ⟨boundary, -, h⟩ := h
  by_cases hahead : boundary.all (fun b ↦ decide (now < b)) = true
  · rw [if_pos hahead, pure_eq_ok] at h
    subst h
    simpa using hahead
  · rw [if_neg hahead] at h
    cases hsetting : payrollSettingEffectiveAt T.settings classId now with
    | none =>
      simp only [hsetting, pure_eq_ok] at h
      cases h
    | some setting =>
      simp only [hsetting, bind_eq_ok, pure_eq_ok, Option.some.injEq] at h
      obtain ⟨next, hnext, rfl⟩ := h
      obtain ⟨n, -, hleast⟩ := firstIndexAfterWithin_spec zone (setting.anchor zone)
        (payCadence setting.payScheduleType) maxBoundarySteps (by decide) now
      rw [firstBoundaryAfter_eq _ _ _ hleast, Except.ok.injEq] at hnext
      rw [← hnext]
      exact hleast.1

theorem effectiveDateForNewSetting_ok {e : Instant}
    (h : effectiveDateForNewSetting zone T classId now = .ok e) :
    (payrollSettingEffectiveAt T.settings classId now = none ∧ e = now) ∨
      ((payrollSettingEffectiveAt T.settings classId now).isSome ∧ now < e) := by
  unfold effectiveDateForNewSetting at h
  by_cases hnone : (payrollSettingEffectiveAt T.settings classId now).isNone = true
  · rw [if_pos hnone, pure_eq_ok] at h
    exact .inl ⟨Option.isNone_iff_eq_none.1 hnone, h.symm⟩
  · rw [if_neg hnone, bind_eq_ok] at h
    obtain ⟨boundary, hboundary, h⟩ := h
    rw [demand_eq_ok] at h
    rw [h] at hboundary
    refine .inr ⟨?_, nextPayrollBoundaryAfter_lt hboundary⟩
    rw [Option.isNone_iff_eq_none] at hnone
    exact Option.isSome_iff_ne_none.2 hnone

end Boundary

section Save

structure Saved (T : SettingsTables) (classId : String) (now : Instant) (row : PayrollSetting)
    (T' : SettingsTables) : Prop where
  tables : T' = { T with settings := T.settings ++ [row] }
  ofClass : row.classId = classId
  createdAt : row.createdAt = now
  alone : ∀ r ∈ T.settings, ¬ (r.classId = classId ∧ r.effectiveDate = row.effectiveDate ∧
    r.createdAt = now)
  boundary : (payrollSettingEffectiveAt T.settings classId now = none ∧ row.effectiveDate = now) ∨
    ((payrollSettingEffectiveAt T.settings classId now).isSome ∧ now < row.effectiveDate)

theorem savePayrollSetting_ok
    (h : savePayrollSetting zone T classId data now = .ok (row, T')) :
    Saved T classId now row T' := by
  rw [savePayrollSetting, require_bind_eq_ok, bind_eq_ok] at h
  obtain ⟨-, e, he, h⟩ := h
  rw [appendPayrollSetting, require_bind_eq_ok] at h
  simp only [demand_bind_eq_ok] at h
  obtain ⟨-, first, -, type, -, h⟩ := h
  rw [require_bind_eq_ok] at h
  simp only [demand_bind_eq_ok] at h
  obtain ⟨-, rate, -, h⟩ := h
  rw [require_bind_eq_ok, pure_eq_ok, Prod.mk.injEq] at h
  obtain ⟨halone, rfl, rfl⟩ := h
  exact ⟨rfl, rfl, rfl, halone, effectiveDateForNewSetting_ok he⟩

structure KeepsThePast (T : SettingsTables) (classId : String) (now : Instant)
    (row : PayrollSetting) (T' : SettingsTables) : Prop where
  first : (∀ r ∈ T.settings, r.classId ≠ classId) → row.effectiveDate = now
  later : (∃ r ∈ T.settings, r.classId = classId) → now < row.effectiveDate
  effectiveAt : ∀ t < row.effectiveDate, payrollSettingEffectiveAt T'.settings classId t =
    payrollSettingEffectiveAt T.settings classId t
  governingWork : (∃ r ∈ T.settings, r.classId = classId) → ∀ t < row.effectiveDate,
    payrollSettingGoverningWork T'.settings classId t =
      payrollSettingGoverningWork T.settings classId t
  governingFirst : (∀ r ∈ T.settings, r.classId ≠ classId) → ∀ t < row.effectiveDate,
    payrollSettingGoverningWork T.settings classId t = none ∧
      payrollSettingGoverningWork T'.settings classId t = some row
  governs : ∀ t, row.effectiveDate ≤ t →
    (∀ r ∈ T.settings, r.classId = classId → r.effectiveDate ≤ row.effectiveDate ∨
      t < r.effectiveDate) → payrollSettingEffectiveAt T'.settings classId t = some row

/-- Every row was recorded by now, and a class with rows has one in force. -/
structure SettingsInvariant (clock : Instant) (settings : List PayrollSetting) : Prop where
  recorded : ∀ r ∈ settings, r.createdAt ≤ clock
  inForce : ∀ r ∈ settings, ∃ q ∈ settings, q.classId = r.classId ∧ q.effectiveDate ≤ clock

theorem SettingsInvariant.effectiveAt_isSome (h : SettingsInvariant now T.settings)
    (hr : r ∈ T.settings) (hclass : r.classId = classId) :
    (payrollSettingEffectiveAt T.settings classId now).isSome := by
  obtain ⟨q, hq, hsame, hle⟩ := h.inForce r hr
  have hmem : q ∈ T.settings.filter (fun r ↦ r.classId = classId ∧ r.effectiveDate ≤ now) :=
    List.mem_filter.2 ⟨hq, decide_eq_true ⟨hsame.trans hclass, hle⟩⟩
  rw [payrollSettingEffectiveAt, Option.isSome_iff_ne_none, ne_eq, firstBy_eq_none]
  exact List.ne_nil_of_mem hmem

theorem effectiveAt_none_of_absent {settings : List PayrollSetting}
    (h : ∀ r ∈ settings, r.classId ≠ classId) (t : Instant) :
    payrollSettingEffectiveAt settings classId t = none := by
  rw [payrollSettingEffectiveAt, firstBy_eq_none, List.filter_eq_nil_iff]
  intro r hr hkept
  exact h r hr (of_decide_eq_true hkept).1

theorem firstPayrollSetting_of_absent {settings : List PayrollSetting}
    (h : ∀ r ∈ settings, r.classId ≠ classId) : firstPayrollSetting settings classId = none := by
  rw [firstPayrollSetting, firstBy_eq_none, List.filter_eq_nil_iff]
  intro r hr hkept
  exact h r hr (of_decide_eq_true hkept)

/-- A row that takes effect later than one in force is not the first. -/
theorem firstPayrollSetting_append {settings : List PayrollSetting} {q : PayrollSetting}
    (hq : q ∈ settings) (hclass : q.classId = classId) (hlater : q.effectiveDate < row.effectiveDate) :
    firstPayrollSetting (settings ++ [row]) classId = firstPayrollSetting settings classId := by
  have hqmem : q ∈ settings.filter (·.classId = classId) :=
    List.mem_filter.2 ⟨hq, decide_eq_true hclass⟩
  cases hfirst : firstPayrollSetting settings classId with
  | none =>
    rw [firstPayrollSetting, firstBy_eq_none] at hfirst
    rw [hfirst] at hqmem
    cases hqmem
  | some f =>
    have hfmem := List.mem_filter.1 (mem_of_firstBy hfirst)
    have hfq : f.effectiveDate ≤ q.effectiveDate := by
      rcases firstBy_le hfirst hqmem with rfl | hle
      · exact le_rfl
      · rcases hle with hlt | ⟨heq, -⟩
        · exact hlt.le
        · exact heq.le
    rw [firstPayrollSetting, List.filter_append]
    by_cases hrow : row.classId = classId
    · have hkept : [row].filter (·.classId = classId) = [row] := by simp [hrow]
      rw [hkept]
      refine firstBy_concat hfirst ?_
      rintro (hlt | ⟨heq, -⟩)
      · exact absurd (hlt.trans_le hfq) hlater.not_gt
      · exact absurd (heq.trans_le hfq) hlater.not_ge
    · have hkept : [row].filter (·.classId = classId) = [] := by simp [hrow]
      rw [hkept, List.append_nil]
      exact hfirst

theorem Saved.keepsThePast (h : Saved T classId now row T')
    (hi : SettingsInvariant now T.settings) : KeepsThePast T classId now row T' := by
  have hfirst : (∀ r ∈ T.settings, r.classId ≠ classId) → row.effectiveDate = now := by
    intro habsent
    rcases h.boundary with ⟨-, heq⟩ | ⟨hsome, -⟩
    · exact heq
    · rw [effectiveAt_none_of_absent habsent] at hsome
      cases hsome
  have hlater : (∃ r ∈ T.settings, r.classId = classId) → now < row.effectiveDate := by
    rintro ⟨r, hr, hclass⟩
    have hsome := hi.effectiveAt_isSome hr hclass
    rcases h.boundary with ⟨hnone, -⟩ | ⟨-, hlt⟩
    · rw [hnone] at hsome
      cases hsome
    · exact hlt
  have hbefore : ∀ t < row.effectiveDate, payrollSettingEffectiveAt T'.settings classId t =
      payrollSettingEffectiveAt T.settings classId t := by
    intro t ht
    rw [h.tables, payrollSettingEffectiveAt, payrollSettingEffectiveAt, List.filter_append]
    have hnot : ¬ row.effectiveDate ≤ t := not_le.2 ht
    simp [hnot]
  have hmem : row ∈ T'.settings := by
    rw [h.tables]
    simp
  refine ⟨hfirst, hlater, hbefore, ?_, ?_, ?_⟩
  · rintro hexists t ht
    obtain ⟨r, hr, hclass⟩ := hexists
    obtain ⟨q, hq, hsame, hle⟩ := hi.inForce r hr
    have hlt := hlater ⟨r, hr, hclass⟩
    rw [payrollSettingGoverningWork, payrollSettingGoverningWork, hbefore t ht, h.tables,
      firstPayrollSetting_append hq (hsame.trans hclass) (hle.trans_lt hlt)]
  · intro habsent t ht
    rw [payrollSettingGoverningWork, payrollSettingGoverningWork, hbefore t ht,
      effectiveAt_none_of_absent habsent, firstPayrollSetting_of_absent habsent, Option.none_or,
      Option.none_or, h.tables, firstPayrollSetting, List.filter_append]
    have hnone : T.settings.filter (·.classId = classId) = [] := by
      rw [List.filter_eq_nil_iff]
      intro r hr hkept
      exact habsent r hr (of_decide_eq_true hkept)
    refine ⟨rfl, ?_⟩
    rw [hnone]
    simp [h.ofClass, firstBy]
  · intro t hle hothers
    refine firstBy_eq_some (List.mem_filter.2 ⟨hmem, decide_eq_true ⟨h.ofClass, hle⟩⟩) ?_
    intro b hb
    obtain ⟨hb, hkept⟩ := List.mem_filter.1 hb
    obtain ⟨hclass, hbt⟩ := of_decide_eq_true hkept
    rw [h.tables, List.mem_append, List.mem_singleton] at hb
    rcases hb with hb | rfl
    · right
      have hother := hothers b hb hclass
      have hrecorded := hi.recorded b hb
      have halone := h.alone b hb
      have hcreated := h.createdAt
      rintro (hnewer | ⟨hsame, hafter⟩)
      · rcases hother with hother | hother
        · exact absurd hnewer hother.not_gt
        · exact absurd hbt hother.not_ge
      · exact halone ⟨hclass, hsame, hrecorded.antisymm (hcreated.symm.trans_le hafter)⟩
    · exact .inl rfl

end Save

section Runs

variable {clock : Instant}

theorem SettingsInvariant.wait {settings : List PayrollSetting} (h : SettingsInvariant clock settings)
    (hnow : clock ≤ now) : SettingsInvariant now settings where
  recorded := fun r hr ↦ (h.recorded r hr).trans hnow
  inForce := fun r hr ↦ by
    obtain ⟨q, hq, hsame, hle⟩ := h.inForce r hr
    exact ⟨q, hq, hsame, hle.trans hnow⟩

theorem SettingsInvariant.save (h : SettingsInvariant now T.settings)
    (hsaved : Saved T classId now row T') : SettingsInvariant now T'.settings := by
  have hkeeps := hsaved.keepsThePast h
  rw [hsaved.tables]
  refine ⟨fun r hr ↦ ?_, fun r hr ↦ ?_⟩
  · rw [List.mem_append, List.mem_singleton] at hr
    rcases hr with hr | rfl
    · exact h.recorded r hr
    · exact hsaved.createdAt.le
  · rw [List.mem_append, List.mem_singleton] at hr
    rcases hr with hr | rfl
    · obtain ⟨q, hq, hsame, hle⟩ := h.inForce r hr
      exact ⟨q, List.mem_append_left _ hq, hsame, hle⟩
    · by_cases hexists : ∃ q ∈ T.settings, q.classId = classId
      · obtain ⟨q, hq, hclass⟩ := hexists
        obtain ⟨p, hp, hsame, hle⟩ := h.inForce q hq
        exact ⟨p, List.mem_append_left _ hp, (hsame.trans hclass).trans hsaved.ofClass.symm, hle⟩
      · refine ⟨r, by simp, rfl, (hkeeps.first fun q hq hclass ↦ ?_).le⟩
        exact hexists ⟨q, hq, hclass⟩

theorem SettingsInvariant.step (zones : String → PaydayZone)
    (h : SettingsInvariant clock T.settings) (hnow : clock ≤ now) (a : SettingsAction) :
    SettingsInvariant now (settingsStep zones now T a).settings := by
  have h' := h.wait hnow
  cases a with
  | save classId settingsData =>
    simp only [settingsStep]
    split
    · next row T' hsave => exact h'.save (savePayrollSetting_ok hsave)
    · exact h'
  | systemRun classId seats =>
    simp only [settingsStep]
    split
    · exact h'
    · exact h'

theorem SettingsInvariant.run (zones : String → PaydayZone) (clock : Instant)
    (payroll : PayrollState) (as : List TimedSettingsAction) :
    SettingsInvariant (settingsAfter zones clock payroll as).clock
      (settingsAfter zones clock payroll as).tables.settings := by
  apply run_invariant (I := fun s : SettingsSystem ↦ SettingsInvariant s.clock s.tables.settings)
  · exact ⟨by simp, by simp⟩
  · intro s a h
    exact h.step zones (Int.le_add_of_nonneg_right (Int.natCast_nonneg a.wait)) a.action

end Runs

section Main

/-- After any saves and runs, a save takes effect at once if it is its class's first and later than
now otherwise, leaves what was in force before its date, and governs from its date on; a setting
that another one of its date was saved after is in force at no instant. -/
theorem payroll_settings_keep_the_past (zones : String → PaydayZone) (clock : Instant)
    (payroll : PayrollState) (as : List TimedSettingsAction) :
    let s := settingsAfter zones clock payroll as
    (∀ (wait : ℕ) classId data row T',
      savePayrollSetting (zones classId) s.tables classId data (s.clock + wait) = .ok (row, T') →
      KeepsThePast s.tables classId (s.clock + wait) row T') ∧
    ∀ a ∈ s.tables.settings, ∀ b ∈ s.tables.settings, a.classId = b.classId →
      a.effectiveDate = b.effectiveDate → a.createdAt < b.createdAt →
      ∀ t, payrollSettingEffectiveAt s.tables.settings a.classId t ≠ some a := by
  intro s
  have hi : SettingsInvariant s.clock s.tables.settings := .run zones clock payroll as
  refine ⟨fun wait classId data row T' hsave ↦ ?_, fun a _ b hb hclass hdate hlater t hforce ↦ ?_⟩
  · refine (savePayrollSetting_ok hsave).keepsThePast (hi.wait ?_)
    exact Int.le_add_of_nonneg_right (Int.natCast_nonneg wait)
  · have hle := effectiveAt_latest hforce hb hclass.symm hdate.symm
    exact absurd hlater hle.not_gt

def sampleSettings : SettingsData :=
  { SettingsData.empty with
    payRate := some (some 25000000)
    payScheduleType := some (some "weekly")
    firstPayDate := some (some 864000000000) }

/-- The first save of a class gives work from before it a setting. -/
theorem first_setting_prices_earlier_work :
    (payrollSettingGoverningWork [] "c" 5).isNone ∧
      ((savePayrollSetting utcPaydays ⟨[], ⟨[], []⟩⟩ "c" sampleSettings 10).toOption.map (fun out ↦
        (out.1.effectiveDate, (payrollSettingGoverningWork out.2.settings "c" 5).map
          (·.policyUuid)))) = some (10, some 1) := by
  decide +kernel

end Main

end TokenHub.Payroll
