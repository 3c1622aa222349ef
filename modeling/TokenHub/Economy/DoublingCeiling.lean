import Mathlib.Tactic.IntervalCases
import TokenHub.Economy.DoublingTime

set_option autoImplicit false

namespace TokenHub.Economy

open Rent (toOrdinal monthLengths)
open Time (Period Blocks)
open Payroll (monthStart monthNumber monthLength)
open Lib.CompoundGrowth

section Windows

theorem monthStart_year (number : ℤ) : monthStart number + 365 ≤ monthStart (number + 12) := by
  obtain ⟨k, hk⟩ : ∃ k : ℕ, number % 12 = k := ⟨(number % 12).toNat, by omega⟩
  have hk12 : k < 12 := by omega
  have hlengths : ((monthLengths (number / 12)).take k).sum + 365 ≤
      (monthLengths (number / 12)).sum + ((monthLengths (number / 12 + 1)).take k).sum := by
    unfold monthLengths
    split_ifs <;> interval_cases k <;> decide
  simp only [monthStart, toOrdinal]
  rw [show (number + 12) / 12 = number / 12 + 1 by omega,
    show (number + 12) % 12 = number % 12 by omega, hk, show ((k : ℤ) + 1 - 1).toNat = k by omega,
    Payroll.daysBeforeYear_succ]
  omega

theorem monthStart_years (number : ℤ) (years : ℕ) :
    monthStart number + 365 * years ≤ monthStart (number + 12 * years) := by
  induction years with
  | zero => simp
  | succ years ih =>
    have hyear := monthStart_year (number + 12 * years)
    rw [Nat.cast_succ, show number + 12 * ((years : ℤ) + 1) = number + 12 * years + 12 by ring]
    omega

theorem days_length (cadence : PayoutCadence) (date : ℤ) :
    (cadence.period.days date).1 < (cadence.period.days date).2 ∧
      (cadence.period.days date).2 - (cadence.period.days date).1 ≤ 31 := by
  cases cadence with
  | weekly =>
    simp only [PayoutCadence.period, Period.days]
    omega
  | monthly =>
    have hlength := (Payroll.daysInMonth_bounds (monthNumber date / 12) (monthNumber date % 12 + 1))
    have hnext := Payroll.monthStart_succ (monthNumber date)
    rw [monthLength] at hnext
    rw [PayoutCadence.period, Time.month_days]
    omega

theorem mem_payoutWindows {p : Period} {date : ℤ} {n : ℕ} {w : ℤ × ℤ}
    (hw : w ∈ payoutWindows p date n) : ∃ d, w = p.days d := by
  induction n generalizing date with
  | zero => cases hw
  | succ n ih =>
    rcases List.mem_cons.1 hw with rfl | hw
    · exact ⟨date, rfl⟩
    · exact ih hw

theorem spannedDays_cons (w : ℤ × ℤ) (windows : List (ℤ × ℤ)) :
    spannedDays (w :: windows) = w.2 - w.1 + spannedDays windows := by
  rw [spannedDays, List.map_cons, List.sum_cons, spannedDays]

theorem spannedDays_weekly (date : ℤ) (n : ℕ) :
    spannedDays (payoutWindows .week date n) = 7 * n := by
  induction n generalizing date with
  | zero => rfl
  | succ n ih =>
    rw [payoutWindows, spannedDays_cons, ih]
    simp only [Period.days]
    omega

theorem spannedDays_monthly (date : ℤ) (n : ℕ) :
    spannedDays (payoutWindows .month date n) =
      monthStart (monthNumber date + n) - monthStart (monthNumber date) := by
  induction n generalizing date with
  | zero => simp [payoutWindows, spannedDays]
  | succ n ih =>
    have hnext : monthNumber (Period.month.days date).2 = monthNumber date + 1 := by
      have hblock := (Period.blocks .month).next date
      rw [Time.month_days, Time.month_days] at hblock
      rw [Time.month_days]
      exact Payroll.monthStart_mono.injective hblock
    rw [payoutWindows, spannedDays_cons, ih, hnext, Time.month_days, Nat.cast_succ,
      add_assoc (monthNumber date) 1, add_comm (1 : ℤ)]
    omega

theorem windows_le_compounds {cadence : PayoutCadence} {date : ℤ} {n t k : ℕ}
    (hk : cadence.compounding.perYear = some k) (ht : t ≤ 6)
    (h : spannedDays (payoutWindows cadence.period date n) ≤ t * 365) : n ≤ k * t := by
  cases cadence with
  | weekly =>
    cases hk
    rw [PayoutCadence.period, spannedDays_weekly] at h
    omega
  | monthly =>
    cases hk
    rw [PayoutCadence.period, spannedDays_monthly] at h
    by_contra hmore
    have hyears := monthStart_years (monthNumber date) t
    have hlater : monthStart (monthNumber date + 12 * t) < monthStart (monthNumber date + n) := by
      apply Payroll.monthStart_mono
      omega
    omega

end Windows

section Rates

variable {t n : ℕ}

theorem doublingRate_doubles (ht : t ≠ 0) (hn : n ≠ 0) :
    0 ≤ doublingRate t n ∧ (1 + doublingRate t n / n) ^ (n * t) ≤ 2 := by
  have hcast : (0 : ℝ) < n := by exact_mod_cast Nat.pos_of_ne_zero hn
  have hnt : n * t ≠ 0 := Nat.mul_ne_zero hn ht
  have hroot : (2 : ℝ) ^ (1 / ((n : ℝ) * t)) = 2 ^ (1 / ((n * t : ℕ) : ℝ)) := by push_cast; rfl
  have hpos : (0 : ℝ) ≤ 2 ^ (1 / ((n * t : ℕ) : ℝ)) - 1 :=
    (le_root_iff hnt (by norm_num)).2 (by norm_num)
  rw [doublingRate, hroot, mul_div_cancel_left₀ _ hcast.ne']
  exact ⟨mul_nonneg hcast.le hpos, (le_root_iff hnt (by linarith)).1 le_rfl⟩

theorem le_doublingRate_iff (ht : t ≠ 0) (hn : n ≠ 0) {r : ℝ} (hr : 0 ≤ r) :
    r ≤ doublingRate t n ↔ (1 + r / n) ^ (n * t) ≤ 2 := by
  have hcast : (0 : ℝ) < n := by exact_mod_cast Nat.pos_of_ne_zero hn
  have hroot : (2 : ℝ) ^ (1 / ((n : ℝ) * t)) = 2 ^ (1 / ((n * t : ℕ) : ℝ)) := by push_cast; rfl
  rw [doublingRate, hroot, ← le_root_iff (Nat.mul_ne_zero hn ht) (by positivity),
    div_le_iff₀' hcast]

theorem doublingRate_le (ht : t ≠ 0) (hn : n ≠ 0) : doublingRate t n * t ≤ 1 := by
  have hcast : (0 : ℝ) < n := by exact_mod_cast Nat.pos_of_ne_zero hn
  obtain ⟨hpos, hdoubles⟩ := doublingRate_doubles ht hn
  have hshare : 0 ≤ doublingRate t n / n := by positivity
  have hbernoulli := one_add_mul_le_pow (by linarith : -2 ≤ doublingRate t n / n) (n * t)
  have hsimple : ((n * t : ℕ) : ℝ) * (doublingRate t n / n) = doublingRate t n * t := by
    push_cast
    rw [mul_comm (n : ℝ), mul_assoc, mul_div_cancel₀ _ hcast.ne', mul_comm]
  rw [hsimple] at hbernoulli
  linarith

theorem maxLawfulAnnualRate_value (mode : PolicyMode) (c : Compounding) :
    maxLawfulAnnualRate mode (some c.value) = .ok (match c.perYear with
      | none => 1 / mode.minDoublingYears
      | some n => doublingRate mode.minDoublingYears n) := by
  have htext : Compounding.ofText (Rent.normalized (some c.value) "never") = some c := by
    cases c <;> decide +kernel
  rw [maxLawfulAnnualRate, htext]
  cases c <;> rfl

end Rates

section Growth

variable {cadence : PayoutCadence} {rate : ℤ → Option ℝ} {r : ℝ}

def projectedDays {K : Type} (plan : List (ℤ × Bool)) (rate : ℤ → Option K) :
    List (ProjectedSavingsDay K) :=
  plan.map fun day ↦ ⟨none, rate day.1, day.2⟩

theorem length_windowDayPlan (compounding : Option Period) (window : ℤ × ℤ) :
    (windowDayPlan compounding window).length = (window.2 - window.1).toNat := by
  rw [windowDayPlan, List.length_map, List.length_range]

theorem resolve_projectedDays {plan : List (ℤ × Bool)} {balance : ℝ} {day : SavingsAccrualDay ℝ}
    (hrate : ∀ d, (rate d).getD 0 ≤ r)
    (hday : day ∈ (projectedDays plan rate).map (·.resolve balance)) :
    day.endOfDayBalance = balance ∧ day.annualRate.getD 0 ≤ r ∧
      ∃ d, (d, day.capitalizes) ∈ plan := by
  obtain ⟨projected, hprojected, rfl⟩ := List.mem_map.1 hday
  obtain ⟨d, hd, rfl⟩ := List.mem_map.1 hprojected
  exact ⟨rfl, hrate d.1, d.1, hd⟩

theorem GrowsBy.daily (hr : 0 ≤ r) (hrate : ∀ d, (rate d).getD 0 ≤ r) (window : ℤ × ℤ) :
    GrowsBy .daily (projectedDays (windowDayPlan none window) rate)
      ((1 + r / 365) ^ (window.2 - window.1).toNat) := by
  intro balance hbalance
  have hdays : ∀ day ∈ (projectedDays (windowDayPlan none window) rate).map (·.resolve balance),
      day.endOfDayBalance = balance ∧ day.annualRate.getD 0 ≤ r := by
    intro day hday
    obtain ⟨hsame, hlow, -⟩ := resolve_projectedDays hrate hday
    exact ⟨hsame, hlow⟩
  have hgrowth := daily_growth (s := .zero) hr hbalance le_rfl hdays
  rw [List.length_map, projectedDays, List.length_map, length_windowDayPlan] at hgrowth
  rw [Accrual.zero, add_zero] at hgrowth
  exact hgrowth

/-- In a window of its own cadence only the first day starts a compounding period. -/
theorem windowDayPlan_own (p : Period) (date : ℤ) : ∃ rest : List (ℤ × Bool),
    windowDayPlan (some p) (p.days date) = ((p.days date).1, true) :: rest ∧
      ∀ day ∈ rest, day.2 = false := by
  have hblocks := Period.blocks p
  obtain ⟨hfirst, hend⟩ := hblocks.holds date
  obtain ⟨k, hk⟩ : ∃ k, ((p.days date).2 - (p.days date).1).toNat = k + 1 :=
    ⟨((p.days date).2 - (p.days date).1).toNat - 1, by omega⟩
  have hself := hblocks.same date (p.days date).1 le_rfl (by omega)
  refine ⟨(List.range k).map fun i : ℕ ↦ ((p.days date).1 + (i + 1), false), ?_, ?_⟩
  · rw [windowDayPlan, hk, List.range_succ_eq_map, List.map_cons, List.map_map]
    congr 1
    · simp [hself]
    · apply List.map_congr_left
      intro i hi
      have hi := List.mem_range.1 hi
      have hsame := hblocks.same date ((p.days date).1 + (i + 1)) (by omega) (by omega)
      simp only [Function.comp_apply, Nat.succ_eq_add_one, Nat.cast_add, Nat.cast_one,
        Option.any_some, hsame, Prod.mk.injEq, decide_eq_false_iff_not, true_and]
      omega
  · intro day hday
    obtain ⟨i, -, rfl⟩ := List.mem_map.1 hday
    rfl

theorem GrowsBy.own (hr : 0 ≤ r) (hrate : ∀ d, (rate d).getD 0 ≤ r) (date : ℤ) :
    GrowsBy cadence.compounding
      (projectedDays (windowDayPlan (some cadence.period) (cadence.period.days date)) rate)
      (1 + ((cadence.period.days date).2 - (cadence.period.days date).1) * (r / 365)) := by
  intro balance hbalance
  obtain ⟨rest, hplan, hrest⟩ := windowDayPlan_own cadence.period date
  have hlength := length_windowDayPlan (some cadence.period) (cadence.period.days date)
  have hpos := (days_length cadence date).1
  have hdays : ((rest.length : ℝ) + 1) =
      (cadence.period.days date).2 - (cadence.period.days date).1 := by
    rw [hplan, List.length_cons] at hlength
    have hcast : ((rest.length + 1 : ℕ) : ℤ) =
        (cadence.period.days date).2 - (cadence.period.days date).1 := by omega
    exact_mod_cast hcast
  have hplain : ∀ day ∈ (projectedDays rest rate).map (·.resolve balance),
      day.endOfDayBalance = balance ∧ day.annualRate.getD 0 ≤ r ∧ day.capitalizes = false := by
    intro day hday
    obtain ⟨hsame, hlow, d, hd⟩ := resolve_projectedDays hrate hday
    exact ⟨hsame, hlow, hrest _ hd⟩
  have hstrength : cadence.compounding.strength = 1 := by cases cadence <;> rfl
  have hfirst : (SavingsAccrualDay.mk balance (rate (cadence.period.days date).1) true).endOfDayBalance
      = balance ∧ (rate (cadence.period.days date).1).getD 0 ≤ r := ⟨rfl, hrate _⟩
  have hgrowth := own_growth hr hstrength hbalance hfirst hplain
  rw [List.length_map, projectedDays, List.length_map, hdays] at hgrowth
  have hsum := add_le_add_right hgrowth balance
  rw [hplan, projectedDays, List.map_cons, List.map_cons]
  refine hsum.trans (le_of_eq ?_)
  ring

end Growth

section Respect

variable {mode : PolicyMode} {frequency : Compounding} {cadence : PayoutCadence}

theorem minDoublingYears_bounds (mode : PolicyMode) :
    2 ≤ mode.minDoublingYears ∧ mode.minDoublingYears ≤ 6 := by
  cases mode <;> decide

theorem prod_map_pow (x : ℝ) {windows : List (ℤ × ℤ)} (h : ∀ w ∈ windows, w.1 ≤ w.2) :
    (windows.map fun w ↦ x ^ (w.2 - w.1).toNat).prod = x ^ (spannedDays windows).toNat ∧
      0 ≤ spannedDays windows := by
  induction windows with
  | nil => simp [spannedDays]
  | cons w windows ih =>
    have hw := h w List.mem_cons_self
    obtain ⟨hrest, hspanned⟩ := ih fun w' hw' ↦ h w' (List.mem_cons_of_mem w hw')
    rw [List.map_cons, List.prod_cons, hrest, spannedDays_cons, ← pow_add]
    constructor
    · congr 1
      omega
    · omega

theorem sum_map_mul (x : ℝ) (windows : List (ℤ × ℤ)) :
    (windows.map fun w ↦ ((w.2 : ℝ) - w.1) * x).sum = spannedDays windows * x := by
  induction windows with
  | nil => simp [spannedDays]
  | cons w windows ih =>
    rw [List.map_cons, List.sum_cons, ih, spannedDays_cons]
    push_cast
    ring

/-- It is enough that each window grows by little and all of them by two. -/
theorem respects_of_growth
    (h : ∀ ceiling, maxLawfulAnnualRate mode (some frequency.value) = .ok ceiling →
      ∃ growth : ℤ × ℤ → ℝ, ∀ (date : ℤ) (n : ℕ) (rate : ℤ → Option ℝ),
        (∀ d, (rate d).getD 0 ≤ ceiling) →
        spannedDays (payoutWindows cadence.period date n) ≤ mode.minDoublingYears * 365 →
        (∀ d, GrowsBy frequency
          (projectedDays (windowDayPlan frequency.period (cadence.period.days d)) rate)
          (growth (cadence.period.days d))) ∧
        (∀ d, 1 ≤ growth (cadence.period.days d) ∧ growth (cadence.period.days d) ≤ 11 / 10) ∧
        ((payoutWindows cadence.period date n).map growth).prod ≤ 2) :
    RespectsDoublingTime mode frequency cadence := by
  intro rate ceiling hceiling date n balance hbalance hrate hspan
  obtain ⟨growth, hgrowth⟩ := h ceiling hceiling
  obtain ⟨hgrows, hbounds, hprod⟩ := hgrowth date n rate hrate hspan
  have hlength : (projectionWindows frequency cadence rate date n).length = n := by
    rw [projectionWindows, List.length_map, length_payoutWindows]
  have hproject := projectSavingsBalances_last frequency balance
    (projectionWindows frequency cadence rate date n)
  rw [hlength] at hproject
  have hwindows : List.Forall₂ (GrowsBy frequency) (projectionWindows frequency cadence rate date n)
      ((payoutWindows cadence.period date n).map growth) := by
    rw [projectionWindows, List.forall₂_map_left_iff, List.forall₂_map_right_iff,
      List.forall₂_same]
    intro w hw
    obtain ⟨d, rfl⟩ := mem_payoutWindows hw
    exact hgrows d
  have hgs : ∀ g ∈ (payoutWindows cadence.period date n).map growth, 1 ≤ g ∧ g ≤ 11 / 10 := by
    intro g hg
    obtain ⟨w, hw, rfl⟩ := List.mem_map.1 hg
    obtain ⟨d, rfl⟩ := mem_payoutWindows hw
    exact hbounds d
  have hfinal := foldl_money_le hwindows hgs hprod hbalance
  rw [hlength] at hfinal
  exact ⟨_, hproject, hfinal⟩

theorem day_rate_le {t n : ℕ} (ht : 2 ≤ t) (hn : n ≠ 0) :
    0 ≤ doublingRate t n / 365 ∧ doublingRate t n / 365 ≤ 1 / 730 := by
  have ht' : (2 : ℝ) ≤ t := by exact_mod_cast ht
  have hpos := (doublingRate_doubles (by omega : t ≠ 0) hn).1
  have hsimple := doublingRate_le (by omega : t ≠ 0) hn
  have hhalf : doublingRate t n * 2 ≤ doublingRate t n * t := mul_le_mul_of_nonneg_left ht' hpos
  constructor
  · positivity
  · linarith

theorem daily_respects (mode : PolicyMode) (cadence : PayoutCadence) :
    RespectsDoublingTime mode .daily cadence := by
  apply respects_of_growth
  intro ceiling hceiling
  rw [maxLawfulAnnualRate_value] at hceiling
  have hyears := (minDoublingYears_bounds mode).1
  obtain ⟨hx, hx'⟩ := day_rate_le hyears (by norm_num : 365 ≠ 0)
  obtain ⟨hpos, hdoubles⟩ :=
    doublingRate_doubles (by omega : mode.minDoublingYears ≠ 0) (by norm_num : 365 ≠ 0)
  obtain rfl : doublingRate mode.minDoublingYears 365 = ceiling := Except.ok.inj hceiling
  refine ⟨fun w ↦ (1 + doublingRate mode.minDoublingYears 365 / 365) ^ (w.2 - w.1).toNat, ?_⟩
  intro date n rate hrate hspan
  refine ⟨fun d ↦ GrowsBy.daily hpos hrate _, fun d ↦ ⟨?_, ?_⟩, ?_⟩
  · exact one_le_pow₀ (by linarith)
  · have hlength := days_length cadence d
    calc (1 + doublingRate mode.minDoublingYears 365 / 365) ^
          ((cadence.period.days d).2 - (cadence.period.days d).1).toNat
        ≤ (1 + doublingRate mode.minDoublingYears 365 / 365) ^ 31 :=
          pow_le_pow_right₀ (by linarith) (by omega)
      _ ≤ (1 + 1 / 730) ^ 31 := pow_le_pow_left₀ (by linarith) (by linarith) 31
      _ ≤ 11 / 10 := by norm_num
  · have hordered : ∀ w ∈ payoutWindows cadence.period date n, w.1 ≤ w.2 := by
      intro w hw
      obtain ⟨d, rfl⟩ := mem_payoutWindows hw
      exact (days_length cadence d).1.le
    rw [(prod_map_pow _ hordered).1]
    refine le_trans (pow_le_pow_right₀ (by linarith) ?_) hdoubles
    omega

theorem own_respects (mode : PolicyMode) (cadence : PayoutCadence) :
    RespectsDoublingTime mode cadence.compounding cadence := by
  apply respects_of_growth
  intro ceiling hceiling
  rw [maxLawfulAnnualRate_value] at hceiling
  obtain ⟨hyears, hyears'⟩ := minDoublingYears_bounds mode
  obtain ⟨k, hk⟩ : ∃ k, cadence.compounding.perYear = some k := by
    cases cadence
    · exact ⟨52, rfl⟩
    · exact ⟨12, rfl⟩
  have hk0 : k ≠ 0 := by
    rintro rfl
    cases cadence <;> cases hk
  have hperiod : cadence.compounding.period = some cadence.period := by cases cadence <;> rfl
  rw [hk] at hceiling
  obtain rfl : doublingRate mode.minDoublingYears k = ceiling := Except.ok.inj hceiling
  obtain ⟨hx, hx'⟩ := day_rate_le hyears hk0
  obtain ⟨hpos, hdoubles⟩ := doublingRate_doubles (by omega : mode.minDoublingYears ≠ 0) hk0
  refine ⟨fun w ↦ 1 + ((w.2 : ℝ) - w.1) * (doublingRate mode.minDoublingYears k / 365), ?_⟩
  intro date n rate hrate hspan
  have hdays : ∀ d, (0 : ℝ) ≤ (cadence.period.days d).2 - (cadence.period.days d).1 ∧
      ((cadence.period.days d).2 : ℝ) - (cadence.period.days d).1 ≤ 31 := by
    intro d
    obtain ⟨hlow, hhigh⟩ := days_length cadence d
    constructor
    · have : (((cadence.period.days d).1 : ℤ) : ℝ) ≤ (cadence.period.days d).2 := by
        exact_mod_cast hlow.le
      linarith
    · exact_mod_cast hhigh
  refine ⟨fun d ↦ ?_, fun d ↦ ⟨?_, ?_⟩, ?_⟩
  · rw [hperiod]
    exact GrowsBy.own hpos hrate d
  · have := mul_nonneg (hdays d).1 hx
    linarith
  · have hup := mul_le_mul (hdays d).2 hx' hx (by norm_num)
    linarith
  · have hmap : (payoutWindows cadence.period date n).map (fun w ↦
        1 + ((w.2 : ℝ) - w.1) * (doublingRate mode.minDoublingYears k / 365)) =
          ((payoutWindows cadence.period date n).map fun w ↦
            ((w.2 : ℝ) - w.1) * (doublingRate mode.minDoublingYears k / 365)).map (1 + ·) := by
      rw [List.map_map]
      rfl
    rw [hmap]
    refine le_trans (prod_le_pow ?_ (by positivity) ?_ ?_) hdoubles
    · intro u hu
      obtain ⟨w, hw, rfl⟩ := List.mem_map.1 hu
      obtain ⟨d, rfl⟩ := mem_payoutWindows hw
      exact mul_nonneg (hdays d).1 hx
    · rw [List.length_map, length_payoutWindows]
      exact windows_le_compounds hk hyears' hspan
    · have hcast : (0 : ℝ) < k := by exact_mod_cast Nat.pos_of_ne_zero hk0
      have hspan' : (spannedDays (payoutWindows cadence.period date n) : ℝ) ≤
          mode.minDoublingYears * 365 := by exact_mod_cast hspan
      rw [sum_map_mul]
      calc (spannedDays (payoutWindows cadence.period date n) : ℝ) *
            (doublingRate mode.minDoublingYears k / 365)
          ≤ (mode.minDoublingYears * 365) * (doublingRate mode.minDoublingYears k / 365) :=
            mul_le_mul_of_nonneg_right hspan' hx
        _ = ((k * mode.minDoublingYears : ℕ) : ℝ) *
            (doublingRate mode.minDoublingYears k / k) := by
            push_cast
            field_simp

end Respect

end TokenHub.Economy
