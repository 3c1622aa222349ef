import TokenHub.Economy.PriceBands
import TokenHub.Lib.CompoundGrowth
import TokenHub.Time.ClassDays

set_option autoImplicit false

namespace TokenHub.Economy

open Rent (normalized toOrdinal)
open Time (Period)
open Payroll (monthStart monthNumber monthLength)
open Lib.CompoundGrowth

section Ceiling

def PolicyMode.minDoublingYears : PolicyMode → ℕ
  | .tight => 6
  | .default => 4
  | .comfortable => 2

def Compounding.value : Compounding → String
  | .never => "never"
  | .daily => "daily"
  | .weekly => "weekly"
  | .monthly => "monthly"

def Compounding.perYear : Compounding → Option ℕ
  | .never => none
  | .daily => some 365
  | .weekly => some 52
  | .monthly => some 12

local instance two_atLeastTwo : Nat.AtLeastTwo 2 := ⟨le_rfl⟩

local instance hundred_atLeastTwo : Nat.AtLeastTwo 100 := ⟨by decide⟩

/-- The rate at which savings double in the least time, compounded `n` times a year. -/
noncomputable def doublingRate (t n : ℕ) : ℝ := n * ((2 : ℝ) ^ (1 / ((n : ℝ) * t)) - 1)

/-- `_max_lawful_annual_rate`, the `max_annual_rate` of `resolve_savings`. -/
noncomputable def maxLawfulAnnualRate (mode : PolicyMode) (compoundFrequency : Option String) :
    Except UnsupportedFrequency ℝ :=
  match Compounding.ofText (normalized compoundFrequency "never") with
  | none => .error (.compoundFrequency compoundFrequency)
  | some frequency =>
    match frequency.perYear with
    | none => .ok (1 / mode.minDoublingYears)
    | some n => .ok (doublingRate mode.minDoublingYears n)

end Ceiling

section Calendar

inductive PayoutCadence
  | weekly
  | monthly
deriving DecidableEq, Repr

def PayoutCadence.period : PayoutCadence → Period
  | .weekly => .week
  | .monthly => .month

def PayoutCadence.compounding : PayoutCadence → Compounding
  | .weekly => .weekly
  | .monthly => .monthly

def Compounding.period : Compounding → Option Period
  | .never | .daily => none
  | .weekly => some .week
  | .monthly => some .month

def payoutWindows (p : Period) : ℤ → ℕ → List (ℤ × ℤ)
  | _, 0 => []
  | date, n + 1 => p.days date :: payoutWindows p (p.days date).2 n

/-- `_window_day_plan`: the days of a window, those marked on which a period starts. -/
def windowDayPlan (compounding : Option Period) (window : ℤ × ℤ) : List (ℤ × Bool) :=
  (List.range (window.2 - window.1).toNat).map fun i : ℕ ↦
    (window.1 + i, compounding.any fun p ↦ (p.days (window.1 + i)).1 = window.1 + i)

def projectionWindows {K : Type} (frequency : Compounding) (cadence : PayoutCadence)
    (rate : ℤ → Option K) (date : ℤ) (n : ℕ) : List (List (ProjectedSavingsDay K)) :=
  (payoutWindows cadence.period date n).map fun window ↦
    (windowDayPlan frequency.period window).map fun day ↦ ⟨none, rate day.1, day.2⟩

def spannedDays (windows : List (ℤ × ℤ)) : ℤ := (windows.map fun w ↦ w.2 - w.1).sum

attribute [local instance] two_atLeastTwo hundred_atLeastTwo

/-- In the least doubling time no balance that is left alone is projected to more than twice
itself and a cent for each window, at rates under the ceiling. -/
def KeepsDoublingTime (mode : PolicyMode) (frequency : Compounding) (cadence : PayoutCadence)
    (rate : ℤ → Option ℝ) : Prop :=
  ∀ ceiling, maxLawfulAnnualRate mode (some frequency.value) = .ok ceiling →
    ∀ (date : ℤ) (n : ℕ) (balance : ℝ), 0 ≤ balance → (∀ d, (rate d).getD 0 ≤ ceiling) →
      spannedDays (payoutWindows cadence.period date n) ≤ mode.minDoublingYears * 365 →
      ∃ final, projectSavingsBalances balance (projectionWindows frequency cadence rate date n) [n]
          (some "compound") (some frequency.value) = .ok [money balance, final] ∧
        final ≤ 2 * balance + n / 100

/-- At any rates, which may change from day to day. -/
def RespectsDoublingTime (mode : PolicyMode) (frequency : Compounding) (cadence : PayoutCadence) :
    Prop :=
  ∀ rate, KeepsDoublingTime mode frequency cadence rate

def RespectsAtOneRate (mode : PolicyMode) (frequency : Compounding) (cadence : PayoutCadence) :
    Prop :=
  ∀ q : ℝ, KeepsDoublingTime mode frequency cadence fun _ ↦ some q

theorem RespectsDoublingTime.atOneRate {mode : PolicyMode} {frequency : Compounding}
    {cadence : PayoutCadence} (h : RespectsDoublingTime mode frequency cadence) :
    RespectsAtOneRate mode frequency cadence := fun q ↦ h fun _ ↦ some q

theorem length_payoutWindows (p : Period) (date : ℤ) (n : ℕ) :
    (payoutWindows p date n).length = n := by
  induction n generalizing date with
  | zero => rfl
  | succ n ih => rw [payoutWindows, List.length_cons, ih]

end Calendar

section Accrual

variable {c : Compounding} {r balance : ℝ}

theorem dayInterest_le {base : ℝ} {rate : Option ℝ} (hbase : 0 ≤ base) (hr : 0 ≤ r)
    (hrate : rate.getD 0 ≤ r) : dayInterest base rate ≤ base * (r / 365) := by
  rw [dayInterest_eq, max_eq_left hbase, ← mul_div_assoc]
  apply div_le_div_of_nonneg_right _ (by norm_num)
  exact mul_le_mul_of_nonneg_left (max_le hrate hr) hbase

/-- Compounded daily, a window grows by the power of a day's growth. -/
theorem daily_growth {days : List (SavingsAccrualDay ℝ)} {s : Accrual ℝ} (hr : 0 ≤ r)
    (hbalance : 0 ≤ balance) (hs : 0 ≤ s.accrued)
    (hdays : ∀ day ∈ days, day.endOfDayBalance = balance ∧ day.annualRate.getD 0 ≤ r) :
    balance + (days.foldl (accrueStep .daily) s).accrued ≤
      (1 + r / 365) ^ days.length * (balance + s.accrued) := by
  induction days generalizing s with
  | nil => simp
  | cons day days ih =>
    obtain ⟨hsame, hrate⟩ := hdays day List.mem_cons_self
    have hbase : 0 ≤ balance + s.accrued := add_nonneg hbalance hs
    have hearned := dayInterest_le hbase hr hrate
    have hgrows : 0 ≤ (accrueStep .daily s day).accrued :=
      hs.trans (Accrual.le_accrueStep .daily s day)
    have hstep : balance + (accrueStep .daily s day).accrued ≤
        (1 + r / 365) * (balance + s.accrued) := by
      simp only [accrueStep, Accrual.accrued_marked, Compounding.joined, hsame]
      linarith
    rw [List.foldl_cons, List.length_cons, pow_succ, mul_assoc]
    calc balance + (days.foldl (accrueStep .daily) (accrueStep .daily s day)).accrued
        ≤ (1 + r / 365) ^ days.length * (balance + (accrueStep .daily s day).accrued) :=
          ih hgrows fun d hd ↦ hdays d (List.mem_cons_of_mem day hd)
      _ ≤ (1 + r / 365) ^ days.length * ((1 + r / 365) * (balance + s.accrued)) := by
          apply mul_le_mul_of_nonneg_left hstep
          positivity

/-- Days on which nothing joins earn alike. -/
theorem plain_growth {days : List (SavingsAccrualDay ℝ)} {s : Accrual ℝ} (hr : 0 ≤ r)
    (hc : c.strength = 1) (hbalance : 0 ≤ balance) (hs : s.capitalized = 0)
    (hdays : ∀ day ∈ days, day.endOfDayBalance = balance ∧ day.annualRate.getD 0 ≤ r ∧
      day.capitalizes = false) :
    (days.foldl (accrueStep c) s).accrued ≤ s.accrued + days.length * (balance * (r / 365)) := by
  induction days generalizing s with
  | nil => simp
  | cons day days ih =>
    obtain ⟨hsame, hrate, hplain⟩ := hdays day List.mem_cons_self
    have hearned := dayInterest_le hbalance hr hrate
    have hjoined : c.joined s = 0 := by
      cases c <;> first | exact absurd hc (by decide) | exact hs
    have hstep : (accrueStep c s day).accrued = s.accrued + dayInterest balance day.annualRate := by
      simp only [accrueStep, Accrual.marked, hplain, Bool.false_eq_true, if_false, hjoined, hsame,
        add_zero]
    have hcapital : (accrueStep c s day).capitalized = 0 := by
      simp only [accrueStep, Accrual.marked, hplain, Bool.false_eq_true, if_false, hs]
    rw [List.foldl_cons, List.length_cons]
    refine (ih hcapital fun d hd ↦ hdays d (List.mem_cons_of_mem day hd)).trans ?_
    rw [hstep]
    push_cast
    linarith

theorem own_growth {day : SavingsAccrualDay ℝ} {days : List (SavingsAccrualDay ℝ)} (hr : 0 ≤ r)
    (hc : c.strength = 1) (hbalance : 0 ≤ balance)
    (hday : day.endOfDayBalance = balance ∧ day.annualRate.getD 0 ≤ r)
    (hdays : ∀ d ∈ days, d.endOfDayBalance = balance ∧ d.annualRate.getD 0 ≤ r ∧
      d.capitalizes = false) :
    accrueDays c (day :: days) ≤ (days.length + 1) * (balance * (r / 365)) := by
  have hfirst : accrueStep c .zero day = accrueStep c .zero { day with capitalizes := false } := by
    simp only [accrueStep, Accrual.marked, Accrual.zero]
    split_ifs <;> rfl
  have hall : ∀ d ∈ { day with capitalizes := false } :: days,
      d.endOfDayBalance = balance ∧ d.annualRate.getD 0 ≤ r ∧ d.capitalizes = false := by
    intro d hd
    rcases List.mem_cons.1 hd with rfl | hd
    · exact ⟨hday.1, hday.2, rfl⟩
    · exact hdays d hd
  have hplain := plain_growth (c := c) (s := .zero) hr hc hbalance rfl hall
  rw [accrueDays, List.foldl_cons, hfirst]
  rw [List.foldl_cons, List.length_cons] at hplain
  simp only [Accrual.zero, zero_add] at hplain ⊢
  push_cast at hplain
  exact hplain

end Accrual

section Project

variable {K : Type} [Field K] [LinearOrder K] [FloorRing K]

theorem balancesAfter_last (c : Compounding) (balance : K)
    (windows : List (List (ProjectedSavingsDay K))) :
    (balancesAfter c balance windows).getD windows.length 0 =
      windows.foldl (creditWindow c) balance := by
  induction windows generalizing balance with
  | nil => rfl
  | cons window windows ih => exact ih _

theorem projectSavingsBalances_last (frequency : Compounding) (balance : K)
    (windows : List (List (ProjectedSavingsDay K))) :
    projectSavingsBalances balance windows [windows.length] (some "compound")
      (some frequency.value) =
        .ok [money balance, windows.foldl (creditWindow frequency) (money balance)] := by
  have hcompounding : savingsCompounding (some "compound") (some frequency.value) =
      .ok frequency := by
    cases frequency <;> decide +kernel
  unfold projectSavingsBalances
  simp only [List.map_cons, List.map_nil, min_self, balancesAfter_last]
  split_ifs with hnone
  · rw [hnone]
    rfl
  · rw [hcompounding]
    rfl

theorem money_cents_add [IsStrictOrderedRing K] {x y : K} (hx : 0 ≤ x) (hy : 0 ≤ y)
    (hx' : money x = x) (hy' : money y = y) : money (x + y) = x + y := by
  rw [money_of_nonneg hx] at hx'
  rw [money_of_nonneg hy] at hy'
  have hsum : x + y = ((⌊x * 100 + 1 / 2⌋ + ⌊y * 100 + 1 / 2⌋ : ℤ) : K) / 100 := by
    push_cast
    rw [add_div, hx', hy']
  have hfloors : 0 ≤ ⌊x * 100 + 1 / 2⌋ + ⌊y * 100 + 1 / 2⌋ := by
    apply add_nonneg
    · exact Int.floor_nonneg.2 (by positivity)
    · exact Int.floor_nonneg.2 (by positivity)
  rw [hsum, money_cents _ hfloors]

end Project

section Forecast

variable {c : Compounding} {balance : ℝ}

theorem money_le {x : ℝ} (hx : 0 ≤ x) : money x ≤ x + 1 / 200 := by
  rw [money_of_nonneg hx, div_le_iff₀ (by norm_num)]
  have hfloor := Int.floor_le (x * 100 + 1 / 2)
  linarith

def GrowsBy (c : Compounding) (window : List (ProjectedSavingsDay ℝ)) (g : ℝ) : Prop :=
  ∀ balance : ℝ, 0 ≤ balance →
    balance + accrueDays c (window.map (·.resolve balance)) ≤ g * balance

theorem GrowsBy.creditWindow_le {window : List (ProjectedSavingsDay ℝ)} {g : ℝ}
    (h : GrowsBy c window g) (hbalance : 0 ≤ balance) (hcents : money balance = balance) :
    creditWindow c balance window ≤ g * balance + 1 / 200 := by
  have hgrowth := h balance hbalance
  have hearned := accrueDays_nonneg c (window.map (·.resolve balance))
  have hcredit := credit_nonneg (accrueDays c (window.map (·.resolve balance)))
  unfold creditWindow
  unfold creditSavingsInterest at hcredit ⊢
  split_ifs at hcredit ⊢ with hnone
  · rw [add_zero, hcents]
    linarith
  · rw [money_cents_add hbalance hcredit hcents (money_money hearned)]
    have hmoney := money_le hearned
    linarith

theorem foldl_creditWindow_le {windows : List (List (ProjectedSavingsDay ℝ))} {gs : List ℝ}
    (h : List.Forall₂ (GrowsBy c) windows gs) (hgs : ∀ g ∈ gs, 1 ≤ g) (hbalance : 0 ≤ balance)
    (hcents : money balance = balance) :
    windows.foldl (creditWindow c) balance ≤ gs.prod * balance + errorSum gs / 200 := by
  induction h generalizing balance with
  | nil => simp [errorSum]
  | @cons window g windows gs hwindow _ ih =>
    have hkeeps := le_creditWindow hbalance hcents c window
    have hrest := ih (fun g' hg' ↦ hgs g' (List.mem_cons_of_mem g hg')) (hbalance.trans hkeeps)
      (creditWindow_cents hbalance c window)
    have hprod : 1 ≤ gs.prod := one_le_prod fun g' hg' ↦ hgs g' (List.mem_cons_of_mem g hg')
    rw [List.foldl_cons, List.prod_cons, errorSum]
    calc windows.foldl (creditWindow c) (creditWindow c balance window)
        ≤ gs.prod * creditWindow c balance window + errorSum gs / 200 := hrest
      _ ≤ gs.prod * (g * balance + 1 / 200) + errorSum gs / 200 := by
          apply add_le_add_left
          apply mul_le_mul_of_nonneg_left (hwindow.creditWindow_le hbalance hcents)
          linarith
      _ = g * gs.prod * balance + (gs.prod + errorSum gs) / 200 := by ring

/-- An opening balance is rounded to cents first. -/
theorem foldl_money_le {windows : List (List (ProjectedSavingsDay ℝ))} {gs : List ℝ}
    (h : List.Forall₂ (GrowsBy c) windows gs) (hgs : ∀ g ∈ gs, 1 ≤ g ∧ g ≤ 11 / 10)
    (hprod : gs.prod ≤ 2) (hbalance : 0 ≤ balance) :
    windows.foldl (creditWindow c) (money balance) ≤ 2 * balance + windows.length / 100 := by
  have hrun := foldl_creditWindow_le h (fun g hg ↦ (hgs g hg).1) (money_nonneg hbalance)
    (money_money hbalance)
  have hpos : 1 ≤ gs.prod := one_le_prod fun g hg ↦ (hgs g hg).1
  rw [h.length_eq]
  by_cases hsmall : balance < 1 / 200
  · have hzero : money balance = 0 := by
      have hfloor : ⌊balance * 100 + 1 / 2⌋ = 0 := by
        rw [Int.floor_eq_zero_iff]
        exact ⟨by linarith, by linarith⟩
      rw [money_of_nonneg hbalance, hfloor, Int.cast_zero, zero_div]
    have herror := errorSum_le (fun g hg ↦ (hgs g hg).1) hprod
    rw [hzero, mul_zero] at hrun
    rw [hzero]
    linarith
  · have hmoney := money_le hbalance
    have herror := two_mul_prod_add_errorSum hgs hprod
    have hup : gs.prod * money balance ≤ gs.prod * (balance + 1 / 200) :=
      mul_le_mul_of_nonneg_left hmoney (by linarith)
    have hspare : (2 - gs.prod) * (1 / 200) ≤ (2 - gs.prod) * balance :=
      mul_le_mul_of_nonneg_left (not_lt.1 hsmall) (by linarith)
    linarith

end Forecast

end TokenHub.Economy
