import TokenHub.Economy.DoublingCeiling

set_option autoImplicit false

namespace TokenHub.Economy

open Time (Period)

section Casts

def ProjectedSavingsDay.cast (day : ProjectedSavingsDay ℚ) : ProjectedSavingsDay ℝ :=
  ⟨day.endOfDayBalance.map (↑), day.annualRate.map (↑), day.capitalizes⟩

def SavingsAccrualDay.cast (day : SavingsAccrualDay ℚ) : SavingsAccrualDay ℝ :=
  ⟨day.endOfDayBalance, day.annualRate.map (↑), day.capitalizes⟩

def Accrual.cast (s : Accrual ℚ) : Accrual ℝ := ⟨s.accrued, s.capitalized⟩

theorem dayInterest_cast (base : ℚ) (rate : Option ℚ) :
    dayInterest (base : ℝ) (rate.map (↑)) = (dayInterest base rate : ℚ) := by
  rw [dayInterest_eq, dayInterest_eq]
  cases rate with
  | none => simp
  | some rate =>
    simp only [Option.map_some, Option.getD_some]
    push_cast
    rfl

theorem accrueStep_cast (c : Compounding) (s : Accrual ℚ) (day : SavingsAccrualDay ℚ) :
    accrueStep c s.cast day.cast = (accrueStep c s day).cast := by
  have hmarked : s.cast.marked day.capitalizes = (s.marked day.capitalizes).cast := by
    unfold Accrual.marked
    split_ifs <;> rfl
  have hjoined : c.joined (s.marked day.capitalizes).cast =
      ((c.joined (s.marked day.capitalizes) : ℚ) : ℝ) := by
    cases c with
    | never => exact Rat.cast_zero.symm
    | daily | weekly | monthly => rfl
  have hinterest := dayInterest_cast
    (day.endOfDayBalance + c.joined (s.marked day.capitalizes)) day.annualRate
  rw [Rat.cast_add] at hinterest
  simp only [accrueStep, SavingsAccrualDay.cast, hmarked, hjoined, hinterest]
  simp only [Accrual.cast, Rat.cast_add]

theorem accrueDays_cast (c : Compounding) (days : List (SavingsAccrualDay ℚ)) :
    accrueDays c (days.map (·.cast)) = (accrueDays c days : ℚ) := by
  have hrun : ∀ s : Accrual ℚ, (days.map (·.cast)).foldl (accrueStep c) s.cast =
      (days.foldl (accrueStep c) s).cast := by
    induction days with
    | nil => exact fun s ↦ rfl
    | cons day days ih =>
      intro s
      rw [List.map_cons, List.foldl_cons, List.foldl_cons, accrueStep_cast, ih]
  have hzero : (Accrual.zero : Accrual ℚ).cast = .zero := by
    simp [Accrual.cast, Accrual.zero]
  rw [accrueDays, ← hzero, hrun]
  rfl

theorem money_cast (x : ℚ) : money (x : ℝ) = (money x : ℚ) := by
  have hfloor : ∀ y : ℚ, ⌊(y : ℝ) * 100 + 1 / 2⌋ = ⌊y * 100 + 1 / 2⌋ := by
    intro y
    rw [← Rat.floor_cast (α := ℝ) (y * 100 + 1 / 2)]
    push_cast
    rfl
  have hfloor' := hfloor (-x)
  rw [Rat.cast_neg] at hfloor'
  unfold money
  rw [hfloor, hfloor']
  by_cases hx : 0 ≤ x
  · rw [if_pos hx, if_pos (by exact_mod_cast hx)]
    push_cast
    rfl
  · rw [if_neg hx, if_neg (by exact_mod_cast hx)]
    push_cast
    rfl

theorem creditWindow_cast (c : Compounding) (balance : ℚ)
    (window : List (ProjectedSavingsDay ℚ)) :
    creditWindow c (balance : ℝ) (window.map (·.cast)) = (creditWindow c balance window : ℚ) := by
  have hresolve : (window.map (·.cast)).map (·.resolve (balance : ℝ)) =
      (window.map (·.resolve balance)).map (·.cast) := by
    rw [List.map_map, List.map_map]
    apply List.map_congr_left
    intro day _
    cases hday : day.endOfDayBalance <;>
      simp [ProjectedSavingsDay.cast, ProjectedSavingsDay.resolve, SavingsAccrualDay.cast, hday]
  have hcredit : creditSavingsInterest
      (accrueDays c ((window.map (·.cast)).map (·.resolve (balance : ℝ)))) =
        (creditSavingsInterest (accrueDays c (window.map (·.resolve balance))) : ℚ) := by
    rw [hresolve, accrueDays_cast]
    unfold creditSavingsInterest
    rw [apply_ite (Rat.cast : ℚ → ℝ), Rat.cast_zero, money_cast]
    simp only [Rat.cast_nonpos]
  rw [creditWindow, creditWindow, hcredit, ← Rat.cast_add, money_cast]

theorem foldl_creditWindow_cast (c : Compounding) (balance : ℚ)
    (windows : List (List (ProjectedSavingsDay ℚ))) :
    (windows.map fun w ↦ w.map (·.cast)).foldl (creditWindow c) (balance : ℝ) =
      (windows.foldl (creditWindow c) balance : ℚ) := by
  induction windows generalizing balance with
  | nil => rfl
  | cons window windows ih => rw [List.map_cons, List.foldl_cons, creditWindow_cast, ih]; rfl

theorem projectionWindows_cast (frequency : Compounding) (cadence : PayoutCadence) (q : ℚ)
    (date : ℤ) (n : ℕ) : projectionWindows frequency cadence (fun _ ↦ some (q : ℝ)) date n =
      (projectionWindows frequency cadence (fun _ ↦ some q) date n).map fun w ↦
        w.map (·.cast) := by
  rw [projectionWindows, projectionWindows, List.map_map]
  apply List.map_congr_left
  intro w _
  rw [Function.comp_apply, List.map_map]
  rfl

end Casts

section Mismatch

def finalBalance (frequency : Compounding) (cadence : PayoutCadence) (q : ℚ) (date : ℤ) (n : ℕ)
    (balance : ℚ) : ℚ :=
  (projectionWindows frequency cadence (fun _ ↦ some q) date n).foldl (creditWindow frequency)
    (money balance)

variable {mode : PolicyMode} {frequency : Compounding} {cadence : PayoutCadence}

def windowsEnd (p : Period) (date : ℤ) : ℕ → ℤ
  | 0 => date
  | n + 1 => windowsEnd p (p.days date).2 n

theorem payoutWindows_append (p : Period) (date : ℤ) (n m : ℕ) :
    payoutWindows p date (n + m) = payoutWindows p date n ++ payoutWindows p (windowsEnd p date n) m
    := by
  induction n generalizing date with
  | zero => rw [Nat.zero_add]; rfl
  | succ n ih => rw [Nat.succ_add, payoutWindows, payoutWindows, windowsEnd, ih, List.cons_append]

theorem foldl_cents {c : Compounding} {windows : List (List (ProjectedSavingsDay ℚ))} {balance : ℚ}
    (hbalance : 0 ≤ balance) (hcents : money balance = balance) :
    money (windows.foldl (creditWindow c) balance) = windows.foldl (creditWindow c) balance := by
  induction windows generalizing balance with
  | nil => exact hcents
  | cons window windows ih =>
    have hkeeps := le_creditWindow hbalance hcents c window
    exact ih (hbalance.trans hkeeps) (creditWindow_cents hbalance c window)

theorem finalBalance_append (q : ℚ) (date : ℤ) (n m : ℕ) {balance : ℚ} (hbalance : 0 ≤ balance) :
    finalBalance frequency cadence q date (n + m) balance =
      finalBalance frequency cadence q (windowsEnd cadence.period date n) m
        (finalBalance frequency cadence q date n balance) := by
  unfold finalBalance projectionWindows
  rw [payoutWindows_append, List.map_append, List.foldl_append,
    foldl_cents (money_nonneg hbalance) (money_money hbalance)]

theorem projectSavingsBalances_rational (frequency : Compounding) (cadence : PayoutCadence)
    (q : ℚ) (date : ℤ) (n : ℕ) (balance : ℚ) :
    projectSavingsBalances (balance : ℝ)
      (projectionWindows frequency cadence (fun _ ↦ some (q : ℝ)) date n) [n] (some "compound")
      (some frequency.value) = .ok [((money balance : ℚ) : ℝ),
        ((finalBalance frequency cadence q date n balance : ℚ) : ℝ)] := by
  have hlength : (projectionWindows frequency cadence (fun _ ↦ some (q : ℝ)) date n).length = n := by
    rw [projectionWindows, List.length_map, length_payoutWindows]
  have hlast := projectSavingsBalances_last frequency (balance : ℝ)
    (projectionWindows frequency cadence (fun _ ↦ some (q : ℝ)) date n)
  rw [hlength] at hlast
  rw [hlast, projectionWindows_cast, money_cast, foldl_creditWindow_cast, finalBalance]

theorem lawful_rate {k : ℕ} {q : ℚ} (hk0 : k ≠ 0) (hq : 0 ≤ q)
    (hlawful : (1 + q / k) ^ (k * mode.minDoublingYears) ≤ 2) :
    (q : ℝ) ≤ doublingRate mode.minDoublingYears k := by
  have hyears := (minDoublingYears_bounds mode).1
  rw [le_doublingRate_iff (by omega) hk0 (by exact_mod_cast hq)]
  exact_mod_cast hlawful

theorem not_respects {k : ℕ} (q : ℚ) (date : ℤ) (n : ℕ) (balance : ℚ)
    (hk : frequency.perYear = some k) (hk0 : k ≠ 0) (hq : 0 ≤ q)
    (hlawful : (1 + q / k) ^ (k * mode.minDoublingYears) ≤ 2)
    (hspan : spannedDays (payoutWindows cadence.period date n) ≤ mode.minDoublingYears * 365)
    (hbalance : 0 ≤ balance)
    (hfinal : 2 * balance + n / 100 < finalBalance frequency cadence q date n balance) :
    ¬ RespectsAtOneRate mode frequency cadence := by
  intro h
  have hceiling := maxLawfulAnnualRate_value mode frequency
  rw [hk] at hceiling
  have hrate : (q : ℝ) ≤ doublingRate mode.minDoublingYears k := lawful_rate hk0 hq hlawful
  obtain ⟨final, hproject, hle⟩ := h q _ hceiling date n balance
    (by exact_mod_cast hbalance) (fun _ ↦ hrate) hspan
  rw [projectSavingsBalances_rational] at hproject
  obtain rfl : ((finalBalance frequency cadence q date n balance : ℚ) : ℝ) = final := by
    exact (List.cons.inj (List.cons.inj (Except.ok.inj hproject)).2).1
  have hcast : (finalBalance frequency cadence q date n balance : ℝ) ≤
      ((2 * balance + n / 100 : ℚ) : ℝ) := by
    push_cast
    exact hle
  exact absurd hfinal (not_lt.2 (by exact_mod_cast hcast))

/-- Without what joins, alike days earn alike. -/
theorem accrueDays_never {days : List (SavingsAccrualDay ℚ)} {balance q : ℚ}
    (hbalance : 0 ≤ balance) (hq : 0 ≤ q)
    (hdays : ∀ day ∈ days, day.endOfDayBalance = balance ∧ day.annualRate = some q) :
    accrueDays .never days = days.length * (balance * q / 365) := by
  have hrun : ∀ s : Accrual ℚ, (days.foldl (accrueStep .never) s).accrued =
      s.accrued + days.length * (balance * q / 365) := by
    induction days with
    | nil => simp
    | cons day days ih =>
      intro s
      obtain ⟨hsame, hrate⟩ := hdays day List.mem_cons_self
      have hstep : (accrueStep .never s day).accrued = s.accrued + balance * q / 365 := by
        simp only [accrueStep, Accrual.accrued_marked, Compounding.joined, hsame, hrate, add_zero,
          dayInterest_eq, Option.getD_some, max_eq_left hbalance, max_eq_left hq]
      rw [List.foldl_cons, ih fun d hd ↦ hdays d (List.mem_cons_of_mem day hd), hstep,
        List.length_cons]
      push_cast
      ring
  rw [accrueDays, hrun]
  exact zero_add _

theorem le_money {x : ℚ} (hx : 0 ≤ x) : x - 1 / 200 ≤ money x := by
  rw [money_of_nonneg hx, le_div_iff₀ (by norm_num)]
  have hfloor := Int.lt_floor_add_one (x * 100 + 1 / 2)
  linarith

/-- Whatever joins within it, a week earns its days' interest at least. -/
theorem week_growth (c : Compounding) (compounding : Option Period) {q balance : ℚ} (hq : 0 ≤ q)
    (hbalance : 0 ≤ balance) (hcents : money balance = balance) (date : ℤ) :
    (1 + 7 * q / 365) * balance - 1 / 200 ≤ creditWindow c balance
      (projectedDays (windowDayPlan compounding (Period.week.days date)) fun _ ↦ some q) := by
  generalize hplan : windowDayPlan compounding (Period.week.days date) = plan
  have hlength : plan.length = 7 := by
    rw [← hplan, length_windowDayPlan]
    simp only [Period.days]
    omega
  have hdays : ∀ day ∈ (projectedDays plan fun _ ↦ some q).map (·.resolve balance),
      day.endOfDayBalance = balance ∧ day.annualRate = some q := by
    intro day hday
    obtain ⟨projected, hprojected, rfl⟩ := List.mem_map.1 hday
    obtain ⟨d, -, rfl⟩ := List.mem_map.1 hprojected
    exact ⟨rfl, rfl⟩
  have hnever := accrueDays_never hbalance hq hdays
  have hstrength : Compounding.never.strength ≤ c.strength := Nat.zero_le _
  have hjoins := accrueDays_le hstrength
    (below_refl ((projectedDays plan fun _ ↦ some q).map (·.resolve balance)))
  rw [hnever, List.length_map, projectedDays, List.length_map, hlength] at hjoins
  have hearned : 0 ≤ balance * q / 365 := by positivity
  unfold creditWindow creditSavingsInterest
  split_ifs with hnone
  · rw [add_zero, hcents]
    rw [projectedDays] at hnone
    push_cast at hjoins
    linarith
  · have haccrued := accrueDays_nonneg c
      ((projectedDays plan fun _ ↦ some q).map (·.resolve balance))
    have hmoney := le_money haccrued
    have hkeeps : balance + money (accrueDays c
        ((projectedDays plan fun _ ↦ some q).map (·.resolve balance))) =
          money (balance + money (accrueDays c
            ((projectedDays plan fun _ ↦ some q).map (·.resolve balance)))) := by
      rw [money_cents_add hbalance (money_nonneg haccrued) hcents (money_money haccrued)]
    rw [← hkeeps]
    rw [projectedDays] at hmoney ⊢
    push_cast at hjoins
    linarith

/-- Weekly payouts compound a balance, but for what their rounding can take away. -/
theorem weeks_growth {c : Compounding} {q lost : ℚ} (hq : 0 ≤ q)
    (hlost : 7 * q / 365 * lost = 1 / 200) (date : ℤ) (n : ℕ) {balance : ℚ}
    (hbalance : 0 ≤ balance) :
    (1 + 7 * q / 365) ^ n * (money balance - lost) + lost ≤
      finalBalance c .weekly q date n balance := by
  have hrun : ∀ b : ℚ, 0 ≤ b → money b = b → (1 + 7 * q / 365) ^ n * (b - lost) + lost ≤
      (projectionWindows c .weekly (fun _ ↦ some q) date n).foldl (creditWindow c) b := by
    induction n generalizing date with
    | zero =>
      intro b _ _
      rw [pow_zero, one_mul, sub_add_cancel]
      exact le_rfl
    | succ n ih =>
      intro b hb hcents
      have hweek := week_growth c c.period hq hb hcents date
      have hkeeps := le_creditWindow hb hcents c
        (projectedDays (windowDayPlan c.period (Period.week.days date)) fun _ ↦ some q)
      have hrest := ih (Period.week.days date).2 _ (hb.trans hkeeps) (creditWindow_cents hb c _)
      refine le_trans ?_ hrest
      rw [pow_succ, mul_assoc]
      apply add_le_add_left
      apply mul_le_mul_of_nonneg_left
      · linarith
      · positivity
  exact hrun _ (money_nonneg hbalance) (money_money hbalance)

theorem not_respects_weeks {k : ℕ} (q lost : ℚ) (n : ℕ) (hk : frequency.perYear = some k)
    (hk0 : k ≠ 0) (hq : 0 ≤ q) (hlawful : (1 + q / k) ^ (k * mode.minDoublingYears) ≤ 2)
    (hspan : 7 * n ≤ mode.minDoublingYears * 365) (hlost : 7 * q / 365 * lost = 1 / 200)
    (hfinal : 200000 + n / 100 < (1 + 7 * q / 365) ^ n * (100000 - lost) + lost) :
    ¬ RespectsAtOneRate mode frequency .weekly := by
  have hopening : money (100000 : ℚ) = 100000 := by decide +kernel
  have hgrowth := weeks_growth (c := frequency) hq hlost 1 n (by norm_num : (0 : ℚ) ≤ 100000)
  rw [hopening] at hgrowth
  apply not_respects q 1 n 100000 hk hk0 hq hlawful
  · rw [PayoutCadence.period, spannedDays_weekly]
    exact_mod_cast hspan
  · norm_num
  · refine lt_of_lt_of_le ?_ hgrowth
    linarith

/-- Weekly payouts compound interest that compounds by the month more often. -/
theorem monthly_in_weeks (mode : PolicyMode) : ¬ RespectsAtOneRate mode .monthly .weekly := by
  cases mode with
  | comfortable =>
    apply not_respects_weeks (879 / 2500) (365 / (1400 * (879 / 2500))) 104 rfl
    all_goals decide +kernel
  | default =>
    apply not_respects_weeks (349 / 2000) (365 / (1400 * (349 / 2000))) 208 rfl
    all_goals decide +kernel
  | tight =>
    apply not_respects_weeks (29 / 250) (365 / (1400 * (29 / 250))) 312 rfl
    all_goals decide +kernel

theorem weekly_in_months (mode : PolicyMode) : ¬ RespectsAtOneRate mode .weekly .monthly := by
  cases mode with
  | comfortable =>
    apply not_respects (3477 / 10000) 765550 24 100000 rfl
    all_goals decide +kernel
  | default =>
    have hhalf : finalBalance .weekly .monthly (17357 / 100000) 765550 24 100000 =
        14142589 / 100 := by
      decide +kernel
    apply not_respects (17357 / 100000) 765550 (24 + 24) 100000 rfl
    case hfinal =>
      rw [finalBalance_append _ _ _ _ (by norm_num), hhalf]
      decide +kernel
    all_goals decide +kernel
  | tight =>
    have hhalf : finalBalance .weekly .monthly (2313 / 20000) 765550 36 100000 =
        3535607 / 25 := by
      decide +kernel
    apply not_respects (2313 / 20000) 765550 (36 + 36) 100000 rfl
    case hfinal =>
      rw [finalBalance_append _ _ _ _ (by norm_num), hhalf]
      decide +kernel
    all_goals decide +kernel

theorem RespectsAtOneRate.compounds {frequency : Compounding} {cadence : PayoutCadence}
    (h : RespectsAtOneRate mode frequency cadence) (hcompounds : frequency ≠ .never) :
    frequency = .daily ∨ frequency = cadence.compounding := by
  by_contra hneither
  rw [not_or] at hneither
  obtain ⟨hdaily, hown⟩ := hneither
  cases frequency with
  | never => exact hcompounds rfl
  | daily => exact hdaily rfl
  | weekly =>
    cases cadence with
    | weekly => exact hown rfl
    | monthly => exact weekly_in_months mode h
  | monthly =>
    cases cadence with
    | weekly => exact monthly_in_weeks mode h
    | monthly => exact hown rfl

/-- Savings are kept from doubling before their time just where each payout comes with a
compounding or every day compounds: else they are not even at one rate. -/
theorem doubling_time_respected_iff (mode : PolicyMode) {frequency : Compounding}
    (cadence : PayoutCadence) (hcompounds : frequency ≠ .never) :
    (RespectsDoublingTime mode frequency cadence ↔
      frequency = .daily ∨ frequency = cadence.compounding) ∧
    (RespectsAtOneRate mode frequency cadence ↔
      frequency = .daily ∨ frequency = cadence.compounding) := by
  have hrespects : frequency = .daily ∨ frequency = cadence.compounding →
      RespectsDoublingTime mode frequency cadence := by
    rintro (rfl | rfl)
    · exact daily_respects mode cadence
    · exact own_respects mode cadence
  exact ⟨⟨fun h ↦ h.atOneRate.compounds hcompounds, hrespects⟩,
    ⟨fun h ↦ h.compounds hcompounds, fun h ↦ (hrespects h).atOneRate⟩⟩

theorem doubling_time_respected_monthly : RespectsDoublingTime .tight .monthly .monthly :=
  (doubling_time_respected_iff .tight .monthly (by decide)).1.2 (.inr rfl)

/-- At 35.16% compounded monthly and paid out weekly, 100,000 becomes more than 200,001.04 in 104
weeks, under a ceiling that is to let it double in two years. -/
theorem savings_double_before_their_time : ∃ ceiling final : ℝ,
    maxLawfulAnnualRate .comfortable (some "monthly") = .ok ceiling ∧
      ((879 / 2500 : ℚ) : ℝ) ≤ ceiling ∧
      spannedDays (payoutWindows .week 739257 104) ≤ PolicyMode.comfortable.minDoublingYears * 365 ∧
      projectSavingsBalances ((100000 : ℚ) : ℝ) (projectionWindows .monthly .weekly
        (fun _ ↦ some ((879 / 2500 : ℚ) : ℝ)) 739257 104) [104] (some "compound")
        (some "monthly") = .ok [((100000 : ℚ) : ℝ), final] ∧ 2 * 100000 + 104 / 100 < final := by
  have hopening : money (100000 : ℚ) = 100000 := by decide +kernel
  have hgrowth := weeks_growth (c := .monthly) (by norm_num : (0 : ℚ) ≤ 879 / 2500)
    (by norm_num : 7 * (879 / 2500 : ℚ) / 365 * (365 / (1400 * (879 / 2500))) = 1 / 200) 739257 104
    (by norm_num : (0 : ℚ) ≤ 100000)
  have hfinal : (2 * 100000 + 104 / 100 : ℚ) <
      finalBalance .monthly .weekly (879 / 2500) 739257 104 100000 := by
    rw [hopening] at hgrowth
    exact lt_of_lt_of_le (by decide +kernel) hgrowth
  have hproject := projectSavingsBalances_rational .monthly .weekly
    (879 / 2500) 739257 104 100000
  rw [hopening] at hproject
  refine ⟨_, _, maxLawfulAnnualRate_value .comfortable .monthly, ?_, ?_, hproject, ?_⟩
  · exact lawful_rate (by decide : 12 ≠ 0) (by norm_num) (by decide +kernel)
  · decide +kernel
  · have hcast : (((2 * 100000 + 104 / 100 : ℚ)) : ℝ) <
        (finalBalance .monthly .weekly (879 / 2500) 739257 104 100000 : ℚ) := by
      exact_mod_cast hfinal
    push_cast at hcast
    exact hcast

end Mismatch

end TokenHub.Economy
