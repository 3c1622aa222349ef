import Mathlib.Algebra.Order.Floor.Ring
import Mathlib.Algebra.Order.Ring.Rat
import Mathlib.Data.Rat.Floor
import TokenHub.Rent.Schedule
import Mathlib.Tactic.Linarith
import Mathlib.Tactic.NormNum
import Mathlib.Tactic.Positivity

set_option autoImplicit false

namespace TokenHub.Economy

open Rent (normalized)

section Compounding

inductive Compounding
  | never
  | daily
  | weekly
  | monthly
deriving DecidableEq, Repr

/-- The `ValueError` of a frequency that is none of the supported ones. -/
inductive UnsupportedFrequency
  | compoundFrequency (given : Option String)
deriving DecidableEq, Repr

def Compounding.ofText (text : String) : Option Compounding :=
  match text with
  | "never" => some .never
  | "daily" => some .daily
  | "weekly" => some .weekly
  | "monthly" => some .monthly
  | _ => none

/-- `_savings_compounding`: an unsupported frequency is refused even for simple interest. -/
def savingsCompounding (calculationType compoundFrequency : Option String) :
    Except UnsupportedFrequency Compounding :=
  match Compounding.ofText (normalized compoundFrequency "never") with
  | none => .error (.compoundFrequency compoundFrequency)
  | some frequency =>
    if normalized calculationType "simple" = "simple" then .ok .never else .ok frequency

end Compounding

section Accrual

variable {K : Type} [Field K] [LinearOrder K]

/-- One class-local day of a payout window. Amounts and rates are exact. -/
structure SavingsAccrualDay (K : Type) where
  endOfDayBalance : K
  annualRate : Option K
  capitalizes : Bool
deriving DecidableEq, Repr

structure Accrual (K : Type) where
  accrued : K
  capitalized : K

def Accrual.zero : Accrual K := ⟨0, 0⟩

def Compounding.joined (c : Compounding) (s : Accrual K) : K :=
  match c with
  | .never => 0
  | .daily => s.accrued
  | .weekly | .monthly => s.capitalized

/-- What a day earns on a base: a non-positive one, or one without a rate, earns nothing. -/
def dayInterest (base : K) : Option K → K
  | none => 0
  | some rate => if rate ≤ 0 then 0 else if 0 < base then base * rate / 365 else 0

def Accrual.marked (s : Accrual K) (capitalizes : Bool) : Accrual K :=
  if capitalizes then { s with capitalized := s.accrued } else s

def accrueStep (c : Compounding) (s : Accrual K) (day : SavingsAccrualDay K) : Accrual K :=
  let s := s.marked day.capitalizes
  { s with accrued := s.accrued + dayInterest (day.endOfDayBalance + c.joined s) day.annualRate }

/-- The loop of `accrue_daily_interest`. -/
def accrueDays (c : Compounding) (days : List (SavingsAccrualDay K)) : K :=
  (days.foldl (accrueStep c) .zero).accrued

def accrueDailyInterest (days : List (SavingsAccrualDay K))
    (calculationType compoundFrequency : Option String) : Except UnsupportedFrequency K :=
  (savingsCompounding calculationType compoundFrequency).map (fun c ↦ accrueDays c days)

variable [FloorRing K]

/-- `_money`: to cents, a half away from zero. -/
def money (value : K) : K :=
  if 0 ≤ value then (⌊value * 100 + 1 / 2⌋ : K) / 100 else -((⌊-value * 100 + 1 / 2⌋ : K) / 100)

def creditSavingsInterest (accrued : K) : K := if accrued ≤ 0 then 0 else money accrued

/-- A projection day: a known balance, or none for one that is left alone. -/
structure ProjectedSavingsDay (K : Type) where
  endOfDayBalance : Option K
  annualRate : Option K
  capitalizes : Bool
deriving DecidableEq, Repr

def ProjectedSavingsDay.resolve (balance : K) (day : ProjectedSavingsDay K) :
    SavingsAccrualDay K :=
  ⟨day.endOfDayBalance.getD balance, day.annualRate, day.capitalizes⟩

def creditWindow (c : Compounding) (balance : K) (window : List (ProjectedSavingsDay K)) : K :=
  money (balance + creditSavingsInterest (accrueDays c (window.map (·.resolve balance))))

def balancesAfter (c : Compounding) : K → List (List (ProjectedSavingsDay K)) → List K
  | balance, [] => [balance]
  | balance, window :: windows => balance :: balancesAfter c (creditWindow c balance window) windows

/-- `project_savings_balances`. Without windows no frequency is looked at. -/
def projectSavingsBalances (postedBalance : K) (windows : List (List (ProjectedSavingsDay K)))
    (checkpoints : List ℕ) (calculationType compoundFrequency : Option String) :
    Except UnsupportedFrequency (List K) :=
  let opening := money postedBalance
  let series (c : Compounding) := opening :: checkpoints.map (fun count ↦
    (balancesAfter c opening windows).getD (min count windows.length) 0)
  if windows = [] then .ok (series .never)
  else (savingsCompounding calculationType compoundFrequency).map series

end Accrual

end TokenHub.Economy

set_option linter.unusedSectionVars false

namespace TokenHub.Economy

variable {K : Type} [Field K] [LinearOrder K] [IsStrictOrderedRing K]

section Days

/-- Without the cases: what is not positive counts as nothing. -/
theorem dayInterest_eq (base : K) (rate : Option K) :
    dayInterest base rate = max base 0 * max (rate.getD 0) 0 / 365 := by
  cases rate with
  | none => simp [dayInterest]
  | some rate =>
    simp only [dayInterest, Option.getD_some]
    split_ifs with hrate hbase
    · rw [max_eq_right hrate, mul_zero, zero_div]
    · rw [max_eq_left hbase.le, max_eq_left (not_le.1 hrate).le]
    · rw [max_eq_right (not_lt.1 hbase), zero_mul, zero_div]

theorem dayInterest_nonneg (base : K) (rate : Option K) : 0 ≤ dayInterest base rate := by
  rw [dayInterest_eq]
  positivity

theorem dayInterest_mono {base base' : K} {rate rate' : Option K} (hbase : base ≤ base')
    (hrate : rate.getD 0 ≤ rate'.getD 0) : dayInterest base rate ≤ dayInterest base' rate' := by
  rw [dayInterest_eq, dayInterest_eq]
  apply div_le_div_of_nonneg_right _ (by norm_num)
  exact mul_le_mul (max_le_max_right 0 hbase) (max_le_max_right 0 hrate) (le_max_right _ _)
    (le_max_right _ _)

/-- How much of the accrued interest a compounding lets join. -/
def Compounding.strength : Compounding → ℕ
  | .never => 0
  | .weekly | .monthly => 1
  | .daily => 2

structure SavingsAccrualDay.Below (a b : SavingsAccrualDay K) : Prop where
  balance : a.endOfDayBalance ≤ b.endOfDayBalance
  rate : a.annualRate.getD 0 ≤ b.annualRate.getD 0
  marked : a.capitalizes = true → b.capitalizes = true

end Days

section Steps

variable {c c' : Compounding} {s s' : Accrual K} {day day' : SavingsAccrualDay K}

structure Accrual.Valid (s : Accrual K) : Prop where
  nonneg : 0 ≤ s.capitalized
  le : s.capitalized ≤ s.accrued

theorem Accrual.zero_valid : (Accrual.zero : Accrual K).Valid := ⟨le_rfl, le_rfl⟩

theorem Accrual.Valid.accrued_nonneg (h : s.Valid) : 0 ≤ s.accrued := h.nonneg.trans h.le

theorem Accrual.Valid.marked (h : s.Valid) (capitalizes : Bool) : (s.marked capitalizes).Valid := by
  unfold Accrual.marked
  split_ifs
  · exact ⟨h.accrued_nonneg, le_rfl⟩
  · exact h

theorem Accrual.accrued_marked (s : Accrual K) (capitalizes : Bool) :
    (s.marked capitalizes).accrued = s.accrued := by
  unfold Accrual.marked
  split_ifs <;> rfl

theorem Accrual.le_accrueStep (c : Compounding) (s : Accrual K) (day : SavingsAccrualDay K) :
    s.accrued ≤ (accrueStep c s day).accrued := by
  have hearned := dayInterest_nonneg (day.endOfDayBalance + c.joined (s.marked day.capitalizes))
    day.annualRate
  simp only [accrueStep, Accrual.accrued_marked]
  linarith

theorem Accrual.Valid.step (h : s.Valid) (c : Compounding) (day : SavingsAccrualDay K) :
    (accrueStep c s day).Valid := by
  have hmarked := h.marked day.capitalizes
  refine ⟨hmarked.nonneg, ?_⟩
  have hle := Accrual.le_accrueStep c (s.marked day.capitalizes) { day with capitalizes := false }
  have hsame : accrueStep c (s.marked day.capitalizes) { day with capitalizes := false } =
      accrueStep c s day := by
    simp [accrueStep, Accrual.marked]
  rw [hsame] at hle
  exact hmarked.le.trans hle

structure Accrual.Below (s s' : Accrual K) : Prop where
  accrued : s.accrued ≤ s'.accrued
  capitalized : s.capitalized ≤ s'.capitalized

theorem joined_le (hstrength : c.strength ≤ c'.strength) (hs : s.Valid) (hs' : s'.Valid)
    (h : s.Below s') : c.joined s ≤ c'.joined s' := by
  have hjoined := hs'.accrued_nonneg
  have hcapitalized := hs'.nonneg
  have hcross := hs.le.trans h.accrued
  have haccrued := h.accrued
  have hsame := h.capitalized
  cases c <;> cases c' <;> first
    | exact absurd hstrength (by decide)
    | exact le_rfl
    | simpa only [Compounding.joined]

theorem Accrual.Below.marked (h : s.Below s') (hs : s.Valid) {m m' : Bool}
    (hm : m = true → m' = true) : (s.marked m).Below (s'.marked m') := by
  cases m with
  | false =>
    cases m' with
    | false => exact h
    | true => exact ⟨h.accrued, hs.le.trans h.accrued⟩
  | true =>
    rw [hm rfl]
    exact ⟨h.accrued, h.accrued⟩

theorem Accrual.Below.step (h : s.Below s') (hstrength : c.strength ≤ c'.strength)
    (hs : s.Valid) (hs' : s'.Valid) (hday : day.Below day') :
    (accrueStep c s day).Below (accrueStep c' s' day') := by
  have hmarked := h.marked hs hday.marked
  have hjoined := joined_le hstrength (hs.marked day.capitalizes) (hs'.marked day'.capitalizes)
    hmarked
  refine ⟨?_, hmarked.capitalized⟩
  exact add_le_add hmarked.accrued (dayInterest_mono (add_le_add hday.balance hjoined) hday.rate)

end Steps

section Runs

variable {c c' : Compounding} {days days' : List (SavingsAccrualDay K)}

theorem foldl_valid (c : Compounding) (days : List (SavingsAccrualDay K)) {s : Accrual K}
    (h : s.Valid) : (days.foldl (accrueStep c) s).Valid := by
  induction days generalizing s with
  | nil => exact h
  | cons day days ih => exact ih (h.step c day)

theorem foldl_below (hstrength : c.strength ≤ c'.strength)
    (hdays : List.Forall₂ SavingsAccrualDay.Below days days') {s s' : Accrual K} (hs : s.Valid)
    (hs' : s'.Valid) (h : s.Below s') :
    (days.foldl (accrueStep c) s).Below (days'.foldl (accrueStep c') s') := by
  induction hdays generalizing s s' with
  | nil => exact h
  | @cons day day' days days' hday _ ih =>
    exact ih (hs.step c day) (hs'.step c' day') (h.step hstrength hs hs' hday)

theorem accrueDays_nonneg (c : Compounding) (days : List (SavingsAccrualDay K)) :
    0 ≤ accrueDays c days := (foldl_valid c days Accrual.zero_valid).accrued_nonneg

theorem accrueDays_le (hstrength : c.strength ≤ c'.strength)
    (hdays : List.Forall₂ SavingsAccrualDay.Below days days') :
    accrueDays c days ≤ accrueDays c' days' :=
  (foldl_below hstrength hdays Accrual.zero_valid Accrual.zero_valid ⟨le_rfl, le_rfl⟩).accrued

theorem below_refl (days : List (SavingsAccrualDay K)) :
    List.Forall₂ SavingsAccrualDay.Below days days :=
  List.forall₂_same.2 fun _ _ ↦ ⟨le_rfl, le_rfl, id⟩

theorem accrueDays_le_append (c : Compounding) (days more : List (SavingsAccrualDay K)) :
    accrueDays c days ≤ accrueDays c (days ++ more) := by
  induction more using List.reverseRecOn with
  | nil => rw [List.append_nil]
  | append_singleton more day ih =>
    refine ih.trans ?_
    have hstep := Accrual.le_accrueStep c ((days ++ more).foldl (accrueStep c) .zero) day
    simpa [accrueDays] using hstep

theorem foldl_all_marked (hc : c.strength = 1) (h : ∀ day ∈ days, day.capitalizes = true)
    {s s' : Accrual K} (hs : s.accrued = s'.accrued) :
    (days.foldl (accrueStep c) s).accrued = (days.foldl (accrueStep .daily) s').accrued := by
  induction days generalizing s s' with
  | nil => exact hs
  | cons day days ih =>
    apply ih (fun d hd ↦ h d (List.mem_cons_of_mem _ hd))
    have hmarked := h day List.mem_cons_self
    cases c <;> first
      | exact absurd hc (by decide)
      | simp [accrueStep, Accrual.marked, Compounding.joined, hmarked, hs]

end Runs

section Forecast

variable [FloorRing K]

theorem money_of_nonneg {x : K} (hx : 0 ≤ x) : money x = (⌊x * 100 + 1 / 2⌋ : K) / 100 :=
  if_pos hx

theorem money_nonneg {x : K} (hx : 0 ≤ x) : 0 ≤ money x := by
  rw [money_of_nonneg hx]
  have hfloor : (0 : ℤ) ≤ ⌊x * 100 + 1 / 2⌋ := Int.floor_nonneg.2 (by positivity)
  have hcast : (0 : K) ≤ (⌊x * 100 + 1 / 2⌋ : K) := by exact_mod_cast hfloor
  positivity

theorem money_mono {x y : K} (hx : 0 ≤ x) (hxy : x ≤ y) : money x ≤ money y := by
  rw [money_of_nonneg hx, money_of_nonneg (hx.trans hxy)]
  have hfloor : ⌊x * 100 + 1 / 2⌋ ≤ ⌊y * 100 + 1 / 2⌋ := Int.floor_le_floor (by linarith)
  have hcast : (⌊x * 100 + 1 / 2⌋ : K) ≤ (⌊y * 100 + 1 / 2⌋ : K) := by exact_mod_cast hfloor
  exact div_le_div_of_nonneg_right hcast (by norm_num)

theorem money_cents (n : ℤ) (hn : 0 ≤ n) : money ((n : K) / 100) = n / 100 := by
  have hcast : (0 : K) ≤ (n : K) := by exact_mod_cast hn
  have hfloor : ⌊(n : K) / 100 * 100 + 1 / 2⌋ = n := by
    rw [div_mul_cancel₀ _ (by norm_num : (100 : K) ≠ 0), Int.floor_eq_iff]
    constructor
    · linarith
    · norm_num
  rw [money_of_nonneg (by positivity), hfloor]

theorem money_money {x : K} (hx : 0 ≤ x) : money (money x) = money x := by
  rw [money_of_nonneg hx]
  exact money_cents _ (Int.floor_nonneg.2 (by positivity))

theorem credit_nonneg (x : K) : 0 ≤ creditSavingsInterest x := by
  unfold creditSavingsInterest
  split_ifs with h
  · exact le_rfl
  · exact money_nonneg (not_le.1 h).le

theorem le_creditWindow {balance : K} (hbalance : 0 ≤ balance) (hcents : money balance = balance)
    (c : Compounding) (window : List (ProjectedSavingsDay K)) :
    balance ≤ creditWindow c balance window := by
  have hcredit := credit_nonneg (accrueDays c (window.map (·.resolve balance)))
  calc balance = money balance := hcents.symm
    _ ≤ creditWindow c balance window := money_mono hbalance (by linarith)

theorem creditWindow_cents {balance : K} (hbalance : 0 ≤ balance) (c : Compounding)
    (window : List (ProjectedSavingsDay K)) :
    money (creditWindow c balance window) = creditWindow c balance window := by
  have hcredit := credit_nonneg (accrueDays c (window.map (·.resolve balance)))
  exact money_money (by linarith)

theorem le_of_mem_balancesAfter {c : Compounding} {windows : List (List (ProjectedSavingsDay K))}
    {balance b : K} (hbalance : 0 ≤ balance) (hcents : money balance = balance)
    (hb : b ∈ balancesAfter c balance windows) : balance ≤ b := by
  induction windows generalizing balance with
  | nil =>
    rw [balancesAfter, List.mem_singleton] at hb
    exact hb.ge
  | cons window windows ih =>
    rcases List.mem_cons.1 hb with rfl | hb
    · exact le_rfl
    · have hle := le_creditWindow hbalance hcents c window
      exact hle.trans (ih (hbalance.trans hle) (creditWindow_cents hbalance c window) hb)

theorem balancesAfter_mono {c : Compounding} {windows : List (List (ProjectedSavingsDay K))}
    {balance : K} (hbalance : 0 ≤ balance) (hcents : money balance = balance) :
    (balancesAfter c balance windows).Pairwise (· ≤ ·) := by
  induction windows generalizing balance with
  | nil => exact List.pairwise_singleton _ _
  | cons window windows ih =>
    have hle := le_creditWindow hbalance hcents c window
    refine List.pairwise_cons.2 ⟨?_, ih (hbalance.trans hle) (creditWindow_cents hbalance c window)⟩
    intro b hb
    exact hle.trans (le_of_mem_balancesAfter (hbalance.trans hle)
      (creditWindow_cents hbalance c window) hb)

theorem length_balancesAfter (c : Compounding) (balance : K)
    (windows : List (List (ProjectedSavingsDay K))) :
    (balancesAfter c balance windows).length = windows.length + 1 := by
  induction windows generalizing balance with
  | nil => rfl
  | cons window windows ih => rw [balancesAfter, List.length_cons, ih, List.length_cons]

end Forecast

section Summary

variable [FloorRing K]

/-- How interest is ordered by its compounding, its days and its marks, and how a forecast runs. -/
structure OrderedByCompounding (K : Type) [Field K] [LinearOrder K] [FloorRing K] : Prop where
  simple_le : ∀ (days : List (SavingsAccrualDay K)) (c : Compounding), c.strength = 1 →
    accrueDays .never days ≤ accrueDays c days ∧ accrueDays c days ≤ accrueDays .daily days
  nonneg : ∀ (c : Compounding) (days : List (SavingsAccrualDay K)), 0 ≤ accrueDays c days
  mono : ∀ (c : Compounding) (days days' : List (SavingsAccrualDay K)),
    List.Forall₂ (fun a b ↦ a.endOfDayBalance ≤ b.endOfDayBalance ∧
      a.annualRate.getD 0 ≤ b.annualRate.getD 0 ∧ a.capitalizes = b.capitalizes) days days' →
    accrueDays c days ≤ accrueDays c days'
  append : ∀ (c : Compounding) (days more : List (SavingsAccrualDay K)),
    accrueDays c days ≤ accrueDays c (days ++ more)
  marks : ∀ (c : Compounding) (days days' : List (SavingsAccrualDay K)), c.strength = 1 →
    List.Forall₂ (fun a b ↦ a.endOfDayBalance = b.endOfDayBalance ∧
      a.annualRate = b.annualRate ∧ (a.capitalizes = true → b.capitalizes = true)) days days' →
    accrueDays c days ≤ accrueDays c days'
  all_marked : ∀ (c : Compounding) (days : List (SavingsAccrualDay K)), c.strength = 1 →
    (∀ day ∈ days, day.capitalizes = true) → accrueDays c days = accrueDays .daily days
  forecast : ∀ (postedBalance : K) (windows : List (List (ProjectedSavingsDay K)))
    (checkpoints : List ℕ) (calculationType compoundFrequency : Option String) (points : List K),
    0 ≤ postedBalance → checkpoints.Pairwise (· ≤ ·) →
    projectSavingsBalances postedBalance windows checkpoints calculationType compoundFrequency =
      .ok points → points.Pairwise (· ≤ ·)

theorem projectSavingsBalances_ok {postedBalance : K}
    {windows : List (List (ProjectedSavingsDay K))} {checkpoints : List ℕ}
    {calculationType compoundFrequency : Option String} {points : List K}
    (h : projectSavingsBalances postedBalance windows checkpoints calculationType
      compoundFrequency = .ok points) : ∃ c : Compounding, points = money postedBalance ::
        checkpoints.map (fun count ↦
          (balancesAfter c (money postedBalance) windows).getD (min count windows.length) 0) := by
  unfold projectSavingsBalances at h
  simp only at h
  split_ifs at h with hnone
  · exact ⟨.never, (Except.ok.inj h).symm⟩
  · cases hc : savingsCompounding calculationType compoundFrequency with
    | error e =>
      rw [hc] at h
      cases h
    | ok c =>
      rw [hc] at h
      exact ⟨c, (Except.ok.inj h).symm⟩

theorem forecast_mono {postedBalance : K} {windows : List (List (ProjectedSavingsDay K))}
    {checkpoints : List ℕ} {calculationType compoundFrequency : Option String} {points : List K}
    (hposted : 0 ≤ postedBalance) (hcheckpoints : checkpoints.Pairwise (· ≤ ·))
    (h : projectSavingsBalances postedBalance windows checkpoints calculationType
      compoundFrequency = .ok points) : points.Pairwise (· ≤ ·) := by
  obtain ⟨c, rfl⟩ := projectSavingsBalances_ok h
  have hopening := money_nonneg hposted
  have hcents := money_money hposted
  have hmono := @balancesAfter_mono _ _ _ _ _ c windows _ hopening hcents
  have hlength := length_balancesAfter c (money postedBalance) windows
  have hget : ∀ count, (balancesAfter c (money postedBalance) windows).getD
      (min count windows.length) 0 =
        (balancesAfter c (money postedBalance) windows).get ⟨min count windows.length, by omega⟩ :=
    fun count ↦ by
      rw [List.getD_eq_getElem?_getD, List.getElem?_eq_getElem, Option.getD_some, List.get_eq_getElem]
  refine List.pairwise_cons.2 ⟨?_, ?_⟩
  · intro point hpoint
    obtain ⟨count, -, rfl⟩ := List.mem_map.1 hpoint
    rw [hget]
    exact le_of_mem_balancesAfter hopening hcents (List.getElem_mem _)
  · rw [List.pairwise_map]
    apply hcheckpoints.imp
    intro count count' hle
    rw [hget, hget]
    rcases Nat.lt_or_eq_of_le (min_le_min_right windows.length hle) with hlt | heq
    · exact List.pairwise_iff_getElem.1 hmono _ _ _ _ hlt
    · simp only [heq, le_refl]

/-- Simple interest is the least and daily the most; more balance, rate, days or marks never earn
less; a forecast never falls. -/
theorem interest_ordered_by_compounding (K : Type) [Field K] [LinearOrder K]
    [IsStrictOrderedRing K] [FloorRing K] : OrderedByCompounding K where
  simple_le := by
    intro days c hc
    have hbelow := below_refl days
    exact ⟨accrueDays_le (by rw [hc]; decide) hbelow, accrueDays_le (by rw [hc]; decide) hbelow⟩
  nonneg := accrueDays_nonneg
  mono := by
    intro c days days' h
    exact accrueDays_le le_rfl (h.imp fun a b hab ↦ ⟨hab.1, hab.2.1, fun hm ↦ hab.2.2 ▸ hm⟩)
  append := accrueDays_le_append
  marks := by
    intro c days days' _ h
    exact accrueDays_le le_rfl (h.imp fun a b hab ↦ ⟨hab.1.le, hab.2.1 ▸ le_rfl, hab.2.2⟩)
  all_marked := by
    intro c days hc h
    exact foldl_all_marked hc h rfl
  forecast := by
    intro postedBalance windows checkpoints calculationType compoundFrequency points
    exact forecast_mono

theorem interest_ordered_rational : OrderedByCompounding ℚ := interest_ordered_by_compounding ℚ

end Summary

end TokenHub.Economy
