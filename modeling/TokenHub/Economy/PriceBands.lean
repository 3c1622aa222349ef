import TokenHub.Economy.SavingsAccrual

set_option autoImplicit false

namespace TokenHub.Economy

open Rent (normalized)

section Policy

inductive PolicyMode
  | tight
  | default
  | comfortable
deriving DecidableEq, Repr

/-- Ratios of weekly income, or the amounts made of them. The roles of store products have no
recommended one. -/
structure Band where
  min : ℚ
  max : ℚ
  recommended : Option ℚ
deriving DecidableEq, Repr

def Band.map (f : ℚ → ℚ) (b : Band) : Band := ⟨f b.min, f b.max, b.recommended.map f⟩

def PolicyMode.rentWeekly : PolicyMode → Band
  | .tight => ⟨3 / 10, 4 / 10, some (35 / 100)⟩
  | .default => ⟨35 / 100, 5 / 10, some (425 / 1000)⟩
  | .comfortable => ⟨4 / 10, 55 / 100, some (475 / 1000)⟩

def PolicyMode.fineWeekly : PolicyMode → Band
  | .tight => ⟨5 / 100, 10 / 100, some (75 / 1000)⟩
  | .default => ⟨5 / 100, 12 / 100, some (85 / 1000)⟩
  | .comfortable => ⟨7 / 100, 15 / 100, some (11 / 100)⟩

inductive EconomicRole
  | necessity
  | convenience
  | addOn
deriving DecidableEq, Repr

def EconomicRole.value : EconomicRole → String
  | .necessity => "necessity"
  | .convenience => "convenience"
  | .addOn => "add_on"

/-- The enumeration's constructor, with its `ValueError` as `none`. -/
def EconomicRole.ofValue (text : Option String) : Option EconomicRole :=
  match text with
  | some "necessity" => some .necessity
  | some "convenience" => some .convenience
  | some "add_on" => some .addOn
  | _ => none

@[simp] theorem EconomicRole.ofValue_value (role : EconomicRole) :
    EconomicRole.ofValue (some role.value) = some role := by cases role <;> rfl

def EconomicRole.ratios : EconomicRole → Band
  | .necessity => ⟨1 / 100, 10 / 100, none⟩
  | .convenience => ⟨11 / 100, 20 / 100, none⟩
  | .addOn => ⟨21 / 100, 30 / 100, none⟩

end Policy

section Scaling

def averageWeeksPerMonth : ℚ := 4348214285714 / 1000000000000

/-- `_quantize_money` of the policy: half-up, as the engine's `_money`. -/
def quantizeMoney (value : ℚ) : ℚ := money value

/-- `_quantize_currency` of the models: half-even. -/
def quantizeCents (value : ℚ) : ℚ :=
  let low := ⌊value * 100⌋
  let rest := value * 100 - low
  (if rest < 1 / 2 ∨ rest = 1 / 2 ∧ low % 2 = 0 then low else low + 1 : ℤ) / 100

structure Cadence where
  frequencyType : Option String
  customFrequencyValue : Option ℤ
  customFrequencyUnit : Option String
deriving DecidableEq, Repr

def Cadence.count (c : Cadence) : ℚ :=
  if c.customFrequencyValue.getD 0 = 0 then 1 else c.customFrequencyValue.getD 0

def weeksPerPeriod (c : Cadence) : ℚ :=
  match normalized c.frequencyType "weekly" with
  | "custom" =>
    match normalized c.customFrequencyUnit "days" with
    | "weeks" => c.count
    | "months" => averageWeeksPerMonth * c.count
    | _ => c.count / 7
  | "daily" => 142857142857 / 1000000000000
  | "biweekly" => 2
  | "monthly" => averageWeeksPerMonth
  | "semester" => 18
  | "yearly" => 52
  | _ => 1

def scaleBand (cwi : ℚ) (ratios : Band) (weeks : ℚ) : Band :=
  ratios.map (fun ratio ↦ quantizeMoney (quantizeMoney cwi * ratio * weeks))

def rentBand (mode : PolicyMode) (cwi : ℚ) (c : Cadence) : Band :=
  scaleBand cwi mode.rentWeekly (weeksPerPeriod c)

def fineBand (mode : PolicyMode) (cwi : ℚ) : Band := scaleBand cwi mode.fineWeekly 1

def storeRoleBand (cwi : ℚ) (role : EconomicRole) : Band := scaleBand cwi role.ratios 1

/-- `_normalize_to_weekly`. The frequency is compared as it stands, and the unit's blanks count. -/
def normalizeToWeekly (value : ℚ) (frequency : Option String) (customFrequencyValue : Option ℚ)
    (customFrequencyUnit : Option String) : ℚ :=
  match frequency with
  | some "monthly" => quantizeCents (value / averageWeeksPerMonth)
  | some "weekly" => value
  | some "biweekly" => quantizeCents (value / 2)
  | some "daily" => quantizeCents (value * 7)
  | some "custom" =>
    let freqValue := if customFrequencyValue.getD 0 = 0 then 1 else customFrequencyValue.getD 0
    let unit := if customFrequencyUnit.getD "" = "" then "days" else customFrequencyUnit.getD ""
    match String.ofList (unit.toList.map Rent.lowerChar) with
    | "weeks" => quantizeCents (value / freqValue)
    | "months" => quantizeCents (value / (averageWeeksPerMonth * freqValue))
    | _ => quantizeCents (value * (7 / freqValue))
  | _ => value

end Scaling

section Bounds

theorem scaleBand_ordered {cwi weeks : ℚ} {ratios : Band} (hcwi : 0 ≤ cwi) (hweeks : 0 ≤ weeks)
    (hmin : 0 ≤ ratios.min) (hmax : ratios.min ≤ ratios.max) :
    (scaleBand cwi ratios weeks).min ≤ (scaleBand cwi ratios weeks).max := by
  have hincome : 0 ≤ quantizeMoney cwi := money_nonneg hcwi
  apply money_mono (by positivity)
  gcongr

theorem fineBand_ordered (mode : PolicyMode) {cwi : ℚ} (hcwi : 0 ≤ cwi) :
    (fineBand mode cwi).min ≤ (fineBand mode cwi).max := by
  apply scaleBand_ordered hcwi zero_le_one <;> cases mode <;> norm_num [PolicyMode.fineWeekly]

theorem quantizeCents_cents (n : ℤ) : quantizeCents (n / 100) = n / 100 := by
  have hscale : (n : ℚ) / 100 * 100 = n := by ring
  simp only [quantizeCents, hscale, Int.floor_intCast, sub_self]
  rw [if_pos (.inl (by norm_num))]

end Bounds

end TokenHub.Economy
