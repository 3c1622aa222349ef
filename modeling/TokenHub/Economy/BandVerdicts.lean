import TokenHub.Economy.PriceBands

set_option autoImplicit false

namespace TokenHub.Economy

section Report

inductive Verdict
  | below
  | within
  | above
deriving DecidableEq, Repr

inductive WarningLevel
  | info
  | warning
  | critical
deriving DecidableEq, Repr

/-- A line of the review page. The text it prints is the one of its verdict. -/
structure BalanceWarning where
  feature : String
  level : WarningLevel
  verdict : Verdict
  currentValue : ℚ
  recommendedMin : Option ℚ
  recommendedMax : Option ℚ
  cwiRatio : ℚ
deriving DecidableEq, Repr

def minorDeviationThreshold : ℚ := 15 / 100
def majorDeviationThreshold : ℚ := 30 / 100

def ratioOf (amount cwi : ℚ) : ℚ := if 0 < cwi then amount / cwi else 0

structure RentSettings where
  rentAmount : ℚ
  cadence : Cadence
deriving DecidableEq, Repr

def checkRentBalance (mode : PolicyMode) (rentSettings : Option RentSettings) (cwi : ℚ) :
    List BalanceWarning :=
  match rentSettings with
  | none => []
  | some settings =>
    let amount := quantizeCents settings.rentAmount
    let c := settings.cadence
    let weekly := normalizeToWeekly amount c.frequencyType
      (c.customFrequencyValue.map (fun (n : ℤ) ↦ (n : ℚ))) c.customFrequencyUnit
    let band := rentBand mode cwi c
    let line (level : WarningLevel) (verdict : Verdict) : BalanceWarning :=
      ⟨"Rent", level, verdict, amount, some band.min, some band.max, ratioOf weekly cwi⟩
    if amount < band.min then
      let deviation := if band.min = 0 then 0 else (band.min - amount) / band.min
      [line (if majorDeviationThreshold < deviation then .critical else .warning) .below]
    else if band.max < amount then
      let deviation := if band.max = 0 then 0 else (amount - band.max) / band.max
      [line (if majorDeviationThreshold < deviation then .critical else .warning) .above]
    else [line .info .within]

structure Fine where
  name : String
  amount : ℚ
deriving DecidableEq, Repr

/-- One turn of the loop over fines: ratios are compared, unrounded, and an amount that is a
little under the minimum gets no line. -/
def checkFine (mode : PolicyMode) (cwi : ℚ) (fine : Fine) : List BalanceWarning :=
  let ratios := mode.fineWeekly
  let amount := quantizeCents fine.amount
  let ratio := ratioOf amount cwi
  let line (level : WarningLevel) (verdict : Verdict) : BalanceWarning :=
    ⟨"Fine: " ++ fine.name, level, verdict, amount, some (cwi * ratios.min),
      some (cwi * ratios.max), ratio⟩
  if ratio < ratios.min then
    if minorDeviationThreshold < (ratios.min - ratio) / ratios.min then [line .warning .below]
    else []
  else if ratios.max < ratio then
    [line (if majorDeviationThreshold < (ratio - ratios.max) / ratios.max then .critical
      else .warning) .above]
  else [line .info .within]

def checkFinesBalance (mode : PolicyMode) (fines : List Fine) (cwi : ℚ) : List BalanceWarning :=
  fines.flatMap (checkFine mode cwi)

structure StoreItem where
  name : String
  price : Option ℚ
  economicRole : Option String
  isLongTermGoal : Bool
deriving DecidableEq, Repr

/-- One turn of the loop over products: a long-term goal, a product without a price and one of
no known role are passed over. -/
def checkStoreItem (cwi : ℚ) (item : StoreItem) : List BalanceWarning :=
  if item.isLongTermGoal then []
  else match item.price, EconomicRole.ofValue item.economicRole with
    | some price, some role =>
      let band := storeRoleBand cwi role
      let line (level : WarningLevel) (verdict : Verdict) (low high : Option ℚ) :
          BalanceWarning :=
        ⟨"Store Item: " ++ item.name, level, verdict, price, low, high, ratioOf price cwi⟩
      if band.min ≤ price ∧ price ≤ band.max then [line .info .within none none]
      else if band.max < price then [line .warning .above (some band.min) (some band.max)]
      else [line .warning .below (some band.min) (some band.max)]
    | _, _ => []

def checkStoreItemsBalance (items : List StoreItem) (cwi : ℚ) : List BalanceWarning :=
  items.flatMap (checkStoreItem cwi)

end Report

section Validation

inductive RemarkLevel
  | success
  | warning
  | critical
deriving DecidableEq, Repr

structure Remark where
  level : RemarkLevel
  verdict : Verdict
deriving DecidableEq, Repr

def validateRentValue (mode : PolicyMode) (rentAmount : ℚ) (c : Cadence) (cwi : ℚ) :
    List Remark × Band × ℚ :=
  let weekly := normalizeToWeekly (quantizeCents rentAmount) c.frequencyType
    (c.customFrequencyValue.map (fun (n : ℤ) ↦ quantizeCents n)) c.customFrequencyUnit
  let band := rentBand mode cwi c
  let remarks : List Remark :=
    if rentAmount < band.min then [⟨.warning, .below⟩]
    else if band.max < rentAmount then [⟨.warning, .above⟩]
    else [⟨.success, .within⟩]
  (remarks, band, ratioOf weekly cwi)

def validateFineValue (mode : PolicyMode) (fineAmount cwi : ℚ) : List Remark × Band × ℚ :=
  let band := fineBand mode cwi
  let remarks : List Remark :=
    if fineAmount < band.min then [⟨.warning, .below⟩]
    else if band.max < fineAmount then [⟨.critical, .above⟩]
    else [⟨.success, .within⟩]
  (remarks, band, ratioOf fineAmount cwi)

/-- The recommendations: every role's band, and the selected one's. -/
structure RoleBands where
  roles : List (EconomicRole × Band)
  selectedRole : Option Band
deriving DecidableEq, Repr

def validateStoreItemValue (price cwi : ℚ) (economicRole : Option String) :
    List Remark × RoleBands × ℚ :=
  let roles := [EconomicRole.necessity, .convenience, .addOn].map
    (fun role ↦ (role, storeRoleBand cwi role))
  match EconomicRole.ofValue economicRole with
  | none => ([], ⟨roles, none⟩, ratioOf price cwi)
  | some role =>
    let band := storeRoleBand cwi role
    let remarks : List Remark :=
      if band.min ≤ price ∧ price ≤ band.max then [⟨.success, .within⟩]
      else if band.max < price then [⟨.warning, .above⟩]
      else [⟨.warning, .below⟩]
    (remarks, ⟨roles, some band⟩, ratioOf price cwi)

end Validation

section Agreement

def Band.verdict (b : Band) (amount : ℚ) : Verdict :=
  if amount < b.min then .below else if b.max < amount then .above else .within

def Band.Shows (b : Band) (amount : ℚ) : Prop := b.min ≤ amount ∧ amount ≤ b.max

theorem Band.verdict_within_iff (b : Band) (amount : ℚ) :
    b.verdict amount = .within ↔ b.Shows amount := by
  unfold Band.verdict Band.Shows
  split_ifs with hlow hhigh
  · simp [hlow.not_ge]
  · simp [hhigh.not_ge]
  · simp [not_lt.1 hlow, not_lt.1 hhigh]

def reviewed (warnings : List BalanceWarning) : List Verdict := warnings.map (·.verdict)

def advised {α : Type} (answer : List Remark × α) : List Verdict := answer.1.map (·.verdict)

/-- The review page and the validator give one verdict, the same one, and it is `within` for the
amounts of the band that is shown. -/
structure JudgedAsShown (shown : Band) (review advice : List Verdict) (amount : ℚ) : Prop where
  same : review = advice
  judged : ∃ verdict, advice = [verdict]
  within : review = [.within] ↔ shown.Shows amount
  advised_within : advice = [.within] ↔ shown.Shows amount

theorem JudgedAsShown.of_verdict {shown : Band} {review advice : List Verdict} {amount : ℚ}
    {verdict : Verdict} (hreview : review = [verdict]) (hadvice : advice = [verdict])
    (hwithin : verdict = .within ↔ shown.Shows amount) :
    JudgedAsShown shown review advice amount where
  same := hreview.trans hadvice.symm
  judged := ⟨verdict, hadvice⟩
  within := by rw [hreview, List.singleton_inj, hwithin]
  advised_within := by rw [hadvice, List.singleton_inj, hwithin]

theorem reviewed_rent (mode : PolicyMode) (n : ℤ) (c : Cadence) (cwi : ℚ) :
    reviewed (checkRentBalance mode (some ⟨n / 100, c⟩) cwi) =
      [(rentBand mode cwi c).verdict (n / 100)] := by
  simp only [checkRentBalance, quantizeCents_cents, Band.verdict]
  split_ifs <;> rfl

theorem advised_rent (mode : PolicyMode) (amount : ℚ) (c : Cadence) (cwi : ℚ) :
    advised (validateRentValue mode amount c cwi) =
      [(rentBand mode cwi c).verdict amount] := by
  simp only [validateRentValue, advised, Band.verdict]
  split_ifs <;> rfl

theorem advised_fine (mode : PolicyMode) (amount cwi : ℚ) :
    advised (validateFineValue mode amount cwi) = [(fineBand mode cwi).verdict amount] := by
  simp only [validateFineValue, advised, Band.verdict]
  split_ifs <;> rfl

/-- A product is asked first whether it is inside. -/
def Band.storeVerdict (b : Band) (price : ℚ) : Verdict :=
  if b.min ≤ price ∧ price ≤ b.max then .within else if b.max < price then .above else .below

theorem Band.storeVerdict_within_iff (b : Band) (price : ℚ) :
    b.storeVerdict price = .within ↔ b.Shows price := by
  unfold Band.storeVerdict Band.Shows
  split_ifs with hin habove
  · exact iff_of_true rfl hin
  · exact iff_of_false nofun hin
  · exact iff_of_false nofun hin

theorem reviewed_store {item : StoreItem} {price : ℚ} {role : EconomicRole} (cwi : ℚ)
    (hprice : item.price = some price) (hrole : item.economicRole = some role.value)
    (hgoal : item.isLongTermGoal = false) :
    reviewed (checkStoreItemsBalance [item] cwi) =
      [(storeRoleBand cwi role).storeVerdict price] := by
  simp only [checkStoreItemsBalance, List.flatMap_singleton, checkStoreItem, hgoal, hprice, hrole,
    EconomicRole.ofValue_value, Band.storeVerdict, Bool.false_eq_true, if_false]
  split_ifs <;> rfl

theorem advised_store (price cwi : ℚ) (role : EconomicRole) :
    advised (validateStoreItemValue price cwi (some role.value)) =
      [(storeRoleBand cwi role).storeVerdict price] := by
  simp only [validateStoreItemValue, EconomicRole.ofValue_value, advised, Band.storeVerdict]
  split_ifs <;> rfl

theorem reviewed_fine (mode : PolicyMode) (name : String) (n : ℤ) (cwi : ℚ) :
    reviewed (checkFinesBalance mode [⟨name, n / 100⟩] cwi) =
      if ratioOf (n / 100) cwi < mode.fineWeekly.min then
        if minorDeviationThreshold <
            (mode.fineWeekly.min - ratioOf (n / 100) cwi) / mode.fineWeekly.min then [.below]
        else []
      else if mode.fineWeekly.max < ratioOf (n / 100) cwi then [.above] else [.within] := by
  simp only [checkFinesBalance, List.flatMap_singleton, checkFine, quantizeCents_cents]
  split_ifs <;> rfl

theorem fineWeekly_bounds (mode : PolicyMode) :
    0 < mode.fineWeekly.min ∧ mode.fineWeekly.min ≤ mode.fineWeekly.max := by
  cases mode <;> norm_num [PolicyMode.fineWeekly]

/-- Without income a fine's share is none of it, and every fine is reviewed as too small. -/
theorem reviewed_fine_without_income (mode : PolicyMode) (name : String) (n : ℤ) {cwi : ℚ}
    (hcwi : cwi ≤ 0) : reviewed (checkFinesBalance mode [⟨name, n / 100⟩] cwi) = [.below] := by
  have hmin := (fineWeekly_bounds mode).1
  rw [reviewed_fine, ratioOf, if_neg hcwi.not_gt, if_pos hmin, sub_zero, div_self hmin.ne',
    if_pos (by norm_num [minorDeviationThreshold])]

/-- The same comparisons on amounts: the bounds are the unrounded ones, and between 85% of the
least amount and that amount nothing is said. -/
theorem reviewed_fine_of_income (mode : PolicyMode) (name : String) (n : ℤ) {cwi : ℚ}
    (hcwi : 0 < cwi) : reviewed (checkFinesBalance mode [⟨name, n / 100⟩] cwi) =
      if (n / 100 : ℚ) < mode.fineWeekly.min * cwi then
        if (n / 100 : ℚ) < 85 / 100 * (mode.fineWeekly.min * cwi) then [.below] else []
      else if mode.fineWeekly.max * cwi < n / 100 then [.above] else [.within] := by
  have hmin := (fineWeekly_bounds mode).1
  have hdeviation : minorDeviationThreshold <
      (mode.fineWeekly.min - n / 100 / cwi) / mode.fineWeekly.min ↔
        (n / 100 : ℚ) < 85 / 100 * (mode.fineWeekly.min * cwi) := by
    have hshare : (n / 100 / cwi : ℚ) < 85 / 100 * mode.fineWeekly.min ↔
        (n / 100 : ℚ) < 85 / 100 * (mode.fineWeekly.min * cwi) := by
      rw [div_lt_iff₀ hcwi, mul_assoc]
    rw [lt_div_iff₀ hmin, ← hshare, minorDeviationThreshold]
    constructor <;> intro h <;> linarith
  rw [reviewed_fine, ratioOf, if_pos hcwi]
  simp only [div_lt_iff₀ hcwi, lt_div_iff₀ hcwi, hdeviation]

/-- A fine that the review page reads as the validator does: no bound's rounding lies between it
and the bound, and it is not a little under the least amount. Without income it is under the
displayed minimum. -/
structure OffTheSeams (mode : PolicyMode) (cwi amount : ℚ) : Prop where
  income : cwi ≤ 0 → amount < (fineBand mode cwi).min
  min_rounding : 0 < cwi →
    (amount < (fineBand mode cwi).min ↔ amount < mode.fineWeekly.min * cwi)
  max_rounding : 0 < cwi →
    ((fineBand mode cwi).max < amount ↔ mode.fineWeekly.max * cwi < amount)
  not_little_under : 0 < cwi → amount < 85 / 100 * (mode.fineWeekly.min * cwi) ∨
    mode.fineWeekly.min * cwi ≤ amount

theorem same_fine_iff (mode : PolicyMode) (name : String) (n : ℤ) (cwi : ℚ) :
    reviewed (checkFinesBalance mode [⟨name, n / 100⟩] cwi) =
      [(fineBand mode cwi).verdict (n / 100)] ↔ OffTheSeams mode cwi (n / 100) := by
  rcases le_or_gt cwi 0 with hcwi | hcwi
  · rw [reviewed_fine_without_income mode name n hcwi, List.singleton_inj, Band.verdict]
    constructor
    · intro h
      refine ⟨fun _ ↦ ?_, fun h ↦ absurd h hcwi.not_gt, fun h ↦ absurd h hcwi.not_gt,
        fun h ↦ absurd h hcwi.not_gt⟩
      by_contra hlow
      rw [if_neg hlow] at h
      split_ifs at h
    · intro h
      rw [if_pos (h.income hcwi)]
  · obtain ⟨hmin, hle⟩ := fineWeekly_bounds mode
    have hshown := fineBand_ordered mode hcwi.le
    have hraw : mode.fineWeekly.min * cwi ≤ mode.fineWeekly.max * cwi := by gcongr
    have hpos : 0 < mode.fineWeekly.min * cwi := by positivity
    rw [reviewed_fine_of_income mode name n hcwi, Band.verdict]
    constructor
    · intro h
      refine ⟨fun h ↦ absurd hcwi h.not_gt, fun _ ↦ ?_, fun _ ↦ ?_, fun _ ↦ ?_⟩ <;>
        split_ifs at h with h₁ h₂ h₃ h₄ <;> grind
    · intro h
      have hlow := h.min_rounding hcwi
      have hhigh := h.max_rounding hcwi
      rcases h.not_little_under hcwi with hlittle | hover
      · have hunder : (n / 100 : ℚ) < mode.fineWeekly.min * cwi := by linarith
        rw [if_pos hunder, if_pos hlittle, if_pos (hlow.2 hunder)]
      · rw [if_neg hover.not_gt, if_neg (fun hlt ↦ hover.not_gt (hlow.1 hlt))]
        by_cases habove : mode.fineWeekly.max * cwi < n / 100
        · rw [if_pos habove, if_pos (hhigh.2 habove)]
        · rw [if_neg habove, if_neg (fun hlt ↦ habove (hhigh.1 hlt))]

/-- One amount under one income and policy: as rent of any cadence, as a fine and as the price of
a product of any role. The review page leaves long-term goals out, as their setting says. -/
structure BandShownIsJudged (mode : PolicyMode) (cwi : ℚ) (n : ℤ) : Prop where
  rent : ∀ c : Cadence, JudgedAsShown (rentBand mode cwi c)
    (reviewed (checkRentBalance mode (some ⟨n / 100, c⟩) cwi))
    (advised (validateRentValue mode (n / 100) c cwi)) (n / 100)
  fine : ∀ name : String, JudgedAsShown (fineBand mode cwi)
    (reviewed (checkFinesBalance mode [⟨name, n / 100⟩] cwi))
    (advised (validateFineValue mode (n / 100) cwi)) (n / 100)
  store : ∀ (role : EconomicRole) (name : String), JudgedAsShown (storeRoleBand cwi role)
    (reviewed (checkStoreItemsBalance [⟨name, some (n / 100), some role.value, false⟩] cwi))
    (advised (validateStoreItemValue (n / 100) cwi (some role.value))) (n / 100)

/-- Rent and prices are always judged by the band that is shown, and fines off the seams. -/
theorem shown_band_is_judged_iff (mode : PolicyMode) (cwi : ℚ) (n : ℤ) :
    BandShownIsJudged mode cwi n ↔ OffTheSeams mode cwi (n / 100) := by
  constructor
  · intro h
    exact (same_fine_iff mode "" n cwi).1 ((h.fine "").same.trans (advised_fine mode _ cwi))
  · intro h
    refine ⟨?_, ?_, ?_⟩
    · intro c
      exact .of_verdict (reviewed_rent mode n c cwi) (advised_rent mode _ c cwi)
        (Band.verdict_within_iff _ _)
    · intro name
      exact .of_verdict ((same_fine_iff mode name n cwi).2 h) (advised_fine mode _ cwi)
        (Band.verdict_within_iff _ _)
    · intro role name
      exact .of_verdict (reviewed_store cwi rfl rfl rfl) (advised_store _ cwi role)
        (Band.storeVerdict_within_iff _ _)

/-- Of an income of 337.55 the tight band's maximum is displayed as 33.76. -/
theorem displayed_maximum_reviewed_as_too_harsh :
    (fineBand .tight (33755 / 100)).max = 3376 / 100 ∧
      reviewed (checkFinesBalance .tight [⟨"Tardy", 3376 / 100⟩] (33755 / 100)) = [.above] ∧
      advised (validateFineValue .tight (3376 / 100) (33755 / 100)) = [.within] ∧
      ¬BandShownIsJudged .tight (33755 / 100) 3376 := by
  have hreview : reviewed (checkFinesBalance .tight [⟨"Tardy", (3376 : ℤ) / 100⟩] (33755 / 100)) =
      [.above] := by decide +kernel
  have hadvice : advised (validateFineValue .tight ((3376 : ℤ) / 100) (33755 / 100)) =
      [.within] := by decide +kernel
  refine ⟨by decide +kernel, hreview, hadvice, fun h ↦ ?_⟩
  have hsame := (h.fine "Tardy").same
  rw [hreview, hadvice] at hsame
  cases hsame

end Agreement

end TokenHub.Economy
