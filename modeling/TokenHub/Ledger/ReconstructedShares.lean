import TokenHub.Attendance.HistoricalReplay
import TokenHub.Ledger.AllocationLaws
import TokenHub.Lib.Tally
import Mathlib.Data.Prod.Lex
import Mathlib.Data.String.Basic

set_option autoImplicit false

namespace TokenHub.Ledger

open Lib.Decimals Lib.Checks Lib.Apportionment Lib.Tally
open Attendance (HistoricalPairWeight HistoricalReconstructedShare PairId)

/-- What ends the validation of a historical settlement: `RecoveryIntegrityError`, the decimal
context, or a key that cannot be hashed. -/
inductive SettlementRaise
  | recoveryIntegrityError (code : String)
  | invalidOperation
  | typeError
deriving DecidableEq, Repr

def integrityFailure : SettlementRaise := .recoveryIntegrityError "INTEGRITY_FAILURE"

def provenanceUnavailable : SettlementRaise := .recoveryIntegrityError "PROVENANCE_UNAVAILABLE"

section Weights

abbrev key (w : HistoricalPairWeight) : PairId := (w.openingEventId, w.closingEventId)

/-- The order of the entries of `ranked` that leave the same remainder. -/
def SoonerClosed (v w : HistoricalPairWeight) : Prop :=
  v.closingTimestamp < w.closingTimestamp ∨
    v.closingTimestamp = w.closingTimestamp ∧ PairId.le (key v) (key w)

instance : DecidableRel SoonerClosed := fun v w ↦ by unfold SoonerClosed; infer_instance

def admitWeight (seen : List HistoricalPairWeight) (w : HistoricalPairWeight) :
    Except SettlementRaise (List HistoricalPairWeight) := do
  require ((∀ v ∈ seen, key v ≠ key w) ∧ 0 < w.openingEventId ∧ 0 < w.closingEventId ∧
    0 ≤ w.durationMicroseconds) integrityFailure
  return seen ++ [w]

/-- `sum(weights.values())`. -/
def denominator (ws : List HistoricalPairWeight) : ℤ := (ws.map (·.durationMicroseconds)).sum

def weightQuota (cents : ℤ) (ws : List HistoricalPairWeight) (w : HistoricalPairWeight) : ℚ :=
  if denominator ws = 0 then 0
  else ((cents * w.durationMicroseconds : ℤ) : ℚ) / denominator ws

end Weights

section Pricing

variable (decimal : String → Option Decimal)

/-- The cents of some seconds, in either order of the arithmetic. -/
def price (multiplyFirst : Bool) (rate : Magnitude) (seconds : ℕ) : Option ℕ :=
  if multiplyFirst = true then shareCents seconds rate
  else (Magnitude.mul ⟨seconds, 0⟩ (rate.div ⟨60, 0⟩)).toHundredths

def reconstructedShareCents (multiplyFirst : Bool) (s : HistoricalReconstructedShare) :
    Except SettlementRaise ℤ := do
  let value ← demand (decimal s.ratePerMinute) .invalidOperation
  let rate ← demand (Magnitude.ofDecimal value) integrityFailure
  require (0 ≤ s.creditedSeconds) integrityFailure
  let cents ← demand (price multiplyFirst rate s.creditedSeconds.toNat) .invalidOperation
  match s.paidSeconds with
  | none => return cents
  | some paid =>
    require (0 ≤ paid ∧ paid < s.creditedSeconds) integrityFailure
    let before ← demand (price multiplyFirst rate paid.toNat) .invalidOperation
    return cents - before

/-- The whole cents of each weight, and a cent more for the first of `ranked`. -/
def allocateWeights (cents : ℤ) (ws : List HistoricalPairWeight) : List (PairId × ℤ) :=
  let first := favoured (weightQuota cents ws) SoonerClosed ws cents
  ws.map fun w ↦ (key w, if ∃ v ∈ first, key v = key w then ⌊weightQuota cents ws w⌋ + 1
    else ⌊weightQuota cents ws w⌋)

def allocateReconstructedShare (multiplyFirst : Bool) (p : List (PairId × ℤ) × ℤ)
    (s : HistoricalReconstructedShare) : Except SettlementRaise (List (PairId × ℤ) × ℤ) := do
  let cents ← reconstructedShareCents decimal multiplyFirst s
  require (s.paidSeconds.isSome = true → 0 < cents) integrityFailure
  let ws ← s.weights.foldlM admitWeight []
  require (cents ≠ 0 → denominator ws ≠ 0) integrityFailure
  let floors := allocateWeights cents ws
  require ((floors.map (·.2)).sum = cents) integrityFailure
  return (addAll p.1 floors, p.2 + cents)

/-- Whether an arithmetic rule multiplies first; `none` for one that is not known. -/
def multipliesFirst (arithmeticRule : String) : Option Bool :=
  if arithmeticRule = "divide_first_half_even_28" then some false
  else if arithmeticRule = "multiply_first_half_even_28" then some true
  else none

def ByKey (a b : PairId × ℤ) : Prop := PairId.le a.1 b.1

instance : DecidableRel ByKey := fun a b ↦ by unfold ByKey; infer_instance

def allocateReconstructedShares (shares : List HistoricalReconstructedShare)
    (arithmeticRule : String) : Except SettlementRaise (ℤ × List (PairId × ℤ)) := do
  let multiplyFirst ← demand (multipliesFirst arithmeticRule) provenanceUnavailable
  let p ← shares.foldlM (allocateReconstructedShare decimal multiplyFirst) ([], 0)
  return (p.2, p.1.insertionSort ByKey)

end Pricing

section Order

theorem soonerClosed_iff {v w : HistoricalPairWeight} : SoonerClosed v w ↔
    toLex (v.closingTimestamp, toLex (key v)) ≤ toLex (w.closingTimestamp, toLex (key w)) := by
  rw [Prod.Lex.toLex_le_toLex, Prod.Lex.toLex_le_toLex]
  exact Iff.rfl

instance : Std.Total SoonerClosed where
  total v w := by
    rw [soonerClosed_iff, soonerClosed_iff]
    exact le_total _ _

instance : IsTrans HistoricalPairWeight SoonerClosed where
  trans u v w := by
    rw [soonerClosed_iff, soonerClosed_iff, soonerClosed_iff]
    exact le_trans

theorem SoonerClosed.key_eq {v w : HistoricalPairWeight} (h : SoonerClosed v w)
    (h' : SoonerClosed w v) : key v = key w := by
  have heq := le_antisymm (soonerClosed_iff.1 h) (soonerClosed_iff.1 h')
  exact congrArg (fun x ↦ ofLex (ofLex x).2) heq

theorem pairLe_iff {k l : PairId} : PairId.le k l ↔ toLex k ≤ toLex l := by
  rw [Prod.Lex.toLex_le_toLex]
  exact Iff.rfl

instance : Std.Total ByKey where
  total a b := by
    unfold ByKey
    rw [pairLe_iff, pairLe_iff]
    exact le_total _ _

instance : IsTrans (PairId × ℤ) ByKey where
  trans a b c := by
    unfold ByKey
    rw [pairLe_iff, pairLe_iff, pairLe_iff]
    exact le_trans

theorem ByKey.key_eq {a b : PairId × ℤ} (h : ByKey a b) (h' : ByKey b a) : a.1 = b.1 :=
  toLex.injective (le_antisymm (pairLe_iff.1 h) (pairLe_iff.1 h'))

end Order

section Portions

variable {cents : ℤ} {ws vs : List HistoricalPairWeight} {w : HistoricalPairWeight}

def portion (cents : ℤ) (ws : List HistoricalPairWeight) (w : HistoricalPairWeight) : ℤ :=
  Lib.Apportionment.share (weightQuota cents ws) SoonerClosed ws cents w

@[simp] theorem denominator_cons : denominator (w :: ws) =
    w.durationMicroseconds + denominator ws := by
  rw [denominator, List.map_cons, List.sum_cons, denominator]

theorem sum_weightQuota (h : cents ≠ 0 → denominator ws ≠ 0) :
    (ws.map (weightQuota cents ws)).sum = (cents : ℚ) := by
  by_cases hzero : denominator ws = 0
  · have hcents : cents = 0 := by
      by_contra hne
      exact h hne hzero
    have hall : ws.map (weightQuota cents ws) = ws.map fun _ ↦ (0 : ℚ) :=
      List.map_congr_left fun w _ ↦ if_pos hzero
    rw [hall, hcents]
    simp
  · have hsum : ∀ vs : List HistoricalPairWeight, (vs.map (weightQuota cents ws)).sum =
        (cents : ℚ) * denominator vs / denominator ws := by
      intro vs
      induction vs with
      | nil => simp [denominator]
      | cons v vs ih =>
        rw [List.map_cons, List.sum_cons, ih, weightQuota, if_neg hzero, denominator_cons]
        push_cast
        ring
    have hne : (denominator ws : ℚ) ≠ 0 := by exact_mod_cast hzero
    rw [hsum, mul_div_assoc, div_self hne, mul_one]

theorem allocateWeights_eq (hkeys : (ws.map key).Nodup) :
    allocateWeights cents ws = ws.map fun w ↦ (key w, portion cents ws w) := by
  refine List.map_congr_left fun w hw ↦ ?_
  have hmem : (∃ v ∈ favoured (weightQuota cents ws) SoonerClosed ws cents, key v = key w) ↔
      w ∈ favoured (weightQuota cents ws) SoonerClosed ws cents := by
    constructor
    · rintro ⟨v, hv, hkey⟩
      rwa [← List.inj_on_of_nodup_map hkeys (favoured_subset hv) hw hkey]
    · exact fun h ↦ ⟨w, h, rfl⟩
  simp only [hmem, portion, Lib.Apportionment.share]
  split_ifs <;> simp

theorem sum_allocateWeights (hkeys : (ws.map key).Nodup)
    (h : cents ≠ 0 → denominator ws ≠ 0) :
    ((allocateWeights cents ws).map (·.2)).sum = cents := by
  rw [allocateWeights_eq hkeys, List.map_map]
  exact sum_share hkeys.of_map (sum_weightQuota h)

theorem denominator_perm (h : ws.Perm vs) : denominator ws = denominator vs := (h.map _).sum_eq

theorem portion_perm (hkeys : (ws.map key).Nodup) (h : ws.Perm vs) :
    portion cents ws = portion cents vs := by
  have hquota : weightQuota cents ws = weightQuota cents vs := by
    funext w
    rw [weightQuota, weightQuota, denominator_perm h]
  unfold portion
  rw [hquota]
  exact share_perm h fun v hv w hw hvw hwv ↦
    List.inj_on_of_nodup_map hkeys hv hw (hvw.key_eq hwv)

end Portions

section Shares

variable {decimal : String → Option Decimal} {multiplyFirst : Bool} {cents total : ℤ}
  {s s' : HistoricalReconstructedShare} {seen ws : List HistoricalPairWeight}
  {shares shares' : List HistoricalReconstructedShare} {p p' : List (PairId × ℤ) × ℤ}

structure Allocatable (decimal : String → Option Decimal) (multiplyFirst : Bool)
    (s : HistoricalReconstructedShare) (cents : ℤ) : Prop where
  priced : reconstructedShareCents decimal multiplyFirst s = .ok cents
  gained : s.paidSeconds.isSome = true → 0 < cents
  keys : (s.weights.map key).Nodup
  proper : ∀ w ∈ s.weights, 0 < w.openingEventId ∧ 0 < w.closingEventId ∧
    0 ≤ w.durationMicroseconds
  weighed : cents ≠ 0 → denominator s.weights ≠ 0

theorem admitWeights_ok {out : List HistoricalPairWeight} :
    ws.foldlM admitWeight seen = .ok out ↔ out = seen ++ ws ∧ (ws.map key).Nodup ∧
      (∀ w ∈ ws, ∀ v ∈ seen, key v ≠ key w) ∧
      ∀ w ∈ ws, 0 < w.openingEventId ∧ 0 < w.closingEventId ∧ 0 ≤ w.durationMicroseconds := by
  induction ws generalizing seen with
  | nil =>
    rw [List.foldlM_nil, pure_eq_ok]
    simp [eq_comm]
  | cons w ws ih =>
    rw [List.foldlM_cons, admitWeight, bind_assoc]
    rw [require_bind_eq_ok]
    simp only [pure_bind, ih]
    constructor
    · rintro ⟨⟨hfresh, hproper⟩, rfl, hkeys, hrest, hall⟩
      refine ⟨by simp, ?_, ?_, ?_⟩
      · rw [List.map_cons, List.nodup_cons]
        refine ⟨fun hmem ↦ ?_, hkeys⟩
        obtain ⟨v, hv, hkey⟩ := List.mem_map.1 hmem
        exact hrest v hv w (by simp) hkey.symm
      · intro v hv u hu
        rcases List.mem_cons.1 hv with rfl | hv
        · exact hfresh u hu
        · exact hrest v hv u (List.mem_append_left _ hu)
      · intro v hv
        rcases List.mem_cons.1 hv with rfl | hv
        · exact hproper
        · exact hall v hv
    · rintro ⟨rfl, hkeys, hrest, hall⟩
      rw [List.map_cons, List.nodup_cons] at hkeys
      refine ⟨⟨hrest w (by simp), hall w (by simp)⟩, by simp, hkeys.2, ?_, ?_⟩
      · intro v hv u hu
        rcases List.mem_append.1 hu with hu | hu
        · exact hrest v (by simp [hv]) u hu
        · rw [List.mem_singleton.1 hu]
          intro heq
          exact hkeys.1 (List.mem_map.2 ⟨v, hv, heq.symm⟩)
      · exact fun v hv ↦ hall v (by simp [hv])

abbrev Priced := HistoricalReconstructedShare × ℤ

def portions (x : Priced) : List (PairId × ℤ) :=
  x.1.weights.map fun w ↦ (key w, portion x.2 x.1.weights w)

theorem allocateReconstructedShare_ok :
    allocateReconstructedShare decimal multiplyFirst p s = .ok p' ↔
      ∃ cents, Allocatable decimal multiplyFirst s cents ∧
        p' = (addAll p.1 (portions (s, cents)), p.2 + cents) := by
  simp only [allocateReconstructedShare, bind_eq_ok, require_eq_ok, pure_eq_ok, admitWeights_ok,
    List.nil_append]
  constructor
  · rintro ⟨cents, hpriced, -, hgained, ws, ⟨rfl, hkeys, -, hproper⟩, -, hweighed, -, -, rfl⟩
    refine ⟨cents, ⟨hpriced, hgained, hkeys, hproper, hweighed⟩, ?_⟩
    rw [allocateWeights_eq hkeys]
    rfl
  · rintro ⟨cents, h, rfl⟩
    refine ⟨cents, h.priced, (), h.gained, s.weights, ⟨rfl, h.keys, by simp, h.proper⟩, (),
      h.weighed, (), sum_allocateWeights h.keys h.weighed, ?_⟩
    rw [allocateWeights_eq h.keys]
    rfl

theorem reconstructedShares_fold :
    shares.foldlM (allocateReconstructedShare decimal multiplyFirst) p = .ok p' ↔
      ∃ priced : List Priced, priced.map (·.1) = shares ∧
        (∀ x ∈ priced, Allocatable decimal multiplyFirst x.1 x.2) ∧
        p' = (addAll p.1 (priced.flatMap portions), p.2 + (priced.map (·.2)).sum) := by
  induction shares generalizing p with
  | nil =>
    rw [List.foldlM_nil, pure_eq_ok]
    constructor
    · rintro rfl
      exact ⟨[], rfl, by simp, by simp [addAll]⟩
    · rintro ⟨priced, hshares, -, rfl⟩
      rw [List.map_eq_nil_iff.1 hshares]
      simp [addAll]
  | cons s shares ih =>
    simp only [List.foldlM_cons, bind_eq_ok, allocateReconstructedShare_ok, ih]
    constructor
    · rintro ⟨-, ⟨cents, hs, rfl⟩, priced, rfl, hall, rfl⟩
      refine ⟨(s, cents) :: priced, rfl, ?_, ?_⟩
      · intro x hx
        rcases List.mem_cons.1 hx with rfl | hx
        · exact hs
        · exact hall x hx
      · rw [List.flatMap_cons, List.map_cons, List.sum_cons, addAll_append, add_assoc]
    · rintro ⟨priced, hshares, hall, rfl⟩
      cases priced with
      | nil => cases hshares
      | cons x priced =>
        rw [List.map_cons, List.cons_eq_cons] at hshares
        obtain ⟨rfl, rfl⟩ := hshares
        refine ⟨_, ⟨x.2, hall x (by simp), rfl⟩, priced, rfl, fun y hy ↦ hall y (by simp [hy]), ?_⟩
        rw [List.flatMap_cons, List.map_cons, List.sum_cons, addAll_append, add_assoc]

end Shares

section Results

variable {decimal : String → Option Decimal} {multiplyFirst : Bool} {rule : String} {total : ℤ}
  {shares shares' : List HistoricalReconstructedShare} {priced priced' : List Priced}
  {allocations : List (PairId × ℤ)} {k : PairId}

def quotas (priced : List Priced) (k : PairId) : List ℚ :=
  priced.flatMap fun x ↦ (x.1.weights.filter (key · = k)).map (weightQuota x.2 x.1.weights)

/-- What a result may say about priced shares. -/
structure FairlyAllocated (priced : List Priced) (total : ℤ) (allocations : List (PairId × ℤ)) :
    Prop where
  total_eq : total = (priced.map (·.2)).sum
  exact : (allocations.map (·.2)).sum = total
  sorted : allocations.Pairwise fun a b ↦ toLex a.1 < toLex b.1
  weighed : ∀ k, k ∈ allocations.map (·.1) ↔ ∃ x ∈ priced, ∃ w ∈ x.1.weights, key w = k
  nearest : ∀ e ∈ allocations, ((quotas priced e.1).map (⌊·⌋)).sum ≤ e.2 ∧
    e.2 ≤ ((quotas priced e.1).map (⌈·⌉)).sum
  unowed : ∀ e ∈ allocations, 0 ≤ e.2

theorem allocateReconstructedShares_ok :
    allocateReconstructedShares decimal shares rule = .ok (total, allocations) ↔
      ∃ multiplyFirst, multipliesFirst rule = some multiplyFirst ∧
        ∃ priced : List Priced, priced.map (·.1) = shares ∧
          (∀ x ∈ priced, Allocatable decimal multiplyFirst x.1 x.2) ∧
          total = (priced.map (·.2)).sum ∧
          allocations = (addAll [] (priced.flatMap portions)).insertionSort ByKey := by
  simp only [allocateReconstructedShares, demand_eq_ok, bind_eq_ok, reconstructedShares_fold,
    pure_eq_ok, Prod.mk.injEq, zero_add]
  constructor
  · rintro ⟨m, hm, p, ⟨priced, hshares, hall, rfl⟩, rfl, rfl⟩
    exact ⟨m, hm, priced, hshares, hall, rfl, rfl⟩
  · rintro ⟨m, hm, priced, hshares, hall, rfl, rfl⟩
    exact ⟨m, hm, _, ⟨priced, hshares, hall, rfl⟩, rfl, rfl⟩

theorem mem_quotas_nonneg {x : Priced} (h : Allocatable decimal multiplyFirst x.1 x.2)
    (hcents : 0 ≤ x.2) {w : HistoricalPairWeight} (hw : w ∈ x.1.weights) :
    0 ≤ weightQuota x.2 x.1.weights w := by
  unfold weightQuota
  split_ifs with hzero
  · exact le_rfl
  · have hdenominator : 0 ≤ denominator x.1.weights := by
      apply List.sum_nonneg
      intro n hn
      obtain ⟨v, hv, rfl⟩ := List.mem_map.1 hn
      exact (h.proper v hv).2.2
    have hduration := (h.proper w hw).2.2
    apply div_nonneg
    · exact_mod_cast mul_nonneg hcents hduration
    · exact_mod_cast hdenominator

theorem Allocatable.nonneg {s : HistoricalReconstructedShare} {cents : ℤ}
    (h : Allocatable decimal multiplyFirst s cents) : 0 ≤ cents := by
  cases hpaid : s.paidSeconds with
  | some paid => exact (h.gained (by rw [hpaid]; rfl)).le
  | none =>
    have hpriced := h.priced
    simp only [reconstructedShareCents, hpaid, bind_eq_ok, demand_eq_ok, pure_eq_ok] at hpriced
    obtain ⟨-, -, -, -, -, -, n, -, rfl⟩ := hpriced
    exact Int.natCast_nonneg n

theorem sum_portions {x : Priced} (h : Allocatable decimal multiplyFirst x.1 x.2) :
    ((portions x).map (·.2)).sum = x.2 := by
  rw [portions, ← allocateWeights_eq h.keys]
  exact sum_allocateWeights h.keys h.weighed

theorem sum_flatMap_portions (h : ∀ x ∈ priced, Allocatable decimal multiplyFirst x.1 x.2) :
    ((priced.flatMap portions).map (·.2)).sum = (priced.map (·.2)).sum := by
  induction priced with
  | nil => rfl
  | cons x priced ih =>
    rw [List.flatMap_cons, List.map_append, List.sum_append, sum_portions (h x (by simp)),
      ih fun y hy ↦ h y (by simp [hy]), List.map_cons, List.sum_cons]

theorem amount_portions (x : Priced) : amount k (portions x) =
    ((x.1.weights.filter (key · = k)).map (portion x.2 x.1.weights)).sum := by
  rw [amount, portions, List.filter_map, List.map_map]
  rfl

theorem sum_between {α : Type} {l : List α} {f : α → ℚ} {g : α → ℤ}
    (h : ∀ a ∈ l, ⌊f a⌋ ≤ g a ∧ g a ≤ ⌈f a⌉) :
    ((l.map f).map (⌊·⌋)).sum ≤ (l.map g).sum ∧
      (l.map g).sum ≤ ((l.map f).map (⌈·⌉)).sum := by
  rw [List.map_map, List.map_map]
  exact ⟨List.sum_le_sum fun a ha ↦ (h a ha).1, List.sum_le_sum fun a ha ↦ (h a ha).2⟩

theorem portion_between {x : Priced} (h : Allocatable decimal multiplyFirst x.1 x.2)
    (w : HistoricalPairWeight) : ⌊weightQuota x.2 x.1.weights w⌋ ≤ portion x.2 x.1.weights w ∧
      portion x.2 x.1.weights w ≤ ⌈weightQuota x.2 x.1.weights w⌉ :=
  ⟨floor_le_share, share_le_ceil (sum_weightQuota h.weighed)⟩

/-- Each pair gets of every share its quota, rounded down or up. -/
theorem amount_between (h : ∀ x ∈ priced, Allocatable decimal multiplyFirst x.1 x.2) :
    ((quotas priced k).map (⌊·⌋)).sum ≤ amount k (priced.flatMap portions) ∧
      amount k (priced.flatMap portions) ≤ ((quotas priced k).map (⌈·⌉)).sum := by
  induction priced with
  | nil => exact ⟨le_rfl, le_rfl⟩
  | cons x priced ih =>
    obtain ⟨hlow, hhigh⟩ := ih fun y hy ↦ h y (by simp [hy])
    obtain ⟨hlow', hhigh'⟩ := sum_between (l := x.1.weights.filter (key · = k))
      fun w _ ↦ portion_between (h x (by simp)) w
    rw [← amount_portions] at hlow' hhigh'
    rw [quotas, List.flatMap_cons, List.flatMap_cons, ← quotas, amount_append, List.map_append,
      List.sum_append, List.map_append, List.sum_append]
    exact ⟨add_le_add hlow' hlow, add_le_add hhigh' hhigh⟩

theorem quotas_nonneg (h : ∀ x ∈ priced, Allocatable decimal multiplyFirst x.1 x.2) :
    0 ≤ ((quotas priced k).map (⌊·⌋)).sum := by
  apply List.sum_nonneg
  intro n hn
  obtain ⟨q, hq, rfl⟩ := List.mem_map.1 hn
  obtain ⟨x, hx, hq⟩ := List.mem_flatMap.1 hq
  obtain ⟨w, hw, rfl⟩ := List.mem_map.1 hq
  exact Int.floor_nonneg.2 (mem_quotas_nonneg (h x hx) (h x hx).nonneg (List.mem_filter.1 hw).1)

theorem nodup_collected (new : List (PairId × ℤ)) : ((addAll [] new).map (·.1)).Nodup :=
  nodup_addAll List.nodup_nil

theorem fairlyAllocated (h : ∀ x ∈ priced, Allocatable decimal multiplyFirst x.1 x.2) :
    FairlyAllocated priced (priced.map (·.2)).sum
      ((addAll [] (priced.flatMap portions)).insertionSort ByKey) := by
  set collected := addAll [] (priced.flatMap portions) with hcollected
  have hperm := List.perm_insertionSort ByKey collected
  have hnodup : ((collected.insertionSort ByKey).map (·.1)).Nodup :=
    (hperm.map _).nodup_iff.2 (nodup_collected _)
  have hamount : ∀ e ∈ collected.insertionSort ByKey,
      e.2 = amount e.1 (priced.flatMap portions) := by
    intro e he
    rw [← amount_of_mem hnodup (n := e.2) he, amount_perm hperm, hcollected, amount_addAll,
      amount_nil, zero_add]
  refine ⟨rfl, ?_, ?_, ?_, ?_, ?_⟩
  · rw [(hperm.map _).sum_eq, hcollected, sum_addAll, sum_flatMap_portions h]
    simp
  · have hsorted := List.pairwise_insertionSort ByKey collected
    rw [List.Nodup, List.pairwise_map] at hnodup
    refine (hsorted.and hnodup).imp ?_
    rintro a b ⟨hle, hne⟩
    exact lt_of_le_of_ne (pairLe_iff.1 hle) fun heq ↦ hne (toLex.injective heq)
  · intro k
    rw [(hperm.map _).mem_iff, hcollected, mem_keys_addAll, List.map_nil, List.map_flatMap]
    simp only [List.not_mem_nil, false_or, List.mem_flatMap, portions, List.map_map, List.mem_map]
    rfl
  · intro e he
    rw [hamount e he]
    exact amount_between h
  · intro e he
    rw [hamount e he]
    exact (quotas_nonneg h).trans (amount_between h).1

theorem allocated_fairly
    (h : allocateReconstructedShares decimal shares rule = .ok (total, allocations)) :
    ∃ multiplyFirst priced, multipliesFirst rule = some multiplyFirst ∧
      priced.map (·.1) = shares ∧
      (∀ x ∈ priced, reconstructedShareCents decimal multiplyFirst x.1 = .ok x.2) ∧
      FairlyAllocated priced total allocations := by
  obtain ⟨multiplyFirst, hrule, priced, hshares, hall, rfl, rfl⟩ :=
    allocateReconstructedShares_ok.1 h
  exact ⟨multiplyFirst, priced, hrule, hshares, fun x hx ↦ (hall x hx).priced,
    fairlyAllocated hall⟩

def SameShares (shares shares' : List HistoricalReconstructedShare) : Prop :=
  ∃ mid, shares.Perm mid ∧ List.Forall₂ (fun s s' ↦
    s' = { s with weights := s'.weights } ∧ s.weights.Perm s'.weights) mid shares'

theorem Allocatable.permuted {s s' : HistoricalReconstructedShare} {cents : ℤ}
    (hsame : s' = { s with weights := s'.weights }) (hperm : s.weights.Perm s'.weights)
    (h : Allocatable decimal multiplyFirst s cents) :
    Allocatable decimal multiplyFirst s' cents ∧
      (portions (s, cents)).Perm (portions (s', cents)) := by
  have hkeys := (hperm.map key).nodup_iff.1 h.keys
  refine ⟨⟨?_, ?_, hkeys, fun w hw ↦ h.proper w (hperm.mem_iff.2 hw), ?_⟩, ?_⟩
  · rw [hsame]
    exact h.priced
  · rw [hsame]
    exact h.gained
  · rw [← denominator_perm hperm]
    exact h.weighed
  · rw [portions, portions, ← portion_perm h.keys hperm]
    exact hperm.map _

theorem exists_priced_permuted (hsame : SameShares shares shares')
    (hshares : priced.map (·.1) = shares)
    (hall : ∀ x ∈ priced, Allocatable decimal multiplyFirst x.1 x.2) :
    ∃ priced' : List Priced, priced'.map (·.1) = shares' ∧
      (∀ x ∈ priced', Allocatable decimal multiplyFirst x.1 x.2) ∧
      (priced.map (·.2)).sum = (priced'.map (·.2)).sum ∧
      (priced.flatMap portions).Perm (priced'.flatMap portions) := by
  obtain ⟨mid, hperm, hmid⟩ := hsame
  have hpriced : List.Forall₂ (fun s (x : Priced) ↦ x.1 = s) shares priced := by
    rw [← hshares, List.forall₂_map_left_iff]
    exact List.forall₂_same.2 fun x _ ↦ rfl
  obtain ⟨xs, hxs, hxsPerm⟩ := List.perm_comp_forall₂ hperm.symm hpriced
  have hxsAll : ∀ x ∈ xs, Allocatable decimal multiplyFirst x.1 x.2 :=
    fun x hx ↦ hall x (hxsPerm.mem_iff.1 hx)
  rw [← (hxsPerm.map (·.2)).sum_eq]
  suffices hfound : ∃ priced' : List Priced, priced'.map (·.1) = shares' ∧
      (∀ x ∈ priced', Allocatable decimal multiplyFirst x.1 x.2) ∧
      (xs.map (·.2)).sum = (priced'.map (·.2)).sum ∧
      (xs.flatMap portions).Perm (priced'.flatMap portions) by
    obtain ⟨priced', hshares', hall', hsum, hportions⟩ := hfound
    exact ⟨priced', hshares', hall', hsum, (hxsPerm.symm.flatMap_right _).trans hportions⟩
  clear hperm hxsPerm hpriced
  induction hmid generalizing xs with
  | nil =>
    cases hxs
    exact ⟨[], rfl, by simp, rfl, .refl _⟩
  | @cons s s' mid shares' hss' _ ih =>
    obtain _ | ⟨rfl, hxs⟩ := hxs
    next x xs =>
    obtain ⟨priced', hshares', hall', hsum, hportions⟩ :=
      ih xs hxs fun y hy ↦ hxsAll y (by simp [hy])
    obtain ⟨hs', hportion⟩ := (hxsAll x (by simp)).permuted hss'.1 hss'.2
    refine ⟨(s', x.2) :: priced', by rw [List.map_cons, hshares'], ?_, ?_, ?_⟩
    · intro y hy
      rcases List.mem_cons.1 hy with rfl | hy
      · exact hs'
      · exact hall' y hy
    · rw [List.map_cons, List.sum_cons, hsum, List.map_cons, List.sum_cons]
    · rw [List.flatMap_cons, List.flatMap_cons]
      exact hportion.append hportions

theorem collected_perm {new new' : List (PairId × ℤ)} (h : new.Perm new') :
    (addAll [] new).insertionSort ByKey = (addAll [] new').insertionSort ByKey := by
  have hperm : (addAll [] new).Perm (addAll [] new') := by
    refine perm_of_amount (nodup_collected _) (nodup_collected _) (fun k ↦ ?_) (fun k ↦ ?_)
    · rw [mem_keys_addAll, mem_keys_addAll, (h.map _).mem_iff]
    · rw [amount_addAll, amount_addAll, amount_perm h]
  apply List.Perm.eq_of_pairwise _ (List.pairwise_insertionSort _ _)
    (List.pairwise_insertionSort _ _)
    ((List.perm_insertionSort _ _).trans (hperm.trans (List.perm_insertionSort _ _).symm))
  intro a b ha hb hab hba
  have ha' := (List.mem_insertionSort _).1 ha
  have hb' := hperm.mem_iff.2 ((List.mem_insertionSort _).1 hb)
  exact List.inj_on_of_nodup_map (nodup_collected new) ha' hb' (hab.key_eq hba)

theorem exists_priced (h : ∀ s ∈ shares, ∃ cents, Allocatable decimal multiplyFirst s cents) :
    ∃ priced : List Priced, priced.map (·.1) = shares ∧
      ∀ x ∈ priced, Allocatable decimal multiplyFirst x.1 x.2 := by
  induction shares with
  | nil => exact ⟨[], rfl, by simp⟩
  | cons s shares ih =>
    obtain ⟨priced, rfl, hall⟩ := ih fun u hu ↦ h u (by simp [hu])
    obtain ⟨cents, hs⟩ := h s (by simp)
    refine ⟨(s, cents) :: priced, rfl, fun x hx ↦ ?_⟩
    rcases List.mem_cons.1 hx with rfl | hx
    · exact hs
    · exact hall x hx

/-- The shares are allocated exactly where each of them can be, to the cent and in proportion to
what each pair weighs, whatever the order they and their weights stand in. -/
theorem reconstructed_shares_allocated (decimal : String → Option Decimal)
    (shares : List HistoricalReconstructedShare) (rule : String) :
    ((∃ result, allocateReconstructedShares decimal shares rule = .ok result) ↔
      ∃ multiplyFirst, multipliesFirst rule = some multiplyFirst ∧
        ∀ s ∈ shares, ∃ cents, Allocatable decimal multiplyFirst s cents) ∧
    ∀ total allocations,
      allocateReconstructedShares decimal shares rule = .ok (total, allocations) →
      (∃ multiplyFirst priced, multipliesFirst rule = some multiplyFirst ∧
        priced.map (·.1) = shares ∧
        (∀ x ∈ priced, reconstructedShareCents decimal multiplyFirst x.1 = .ok x.2) ∧
        FairlyAllocated priced total allocations) ∧
      ∀ shares', SameShares shares shares' →
        allocateReconstructedShares decimal shares' rule = .ok (total, allocations) := by
  constructor
  · constructor
    · rintro ⟨⟨total, allocations⟩, h⟩
      obtain ⟨multiplyFirst, hrule, priced, rfl, hall, -, -⟩ := allocateReconstructedShares_ok.1 h
      refine ⟨multiplyFirst, hrule, fun s hs ↦ ?_⟩
      obtain ⟨x, hx, rfl⟩ := List.mem_map.1 hs
      exact ⟨x.2, hall x hx⟩
    · rintro ⟨multiplyFirst, hrule, hall⟩
      obtain ⟨priced, hshares, hpriced⟩ := exists_priced hall
      exact ⟨_, allocateReconstructedShares_ok.2
        ⟨multiplyFirst, hrule, priced, hshares, hpriced, rfl, rfl⟩⟩
  · intro total allocations h
    refine ⟨allocated_fairly h, fun shares' hsame ↦ ?_⟩
    obtain ⟨multiplyFirst, hrule, priced, hshares, hall, rfl, rfl⟩ :=
      allocateReconstructedShares_ok.1 h
    obtain ⟨priced', hshares', hall', hsum, hperm⟩ := exists_priced_permuted hsame hshares hall
    exact allocateReconstructedShares_ok.2
      ⟨multiplyFirst, hrule, priced', hshares', hall', hsum, collected_perm hperm⟩

end Results

end TokenHub.Ledger
