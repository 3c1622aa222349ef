import TokenHub.Ledger.AllocationReading
import TokenHub.Lib.Rounding

set_option autoImplicit false

namespace TokenHub.Ledger

open Lib.Decimals Lib.Checks Lib.Apportionment
open Rent (Instant)

section Lexicographic

variable {a b c x y z u v w : ℤ}

theorem lex_total : (a < x ∨ a = x ∧ (b < y ∨ b = y ∧ c ≤ z)) ∨
    (x < a ∨ x = a ∧ (y < b ∨ y = b ∧ z ≤ c)) := by
  omega

theorem lex_trans (h : a < x ∨ a = x ∧ (b < y ∨ b = y ∧ c ≤ z))
    (h' : x < u ∨ x = u ∧ (y < v ∨ y = v ∧ z ≤ w)) :
    a < u ∨ a = u ∧ (b < v ∨ b = v ∧ c ≤ w) := by
  omega

theorem lex_antisymm (h : a < x ∨ a = x ∧ (b < y ∨ b = y ∧ c ≤ z))
    (h' : x < a ∨ x = a ∧ (y < b ∨ y = b ∧ z ≤ c)) : b = y ∧ c = z := by
  omega

end Lexicographic

instance : Std.Total PricedInterval.Sooner := ⟨fun _ _ ↦ lex_total⟩

instance : IsTrans PricedInterval PricedInterval.Sooner := ⟨fun _ _ _ ↦ lex_trans⟩

theorem PricedInterval.Sooner.key_eq {i j : PricedInterval} (hij : i.Sooner j) (hji : j.Sooner i) :
    i.key = j.key := Prod.ext_iff.2 (lex_antisymm hij hji)

def Allocations.at (allocations : Allocations) (key : IntervalKey) : ℤ :=
  ((allocations.find? (·.1 = key)).map (·.2)).getD 0

theorem Allocations.at_eq {allocations : Allocations} (h : (allocations.map (·.1)).Nodup)
    {key : IntervalKey} {n : ℤ} (hmem : (key, n) ∈ allocations) : allocations.at key = n := by
  unfold Allocations.at
  cases hfind : allocations.find? (·.1 = key) with
  | none =>
    rw [List.find?_eq_none] at hfind
    exact absurd (decide_eq_true rfl) (hfind _ hmem)
  | some e =>
    have hkey : e.1 = key := by simpa using List.find?_some hfind
    rw [List.inj_on_of_nodup_map h (List.mem_of_find?_eq_some hfind) hmem hkey]
    rfl

section Share

variable {s : PricingShare}

theorem shareCents_zero (rate : Magnitude) : shareCents 0 rate = some 0 := by
  apply Magnitude.toHundredths_of_zero
  simp [Magnitude.div, Magnitude.mul, Magnitude.roundQuotient_zero]

theorem sum_quota (s : PricingShare) :
    (s.intervals.map (PricedInterval.quota s.cents s.seconds)).sum = (s.cents : ℤ) := by
  rcases Nat.eq_zero_or_pos s.seconds with hzero | hpos
  · have hcents : s.cents = 0 := by
      have hpriced := s.priced
      rw [hzero, shareCents_zero, Option.some.injEq] at hpriced
      exact hpriced.symm
    rw [hcents, hzero]
    apply List.sum_eq_zero
    intro x hx
    obtain ⟨i, -, rfl⟩ := List.mem_map.1 hx
    simp [PricedInterval.quota, exactQuotient]
  · have hsum : ∀ is : List PricedInterval,
        (is.map (PricedInterval.quota s.cents s.seconds)).sum =
          (s.cents : ℚ) * ((is.map (·.credited)).sum : ℕ) / s.seconds := by
      intro is
      induction is with
      | nil => simp
      | cons i is ih =>
        rw [List.map_cons, List.sum_cons, ih, List.map_cons, List.sum_cons, Nat.cast_add]
        simp only [PricedInterval.quota, exactQuotient, hpos.ne', if_false]
        ring
    rw [hsum, s.covered]
    have hne : (s.seconds : ℚ) ≠ 0 := by exact_mod_cast hpos.ne'
    rw [mul_div_assoc, div_self hne, mul_one, Int.cast_natCast]

theorem nodup_intervals (h : s.keys.Nodup) : s.intervals.Nodup := h.of_map _

theorem quota_mono (s : PricingShare) {i j : PricedInterval} (h : i.credited < j.credited) :
    i.quota s.cents s.seconds ≤ j.quota s.cents s.seconds := by
  unfold PricedInterval.quota exactQuotient
  split_ifs
  · exact le_rfl
  · gcongr

theorem quota_eq_zero (s : PricingShare) {i j : PricedInterval} (h : i.credited < j.credited)
    (heq : i.quota s.cents s.seconds = j.quota s.cents s.seconds) :
    i.quota s.cents s.seconds = 0 := by
  unfold PricedInterval.quota exactQuotient at heq ⊢
  split_ifs at heq ⊢ with hzero
  · rfl
  · have hne : (s.seconds : ℚ) ≠ 0 := by exact_mod_cast hzero
    rw [div_left_inj' hne] at heq
    have hcents : (s.cents : ℚ) = 0 := by
      by_contra hcents
      have := mul_left_cancel₀ hcents heq
      have : i.credited = j.credited := by exact_mod_cast this
      omega
    rw [hcents, zero_mul, zero_div]

structure PricingShare.Apportioned (s : PricingShare) (cents : IntervalKey → ℤ) : Prop where
  total : (s.keys.map cents).sum = s.cents
  nearest : ∀ i ∈ s.intervals, ⌊exactQuotient s.cents s.seconds i.credited⌋ ≤ cents i.key ∧
    cents i.key ≤ ⌈exactQuotient s.cents s.seconds i.credited⌉
  unpaid : ∀ i ∈ s.intervals, i.credited = 0 → cents i.key = 0
  fair : ∀ i ∈ s.intervals, ∀ j ∈ s.intervals, i.credited < j.credited →
    cents i.key ≤ cents j.key

theorem PricingShare.apportioned (h : s.keys.Nodup) {cents : IntervalKey → ℤ}
    (hcents : ∀ i ∈ s.intervals, cents i.key = s.amount i) : s.Apportioned cents where
  total := by
    have hmap : s.keys.map cents = s.intervals.map s.amount := by
      rw [PricingShare.keys, List.map_map]
      exact List.map_congr_left hcents
    rw [hmap]
    exact sum_share (nodup_intervals h) (sum_quota s)
  nearest i hi := by
    rw [hcents i hi]
    exact ⟨floor_le_share, share_le_ceil (sum_quota s)⟩
  unpaid i hi hzero := by
    rw [hcents i hi]
    apply share_eq_of_whole (sum_quota s)
    simp [PricedInterval.quota, exactQuotient, hzero]
  fair i hi j hj hlt := by
    rw [hcents i hi, hcents j hj]
    by_cases heq : i.quota s.cents s.seconds = j.quota s.cents s.seconds
    · have hzero := quota_eq_zero s hlt heq
      have hi' : s.amount i = 0 := share_eq_of_whole (sum_quota s) (by rw [hzero]; rfl)
      have hj' : s.amount j = 0 := share_eq_of_whole (sum_quota s) (by rw [← heq, hzero]; rfl)
      rw [hi', hj']
    · exact share_mono hj (quota_mono s hlt) heq

end Share

section Order

variable {env : PyReaders}

/-- Two shares that differ in the order of their intervals alone. -/
def SameShare (v w : PyValue) : Prop :=
  v.getItem "seconds" = w.getItem "seconds" ∧
  v.getItem "pay_rate_per_minute" = w.getItem "pay_rate_per_minute" ∧
  ∃ a b xs ys, v.getItem "intervals" = .ok a ∧ a.iterate = .ok xs ∧
    w.getItem "intervals" = .ok b ∧ b.iterate = .ok ys ∧ xs.Perm ys

/-- Two pricing lists that differ in the order of the shares, and in that of their intervals. -/
def SamePricing (items items' : List PyValue) : Prop :=
  ∃ mid, items.Perm mid ∧ List.Forall₂ SameShare mid items'

structure PricingShare.SameTerms (s s' : PricingShare) : Prop where
  seconds : s.seconds = s'.seconds
  cents : s.cents = s'.cents
  intervals : s.intervals.Perm s'.intervals

theorem ReadsShare.permuted {v w : PyValue} {s : PricingShare} (hsame : SameShare v w)
    (h : ReadsShare env v s) : ∃ s', ReadsShare env w s' ∧ s.SameTerms s' := by
  obtain ⟨hseconds, hrate, a, b, xs, ys, ha, hxs, hb, hys, hperm⟩ := hsame
  obtain ⟨seconds, rateValue, rate, sourcesValue, sources, hs, hr, hdecimal, hsources, hinputs,
    hiterate, his⟩ := h
  rw [ha, Except.ok.injEq] at hsources
  subst hsources
  rw [hxs, Except.ok.injEq] at hiterate
  subst hiterate
  obtain ⟨is, his', hperm'⟩ := List.perm_comp_forall₂ hperm.symm his
  have hcovered : (is.map (·.credited)).sum = s.seconds := by
    rw [(hperm'.map _).sum_eq, s.covered]
  exact ⟨⟨s.seconds, s.rate, s.cents, is, s.priced, hcovered⟩,
    ⟨seconds, rateValue, rate, b, ys, hseconds ▸ hs, hrate ▸ hr, hdecimal, hb, hinputs, hys, his'⟩,
    rfl, rfl, hperm'.symm⟩

theorem PricingShare.SameTerms.keys {s s' : PricingShare} (h : s.SameTerms s') :
    s.keys.Perm s'.keys := h.intervals.map _

theorem PricingShare.SameTerms.allocations {s s' : PricingShare} (h : s.SameTerms s')
    (hnodup : s.keys.Nodup) : s.allocations.Perm s'.allocations := by
  have hamount : s.amount = s'.amount := by
    unfold PricingShare.amount
    rw [h.cents, h.seconds]
    apply share_perm h.intervals
    intro i hi j hj hij hji
    exact List.inj_on_of_nodup_map hnodup hi hj (hij.key_eq hji)
  unfold PricingShare.allocations
  rw [hamount]
  exact h.intervals.map _

theorem permuted_shares {items items' : List PyValue} {ss : List PricingShare}
    (hsame : SamePricing items items') (h : List.Forall₂ (ReadsShare env) items ss) :
    ∃ mid ss', ss.Perm mid ∧ List.Forall₂ PricingShare.SameTerms mid ss' ∧
      List.Forall₂ (ReadsShare env) items' ss' := by
  obtain ⟨midItems, hperm, hmid⟩ := hsame
  obtain ⟨mid, hreads, hperm'⟩ := List.perm_comp_forall₂ hperm.symm h
  refine ⟨mid, ?_⟩
  suffices hss : ∃ ss', List.Forall₂ PricingShare.SameTerms mid ss' ∧
      List.Forall₂ (ReadsShare env) items' ss' by
    obtain ⟨ss', hterms, hreads'⟩ := hss
    exact ⟨ss', hperm'.symm, hterms, hreads'⟩
  clear hperm hperm' h
  induction hmid generalizing mid with
  | nil =>
    cases hreads
    exact ⟨[], .nil, .nil⟩
  | cons hvw _ ih =>
    obtain _ | ⟨hread, hreads⟩ := hreads
    obtain ⟨s', hs', hterms⟩ := hread.permuted hvw
    obtain ⟨ss', hss', hreads'⟩ := ih _ hreads
    exact ⟨s' :: ss', .cons hterms hss', .cons hs' hreads'⟩

theorem perm_flatMap_of_forall₂ {α β : Type} {R : α → α → Prop} {f : α → List β} {as bs : List α}
    (h : List.Forall₂ R as bs) (hf : ∀ a ∈ as, ∀ b, R a b → (f a).Perm (f b)) :
    (as.flatMap f).Perm (bs.flatMap f) := by
  induction h with
  | nil => exact .refl _
  | cons hab _ ih =>
    rw [List.flatMap_cons, List.flatMap_cons]
    exact (hf _ (by simp) _ hab).append (ih (fun a ha ↦ hf a (by simp [ha])))

theorem allocatePayrollCents_permuted {items items' : List PyValue} {credit version : PyValue}
    {allocations : Allocations} (hsame : SamePricing items items')
    (h : allocatePayrollCents env (.list items) credit version = .ok allocations) :
    ∃ allocations', allocatePayrollCents env (.list items') credit version = .ok allocations' ∧
      allocations'.Perm allocations := by
  obtain ⟨hversion, total, items₀, ss, htotal, hcents, hitems, hreads, hnodup, rfl⟩ :=
    allocatePayrollCents_ok.1 h
  obtain rfl : items = items₀ := Except.ok.inj hitems
  obtain ⟨mid, ss', hperm, hterms, hreads'⟩ := permuted_shares hsame hreads
  have hkeys : (ss.flatMap (·.keys)).Perm (ss'.flatMap (·.keys)) :=
    (hperm.flatMap_right _).trans (perm_flatMap_of_forall₂ hterms (fun _ _ _ ht ↦ ht.keys))
  have hsum : (ss.map (·.cents)).sum = (ss'.map (·.cents)).sum := by
    rw [(hperm.map _).sum_eq]
    clear hreads' hkeys hperm
    induction hterms with
    | nil => rfl
    | cons ht _ ih => rw [List.map_cons, List.map_cons, List.sum_cons, List.sum_cons, ih, ht.cents]
  have hshare : ∀ s ∈ mid, s.keys.Nodup := by
    intro s hs
    exact (List.nodup_flatMap.1 hnodup).1 s (hperm.mem_iff.2 hs)
  refine ⟨_, allocatePayrollCents_ok.2 ⟨hversion, total, items', ss', htotal, hsum ▸ hcents, rfl,
    hreads', hkeys.nodup_iff.1 hnodup, rfl⟩, ?_⟩
  have halloc := perm_flatMap_of_forall₂ (f := (·.allocations)) hterms
    (fun s hs _ ht ↦ ht.allocations (hshare s hs))
  exact halloc.symm.trans (hperm.flatMap_right _).symm

end Order

section Main

def IsCents (total : Decimal) (cents : ℕ) : Prop :=
  ∃ negative coefficient exponent, total = .finite negative coefficient exponent ∧
    (negative = true → coefficient = 0) ∧
    coefficient * 10 ^ (exponent + 2).toNat = cents * 10 ^ (-2 - exponent).toNat

theorem creditCents_ok {total : Decimal} {cents : ℕ} (h : creditCents total = .ok cents) :
    IsCents total cents := by
  cases total with
  | finite negative coefficient exponent =>
    rw [creditCents, require_bind_eq_ok, demand_bind_eq_ok] at h
    obtain ⟨hsign, q, -, h⟩ := h
    rw [require_bind_eq_ok, pure_eq_ok] at h
    obtain ⟨hwhole, rfl⟩ := h
    refine ⟨_, _, _, rfl, fun hneg ↦ ?_, hwhole⟩
    by_contra hne
    exact hsign ⟨hneg, hne⟩
  | infinity negative => cases h
  | nan => cases h

/-- `seconds × rate ÷ 60` in exact numbers, half-even to the cent. -/
def exactShareCents (seconds : ℕ) (rate : Magnitude) : ℕ :=
  Decimal.divHalfEven (seconds * rate.coefficient * 10 ^ 2 * 10 ^ rate.exponent.toNat)
    (60 * 10 ^ (-rate.exponent).toNat)

theorem sum_allocations {ss : List PricingShare} (h : (ss.flatMap (·.keys)).Nodup) :
    ((ss.flatMap (·.allocations)).map (·.2)).sum = ((ss.map (·.cents)).sum : ℕ) := by
  induction ss with
  | nil => rfl
  | cons s ss ih =>
    rw [List.flatMap_cons, List.nodup_append] at h
    have hshare : (s.allocations.map (·.2)).sum = s.cents := by
      have hmap : s.allocations.map (·.2) = s.intervals.map s.amount := by
        simp [PricingShare.allocations]
      rw [hmap]
      exact sum_share (nodup_intervals h.1) (sum_quota s)
    rw [List.flatMap_cons, List.map_append, List.sum_append, hshare, ih h.2.1, List.map_cons,
      List.sum_cons, Nat.cast_add]

theorem keys_allocations (ss : List PricingShare) :
    (ss.flatMap (·.allocations)).map (·.1) = ss.flatMap (·.keys) := by
  rw [List.map_flatMap]
  congr 1
  funext s
  exact s.map_allocations

/-- An accepted pricing list is apportioned to the cent: over all intervals, whole by share, to
the nearest cents by interval, in the order of the seconds, and in no other order; an input that
is not accepted leaves no proof. -/
theorem payroll_cents_are_apportioned (env : PyReaders) (pricing credit version : PyValue) :
    (∀ allocations, allocatePayrollCents env pricing credit version = .ok allocations →
      ∃ total items ss, env.decimal (.str (env.str credit)) = .ok total ∧
        pricing.iterate = .ok items ∧ List.Forall₂ (ReadsShare env) items ss ∧
        allocations.map (·.1) = ss.flatMap (·.keys) ∧ (allocations.map (·.1)).Nodup ∧
        (∃ cents : ℕ, IsCents total cents ∧ (allocations.map (·.2)).sum = cents) ∧
        (∀ s ∈ ss, s.Apportioned allocations.at ∧
          (s.seconds * s.rate.coefficient < 10 ^ 27 →
            s.cents = exactShareCents s.seconds s.rate)) ∧
        ∀ items', pricing = .list items → SamePricing items items' →
          ∃ allocations', allocatePayrollCents env (.list items') credit version =
            .ok allocations' ∧ allocations'.Perm allocations) ∧
    ∀ e L q t, allocatePayrollCents env pricing (.number (.ofCents t.amountCents)) version =
        .error e → findPayrollCredit L q = .posted t →
      payrollAllocationProof env L q pricing version = .unavailable := by
  refine ⟨fun allocations h ↦ ?_, fun e L q t h hposted ↦ ?_⟩
  · obtain ⟨-, total, items, ss, htotal, hcents, hitems, hreads, hnodup, rfl⟩ :=
      allocatePayrollCents_ok.1 h
    have hkeys := keys_allocations ss
    have hunique : ((ss.flatMap (·.allocations)).map (·.1)).Nodup := hkeys ▸ hnodup
    refine ⟨total, items, ss, htotal, hitems, hreads, hkeys, hunique,
      ⟨_, creditCents_ok hcents, sum_allocations hnodup⟩, fun s hs ↦ ⟨?_, fun hfew ↦ ?_⟩, ?_⟩
    · apply PricingShare.apportioned ((List.nodup_flatMap.1 hnodup).1 s hs)
      intro i hi
      apply Allocations.at_eq hunique
      exact List.mem_flatMap.2 ⟨s, hs, List.mem_map.2 ⟨i, hi, rfl⟩⟩
    · exact Magnitude.toHundredths_per_sixty hfew s.priced
    · rintro items' rfl hsame
      exact allocatePayrollCents_permuted hsame h
  · simp only [payrollAllocationProof, hposted, h]

def sampleReaders : PyReaders where
  decimal
    | .str "0.00" => .ok (.finite false 0 (-2))
    | .str "0.3000000000000000000000000000001" =>
      .ok (.finite false 3000000000000000000000000000001 (-31))
    | .str _ => .error .arithmeticError
    | _ => .error .typeError
  str
    | .str s => s
    | _ => ""
  fromisoformat
    | .str "2026-10-01T12:00:00+00:00" => .ok (some 0)
    | .str _ => .error .valueError
    | _ => .error .typeError

def sampleShares : PyValue :=
  .list [.dict [("seconds", .int 1),
    ("pay_rate_per_minute", .str "0.3000000000000000000000000000001"),
    ("intervals", .list [.dict [("opening_event_id", .int 1), ("closing_event_id", .int 2),
      ("credited_seconds", .int 1),
      ("closing_timestamp", .str "2026-10-01T12:00:00+00:00")]])]]

/-- The product is rounded to a tie first, and the tie to an even cent. -/
theorem payroll_cents_rounded_twice :
    (allocatePayrollCents sampleReaders sampleShares (.str "0.00") (.int 1)).toOption =
        some [((1, 2), 0)] ∧
      exactShareCents 1 ⟨3000000000000000000000000000001, -31⟩ = 1 := by
  decide +kernel

end Main

end TokenHub.Ledger
