import Mathlib.Data.Int.Log
import Mathlib.Data.Rat.Floor
import Mathlib.Tactic.Linarith
import Mathlib.Tactic.Ring
import TokenHub.Lib.Comparison
import TokenHub.Lib.Magnitude

set_option autoImplicit false

namespace TokenHub.Lib.Decimals

open Digits Decimal

section Rounding

variable {n d q : ℕ}

theorem divHalfEven_eq_of_near (hhigh : 2 * n < 2 * (q * d) + d) (hlow : 2 * (q * d) < 2 * n + d) :
    divHalfEven n d = q := by
  have hd : 0 < d := by omega
  have hsplit := Nat.div_add_mod n d
  have hmod := Nat.mod_lt n hd
  rw [Nat.mul_comm] at hsplit
  unfold divHalfEven
  rcases Nat.lt_trichotomy (n / d) q with hlt | heq | hgt
  · have hstep : (n / d + 1) * d ≤ q * d := Nat.mul_le_mul_right d hlt
    rw [Nat.add_mul, Nat.one_mul] at hstep
    have hq : n / d + 1 = q := by
      by_contra hne
      have : (n / d + 2) * d ≤ q * d := Nat.mul_le_mul_right d (by omega)
      rw [Nat.add_mul] at this
      omega
    rw [if_neg (by omega), hq]
  · subst heq
    rw [if_pos (.inl (by omega))]
  · have : (q + 1) * d ≤ n / d * d := Nat.mul_le_mul_right d hgt
    rw [Nat.add_mul, Nat.one_mul] at this
    omega

theorem divHalfEven_near (hd : 0 < d) : 2 * n ≤ 2 * (divHalfEven n d * d) + d ∧
    2 * (divHalfEven n d * d) ≤ 2 * n + d := by
  have hsplit := Nat.div_add_mod n d
  have hmod := Nat.mod_lt n hd
  rw [Nat.mul_comm] at hsplit
  unfold divHalfEven
  split_ifs with h
  · omega
  · rw [Nat.add_mul, Nat.one_mul]
    omega

theorem divHalfEven_one : divHalfEven n 1 = n := by
  simp [divHalfEven, Nat.mod_one]

/-- A second rounding, to a coarser unit, changes nothing where its ties come from exact numbers. -/
theorem divHalfEven_divHalfEven {D : ℕ} (hd : 0 < d) (hD : 0 < D) (heven : 2 ∣ D)
    (hties : 2 * (divHalfEven n d % D) = D → d ∣ n) :
    divHalfEven (divHalfEven n d) D = divHalfEven n (d * D) := by
  obtain ⟨hhigh, hlow⟩ := divHalfEven_near (n := n) hd
  set Q := divHalfEven n d with hQ
  have hsplit := Nat.div_add_mod Q D
  have hmod := Nat.mod_lt Q hD
  obtain ⟨half, hhalf⟩ := heven
  have hQd : Q * d = Q / D * (d * D) + Q % D * d := by
    conv_lhs => rw [← hsplit]
    ring
  have hDd : d * D = 2 * (half * d) := by
    rw [hhalf]
    ring
  rcases Nat.lt_trichotomy (Q % D) half with hlt | heq | hgt
  · have hQround : divHalfEven Q D = Q / D := by
      unfold divHalfEven
      rw [if_pos (.inl (by omega))]
    have hprod : (Q % D + 1) * d ≤ half * d := Nat.mul_le_mul_right d hlt
    rw [Nat.add_mul, Nat.one_mul] at hprod
    rw [hQround]
    exact (divHalfEven_eq_of_near (by omega) (by omega)).symm
  · obtain ⟨m, rfl⟩ := hties (by omega)
    have hm : Q = m := by
      rw [hQ, Nat.mul_comm]
      exact divHalfEven_eq_of_near (by rw [Nat.mul_comm]; omega) (by rw [Nat.mul_comm]; omega)
    rw [hm, Nat.mul_comm d m, Nat.mul_comm d D, divHalfEven_scale hd]
  · have hQround : divHalfEven Q D = Q / D + 1 := by
      unfold divHalfEven
      rw [if_neg (by omega)]
    have hprod : (half + 1) * d ≤ Q % D * d := Nat.mul_le_mul_right d hgt
    have hprod' : (Q % D + 1) * d ≤ D * d := Nat.mul_le_mul_right d hmod
    rw [Nat.add_mul, Nat.one_mul] at hprod hprod'
    rw [Nat.mul_comm D d] at hprod'
    rw [hQround]
    exact (divHalfEven_eq_of_near (by rw [Nat.add_mul, Nat.one_mul]; omega)
      (by rw [Nat.add_mul, Nat.one_mul]; omega)).symm

end Rounding

section Length

theorem natText_length_bounds {n : ℕ} (hn : 0 < n) :
    10 ^ ((natText n).length - 1) ≤ n ∧ n < 10 ^ (natText n).length := by
  induction n using Nat.strongRecOn with
  | ind n ih =>
    unfold natText at ih ⊢
    rcases Nat.lt_or_ge n 10 with hlt | hge
    · rw [Nat.toDigits_of_lt_base hlt]
      simpa using ⟨hn, hlt⟩
    · obtain ⟨hlow, hhigh⟩ := ih (n / 10) (by omega) (by omega)
      rw [Nat.toDigits_of_base_le (by decide) hge, List.length_append, List.length_singleton]
      have hpos : 0 < (Nat.toDigits 10 (n / 10)).length :=
        List.length_pos_of_ne_nil Nat.toDigits_ne_nil
      have hpow : 10 ^ (Nat.toDigits 10 (n / 10)).length =
          10 * 10 ^ ((Nat.toDigits 10 (n / 10)).length - 1) := by
        rw [← Nat.pow_succ', Nat.succ_eq_add_one, Nat.sub_add_cancel hpos]
      rw [Nat.add_sub_cancel, Nat.pow_succ]
      omega

theorem natText_length_eq {n k : ℕ} (hlow : 10 ^ k ≤ n) (hhigh : n < 10 ^ (k + 1)) :
    (natText n).length = k + 1 := by
  obtain ⟨hle, hlt⟩ := natText_length_bounds (lt_of_lt_of_le (by positivity) hlow)
  have hfirst : k < (natText n).length :=
    (Nat.pow_lt_pow_iff_right (by decide)).1 (hlow.trans_lt hlt)
  have hsecond : (natText n).length - 1 < k + 1 :=
    (Nat.pow_lt_pow_iff_right (by decide)).1 (hle.trans_lt hhigh)
  omega

end Length

namespace Magnitude

theorem toHundredths_eq {a : Magnitude} {n : ℕ} (h : a.toHundredths = some n) :
    n = units a.coefficient a.exponent ∧ n < 10 ^ contextPrecision := by
  rw [toHundredths, quantizeFinite_eq] at h
  split_ifs at h with hlt
  · rw [Option.map_some, Option.some.injEq] at h
    exact ⟨h.symm, h ▸ hlt⟩
  · cases h

theorem toHundredths_zero (e : ℤ) : toHundredths ⟨0, e⟩ = some 0 := by
  have hzero : units 0 e = 0 := by simp [units, divHalfEven]
  rw [toHundredths, quantizeFinite_eq, hzero, if_pos (by decide)]
  rfl

theorem roundQuotient_zero (d : ℕ) : (roundQuotient 0 d).coefficient = 0 := by
  have hzero : ∀ m : ℕ, divHalfEven 0 m = 0 := fun m ↦ by
    rcases Nat.eq_zero_or_pos m with rfl | hm
    · rfl
    · simp [divHalfEven, hm]
  simp [roundQuotient, hzero, contextPrecision]

theorem toHundredths_of_zero {a : Magnitude} (h : a.coefficient = 0) :
    a.toHundredths = some 0 := by
  obtain ⟨c, e⟩ := a
  subst h
  exact toHundredths_zero e

/-- A number of few digits is kept whole, padded to the digits of the context. -/
theorem roundQuotient_one {n : ℕ} (hn : 0 < n) (hlt : n < 10 ^ 28) :
    ∃ k : ℕ, k ≤ 27 ∧ n < 10 ^ (28 - k) ∧ 10 ^ 27 ≤ n * 10 ^ k ∧ n * 10 ^ k < 10 ^ 28 ∧
      roundQuotient n 1 = ⟨n * 10 ^ k, -k⟩ := by
  obtain ⟨hlow, hhigh⟩ := natText_length_bounds hn
  have hpos : 0 < (natText n).length := List.length_pos_of_ne_nil (natText_ne_nil n)
  have hlen : (natText n).length ≤ 28 := by
    by_contra hlong
    have : 10 ^ 28 ≤ n := (Nat.pow_le_pow_right (by decide) (by omega)).trans hlow
    omega
  obtain ⟨k, hk⟩ : ∃ k, (natText n).length + k = 28 := ⟨28 - (natText n).length, by omega⟩
  have hone : (natText 1).length = 1 := by decide
  have hpow : 10 ^ ((natText n).length - 1) * 10 ^ k = 10 ^ 27 := by
    rw [← pow_add]
    congr 1
    omega
  have hpow' : 10 ^ (natText n).length * 10 ^ k = 10 ^ 28 := by
    rw [← pow_add, hk]
  have hmul : 10 ^ 27 ≤ n * 10 ^ k := hpow ▸ Nat.mul_le_mul_right _ hlow
  have hmul' : n * 10 ^ k < 10 ^ 28 :=
    hpow' ▸ (Nat.mul_lt_mul_right (by positivity)).2 hhigh
  refine ⟨k, by omega, ?_, hmul, hmul', ?_⟩
  · have : 28 - k = (natText n).length := by omega
    rwa [this]
  · have hshift : (28 : ℤ) + 1 - (natText n).length = k + 1 := by omega
    have hnat : ((k : ℤ) + 1).toNat = k + 1 := by omega
    have hneg : (-((k : ℤ) + 1)).toNat = 0 := by omega
    have hbig : ¬ n * 10 ^ (k + 1) < 10 ^ 28 := by
      rw [pow_succ, ← Nat.mul_assoc]
      omega
    simp only [roundQuotient, contextPrecision, hone, Nat.cast_ofNat, Nat.cast_one, hshift, hnat,
      hneg, pow_zero, Nat.mul_one, divHalfEven_one]
    rw [if_neg hbig]
    simp [divHalfEven_one]

/-- Division by sixty keeps one place or two, and leaves a number as long as the context. -/
theorem roundQuotient_sixty {n : ℕ} (hlow : 10 ^ 27 ≤ n) (hhigh : n < 10 ^ 28) :
    ∃ j : ℕ, 1 ≤ j ∧ 10 ^ 27 ≤ divHalfEven (n * 10 ^ j) 60 ∧
      roundQuotient n 60 = ⟨divHalfEven (n * 10 ^ j) 60, -j⟩ := by
  have hlen := natText_length_eq hlow hhigh
  have hsixty : (natText 60).length = 2 := by decide
  have hnear := divHalfEven_near (n := n * 100) (d := 60) (by decide)
  have hnear' := divHalfEven_near (n := n * 10) (d := 60) (by decide)
  by_cases hfits : divHalfEven (n * 100) 60 < 10 ^ 28
  · refine ⟨2, by decide, ?_, ?_⟩
    · norm_num at hlow hnear ⊢
      omega
    · have hfits' : divHalfEven (n * 100) 60 < 10000000000000000000000000000 := hfits
      simp [roundQuotient, contextPrecision, hlen, hsixty, hfits']
  · refine ⟨1, by decide, ?_, ?_⟩
    · norm_num at hlow hnear hnear' hfits ⊢
      omega
    · have hfits' : 10000000000000000000000000000 ≤ divHalfEven (n * 100) 60 := not_lt.1 hfits
      simp [roundQuotient, contextPrecision, hlen, hsixty, hfits']

theorem hundred_dvd_of_tie {q x : ℕ} (h : 2 * (q % 10 ^ (x + 1)) = 10 ^ (x + 1)) :
    100 ∣ 60 * q := by
  have hsplit := Nat.div_add_mod q (10 ^ (x + 1))
  refine ⟨6 * (10 ^ x * (q / 10 ^ (x + 1))) + 3 * 10 ^ x, ?_⟩
  rw [pow_succ] at h hsplit ⊢
  generalize q / (10 ^ x * 10) = u at *
  generalize q % (10 ^ x * 10) = v at *
  have hdouble : 60 * q = 600 * (10 ^ x * u) + 30 * (2 * v) := by
    rw [← hsplit]
    ring
  rw [hdouble, h]
  ring

/-- A price of few digits by the minute, for some seconds, is rounded once. -/
theorem toHundredths_per_sixty {s n : ℕ} {r : Magnitude} (hfew : s * r.coefficient < 10 ^ 27)
    (h : ((mul ⟨s, 0⟩ r).div ⟨60, 0⟩).toHundredths = some n) :
    n = divHalfEven (s * r.coefficient * 10 ^ 2 * 10 ^ r.exponent.toNat)
      (60 * 10 ^ (-r.exponent).toNat) := by
  rcases Nat.eq_zero_or_pos (s * r.coefficient) with hzero | hpos
  · have hmul : (mul ⟨s, 0⟩ r).coefficient = 0 := by
      simp [mul, hzero, roundQuotient_zero]
    have hdiv : ((mul ⟨s, 0⟩ r).div ⟨60, 0⟩).coefficient = 0 := by
      simp [div, hmul, roundQuotient_zero]
    rw [toHundredths_of_zero hdiv, Option.some.injEq] at h
    simp [← h, hzero, divHalfEven]
  · obtain ⟨k, hk, hlen, hlow, hhigh, hmul⟩ := roundQuotient_one hpos (hfew.trans (by decide))
    have hkpos : 1 ≤ k := by
      by_contra hnot
      obtain rfl : k = 0 := by omega
      rw [pow_zero, Nat.mul_one] at hlow
      omega
    obtain ⟨j, hj, hlong, hdiv⟩ := roundQuotient_sixty hlow hhigh
    set p := s * r.coefficient with hp
    set q := divHalfEven (p * 10 ^ k * 10 ^ j) 60 with hq
    have hquotient : (mul ⟨s, 0⟩ r).div ⟨60, 0⟩ = ⟨q, -j + (-k + r.exponent)⟩ := by
      simp only [div, mul, ← hp, hmul, hdiv]
      congr 1
      ring
    obtain ⟨hn, hfits⟩ := toHundredths_eq h
    rw [hquotient] at hn
    -- a number as long as the context is at least two places down, or it would not fit
    have hplaces : -(j : ℤ) + (-k + r.exponent) ≤ -2 := by
      by_contra hnot
      have hnone : (-2 - (-(j : ℤ) + (-k + r.exponent))).toNat = 0 := by omega
      obtain ⟨x, hx⟩ : ∃ x, (-(j : ℤ) + (-k + r.exponent) + 2).toNat = x + 1 :=
        ⟨(-(j : ℤ) + (-k + r.exponent) + 2).toNat - 1, by omega⟩
      simp only [units, hnone, pow_zero, divHalfEven_one, hx, pow_succ] at hn
      have hbig : 10 ^ 27 * 10 ≤ q * (10 ^ x * 10) := by
        have hten : 1 ≤ 10 ^ x := Nat.one_le_pow _ _ (by decide)
        nlinarith
      have : n < 10 ^ 28 := hfits
      omega
    obtain ⟨y, hy⟩ : ∃ y, (-2 - (-(j : ℤ) + (-k + r.exponent))).toNat = y := ⟨_, rfl⟩
    have hzero : (-(j : ℤ) + (-k + r.exponent) + 2).toNat = 0 := by omega
    simp only [units, hzero, hy, pow_zero, Nat.mul_one] at hn
    have honce : n = divHalfEven (p * 10 ^ k * 10 ^ j) (60 * 10 ^ y) := by
      rw [hn]
      rcases Nat.eq_zero_or_pos y with rfl | hypos
      · rw [pow_zero, divHalfEven_one, Nat.mul_one]
      · obtain ⟨x, rfl⟩ : ∃ x, y = x + 1 := ⟨y - 1, by omega⟩
        apply divHalfEven_divHalfEven (by decide) (by positivity)
        · exact (by decide : 2 ∣ 10).trans (dvd_pow_self 10 (by omega))
        · intro htie
          -- both are multiples of a hundred, so less than sixty apart they are equal
          obtain ⟨hhigh', hlow'⟩ := divHalfEven_near (n := p * 10 ^ k * 10 ^ j) (d := 60)
            (by decide)
          rw [← hq] at hhigh' hlow'
          obtain ⟨k', rfl⟩ : ∃ k', k = k' + 1 := ⟨k - 1, by omega⟩
          obtain ⟨j', rfl⟩ : ∃ j', j = j' + 1 := ⟨j - 1, by omega⟩
          have hnumber : p * 10 ^ (k' + 1) * 10 ^ (j' + 1) = 100 * (p * 10 ^ k' * 10 ^ j') := by
            ring
          obtain ⟨u, hu⟩ := hundred_dvd_of_tie htie
          rw [← hq] at hu
          rw [hnumber] at hhigh' hlow' ⊢
          refine ⟨q, ?_⟩
          omega
    rw [honce]
    apply divHalfEven_congr (by positivity) (by positivity)
    have hexp : k + j + (-r.exponent).toNat = 2 + r.exponent.toNat + y := by omega
    calc p * 10 ^ k * 10 ^ j * (60 * 10 ^ (-r.exponent).toNat)
        = p * 60 * 10 ^ (k + j + (-r.exponent).toNat) := by ring
      _ = p * 60 * 10 ^ (2 + r.exponent.toNat + y) := by rw [hexp]
      _ = p * 10 ^ 2 * 10 ^ r.exponent.toNat * (60 * 10 ^ y) := by ring

end Magnitude

section Significant

/-- What the context keeps of the exact result of an operation: its first digits, ties to the even
neighbour. -/
def inContext (x : ℚ) : ℚ :=
  let unit : ℚ := 10 ^ (Int.log 10 |x| - (contextPrecision - 1))
  let units := divHalfEven (|x| / unit).num.natAbs (|x| / unit).den
  x.num.sign * units * unit

example : inContext (2 / 3) = 6666666666666666666666666667 / 10 ^ 28 := by decide +kernel

end Significant

end TokenHub.Lib.Decimals
