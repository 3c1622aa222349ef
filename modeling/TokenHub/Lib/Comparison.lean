import Mathlib.Tactic.Common
import Mathlib.Tactic.Linarith
import Mathlib.Tactic.Ring
import TokenHub.Lib.Decimals

set_option autoImplicit false

namespace TokenHub.Lib.Decimals

open Digits

namespace Decimal

def signed (negative : Bool) (n : ℕ) : ℤ := if negative then -n else n

/-- Whether a decimal is above a number of hundredths; `none` where the comparison signals an
invalid operation. -/
def above (n : ℤ) : Decimal → Option Bool
  | .finite s c e => some (decide (n * 10 ^ (-2 - e).toNat < signed s c * 10 ^ (e + 2).toNat))
  | .infinity s => some (!s)
  | .nan => none

def Same : Decimal → Decimal → Prop
  | .finite s c e, .finite s' c' e' =>
    signed s c * 10 ^ (e - e').toNat = signed s' c' * 10 ^ (e' - e).toNat
  | .infinity s, .infinity s' => s = s'
  | _, _ => False

instance : DecidableRel Same := fun a b ↦ by
  unfold Same
  split <;> infer_instance

section Rounding

theorem divHalfEven_scale {n d k : ℕ} (hk : 0 < k) :
    divHalfEven (n * k) (d * k) = divHalfEven n d := by
  have hmod : 2 * (n % d * k) < d * k ↔ 2 * (n % d) < d := by
    rw [← Nat.mul_assoc, Nat.mul_lt_mul_right hk]
  have htie : 2 * (n % d * k) = d * k ↔ 2 * (n % d) = d := by
    rw [← Nat.mul_assoc, Nat.mul_left_inj hk.ne']
  unfold divHalfEven
  rw [Nat.mul_div_mul_right n d hk, Nat.mul_mod_mul_right]
  simp only [hmod, htie]

theorem divHalfEven_congr {n d n' d' : ℕ} (hd : 0 < d) (hd' : 0 < d') (h : n * d' = n' * d) :
    divHalfEven n d = divHalfEven n' d' := by
  rw [← divHalfEven_scale hd', h, Nat.mul_comm d d', divHalfEven_scale hd]

/-- A decimal's hundredths, rounded, as one quotient. -/
def units (coefficient : ℕ) (exponent : ℤ) : ℕ :=
  divHalfEven (coefficient * 10 ^ (exponent + 2).toNat) (10 ^ (-2 - exponent).toNat)

theorem quantizeFinite_eq (s : Bool) (c : ℕ) (e : ℤ) :
    quantizeFinite s c e =
      if units c e < 10 ^ contextPrecision then some ⟨s, units c e⟩ else none := by
  have hunits : (if -2 ≤ e then c * 10 ^ (e + 2).toNat
      else divHalfEven c (10 ^ (-2 - e).toNat)) = units c e := by
    split_ifs with he
    · have hzero : (-2 - e).toNat = 0 := by omega
      simp [units, hzero, divHalfEven, Nat.mod_one]
    · have hzero : (e + 2).toNat = 0 := by omega
      simp [units, hzero]
  simp only [quantizeFinite, hunits]

theorem pow_sub_mul {e e' : ℤ} : ((10 : ℕ) ^ (e + 2).toNat) * 10 ^ (-2 - e').toNat * 10 ^ (e' - e).toNat =
    10 ^ (e' + 2).toNat * 10 ^ (-2 - e).toNat * 10 ^ (e - e').toNat := by
  rw [← pow_add, ← pow_add, ← pow_add, ← pow_add]
  congr 1
  omega

theorem units_congr {c c' : ℕ} {e e' : ℤ}
    (h : c * 10 ^ (e - e').toNat = c' * 10 ^ (e' - e).toNat) : units c e = units c' e' := by
  apply divHalfEven_congr (by positivity) (by positivity)
  have hpos : 0 < (10 : ℕ) ^ (e - e').toNat * 10 ^ (e' - e).toNat := by positivity
  apply Nat.eq_of_mul_eq_mul_right hpos
  calc c * 10 ^ (e + 2).toNat * 10 ^ (-2 - e').toNat *
        (10 ^ (e - e').toNat * 10 ^ (e' - e).toNat)
      = c * 10 ^ (e - e').toNat *
          (10 ^ (e + 2).toNat * 10 ^ (-2 - e').toNat * 10 ^ (e' - e).toNat) := by ring
    _ = c' * 10 ^ (e' - e).toNat *
          (10 ^ (e' + 2).toNat * 10 ^ (-2 - e).toNat * 10 ^ (e - e').toNat) := by
        rw [h, pow_sub_mul]
    _ = c' * 10 ^ (e' + 2).toNat * 10 ^ (-2 - e).toNat *
          (10 ^ (e - e').toNat * 10 ^ (e' - e).toNat) := by ring

theorem signed_value (s : Bool) (n : ℕ) : (Hundredths.mk s n).value = signed s n := rfl

theorem opposite_eq_zero {a b : ℕ} {p q : ℤ} (hp : 0 < p) (hq : 0 < q)
    (h : -(a : ℤ) * p = b * q) : a = 0 ∧ b = 0 := by
  have ha : (0 : ℤ) ≤ a * p := by positivity
  have hb : (0 : ℤ) ≤ b * q := by positivity
  rw [neg_mul] at h
  have ha0 : (a : ℤ) * p = 0 := by omega
  have hb0 : (b : ℤ) * q = 0 := by omega
  simp only [mul_eq_zero, hp.ne', hq.ne', or_false, Int.natCast_eq_zero] at ha0 hb0
  exact ⟨ha0, hb0⟩

theorem Same.signs {s s' : Bool} {c c' : ℕ} {e e' : ℤ}
    (h : Same (.finite s c e) (.finite s' c' e')) :
    c * 10 ^ (e - e').toNat = c' * 10 ^ (e' - e).toNat ∧ (s = s' ∨ c = 0 ∧ c' = 0) := by
  have hpos : (0 : ℤ) < 10 ^ (e - e').toNat := by positivity
  have hpos' : (0 : ℤ) < 10 ^ (e' - e).toNat := by positivity
  rw [Same] at h
  cases s <;> cases s' <;> simp only [signed, Bool.false_eq_true, if_false, if_true] at h
  · exact ⟨by exact_mod_cast h, .inl rfl⟩
  · obtain ⟨rfl, rfl⟩ := opposite_eq_zero hpos' hpos h.symm
    exact ⟨by simp, .inr ⟨rfl, rfl⟩⟩
  · obtain ⟨rfl, rfl⟩ := opposite_eq_zero hpos hpos' h
    exact ⟨by simp, .inr ⟨rfl, rfl⟩⟩
  · rw [neg_mul, neg_mul, neg_inj] at h
    exact ⟨by exact_mod_cast h, .inl rfl⟩

theorem Same.quantizeFinite {s s' : Bool} {c c' : ℕ} {e e' : ℤ}
    (h : Same (.finite s c e) (.finite s' c' e')) :
    (quantizeFinite s c e).map (·.value) = (Decimal.quantizeFinite s' c' e').map (·.value) := by
  obtain ⟨hc, hs⟩ := h.signs
  rw [quantizeFinite_eq, quantizeFinite_eq, units_congr hc]
  rcases hs with rfl | ⟨rfl, rfl⟩
  · rfl
  · have hzero : units 0 e' = 0 := by simp [units, divHalfEven]
    simp [hzero, signed_value, signed, contextPrecision]

/-- A positive amount that is not above a number of hundredths does not round above it. -/
theorem value_le_of_not_above {s : Bool} {c : ℕ} {e n : ℤ} {q : Hundredths}
    (h : above n (.finite s c e) = some false) (hq : quantizeFinite s c e = some q)
    (hpos : 0 < q.value) : q.value ≤ n := by
  rw [quantizeFinite_eq] at hq
  split_ifs at hq
  cases hq
  rw [signed_value] at hpos ⊢
  rw [above, Option.some.injEq, decide_eq_false_iff_not, not_lt] at h
  cases s with
  | true =>
    simp only [signed, if_true] at hpos
    omega
  | false =>
    simp only [signed, Bool.false_eq_true, if_false] at h hpos ⊢
    have hden : (0 : ℤ) < 10 ^ (-2 - e).toNat := by positivity
    have hn : 0 ≤ n := by
      have hnum : (0 : ℤ) ≤ c * 10 ^ (e + 2).toNat := by positivity
      exact nonneg_of_mul_nonneg_left (hnum.trans h) hden
    obtain ⟨m, rfl⟩ := Int.eq_ofNat_of_zero_le hn
    have hle : units c e ≤ m := by
      apply divHalfEven_le (by positivity)
      exact_mod_cast h
    exact_mod_cast hle

end Rounding

section Text

theorem filter_isDigit_natText (n : ℕ) : (natText n).filter Char.isDigit = natText n :=
  List.filter_eq_self.2 (fun _ h ↦ natText_isDigit h)

theorem digits_toText_hundredths (n : ℕ) :
    ∃ k, (toText (.finite false n (-2))).filter Char.isDigit =
      List.replicate k '0' ++ natText n := by
  have hlen : 0 < (natText n).length := List.length_pos_of_ne_nil (natText_ne_nil n)
  have hplace : (if (-2 : ℤ) ≤ 0 ∧ -6 < -2 + ((natText n).length : ℤ)
      then -2 + ((natText n).length : ℤ) else 1) = -2 + (natText n).length :=
    if_pos (by omega)
  simp only [toText, hplace, if_true, Bool.false_eq_true, if_false, List.nil_append,
    List.append_nil]
  split_ifs with hsmall hlong
  · refine ⟨1 + (-(-2 + ((natText n).length : ℤ))).toNat, ?_⟩
    simp [filter_isDigit_natText, List.replicate_add]
  · omega
  · refine ⟨0, ?_⟩
    rw [List.filter_append, List.filter_cons_of_neg (by decide), ← List.filter_append,
      List.take_append_drop, filter_isDigit_natText]
    rfl

theorem ofDigitChars_zeros (k : ℕ) (cs : List Char) :
    Nat.ofDigitChars 10 (List.replicate k '0' ++ cs) 0 = Nat.ofDigitChars 10 cs 0 := by
  induction k with
  | zero => rfl
  | succ k ih =>
    rw [List.replicate_succ, List.cons_append, Nat.ofDigitChars_cons]
    exact ih

theorem toText_hundredths_injective {m n : ℕ}
    (h : toText (.finite false m (-2)) = toText (.finite false n (-2))) : m = n := by
  obtain ⟨k, hk⟩ := digits_toText_hundredths m
  obtain ⟨l, hl⟩ := digits_toText_hundredths n
  have hdigits := congrArg (fun cs ↦ Nat.ofDigitChars 10 (cs.filter Char.isDigit) 0) h
  simp only [hk, hl, ofDigitChars_zeros] at hdigits
  rw [natText, natText, Nat.ofDigitChars_ten_toDigits, Nat.ofDigitChars_ten_toDigits] at hdigits
  exact hdigits

end Text

end Decimal

end TokenHub.Lib.Decimals
