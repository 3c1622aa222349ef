import Mathlib.Analysis.SpecialFunctions.Exp
import Mathlib.Analysis.SpecialFunctions.Pow.Real

set_option autoImplicit false

namespace TokenHub.Lib.CompoundGrowth

section Products

/-- A factor of a product against the mean factor, with the excess in an exponent. -/
theorem one_add_le_mul_exp {u y : ℝ} (hy : 0 ≤ y) :
    1 + u ≤ (1 + y) * Real.exp ((u - y) / (1 + y)) := by
  have hpos : 0 < 1 + y := by linarith
  have hexp := Real.add_one_le_exp ((u - y) / (1 + y))
  calc 1 + u = (1 + y) * ((u - y) / (1 + y) + 1) := by
        rw [mul_add, mul_div_cancel₀ _ hpos.ne', mul_one]
        ring
    _ ≤ (1 + y) * Real.exp ((u - y) / (1 + y)) := mul_le_mul_of_nonneg_left hexp hpos.le

theorem prod_le_pow_mul_exp {us : List ℝ} {y : ℝ} (hus : ∀ u ∈ us, 0 ≤ u) (hy : 0 ≤ y) :
    (us.map (1 + ·)).prod ≤
      (1 + y) ^ us.length * Real.exp ((us.sum - us.length * y) / (1 + y)) := by
  induction us with
  | nil => simp
  | cons u us ih =>
    have hu := hus u List.mem_cons_self
    have hrest := ih fun v hv ↦ hus v (List.mem_cons_of_mem u hv)
    have hfirst := one_add_le_mul_exp (u := u) hy
    have hpos : 0 ≤ (us.map (1 + ·)).prod := by
      apply List.prod_nonneg
      intro g hg
      obtain ⟨v, hv, rfl⟩ := List.mem_map.1 hg
      have := hus v (List.mem_cons_of_mem u hv)
      linarith
    rw [List.map_cons, List.prod_cons, List.sum_cons, List.length_cons]
    calc (1 + u) * (us.map (1 + ·)).prod
        ≤ ((1 + y) * Real.exp ((u - y) / (1 + y))) *
          ((1 + y) ^ us.length * Real.exp ((us.sum - us.length * y) / (1 + y))) := by
          apply mul_le_mul hfirst hrest hpos
          positivity
      _ = (1 + y) ^ (us.length + 1) *
          Real.exp ((u + us.sum - ↑(us.length + 1) * y) / (1 + y)) := by
          rw [mul_mul_mul_comm, ← pow_succ', ← Real.exp_add, ← add_div]
          congr 3
          push_cast
          ring

/-- At most `n` factors whose excesses are `n * y` together multiply to `(1 + y) ^ n` at most. -/
theorem prod_le_pow {us : List ℝ} {y : ℝ} {n : ℕ} (hus : ∀ u ∈ us, 0 ≤ u) (hy : 0 ≤ y)
    (hlength : us.length ≤ n) (hsum : us.sum ≤ n * y) :
    (us.map (1 + ·)).prod ≤ (1 + y) ^ n := by
  have hpos : 0 < 1 + y := by linarith
  obtain ⟨k, rfl⟩ := Nat.exists_eq_add_of_le hlength
  have hspare : Real.exp (y / (1 + y)) ≤ 1 + y := by
    have hzero := one_add_le_mul_exp (u := 0) hy
    rw [add_zero, zero_sub, neg_div, Real.exp_neg, ← div_eq_mul_inv,
      le_div_iff₀ (Real.exp_pos _), one_mul] at hzero
    exact hzero
  calc (us.map (1 + ·)).prod
      ≤ (1 + y) ^ us.length * Real.exp ((us.sum - us.length * y) / (1 + y)) :=
        prod_le_pow_mul_exp hus hy
    _ ≤ (1 + y) ^ us.length * Real.exp (k * (y / (1 + y))) := by
        apply mul_le_mul_of_nonneg_left _ (by positivity)
        apply Real.exp_le_exp.2
        rw [← mul_div_assoc]
        apply div_le_div_of_nonneg_right _ hpos.le
        push_cast at hsum
        linarith
    _ = (1 + y) ^ us.length * Real.exp (y / (1 + y)) ^ k := by rw [← Real.exp_nat_mul]
    _ ≤ (1 + y) ^ us.length * (1 + y) ^ k := by gcongr
    _ = (1 + y) ^ (us.length + k) := (pow_add _ _ _).symm

end Products

section Roots

/-- A rate is under the root of two just where the power of its growth is at most two. -/
theorem le_root_iff {r : ℝ} {n : ℕ} (hn : n ≠ 0) (hr : 0 ≤ 1 + r) :
    r ≤ (2 : ℝ) ^ (1 / (n : ℝ)) - 1 ↔ (1 + r) ^ n ≤ 2 := by
  rw [one_div]
  constructor
  · intro h
    calc (1 + r) ^ n ≤ ((2 : ℝ) ^ ((n : ℝ)⁻¹)) ^ n := by
          apply pow_le_pow_left₀ hr
          linarith
      _ = 2 := Real.rpow_inv_natCast_pow (by norm_num) hn
  · intro h
    have hroot : 1 + r ≤ (2 : ℝ) ^ ((n : ℝ)⁻¹) := by
      calc 1 + r = ((1 + r) ^ n) ^ ((n : ℝ)⁻¹) := (Real.pow_rpow_inv_natCast hr hn).symm
        _ ≤ (2 : ℝ) ^ ((n : ℝ)⁻¹) := by
          apply Real.rpow_le_rpow (by positivity) h
          positivity
    linarith

end Roots

section Rounding

def errorSum : List ℝ → ℝ
  | [] => 0
  | _ :: gs => gs.prod + errorSum gs

theorem one_le_prod {gs : List ℝ} (h : ∀ g ∈ gs, 1 ≤ g) : 1 ≤ gs.prod := by
  induction gs with
  | nil => simp
  | cons g gs ih =>
    rw [List.prod_cons]
    have hg := h g List.mem_cons_self
    have hrest := ih fun g' hg' ↦ h g' (List.mem_cons_of_mem g hg')
    nlinarith

theorem prod_tail_le {g : ℝ} {gs : List ℝ} (h : ∀ g' ∈ g :: gs, 1 ≤ g') :
    gs.prod ≤ (g :: gs).prod := by
  have hg := h g List.mem_cons_self
  have hrest := one_le_prod fun g' hg' ↦ h g' (List.mem_cons_of_mem g hg')
  rw [List.prod_cons]
  nlinarith

theorem errorSum_le {gs : List ℝ} (h : ∀ g ∈ gs, 1 ≤ g) (hprod : gs.prod ≤ 2) :
    errorSum gs ≤ 2 * gs.length := by
  induction gs with
  | nil => simp [errorSum]
  | cons g gs ih =>
    have htail := (prod_tail_le h).trans hprod
    have hrest := ih (fun g' hg' ↦ h g' (List.mem_cons_of_mem g hg')) htail
    rw [errorSum, List.length_cons]
    push_cast
    linarith

/-- The last three errors grow by little, which leaves room for one that grows in full. -/
theorem errorSum_le_of_three {gs : List ℝ} (h : ∀ g ∈ gs, 1 ≤ g ∧ g ≤ 11 / 10)
    (hprod : gs.prod ≤ 2) (hlength : 3 ≤ gs.length) : errorSum gs ≤ 2 * gs.length - 2 := by
  induction gs with
  | nil => simp at hlength
  | cons g gs ih =>
    have htail := (prod_tail_le fun g' hg' ↦ (h g' hg').1).trans hprod
    have hrest := ih (fun g' hg' ↦ h g' (List.mem_cons_of_mem g hg')) htail
    rcases Nat.lt_or_eq_of_le hlength with hmore | hthree
    · have hrest := hrest (by simp only [List.length_cons] at hmore; omega)
      rw [errorSum, List.length_cons]
      push_cast
      linarith
    · simp only [List.length_cons] at hthree
      obtain ⟨a, b, rfl⟩ := List.length_eq_two.1 (by omega : gs.length = 2)
      obtain ⟨ha, ha'⟩ := h a (by simp)
      obtain ⟨hb, hb'⟩ := h b (by simp)
      simp only [errorSum, List.prod_cons, List.prod_nil, List.length_cons, List.length_nil]
      norm_num
      nlinarith

theorem two_mul_prod_add_errorSum {gs : List ℝ} (h : ∀ g ∈ gs, 1 ≤ g ∧ g ≤ 11 / 10)
    (hprod : gs.prod ≤ 2) : 2 * gs.prod + errorSum gs ≤ 2 * gs.length + 2 := by
  match gs, h, hprod with
  | [], _, _ => simp [errorSum]
  | [a], h, _ =>
    obtain ⟨ha, ha'⟩ := h a (by simp)
    simp only [errorSum, List.prod_cons, List.prod_nil, List.length_cons, List.length_nil]
    norm_num
    linarith
  | [a, b], h, _ =>
    obtain ⟨ha, ha'⟩ := h a (by simp)
    obtain ⟨hb, hb'⟩ := h b (by simp)
    simp only [errorSum, List.prod_cons, List.prod_nil, List.length_cons, List.length_nil]
    norm_num
    nlinarith
  | a :: b :: c :: gs, h, hprod =>
    have herror := errorSum_le_of_three h hprod (by simp)
    linarith

end Rounding

end TokenHub.Lib.CompoundGrowth
