import Mathlib.Algebra.Order.Group.Unbundled.Abs
import Mathlib.Algebra.BigOperators.Group.List.Basic
import Mathlib.Tactic.Linarith

set_option autoImplicit false

namespace TokenHub.Lib.SequencedLog

variable {ε κ : Type} (v : ε → ℤ)

/-- The sum of the values of those entries of a log that satisfy `p`. -/
def sumOver (p : ε → Prop) [DecidablePred p] (log : List ε) : ℤ :=
  ((log.filter p).map v).sum

variable {v} {p q : ε → Prop} [DecidablePred p] [DecidablePred q]

@[simp] theorem sumOver_nil : sumOver v p [] = 0 := rfl

theorem sumOver_cons (e : ε) (log : List ε) :
    sumOver v p (e :: log) = (if p e then v e else 0) + sumOver v p log := by
  unfold sumOver
  split_ifs with h <;> simp [h]

theorem sumOver_append (log log' : List ε) :
    sumOver v p (log ++ log') = sumOver v p log + sumOver v p log' := by
  simp [sumOver]

theorem sumOver_snoc (log : List ε) (e : ε) :
    sumOver v p (log ++ [e]) = sumOver v p log + if p e then v e else 0 := by
  rw [sumOver_append, sumOver_cons, sumOver_nil, add_zero]

theorem sumOver_congr {log : List ε} (h : ∀ e ∈ log, (p e ↔ q e)) :
    sumOver v p log = sumOver v q log := by
  have hf : log.filter (fun e ↦ decide (p e)) = log.filter (fun e ↦ decide (q e)) :=
    List.filter_congr (fun e he ↦ decide_eq_decide.2 (h e he))
  unfold sumOver
  rw [hf]

theorem sumOver_split (log : List ε) :
    sumOver v p log =
      sumOver v (fun e ↦ p e ∧ q e) log + sumOver v (fun e ↦ p e ∧ ¬ q e) log := by
  induction log with
  | nil => rfl
  | cons e log ih =>
    simp only [sumOver_cons, ih]
    by_cases hp : p e <;> by_cases hq : q e <;> simp [hp, hq] <;> omega

theorem abs_sumOver_le {log : List ε} {b : ℤ} (hb : 0 ≤ b) (h : ∀ e ∈ log, |v e| ≤ b) :
    |sumOver v p log| ≤ log.length * b := by
  induction log with
  | nil => simp
  | cons e log ih =>
    have he := h e (by simp)
    have hl := ih (fun x hx ↦ h x (by simp [hx]))
    rw [sumOver_cons]
    have habs : |(if p e then v e else 0) + sumOver v p log| ≤
        |if p e then v e else 0| + |sumOver v p log| := abs_add_le _ _
    have hif : |if p e then v e else 0| ≤ b := by
      split_ifs
      · exact he
      · simpa using hb
    push_cast [List.length_cons]
    linarith

theorem sumOver_nonneg {log : List ε} (h : ∀ e ∈ log, p e → 0 ≤ v e) :
    0 ≤ sumOver v p log := by
  induction log with
  | nil => simp
  | cons e log ih =>
    have hl := ih (fun x hx ↦ h x (by simp [hx]))
    rw [sumOver_cons]
    split_ifs with hp
    · have := h e (by simp) hp
      omega
    · omega

/-- A change of those entries of a log that counted nothing adds what they count then. -/
theorem sumOver_map_on {f : ε → ε} {p' r : ε → Prop} [DecidablePred p'] [DecidablePred r]
    {log : List ε} (hfix : ∀ e ∈ log, ¬ r e → f e = e) (hp : ∀ e ∈ log, p' (f e) ↔ p e)
    (hzero : ∀ e ∈ log, r e → v e = 0) : sumOver v p' (log.map f) =
      sumOver v p log + sumOver (fun e ↦ v (f e)) (fun e ↦ p e ∧ r e) log := by
  induction log with
  | nil => rfl
  | cons e log ih =>
    have ih := ih (fun x hx ↦ hfix x (by simp [hx])) (fun x hx ↦ hp x (by simp [hx]))
      (fun x hx ↦ hzero x (by simp [hx]))
    have hpe := hp e (by simp)
    rw [List.map_cons, sumOver_cons, sumOver_cons, sumOver_cons, ih]
    by_cases hr : r e
    · have hzero := hzero e (by simp) hr
      simp only [hpe, hr, hzero, and_true, ite_self]
      omega
    · have hfix := hfix e (by simp) hr
      rw [hfix] at hpe
      simp only [hfix, hpe, hr, and_false, if_false]
      omega

theorem sumOver_map_congr {f : ε → ε} {log : List ε} (h : ∀ e ∈ log, f e = e) :
    sumOver v p (log.map f) = sumOver v p log := by
  rw [List.map_congr_left h, List.map_id']

/-- A change of one entry moves the sum by the change of its value. -/
theorem sumOver_map_at {f : ε → ε} {pre post : List ε} {e : ε} (hpre : ∀ x ∈ pre, f x = x)
    (hpost : ∀ x ∈ post, f x = x) :
    sumOver v p ((pre ++ e :: post).map f) = sumOver v p (pre ++ e :: post) -
      (if p e then v e else 0) + if p (f e) then v (f e) else 0 := by
  rw [List.map_append, List.map_cons, sumOver_append, sumOver_append, sumOver_cons, sumOver_cons,
    sumOver_map_congr hpre, sumOver_map_congr hpost]
  omega

/-- Within each key, sequence numbers grow along the log. -/
def Sequenced (key : ε → κ) (seq : ε → ℕ) (log : List ε) : Prop :=
  log.Pairwise (fun e e' ↦ key e = key e' → seq e < seq e')

theorem Sequenced.snoc {key : ε → κ} {seq : ε → ℕ} {log : List ε} {e : ε}
    (h : Sequenced key seq log) (he : ∀ x ∈ log, key x = key e → seq x < seq e) :
    Sequenced key seq (log ++ [e]) := by
  refine List.pairwise_append.2 ⟨h, List.pairwise_singleton _ _, ?_⟩
  intro x hx y hy
  rw [List.mem_singleton.1 hy]
  exact he x hx

end TokenHub.Lib.SequencedLog
