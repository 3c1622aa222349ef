import Mathlib.Data.Nat.Find
import Mathlib.Order.Lattice
import Mathlib.Order.Monotone.Basic
import Mathlib.Tactic.Common
import Mathlib.Data.List.Pairwise

set_option autoImplicit false

namespace TokenHub.Lib.Search

variable {τ : Type} [LinearOrder τ] {f : ℕ → τ} {t : τ} {fuel start n : ℕ}

/-- The first index from `start` on whose value is after `t`, within a number of probes. -/
def firstAfter (f : ℕ → τ) (t : τ) : ℕ → ℕ → Option ℕ
  | 0, _ => none
  | fuel + 1, n => if t < f n then some n else firstAfter f t fuel (n + 1)

theorem firstAfter_eq (hstart : start ≤ n) (hfuel : n < start + fuel)
    (hbefore : ∀ m, start ≤ m → m < n → f m ≤ t) (hafter : t < f n) :
    firstAfter f t fuel start = some n := by
  induction fuel generalizing start with
  | zero => omega
  | succ fuel ih =>
    rw [firstAfter]
    by_cases hat : start = n
    · rw [hat, if_pos hafter]
    · have hlow : ¬ t < f start := (hbefore start le_rfl (by omega)).not_gt
      rw [if_neg hlow]
      apply ih (by omega) (by omega)
      intro m hm hmn
      exact hbefore m (by omega) hmn

/-- The index is the least one after `t`, and its value the least value after `t`. -/
def LeastAfter (f : ℕ → τ) (t : τ) (n : ℕ) : Prop := t < f n ∧ ∀ m, t < f m → n ≤ m

theorem LeastAfter.before (h : LeastAfter f t n) {m : ℕ} (hm : m < n) : f m ≤ t := by
  by_contra hlt
  have hle := h.2 m (not_le.1 hlt)
  omega

theorem leastAfter_self (hf : StrictMono f) (n : ℕ) : LeastAfter f (f n) (n + 1) :=
  ⟨hf (Nat.lt_succ_self n), fun _ hm ↦ hf.lt_iff_lt.1 hm⟩

theorem LeastAfter.unique {m : ℕ} (h : LeastAfter f t n) (h' : LeastAfter f t m) : n = m :=
  Nat.le_antisymm (h.2 m h'.1) (h'.2 n h.1)

/-- A search that starts no later than the least index finds it, in as many probes as there are
indices from its start to one after `t`. -/
theorem exists_leastAfter {last : ℕ} (hstart : ∀ m < start, f m ≤ t)
    (hlast : t < f last) (hfuel : last < start + fuel) :
    ∃ n, firstAfter f t fuel start = some n ∧ start ≤ n ∧ n ≤ last ∧ LeastAfter f t n := by
  have hsome : ∃ n, t < f n := ⟨last, hlast⟩
  have hleast : LeastAfter f t (Nat.find hsome) :=
    ⟨Nat.find_spec hsome, fun m hm ↦ Nat.find_min' hsome hm⟩
  have hfrom : start ≤ Nat.find hsome := by
    by_contra hlt
    have hlow := hstart _ (not_le.1 hlt)
    exact absurd hleast.1 hlow.not_gt
  have hto : Nat.find hsome ≤ last := hleast.2 last hlast
  refine ⟨Nat.find hsome, ?_, hfrom, hto, hleast⟩
  apply firstAfter_eq hfrom (by omega) ?_ hleast.1
  intro m _ hm
  exact hleast.before hm

end TokenHub.Lib.Search

namespace TokenHub.Lib.Bisect

variable {τ : Type} [LinearOrder τ] {xs : List τ} {t : τ}

/-- The loop of `bisect_right` between two bounds, within a number of probes. -/
def bisectFrom (xs : List τ) (t : τ) : ℕ → ℕ → ℕ → ℕ
  | 0, lo, _ => lo
  | fuel + 1, lo, hi =>
    if lo < hi then
      match xs[(lo + hi) / 2]? with
      | some x => if t < x then bisectFrom xs t fuel lo ((lo + hi) / 2)
        else bisectFrom xs t fuel ((lo + hi) / 2 + 1) hi
      | none => lo
    else lo

/-- `bisect_right`: where an element goes after all that are not above it. -/
def bisectRight (xs : List τ) (t : τ) : ℕ := bisectFrom xs t xs.length 0 xs.length

example : bisectRight [1, 3, 3, 8] 3 = 3 := by decide

structure Splits (xs : List τ) (t : τ) (lo hi : ℕ) : Prop where
  low : ∀ i x, xs[i]? = some x → i < lo → x ≤ t
  high : ∀ i x, xs[i]? = some x → hi ≤ i → t < x

theorem bisectFrom_splits (hsorted : xs.Pairwise (· ≤ ·)) {fuel lo hi : ℕ} (hle : lo ≤ hi)
    (hhi : hi ≤ xs.length) (hfuel : hi ≤ lo + fuel) (h : Splits xs t lo hi) :
    bisectFrom xs t fuel lo hi ≤ xs.length ∧
      Splits xs t (bisectFrom xs t fuel lo hi) (bisectFrom xs t fuel lo hi) := by
  induction fuel generalizing lo hi with
  | zero =>
    obtain rfl : lo = hi := by omega
    exact ⟨hhi, h⟩
  | succ fuel ih =>
    rw [bisectFrom]
    split_ifs with hlt
    · have hmid : (lo + hi) / 2 < xs.length := by omega
      have hsome : xs[(lo + hi) / 2]? = some xs[(lo + hi) / 2] := List.getElem?_eq_getElem hmid
      rw [hsome]
      by_cases hx : t < xs[(lo + hi) / 2]
      · simp only [hx, if_true]
        apply ih (by omega) (by omega) (by omega)
        refine ⟨h.low, ?_⟩
        intro i x hi' hge
        obtain ⟨hilt, rfl⟩ := List.getElem?_eq_some_iff.1 hi'
        rcases hge.eq_or_lt with rfl | hgt
        · exact hx
        · exact hx.trans_le (List.pairwise_iff_getElem.1 hsorted _ _ hmid hilt hgt)
      · simp only [hx, if_false]
        apply ih (by omega) hhi (by omega)
        refine ⟨?_, h.high⟩
        intro i x hi' hlow
        obtain ⟨hilt, rfl⟩ := List.getElem?_eq_some_iff.1 hi'
        rcases (Nat.lt_succ_iff.1 hlow).eq_or_lt with rfl | hlt'
        · exact not_lt.1 hx
        · exact (List.pairwise_iff_getElem.1 hsorted _ _ hilt hmid hlt').trans (not_lt.1 hx)
    · obtain rfl : lo = hi := by omega
      exact ⟨hhi, h⟩

/-- In a sorted list exactly what stands before the index is not above `t`. -/
theorem bisectRight_splits (hsorted : xs.Pairwise (· ≤ ·)) (t : τ) :
    bisectRight xs t ≤ xs.length ∧ Splits xs t (bisectRight xs t) (bisectRight xs t) := by
  apply bisectFrom_splits hsorted (by omega) le_rfl (by omega)
  refine ⟨fun i x _ hi ↦ absurd hi (by omega), ?_⟩
  intro i x hi hge
  rw [List.getElem?_eq_none hge] at hi
  cases hi

end TokenHub.Lib.Bisect
