import Mathlib.Algebra.BigOperators.Group.List.Basic
import Mathlib.Data.List.Nodup
import Mathlib.Algebra.Order.Ring.Int
import Mathlib.Tactic.Common

set_option autoImplicit false

/-! Dictionaries of sums, as lists of their entries in the order of insertion. -/

namespace TokenHub.Lib.Tally

variable {κ : Type} [DecidableEq κ]

def add (key : κ) (n : ℤ) : List (κ × ℤ) → List (κ × ℤ)
  | [] => [(key, n)]
  | e :: es => if e.1 = key then (key, e.2 + n) :: es else e :: add key n es

def amount (key : κ) (es : List (κ × ℤ)) : ℤ := ((es.filter (·.1 = key)).map (·.2)).sum

def addAll (es new : List (κ × ℤ)) : List (κ × ℤ) := new.foldl (fun es e ↦ add e.1 e.2 es) es

theorem addAll_append (es new more : List (κ × ℤ)) :
    addAll es (new ++ more) = addAll (addAll es new) more := List.foldl_append

section Amounts

variable {key : κ} {n : ℤ} {es new : List (κ × ℤ)}

@[simp] theorem amount_nil : amount key [] = 0 := rfl

theorem amount_cons (e : κ × ℤ) : amount key (e :: es) =
    (if e.1 = key then e.2 else 0) + amount key es := by
  unfold amount
  rw [List.filter_cons]
  split_ifs with h h' h' <;> simp_all

theorem amount_append : amount key (es ++ new) = amount key es + amount key new := by
  simp [amount]

theorem amount_perm (h : es.Perm new) : amount key es = amount key new :=
  ((h.filter _).map _).sum_eq

/-- A dictionary holds under a key the entry of that key. -/
theorem amount_of_mem (h : (es.map (·.1)).Nodup) (hmem : (key, n) ∈ es) : amount key es = n := by
  induction es with
  | nil => exact absurd hmem (List.not_mem_nil)
  | cons e es ih =>
    rw [List.map_cons, List.nodup_cons] at h
    rw [amount_cons]
    rcases List.mem_cons.1 hmem with rfl | hmem
    · have hrest : es.filter (·.1 = key) = [] := by
        rw [List.filter_eq_nil_iff]
        intro e he hkey
        exact h.1 (List.mem_map.2 ⟨e, he, of_decide_eq_true hkey⟩)
      rw [if_pos rfl, amount, hrest]
      simp
    · have hne : e.1 ≠ key := fun heq ↦ h.1 (List.mem_map.2 ⟨_, hmem, heq.symm⟩)
      rw [if_neg hne, zero_add, ih h.2 hmem]

theorem amount_eq_zero (h : key ∉ es.map (·.1)) : amount key es = 0 := by
  have hnone : es.filter (·.1 = key) = [] := by
    rw [List.filter_eq_nil_iff]
    intro e he hkey
    exact h (List.mem_map.2 ⟨e, he, of_decide_eq_true hkey⟩)
  rw [amount, hnone]
  rfl

theorem amount_add (key' : κ) : amount key (add key' n es) =
    amount key es + if key' = key then n else 0 := by
  induction es with
  | nil => rw [add, amount_cons, amount_nil, add_comm]
  | cons e es ih =>
    rw [add]
    split_ifs with h h' h'
    · rw [amount_cons, amount_cons, if_pos h', if_pos (h.trans h')]
      omega
    · rw [amount_cons, amount_cons, if_neg h', if_neg (fun h'' ↦ h' (h.symm.trans h'')), add_zero]
    · rw [amount_cons, amount_cons, ih, if_pos h', add_assoc]
    · rw [amount_cons, amount_cons, ih, if_neg h', add_zero, add_zero]

theorem amount_addAll : amount key (addAll es new) = amount key es + amount key new := by
  induction new generalizing es with
  | nil => exact (add_zero _).symm
  | cons e new ih =>
    rw [addAll, List.foldl_cons, ← addAll, ih, amount_add, amount_cons, add_assoc]

end Amounts

section Entries

variable {key key' : κ} {n : ℤ} {es new : List (κ × ℤ)}

theorem sum_add : ((add key n es).map (·.2)).sum = (es.map (·.2)).sum + n := by
  induction es with
  | nil => simp [add]
  | cons e es ih =>
    rw [add]
    split_ifs
    · rw [List.map_cons, List.sum_cons, List.map_cons, List.sum_cons]
      omega
    · rw [List.map_cons, List.sum_cons, ih, List.map_cons, List.sum_cons, add_assoc]

theorem sum_addAll : ((addAll es new).map (·.2)).sum =
    (es.map (·.2)).sum + (new.map (·.2)).sum := by
  induction new generalizing es with
  | nil => exact (add_zero _).symm
  | cons e new ih =>
    rw [addAll, List.foldl_cons, ← addAll, ih, sum_add, List.map_cons, List.sum_cons, add_assoc]

theorem mem_keys_add : key' ∈ (add key n es).map (·.1) ↔ key' ∈ es.map (·.1) ∨ key' = key := by
  induction es with
  | nil => simp [add]
  | cons e es ih =>
    rw [add]
    split_ifs with h
    · rw [List.map_cons, List.map_cons, List.mem_cons, List.mem_cons, h]
      tauto
    · rw [List.map_cons, List.map_cons, List.mem_cons, List.mem_cons, ih, or_assoc]

theorem mem_keys_addAll : key' ∈ (addAll es new).map (·.1) ↔
    key' ∈ es.map (·.1) ∨ key' ∈ new.map (·.1) := by
  induction new generalizing es with
  | nil => simp [addAll]
  | cons e new ih =>
    rw [addAll, List.foldl_cons, ← addAll, ih, mem_keys_add, List.map_cons, List.mem_cons, or_assoc]

/-- A dictionary holds under its keys what its entries add up to. -/
theorem sum_amount {keys : List κ} (hkeys : keys.Nodup) (h : ∀ e ∈ es, e.1 ∈ keys) :
    (keys.map (amount · es)).sum = (es.map (·.2)).sum := by
  induction es with
  | nil => simp
  | cons e es ih =>
    have hone : (keys.map fun k ↦ if e.1 = k then e.2 else 0).sum = e.2 := by
      simp only [eq_comm (a := e.1)]
      rw [List.sum_map_ite_eq, List.count_eq_one_of_mem hkeys (h e (by simp))]
      simp
    simp only [amount_cons, List.sum_map_add, hone, ih fun x hx ↦ h x (by simp [hx]),
      List.map_cons, List.sum_cons]

theorem add_of_fresh (h : key ∉ es.map (·.1)) : add key n es = es ++ [(key, n)] := by
  induction es with
  | nil => rfl
  | cons e es ih =>
    rw [List.map_cons, List.mem_cons, not_or] at h
    rw [add, if_neg (fun heq ↦ h.1 heq.symm), ih h.2, List.cons_append]

theorem nodup_add (h : (es.map (·.1)).Nodup) : ((add key n es).map (·.1)).Nodup := by
  induction es with
  | nil => exact List.nodup_singleton _
  | cons e es ih =>
    rw [List.map_cons, List.nodup_cons] at h
    rw [add]
    split_ifs with hkey
    · rw [List.map_cons, List.nodup_cons]
      exact hkey ▸ h
    · rw [List.map_cons, List.nodup_cons, mem_keys_add, not_or]
      exact ⟨⟨h.1, hkey⟩, ih h.2⟩

theorem nodup_addAll (h : (es.map (·.1)).Nodup) : ((addAll es new).map (·.1)).Nodup := by
  induction new generalizing es with
  | nil => exact h
  | cons e new ih => exact ih (nodup_add h)

/-- Two dictionaries of the same keys and sums have the same entries. -/
theorem perm_of_amount (hes : (es.map (·.1)).Nodup) (hnew : (new.map (·.1)).Nodup)
    (hkeys : ∀ k, k ∈ es.map (·.1) ↔ k ∈ new.map (·.1))
    (hamount : ∀ k, amount k es = amount k new) : es.Perm new := by
  have hmem : ∀ {as bs : List (κ × ℤ)}, (as.map (·.1)).Nodup → (bs.map (·.1)).Nodup →
      (∀ k, k ∈ as.map (·.1) → k ∈ bs.map (·.1)) → (∀ k, amount k as = amount k bs) →
      ∀ e ∈ as, e ∈ bs := by
    intro as bs has hbs hsub hsame e he
    obtain ⟨e', he', hkey⟩ := List.mem_map.1 (hsub e.1 (List.mem_map_of_mem he))
    have hleft : amount e.1 as = e.2 := amount_of_mem has he
    have hright : amount e.1 bs = e'.2 := by
      rw [← hkey]
      exact amount_of_mem hbs he'
    have hvalue : e'.2 = e.2 := by rw [← hright, ← hsame, hleft]
    rwa [← Prod.ext hkey hvalue]
  rw [List.perm_ext_iff_of_nodup hes.of_map hnew.of_map]
  intro e
  exact ⟨hmem hes hnew (fun k ↦ (hkeys k).1) hamount e,
    hmem hnew hes (fun k ↦ (hkeys k).2) (fun k ↦ (hamount k).symm) e⟩

end Entries

end TokenHub.Lib.Tally
