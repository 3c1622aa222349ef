import Mathlib.Order.Lattice
import Mathlib.Tactic.Common

set_option autoImplicit false

namespace TokenHub.Lib.Tiling

variable {α τ : Type} [LinearOrder τ] {start stop : α → τ} {a b t : τ} {x y : α} {l : List α}

section

variable (start stop)

/-- Periods that follow one another without a gap, from one point to another. -/
inductive Tiles : τ → List α → τ → Prop
  | nil (a : τ) : Tiles a [] a
  | cons {x : α} {l : List α} {a b : τ} :
      start x = a → a < stop x → Tiles (stop x) l b → Tiles a (x :: l) b

/-- The half-open period of `x` holds `t`. -/
def Holds (t : τ) (x : α) : Prop := start x ≤ t ∧ t < stop x

instance (t : τ) : DecidablePred (Holds start stop t) := fun _ ↦ by unfold Holds; infer_instance

end

theorem Tiles.le (h : Tiles start stop a l b) : a ≤ b := by
  induction h with
  | nil => exact le_rfl
  | cons _ hlt _ ih => exact hlt.le.trans ih

theorem Tiles.snoc (h : Tiles start stop a l b) (hx : start x = b) (hlt : b < stop x) :
    Tiles start stop a (l ++ [x]) (stop x) := by
  induction h with
  | nil a => exact .cons hx hlt (.nil _)
  | cons hstart hlt' _ ih => exact .cons hstart hlt' (ih hx hlt)

theorem Tiles.mem (h : Tiles start stop a l b) (hx : x ∈ l) :
    a ≤ start x ∧ start x < stop x ∧ stop x ≤ b := by
  induction h with
  | nil => cases hx
  | @cons y l a b hstart hlt hl ih =>
    rcases List.mem_cons.1 hx with rfl | hx
    · exact ⟨hstart.ge, hstart ▸ hlt, hl.le⟩
    · obtain ⟨hle, hlt', hle'⟩ := ih hx
      exact ⟨hlt.le.trans hle, hlt', hle'⟩

theorem Tiles.stop_getLast (h : Tiles start stop a l b) (hx : l.getLast? = some x) :
    stop x = b := by
  induction h with
  | nil => cases hx
  | @cons y l a b _ _ hl ih =>
    cases l with
    | nil =>
      cases hx
      cases hl
      rfl
    | cons z l =>
      rw [List.getLast?_cons_cons] at hx
      exact ih hx

theorem Tiles.start_head (h : Tiles start stop a l b) (hx : l.head? = some x) : start x = a := by
  cases h with
  | nil => cases hx
  | cons hstart =>
    cases hx
    exact hstart

theorem Tiles.holds_bounds (h : Tiles start stop a l b) (hx : x ∈ l) (ht : Holds start stop t x) :
    a ≤ t ∧ t < b := by
  obtain ⟨hle, -, hle'⟩ := h.mem hx
  exact ⟨hle.trans ht.1, ht.2.trans_le hle'⟩

/-- A point lies in exactly one of the periods between whose ends it lies, in none otherwise. -/
theorem Tiles.length_filter (h : Tiles start stop a l b) (t : τ) :
    (l.filter (Holds start stop t)).length = if a ≤ t ∧ t < b then 1 else 0 := by
  induction h with
  | nil a =>
    rw [if_neg (fun ht ↦ absurd (ht.1.trans_lt ht.2) (lt_irrefl a))]
    rfl
  | @cons x l a b hstart hlt hl ih =>
    subst hstart
    rw [List.filter_cons]
    by_cases hx : Holds start stop t x
    · rw [if_pos (decide_eq_true hx), List.length_cons, ih,
        if_neg (fun ht ↦ absurd ht.1 (not_le.2 hx.2)), if_pos ⟨hx.1, hx.2.trans_le hl.le⟩]
    · rw [if_neg (by simpa using hx), ih]
      refine if_congr ⟨fun ht ↦ ⟨hlt.le.trans ht.1, ht.2⟩, fun ht ↦ ⟨?_, ht.2⟩⟩ rfl rfl
      by_contra hlow
      exact hx ⟨ht.1, not_le.1 hlow⟩

theorem Tiles.exists_holds (h : Tiles start stop a l b) (hat : a ≤ t) (htb : t < b) :
    ∃ x ∈ l, Holds start stop t x := by
  have hlen := h.length_filter t
  rw [if_pos ⟨hat, htb⟩] at hlen
  obtain ⟨x, hx⟩ := List.exists_mem_of_length_pos (hlen ▸ Nat.one_pos)
  obtain ⟨hmem, hholds⟩ := List.mem_filter.1 hx
  exact ⟨x, hmem, of_decide_eq_true hholds⟩

theorem Tiles.holds_unique (h : Tiles start stop a l b) (hx : x ∈ l) (hy : y ∈ l)
    (htx : Holds start stop t x) (hty : Holds start stop t y) : x = y := by
  have hlen := h.length_filter t
  rw [if_pos (h.holds_bounds hx htx)] at hlen
  obtain ⟨z, hz⟩ := List.length_eq_one_iff.1 hlen
  have hmem : ∀ w ∈ l, Holds start stop t w → w = z := fun w hw ht ↦ by
    have hw' : w ∈ l.filter (Holds start stop t) := List.mem_filter.2 ⟨hw, decide_eq_true ht⟩
    rw [hz] at hw'
    exact List.mem_singleton.1 hw'
  rw [hmem x hx htx, hmem y hy hty]

theorem Tiles.find?_holds (h : Tiles start stop a l b) (hx : x ∈ l)
    (ht : Holds start stop t x) : l.find? (Holds start stop t) = some x := by
  have hsome : (l.find? (Holds start stop t)).isSome := by
    rw [List.find?_isSome]
    exact ⟨x, hx, decide_eq_true ht⟩
  obtain ⟨y, hy⟩ := Option.isSome_iff_exists.1 hsome
  have hholds : Holds start stop t y := by simpa using List.find?_some hy
  rw [hy, h.holds_unique (List.mem_of_find?_eq_some hy) hx hholds ht]

end TokenHub.Lib.Tiling
