import Mathlib.Data.List.Dedup
import Mathlib.Tactic.Common
import TokenHub.Lib.SequencedLog

set_option autoImplicit false

namespace TokenHub.Lib.Sql

variable {α β κ ρ : Type}

/-- A truth value of a query; `none` is unknown. -/
abbrev Truth := Option Bool

section Conditions

variable [DecidableEq α]

def eq (a b : Option α) : Truth :=
  match a, b with
  | some a, some b => some (decide (a = b))
  | _, _ => none

def le (a b : Option ℤ) : Truth :=
  match a, b with
  | some a, some b => some (decide (a ≤ b))
  | _, _ => none

def isIn (a : Option α) (as : List α) : Truth := a.map (fun a ↦ decide (a ∈ as))

def isNotNull {α : Type} (a : Option α) : Truth := some a.isSome

def and : Truth → Truth → Truth
  | some true, b => b
  | some false, _ => some false
  | none, some false => some false
  | none, _ => none

/-- What a `WHERE` keeps: not the false and not the unknown. -/
def holds (t : Truth) : Bool := decide (t = some true)

@[simp] theorem holds_eq {a b : Option α} : holds (eq a b) = true ↔ ∃ x, a = some x ∧ b = some x := by
  cases a with
  | none => simp [holds, eq]
  | some a =>
    cases b with
    | none => simp [holds, eq]
    | some b =>
      simp only [holds, eq, Option.some.injEq, decide_eq_true_eq]
      exact ⟨fun h ↦ ⟨a, rfl, h.symm⟩, fun ⟨x, hx, hy⟩ ↦ hx.trans hy.symm⟩

@[simp] theorem holds_le {a b : Option ℤ} :
    holds (le a b) = true ↔ ∃ x y, a = some x ∧ b = some y ∧ x ≤ y := by
  cases a with
  | none => simp [holds, le]
  | some a =>
    cases b with
    | none => simp [holds, le]
    | some b => simp [holds, le]

@[simp] theorem holds_isIn {a : Option α} {as : List α} :
    holds (isIn a as) = true ↔ ∃ x ∈ as, a = some x := by
  cases a with
  | none => simp [holds, isIn]
  | some a => simp [holds, isIn]

@[simp] theorem holds_isNotNull {α : Type} {a : Option α} :
    holds (isNotNull a) = true ↔ a.isSome = true := by
  simp [holds, isNotNull]

@[simp] theorem holds_and {s t : Truth} : holds (and s t) = true ↔ holds s = true ∧ holds t = true := by
  rcases s with - | (- | -) <;> rcases t with - | (- | -) <;> simp [holds, and]

end Conditions

section Aggregates

def sum (values : List ℤ) : Option ℤ := if values = [] then none else some values.sum

@[simp] theorem coalesce_sum (values : List ℤ) : (sum values).getD 0 = values.sum := by
  unfold sum
  split_ifs with h
  · simp [h]
  · rfl

variable [DecidableEq κ]

def groupSums (key : ρ → κ) (value : ρ → ℤ) (rows : List ρ) : List (κ × ℤ) :=
  (rows.map key).dedup.map (fun k ↦ (k, ((rows.filter (fun r ↦ key r = k)).map value).sum))

variable {key : ρ → κ} {value : ρ → ℤ} {rows : List ρ} {k : κ} {n : ℤ}

theorem mem_groupSums : (k, n) ∈ groupSums key value rows ↔
    (∃ r ∈ rows, key r = k) ∧ n = ((rows.filter (fun r ↦ key r = k)).map value).sum := by
  simp only [groupSums, List.mem_map, List.mem_dedup, Prod.mk.injEq]
  constructor
  · rintro ⟨k', ⟨r, hr, rfl⟩, rfl, rfl⟩
    exact ⟨⟨r, hr, rfl⟩, rfl⟩
  · rintro ⟨⟨r, hr, rfl⟩, rfl⟩
    exact ⟨key r, ⟨r, hr, rfl⟩, rfl, rfl⟩

theorem sum_eq_zero_of_no_group (h : ∀ n, (k, n) ∉ groupSums key value rows) :
    ((rows.filter (fun r ↦ key r = k)).map value).sum = 0 := by
  have hnone : rows.filter (fun r ↦ key r = k) = [] := by
    rw [List.filter_eq_nil_iff]
    intro r hr hkey
    exact h _ (mem_groupSums.2 ⟨⟨r, hr, by simpa using hkey⟩, rfl⟩)
  simp [hnone]

end Aggregates

section Joins

/-- A left outer join: a row without a partner is kept without one. -/
def leftJoin (on : α → β → Truth) (as : List α) (bs : List β) : List (α × Option β) :=
  as.flatMap (fun a ↦
    match bs.filter (fun b ↦ holds (on a b)) with
    | [] => [(a, none)]
    | partners => partners.map (fun b ↦ (a, some b)))

variable {on : α → β → Truth} {as : List α} {bs : List β} {a : α} {b : Option β}

theorem mem_leftJoin : (a, b) ∈ leftJoin on as bs ↔ a ∈ as ∧
    match b with
    | some b => b ∈ bs ∧ holds (on a b) = true
    | none => ∀ b ∈ bs, ¬ holds (on a b) = true := by
  rw [leftJoin, List.mem_flatMap]
  constructor
  · rintro ⟨a', ha', hmem⟩
    split at hmem
    · next hnone =>
      rw [List.mem_singleton, Prod.mk.injEq] at hmem
      obtain ⟨rfl, rfl⟩ := hmem
      exact ⟨ha', fun b hb ↦ List.filter_eq_nil_iff.1 hnone b hb⟩
    · obtain ⟨b', hb', heq⟩ := List.mem_map.1 hmem
      rw [Prod.mk.injEq] at heq
      obtain ⟨rfl, rfl⟩ := heq
      exact ⟨ha', List.mem_filter.1 hb'⟩
  · rintro ⟨ha, hb⟩
    refine ⟨a, ha, ?_⟩
    cases b with
    | none =>
      rw [List.filter_eq_nil_iff.2 hb]
      exact List.mem_singleton.2 rfl
    | some b =>
      have hmem : b ∈ bs.filter (fun b ↦ holds (on a b)) := List.mem_filter.2 hb
      split
      · next hnone =>
        rw [hnone] at hmem
        cases hmem
      · exact List.mem_map.2 ⟨b, hmem, rfl⟩

end Joins

end TokenHub.Lib.Sql
