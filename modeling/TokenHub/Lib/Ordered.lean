import Mathlib.Data.List.Sort

set_option autoImplicit false

namespace TokenHub.Lib.Ordered

variable {α : Type} (r : α → α → Prop) [DecidableRel r]

theorem orderedInsert_concat {a x : α} (h : r a x) (as : List α) :
    (as ++ [x]).orderedInsert r a = as.orderedInsert r a ++ [x] := by
  induction as with
  | nil => simp [h]
  | cons b as ih =>
    rw [List.cons_append, List.orderedInsert_cons, List.orderedInsert_cons, ih]
    split_ifs <;> rfl

/-- A last element that nothing comes after stays last when the list is sorted. -/
theorem insertionSort_concat {as : List α} {x : α} (h : ∀ a ∈ as, r a x) :
    (as ++ [x]).insertionSort r = as.insertionSort r ++ [x] := by
  induction as with
  | nil => rfl
  | cons a as ih =>
    rw [List.cons_append, List.insertionSort_cons, List.insertionSort_cons,
      ih (fun b hb ↦ h b (List.mem_cons_of_mem a hb)),
      orderedInsert_concat r (h a List.mem_cons_self)]

/-- `ORDER BY ... LIMIT 1`. -/
def firstBy (as : List α) : Option α := (as.insertionSort r).head?

variable {r} {as : List α} {a : α}

@[simp] theorem firstBy_nil : firstBy r [] = none := rfl

theorem firstBy_eq_none : firstBy r as = none ↔ as = [] := by
  rw [firstBy, List.head?_eq_none_iff, ← List.length_eq_zero_iff, List.length_insertionSort,
    List.length_eq_zero_iff]

theorem mem_of_firstBy (h : firstBy r as = some a) : a ∈ as :=
  (List.mem_insertionSort r).1 (List.mem_of_mem_head? h)

theorem firstBy_cons (a : α) (as : List α) : firstBy r (a :: as) =
    some (match firstBy r as with
      | none => a
      | some b => if r a b then a else b) := by
  rw [firstBy, firstBy, List.insertionSort_cons]
  cases as.insertionSort r with
  | nil => rfl
  | cons b bs =>
    by_cases hab : r a b
    · simp [hab]
    · simp [hab]

variable [Std.Total r] [IsTrans α r]

theorem firstBy_le (h : firstBy r as = some a) {b : α} (hb : b ∈ as) : b = a ∨ r a b := by
  have hsorted := List.pairwise_insertionSort r as
  obtain ⟨bs, hbs⟩ := List.head?_eq_some_iff.1 h
  rw [hbs, List.pairwise_cons] at hsorted
  have hmem : b ∈ as.insertionSort r := (List.mem_insertionSort r).2 hb
  rw [hbs, List.mem_cons] at hmem
  exact hmem.imp_right (hsorted.1 b)

/-- An element that comes before all others, and after none, comes first. -/
theorem firstBy_eq_some (ha : a ∈ as) (h : ∀ b ∈ as, b = a ∨ ¬ r b a) : firstBy r as = some a := by
  cases hfirst : firstBy r as with
  | none =>
    rw [firstBy_eq_none.1 hfirst] at ha
    cases ha
  | some b =>
    rcases h b (mem_of_firstBy hfirst) with rfl | hnot
    · rfl
    · rcases firstBy_le hfirst ha with rfl | hba
      · rfl
      · exact absurd hba hnot

theorem firstBy_concat {x : α} (h : firstBy r as = some a) (hx : ¬ r x a) :
    firstBy r (as ++ [x]) = some a := by
  induction as generalizing a with
  | nil => cases h
  | cons b as ih =>
    rw [List.cons_append, firstBy_cons]
    rw [firstBy_cons, Option.some.injEq] at h
    have hbelow : ∀ y ∈ as, firstBy r (b :: as) = some b → r b y := by
      intro y hy hb
      rcases firstBy_le hb (List.mem_cons_of_mem b hy) with rfl | hle
      · exact (Std.Total.total (r := r) y y).elim id id
      · exact hle
    cases hfirst : firstBy r as with
    | none =>
      simp only [hfirst] at h
      subst h
      have hnil := firstBy_eq_none.1 hfirst
      subst hnil
      rcases Std.Total.total (r := r) b x with hbx | hxb
      · simp [firstBy, hbx]
      · exact absurd hxb hx
    | some c =>
      simp only [hfirst] at h
      by_cases hc : r x c
      · -- the first one is `b`, which comes before every other
        have hb : b = a := by
          by_contra hne
          split_ifs at h with hbc
          · exact hne h
          · exact hx (h ▸ hc)
        subst hb
        have hbx : r b x := (Std.Total.total (r := r) b x).resolve_right hx
        cases hrest : firstBy r (as ++ [x]) with
        | none => rfl
        | some y =>
          have hby : r b y := by
            rcases List.mem_append.1 (mem_of_firstBy hrest) with hy | hy
            · refine hbelow y hy ?_
              rw [firstBy_cons, hfirst]
              exact congrArg some h
            · rw [List.mem_singleton.1 hy]
              exact hbx
          simp [hby]
      · rw [ih hfirst hc]
        exact congrArg some h

section Keys

variable {l m : List α} {key : α → ℕ}

theorem find?_key_eq_some (h : l.Pairwise (key · < key ·)) {a : α} {k : ℕ} :
    l.find? (key · = k) = some a ↔ a ∈ l ∧ key a = k := by
  constructor
  · intro hfind
    exact ⟨List.mem_of_find?_eq_some hfind, by simpa using List.find?_some hfind⟩
  · rintro ⟨ha, rfl⟩
    induction l with
    | nil => exact absurd ha List.not_mem_nil
    | cons b l ih =>
      obtain ⟨hb, hl⟩ := List.pairwise_cons.1 h
      rcases List.mem_cons.1 ha with rfl | ha
      · rw [List.find?_cons_of_pos (by simp)]
      · rw [List.find?_cons_of_neg (by simpa using (hb a ha).ne), ih hl ha]

theorem eq_of_find?_key (hl : l.Pairwise (key · < key ·)) (hm : m.Pairwise (key · < key ·))
    (h : ∀ k, l.find? (key · = k) = m.find? (key · = k)) : l = m := by
  have hirrefl : Std.Irrefl (fun a b : α ↦ key a < key b) := ⟨fun a ↦ lt_irrefl (key a)⟩
  refine List.Pairwise.eq_of_mem_iff hl hm ?_
  intro a
  calc a ∈ l ↔ l.find? (key · = key a) = some a := by simp [find?_key_eq_some hl]
    _ ↔ m.find? (key · = key a) = some a := by rw [h]
    _ ↔ a ∈ m := by simp [find?_key_eq_some hm]

end Keys

end TokenHub.Lib.Ordered
