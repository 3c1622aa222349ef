import Mathlib.Data.Set.Basic

set_option autoImplicit false

namespace TokenHub.Lib.Runs

variable {σ α : Type} {f : σ → α → σ} {s : σ}

def run (f : σ → α → σ) (s : σ) (as : List α) : σ := as.foldl f s

@[simp] theorem run_nil : run f s [] = s := rfl

@[simp] theorem run_cons (a : α) (as : List α) : run f s (a :: as) = run f (f s a) as :=
  rfl

theorem run_append (as bs : List α) : run f s (as ++ bs) = run f (run f s as) bs :=
  List.foldl_append

/-- What holds at the start and is kept by every step holds along every run. -/
theorem run_invariant {I : σ → Prop} (hI : I s) (hstep : ∀ s a, I s → I (f s a))
    (as : List α) : I (run f s as) := by
  induction as generalizing s with
  | nil => exact hI
  | cons a as ih => exact ih (hstep s a hI)

/-- A reflexive and transitive relation that each step respects holds from start to end. -/
theorem run_relates {I : σ → Prop} {R : σ → σ → Prop} (hI : I s) (hrefl : ∀ s, R s s)
    (htrans : ∀ s t u, R s t → R t u → R s u)
    (hstep : ∀ s a, I s → I (f s a) ∧ R s (f s a)) (as : List α) :
    I (run f s as) ∧ R s (run f s as) := by
  induction as generalizing s with
  | nil => exact ⟨hI, hrefl s⟩
  | cons a as ih =>
    obtain ⟨hI', hR⟩ := hstep s a hI
    obtain ⟨hI'', hR'⟩ := ih hI'
    exact ⟨hI'', htrans _ _ _ hR hR'⟩

section Along

variable {P Q : σ → α → Prop}

/-- Every step of a run satisfies `P`. -/
def AllAlong (P : σ → α → Prop) (f : σ → α → σ) : σ → List α → Prop
  | _, [] => True
  | s, a :: as => P s a ∧ AllAlong P f (f s a) as

def AllAlong.decide [∀ s a, Decidable (P s a)] : ∀ (s : σ) (as : List α), Decidable (AllAlong P f s as)
  | _, [] => isTrue trivial
  | s, a :: as =>
    have := AllAlong.decide (f s a) as
    inferInstanceAs (Decidable (P s a ∧ _))

instance [∀ s a, Decidable (P s a)] (s : σ) (as : List α) : Decidable (AllAlong P f s as) :=
  AllAlong.decide s as

theorem AllAlong.append {as bs : List α} (h : AllAlong P f s (as ++ bs)) :
    AllAlong P f s as ∧ AllAlong P f (run f s as) bs := by
  induction as generalizing s with
  | nil => exact ⟨trivial, h⟩
  | cons a as ih => exact ⟨⟨h.1, (ih h.2).1⟩, (ih h.2).2⟩

theorem AllAlong.and_forall {R : α → Prop} {as : List α} (h : AllAlong P f s as)
    (hR : ∀ a ∈ as, R a) : AllAlong (fun s a ↦ P s a ∧ R a) f s as := by
  induction as generalizing s with
  | nil => trivial
  | cons a as ih =>
    exact ⟨⟨h.1, hR a (by simp)⟩, ih h.2 (fun b hb ↦ hR b (by simp [hb]))⟩

theorem AllAlong.of_forall (h : ∀ s a, P s a) (as : List α) : AllAlong P f s as := by
  induction as generalizing s with
  | nil => trivial
  | cons a as ih => exact ⟨h s a, ih⟩

/-- What is true of each action on the list holds along its run. -/
theorem AllAlong.of_mem {as : List α} (h : ∀ a ∈ as, ∀ s, P s a) : AllAlong P f s as := by
  induction as generalizing s with
  | nil => trivial
  | cons a as ih => exact ⟨h a (by simp) s, ih fun b hb ↦ h b (by simp [hb])⟩

theorem AllAlong.trans {as bs : List α} (h : AllAlong P f s as)
    (h' : AllAlong P f (run f s as) bs) : AllAlong P f s (as ++ bs) := by
  induction as generalizing s with
  | nil => exact h'
  | cons a as ih => exact ⟨h.1, ih h.2 h'⟩

theorem AllAlong.take {as : List α} (h : AllAlong P f s as) (n : ℕ) :
    AllAlong P f s (as.take n) := by
  rw [← List.take_append_drop n as] at h
  exact h.append.1

/-- An invariant that the steps of `P` keep holds at the end of a run of them. -/
theorem AllAlong.invariant {I : σ → Prop} {as : List α} (h : AllAlong P f s as) (hI : I s)
    (hstep : ∀ s a, I s → P s a → I (f s a)) : I (run f s as) := by
  induction as generalizing s with
  | nil => exact hI
  | cons a as ih => exact ih h.2 (hstep s a hI h.1)

/-- What an invariant gives of a step holds along the whole run. -/
theorem AllAlong.of_invariant {I : σ → Prop} {as : List α} (h : AllAlong P f s as) (hI : I s)
    (hstep : ∀ s a, I s → P s a → I (f s a)) (hQ : ∀ s a, I s → P s a → Q s a) :
    AllAlong Q f s as := by
  induction as generalizing s with
  | nil => trivial
  | cons a as ih => exact ⟨hQ s a hI h.1, ih h.2 (hstep s a hI h.1)⟩

/-- All that the steps of a run use, each in the state that it is taken in. -/
def usedAlong {β : Type} (uses : σ → α → Set β) (f : σ → α → σ) : σ → List α → Set β
  | _, [] => ∅
  | s, a :: as => uses s a ∪ usedAlong uses f (f s a) as

theorem allAlong_uses_subset {β : Type} {uses : σ → α → Set β} {U : Set β} {as : List α}
    (h : usedAlong uses f s as ⊆ U) : AllAlong (fun s a ↦ uses s a ⊆ U) f s as := by
  induction as generalizing s with
  | nil => trivial
  | cons a as ih =>
    rw [usedAlong, Set.union_subset_iff] at h
    exact ⟨h.1, ih h.2⟩

end Along

section Filtered

variable {P : σ → σ → α → Prop} {keep : α → Bool}

/-- Every step of a run, beside the run of its kept steps alone, satisfies `P`. -/
def Beside (P : σ → σ → α → Prop) (keep : α → Bool) (f : σ → α → σ) : σ → σ → List α → Prop
  | _, _, [] => True
  | s, t, a :: as => P s t a ∧ Beside P keep f (f s a) (if keep a then f t a else t) as

def Beside.decide [∀ s t a, Decidable (P s t a)] :
    ∀ (s t : σ) (as : List α), Decidable (Beside P keep f s t as)
  | _, _, [] => isTrue trivial
  | s, t, a :: as =>
    have := Beside.decide (f s a) (if keep a then f t a else t) as
    inferInstanceAs (Decidable (P s t a ∧ _))

instance [∀ s t a, Decidable (P s t a)] (s t : σ) (as : List α) :
    Decidable (Beside P keep f s t as) := Beside.decide s t as

/-- Where each step keeps a relation between a run and the run of its kept steps, it relates the
states that they end in. -/
theorem Beside.run_filter {R : σ → σ → Prop} {t : σ} {as : List α} (hR : R s t)
    (hstep : ∀ s t a, R s t → P s t a → R (f s a) (if keep a then f t a else t))
    (h : Beside P keep f s t as) : R (run f s as) (run f t (as.filter keep)) := by
  induction as generalizing s t with
  | nil => exact hR
  | cons a as ih =>
    obtain ⟨ha, h⟩ := h
    have hR' := ih (hstep s t a hR ha) h
    by_cases hkeep : keep a = true
    · rw [if_pos hkeep] at hR'
      rw [List.filter_cons_of_pos hkeep, run_cons, run_cons]
      exact hR'
    · rw [if_neg hkeep] at hR'
      rw [List.filter_cons_of_neg hkeep, run_cons]
      exact hR'

end Filtered

end TokenHub.Lib.Runs
