import Mathlib.Algebra.Order.Floor.Ring
import Mathlib.Algebra.Order.BigOperators.Group.List
import Mathlib.Data.List.Sort
import Mathlib.Data.Rat.Floor
import Mathlib.Tactic.Linarith

set_option autoImplicit false

namespace TokenHub.Lib.Apportionment

variable {α : Type}

section Rule

variable (quota : α → ℚ) (tie : α → α → Prop)

/-- The larger remainder goes first, and among equal ones the tie break decides. -/
def Ahead (a b : α) : Prop :=
  Int.fract (quota b) < Int.fract (quota a) ∨
    Int.fract (quota a) = Int.fract (quota b) ∧ tie a b

variable [DecidableRel tie]

instance : DecidableRel (Ahead quota tie) := fun a b ↦ by unfold Ahead; infer_instance

def leftover (as : List α) (seats : ℤ) : ℕ := (seats - (as.map (⌊quota ·⌋)).sum).toNat

def favoured (as : List α) (seats : ℤ) : List α :=
  (as.insertionSort (Ahead quota tie)).take (leftover quota as seats)

def share [DecidableEq α] (as : List α) (seats : ℤ) (a : α) : ℤ :=
  ⌊quota a⌋ + if a ∈ favoured quota tie as seats then 1 else 0

end Rule

section Sums

theorem sum_lt_length {as : List α} {f : α → ℚ} (h : ∀ a ∈ as, f a < 1) (hne : as ≠ []) :
    (as.map f).sum < as.length := by
  induction as with
  | nil => exact absurd rfl hne
  | cons a as ih =>
    have ha := h a (by simp)
    rw [List.map_cons, List.sum_cons, List.length_cons, Nat.cast_succ]
    rcases eq_or_ne as [] with rfl | hne'
    · simpa using ha
    · have hrest := ih (fun b hb ↦ h b (by simp [hb])) hne'
      linarith

theorem sum_floor_add_sum_fract (as : List α) (f : α → ℚ) :
    (((as.map (⌊f ·⌋)).sum : ℤ) : ℚ) + (as.map (Int.fract ∘ f)).sum = (as.map f).sum := by
  induction as with
  | nil => simp
  | cons a as ih =>
    have ha := Int.floor_add_fract (f a)
    simp only [List.map_cons, List.sum_cons, Int.cast_add, Function.comp_apply] at ih ⊢
    linarith

theorem sum_map_ite_mem [DecidableEq α] {as bs : List α} (has : as.Nodup) (hbs : bs.Nodup)
    (hsub : bs ⊆ as) : (as.map (fun a ↦ if a ∈ bs then (1 : ℤ) else 0)).sum = bs.length := by
  have hcount : (as.map (fun a ↦ if a ∈ bs then (1 : ℤ) else 0)).sum =
      (as.filter (· ∈ bs)).length := by
    clear has hsub
    induction as with
    | nil => rfl
    | cons a as ih =>
      by_cases ha : a ∈ bs
      · simp [ha, ih]
        omega
      · simp [ha, ih]
  rw [hcount]
  have hperm : (as.filter (· ∈ bs)).Perm bs := by
    apply (List.perm_ext_iff_of_nodup (has.filter _) hbs).2
    intro a
    rw [List.mem_filter, decide_eq_true_eq]
    exact ⟨And.right, fun h ↦ ⟨hsub h, h⟩⟩
  rw [hperm.length_eq]

end Sums

section Laws

variable {quota : α → ℚ} {tie : α → α → Prop} {as bs : List α} {seats : ℤ} {a b : α}

instance [Std.Total tie] : Std.Total (Ahead quota tie) where
  total a b := by
    unfold Ahead
    rcases lt_trichotomy (Int.fract (quota a)) (Int.fract (quota b)) with h | h | h
    · exact .inr (.inl h)
    · rcases Std.Total.total (r := tie) a b with ht | ht
      · exact .inl (.inr ⟨h, ht⟩)
      · exact .inr (.inr ⟨h.symm, ht⟩)
    · exact .inl (.inl h)

instance [IsTrans α tie] : IsTrans α (Ahead quota tie) where
  trans a b c := by
    rintro (hab | ⟨hab, tab⟩) (hbc | ⟨hbc, tbc⟩)
    · exact .inl (hbc.trans hab)
    · exact .inl (hbc ▸ hab)
    · exact .inl (hab ▸ hbc)
    · exact .inr ⟨hab.trans hbc, IsTrans.trans _ _ _ tab tbc⟩

theorem Ahead.fract_le (h : Ahead quota tie a b) :
    Int.fract (quota b) ≤ Int.fract (quota a) := by
  rcases h with h | ⟨h, -⟩
  · exact h.le
  · exact h.ge

theorem Ahead.tie_both (hab : Ahead quota tie a b) (hba : Ahead quota tie b a) :
    tie a b ∧ tie b a := by
  have hle := hab.fract_le
  have hge := hba.fract_le
  rcases hab with hab | ⟨-, tab⟩
  · exact absurd hab hge.not_gt
  · rcases hba with hba | ⟨-, tba⟩
    · exact absurd hba hle.not_gt
    · exact ⟨tab, tba⟩

theorem sum_fract (hsum : (as.map quota).sum = seats) :
    (as.map (Int.fract ∘ quota)).sum = leftover quota as seats := by
  have hsplit := sum_floor_add_sum_fract as quota
  have hnonneg : 0 ≤ (as.map (Int.fract ∘ quota)).sum := by
    apply List.sum_nonneg
    intro x hx
    obtain ⟨a, -, rfl⟩ := List.mem_map.1 hx
    exact Int.fract_nonneg _
  have hle : (as.map (⌊quota ·⌋)).sum ≤ seats := by
    have : (((as.map (⌊quota ·⌋)).sum : ℤ) : ℚ) ≤ seats := by linarith
    exact_mod_cast this
  have hcast : ((leftover quota as seats : ℕ) : ℤ) = seats - (as.map (⌊quota ·⌋)).sum := by
    rw [leftover, Int.toNat_of_nonneg (by omega)]
  have hcast' : ((leftover quota as seats : ℕ) : ℚ) =
      seats - ((as.map (⌊quota ·⌋)).sum : ℤ) := by
    exact_mod_cast congrArg (Int.cast (R := ℚ)) hcast
  linarith

theorem leftover_le (hsum : (as.map quota).sum = seats) :
    leftover quota as seats ≤ as.length := by
  have hfract := sum_fract hsum
  rcases eq_or_ne as [] with rfl | hne
  · rw [List.map_nil, List.sum_nil] at hfract
    exact (Nat.cast_eq_zero.1 hfract.symm).le
  · have hlt := sum_lt_length (f := Int.fract ∘ quota) (fun a _ ↦ Int.fract_lt_one _) hne
    rw [hfract] at hlt
    exact (Nat.cast_lt.1 hlt).le

variable [DecidableRel tie]

theorem favoured_subset : favoured quota tie as seats ⊆ as := fun _ ha ↦
  (List.mem_insertionSort _).1 (List.mem_of_mem_take ha)

theorem length_favoured (hsum : (as.map quota).sum = seats) :
    (favoured quota tie as seats).length = leftover quota as seats := by
  rw [favoured, List.length_take, List.length_insertionSort]
  exact Nat.min_eq_left (leftover_le hsum)

theorem nodup_favoured (h : as.Nodup) : (favoured quota tie as seats).Nodup :=
  ((List.perm_insertionSort _ as).nodup_iff.2 h).sublist (List.take_sublist _ _)

theorem sum_share [DecidableEq α] (h : as.Nodup) (hsum : (as.map quota).sum = seats) :
    (as.map (share quota tie as seats)).sum = seats := by
  have hsplit : (as.map (share quota tie as seats)).sum = (as.map (⌊quota ·⌋)).sum +
      (as.map (fun a ↦ if a ∈ favoured quota tie as seats then (1 : ℤ) else 0)).sum := by
    rw [← List.sum_map_add]
    rfl
  rw [hsplit, sum_map_ite_mem h (nodup_favoured h) favoured_subset, length_favoured hsum]
  have hfract := sum_fract hsum
  have hall := sum_floor_add_sum_fract as quota
  rw [hfract, hsum] at hall
  exact_mod_cast hall

theorem floor_le_share [DecidableEq α] : ⌊quota a⌋ ≤ share quota tie as seats a := by
  unfold share
  split_ifs <;> omega

variable [Std.Total tie] [IsTrans α tie]

theorem ahead_of_favoured (ha : a ∈ favoured quota tie as seats) (hb : b ∈ as)
    (hnot : b ∉ favoured quota tie as seats) : Ahead quota tie a b := by
  have hsorted := List.pairwise_insertionSort (Ahead quota tie) as
  rw [← List.take_append_drop (leftover quota as seats) (as.insertionSort (Ahead quota tie)),
    List.pairwise_append] at hsorted
  apply hsorted.2.2 a ha
  have hmem := (List.mem_insertionSort (Ahead quota tie)).2 hb
  rw [← List.take_append_drop (leftover quota as seats) (as.insertionSort (Ahead quota tie)),
    List.mem_append] at hmem
  exact hmem.resolve_left hnot

theorem fract_pos_of_favoured (hsum : (as.map quota).sum = seats)
    (ha : a ∈ favoured quota tie as seats) : 0 < Int.fract (quota a) := by
  rw [(Int.fract_nonneg (quota a)).lt_iff_ne]
  intro hzero
  -- then all that is not favoured is whole, and the favoured remainders alone add up to the rest
  set n := leftover quota as seats with hn
  set sorted := as.insertionSort (Ahead quota tie) with hsortedDef
  have hdrop : ((sorted.drop n).map (Int.fract ∘ quota)).sum = 0 := by
    apply List.sum_eq_zero
    intro x hx
    obtain ⟨b, hb, rfl⟩ := List.mem_map.1 hx
    have hsorted : sorted.Pairwise (Ahead quota tie) := List.pairwise_insertionSort _ as
    rw [← List.take_append_drop n sorted, List.pairwise_append] at hsorted
    have hle := (hsorted.2.2 a ha b hb).fract_le
    rw [← hzero] at hle
    exact le_antisymm hle (Int.fract_nonneg _)
  have hall : (sorted.map (Int.fract ∘ quota)).sum = n := by
    rw [((List.perm_insertionSort (Ahead quota tie) as).map _).sum_eq, sum_fract hsum]
  rw [← List.take_append_drop n sorted, List.map_append, List.sum_append, hdrop, add_zero] at hall
  have hlt : ((sorted.take n).map (Int.fract ∘ quota)).sum < (sorted.take n).length :=
    sum_lt_length (fun b _ ↦ Int.fract_lt_one _) (List.ne_nil_of_mem ha)
  rw [hall] at hlt
  have hle := List.length_take_le n sorted
  have := Nat.cast_lt.1 hlt
  omega

variable [DecidableEq α]

theorem share_le_ceil (hsum : (as.map quota).sum = seats) :
    share quota tie as seats a ≤ ⌈quota a⌉ := by
  unfold share
  split_ifs with ha
  · have hpos := fract_pos_of_favoured hsum ha
    have hlt : (⌊quota a⌋ : ℚ) < quota a := by
      have := Int.floor_add_fract (quota a)
      linarith
    exact Int.lt_ceil.2 hlt
  · rw [add_zero]
    exact Int.floor_le_ceil _

theorem share_eq_of_whole (hsum : (as.map quota).sum = seats) {n : ℤ} (ha : quota a = n) :
    share quota tie as seats a = n := by
  have hlow : ⌊quota a⌋ ≤ share quota tie as seats a := floor_le_share
  have hhigh : share quota tie as seats a ≤ ⌈quota a⌉ := share_le_ceil hsum
  rw [ha, Int.floor_intCast] at hlow
  rw [ha, Int.ceil_intCast] at hhigh
  omega

theorem share_mono (hb : b ∈ as) (h : quota a ≤ quota b)
    (hne : quota a ≠ quota b) : share quota tie as seats a ≤ share quota tie as seats b := by
  have hfloor := Int.floor_mono h
  rcases hfloor.lt_or_eq with hlt | heq
  · have hlow : ⌊quota b⌋ ≤ share quota tie as seats b := floor_le_share
    have : share quota tie as seats a ≤ ⌊quota a⌋ + 1 := by
      unfold share
      split_ifs <;> omega
    omega
  · have hfract : Int.fract (quota a) < Int.fract (quota b) := by
      have ha := Int.floor_add_fract (quota a)
      have hb := Int.floor_add_fract (quota b)
      have hlt := h.lt_of_ne hne
      rw [heq] at ha
      linarith
    unfold share
    rw [heq]
    by_cases hfav : a ∈ favoured quota tie as seats
    · have hfav' : b ∈ favoured quota tie as seats := by
        by_contra hnot
        exact absurd (ahead_of_favoured hfav hb hnot).fract_le (not_le.2 hfract)
      rw [if_pos hfav, if_pos hfav']
    · rw [if_neg hfav]
      split_ifs <;> omega

theorem share_perm (hperm : as.Perm bs)
    (hanti : ∀ a ∈ as, ∀ b ∈ as, tie a b → tie b a → a = b) :
    share quota tie as seats = share quota tie bs seats := by
  have hsorted : as.insertionSort (Ahead quota tie) = bs.insertionSort (Ahead quota tie) := by
    apply List.Perm.eq_of_pairwise _
      (List.pairwise_insertionSort _ as) (List.pairwise_insertionSort _ bs)
      ((List.perm_insertionSort _ as).trans (hperm.trans (List.perm_insertionSort _ bs).symm))
    intro a b ha hb hab hba
    obtain ⟨tab, tba⟩ := hab.tie_both hba
    refine hanti a ((List.mem_insertionSort _).1 ha) b ?_ tab tba
    exact hperm.mem_iff.2 ((List.mem_insertionSort _).1 hb)
  have hleft : leftover quota as seats = leftover quota bs seats := by
    rw [leftover, leftover, (hperm.map _).sum_eq]
  have hfavoured : favoured quota tie as seats = favoured quota tie bs seats := by
    rw [favoured, favoured, hsorted, hleft]
  funext a
  unfold share
  rw [hfavoured]

end Laws

end TokenHub.Lib.Apportionment
