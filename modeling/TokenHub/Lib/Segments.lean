import Mathlib.Data.Int.ConditionallyCompleteOrder
import Mathlib.Data.Int.Interval
import Mathlib.Order.CompletePartialOrder
import Mathlib.Order.Interval.Set.Disjoint

set_option autoImplicit false

namespace TokenHub.Lib.Segments

section Order

variable {α : Type} [LinearOrder α] {t : α} {p s : α × α} {segments taken : List (α × α)}

def span (s : α × α) : Set α := Set.Ico s.1 s.2

@[simp] theorem mem_span : t ∈ span s ↔ s.1 ≤ t ∧ t < s.2 := Iff.rfl

def cover (segments : List (α × α)) : Set α := {t | ∃ s ∈ segments, t ∈ span s}

theorem mem_cover : t ∈ cover segments ↔ ∃ s ∈ segments, t ∈ span s := Iff.rfl

@[simp] theorem cover_nil : cover ([] : List (α × α)) = ∅ := by simp [cover]

@[simp] theorem cover_append (a b : List (α × α)) : cover (a ++ b) = cover a ∪ cover b := by
  ext t
  simp only [mem_cover, List.mem_append, Set.mem_union, or_and_right, exists_or]

theorem cover_cons (s : α × α) (segments : List (α × α)) :
    cover (s :: segments) = span s ∪ cover segments := by
  ext t
  simp [mem_cover]

theorem mem_cover_flatMap {f : α × α → List (α × α)} :
    t ∈ cover (segments.flatMap f) ↔ ∃ s ∈ segments, t ∈ cover (f s) := by
  simp only [mem_cover, List.mem_flatMap]
  constructor
  · rintro ⟨u, ⟨s, hs, hu⟩, ht⟩
    exact ⟨s, hs, u, hu, ht⟩
  · rintro ⟨s, hs, u, hu, ht⟩
    exact ⟨u, ⟨s, hs, hu⟩, ht⟩

theorem disjoint_cover {a b : List (α × α)} :
    Disjoint (cover a) (cover b) ↔ ∀ s ∈ a, ∀ u ∈ b, Disjoint (span s) (span u) := by
  constructor
  · intro h s hs u hu
    refine Disjoint.mono ?_ ?_ h
    · exact fun t ht ↦ ⟨s, hs, ht⟩
    · exact fun t ht ↦ ⟨u, hu, ht⟩
  · intro h
    refine Set.disjoint_left.2 fun t ht ht' ↦ ?_
    obtain ⟨s, hs, hts⟩ := ht
    obtain ⟨u, hu, htu⟩ := ht'
    exact Set.disjoint_left.1 (h s hs u hu) hts htu

def cut (p s : α × α) : List (α × α) :=
  if p.2 ≤ s.1 ∨ s.2 ≤ p.1 then [s]
  else (if s.1 < p.1 then [(s.1, p.1)] else []) ++ (if p.2 < s.2 then [(p.2, s.2)] else [])

theorem cover_cut : cover (cut p s) = span s \ span p := by
  ext t
  unfold cut
  split_ifs with hout hleft hright hright <;>
    simp only [cover_cons, cover_nil, cover_append, Set.union_empty, Set.empty_union,
      Set.mem_union, Set.mem_sdiff, mem_span, Set.mem_empty_iff_false, false_iff, not_and, not_lt]
  · constructor
    · rintro ⟨hfrom, hto⟩
      refine ⟨⟨hfrom, hto⟩, fun hpt ↦ ?_⟩
      rcases hout with hout | hout
      · exact hout.trans hfrom
      · exact absurd hpt (not_le.2 (hto.trans_le hout))
    · exact fun h ↦ h.1
  all_goals obtain ⟨hstart, hstop⟩ := not_or.1 hout
  · constructor
    · rintro (⟨hfrom, hto⟩ | ⟨hfrom, hto⟩)
      · exact ⟨⟨hfrom, hto.trans (not_le.1 hstop)⟩, fun hpt ↦ absurd hpt (not_le.2 hto)⟩
      · exact ⟨⟨(not_le.1 hstart).le.trans hfrom, hto⟩, fun _ ↦ hfrom⟩
    · rintro ⟨⟨hfrom, hto⟩, hpt⟩
      rcases lt_or_ge t p.1 with hlt | hge
      · exact .inl ⟨hfrom, hlt⟩
      · exact .inr ⟨hpt hge, hto⟩
  · constructor
    · rintro ⟨hfrom, hto⟩
      exact ⟨⟨hfrom, hto.trans (not_le.1 hstop)⟩, fun hpt ↦ absurd hpt (not_le.2 hto)⟩
    · rintro ⟨⟨hfrom, hto⟩, hpt⟩
      refine ⟨hfrom, not_le.1 fun hge ↦ ?_⟩
      exact hright ((hpt hge).trans_lt hto)
  · constructor
    · rintro ⟨hfrom, hto⟩
      exact ⟨⟨(not_le.1 hstart).le.trans hfrom, hto⟩, fun _ ↦ hfrom⟩
    · rintro ⟨⟨hfrom, hto⟩, hpt⟩
      exact ⟨hpt ((not_lt.1 hleft).trans hfrom), hto⟩
  · rintro ⟨hfrom, hto⟩ hpt
    have hge := hpt ((not_lt.1 hleft).trans hfrom)
    exact absurd hto (not_lt.2 ((not_lt.1 hright).trans hge))

def without (segments : List (α × α)) : List (α × α) → List (α × α)
  | [] => segments
  | p :: taken => without (segments.flatMap (cut p)) taken

theorem cover_without : cover (without segments taken) = cover segments \ cover taken := by
  induction taken generalizing segments with
  | nil => simp [without]
  | cons p taken ih =>
    rw [without, ih, cover_cons, ← Set.sdiff_sdiff]
    congr 1
    ext t
    rw [mem_cover_flatMap]
    constructor
    · rintro ⟨s, hs, ht⟩
      rw [cover_cut] at ht
      exact ⟨⟨s, hs, ht.1⟩, ht.2⟩
    · rintro ⟨⟨s, hs, ht⟩, hp⟩
      refine ⟨s, hs, ?_⟩
      rw [cover_cut]
      exact ⟨ht, hp⟩

end Order

section Length

def total (segments : List (ℤ × ℤ)) : ℤ := (segments.map fun s ↦ s.2 - s.1).sum

/-- Segments apart from each other within one take no longer than it. -/
theorem total_le {segments : List (ℤ × ℤ)} {a b : ℤ}
    (hproper : ∀ s ∈ segments, s.1 ≤ s.2) (hwithin : ∀ s ∈ segments, a ≤ s.1 ∧ s.2 ≤ b)
    (hapart : segments.Pairwise fun s u ↦ Disjoint (span s) (span u)) (hab : a ≤ b) :
    total segments ≤ b - a := by
  have hcard : ∀ l : List (ℤ × ℤ), (∀ s ∈ l, s.1 ≤ s.2) →
      l.Pairwise (fun s u ↦ Disjoint (span s) (span u)) → ∃ points : Finset ℤ,
        (∀ t, t ∈ points ↔ t ∈ cover l) ∧ (points.card : ℤ) = total l := by
    intro l
    induction l with
    | nil => exact fun _ _ ↦ ⟨∅, by simp, by simp [total]⟩
    | cons s l ih =>
      intro hl hp
      obtain ⟨hs, hp⟩ := List.pairwise_cons.1 hp
      obtain ⟨points, hmem, hcount⟩ := ih (fun u hu ↦ hl u (List.mem_cons_of_mem s hu)) hp
      have hdisjoint : Disjoint (Finset.Ico s.1 s.2) points := by
        rw [Finset.disjoint_left]
        intro t ht ht'
        obtain ⟨u, hu, htu⟩ := (hmem t).1 ht'
        exact Set.disjoint_left.1 (hs u hu) (Finset.mem_Ico.1 ht) htu
      refine ⟨Finset.Ico s.1 s.2 ∪ points, fun t ↦ ?_, ?_⟩
      · rw [Finset.mem_union, hmem, cover_cons, Set.mem_union, Finset.mem_Ico]
        rfl
      · rw [Finset.card_union_of_disjoint hdisjoint, Int.card_Ico, Nat.cast_add, hcount,
          Int.toNat_of_nonneg (sub_nonneg.2 (hl s List.mem_cons_self)), total, total,
          List.map_cons, List.sum_cons]
  obtain ⟨points, hmem, hcount⟩ := hcard segments hproper hapart
  have hsubset : points ⊆ Finset.Ico a b := by
    intro t ht
    obtain ⟨s, hs, hfrom, hto⟩ := (hmem t).1 ht
    obtain ⟨ha, hb⟩ := hwithin s hs
    exact Finset.mem_Ico.2 ⟨ha.trans hfrom, hto.trans_le hb⟩
  have hle := Finset.card_le_card hsubset
  rw [Int.card_Ico] at hle
  rw [← hcount, ← Int.toNat_of_nonneg (sub_nonneg.2 hab)]
  exact_mod_cast hle

end Length

end TokenHub.Lib.Segments
