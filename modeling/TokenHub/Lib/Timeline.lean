import Mathlib.Data.List.Induction
import Mathlib.Order.Lattice
import Mathlib.Tactic.Common

set_option autoImplicit false

namespace TokenHub.Lib.Timeline

variable {α κ τ : Type} [LinearOrder κ] [LinearOrder τ] (rank : α → κ) (start : α → τ)

section InForce

def higher (best : Option α) (v : α) : Option α :=
  match best with
  | none => some v
  | some b => if rank b ≤ rank v then some v else some b

/-- The version in force at an instant: the highest ranked of those that have started. -/
def inForce (t : τ) (vs : List α) : Option α :=
  (vs.filter (start · ≤ t)).foldl (higher rank) none

variable {rank start} {t : τ} {vs : List α} {v : α}

@[simp] theorem inForce_nil : inForce rank start t [] = none := rfl

theorem inForce_snoc : inForce rank start t (vs ++ [v]) =
    if start v ≤ t then higher rank (inForce rank start t vs) v else inForce rank start t vs := by
  unfold inForce
  rw [List.filter_append, List.foldl_append]
  by_cases hv : start v ≤ t
  · simp [hv]
  · simp [hv]

theorem higher_cases (rank : α → κ) (best : Option α) (v : α) :
    (higher rank best v = some v ∧ ∀ b ∈ best, rank b ≤ rank v) ∨
      ∃ b, best = some b ∧ higher rank best v = some b ∧ rank v ≤ rank b := by
  cases best with
  | none => exact .inl ⟨rfl, by simp⟩
  | some b =>
    by_cases hle : rank b ≤ rank v
    · exact .inl ⟨by simp [higher, hle], by simpa using hle⟩
    · exact .inr ⟨b, rfl, by simp [higher, hle], (not_le.1 hle).le⟩

theorem inForce_eq_none_iff : inForce rank start t vs = none ↔ ∀ v ∈ vs, ¬ start v ≤ t := by
  induction vs using List.reverseRecOn with
  | nil => simp
  | append_singleton vs w ih =>
    rw [inForce_snoc]
    by_cases hw : start w ≤ t
    · rw [if_pos hw]
      constructor
      · intro hnone
        rcases higher_cases rank (inForce rank start t vs) w with ⟨hs, -⟩ | ⟨b, -, hs, -⟩
        · rw [hs] at hnone
          cases hnone
        · rw [hs] at hnone
          cases hnone
      · intro hall
        exact absurd hw (hall w (by simp))
    · rw [if_neg hw, ih]
      simp [or_imp, forall_and, not_le.1 hw]

theorem inForce_spec (h : inForce rank start t vs = some v) :
    v ∈ vs ∧ start v ≤ t ∧ ∀ u ∈ vs, start u ≤ t → rank u ≤ rank v := by
  induction vs using List.reverseRecOn generalizing v with
  | nil => cases h
  | append_singleton vs w ih =>
    rw [inForce_snoc] at h
    by_cases hw : start w ≤ t
    · rw [if_pos hw] at h
      rcases higher_cases rank (inForce rank start t vs) w with
        ⟨hs, hbest⟩ | ⟨b, hb, hs, hle⟩
      · obtain rfl := Option.some.inj (hs.symm.trans h)
        refine ⟨by simp, hw, fun u hu hut ↦ ?_⟩
        rcases List.mem_append.1 hu with hu | hu
        · cases hold : inForce rank start t vs with
          | none => exact absurd hut (inForce_eq_none_iff.1 hold u hu)
          | some b => exact ((ih hold).2.2 u hu hut).trans (hbest b hold)
        · rw [List.mem_singleton.1 hu]
      · obtain rfl := Option.some.inj (hs.symm.trans h)
        obtain ⟨hmem, ht, hmax⟩ := ih hb
        refine ⟨List.mem_append_left _ hmem, ht, fun u hu hut ↦ ?_⟩
        rcases List.mem_append.1 hu with hu | hu
        · exact hmax u hu hut
        · rw [List.mem_singleton.1 hu]
          exact hle
    · rw [if_neg hw] at h
      obtain ⟨hmem, ht, hmax⟩ := ih h
      refine ⟨List.mem_append_left _ hmem, ht, fun u hu hut ↦ ?_⟩
      rcases List.mem_append.1 hu with hu | hu
      · exact hmax u hu hut
      · rw [List.mem_singleton.1 hu] at hut
        exact absurd hut hw

/-- Where ranks tell versions apart, the version in force is the one that outranks the others. -/
theorem inForce_eq_some_iff (hinj : ∀ u ∈ vs, ∀ w ∈ vs, rank u = rank w → u = w) :
    inForce rank start t vs = some v ↔
      v ∈ vs ∧ start v ≤ t ∧ ∀ u ∈ vs, start u ≤ t → rank u ≤ rank v := by
  refine ⟨inForce_spec, fun ⟨hmem, ht, hmax⟩ ↦ ?_⟩
  cases hforce : inForce rank start t vs with
  | none => exact absurd ht (inForce_eq_none_iff.1 hforce v hmem)
  | some w =>
    obtain ⟨hwmem, hwt, hwmax⟩ := inForce_spec hforce
    rw [hinj w hwmem v hmem (le_antisymm (hmax w hwmem hwt) (hwmax v hmem ht))]

end InForce

section Standing

/-- A version has started and no earlier recorded one that has outranks it. -/
def Stands (t : τ) (earlier : List α) (v : α) : Prop :=
  start v ≤ t ∧ ∀ u ∈ earlier, start u ≤ t → rank u ≤ rank v

instance (t : τ) (earlier : List α) (v : α) : Decidable (Stands rank start t earlier v) := by
  unfold Stands; infer_instance

/-- Of versions listed latest first, those that stand at an instant. -/
def standing (t : τ) : List α → List α
  | [] => []
  | v :: earlier =>
    if Stands rank start t earlier v then v :: standing t earlier else standing t earlier

variable {rank start} {t : τ} {earlier : List α} {v : α}

/-- What stands below a version at an instant stood when that version started. -/
theorem Stands.standing_eq (hmono : ∀ u w, rank u ≤ rank w → start u ≤ start w)
    (h : Stands rank start t earlier v) :
    standing rank start t earlier = standing rank start (start v) earlier := by
  have hstarted : ∀ u ∈ earlier, start u ≤ t ↔ start u ≤ start v :=
    fun u hu ↦ ⟨fun hut ↦ hmono u v (h.2 u hu hut), fun huv ↦ huv.trans h.1⟩
  clear h
  induction earlier with
  | nil => rfl
  | cons w earlier ih =>
    have hrest : ∀ u ∈ earlier, start u ≤ t ↔ start u ≤ start v :=
      fun u hu ↦ hstarted u (List.mem_cons_of_mem _ hu)
    have hiff : Stands rank start t earlier w ↔ Stands rank start (start v) earlier w := by
      unfold Stands
      rw [hstarted w (List.mem_cons_self ..)]
      exact and_congr_right fun _ ↦
        forall₂_congr fun u hu ↦ imp_congr_left (hrest u hu)
    simp only [standing, hiff, ih hrest]

theorem head?_standing (vs : List α) :
    (standing rank start t vs.reverse).head? = inForce rank start t vs := by
  induction vs using List.reverseRecOn with
  | nil => rfl
  | append_singleton vs w ih =>
    rw [List.reverse_append, List.reverse_singleton, List.singleton_append, standing,
      inForce_snoc]
    by_cases hstands : Stands rank start t vs.reverse w
    · rw [if_pos hstands, if_pos hstands.1, List.head?_cons]
      rcases higher_cases rank (inForce rank start t vs) w with
        ⟨hs, -⟩ | ⟨b, hb, hs, hle⟩
      · exact hs.symm
      · obtain ⟨hmem, ht, -⟩ := inForce_spec hb
        have heq := le_antisymm hle (hstands.2 b (List.mem_reverse.2 hmem) ht)
        rw [hb, higher, if_pos heq.ge]
    · rw [if_neg hstands, ih]
      by_cases hw : start w ≤ t
      · rw [if_pos hw]
        have hnot : ∃ u ∈ vs, start u ≤ t ∧ rank w < rank u := by
          by_contra hall
          push Not at hall
          exact hstands ⟨hw, fun u hu hut ↦ hall u (List.mem_reverse.1 hu) hut⟩
        obtain ⟨u, hu, hut, hlt⟩ := hnot
        cases hforce : inForce rank start t vs with
        | none => exact absurd hut (inForce_eq_none_iff.1 hforce u hu)
        | some b =>
          have hb := (inForce_spec hforce).2.2 u hu hut
          rw [higher, if_neg (not_le.2 (hlt.trans_le hb))]
      · rw [if_neg hw]

/-- A renaming of the versions that keeps ranks and starts renames what stands. -/
theorem standing_map {γ : Type} {rank' : γ → κ} {start' : γ → τ} {g : α → γ} {vs : List α}
    (hrank : ∀ v ∈ vs, rank' (g v) = rank v) (hstart : ∀ v ∈ vs, start' (g v) = start v) :
    standing rank' start' t (vs.map g) = (standing rank start t vs).map g := by
  induction vs with
  | nil => rfl
  | cons v vs ih =>
    obtain ⟨hv, hvs⟩ := List.forall_mem_cons.1 hrank
    obtain ⟨hsv, hsvs⟩ := List.forall_mem_cons.1 hstart
    have hiff : Stands rank' start' t (vs.map g) (g v) ↔ Stands rank start t vs v := by
      unfold Stands
      rw [hsv, hv, List.forall_mem_map]
      refine and_congr_right fun _ ↦ forall₂_congr fun u hu ↦ ?_
      rw [hsvs u hu, hvs u hu]
    rw [List.map_cons, standing, standing, ih hvs hsvs]
    by_cases hstands : Stands rank start t vs v
    · rw [if_pos hstands, if_pos (hiff.2 hstands), List.map_cons]
    · rw [if_neg hstands, if_neg (fun h ↦ hstands (hiff.1 h))]

end Standing

section Snapshots

variable {φ β : Type} (names : α → φ → Option β) (value : α → φ → β)

/-- Versions, latest first, that hold what they name and for the rest what the version in force at
their start held when they were recorded. -/
def Snapshots : List α → Prop
  | [] => True
  | v :: earlier => Snapshots earlier ∧ ∀ f, names v f = some (value v f) ∨
      (names v f = none ∧ ∃ p ∈ (standing rank start (start v) earlier).head?, value v f = value p f)

variable {rank start names value} {t : τ} {v : α}

/-- The version in force holds what the latest standing version that names it gave it. -/
theorem Snapshots.value_eq (hmono : ∀ u w, rank u ≤ rank w → start u ≤ start w) {vs : List α}
    (h : Snapshots rank start names value vs)
    (hv : (standing rank start t vs).head? = some v) (f : φ) :
    (standing rank start t vs).findSome? (names · f) = some (value v f) := by
  induction vs generalizing t v with
  | nil => cases hv
  | cons w earlier ih =>
    obtain ⟨hearlier, hw⟩ := h
    rw [standing] at hv ⊢
    by_cases hstands : Stands rank start t earlier w
    · rw [if_pos hstands] at hv ⊢
      rw [List.head?_cons, Option.some.injEq] at hv
      subst hv
      rw [List.findSome?_cons]
      rcases hw f with hnamed | ⟨hnone, p, hp, hvalue⟩
      · rw [hnamed]
      · rw [hnone, hstands.standing_eq hmono, hvalue]
        exact ih hearlier hp
    · rw [if_neg hstands] at hv ⊢
      exact ih hearlier hv

end Snapshots

end TokenHub.Lib.Timeline
