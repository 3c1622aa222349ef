import Mathlib.Data.List.Nodup
import TokenHub.Economy.Enablement

set_option autoImplicit false

namespace TokenHub.Economy

open Ledger Lib.Checks Lib.Runs Lib.Timeline

variable {S S' A B : EconomyState} {classId feature : String} {now t : Instant}
  {r : ClassFeature} {q : FeatureRequest}

section Rows

def ClassFeature.key (r : ClassFeature) : String × String × Instant :=
  (r.classId, r.feature, r.effectiveAt)

/-- No two rows of `class_features` have one key. -/
def Keyed (S : EconomyState) : Prop := (S.features.map ClassFeature.key).Nodup

theorem Keyed.eq_of_key (h : Keyed S) {u v : ClassFeature} (hu : u ∈ S.features)
    (hv : v ∈ S.features) (hkey : u.key = v.key) : u = v :=
  List.inj_on_of_nodup_map h hu hv hkey

theorem featureRowAt_eq_none_iff :
    featureRowAt S classId t feature = none ↔ ∀ u ∈ S.features, u.key ≠ (classId, feature, t) := by
  simp [featureRowAt, ClassFeature.key]

theorem featureRowAt_eq_some (h : featureRowAt S classId t feature = some r) :
    r ∈ S.features ∧ r.key = (classId, feature, t) := by
  refine ⟨List.mem_of_find?_eq_some h, ?_⟩
  have hkey := List.find?_some h
  simp only [decide_eq_true_eq] at hkey
  rw [ClassFeature.key, hkey.1, hkey.2.1, hkey.2.2]

/-- A row is the latest of its feature that has taken effect by an instant. -/
structure Governs (S : EconomyState) (r : ClassFeature) (t : Instant) : Prop where
  mem : r ∈ S.features
  started : r.effectiveAt ≤ t
  latest : ∀ u ∈ S.features, u.classId = r.classId → u.feature = r.feature →
    u.effectiveAt ≤ t → u.effectiveAt ≤ r.effectiveAt

theorem Keyed.governs_unique (h : Keyed S) {u v : ClassFeature} (hu : Governs S u t)
    (hv : Governs S v t) (hclass : u.classId = v.classId) (hfeature : u.feature = v.feature) :
    u = v := by
  apply h.eq_of_key hu.mem hv.mem
  rw [ClassFeature.key, ClassFeature.key, hclass, hfeature,
    le_antisymm (hv.latest u hu.mem hclass hfeature hu.started)
      (hu.latest v hv.mem hclass.symm hfeature.symm hv.started)]

theorem Keyed.latestFeature_eq_some_iff (h : Keyed S) : latestFeature S classId t feature = some r ↔
    Governs S r t ∧ r.classId = classId ∧ r.feature = feature := by
  rw [latestFeature, inForce_eq_some_iff]
  · simp only [List.mem_filter, decide_eq_true_eq]
    constructor
    · rintro ⟨⟨hmem, rfl, rfl⟩, ht, hmax⟩
      exact ⟨⟨hmem, ht, fun u hu hclass hfeature hut ↦ hmax u ⟨hu, hclass, hfeature⟩ hut⟩, rfl, rfl⟩
    · rintro ⟨⟨hmem, ht, hmax⟩, rfl, rfl⟩
      exact ⟨⟨hmem, rfl, rfl⟩, ht, fun u hu hut ↦ hmax u hu.1 hu.2.1 hu.2.2 hut⟩
  · intro u hu w hw heq
    simp only [List.mem_filter, decide_eq_true_eq] at hu hw
    apply h.eq_of_key hu.1 hw.1
    rw [ClassFeature.key, ClassFeature.key, hu.2.1, hu.2.2, hw.2.1, hw.2.2, heq]

theorem exists_governs (hr : r ∈ S.features) (ht : r.effectiveAt ≤ t) :
    ∃ g, Governs S g t ∧ g.classId = r.classId ∧ g.feature = r.feature := by
  cases hlatest : latestFeature S r.classId t r.feature with
  | none =>
    refine absurd ht (inForce_eq_none_iff.1 hlatest r ?_)
    simp [hr]
  | some g =>
    obtain ⟨hmem, hgt, hmax⟩ := inForce_spec hlatest
    simp only [List.mem_filter, decide_eq_true_eq] at hmem hmax
    refine ⟨g, ⟨hmem.1, hgt, fun u hu hclass hfeature hut ↦ ?_⟩, hmem.2⟩
    exact hmax u ⟨hu, hclass.trans hmem.2.1, hfeature.trans hmem.2.2⟩ hut

theorem Keyed.isFeatureEnabled_iff (h : Keyed S) : isFeatureEnabled S classId t feature = true ↔
    ∃ g, Governs S g t ∧ g.classId = classId ∧ g.feature = feature ∧
      g.economicVersionId.isSome = true := by
  rw [isFeatureEnabled, getClassFeature, Option.isSome_iff_exists]
  constructor
  · rintro ⟨g, hg⟩
    obtain ⟨hlatest, hsome⟩ := Option.filter_eq_some_iff.1 hg
    obtain ⟨hgoverns, hclass, hfeature⟩ := h.latestFeature_eq_some_iff.1 hlatest
    exact ⟨g, hgoverns, hclass, hfeature, hsome⟩
  · rintro ⟨g, hgoverns, hclass, hfeature, hsome⟩
    exact ⟨g, Option.filter_eq_some_iff.2
      ⟨h.latestFeature_eq_some_iff.2 ⟨hgoverns, hclass, hfeature⟩, hsome⟩⟩

def EconomyState.withRow (S : EconomyState) (r : ClassFeature) : EconomyState :=
  { S with features := S.features ++ [r] }

@[simp] theorem mem_withRow {u : ClassFeature} :
    u ∈ (S.withRow r).features ↔ u ∈ S.features ∨ u = r := by
  simp [EconomyState.withRow]

theorem Keyed.withRow (h : Keyed S)
    (hnone : featureRowAt S r.classId r.effectiveAt r.feature = none) : Keyed (S.withRow r) := by
  rw [Keyed, EconomyState.withRow, List.map_append, List.nodup_append]
  refine ⟨h, List.nodup_singleton _, fun k hk k' hk' ↦ ?_⟩
  obtain ⟨u, hu, rfl⟩ := List.mem_map.1 hk
  rw [List.map_singleton, List.mem_singleton] at hk'
  rw [hk']
  exact featureRowAt_eq_none_iff.1 hnone u hu

theorem isFeatureEnabled_withRow (h : Keyed S) (h' : Keyed (S.withRow r))
    (henabled : isFeatureEnabled S classId t feature = true)
    (hr : r.classId = classId → r.feature = feature → r.effectiveAt ≤ t →
      r.economicVersionId.isSome = true ∨ ∃ u ∈ S.features, u.classId = classId ∧
        u.feature = feature ∧ r.effectiveAt < u.effectiveAt ∧ u.effectiveAt ≤ t) :
    isFeatureEnabled (S.withRow r) classId t feature = true := by
  obtain ⟨g, hg, rfl, rfl, hsome⟩ := h.isFeatureEnabled_iff.1 henabled
  rw [h'.isFeatureEnabled_iff]
  by_cases hover : r.classId = g.classId ∧ r.feature = g.feature ∧ r.effectiveAt ≤ t ∧
      g.effectiveAt < r.effectiveAt
  · obtain ⟨hclass, hfeature, ht, hlater⟩ := hover
    refine ⟨r, ⟨mem_withRow.2 (.inr rfl), ht, fun u hu huclass hufeature hut ↦ ?_⟩, hclass,
      hfeature, ?_⟩
    · rcases mem_withRow.1 hu with hu | rfl
      · exact (hg.latest u hu (huclass.trans hclass) (hufeature.trans hfeature) hut).trans hlater.le
      · exact le_rfl
    · rcases hr hclass hfeature ht with hsome' | ⟨u, hu, huclass, hufeature, hlt, hut⟩
      · exact hsome'
      · have hle := hg.latest u hu huclass hufeature hut
        exact absurd (hlater.trans hlt) (not_lt.2 hle)
  · refine ⟨g, ⟨mem_withRow.2 (.inl hg.mem), hg.started, fun u hu huclass hufeature hut ↦ ?_⟩,
      rfl, rfl, hsome⟩
    rcases mem_withRow.1 hu with hu | rfl
    · exact hg.latest u hu huclass hufeature hut
    · by_contra hlt
      exact hover ⟨huclass, hufeature, hut, not_le.1 hlt⟩

end Rows

section Beside

/-- Two rows of one key that both enable or both disable. -/
structure Alike (u v : ClassFeature) : Prop where
  key : u.key = v.key
  version : u.economicVersionId.isSome = v.economicVersionId.isSome
  deleted : u.deletedAt.isSome = v.deletedAt.isSome

theorem Alike.refl (u : ClassFeature) : Alike u u := ⟨rfl, rfl, rfl⟩

/-- A row of the first state whose key the second does not have. -/
def Extra (A B : EconomyState) (l : ClassFeature) : Prop :=
  l ∈ A.features ∧ ∀ u ∈ B.features, u.key ≠ l.key

/-- A history's state beside the one without its evolutions: the rows that it has besides enable
a feature where it is enabled anyway. -/
structure Shadows (A B : EconomyState) : Prop where
  classes : A.classes = B.classes
  seats : A.seatClass = B.seatClass
  engines : ∀ e ∈ B.engines, e ∈ A.engines
  keyed : Keyed A
  keyed' : Keyed B
  copied : ∀ u ∈ B.features, ∃ u' ∈ A.features, Alike u' u
  extra : ∀ l, Extra A B l → l.economicVersionId.isSome = true ∧ l.deletedAt = none ∧
    isFeatureEnabled B l.classId l.effectiveAt l.feature = true

theorem Shadows.refl (h : Keyed S) : Shadows S S where
  classes := rfl
  seats := rfl
  engines := fun _ he ↦ he
  keyed := h
  keyed' := h
  copied := fun u hu ↦ ⟨u, hu, .refl u⟩
  extra := fun l hl ↦ absurd rfl (hl.2 l hl.1)

/-- A row of the first state either is extra or has its like in the second. -/
theorem Shadows.alike_or_extra (h : Shadows A B) (hr : r ∈ A.features) :
    (∃ u ∈ B.features, Alike r u) ∨ Extra A B r := by
  by_cases hextra : ∀ u ∈ B.features, u.key ≠ r.key
  · exact .inr ⟨hr, hextra⟩
  · push Not at hextra
    obtain ⟨u, hu, hkey⟩ := hextra
    obtain ⟨u', hu', halike⟩ := h.copied u hu
    rw [h.keyed.eq_of_key hr hu' (hkey.symm.trans halike.key.symm)]
    exact .inl ⟨u, hu, halike⟩

theorem Alike.parts {u v : ClassFeature} (h : Alike u v) :
    u.classId = v.classId ∧ u.feature = v.feature ∧ u.effectiveAt = v.effectiveAt := by
  have hkey := h.key
  simpa only [ClassFeature.key, Prod.mk.injEq] using hkey

/-- The rows that govern a feature in the two states enable it alike. -/
theorem Shadows.governs_version (h : Shadows A B) {a b : ClassFeature} (ha : Governs A a t)
    (hb : Governs B b t) (hclass : a.classId = b.classId) (hfeature : a.feature = b.feature) :
    a.economicVersionId.isSome = b.economicVersionId.isSome := by
  obtain ⟨b', hb', halike⟩ := h.copied b hb.mem
  obtain ⟨hbclass, hbfeature, hbat⟩ := halike.parts
  have hle : b.effectiveAt ≤ a.effectiveAt := by
    rw [← hbat]
    exact ha.latest b' hb' (hbclass.trans hclass.symm) (hbfeature.trans hfeature.symm)
      (hbat.le.trans hb.started)
  rcases h.alike_or_extra ha.mem with ⟨u, hu, hau⟩ | hextra
  · obtain ⟨huclass, hufeature, huat⟩ := hau.parts
    have hge := hb.latest u hu (huclass.symm.trans hclass) (hufeature.symm.trans hfeature)
      (huat.ge.trans ha.started)
    have hub : u = b := by
      apply h.keyed'.eq_of_key hu hb.mem
      rw [ClassFeature.key, ClassFeature.key, ← huclass, ← hufeature, hclass, hfeature,
        le_antisymm hge (hle.trans huat.le)]
    rw [hau.version, hub]
  · -- An extra row starts where `b` governs already, and the feature is enabled there.
    obtain ⟨hsome, -, henabled⟩ := h.extra a hextra
    obtain ⟨g, hg, hgclass, hgfeature, hgsome⟩ := h.keyed'.isFeatureEnabled_iff.1 henabled
    have hbg : Governs B b a.effectiveAt := ⟨hb.mem, hle, fun u hu huclass hufeature hut ↦
      hb.latest u hu huclass hufeature (hut.trans ha.started)⟩
    rw [hsome, ← h.keyed'.governs_unique hg hbg (hgclass.trans hclass)
      (hgfeature.trans hfeature), hgsome]

theorem Shadows.isFeatureEnabled_eq (h : Shadows A B) (classId : String) (t : Instant)
    (feature : String) :
    isFeatureEnabled A classId t feature = isFeatureEnabled B classId t feature := by
  rw [Bool.eq_iff_iff, h.keyed.isFeatureEnabled_iff, h.keyed'.isFeatureEnabled_iff]
  constructor
  · rintro ⟨a, ha, rfl, rfl, hsome⟩
    have hstarted : ∃ u ∈ B.features, u.classId = a.classId ∧ u.feature = a.feature ∧
        u.effectiveAt ≤ t := by
      rcases h.alike_or_extra ha.mem with ⟨u, hu, hau⟩ | hextra
      · obtain ⟨huclass, hufeature, huat⟩ := hau.parts
        exact ⟨u, hu, huclass.symm, hufeature.symm, huat.ge.trans ha.started⟩
      · obtain ⟨g, hg, hgclass, hgfeature, -⟩ :=
          h.keyed'.isFeatureEnabled_iff.1 (h.extra a hextra).2.2
        exact ⟨g, hg.mem, hgclass, hgfeature, hg.started.trans ha.started⟩
    obtain ⟨u, hu, huclass, hufeature, hut⟩ := hstarted
    obtain ⟨b, hb, hbclass, hbfeature⟩ := exists_governs hu hut
    rw [huclass] at hbclass
    rw [hufeature] at hbfeature
    exact ⟨b, hb, hbclass, hbfeature,
      (h.governs_version ha hb hbclass.symm hbfeature.symm).symm.trans hsome⟩
  · rintro ⟨b, hb, rfl, rfl, hsome⟩
    obtain ⟨b', hb', halike⟩ := h.copied b hb.mem
    obtain ⟨hclass, hfeature, hat⟩ := halike.parts
    obtain ⟨a, ha, haclass, hafeature⟩ := exists_governs hb' (hat.le.trans hb.started)
    rw [hclass] at haclass
    rw [hfeature] at hafeature
    exact ⟨a, ha, haclass, hafeature, (h.governs_version ha hb haclass hafeature).trans hsome⟩

theorem Shadows.getClassFeatures_eq (h : Shadows A B) (classId : String) (t : Instant) :
    getClassFeatures A classId t = getClassFeatures B classId t := by
  unfold getClassFeatures
  exact List.filter_congr fun f _ ↦ h.isFeatureEnabled_eq classId t f

theorem Shadows.featureRowAt_none (h : Shadows A B)
    (hnone : featureRowAt A classId t feature = none) : featureRowAt B classId t feature = none := by
  rw [featureRowAt_eq_none_iff] at hnone ⊢
  intro u hu
  obtain ⟨u', hu', halike⟩ := h.copied u hu
  rw [← halike.key]
  exact hnone u' hu'

theorem Shadows.insert_both (h : Shadows A B)
    (hA : featureRowAt A r.classId r.effectiveAt r.feature = none)
    (hcovered : ∀ l, Extra A B l → r.classId = l.classId → r.feature = l.feature →
      r.effectiveAt ≤ l.effectiveAt → r.economicVersionId.isSome = true ∨
        ∃ u ∈ B.features, u.classId = l.classId ∧ u.feature = l.feature ∧
          r.effectiveAt < u.effectiveAt ∧ u.effectiveAt ≤ l.effectiveAt) :
    Shadows (A.withRow r) (B.withRow r) where
  classes := h.classes
  seats := h.seats
  engines := h.engines
  keyed := h.keyed.withRow hA
  keyed' := h.keyed'.withRow (h.featureRowAt_none hA)
  copied := by
    intro u hu
    rcases mem_withRow.1 hu with hu | rfl
    · obtain ⟨u', hu', halike⟩ := h.copied u hu
      exact ⟨u', mem_withRow.2 (.inl hu'), halike⟩
    · exact ⟨u, mem_withRow.2 (.inr rfl), .refl u⟩
  extra := by
    intro l hl
    have hold : Extra A B l := by
      refine ⟨?_, fun u hu ↦ hl.2 u (mem_withRow.2 (.inl hu))⟩
      rcases mem_withRow.1 hl.1 with hmem | rfl
      · exact hmem
      · exact absurd rfl (hl.2 l (mem_withRow.2 (.inr rfl)))
    obtain ⟨hsome, hdeleted, henabled⟩ := h.extra l hold
    exact ⟨hsome, hdeleted, isFeatureEnabled_withRow h.keyed'
      (h.keyed'.withRow (h.featureRowAt_none hA)) henabled (hcovered l hold)⟩

/-- Only the history without evolutions records an enabling row, whose key an evolution took. -/
theorem Shadows.insert_second (h : Shadows A B)
    (hA : featureRowAt A r.classId r.effectiveAt r.feature ≠ none)
    (hB : featureRowAt B r.classId r.effectiveAt r.feature = none)
    (hsome : r.economicVersionId.isSome = true) (hdeleted : r.deletedAt = none) :
    Shadows A (B.withRow r) where
  classes := h.classes
  seats := h.seats
  engines := h.engines
  keyed := h.keyed
  keyed' := h.keyed'.withRow hB
  copied := by
    intro u hu
    rcases mem_withRow.1 hu with hu | rfl
    · exact h.copied u hu
    · obtain ⟨u', hfound⟩ := Option.ne_none_iff_exists'.1 hA
      obtain ⟨hu', hkey⟩ := featureRowAt_eq_some hfound
      have hextra : Extra A B u' :=
        ⟨hu', fun v hv ↦ by rw [hkey]; exact featureRowAt_eq_none_iff.1 hB v hv⟩
      obtain ⟨hsome', hdeleted', -⟩ := h.extra u' hextra
      exact ⟨u', hu', hkey, hsome'.trans hsome.symm, by rw [hdeleted', hdeleted]⟩
  extra := by
    intro l hl
    have hold : Extra A B l := ⟨hl.1, fun u hu ↦ hl.2 u (mem_withRow.2 (.inl hu))⟩
    obtain ⟨hsome', hdeleted', henabled⟩ := h.extra l hold
    exact ⟨hsome', hdeleted', isFeatureEnabled_withRow h.keyed' (h.keyed'.withRow hB) henabled
      fun _ _ _ ↦ .inl hsome⟩

end Beside

section Commands

variable {traceId economicVersionId : String} {readiness : FieldValue → Option String}
  {withdrawal : Except Raise Unit}

theorem checkTeacherScope_congr {ε : Type} (hclasses : A.classes = B.classes)
    (hseats : A.seatClass = B.seatClass) (context : Option CanonicalContext)
    (classId unauthorized : String) (refuse : String → String → ε) :
    checkTeacherScope A context classId unauthorized refuse =
      checkTeacherScope B context classId unauthorized refuse := by
  unfold checkTeacherScope
  rw [hclasses, hseats]

theorem verifyEnable_eq_ok_iff : verifyEnable S now economicVersionId q readiness = .ok t ↔
    checkTeacherScope S q.context q.classId "Only teachers can enable features" refuseFeature
        = .ok () ∧
      isFeatureEnabled S q.classId now q.feature = false ∧
      q.feature ∈ ClassFeature.featureNames ∧
      (getEconomicEngineByVersion S q.classId economicVersionId).isSome = true ∧
      (q.feature ∈ cwiDependentFeatures →
        readiness (expectedWeeklyHours S q.classId now) = none) ∧
      resolveEffectiveAt now q.effectiveAt refuseFeature = .ok t := by
  rw [verifyEnable, unit_bind_eq_ok]
  simp only [require_bind_eq_ok]

theorem verifyDisable_eq_ok_iff : verifyDisable S now q = .ok t ↔
    checkTeacherScope S q.context q.classId "Only teachers can disable features" refuseFeature
        = .ok () ∧
      q.feature ∈ ClassFeature.featureNames ∧
      isFeatureEnabled S q.classId now q.feature = true ∧
      resolveEffectiveAt now q.effectiveAt refuseFeature = .ok t := by
  rw [verifyDisable, unit_bind_eq_ok]
  simp only [require_bind_eq_ok]

theorem getEconomicEngineByVersion_isSome : (getEconomicEngineByVersion S classId
    economicVersionId).isSome = true ↔
      ∃ e ∈ S.engines, e.economicVersionId = economicVersionId ∧ e.classId = classId := by
  rw [getEconomicEngineByVersion, List.find?_isSome]
  simp only [decide_eq_true_eq]

def enabledRow (now t : Instant) (economicVersionId : String) (q : FeatureRequest) :
    ClassFeature where
  classId := q.classId
  feature := q.feature
  effectiveAt := t
  economicVersionId := some economicVersionId
  deletedAt := none
  createdAt := now

def disabledRow (now t : Instant) (q : FeatureRequest) : ClassFeature where
  classId := q.classId
  feature := q.feature
  effectiveAt := t
  economicVersionId := none
  deletedAt := some now
  createdAt := now

theorem insertFeature_of_none (h : featureRowAt S r.classId r.effectiveAt r.feature = none) :
    insertFeature S r = .ok (S.withRow r) := by
  rw [insertFeature, require_of h]
  rfl

/-- What an enablement that its checks admit leaves behind. -/
theorem enableFeature_of_verified
    (h : verifyEnable S now economicVersionId q readiness = .ok t) :
    committed S (enableFeature S now economicVersionId q traceId readiness) =
      if featureRowAt S q.classId t q.feature = none
      then S.withRow (enabledRow now t economicVersionId q) else S := by
  unfold enableFeature
  rw [h]
  dsimp only
  by_cases hrow : featureRowAt S q.classId t q.feature = none
  · rw [if_neg (by simp [hrow]), if_pos hrow, insertFeature_of_none (by exact hrow)]
    rfl
  · rw [if_pos (Option.isSome_iff_ne_none.2 hrow), if_neg hrow]
    rfl

theorem enableFeature_of_refused
    (h : ∀ t, verifyEnable S now economicVersionId q readiness ≠ .ok t) :
    committed S (enableFeature S now economicVersionId q traceId readiness) = S := by
  unfold enableFeature
  cases hverify : verifyEnable S now economicVersionId q readiness with
  | error result => rfl
  | ok t => exact absurd hverify (h t)

/-- What a disablement that its checks admit leaves behind. A row at its key that is not deleted
makes it raise. -/
theorem disableFeature_of_verified (h : verifyDisable S now q = .ok t) :
    committed S (disableFeature S now q traceId withdrawal) =
      if featureRowAt S q.classId t q.feature = none ∧
        (q.feature = "rent" → withdrawal = .ok ())
      then S.withRow (disabledRow now t q) else S := by
  unfold disableFeature
  rw [h]
  dsimp only
  cases hrow : featureRowAt S q.classId t q.feature with
  | none =>
    rw [if_neg (by simp), insertFeature_of_none (by exact hrow), ok_bind]
    by_cases hrent : q.feature = "rent"
    · rw [if_pos hrent]
      cases withdrawal with
      | ok u => simp [hrent, disabledRow, committed, pure, Except.pure]
      | error e => simp [hrent, committed, bind, Except.bind]
    · simp [hrent, disabledRow, committed, pure, Except.pure]
  | some row =>
    have hheld : ¬ (some row = none ∧ (q.feature = "rent" → withdrawal = .ok ())) :=
      fun hc ↦ Option.some_ne_none row hc.1
    rw [if_neg hheld]
    by_cases hdeleted : (some row).any (·.deletedAt.isSome) = true
    · rw [if_pos hdeleted]
      rfl
    · rw [if_neg hdeleted, insertFeature, require_of_not]
      · rfl
      · simp [hrow]

theorem disableFeature_of_refused (h : ∀ t, verifyDisable S now q ≠ .ok t) :
    committed S (disableFeature S now q traceId withdrawal) = S := by
  unfold disableFeature
  cases hverify : verifyDisable S now q with
  | error result => rfl
  | ok t => exact absurd hverify (h t)

end Commands

section History

instance (A B : EconomyState) (l : ClassFeature) : Decidable (Extra A B l) := by
  unfold Extra; infer_instance

/-- A row of the second state comes after a row effective at `t` and takes effect no later than
`l`. -/
def Superseded (B : EconomyState) (t : Instant) (l : ClassFeature) : Prop :=
  ∃ u ∈ B.features, u.classId = l.classId ∧ u.feature = l.feature ∧ t < u.effectiveAt ∧
    u.effectiveAt ≤ l.effectiveAt

instance (B : EconomyState) (t : Instant) (l : ClassFeature) : Decidable (Superseded B t l) := by
  unfold Superseded; infer_instance

/-- A command does not meet what evolutions have written. An enablement finds the version that it
names, and the weekly hours that it needs, in both histories or in neither. A disablement has no
row of an evolution's alone after it that its own row would have governed at. An evolution links
features that are enabled when it takes effect. -/
def Quiet (A B : EconomyState) : FeatureAction → Prop
  | .enable now _ readiness economicVersionId q =>
    ((getEconomicEngineByVersion A q.classId economicVersionId).isSome = true →
      (getEconomicEngineByVersion B q.classId economicVersionId).isSome = true) ∧
    (q.feature ∈ cwiDependentFeatures → readiness (expectedWeeklyHours A q.classId now) =
      readiness (expectedWeeklyHours B q.classId now))
  | .disable now _ withdrawal q =>
    (q.feature = "rent" → withdrawal = .ok ()) → ∀ t ∈ (verifyDisable A now q).toOption,
      ∀ l ∈ A.features, Extra A B l → l.classId = q.classId → l.feature = q.feature →
        t ≤ l.effectiveAt → Superseded B t l
  | .evolve c => accepted A c = true → ∀ f ∈ missingFeatures A c.request.classId
      (c.request.effective c.now) c.request.featureList,
        isFeatureEnabled A c.request.classId (c.request.effective c.now) f = true

instance (A B : EconomyState) (a : FeatureAction) : Decidable (Quiet A B a) := by
  cases a <;> unfold Quiet <;> infer_instance

theorem Shadows.enable (h : Shadows A B) {traceId economicVersionId : String}
    {readiness : FieldValue → Option String}
    (hquiet : Quiet A B (.enable now traceId readiness economicVersionId q)) :
    Shadows (featureStep A (.enable now traceId readiness economicVersionId q))
      (featureStep B (.enable now traceId readiness economicVersionId q)) := by
  have hverify : ∀ t, verifyEnable A now economicVersionId q readiness = .ok t ↔
      verifyEnable B now economicVersionId q readiness = .ok t := by
    intro t
    have hversion : (getEconomicEngineByVersion A q.classId economicVersionId).isSome = true ↔
        (getEconomicEngineByVersion B q.classId economicVersionId).isSome = true := by
      refine ⟨hquiet.1, fun hfound ↦ ?_⟩
      obtain ⟨e, he, hid⟩ := getEconomicEngineByVersion_isSome.1 hfound
      exact getEconomicEngineByVersion_isSome.2 ⟨e, h.engines e he, hid⟩
    rw [verifyEnable_eq_ok_iff, verifyEnable_eq_ok_iff, hversion, h.isFeatureEnabled_eq,
      checkTeacherScope_congr h.classes h.seats]
    have hready : (q.feature ∈ cwiDependentFeatures →
        readiness (expectedWeeklyHours A q.classId now) = none) ↔
        (q.feature ∈ cwiDependentFeatures →
          readiness (expectedWeeklyHours B q.classId now) = none) :=
      forall_congr' fun hf ↦ by rw [hquiet.2 hf]
    rw [hready]
  simp only [featureStep]
  by_cases hok : ∃ t, verifyEnable A now economicVersionId q readiness = .ok t
  · obtain ⟨t, hA⟩ := hok
    rw [enableFeature_of_verified hA, enableFeature_of_verified ((hverify t).1 hA)]
    by_cases hrow : featureRowAt A q.classId t q.feature = none
    · rw [if_pos hrow, if_pos (h.featureRowAt_none hrow)]
      exact h.insert_both hrow fun _ _ _ _ _ ↦ .inl rfl
    · rw [if_neg hrow]
      by_cases hrow' : featureRowAt B q.classId t q.feature = none
      · rw [if_pos hrow']
        exact h.insert_second hrow hrow' rfl rfl
      · rw [if_neg hrow']
        exact h
  · push Not at hok
    rw [enableFeature_of_refused hok,
      enableFeature_of_refused fun t ht ↦ hok t ((hverify t).2 ht)]
    exact h

theorem Shadows.disable (h : Shadows A B) {traceId : String} {withdrawal : Except Raise Unit}
    (hquiet : Quiet A B (.disable now traceId withdrawal q)) :
    Shadows (featureStep A (.disable now traceId withdrawal q))
      (featureStep B (.disable now traceId withdrawal q)) := by
  have hverify : ∀ t, verifyDisable A now q = .ok t ↔ verifyDisable B now q = .ok t := by
    intro t
    rw [verifyDisable_eq_ok_iff, verifyDisable_eq_ok_iff, h.isFeatureEnabled_eq,
      checkTeacherScope_congr h.classes h.seats]
  simp only [featureStep]
  by_cases hok : ∃ t, verifyDisable A now q = .ok t
  · obtain ⟨t, hA⟩ := hok
    rw [disableFeature_of_verified hA, disableFeature_of_verified ((hverify t).1 hA)]
    by_cases hrent : q.feature = "rent" → withdrawal = .ok ()
    · have hcovered : ∀ l, Extra A B l → l.classId = q.classId → l.feature = q.feature →
          t ≤ l.effectiveAt → Superseded B t l :=
        fun l hl ↦ hquiet hrent t (by rw [hA]; rfl) l hl.1 hl
      by_cases hrow : featureRowAt A q.classId t q.feature = none
      · rw [if_pos ⟨hrow, hrent⟩, if_pos ⟨h.featureRowAt_none hrow, hrent⟩]
        exact h.insert_both hrow fun l hl hclass hfeature hle ↦
          .inr (hcovered l hl hclass.symm hfeature.symm hle)
      · rw [if_neg fun hc ↦ hrow hc.1, if_neg]
        · exact h
        · rintro ⟨hrow', -⟩
          -- A row of an evolution's alone has the key, and nothing comes between the two.
          obtain ⟨l, hfound⟩ := Option.ne_none_iff_exists'.1 hrow
          obtain ⟨hl, hkey⟩ := featureRowAt_eq_some hfound
          have hextra : Extra A B l :=
            ⟨hl, fun u hu ↦ by rw [hkey]; exact featureRowAt_eq_none_iff.1 hrow' u hu⟩
          simp only [ClassFeature.key, Prod.mk.injEq] at hkey
          obtain ⟨u, -, -, -, hlt, hle⟩ := hcovered l hextra hkey.1 hkey.2.1 hkey.2.2.ge
          rw [hkey.2.2] at hle
          exact absurd hlt (not_lt.2 hle)
    · rw [if_neg fun hc ↦ hrent hc.2, if_neg fun hc ↦ hrent hc.2]
      exact h
  · push Not at hok
    rw [disableFeature_of_refused hok,
      disableFeature_of_refused fun t ht ↦ hok t ((hverify t).2 ht)]
    exact h

/-- The rows that an accepted evolution links are extra and enable what is enabled. -/
theorem Shadows.evolve (h : Shadows A B) {c : EvolveCall} (hquiet : Quiet A B (.evolve c)) :
    Shadows (featureStep A (.evolve c)) B := by
  simp only [featureStep]
  rcases evolveStep_cases A c with ⟨-, hsame⟩ | ⟨haccepted, current, he⟩
  · rw [hsame]
    exact h
  · have henabled := hquiet haccepted
    rw [he.state]
    refine ⟨h.classes, h.seats, fun e hB ↦ List.mem_append_left _ (h.engines e hB), ?_, h.keyed',
      ?_, ?_⟩
    · rw [Keyed, List.map_append, List.map_map, List.nodup_append]
      refine ⟨h.keyed, he.distinct.map ?_, ?_⟩
      · intro f f' hkey
        simpa [ClassFeature.key, linkRow] using hkey
      · intro k hk k' hk'
        obtain ⟨u, hu, rfl⟩ := List.mem_map.1 hk
        obtain ⟨f, hf, rfl⟩ := List.mem_map.1 hk'
        rw [missingFeatures, List.mem_filter, decide_eq_true_eq] at hf
        exact featureRowAt_eq_none_iff.1 hf.2 u hu
    · intro u hu
      obtain ⟨u', hu', halike⟩ := h.copied u hu
      exact ⟨u', List.mem_append_left _ hu', halike⟩
    · rintro l ⟨hmem, hnew⟩
      rcases List.mem_append.1 hmem with hmem | hmem
      · exact h.extra l ⟨hmem, hnew⟩
      · obtain ⟨f, hf, rfl⟩ := List.mem_map.1 hmem
        refine ⟨rfl, rfl, ?_⟩
        rw [← h.isFeatureEnabled_eq]
        exact henabled f hf

theorem Shadows.step (h : Shadows A B) {a : FeatureAction} (hquiet : Quiet A B a) :
    Shadows (featureStep A a) (if !a.isEvolve then featureStep B a else B) := by
  cases a with
  | enable => exact h.enable hquiet
  | disable => exact h.disable hquiet
  | evolve c => exact h.evolve hquiet

/-- A history whose commands do not meet what its evolutions have written enables, at every
instant, the features that it enables without its evolutions. -/
theorem evolving_keeps_features (S : EconomyState) (hkeyed : Keyed S) (actions : List FeatureAction)
    (hquiet : Beside Quiet (fun a ↦ !a.isEvolve) featureStep S S actions) (classId : String)
    (t : Instant) : getClassFeatures (run featureStep S actions) classId t =
      getClassFeatures (run featureStep S (actions.filter (fun a ↦ !a.isEvolve))) classId t := by
  have hshadows : Shadows (run featureStep S actions)
      (run featureStep S (actions.filter (fun a ↦ !a.isEvolve))) := by
    apply hquiet.run_filter (Shadows.refl hkeyed)
    intro A B a h ha
    exact h.step ha
  exact hshadows.getClassFeatures_eq classId t

end History

section Samples

def sampleRequest (feature : String) : FeatureRequest where
  context := some ⟨"c", 9, "teacher"⟩
  classId := "c"
  feature := feature

def aboveFive : FieldValue → Option String
  | .number h => if 5 < h then none else some "too few hours"
  | _ => some "no hours"

/-- Terms saved for instant 20, payroll switched off at 2, store switched on at 3. -/
def savedAhead : List FeatureAction :=
  [.evolve (sampleCall 1 "v1" [("interest_rate", .number (1 / 10))] 20),
   .disable 2 "d" (.ok ()) (sampleRequest "payroll")]

def hoursFirst : List FeatureAction :=
  [.evolve (sampleCall 1 "v1" [("expected_weekly_hours", .number 6)] 1),
   .enable 2 "e" aboveFive "v0" (sampleRequest "store")]

/-- Terms saved ahead bring a disabled feature back, and terms saved now let one be enabled. -/
theorem evolving_switches_features :
    (getClassFeatures (run featureStep sampleClass savedAhead) "c" 20,
      getClassFeatures (run featureStep sampleClass
        (savedAhead.filter (fun a ↦ !a.isEvolve))) "c" 20) = (["payroll"], []) ∧
    (getClassFeatures (run featureStep sampleClass hoursFirst) "c" 2,
      getClassFeatures (run featureStep sampleClass
        (hoursFirst.filter (fun a ↦ !a.isEvolve))) "c" 2) = (["payroll", "store"], ["payroll"]) := by
  decide +kernel

def savedNow : List FeatureAction :=
  [.enable 1 "e" aboveFive "v0" (sampleRequest "banking"),
   .evolve (sampleCall 2 "v1" [("interest_rate", .number (1 / 10))] 3),
   .disable 4 "d" (.ok ()) (sampleRequest "payroll")]

theorem evolving_keeps_features_now :
    getClassFeatures (run featureStep sampleClass savedNow) "c" 5 = ["banking"] ∧
    ∀ classId t, getClassFeatures (run featureStep sampleClass savedNow) classId t =
      getClassFeatures (run featureStep sampleClass
        (savedNow.filter (fun a ↦ !a.isEvolve))) classId t :=
  ⟨by decide +kernel,
    evolving_keeps_features sampleClass (by simp [Keyed, sampleClass]) savedNow (by decide +kernel)⟩

end Samples

end TokenHub.Economy
