import Mathlib.Data.List.Forall2
import Mathlib.Data.List.Nodup
import Mathlib.Data.List.Pairwise
import TokenHub.Identity.Seats

set_option autoImplicit false

namespace TokenHub.Identity

open Ledger Lib.Checks

variable {T : Texts} {S S' : IdentityState} {s t : Seat}
  {classId firstHash lastHash firstName lastName : String}

section Namesakes

def Seat.code (s : Seat) : String := s.dedupeCode.getD ""

theorem Seat.dedupeCode_of_code (h : s.code ≠ "") : s.dedupeCode = some s.code := by
  rw [Seat.code] at h ⊢
  cases hcode : s.dedupeCode with
  | none =>
    rw [hcode] at h
    exact absurd rfl h
  | some code => rfl

/-- Two unclaimed student seats of a class that share a claim name. -/
def Namesakes (s t : Seat) : Prop :=
  ∃ classId firstHash lastHash,
    s.IsNamesake classId firstHash lastHash ∧ t.IsNamesake classId firstHash lastHash

theorem Namesakes.symm (h : Namesakes s t) : Namesakes t s := by
  obtain ⟨c, f, l, hs, ht⟩ := h
  exact ⟨c, f, l, ht, hs⟩

theorem Seat.IsNamesake.of_namesakes (hs : s.IsNamesake classId firstHash lastHash)
    (h : Namesakes s t) : t.IsNamesake classId firstHash lastHash := by
  obtain ⟨c, f, l, hs', ht⟩ := h
  obtain ⟨hclass, -, -, hfirst, hlast⟩ := hs
  obtain ⟨hclass', -, -, hfirst', hlast'⟩ := hs'
  obtain rfl : c = classId := hclass'.symm.trans hclass
  obtain rfl : f = firstHash := Option.some.inj (hfirst'.symm.trans hfirst)
  obtain rfl : l = lastHash := Option.some.inj (hlast'.symm.trans hlast)
  exact ht

def Apart (s t : Seat) : Prop :=
  Namesakes s t → s.code ≠ "" ∧ t.code ≠ "" ∧ s.code ≠ t.code

theorem Apart.symm (h : Apart s t) : Apart t s := by
  intro hnames
  obtain ⟨hs, ht, hne⟩ := h hnames.symm
  exact ⟨ht, hs, hne.symm⟩

/-- A seat whose claim name is among some names of a class. -/
def NamedIn (classId : String) (names : List (String × String)) (s : Seat) : Prop :=
  ∃ k ∈ names, s.IsNamesake classId k.1 k.2

def ApartBut (classId : String) (names : List (String × String)) (seats : List Seat) : Prop :=
  seats.Pairwise (fun s t ↦ ¬ NamedIn classId names s → Apart s t)

theorem apartBut_nil {seats : List Seat} : ApartBut classId [] seats ↔ seats.Pairwise Apart := by
  simp [ApartBut, NamedIn]

theorem ApartBut.mono {names names' : List (String × String)} {seats : List Seat}
    (h : ApartBut classId names seats) (hsub : names ⊆ names') : ApartBut classId names' seats := by
  refine h.imp ?_
  intro s t hapart hnot
  apply hapart
  rintro ⟨k, hk, hs⟩
  exact hnot ⟨k, hsub hk, hs⟩

end Namesakes

section Assignment

/-- A seat after a repair: only its code and its fingerprint may differ. -/
structure Recoded (s s' : Seat) : Prop where
  same : s' = { s with dedupeCode := s'.dedupeCode, rosterFingerprint := s'.rosterFingerprint }

theorem Recoded.refl (s : Seat) : Recoded s s := ⟨rfl⟩

theorem Recoded.trans {s s' s'' : Seat} (h : Recoded s s') (h' : Recoded s' s'') : Recoded s s'' := by
  constructor
  rw [h'.same, h.same]

theorem Recoded.id {s s' : Seat} (h : Recoded s s') : s'.id = s.id := by rw [h.same]

theorem Recoded.isNamesake {s s' : Seat} (h : Recoded s s') :
    s'.IsNamesake classId firstHash lastHash ↔ s.IsNamesake classId firstHash lastHash := by
  rw [h.same]
  rfl

theorem ClaimCode.text_ne (d : ClaimCode) : d.text ≠ "" := by
  intro h
  have hlength := d.length
  rw [h] at hlength
  cases hlength

theorem generateClaimCode_ok {used : List String} {draws draws' : List ClaimCode} {code : String}
    (h : generateClaimCode used draws = .ok (code, draws')) : code ≠ "" ∧ code ∉ used := by
  induction draws with
  | nil => cases h
  | cons d ds ih =>
    rw [generateClaimCode] at h
    split_ifs at h with hused
    · exact ih h
    · rw [pure_eq_ok, Prod.mk.injEq] at h
      obtain ⟨rfl, -⟩ := h
      exact ⟨d.text_ne, hused⟩

variable {seats seats' : List Seat} {used seen : List String} {draws draws' : List ClaimCode}

/-- The three ways in which a seat comes through the loop. -/
theorem assignCodes_cons_ok (h : assignCodes T classId firstHash lastHash firstName lastName
    (s :: seats) used seen draws = .ok (seats', draws')) :
    ∃ s' used' seen' draws₁ rest, seats' = s' :: rest ∧
      assignCodes T classId firstHash lastHash firstName lastName seats used' seen' draws₁ =
        .ok (rest, draws') ∧
      ((¬ s.IsNamesake classId firstHash lastHash ∧ s' = s ∧ used' = used ∧ seen' = seen) ∨
        (s.IsNamesake classId firstHash lastHash ∧ KeepsCode seen s ∧ s' = s ∧ used' = used ∧
          seen' = s.code :: seen) ∨
        (s.IsNamesake classId firstHash lastHash ∧ ¬ KeepsCode seen s ∧ Recoded s s' ∧
          s'.code ≠ "" ∧ s'.code ∉ used ∧ used' = s'.code :: used ∧ seen' = s'.code :: seen)) := by
  rw [assignCodes] at h
  split_ifs at h with hnamesake hkeeps
  · simp only [bind_eq_ok, Prod.exists, pure_eq_ok, Prod.mk.injEq] at h
    obtain ⟨rest, ds, hrest, rfl, rfl⟩ := h
    exact ⟨s, used, _, draws, rest, rfl, hrest, .inr (.inl ⟨hnamesake, hkeeps, rfl, rfl, rfl⟩)⟩
  · simp only [bind_eq_ok, Prod.exists, pure_eq_ok, Prod.mk.injEq] at h
    obtain ⟨code, draws₁, hcode, rest, ds, hrest, rfl, rfl⟩ := h
    obtain ⟨hne, hfresh⟩ := generateClaimCode_ok hcode
    exact ⟨_, _, _, draws₁, rest, rfl, hrest, .inr (.inr ⟨hnamesake, hkeeps, ⟨rfl⟩, hne, hfresh, rfl, rfl⟩)⟩
  · simp only [bind_eq_ok, Prod.exists, pure_eq_ok, Prod.mk.injEq] at h
    obtain ⟨rest, ds, hrest, rfl, rfl⟩ := h
    exact ⟨s, used, seen, draws, rest, rfl, hrest, .inl ⟨hnamesake, rfl, rfl, rfl⟩⟩

theorem assignCodes_recoded (h : assignCodes T classId firstHash lastHash firstName lastName
    seats used seen draws = .ok (seats', draws')) :
    List.Forall₂ (fun s s' ↦ Recoded s s' ∧
      (¬ s.IsNamesake classId firstHash lastHash → s' = s)) seats seats' := by
  induction seats generalizing used seen draws seats' with
  | nil =>
    rw [assignCodes, pure_eq_ok, Prod.mk.injEq] at h
    obtain ⟨rfl, rfl⟩ := h
    exact .nil
  | cons s seats ih =>
    obtain ⟨s', used', seen', draws₁, rest, rfl, hrest, hcases⟩ := assignCodes_cons_ok h
    refine .cons ?_ (ih hrest)
    rcases hcases with ⟨-, rfl, -⟩ | ⟨-, -, rfl, -⟩ | ⟨hnamesake, -, hrecoded, -⟩
    · exact ⟨Recoded.refl s', fun _ ↦ rfl⟩
    · exact ⟨Recoded.refl s', fun _ ↦ rfl⟩
    · exact ⟨hrecoded, fun hnot ↦ absurd hnamesake hnot⟩

theorem assignCodes_apart (h : assignCodes T classId firstHash lastHash firstName lastName
    seats used seen draws = .ok (seats', draws')) (hseen : seen ⊆ used)
    (hused : ∀ s ∈ seats, s.IsNamesake classId firstHash lastHash → s.code ≠ "" → s.code ∈ used) :
    (∀ s ∈ seats', s.IsNamesake classId firstHash lastHash → s.code ≠ "" ∧ s.code ∉ seen) ∧
      seats'.Pairwise (fun s t ↦ s.IsNamesake classId firstHash lastHash →
        t.IsNamesake classId firstHash lastHash → s.code ≠ t.code) := by
  induction seats generalizing used seen draws seats' with
  | nil =>
    rw [assignCodes, pure_eq_ok, Prod.mk.injEq] at h
    obtain ⟨rfl, rfl⟩ := h
    exact ⟨by simp, .nil⟩
  | cons s seats ih =>
    obtain ⟨s', used', seen', draws₁, rest, rfl, hrest, hcases⟩ := assignCodes_cons_ok h
    have hlater : ∀ t ∈ seats, t.IsNamesake classId firstHash lastHash → t.code ≠ "" →
        t.code ∈ used := fun t ht ↦ hused t (List.mem_cons_of_mem s ht)
    rcases hcases with ⟨hnot, rfl, rfl, rfl⟩ | ⟨hnamesake, hkeeps, rfl, rfl, rfl⟩ |
      ⟨hnamesake, -, hrecoded, hne, hfresh, rfl, rfl⟩
    · obtain ⟨hcodes, hpairs⟩ := ih hrest hseen hlater
      refine ⟨?_, List.pairwise_cons.2 ⟨fun t _ hs ↦ absurd hs hnot, hpairs⟩⟩
      intro t ht hmate
      rcases List.mem_cons.1 ht with rfl | ht
      · exact absurd hmate hnot
      · exact hcodes t ht hmate
    · obtain ⟨hcodes, hpairs⟩ := ih hrest
        (List.cons_subset.2 ⟨hused s' List.mem_cons_self hnamesake hkeeps.1, hseen⟩) hlater
      constructor
      · intro t ht hmate
        rcases List.mem_cons.1 ht with rfl | ht
        · exact hkeeps
        · exact ⟨(hcodes t ht hmate).1, fun hmem ↦ (hcodes t ht hmate).2 (List.mem_cons_of_mem _ hmem)⟩
      · refine List.pairwise_cons.2 ⟨?_, hpairs⟩
        intro t ht _ hmate heq
        exact (hcodes t ht hmate).2 (heq ▸ List.mem_cons_self)
    · obtain ⟨hcodes, hpairs⟩ := ih hrest (List.cons_subset_cons _ hseen)
        (fun t ht hmate hcode ↦ List.mem_cons_of_mem _ (hlater t ht hmate hcode))
      constructor
      · intro t ht hmate
        rcases List.mem_cons.1 ht with rfl | ht
        · exact ⟨hne, fun hmem ↦ hfresh (hseen hmem)⟩
        · exact ⟨(hcodes t ht hmate).1, fun hmem ↦ (hcodes t ht hmate).2 (List.mem_cons_of_mem _ hmem)⟩
      · refine List.pairwise_cons.2 ⟨?_, hpairs⟩
        intro t ht _ hmate heq
        exact (hcodes t ht hmate).2 (heq ▸ List.mem_cons_self)

theorem assignCodes_keeps (h : assignCodes T classId firstHash lastHash firstName lastName
    seats used seen draws = .ok (seats', draws')) (hs : s ∈ seats) (hne : s.code ≠ "")
    (hseen : s.code ∉ seen) (hused : s.code ∈ used)
    (halone : ∀ t ∈ seats, t ≠ s → t.IsNamesake classId firstHash lastHash → t.code ≠ s.code)
    (hnodup : seats.Nodup) : s ∈ seats' := by
  induction seats generalizing used seen draws seats' with
  | nil => cases hs
  | cons x seats ih =>
    obtain ⟨x', used', seen', draws₁, rest, rfl, hrest, hcases⟩ := assignCodes_cons_ok h
    obtain ⟨hx, hrestNodup⟩ := List.nodup_cons.1 hnodup
    have hlater : ∀ t ∈ seats, t ≠ s → t.IsNamesake classId firstHash lastHash →
        t.code ≠ s.code := fun t ht ↦ halone t (List.mem_cons_of_mem x ht)
    rcases List.mem_cons.1 hs with rfl | htail
    · rcases hcases with ⟨-, rfl, -⟩ | ⟨-, -, rfl, -⟩ | ⟨-, hnot, -⟩
      · exact List.mem_cons_self
      · exact List.mem_cons_self
      · exact absurd ⟨hne, hseen⟩ hnot
    · refine List.mem_cons_of_mem _ ?_
      have hxs : x ≠ s := fun heq ↦ hx (heq ▸ htail)
      rcases hcases with ⟨-, rfl, rfl, rfl⟩ | ⟨hnamesake, -, rfl, rfl, rfl⟩ |
        ⟨-, -, -, -, hfresh, rfl, rfl⟩
      · exact ih hrest htail hseen hused hlater hrestNodup
      · refine ih hrest htail ?_ hused hlater hrestNodup
        rw [List.mem_cons, not_or]
        exact ⟨(halone x' List.mem_cons_self hxs hnamesake).symm, hseen⟩
      · refine ih hrest htail ?_ (List.mem_cons_of_mem _ hused) hlater hrestNodup
        rw [List.mem_cons, not_or]
        exact ⟨fun heq ↦ hfresh (heq ▸ hused), hseen⟩

end Assignment

section Repair

/-- A seat whose code is not empty and no namesake's. -/
structure HoldsAlone (seats : List Seat) (s : Seat) : Prop where
  mem : s ∈ seats
  code : s.code ≠ ""
  alone : ∀ t ∈ seats, t ≠ s → Namesakes s t → t.code ≠ s.code

structure Repaired (classId firstHash lastHash : String) (seats seats' : List Seat) : Prop where
  recoded : List.Forall₂ (fun s s' ↦ Recoded s s' ∧
    (¬ s.IsNamesake classId firstHash lastHash → s' = s)) seats seats'
  apart : seats'.Pairwise (fun s t ↦ s.IsNamesake classId firstHash lastHash →
    t.IsNamesake classId firstHash lastHash → s.code ≠ "" ∧ t.code ≠ "" ∧ s.code ≠ t.code)
  keeps : ∀ s, seats.Nodup → HoldsAlone seats s → s ∈ seats'

variable {seats seats' : List Seat} {draws draws' : List ClaimCode}
  {k : String × String} {names : List (String × String)}

theorem pairwise_of_few {R : Seat → Seat → Prop} (h : seats.length < 2) : seats.Pairwise R := by
  cases seats with
  | nil => exact .nil
  | cons s rest =>
    cases rest with
    | nil => exact List.pairwise_singleton R s
    | cons t rest =>
      simp only [List.length_cons] at h
      omega

theorem ensureDistinctClaimCodes_ok (h : ensureDistinctClaimCodes T S classId firstHash lastHash
    firstName lastName draws = .ok (S', draws')) :
    ∃ seats', S' = { S with seats := seats' } ∧
      Repaired classId firstHash lastHash S.seats seats' := by
  simp only [ensureDistinctClaimCodes] at h
  split_ifs at h with hfew
  · rw [pure_eq_ok, Prod.mk.injEq] at h
    obtain ⟨rfl, -⟩ := h
    refine ⟨S.seats, rfl, ?_, ?_, fun s _ hs ↦ hs.mem⟩
    · exact List.forall₂_same.2 fun s _ ↦ ⟨Recoded.refl s, fun _ ↦ rfl⟩
    · have hpairs : (namesakes S classId firstHash lastHash).Pairwise (fun s t ↦
          s.code ≠ "" ∧ t.code ≠ "" ∧ s.code ≠ t.code) := pairwise_of_few hfew
      rw [namesakes, List.pairwise_filter] at hpairs
      simpa only [decide_eq_true_eq] using hpairs
  · simp only [bind_eq_ok, Prod.exists, pure_eq_ok, Prod.mk.injEq] at h
    obtain ⟨seats', ds, hassign, rfl, rfl⟩ := h
    have hmem : ∀ s ∈ S.seats, s.IsNamesake classId firstHash lastHash → s.code ≠ "" →
        s.code ∈ ((namesakes S classId firstHash lastHash).map
          (·.dedupeCode.getD "")).filter (· ≠ "") := by
      intro s hs hmate hcode
      have hfound : s ∈ namesakes S classId firstHash lastHash :=
        List.mem_filter.2 ⟨hs, decide_eq_true hmate⟩
      have hmapped : s.code ∈ (namesakes S classId firstHash lastHash).map
          (·.dedupeCode.getD "") := List.mem_map_of_mem hfound
      exact List.mem_filter.2 ⟨hmapped, decide_eq_true hcode⟩
    obtain ⟨hcodes, hpairs⟩ := assignCodes_apart hassign (List.nil_subset _) hmem
    refine ⟨seats', rfl, assignCodes_recoded hassign, ?_, ?_⟩
    · refine List.Pairwise.imp_of_mem ?_ hpairs
      intro s t hs ht hne hmate hmate'
      exact ⟨(hcodes s hs hmate).1, (hcodes t ht hmate').1, hne hmate hmate'⟩
    · intro s hnodup hs
      by_cases hmate : s.IsNamesake classId firstHash lastHash
      · refine assignCodes_keeps hassign hs.mem hs.code List.not_mem_nil
          (hmem s hs.mem hmate hs.code) ?_ hnodup
        intro t ht hts hmate'
        exact hs.alone t ht hts ⟨_, _, _, hmate, hmate'⟩
      · obtain ⟨i, hi, rfl⟩ := List.getElem_of_mem hs.mem
        have hall := assignCodes_recoded hassign
        have hsame := (hall.get hi (hall.length_eq ▸ hi)).2 hmate
        rw [List.get_eq_getElem, List.get_eq_getElem] at hsame
        rw [← hsame]
        exact List.getElem_mem _

theorem Repaired.source (h : Repaired classId firstHash lastHash seats seats') (hs : s ∈ seats') :
    ∃ r ∈ seats, Recoded r s ∧ (¬ r.IsNamesake classId firstHash lastHash → s = r) := by
  obtain ⟨i, hi, rfl⟩ := List.getElem_of_mem hs
  have hlength := h.recoded.length_eq
  have hcase := h.recoded.get (hlength ▸ hi) hi
  exact ⟨_, List.getElem_mem _, hcase⟩

theorem Repaired.apartBut (h : Repaired classId k.1 k.2 seats seats')
    (hapart : ApartBut classId (k :: names) seats) : ApartBut classId names seats' := by
  rw [ApartBut, List.pairwise_iff_getElem] at hapart ⊢
  intro i j hi hj hij hnot hnames
  have hlength := h.recoded.length_eq
  obtain ⟨hrecoded, hkept⟩ := h.recoded.get (hlength ▸ hi) hi
  obtain ⟨hrecoded', hkept'⟩ := h.recoded.get (hlength ▸ hj) hj
  simp only [List.get_eq_getElem] at hrecoded hkept hrecoded' hkept'
  by_cases hmate : seats'[i].IsNamesake classId k.1 k.2
  · exact List.pairwise_iff_getElem.1 h.apart i j hi hj hij hmate (hmate.of_namesakes hnames)
  · have hmate' : ¬ seats'[j].IsNamesake classId k.1 k.2 :=
      fun hmate' ↦ hmate (hmate'.of_namesakes hnames.symm)
    have heq := hkept fun hk ↦ hmate (hrecoded.isNamesake.2 hk)
    have heq' := hkept' fun hk ↦ hmate' (hrecoded'.isNamesake.2 hk)
    have hold := hapart i j (hlength ▸ hi) (hlength ▸ hj) hij
    rw [← heq, ← heq'] at hold
    refine hold ?_ hnames
    rintro ⟨k', hk', hmate''⟩
    rcases List.mem_cons.1 hk' with rfl | hk'
    · exact hmate hmate''
    · exact hnot ⟨k', hk', hmate''⟩

theorem Repaired.apart_of_ne (h : Repaired classId firstHash lastHash seats seats')
    (hs : s ∈ seats') (ht : t ∈ seats') (hne : s ≠ t)
    (hmate : s.IsNamesake classId firstHash lastHash)
    (hmate' : t.IsNamesake classId firstHash lastHash) :
    s.code ≠ "" ∧ t.code ≠ "" ∧ s.code ≠ t.code := by
  have : Std.Symm (fun s t : Seat ↦ s.IsNamesake classId firstHash lastHash →
      t.IsNamesake classId firstHash lastHash → s.code ≠ "" ∧ t.code ≠ "" ∧ s.code ≠ t.code) := by
    constructor
    intro s t hst ht hs
    obtain ⟨hcode, hcode', hdiffer⟩ := hst hs ht
    exact ⟨hcode', hcode, hdiffer.symm⟩
  exact h.apart.forall hs ht hne hmate hmate'

theorem Repaired.holdsAlone (h : Repaired classId firstHash lastHash seats seats')
    (hnodup : seats.Nodup) (hs : HoldsAlone seats s) : HoldsAlone seats' s := by
  refine ⟨h.keeps s hnodup hs, hs.code, ?_⟩
  intro t ht hts hnames
  by_cases hmate : s.IsNamesake classId firstHash lastHash
  · have hmate' := hmate.of_namesakes hnames
    exact (h.apart_of_ne ht (h.keeps s hnodup hs) hts hmate' hmate).2.2
  · obtain ⟨r, hr, hrecoded, hkept⟩ := h.source ht
    have hnot : ¬ r.IsNamesake classId firstHash lastHash := by
      intro hr
      exact hmate ((hrecoded.isNamesake.2 hr).of_namesakes hnames.symm)
    obtain rfl := hkept hnot
    exact hs.alone t hr hts hnames

structure Refreshed (seats seats' : List Seat) : Prop where
  recoded : List.Forall₂ Recoded seats seats'
  keeps : (seats.map (·.id)).Nodup → ∀ s, HoldsAlone seats s → HoldsAlone seats' s

theorem Refreshed.refl (seats : List Seat) : Refreshed seats seats :=
  ⟨List.forall₂_same.2 fun s _ ↦ Recoded.refl s, fun _ _ hs ↦ hs⟩

theorem Refreshed.ids (h : Refreshed seats seats') : seats'.map (·.id) = seats.map (·.id) := by
  obtain ⟨hall, -⟩ := h
  induction hall with
  | nil => rfl
  | cons hhead _ ih => rw [List.map_cons, List.map_cons, hhead.id, ih]

theorem Refreshed.trans {seats'' : List Seat} (h : Refreshed seats seats')
    (h' : Refreshed seats' seats'') : Refreshed seats seats'' := by
  constructor
  · obtain ⟨hall, -⟩ := h
    obtain ⟨hall', -⟩ := h'
    induction hall generalizing seats'' with
    | nil =>
      cases hall'
      exact .nil
    | cons hhead _ ih =>
      cases hall' with
      | cons hhead' hall' => exact .cons (hhead.trans hhead') (ih hall')
  · intro hids s hs
    exact h'.keeps (h.ids ▸ hids) s (h.keeps hids s hs)

theorem Refreshed.source (h : Refreshed seats seats') (hs : s ∈ seats') :
    ∃ r ∈ seats, Recoded r s := by
  obtain ⟨i, hi, rfl⟩ := List.getElem_of_mem hs
  exact ⟨_, List.getElem_mem _, h.recoded.get (h.recoded.length_eq ▸ hi) hi⟩

theorem Repaired.refreshed (h : Repaired classId firstHash lastHash seats seats') :
    Refreshed seats seats' :=
  ⟨h.recoded.imp fun _ _ hs ↦ hs.1, fun hids _ hs ↦ h.holdsAlone (List.Nodup.of_map _ hids) hs⟩

theorem repairNames_ok {rows : List PreparedRow}
    (h : repairNames T classId S draws rows = .ok S') :
    ∃ seats', S' = { S with seats := seats' } ∧ Refreshed S.seats seats' ∧
      (ApartBut classId (rows.map (·.key T classId)) S.seats → ApartBut classId [] seats') := by
  induction rows generalizing S draws with
  | nil =>
    rw [repairNames, pure_eq_ok] at h
    subst h
    exact ⟨S.seats, rfl, Refreshed.refl S.seats, id⟩
  | cons row rows ih =>
    simp only [repairNames, bind_eq_ok, Prod.exists] at h
    obtain ⟨S₁, draws₁, hrepair, hrest⟩ := h
    obtain ⟨seats₁, rfl, hrepaired⟩ := ensureDistinctClaimCodes_ok hrepair
    obtain ⟨seats', rfl, hrefreshed, hapart⟩ := ih hrest
    refine ⟨seats', rfl, hrepaired.refreshed.trans hrefreshed, ?_⟩
    intro hbut
    exact hapart (hrepaired.apartBut hbut)

theorem firstOfNames_covers (seen : List (String × String)) (rows : List PreparedRow) :
    ∀ row ∈ rows, row.key T classId ∈ seen ∨
      row.key T classId ∈ (firstOfNames T classId seen rows).map (·.key T classId) := by
  induction rows generalizing seen with
  | nil => simp
  | cons r rows ih =>
    intro row hrow
    rw [firstOfNames]
    split_ifs with hseen
    · rcases List.mem_cons.1 hrow with rfl | hrow
      · exact .inl hseen
      · exact ih seen row hrow
    · rw [List.map_cons, List.mem_cons]
      rcases List.mem_cons.1 hrow with rfl | hrow
      · exact .inr (.inl rfl)
      · rcases ih (r.key T classId :: seen) row hrow with hmem | hmem
        · rcases List.mem_cons.1 hmem with heq | hmem
          · exact .inr (.inl heq)
          · exact .inl hmem
        · exact .inr (.inr hmem)

end Repair

end TokenHub.Identity
