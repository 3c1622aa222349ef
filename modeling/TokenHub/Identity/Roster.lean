import TokenHub.Identity.ClaimCodes

set_option autoImplicit false

namespace TokenHub.Identity

open Ledger Lib.Checks

variable {T : Texts} {D : ClassDirectory T} {S S' : IdentityState} {s t : Seat}

section Lookups

theorem ClassDirectory.find_some {classId : String} {c : ClassEconomy}
    (h : D.find classId = some c) : c ∈ D.rows ∧ c.classId = classId := by
  rw [find] at h
  exact ⟨List.mem_of_find?_eq_some h, by simpa using List.find?_some h⟩

theorem ClassDirectory.findByJoinCode_own {c : ClassEconomy} (hc : c ∈ D.rows) :
    D.findByJoinCode c.joinCode = some c := by
  obtain ⟨hne, hnormal⟩ := D.normal c hc
  rw [findByJoinCode, if_neg hne, hnormal]
  cases hfind : D.rows.find? (·.joinCode = c.joinCode) with
  | none => exact absurd (decide_eq_true rfl) (List.find?_eq_none.1 hfind c hc)
  | some c' =>
    have hcode : c'.joinCode = c.joinCode := by simpa using List.find?_some hfind
    rw [List.inj_on_of_nodup_map D.joinCodes (List.mem_of_find?_eq_some hfind) hc hcode]

theorem seat_some {seatId : ℕ} (h : S.seat seatId = some s) : s ∈ S.seats ∧ s.id = seatId := by
  rw [IdentityState.seat] at h
  exact ⟨List.mem_of_find?_eq_some h, by simpa using List.find?_some h⟩

theorem profile_some {seatId : ℕ} {p : IdentityProfile} (h : S.profile seatId = some p) :
    p ∈ S.profiles ∧ p.seatId = seatId := by
  rw [IdentityState.profile] at h
  exact ⟨List.mem_of_find?_eq_some h, by simpa using List.find?_some h⟩

theorem eq_singleton {α : Type} {l : List α} {a : α} (hnodup : l.Nodup) (ha : a ∈ l)
    (honly : ∀ b ∈ l, b = a) : l = [a] := by
  match l, ha with
  | [b], _ => rw [honly b List.mem_cons_self]
  | b :: c :: l, _ =>
    have hb := honly b List.mem_cons_self
    have hc := honly c (List.mem_cons_of_mem b List.mem_cons_self)
    rw [hb, hc] at hnodup
    exact absurd List.mem_cons_self (List.nodup_cons.1 hnodup).1

end Lookups

section Resolution

variable {unclaimed : List Seat} {classId firstName lastName dedupeCode : String}

def named (T : Texts) (unclaimed : List Seat) (classId firstName lastName : String) : List Seat :=
  unclaimed.filter (fun s ↦
    s.claimFirstNameHash = some (hashClaimName T firstName classId .first) ∧
    s.claimLastNameHash = some (hashClaimName T lastName classId .last))

theorem mem_named : s ∈ named T unclaimed classId firstName lastName ↔ s ∈ unclaimed ∧
    s.claimFirstNameHash = some (hashClaimName T firstName classId .first) ∧
    s.claimLastNameHash = some (hashClaimName T lastName classId .last) := by
  rw [named, List.mem_filter, decide_eq_true_iff]

/-- A name and a code pick out a seat when it alone has the name, or alone of them the code. -/
theorem matchSeat_ok_iff (hnodup : unclaimed.Nodup) :
    matchSeat T unclaimed classId firstName lastName dedupeCode = .ok s ↔
      s ∈ named T unclaimed classId firstName lastName ∧
      ∀ t ∈ named T unclaimed classId firstName lastName, t ≠ s →
        dedupeCode ≠ "" ∧ s.dedupeCode = some dedupeCode ∧ t.dedupeCode ≠ some dedupeCode := by
  have hmatched : (named T unclaimed classId firstName lastName).Nodup := hnodup.filter _
  rw [matchSeat, ← named]
  generalize named T unclaimed classId firstName lastName = matched at hmatched ⊢
  match matched, hmatched with
  | [], _ => simp [throw, throwThe, MonadExceptOf.throw]
  | [r], _ =>
    simp only [pure_eq_ok, List.mem_singleton]
    constructor
    · rintro rfl
      exact ⟨rfl, fun t ht hne ↦ absurd ht hne⟩
    · rintro ⟨rfl, -⟩
      rfl
  | r :: r' :: rest, hmatched =>
    simp only [require_bind_eq_ok]
    generalize hl : r :: r' :: rest = matched at hmatched
    constructor
    · rintro ⟨hcode, h⟩
      have hfilter : matched.filter (·.dedupeCode = some dedupeCode) = [s] := by
        split at h
        · rename_i r hfilter
          rw [pure_eq_ok] at h
          rw [hfilter, h]
        · cases h
      have hs : s ∈ matched.filter (·.dedupeCode = some dedupeCode) :=
        hfilter ▸ List.mem_cons_self
      rw [List.mem_filter, decide_eq_true_iff] at hs
      refine ⟨hs.1, ?_⟩
      intro t ht hne
      refine ⟨hcode, hs.2, ?_⟩
      intro ht'
      have hmem : t ∈ matched.filter (·.dedupeCode = some dedupeCode) :=
        List.mem_filter.2 ⟨ht, decide_eq_true ht'⟩
      rw [hfilter, List.mem_singleton] at hmem
      exact hne hmem
    · rintro ⟨hs, hothers⟩
      obtain ⟨t, ht, hne⟩ : ∃ t ∈ matched, t ≠ s := by
        by_contra honly
        push Not at honly
        have hsingle := eq_singleton hmatched hs honly
        rw [← hl] at hsingle
        cases hsingle
      obtain ⟨hcode, hcode', -⟩ := hothers t ht hne
      refine ⟨hcode, ?_⟩
      rw [eq_singleton (hmatched.filter (·.dedupeCode = some dedupeCode))
        (List.mem_filter.2 ⟨hs, decide_eq_true hcode'⟩)]
      · rfl
      · intro t ht
        rw [List.mem_filter, decide_eq_true_iff] at ht
        by_contra hne
        exact (hothers t ht.1 hne).2.2 ht.2

theorem resolveSeatClaim_ok_iff {joinCode : String} {seatId claimGeneration : ℕ}
    (hids : (S.seats.map (·.id)).Nodup) :
    resolveSeatClaim T D S joinCode firstName lastName dedupeCode =
        .ok (seatId, claimGeneration) ↔
      ∃ c, D.findByJoinCode joinCode = some c ∧
        ∃ s ∈ S.seats, s.classId = c.classId ∧ s.userId = none ∧ s.id = seatId ∧
          s.claimGeneration = claimGeneration ∧
          matchSeat T (S.seats.filter (fun s ↦ s.classId = c.classId ∧ s.userId = none)) c.classId
            firstName lastName dedupeCode = .ok s := by
  rw [resolveSeatClaim, demand_bind_eq_ok]
  apply exists_congr
  intro c
  refine and_congr_right fun _ ↦ ?_
  rw [require_bind_eq_ok]
  simp only [bind_eq_ok, pure_eq_ok, Prod.mk.injEq]
  constructor
  · rintro ⟨-, s, hmatch, rfl, rfl⟩
    have hnodup : (S.seats.filter (fun s ↦ s.classId = c.classId ∧ s.userId = none)).Nodup :=
      (List.Nodup.of_map _ hids).filter _
    obtain ⟨hs, -⟩ := mem_named.1 ((matchSeat_ok_iff hnodup).1 hmatch).1
    rw [List.mem_filter, decide_eq_true_iff] at hs
    exact ⟨s, hs.1, hs.2.1, hs.2.2, rfl, rfl, hmatch⟩
  · rintro ⟨s, hs, hclass, huser, rfl, rfl, hmatch⟩
    refine ⟨?_, s, hmatch, rfl, rfl⟩
    exact List.ne_nil_of_mem (List.mem_filter.2 ⟨hs, decide_eq_true ⟨hclass, huser⟩⟩)

end Resolution

section Invariant

def Seat.HashesName (T : Texts) (s : Seat) (p : IdentityProfile) : Prop :=
  s.claimFirstNameHash = some (hashClaimName T p.firstName s.classId .first) ∧
    s.claimLastNameHash = some (hashClaimName T p.lastName s.classId .last)

/-- What the identity commands keep true of the seats and their profiles. -/
structure RosterInvariant (T : Texts) (D : ClassDirectory T) (S : IdentityState) : Prop where
  ids : (S.seats.map (·.id)).Nodup
  issued : ∀ s ∈ S.seats, s.id ≤ S.lastSeatId
  profiled : ∀ p ∈ S.profiles, p.seatId ≤ S.lastSeatId
  inClass : ∀ s ∈ S.seats, s.role = "student" → ∃ c, D.find s.classId = some c
  named : ∀ s ∈ S.seats, s.role = "student" →
    ∃ p, S.profile s.id = some p ∧ (s.userId = none → s.HashesName T p)
  unnamed : ∀ s ∈ S.seats, s.role ≠ "student" → s.claimFirstNameHash = none

theorem RosterInvariant.seat_inj (h : RosterInvariant T D S) (hs : s ∈ S.seats) (ht : t ∈ S.seats)
    (hid : s.id = t.id) : s = t :=
  List.inj_on_of_nodup_map h.ids hs ht hid

theorem RosterInvariant.nodup (h : RosterInvariant T D S) : S.seats.Nodup :=
  List.Nodup.of_map _ h.ids

/-- The seats that a class's code and a seat's roster name match are its namesakes. -/
theorem RosterInvariant.mem_named_iff (h : RosterInvariant T D S) {c : ClassEconomy}
    {p : IdentityProfile} (hclass : c.classId = s.classId) (hname : s.HashesName T p)
    (hrole : s.role = "student") (huser : s.userId = none) :
    t ∈ Identity.named T (S.seats.filter (fun s ↦ s.classId = c.classId ∧ s.userId = none)) c.classId
      p.firstName p.lastName ↔ t ∈ S.seats ∧ Namesakes s t := by
  rw [mem_named, List.mem_filter, decide_eq_true_iff, hclass]
  constructor
  · rintro ⟨⟨ht, hclass', huser'⟩, hfirst, hlast⟩
    have hrole' : t.role = "student" := by
      by_contra hrole'
      rw [h.unnamed t ht hrole'] at hfirst
      cases hfirst
    exact ⟨ht, _, _, _, ⟨rfl, hrole, huser, hname.1, hname.2⟩,
      ⟨hclass', hrole', huser', hfirst, hlast⟩⟩
  · rintro ⟨ht, hnames⟩
    have hs : s.IsNamesake s.classId (hashClaimName T p.firstName s.classId .first)
        (hashClaimName T p.lastName s.classId .last) := ⟨rfl, hrole, huser, hname.1, hname.2⟩
    obtain ⟨hclass', -, huser', hfirst, hlast⟩ := hs.of_namesakes hnames
    exact ⟨⟨ht, hclass', huser'⟩, hfirst, hlast⟩

/-- A seat is claimed by its class's code, its roster name and its own code. -/
def Claimable (T : Texts) (D : ClassDirectory T) (S : IdentityState) (s : Seat) : Prop :=
  ∃ c p, D.find s.classId = some c ∧ S.profile s.id = some p ∧
    resolveSeatClaim T D S c.joinCode p.firstName p.lastName s.code =
      .ok (s.id, s.claimGeneration)

def EachClaimable (T : Texts) (D : ClassDirectory T) (S : IdentityState) : Prop :=
  ∀ s ∈ S.seats, s.role = "student" → s.userId = none → Claimable T D S s

def ResolvesByName (T : Texts) (D : ClassDirectory T) (S : IdentityState) : Prop :=
  ∀ joinCode firstName lastName dedupeCode seatId claimGeneration,
    resolveSeatClaim T D S joinCode firstName lastName dedupeCode =
      .ok (seatId, claimGeneration) →
    ∃ p, S.profile seatId = some p ∧ normalizeName T p.firstName = normalizeName T firstName ∧
      normalizeName T p.lastName = normalizeName T lastName

theorem RosterInvariant.claimable_iff (h : RosterInvariant T D S) (hs : s ∈ S.seats)
    (hrole : s.role = "student") (huser : s.userId = none) :
    Claimable T D S s ↔ ∀ t ∈ S.seats, t ≠ s → Namesakes s t → s.code ≠ "" ∧ s.code ≠ t.code := by
  obtain ⟨c, hfind⟩ := h.inClass s hs hrole
  obtain ⟨p, hprofile, hname⟩ := h.named s hs hrole
  obtain ⟨hc, hclass⟩ := ClassDirectory.find_some hfind
  have hnodup : (S.seats.filter (fun s ↦ s.classId = c.classId ∧ s.userId = none)).Nodup :=
    h.nodup.filter _
  have hself : Namesakes s s :=
    ⟨_, _, _, ⟨rfl, hrole, huser, hname huser⟩, ⟨rfl, hrole, huser, hname huser⟩⟩
  simp only [Claimable, hfind, hprofile, Option.some.injEq, resolveSeatClaim_ok_iff h.ids]
  constructor
  · rintro ⟨_, _, rfl, rfl, c', hfound, s', hs', -, -, hid, -, hmatch⟩ t ht hne hnames
    rw [ClassDirectory.findByJoinCode_own hc, Option.some.injEq] at hfound
    subst hfound
    obtain rfl := h.seat_inj hs' hs hid
    have hothers := ((matchSeat_ok_iff hnodup).1 hmatch).2
    obtain ⟨hcode, hcode', hdiffer⟩ := hothers t
      ((h.mem_named_iff hclass (hname huser) hrole huser).2 ⟨ht, hnames⟩) hne
    refine ⟨hcode, ?_⟩
    intro heq
    rw [heq] at hcode hdiffer
    exact hdiffer (Seat.dedupeCode_of_code hcode)
  · intro hapart
    refine ⟨c, p, rfl, rfl, c, ClassDirectory.findByJoinCode_own hc, s, hs, hclass.symm, huser, rfl,
      rfl, ?_⟩
    rw [matchSeat_ok_iff hnodup]
    refine ⟨(h.mem_named_iff hclass (hname huser) hrole huser).2 ⟨hs, hself⟩, ?_⟩
    intro t ht hne
    obtain ⟨ht, hnames⟩ := (h.mem_named_iff hclass (hname huser) hrole huser).1 ht
    obtain ⟨hcode, hdiffer⟩ := hapart t ht hne hnames
    refine ⟨hcode, Seat.dedupeCode_of_code hcode, ?_⟩
    intro ht
    apply hdiffer
    rw [Seat.code, Seat.code, ht, Seat.dedupeCode_of_code hcode]

/-- The seats are claimable when namesakes are told apart by their codes. -/
theorem RosterInvariant.eachClaimable_iff (h : RosterInvariant T D S) :
    EachClaimable T D S ↔ S.seats.Pairwise Apart := by
  constructor
  · intro hclaimable
    refine h.nodup.pairwise_of_forall_ne ?_
    intro s hs t ht hne hnames
    obtain ⟨-, -, -, ⟨-, hrole, huser, -⟩, ⟨-, hrole', huser', -⟩⟩ := id hnames
    have hfirst := (h.claimable_iff hs hrole huser).1 (hclaimable s hs hrole huser)
    have hsecond := (h.claimable_iff ht hrole' huser').1 (hclaimable t ht hrole' huser')
    exact ⟨(hfirst t ht hne.symm hnames).1, (hsecond s hs hne hnames.symm).1,
      (hfirst t ht hne.symm hnames).2⟩
  · intro hapart s hs hrole huser
    rw [h.claimable_iff hs hrole huser]
    intro t ht hne hnames
    have : Std.Symm Apart := ⟨fun _ _ ↦ Apart.symm⟩
    obtain ⟨hcode, -, hdiffer⟩ := hapart.forall hs ht hne.symm hnames
    exact ⟨hcode, hdiffer⟩

theorem RosterInvariant.resolvesByName (h : RosterInvariant T D S) (hT : T.Separates) :
    ResolvesByName T D S := by
  intro joinCode firstName lastName dedupeCode seatId claimGeneration hok
  obtain ⟨c, -, s, hs, hclass, huser, rfl, -, hmatch⟩ := (resolveSeatClaim_ok_iff h.ids).1 hok
  have hmem := ((matchSeat_ok_iff (h.nodup.filter _)).1 hmatch).1
  obtain ⟨-, hfirst, hlast⟩ := mem_named.1 hmem
  have hrole : s.role = "student" := by
    by_contra hrole
    rw [h.unnamed s hs hrole] at hfirst
    cases hfirst
  obtain ⟨p, hprofile, hname⟩ := h.named s hs hrole
  obtain ⟨hfirst', hlast'⟩ := hname huser
  refine ⟨p, hprofile, ?_, ?_⟩
  · exact (hT.hashClaimName T (Option.some.inj (hfirst'.symm.trans hfirst))).2
  · exact (hT.hashClaimName T (Option.some.inj (hlast'.symm.trans hlast))).2

end Invariant

end TokenHub.Identity
