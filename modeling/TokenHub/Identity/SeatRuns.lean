import TokenHub.Identity.Roster
import TokenHub.Lib.Json
import TokenHub.Lib.Runs

set_option autoImplicit false

namespace TokenHub.Identity

open Ledger Lib.Checks Lib.Runs
open Rent (Instant)

variable {T : Texts} {D : ClassDirectory T} {S S' : IdentityState} {s t : Seat}

section Moves

/-- A rewrite of the seats that keeps what they are, and keeps the names under their hashes. -/
theorem RosterInvariant.of_source (h : RosterInvariant T D S)
    (hids : S'.seats.map (·.id) = S.seats.map (·.id)) (hlast : S'.lastSeatId = S.lastSeatId)
    (hprofiled : ∀ p ∈ S'.profiles, p.seatId ≤ S.lastSeatId)
    (hsource : ∀ s' ∈ S'.seats, ∃ s ∈ S.seats,
      s'.id = s.id ∧ s'.classId = s.classId ∧ s'.role = s.role ∧
      (s.role = "student" →
        ∃ p, S'.profile s.id = some p ∧ (s'.userId = none → s'.HashesName T p)) ∧
      (s.role ≠ "student" → s'.claimFirstNameHash = none)) : RosterInvariant T D S' := by
  refine ⟨hids ▸ h.ids, ?_, hlast ▸ hprofiled, ?_, ?_, ?_⟩
  · intro s' hs'
    obtain ⟨s, hs, hid, -⟩ := hsource s' hs'
    rw [hid, hlast]
    exact h.issued s hs
  · intro s' hs' hrole
    obtain ⟨s, hs, -, hclass, hrole', -⟩ := hsource s' hs'
    rw [hclass]
    exact h.inClass s hs (hrole'.symm.trans hrole)
  · intro s' hs' hrole
    obtain ⟨s, -, hid, -, hrole', hnamed, -⟩ := hsource s' hs'
    rw [hid]
    exact hnamed (hrole'.symm.trans hrole)
  · intro s' hs' hrole
    obtain ⟨s, -, -, -, hrole', -, hunnamed⟩ := hsource s' hs'
    exact hunnamed fun hstudent ↦ hrole (hrole'.trans hstudent)

theorem RosterInvariant.refreshed {seats' : List Seat} (h : RosterInvariant T D S)
    (hseats : Refreshed S.seats seats') : RosterInvariant T D { S with seats := seats' } := by
  refine h.of_source hseats.ids rfl h.profiled ?_
  intro s' hs'
  obtain ⟨s, hs, hrecoded⟩ := hseats.source hs'
  rw [hrecoded.same]
  exact ⟨s, hs, rfl, rfl, rfl, h.named s hs, h.unnamed s hs⟩

structure FreshSeat (T : Texts) (D : ClassDirectory T) (S : IdentityState) (seat : Seat)
    (firstName lastName : String) : Prop where
  id : seat.id = S.lastSeatId + 1
  role : seat.role = "student"
  unclaimed : seat.userId = none
  inClass : ∃ c, D.find seat.classId = some c
  first : seat.claimFirstNameHash = some (hashClaimName T firstName seat.classId .first)
  last : seat.claimLastNameHash = some (hashClaimName T lastName seat.classId .last)

variable {seat : Seat} {firstName lastName : String} {notes : Option String}

theorem addSeat_profile {n : ℕ} {p : IdentityProfile} (h : S.profile n = some p) :
    (addSeat S seat firstName lastName notes).profile n = some p := by
  rw [IdentityState.profile] at h ⊢
  exact List.find?_append.trans (by rw [h]; rfl)

theorem addSeat_profile_self (hfresh : ∀ p ∈ S.profiles, p.seatId ≠ seat.id) :
    (addSeat S seat firstName lastName notes).profile seat.id = some
      { seatId := seat.id, classId := seat.classId, profileType := "student"
        firstName := firstName, lastName := lastName, notes := notes } := by
  have hnone : S.profiles.find? (·.seatId = seat.id) = none := by
    rw [List.find?_eq_none]
    intro p hp hid
    exact hfresh p hp (of_decide_eq_true hid)
  rw [IdentityState.profile]
  refine List.find?_append.trans ?_
  rw [hnone, Option.none_or, List.find?_singleton, if_pos (decide_eq_true rfl)]

theorem RosterInvariant.addSeat (h : RosterInvariant T D S)
    (hseat : FreshSeat T D S seat firstName lastName) :
    RosterInvariant T D (addSeat S seat firstName lastName notes) := by
  have hlater : ∀ n ≤ S.lastSeatId, n ≠ seat.id := by
    intro n hn
    have hid := hseat.id
    omega
  have hlast : S.lastSeatId ≤ seat.id := by
    have hid := hseat.id
    omega
  refine ⟨?_, ?_, ?_, ?_, ?_, ?_⟩
  · change ((S.seats ++ [seat]).map (·.id)).Nodup
    rw [List.map_append, List.nodup_append]
    refine ⟨h.ids, List.nodup_singleton _, ?_⟩
    intro n hn m hm
    obtain ⟨s, hs, rfl⟩ := List.mem_map.1 hn
    rw [List.map_singleton, List.mem_singleton] at hm
    exact hm ▸ hlater s.id (h.issued s hs)
  · intro s hs
    rcases List.mem_append.1 hs with hs | hs
    · exact (h.issued s hs).trans hlast
    · rw [List.mem_singleton.1 hs]
      exact le_rfl
  · intro p hp
    rcases List.mem_append.1 hp with hp | hp
    · exact (h.profiled p hp).trans hlast
    · rw [List.mem_singleton.1 hp]
      exact le_rfl
  · intro s hs hrole
    rcases List.mem_append.1 hs with hs | hs
    · exact h.inClass s hs hrole
    · exact List.mem_singleton.1 hs ▸ hseat.inClass
  · intro s hs hrole
    rcases List.mem_append.1 hs with hs | hs
    · obtain ⟨p, hp, hname⟩ := h.named s hs hrole
      exact ⟨p, addSeat_profile hp, hname⟩
    · rw [List.mem_singleton] at hs
      rw [hs]
      refine ⟨_, addSeat_profile_self ?_, fun _ ↦ ⟨hseat.first, hseat.last⟩⟩
      exact fun p hp ↦ hlater p.seatId (h.profiled p hp)
  · intro s hs hrole
    rcases List.mem_append.1 hs with hs | hs
    · exact h.unnamed s hs hrole
    · exact absurd (List.mem_singleton.1 hs ▸ hseat.role) hrole

theorem RosterInvariant.bound {seatId userId : ℕ} {now : Instant} {users : List User}
    {lastUserId : ℕ} (h : RosterInvariant T D S) :
    RosterInvariant T D { S.setSeat seatId (·.bound userId now) with
      users := users, lastUserId := lastUserId } := by
  refine h.of_source ?_ rfl h.profiled ?_
  · change (S.seats.map _).map _ = _
    rw [List.map_map]
    refine List.map_congr_left ?_
    intro s _
    simp only [Function.comp_apply]
    split_ifs <;> rfl
  · intro s' hs'
    obtain ⟨s, hs, rfl⟩ := List.mem_map.1 hs'
    refine ⟨s, hs, ?_⟩
    obtain hnamed := h.named s hs
    split_ifs with hid
    · refine ⟨rfl, rfl, rfl, ?_, fun _ ↦ rfl⟩
      intro hrole
      obtain ⟨p, hp, -⟩ := h.named s hs hrole
      exact ⟨p, hp, fun huser ↦ by cases huser⟩
    · exact ⟨rfl, rfl, rfl, h.named s hs, h.unnamed s hs⟩

theorem detachSeat_profile {userId n : ℕ} {p : IdentityProfile} (h : S.profile n = some p) :
    (detachSeat T S seat userId firstName lastName).profile n =
      some (if n = seat.id then { p with firstName := firstName, lastName := lastName } else p) := by
  have hid := (profile_some h).2
  have hsame : ((fun p : IdentityProfile ↦ decide (p.seatId = n)) ∘ fun p : IdentityProfile ↦
      if p.seatId = seat.id then { p with firstName := firstName, lastName := lastName } else p) =
      fun p ↦ decide (p.seatId = n) := by
    funext p
    rw [Function.comp_apply]
    split_ifs <;> rfl
  rw [IdentityState.profile] at h ⊢
  refine List.find?_map.trans ?_
  rw [hsame, h, Option.map_some, hid]

theorem RosterInvariant.detachSeat {userId : ℕ} (h : RosterInvariant T D S) (hseat : seat ∈ S.seats)
    (hrole : seat.role = "student") :
    RosterInvariant T D (detachSeat T S seat userId firstName lastName) := by
  refine h.of_source ?_ rfl ?_ ?_
  · change (S.seats.map _).map _ = _
    rw [List.map_map]
    refine List.map_congr_left ?_
    intro s _
    simp only [Function.comp_apply]
    split_ifs <;> rfl
  · intro p' hp'
    obtain ⟨p, hp, rfl⟩ := List.mem_map.1 hp'
    have hprofiled := h.profiled p hp
    split_ifs <;> exact hprofiled
  · intro s' hs'
    obtain ⟨s, hs, rfl⟩ := List.mem_map.1 hs'
    refine ⟨s, hs, ?_⟩
    by_cases hid : s.id = seat.id
    · obtain rfl := h.seat_inj hs hseat hid
      rw [if_pos rfl]
      refine ⟨rfl, rfl, rfl, ?_, fun hother ↦ absurd hrole hother⟩
      intro _
      obtain ⟨p, hp, -⟩ := h.named s hs hrole
      refine ⟨_, detachSeat_profile hp, ?_⟩
      rw [if_pos rfl]
      exact fun _ ↦ ⟨rfl, rfl⟩
    · rw [if_neg hid]
      refine ⟨rfl, rfl, rfl, ?_, h.unnamed s hs⟩
      intro hrole'
      obtain ⟨p, hp, hname⟩ := h.named s hs hrole'
      refine ⟨_, detachSeat_profile hp, ?_⟩
      rw [if_neg hid]
      exact hname

end Moves

section Codes

variable {seat : Seat} {firstName lastName classId : String} {notes : Option String}
  {row : PreparedRow} {names : List (String × String)} {seatId userId : ℕ} {now : Instant}

theorem not_isNamesake_bound {firstHash lastHash : String} :
    ¬ (s.bound userId now).IsNamesake classId firstHash lastHash := by
  rintro ⟨-, -, huser, -⟩
  cases huser

theorem pairwise_bound (h : S.seats.Pairwise Apart) :
    (S.setSeat seatId (·.bound userId now)).seats.Pairwise Apart := by
  refine List.pairwise_map.2 (h.imp ?_)
  intro s t hapart hnames
  obtain ⟨c, f, l, hs, ht⟩ := id hnames
  split_ifs at hs ht hnames ⊢ with hsid htid htid
  · exact absurd hs not_isNamesake_bound
  · exact absurd hs not_isNamesake_bound
  · exact absurd ht not_isNamesake_bound
  · exact hapart hnames

theorem pairwise_addSeat : (addSeat S seat firstName lastName notes).seats.Pairwise Apart ↔
    S.seats.Pairwise Apart ∧ ∀ s ∈ S.seats, Apart s seat := by
  change (S.seats ++ [seat]).Pairwise Apart ↔ _
  simp [List.pairwise_append]

theorem addPreparedRow_apartBut (h : ApartBut classId names S.seats)
    (hkey : row.key T classId ∈ names) :
    ApartBut classId names (addPreparedRow T classId S row).seats := by
  refine List.pairwise_append.2 ⟨h, List.pairwise_singleton _ _, ?_⟩
  intro s _ t ht hnot hnames
  rw [List.mem_singleton] at ht
  have hrow : t.IsNamesake classId (row.key T classId).1 (row.key T classId).2 := by
    rw [ht]
    exact ⟨rfl, rfl, rfl, rfl, rfl⟩
  exact absurd ⟨_, hkey, hrow.of_namesakes hnames.symm⟩ hnot

theorem HoldsAlone.addPreparedRow (h : HoldsAlone S.seats s) :
    HoldsAlone (addPreparedRow T classId S row).seats s := by
  refine ⟨List.mem_append_left _ h.mem, h.code, ?_⟩
  intro t ht hne hnames
  rcases List.mem_append.1 ht with ht | ht
  · exact h.alone t ht hne hnames
  · rw [List.mem_singleton] at ht
    rw [ht]
    exact h.code.symm

theorem RosterInvariant.addPreparedRow (h : RosterInvariant T D S)
    (hclass : ∃ c, D.find classId = some c) :
    RosterInvariant T D (addPreparedRow T classId S row) :=
  h.addSeat ⟨rfl, rfl, rfl, hclass, rfl, rfl⟩

theorem foldl_addPreparedRow {rows : List PreparedRow} (h : RosterInvariant T D S)
    (hclass : ∃ c, D.find classId = some c) (hkeys : ∀ row ∈ rows, row.key T classId ∈ names) :
    RosterInvariant T D (rows.foldl (addPreparedRow T classId) S) ∧
      (ApartBut classId names S.seats →
        ApartBut classId names (rows.foldl (addPreparedRow T classId) S).seats) ∧
      ∀ s, HoldsAlone S.seats s →
        HoldsAlone (rows.foldl (addPreparedRow T classId) S).seats s := by
  induction rows generalizing S with
  | nil => exact ⟨h, id, fun _ hs ↦ hs⟩
  | cons row rows ih =>
    have hadded : RosterInvariant T D (Identity.addPreparedRow T classId S row) :=
      h.addPreparedRow hclass
    obtain ⟨hroster, hapart, hcodes⟩ := ih hadded fun r hr ↦ hkeys r (List.mem_cons_of_mem row hr)
    refine ⟨hroster, ?_, ?_⟩
    · intro hbut
      exact hapart (addPreparedRow_apartBut hbut (hkeys row List.mem_cons_self))
    · intro s hs
      exact hcodes s hs.addPreparedRow

theorem detachSeat_apartBut (hi : RosterInvariant T D S) (hseat : seat ∈ S.seats)
    (hrole : seat.role = "student") (h : S.seats.Pairwise Apart) :
    ApartBut seat.classId [(hashClaimName T firstName seat.classId .first,
      hashClaimName T lastName seat.classId .last)]
      (detachSeat T S seat userId firstName lastName).seats := by
  have hnamed : ∀ s ∈ S.seats, s.id = seat.id → (s.unclaimed T firstName lastName).IsNamesake
      seat.classId (hashClaimName T firstName seat.classId .first)
      (hashClaimName T lastName seat.classId .last) := by
    intro s hs hid
    rw [hi.seat_inj hs hseat hid]
    exact ⟨rfl, hrole, rfl, rfl, rfl⟩
  refine List.pairwise_map.2 (List.Pairwise.imp_of_mem ?_ h)
  intro s t hs ht hapart hnot hnames
  split_ifs at hnot hnames ⊢ with hsid htid htid
  · exact absurd ⟨_, List.mem_singleton_self _, hnamed s hs hsid⟩ hnot
  · exact absurd ⟨_, List.mem_singleton_self _, hnamed s hs hsid⟩ hnot
  · exact absurd ⟨_, List.mem_singleton_self _, (hnamed t ht htid).of_namesakes hnames.symm⟩ hnot
  · exact hapart hnames

theorem HoldsAlone.detachSeat (h : HoldsAlone S.seats s) (hne : s.id ≠ seat.id) :
    HoldsAlone (detachSeat T S seat userId firstName lastName).seats s := by
  refine ⟨List.mem_map.2 ⟨s, h.mem, if_neg hne⟩, h.code, ?_⟩
  intro t' ht' hts hnames
  obtain ⟨t, ht, rfl⟩ := List.mem_map.1 ht'
  split_ifs at hts hnames ⊢ with hid
  · exact h.code.symm
  · exact h.alone t ht hts hnames

end Codes

section Commands

variable {ctx : CanonicalContext} {rows : List RosterRow} {draws : List ClaimCode}
  {classId firstName lastName dedupeCode joinCode : String} {notes : Option String}
  {hasReceivedRentExemption : Bool} {n seatId userId : ℕ} {generation : Option ℕ} {now : Instant}
  {credentials : Credentials} {proven : Seat → Bool}

structure Settles (T : Texts) (D : ClassDirectory T) (about : ℕ → Prop) (S S' : IdentityState) :
    Prop where
  roster : RosterInvariant T D S'
  apart : S.seats.Pairwise Apart → S'.seats.Pairwise Apart
  codes : ∀ s, HoldsAlone S.seats s → ¬ about s.id → s ∈ S'.seats

theorem RosterInvariant.settles (h : RosterInvariant T D S) (about : ℕ → Prop) :
    Settles T D about S S :=
  ⟨h, id, fun _ hs _ ↦ hs.mem⟩

theorem importStudentSeats_settles (hi : RosterInvariant T D S) (about : ℕ → Prop)
    (h : importStudentSeats T D S ctx rows draws = .ok (n, S')) : Settles T D about S S' := by
  simp only [importStudentSeats] at h
  rw [require_bind_eq_ok, require_bind_eq_ok, require_bind_eq_ok] at h
  obtain ⟨-, ⟨-, c, hc, -⟩, -, h⟩ := h
  simp only [bind_eq_ok, pure_eq_ok, Prod.mk.injEq] at h
  obtain ⟨prepared, -, S₂, hrepair, -, rfl⟩ := h
  have hcovers : ∀ row ∈ prepared, row.key T ctx.classId ∈
      (firstOfNames T ctx.classId [] prepared).map (·.key T ctx.classId) := by
    intro row hrow
    rcases firstOfNames_covers [] prepared row hrow with hnil | hmem
    · cases hnil
    · exact hmem
  obtain ⟨hroster, hapart, hcodes⟩ := foldl_addPreparedRow hi ⟨c, hc⟩ hcovers
  obtain ⟨seats', rfl, hrefreshed, hrepaired⟩ := repairNames_ok hrepair
  refine ⟨hroster.refreshed hrefreshed, ?_, ?_⟩
  · intro hpairs
    refine apartBut_nil.1 (hrepaired (hapart ?_))
    exact (apartBut_nil.2 hpairs).mono (List.nil_subset _)
  · intro s hs _
    exact (hrefreshed.keeps hroster.ids s (hcodes s hs)).mem

theorem deleteUserIfOrphaned_seats :
    (deleteUserIfOrphaned T D S userId).seats = S.seats := by
  rw [deleteUserIfOrphaned]
  split_ifs <;> rfl

theorem RosterInvariant.deleteUserIfOrphaned (h : RosterInvariant T D S) :
    RosterInvariant T D (deleteUserIfOrphaned T D S userId) := by
  rw [Identity.deleteUserIfOrphaned]
  split_ifs
  · exact h
  · exact ⟨h.ids, h.issued, h.profiled, h.inClass, h.named, h.unnamed⟩

theorem unclaimStudentSeat_settles (hi : RosterInvariant T D S)
    (h : unclaimStudentSeat T D S ctx seatId generation firstName lastName draws = .ok (n, S')) :
    Settles T D (· = seatId) S S' := by
  simp only [unclaimStudentSeat] at h
  rw [require_bind_eq_ok, require_bind_eq_ok, require_bind_eq_ok, demand_bind_eq_ok] at h
  obtain ⟨-, -, -, seat, hfind, h⟩ := h
  rw [demand_bind_eq_ok] at h
  obtain ⟨userId, -, h⟩ := h
  rw [require_bind_eq_ok] at h
  obtain ⟨-, h⟩ := h
  simp only [bind_eq_ok, Prod.exists, pure_eq_ok, Prod.mk.injEq] at h
  obtain ⟨S₁, draws', hrepair, -, rfl⟩ := h
  rw [Option.filter_eq_some_iff, decide_eq_true_iff] at hfind
  obtain ⟨hfind, hclass, hrole⟩ := hfind
  obtain ⟨hseat, rfl⟩ := seat_some hfind
  obtain ⟨seats', rfl, hrepaired⟩ := ensureDistinctClaimCodes_ok hrepair
  have hroster : RosterInvariant T D
      (detachSeat T S seat userId (strip firstName) (strip lastName)) := hi.detachSeat hseat hrole
  refine ⟨(hroster.refreshed hrepaired.refreshed).deleteUserIfOrphaned, ?_, ?_⟩
  · intro hpairs
    rw [deleteUserIfOrphaned_seats]
    rw [← hclass] at hrepaired
    exact apartBut_nil.1 (hrepaired.apartBut (detachSeat_apartBut hi hseat hrole hpairs))
  · intro s hs hne
    rw [deleteUserIfOrphaned_seats]
    exact (hrepaired.refreshed.keeps hroster.ids s (hs.detachSeat hne)).mem

theorem bound_settles {users : List User} {lastUserId : ℕ} (hi : RosterInvariant T D S) :
    Settles T D (· = seatId) S { S.setSeat seatId (·.bound userId now) with
      users := users, lastUserId := lastUserId } := by
  refine ⟨hi.bound, pairwise_bound, ?_⟩
  intro s hs hne
  exact List.mem_map.2 ⟨s, hs.mem, if_neg hne⟩

theorem claimSeat_settles (hi : RosterInvariant T D S)
    (h : claimSeat T S now seatId generation credentials proven = .ok (n, S')) :
    Settles T D (· = seatId) S S' := by
  rw [claimSeat, require_bind_eq_ok, demand_bind_eq_ok] at h
  obtain ⟨-, seat, hfind, h⟩ := h
  rw [require_bind_eq_ok, createStudentUserForSeat, require_bind_eq_ok, pure_eq_ok,
    Prod.mk.injEq] at h
  obtain ⟨-, -, -, rfl⟩ := h
  rw [Option.filter_eq_some_iff] at hfind
  obtain ⟨-, rfl⟩ := seat_some hfind.1
  exact bound_settles hi

theorem bindAuthenticatedStudentToClass_settles (hi : RosterInvariant T D S)
    (h : bindAuthenticatedStudentToClass T D S now userId joinCode firstName lastName dedupeCode =
      .ok (n, S')) : Settles T D (· = n) S S' := by
  rw [bindAuthenticatedStudentToClass, demand_bind_eq_ok] at h
  obtain ⟨c, -, h⟩ := h
  rw [require_bind_eq_ok, require_bind_eq_ok, require_bind_eq_ok] at h
  obtain ⟨-, -, -, h⟩ := h
  simp only [bind_eq_ok, pure_eq_ok, Prod.mk.injEq] at h
  obtain ⟨s, -, rfl, rfl⟩ := h
  exact bound_settles hi

end Commands

section Runs

def Action.IsAbout (T : Texts) (D : ClassDirectory T) (S : IdentityState) (seatId : ℕ) :
    Action → Prop
  | .unclaim _ id .. => seatId = id
  | .claim _ id .. => seatId = id
  | .bind now userId joinCode firstName lastName dedupeCode =>
    ∃ S', bindAuthenticatedStudentToClass T D S now userId joinCode firstName lastName dedupeCode =
      .ok (seatId, S')
  | _ => False

/-- A step leaves every seat whose code no namesake holds, but for the one it is about. -/
def KeepsCodes (T : Texts) (D : ClassDirectory T) (S : IdentityState) (a : Action) : Prop :=
  ∀ s, HoldsAlone S.seats s → ¬ a.IsAbout T D S s.id → s ∈ (step T D S a).seats

def ProvisionsApart (T : Texts) (D : ClassDirectory T) (S : IdentityState) : Action → Prop
  | .provision ctx classId firstName lastName _ dedupeCode _ =>
    provisionChecks T D S ctx classId firstName lastName dedupeCode = .ok () →
      ∀ s ∈ namesakes S classId (hashClaimName T (strip firstName) classId .first)
        (hashClaimName T (strip lastName) classId .last),
        s.code ≠ "" ∧ dedupeCode ≠ "" ∧ s.code ≠ dedupeCode
  | _ => True

variable {ctx : CanonicalContext} {classId firstName lastName dedupeCode : String}
  {notes : Option String} {exemption : Bool}

theorem provisionChecks_class
    (h : provisionChecks T D S ctx classId firstName lastName dedupeCode = .ok ()) :
    ∃ c, D.find classId = some c := by
  simp only [provisionChecks, require_bind_eq_ok] at h
  exact Option.isSome_iff_exists.1 h.2.2.2.2.1

theorem executeProvisionStudentSeat_ok
    (h : provisionChecks T D S ctx classId firstName lastName dedupeCode = .ok ()) :
    ∃ seat, FreshSeat T D S seat (strip firstName) (strip lastName) ∧ seat.classId = classId ∧
      seat.code = dedupeCode ∧
      executeProvisionStudentSeat T D S ctx classId firstName lastName notes dedupeCode exemption =
        .ok (seat.id, addSeat S seat (strip firstName) (strip lastName) notes) := by
  let seat : Seat :=
    { id := S.lastSeatId + 1, classId := classId, role := "student"
      claimFirstNameHash := some (hashClaimName T (strip firstName) classId .first)
      claimLastNameHash := some (hashClaimName T (strip lastName) classId .last)
      dedupeCode := some dedupeCode, hasReceivedRentExemption := exemption }
  refine ⟨seat, ⟨rfl, rfl, rfl, provisionChecks_class h, rfl, rfl⟩, rfl, rfl, ?_⟩
  rw [executeProvisionStudentSeat, h]
  rfl

theorem FreshSeat.apart_iff {seat : Seat} (h : FreshSeat T D S seat firstName lastName) :
    (∀ s ∈ S.seats, Apart s seat) ↔
      ∀ s ∈ namesakes S seat.classId (hashClaimName T firstName seat.classId .first)
        (hashClaimName T lastName seat.classId .last),
        s.code ≠ "" ∧ seat.code ≠ "" ∧ s.code ≠ seat.code := by
  have hself : seat.IsNamesake seat.classId (hashClaimName T firstName seat.classId .first)
      (hashClaimName T lastName seat.classId .last) := ⟨rfl, h.role, h.unclaimed, h.first, h.last⟩
  constructor
  · intro hapart s hs
    rw [namesakes, List.mem_filter, decide_eq_true_iff] at hs
    exact hapart s hs.1 ⟨_, _, _, hs.2, hself⟩
  · intro hcodes s hs hnames
    apply hcodes
    exact List.mem_filter.2 ⟨hs, decide_eq_true (hself.of_namesakes hnames.symm)⟩

structure StepSettles (T : Texts) (D : ClassDirectory T) (S : IdentityState) (a : Action) :
    Prop where
  roster : RosterInvariant T D (step T D S a)
  apart : S.seats.Pairwise Apart →
    ((step T D S a).seats.Pairwise Apart ↔ ProvisionsApart T D S a)
  codes : KeepsCodes T D S a

theorem provision_settles (hi : RosterInvariant T D S) : StepSettles T D S
    (.provision ctx classId firstName lastName notes dedupeCode exemption) := by
  cases hchecks : provisionChecks T D S ctx classId firstName lastName dedupeCode with
  | error e =>
    have hstep : step T D S
        (.provision ctx classId firstName lastName notes dedupeCode exemption) = S := by
      simp only [step, executeProvisionStudentSeat, hchecks]
      rfl
    refine ⟨by rwa [hstep], ?_, ?_⟩
    · intro hpairs
      rw [hstep, iff_true_left hpairs, ProvisionsApart, hchecks]
      nofun
    · intro s hs _
      rw [hstep]
      exact hs.mem
  | ok u =>
    obtain ⟨⟩ := u
    obtain ⟨seat, hseat, rfl, rfl, hok⟩ : ∃ seat,
        FreshSeat T D S seat (strip firstName) (strip lastName) ∧ seat.classId = classId ∧
        seat.code = dedupeCode ∧
        executeProvisionStudentSeat T D S ctx classId firstName lastName notes dedupeCode
          exemption = .ok (seat.id, addSeat S seat (strip firstName) (strip lastName) notes) :=
      executeProvisionStudentSeat_ok hchecks
    have hstep : step T D S
        (.provision ctx seat.classId firstName lastName notes seat.code exemption) =
          addSeat S seat (strip firstName) (strip lastName) notes := by
      simp only [step, hok, committed_ok]
    refine ⟨by rw [hstep]; exact hi.addSeat hseat, ?_, ?_⟩
    · intro hpairs
      rw [hstep, pairwise_addSeat, and_iff_right hpairs, hseat.apart_iff, ProvisionsApart,
        imp_iff_right hchecks]
    · intro s hs _
      rw [hstep]
      exact List.mem_append_left _ hs.mem

theorem Settles.committed {about : ℕ → Prop} {r : Except Raise (ℕ × IdentityState)}
    (hi : RosterInvariant T D S) (h : ∀ n S', r = .ok (n, S') → Settles T D about S S') :
    Settles T D about S (committed S r) :=
  committed_relates (hi.settles about) h

theorem step_settles (hi : RosterInvariant T D S) (a : Action) : StepSettles T D S a := by
  have hother {about : ℕ → Prop} (hany : ProvisionsApart T D S a)
      (h : Settles T D about S (step T D S a)) (habout : ∀ n, about n → a.IsAbout T D S n) :
      StepSettles T D S a := by
    refine ⟨h.roster, fun hpairs ↦ iff_of_true (h.apart hpairs) hany, ?_⟩
    intro s hs hnot
    exact h.codes s hs fun hn ↦ hnot (habout s.id hn)
  cases a with
  | «import» ctx rows draws =>
    exact hother trivial (Settles.committed hi fun n S' ↦
      importStudentSeats_settles hi fun _ ↦ False) fun _ ↦ id
  | provision ctx classId firstName lastName notes dedupeCode exemption =>
    exact provision_settles hi
  | unclaim ctx seatId generation firstName lastName draws =>
    exact hother trivial (Settles.committed hi fun n S' ↦ unclaimStudentSeat_settles hi) fun _ ↦ id
  | claim now seatId generation credentials proven =>
    exact hother trivial (Settles.committed hi fun n S' ↦ claimSeat_settles hi) fun _ ↦ id
  | bind now userId joinCode firstName lastName dedupeCode =>
    cases hok : bindAuthenticatedStudentToClass T D S now userId joinCode firstName lastName
        dedupeCode with
    | error e =>
      have hstep : step T D S
          (.bind now userId joinCode firstName lastName dedupeCode) = S := by
        rw [step, hok]
        rfl
      exact hother trivial (hstep.symm ▸ hi.settles fun _ ↦ False) fun _ ↦ False.elim
    | ok out =>
      obtain ⟨n, S'⟩ := out
      have hstep : step T D S
          (.bind now userId joinCode firstName lastName dedupeCode) = S' := by
        rw [step, hok, committed_ok]
      refine hother trivial (hstep.symm ▸ bindAuthenticatedStudentToClass_settles hi hok) ?_
      rintro m rfl
      exact ⟨S', hok⟩

structure IsOpening (S : IdentityState) : Prop where
  ids : (S.seats.map (·.id)).Nodup
  issued : ∀ s ∈ S.seats, s.id ≤ S.lastSeatId
  profiled : ∀ p ∈ S.profiles, p.seatId ≤ S.lastSeatId
  noStudents : ∀ s ∈ S.seats, s.role ≠ "student" ∧ s.claimFirstNameHash = none

theorem IsOpening.roster (h : IsOpening S) : RosterInvariant T D S :=
  ⟨h.ids, h.issued, h.profiled, fun s hs hrole ↦ absurd hrole (h.noStudents s hs).1,
    fun s hs hrole ↦ absurd hrole (h.noStudents s hs).1, fun s hs _ ↦ (h.noStudents s hs).2⟩

theorem IsOpening.apart (h : IsOpening S) : S.seats.Pairwise Apart := by
  refine List.Pairwise.imp_of_mem (R := fun _ _ ↦ True) ?_ (List.pairwise_of_forall fun _ _ ↦ trivial)
  rintro s t hs - - ⟨-, -, -, ⟨-, hrole, -⟩, -⟩
  exact absurd hrole (h.noStudents s hs).1

/-- Every unclaimed seat of a run stays claimable: each state resolves a roster name and its code to
the seat that has them, and to none of another name, and each step leaves the codes of the others. -/
structure StaysClaimable (T : Texts) (D : ClassDirectory T) (S : IdentityState)
    (as : List Action) : Prop where
  each : ∀ as', as' <+: as → EachClaimable T D (run (step T D) S as')
  byName : ∀ as', as' <+: as → ResolvesByName T D (run (step T D) S as')
  codes : AllAlong (KeepsCodes T D) (step T D) S as

/-- The claimable runs are those whose provisioned seats come apart from their namesakes. -/
theorem each_claimable_iff (hi : RosterInvariant T D S) (hpairs : S.seats.Pairwise Apart)
    (as : List Action) :
    (∀ as', as' <+: as → EachClaimable T D (run (step T D) S as')) ↔
      AllAlong (ProvisionsApart T D) (step T D) S as := by
  induction as generalizing S with
  | nil =>
    refine iff_of_true ?_ trivial
    intro as' has'
    rw [List.prefix_nil.1 has']
    exact hi.eachClaimable_iff.2 hpairs
  | cons a as ih =>
    obtain ⟨hroster, hsettles, -⟩ := step_settles hi a
    have hnext := hsettles hpairs
    constructor
    · intro h
      have hfirst : (step T D S a).seats.Pairwise Apart :=
        hroster.eachClaimable_iff.1 (h [a] (List.prefix_append [a] as))
      refine ⟨hnext.1 hfirst, (ih hroster hfirst).1 ?_⟩
      intro as' has'
      exact h (a :: as') (List.cons_prefix_cons.2 ⟨rfl, has'⟩)
    · rintro ⟨ha, has⟩ as' has'
      rcases List.prefix_cons_iff.1 has' with rfl | ⟨as'', rfl, has''⟩
      · exact hi.eachClaimable_iff.2 hpairs
      · exact (ih hroster (hnext.2 ha)).2 has as'' has''

/-- Seats stay claimable along exactly the runs in which each provisioned seat comes apart from its
unclaimed namesakes. -/
theorem seats_stay_claimable_iff (hT : T.Separates) (hS : IsOpening S) (as : List Action) :
    StaysClaimable T D S as ↔ AllAlong (ProvisionsApart T D) (step T D) S as := by
  have hinvariant : ∀ as', RosterInvariant T D (run (step T D) S as') :=
    run_invariant hS.roster fun S a hi ↦ (step_settles hi a).roster
  constructor
  · intro h
    exact (each_claimable_iff hS.roster hS.apart as).1 h.each
  · intro h
    refine ⟨(each_claimable_iff hS.roster hS.apart as).2 h, ?_, ?_⟩
    · intro as' _
      exact (hinvariant as').resolvesByName hT
    · exact h.of_invariant hS.roster (fun S a hi _ ↦ (step_settles hi a).roster)
        fun S a hi _ ↦ (step_settles hi a).codes

section Sample

def sampleDigest (label : String) (parts : List String) : String :=
  String.ofList (Lib.Json.dumps (.arr ((label :: parts).map .str)))

def sampleTexts : Texts := ⟨id, id, id, sampleDigest, id⟩

theorem sampleTexts_separates : sampleTexts.Separates := by
  intro l l' ps ps' h
  have harr := Lib.Json.dumps_injective (String.ofList_injective h)
  rw [Lib.Json.Value.arr.injEq] at harr
  have hlist := List.map_injective_iff.2 (fun _ _ h ↦ Lib.Json.Value.str.inj h) harr
  exact List.cons.inj hlist

def sampleClasses : ClassDirectory sampleTexts :=
  ⟨[⟨"math", "MATH7", 1⟩], by decide, by decide, by decide⟩

def sampleOpening : IdentityState :=
  { seats := [{ id := 1, userId := some 1, classId := "math", role := "teacher" }]
    profiles := []
    users := [{ id := 1, userRole := "teacher" }]
    lastSeatId := 1
    lastUserId := 1 }

theorem sampleOpening_isOpening : IsOpening sampleOpening := by
  constructor <;> decide

def sampleTeacher : CanonicalContext := ⟨1, "math", 1, "teacher"⟩

/-- A student is imported, and one of the same name provisioned with a code. -/
def sampleNamesakes : List Action :=
  [.import sampleTeacher [⟨some "ada", some "byron", none⟩] [],
    .provision sampleTeacher "math" "ada" "byron" none "K7" false]

/-- The imported seat has no code and can no longer be claimed. -/
theorem imported_seat_unclaimable :
    ¬ StaysClaimable sampleTexts sampleClasses sampleOpening sampleNamesakes := by
  intro h
  have hseat : ∃ s ∈ (run (step sampleTexts sampleClasses) sampleOpening sampleNamesakes).seats,
      s.id = 2 ∧ s.classId = "math" ∧ s.role = "student" ∧ s.userId = none ∧ s.code = "" := by
    decide +kernel
  obtain ⟨s, hs, hid, hclass, hrole, huser, hcode⟩ := hseat
  obtain ⟨c, p, hc, hp, hresolve⟩ := h.each _ (List.prefix_refl _) s hs hrole huser
  rw [hclass] at hc
  rw [hid] at hp
  rw [hcode] at hresolve
  have hambiguous : ∀ c ∈ sampleClasses.rows, ∀ p ∈ (run (step sampleTexts sampleClasses)
      sampleOpening sampleNamesakes).profiles, resolveSeatClaim sampleTexts sampleClasses
      (run (step sampleTexts sampleClasses) sampleOpening sampleNamesakes) c.joinCode p.firstName
      p.lastName "" = .error (refusal "AMBIGUOUS_IDENTITY"
        "Multiple students in this class share that name.") := by
    decide +kernel
  rw [hambiguous c (ClassDirectory.find_some hc).1 p (profile_some hp).1] at hresolve
  cases hresolve

/-- Two students of one name, each provisioned with a code. -/
theorem seats_stay_claimable_iff_coded :
    StaysClaimable sampleTexts sampleClasses sampleOpening
      [.provision sampleTeacher "math" "ada" "byron" none "K7" false,
        .provision sampleTeacher "math" "ada" "byron" none "K8" false] := by
  refine (seats_stay_claimable_iff sampleTexts_separates sampleOpening_isOpening _).2 ?_
  refine ⟨fun _ ↦ ?_, fun _ ↦ ?_, trivial⟩
  · decide +kernel
  · decide +kernel

end Sample

end Runs

end TokenHub.Identity
