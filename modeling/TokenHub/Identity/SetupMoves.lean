import TokenHub.Identity.Roster
import TokenHub.Identity.SetupSteps

set_option autoImplicit false

namespace TokenHub.Identity

open Ledger Lib.Checks Lib.Past Lib.Json
open Rent (Instant)

variable {K : SetupKeys} {T : Texts} {D : ClassDirectory T} {S S' : SetupState}
  {tables tables' : IdentityState} {token : ℕ}

section Staging

theorem user_find {userId : ℕ} {user : User} (h : S.user userId = some user) :
    user ∈ S.tables.users ∧ user.id = userId := by
  rw [SetupState.user] at h
  exact ⟨List.mem_of_find?_eq_some h, by simpa using List.find?_some h⟩

theorem recoverySetupIsValid_true {user : User} {authorization : Option ℕ}
    (h : recoverySetupIsValid K S user authorization = true) :
    ∃ n deadline, authorization = some n ∧
      user.recoverySetupNonceHash = some (K.recoveryNonceHash n) ∧
      user.recoverySetupExpiresAt = some deadline ∧ S.clock < deadline := by
  rw [recoverySetupIsValid, decide_eq_true_iff] at h
  obtain ⟨-, ⟨deadline, hdeadline, hlater⟩, n, hn, hhash⟩ := h
  exact ⟨n, deadline, hn, hhash, hdeadline, hlater⟩

theorem SetupInvariant.authorized {user : User} {authorization : Option ℕ}
    (hi : SetupInvariant K T S) (hK : K.Separates) (hu : user ∈ S.tables.users)
    (h : recoverySetupIsValid K S user authorization = true) :
    ∃ n, authorization = some n ∧ n ≤ S.lastAuthorization ∧
      user.recoverySetupNonceHash = some (K.recoveryNonceHash n) ∧
      InTime (.user user.id n) S.clock S.log := by
  obtain ⟨n, deadline, rfl, hhash, hdeadline, hlater⟩ := recoverySetupIsValid_true h
  obtain ⟨n', deadline', heq, hn, hdeadline', hauthorized⟩ := (hi.users user hu).authorized _ hhash
  obtain rfl := hK.2 heq
  obtain rfl := Option.some.inj (hdeadline.symm.trans hdeadline')
  exact ⟨n, rfl, hn, hhash, deadline, hlater, hauthorized⟩

theorem SetupInvariant.stageClaim {seatId : ℕ} {claimGeneration : Option ℕ}
    (hi : SetupInvariant K T S) :
    SetupInvariant K T (told S (stageClaim K S seatId claimGeneration) fun token ↦
      some (.begun token (.seat seatId (claimGeneration.getD 0)) S.clock)) := by
  cases hok : Identity.stageClaim K S seatId claimGeneration with
  | error x => exact hi
  | ok out =>
    rw [Identity.stageClaim, demand_bind_eq_ok] at hok
    obtain ⟨seat, hfind, hok⟩ := hok
    rw [Option.filter_eq_some_iff, decide_eq_true_iff] at hfind
    obtain ⟨hfind, -, rfl⟩ := hfind
    obtain ⟨hseat, rfl⟩ := seat_some hfind
    rw [pure_eq_ok] at hok
    subst hok
    refine hi.begun (.seat seat.id seat.claimGeneration) trivial ?_
    intro r howner hscope
    refine .seat seat.id seat.claimGeneration seat.classId howner hscope ?_
    intro row hrow hid
    rw [List.inj_on_of_nodup_map hi.keyed.seats hrow hseat hid]
    exact ⟨le_rfl, fun _ ↦ BegunNow.now _ S.clock⟩

theorem SetupInvariant.stageRecovery {userId : ℕ} {authorization : Option ℕ}
    (hi : SetupInvariant K T S) (hK : K.Separates) :
    SetupInvariant K T (told S (stageRecovery K S userId authorization) fun token ↦
      some (.begun token (.user userId (authorization.getD 0)) S.clock)) := by
  cases hok : Identity.stageRecovery K S userId authorization with
  | error x => exact hi
  | ok out =>
    rw [Identity.stageRecovery, demand_bind_eq_ok] at hok
    obtain ⟨user, hfind, hok⟩ := hok
    rw [Option.filter_eq_some_iff] at hfind
    obtain ⟨hfind, hvalid⟩ := hfind
    obtain ⟨huser, rfl⟩ := user_find hfind
    obtain ⟨n, rfl, hn, -, htime⟩ := hi.authorized hK huser hvalid
    rw [require_bind_eq_ok, pure_eq_ok] at hok
    obtain ⟨-, rfl⟩ := hok
    refine hi.begun (.user user.id n) htime ?_
    intro r howner hscope
    exact .user user.id n howner hscope hn fun _ _ _ _ ↦ BegunNow.now _ S.clock

end Staging

section Activation

variable {generation : ℕ} {seatId claimGeneration : Option ℕ} {credentials : Credentials}

theorem claimSeat_ok {seatId n : ℕ} {now : Instant} {proven : Seat → Bool}
    (h : claimSeat T tables now seatId claimGeneration credentials proven = .ok (n, tables')) :
    ∃ seat user, tables.seat seatId = some seat ∧ seat.userId = none ∧
      claimGeneration = some seat.claimGeneration ∧ proven seat = true ∧
      user.id = tables.lastUserId + 1 ∧ user.recoverySetupNonceHash = none ∧
      user.resetCode = none ∧
      tables' = { tables.setSeat seat.id (·.bound user.id now) with
        users := tables.users ++ [user], lastUserId := user.id } := by
  rw [claimSeat, require_bind_eq_ok, demand_bind_eq_ok] at h
  obtain ⟨-, seat, hfind, h⟩ := h
  rw [require_bind_eq_ok, createStudentUserForSeat, require_bind_eq_ok, pure_eq_ok,
    Prod.mk.injEq] at h
  obtain ⟨hproven, -, -, rfl⟩ := h
  rw [Option.filter_eq_some_iff, decide_eq_true_iff] at hfind
  obtain ⟨hfind, huser, -, hgeneration⟩ := hfind
  exact ⟨seat, _, hfind, huser, hgeneration, hproven, rfl, rfl, rfl, rfl⟩

theorem SetupInvariant.consumed {r : SetupRecord} {username : String} (hi : SetupInvariant K T S)
    (hr : S.record token = some r) (hcompleting : r.completing = true)
    (hlookup : r.completionLookup = some (hashUsernameLookup T username)) :
    ConsumedNow T token r.generation username S.log ∧
      ∀ g u target t, .activated token g u target t ∉ S.log := by
  refine ⟨(hi.stories token r hr).completing hcompleting username hlookup, ?_⟩
  intro g u target t he
  rw [(hi.spent token g u target t he).2] at hr
  cases hr

theorem forgetOwner_record_none {owner : Owner} {r : SetupRecord} (hi : SetupInvariant K T S)
    (hr : S.record token = some r) (howner : r.owner = owner) :
    (forgetOwner S owner).record token = none := by
  refine Option.eq_none_iff_forall_ne_some.2 fun x hx ↦ ?_
  exact (forgetOwner_record hx).2 (howner ▸ hi.indexed.mem_tokensOf hr)

theorem SetupInvariant.inScope_seat {r : SetupRecord} {seat : Seat} (hi : SetupInvariant K T S)
    (hK : K.Separates) (hr : S.record token = some r) (hscope : r.scope = (seatScope K seat).2)
    (hseat : seat ∈ S.tables.seats) :
    r.owner = .seat seat.id ∧ BegunNow token (.seat seat.id seat.claimGeneration) S.log := by
  cases hi.inScope token r hr with
  | seat id generation classId howner hscope' hrows =>
    obtain ⟨hid, hvalues⟩ := hK.scopeDigest (hscope'.symm.trans hscope)
    simp only [Owner.seat.injEq, List.cons.injEq, Value.num.injEq, Nat.cast_inj] at hid hvalues
    obtain rfl := hid
    obtain ⟨-, rfl, -⟩ := hvalues
    exact ⟨howner, (hrows seat hseat rfl).2 rfl⟩
  | user id authorization howner hscope' hlast hrows =>
    cases (hK.scopeDigest (hscope'.symm.trans hscope)).1

theorem SetupInvariant.inScope_user {r : SetupRecord} {user : User} {n : ℕ}
    (hi : SetupInvariant K T S) (hK : K.Separates) (hr : S.record token = some r)
    (hscope : r.scope = (userScope K user (some n)).2) (huser : user ∈ S.tables.users)
    (hnonce : user.recoverySetupNonceHash = some (K.recoveryNonceHash n)) :
    r.owner = .user user.id ∧ BegunNow token (.user user.id n) S.log := by
  cases hi.inScope token r hr with
  | seat id generation classId howner hscope' hrows =>
    cases (hK.scopeDigest (hscope'.symm.trans hscope)).1
  | user id authorization howner hscope' hlast hrows =>
    obtain ⟨hid, hvalues⟩ := hK.scopeDigest (hscope'.symm.trans hscope)
    simp only [Owner.user.injEq, Option.elim_some, List.cons.injEq, Value.num.injEq,
      Nat.cast_inj, and_true] at hid hvalues
    obtain rfl := hid
    obtain rfl := hvalues
    exact ⟨howner, hrows user huser rfl hnonce⟩

theorem setSeat_ids {seatId : ℕ} {f : Seat → Seat} (hf : ∀ s, (f s).id = s.id) :
    (tables.setSeat seatId f).seats.map (·.id) = tables.seats.map (·.id) := by
  rw [IdentityState.setSeat, List.map_map]
  refine List.map_congr_left ?_
  intro s _
  rw [Function.comp_apply]
  split_ifs
  · exact hf s
  · rfl

theorem setUser_ids {users : List User} {userId : ℕ} {f : User → User} (hf : ∀ u, (f u).id = u.id) :
    (setUser users userId f).map (·.id) = users.map (·.id) := by
  rw [setUser, List.map_map]
  refine List.map_congr_left ?_
  intro u _
  rw [Function.comp_apply]
  split_ifs
  · exact hf u
  · rfl

theorem SetupInvariant.claimMove {seat : Seat} {user : User} (hi : SetupInvariant K T S)
    (generation : ℕ) (username : String) (hseat : seat ∈ S.tables.seats)
    (hid : user.id = S.tables.lastUserId + 1) (hnonce : user.recoverySetupNonceHash = none)
    (hcode : user.resetCode = none) (hnone : S.record token = none) (htoken : token ≤ S.lastToken) :
    TablesMove K S { S.tables.setSeat seat.id (·.bound user.id S.clock) with
        users := S.tables.users ++ [user], lastUserId := user.id } S.lastAuthorization
      (.activated token generation username (.seat seat.id seat.claimGeneration) S.clock) := by
  refine ⟨⟨?_, ?_, ?_⟩, le_rfl, ?_, ?_, ?_, ?_, ?_, ?_⟩
  · have hids : (S.tables.setSeat seat.id (·.bound user.id S.clock)).seats.map (·.id) =
        S.tables.seats.map (·.id) := setSeat_ids fun _ ↦ rfl
    exact hids ▸ hi.keyed.seats
  · change ((S.tables.users ++ [user]).map (·.id)).Nodup
    rw [List.map_append, List.nodup_append]
    refine ⟨hi.keyed.users, List.nodup_singleton _, ?_⟩
    intro n hn m hm
    obtain ⟨u, hu, rfl⟩ := List.mem_map.1 hn
    rw [List.map_singleton, List.mem_singleton, hid] at hm
    have hgiven := hi.keyed.given u hu
    omega
  · intro u hu
    rcases List.mem_append.1 hu with hu | hu
    · have hgiven := hi.keyed.given u hu
      change u.id ≤ user.id
      omega
    · rw [List.mem_singleton.1 hu]
  · intro row' hrow'
    obtain ⟨row, hrow, rfl⟩ := List.mem_map.1 hrow'
    refine ⟨row, hrow, ?_⟩
    split_ifs
    · exact ⟨rfl, .inl ⟨rfl, nofun, nofun⟩⟩
    · exact ⟨rfl, .inl ⟨rfl, id, nofun⟩⟩
  · intro u hu n _ hn
    rcases List.mem_append.1 hu with hu | hu
    · exact ⟨fun _ _ ↦ nofun, u, hu, rfl, rfl⟩
    · rw [List.mem_singleton.1 hu, hnonce] at hn
      cases hn
  · intro u hu
    rcases List.mem_append.1 hu with hu | hu
    · refine UserStory.append (l := [_]) (hi.users u hu) ?_ le_rfl
      intro e he
      rw [List.mem_singleton.1 he]
      exact ⟨fun _ _ ↦ nofun, fun _ _ ↦ nofun⟩
    · rw [List.mem_singleton.1 hu]
      exact .of_none hnonce hcode
  · intro row' hrow' k g u generation t he
    obtain ⟨row, hrow, rfl⟩ := List.mem_map.1 hrow'
    simp only [SetupEvent.activated.injEq, Target.seat.injEq] at he
    obtain ⟨-, -, -, ⟨hrow', rfl⟩, -⟩ := he
    split_ifs at hrow' ⊢ with hrowid
    · rw [List.inj_on_of_nodup_map hi.keyed.seats hrow hseat hrowid]
      exact ⟨rfl, nofun⟩
    · exact absurd hrow'.symm hrowid
  · rintro k rfl
    exact hnone
  · intro k g u target t he
    cases he
    exact htoken

theorem SetupInvariant.activateClaim (hi : SetupInvariant K T S) (hK : K.Separates) :
    SetupInvariant K T (told S (activateClaim K T S token generation seatId claimGeneration
      credentials) fun _ ↦ some (.activated token generation credentials.username
        (.seat (seatId.getD 0) (claimGeneration.getD 0)) S.clock)) := by
  cases hok : Identity.activateClaim K T S token generation seatId claimGeneration credentials with
  | error x => exact hi
  | ok out =>
    rw [Identity.activateClaim, require_bind_eq_ok, demand_bind_eq_ok] at hok
    obtain ⟨-, id, rfl, hok⟩ := hok
    simp only [bind_eq_ok, Prod.exists, pure_eq_ok] at hok
    obtain ⟨n, tables', hclaim, rfl⟩ := hok
    obtain ⟨seat, user, hfind, huser, rfl, hproven, hid, hnonce, hcode, rfl⟩ := claimSeat_ok hclaim
    obtain ⟨hseat, rfl⟩ := seat_some hfind
    obtain ⟨r, hr, hscope, hcompleting, rfl, hlookup⟩ := completionIsValid_true hproven
    obtain ⟨hconsumed, hnever⟩ := hi.consumed hr hcompleting hlookup
    obtain ⟨howner, hbegun⟩ := hi.inScope_seat hK hr hscope hseat
    have hmove := (hi.forgetOwner (.seat seat.id)).claimMove r.generation
      credentials.username hseat hid hnonce hcode
      (forgetOwner_record_none hi hr howner) (hi.issued token r hr).1
    refine (hi.forgetOwner (.seat seat.id)).moved hmove ⟨hconsumed, hbegun, trivial, hnever, ?_⟩
    rintro id g heq k g' u t he
    obtain ⟨rfl, rfl⟩ := Target.seat.inj heq
    rcases hi.seats seat hseat k g' u _ t he with hlt | ⟨-, hbound⟩
    · exact absurd hlt (lt_irrefl _)
    · exact hbound huser

/-- The tables after one principal's row is rewritten. -/
theorem SetupInvariant.userMove {userId last : ℕ} {f : User → User} {e : SetupEvent}
    (hi : SetupInvariant K T S) (hf : ∀ u, (f u).id = u.id) (hlast : S.lastAuthorization ≤ last)
    (hnonces : ∀ u n, n ≤ S.lastAuthorization →
      (f u).recoverySetupNonceHash ≠ some (K.recoveryNonceHash n))
    (hothers : ∀ id, id ≠ userId → (∀ c t, e ≠ .issued id c t) ∧ ∀ c n, e ≠ .validated id c n)
    (hstory : ∀ u ∈ S.tables.users, u.id = userId → UserStory K last (e :: S.log) (f u))
    (hunclaimed : ∀ id, e ≠ .unclaimed id)
    (hbound : ∀ k g u id generation t, e ≠ .activated k g u (.seat id generation) t)
    (hreopens : ∀ k, e.Reopens k → k ≤ S.lastToken ∧ S.record k = none) :
    TablesMove K S { S.tables with users := setUser S.tables.users userId f } last e := by
  have hids : (setUser S.tables.users userId f).map (·.id) = S.tables.users.map (·.id) :=
    setUser_ids hf
  refine ⟨⟨hi.keyed.seats, hids ▸ hi.keyed.users, ?_⟩, hlast, ?_, ?_, ?_, ?_, ?_, ?_⟩
  · intro u' hu'
    obtain ⟨u, hu, rfl⟩ := List.mem_map.1 hu'
    have hgiven := hi.keyed.given u hu
    split_ifs
    · exact (hf u).symm ▸ hgiven
    · exact hgiven
  · intro row hrow
    exact ⟨row, hrow, rfl, .inl ⟨rfl, id, hunclaimed row.id⟩⟩
  · intro u' hu' n hn hnonce
    obtain ⟨u, hu, rfl⟩ := List.mem_map.1 hu'
    split_ifs at hnonce ⊢ with hid
    · exact absurd hnonce (hnonces u n hn)
    · exact ⟨(hothers u.id hid).1, u, hu, rfl, rfl⟩
  · intro u' hu'
    obtain ⟨u, hu, rfl⟩ := List.mem_map.1 hu'
    split_ifs with hid
    · exact hstory u hu hid
    · refine UserStory.append (l := [e]) (hi.users u hu) ?_ hlast
      intro x hx
      rw [List.mem_singleton.1 hx]
      exact hothers u.id hid
  · intro row _ k g u generation t he
    exact absurd he (hbound k g u row.id generation t)
  · intro k hk
    exact (hreopens k hk).2
  · intro k g u target t he
    exact (hreopens k (he ▸ rfl)).1

theorem SetupInvariant.activateRecovery {userId : ℕ} {authorization : Option ℕ}
    {sessionNonce : String} (hi : SetupInvariant K T S) (hK : K.Separates) :
    SetupInvariant K T (told S (activateRecovery K T S token generation seatId userId authorization
      credentials sessionNonce) fun _ ↦ some (.activated token generation credentials.username
        (.user userId (authorization.getD 0)) S.clock)) := by
  cases hok : Identity.activateRecovery K T S token generation seatId userId authorization
      credentials sessionNonce with
  | error x => exact hi
  | ok out =>
    rw [Identity.activateRecovery, require_bind_eq_ok, demand_bind_eq_ok] at hok
    obtain ⟨-, user, hfind, hok⟩ := hok
    rw [require_bind_eq_ok, require_bind_eq_ok, pure_eq_ok] at hok
    obtain ⟨hproven, -, rfl⟩ := hok
    rw [Option.filter_eq_some_iff, decide_eq_true_iff] at hfind
    obtain ⟨hfind, -, hvalid⟩ := hfind
    obtain ⟨huser, rfl⟩ := user_find hfind
    obtain ⟨n, rfl, hn, hnonce, htime⟩ := hi.authorized hK huser hvalid
    obtain ⟨r, hr, hscope, hcompleting, rfl, hlookup⟩ := completionIsValid_true hproven
    obtain ⟨hconsumed, hnever⟩ := hi.consumed hr hcompleting hlookup
    obtain ⟨howner, hbegun⟩ := hi.inScope_user hK hr hscope huser hnonce
    have hforgotten := hi.forgetOwner (.user user.id)
    refine hforgotten.moved (hforgotten.userMove (fun _ ↦ rfl) le_rfl (fun _ _ _ ↦ nofun)
      (fun _ _ ↦ ⟨fun _ _ ↦ nofun, fun _ _ ↦ nofun⟩) (fun _ _ _ ↦ .of_none rfl rfl)
      (fun _ ↦ nofun) (fun _ _ _ _ _ _ ↦ nofun) ?_)
      ⟨hconsumed, hbegun, htime, hnever, fun _ _ ↦ nofun⟩
    rintro k rfl
    exact ⟨(hi.issued token r hr).1, forgetOwner_record_none hi hr howner⟩

end Activation

section Recovery

theorem SetupInvariant.issue {userId : ℕ} {draws : List ResetCode} (hi : SetupInvariant K T S) :
    SetupInvariant K T (told S (issueStudentRecoveryCode S userId draws) fun code ↦
      code.map (.issued userId · S.clock)) := by
  cases hok : issueStudentRecoveryCode S userId draws with
  | error x => exact hi
  | ok out =>
    rw [issueStudentRecoveryCode] at hok
    cases hfind : (S.user userId).filter (·.userRole = "student") with
    | none =>
      simp only [hfind, pure_eq_ok] at hok
      subst hok
      exact hi
    | some user =>
      simp only [hfind, bind_eq_ok, pure_eq_ok] at hok
      obtain ⟨code, -, rfl⟩ := hok
      rw [Option.filter_eq_some_iff] at hfind
      obtain ⟨-, rfl⟩ := user_find hfind.1
      have hforgotten := hi.forgetOwner (.user user.id)
      refine hforgotten.moved (hforgotten.userMove (fun _ ↦ rfl) le_rfl (fun _ _ _ h ↦ by cases h)
        ?_ ?_ (fun _ h ↦ by cases h) (fun _ _ _ _ _ _ h ↦ by cases h) (fun _ h ↦ by cases h)) trivial
      · intro id hid
        refine ⟨fun c t he ↦ ?_, fun _ _ he ↦ by cases he⟩
        cases he
        exact hid rfl
      · intro u hu hid
        refine ⟨fun _ h ↦ (by cases h), ?_⟩
        intro c hc
        obtain rfl := Option.some.inj hc
        exact ⟨S.clock, rfl, Since.now (by rw [← hid]; rfl)⟩

theorem holderOfCode_some {users : List User} {code : String} {user : User}
    (h : holderOfCode users code = some user) :
    user ∈ users ∧ user.resetCode = some code := by
  rw [holderOfCode] at h
  split at h
  · rename_i u hfilter
    obtain rfl := Option.some.inj h
    have hmem : u ∈ users.filter (fun u ↦ u.resetCode = some code ∧ u.userRole = "student") :=
      hfilter ▸ List.mem_singleton_self u
    rw [List.mem_filter, decide_eq_true_iff] at hmem
    exact ⟨hmem.1, hmem.2.1⟩
  · cases h

theorem SetupInvariant.validate {resetCode : String} (hi : SetupInvariant K T S)
    (hK : K.Separates) :
    SetupInvariant K T (told S (validateRecoveryCode K S resetCode) fun out ↦
      some (.validated out.1 resetCode out.2)) := by
  cases hok : validateRecoveryCode K S resetCode with
  | error x => exact hi
  | ok out =>
    rw [validateRecoveryCode, demand_bind_eq_ok] at hok
    obtain ⟨user, hfind, hok⟩ := hok
    rw [pure_eq_ok] at hok
    subst hok
    rw [Option.filter_eq_some_iff] at hfind
    obtain ⟨huser, hcode⟩ := holderOfCode_some hfind.1
    obtain ⟨t, ht, hissued⟩ := (hi.users user huser).code resetCode hcode
    refine hi.moved (hi.userMove (fun _ ↦ rfl) (Nat.le_succ _) ?_ ?_ ?_ (fun _ ↦ nofun)
      (fun _ _ _ _ _ _ ↦ nofun) nofun) ?_
    · intro u n hn heq
      have hsame := hK.2 (Option.some.inj heq)
      omega
    · intro id hid
      refine ⟨fun _ _ ↦ nofun, fun c n he ↦ ?_⟩
      cases he
      exact hid rfl
    · intro u hu hid
      obtain rfl := List.inj_on_of_nodup_map hi.keyed.users hu huser hid
      refine ⟨?_, nofun⟩
      intro h hh
      refine ⟨S.lastAuthorization + 1, t + 10 * 60 * second, (Option.some.inj hh).symm, le_rfl, ht,
        Since.now ⟨resetCode, rfl, ?_⟩⟩
      exact hissued.imp (fun _ h ↦ h) fun e _ he ↦ ⟨t, he, rfl⟩
    · exact hissued.imp (fun _ h ↦ h) fun e _ he ↦ ⟨t, he⟩

end Recovery

section Unclaim

variable {ctx : CanonicalContext} {seatId n : ℕ} {generation : Option ℕ}
  {firstName lastName : String} {draws : List ClaimCode}

structure Unclaims (tables tables' : IdentityState) (seatId : ℕ) : Prop where
  ids : tables'.seats.map (·.id) = tables.seats.map (·.id)
  users : (tables'.users.map (·.id)).Sublist (tables.users.map (·.id))
  lastUserId : tables'.lastUserId = tables.lastUserId
  rows : ∀ row' ∈ tables'.seats, ∃ row ∈ tables.seats, row'.id = row.id ∧
    (row'.claimGeneration = row.claimGeneration ∧ row'.userId = row.userId ∧ row.id ≠ seatId ∨
      row'.claimGeneration = row.claimGeneration + 1)
  principals : ∀ u' ∈ tables'.users, ∃ u ∈ tables.users, ∃ seatId classId,
    u' = { u with lastActiveSeatId := seatId, lastActiveClassId := classId }

theorem deleteUserIfOrphaned_users (userId : ℕ) :
    (deleteUserIfOrphaned T D tables userId).users.Sublist tables.users := by
  rw [deleteUserIfOrphaned]
  split_ifs
  · exact List.Sublist.refl _
  · exact List.filter_sublist

theorem deleteUserIfOrphaned_rest (userId : ℕ) :
    (deleteUserIfOrphaned T D tables userId).seats = tables.seats ∧
      (deleteUserIfOrphaned T D tables userId).lastUserId = tables.lastUserId := by
  rw [deleteUserIfOrphaned]
  split_ifs <;> exact ⟨rfl, rfl⟩

theorem unclaimStudentSeat_unclaims
    (h : unclaimStudentSeat T D tables ctx seatId generation firstName lastName draws =
      .ok (n, tables')) : Unclaims tables tables' n := by
  simp only [unclaimStudentSeat] at h
  rw [require_bind_eq_ok, require_bind_eq_ok, require_bind_eq_ok, demand_bind_eq_ok] at h
  obtain ⟨-, -, -, seat, -, h⟩ := h
  rw [demand_bind_eq_ok] at h
  obtain ⟨userId, -, h⟩ := h
  rw [require_bind_eq_ok] at h
  obtain ⟨-, h⟩ := h
  simp only [bind_eq_ok, Prod.exists, pure_eq_ok, Prod.mk.injEq] at h
  obtain ⟨tables₁, draws', hrepair, rfl, rfl⟩ := h
  obtain ⟨seats', rfl, hrepaired⟩ := ensureDistinctClaimCodes_ok hrepair
  have hrefreshed := hrepaired.refreshed
  have hdetached : ∀ u' ∈ (detachSeat T tables seat userId (strip firstName)
      (strip lastName)).users, ∃ u ∈ tables.users, ∃ seatId classId,
      u' = { u with lastActiveSeatId := seatId, lastActiveClassId := classId } := by
    intro u' hu'
    obtain ⟨u, hu, rfl⟩ := List.mem_map.1 hu'
    refine ⟨u, hu, ?_⟩
    split_ifs
    · exact ⟨none, none, rfl⟩
    · exact ⟨_, _, rfl⟩
  have hdetachedIds : (detachSeat T tables seat userId (strip firstName)
      (strip lastName)).users.map (·.id) = tables.users.map (·.id) := by
    rw [detachSeat, List.map_map]
    refine List.map_congr_left ?_
    intro u _
    rw [Function.comp_apply]
    split_ifs <;> rfl
  have hseats : (detachSeat T tables seat userId (strip firstName)
      (strip lastName)).seats.map (·.id) = tables.seats.map (·.id) := setSeat_ids fun _ ↦ rfl
  refine ⟨?_, ?_, ?_, ?_, ?_⟩
  · rw [(deleteUserIfOrphaned_rest userId).1]
    exact hrefreshed.ids.trans hseats
  · rw [← hdetachedIds]
    exact (deleteUserIfOrphaned_users userId).map _
  · exact (deleteUserIfOrphaned_rest userId).2
  · rw [(deleteUserIfOrphaned_rest userId).1]
    intro row' hrow'
    obtain ⟨row₁, hrow₁, hrecoded⟩ := hrefreshed.source hrow'
    obtain ⟨row, hrow, rfl⟩ := List.mem_map.1 hrow₁
    rw [hrecoded.same]
    refine ⟨row, hrow, ?_⟩
    split_ifs with hid
    · exact ⟨rfl, .inr rfl⟩
    · exact ⟨rfl, .inl ⟨rfl, rfl, hid⟩⟩
  · intro u' hu'
    have hkept := (deleteUserIfOrphaned_users userId).subset hu'
    exact hdetached u' hkept

theorem TablesMove.forgetOwner {tables : IdentityState} {last : ℕ} {e : SetupEvent}
    (h : TablesMove K S tables last e) (hnever : ∀ k, ¬e.Reopens k) (owner : Owner) :
    TablesMove K (Identity.forgetOwner S owner) tables last e where
  keyed := h.keyed
  newest := h.newest
  seats := h.seats
  nonces := h.nonces
  users := h.users
  bound := h.bound
  reopens := fun k hk ↦ absurd hk (hnever k)
  spent := h.spent

theorem SetupInvariant.unclaim (hi : SetupInvariant K T S) :
    SetupInvariant K T (told S (unclaimSeat T D S ctx seatId generation firstName lastName draws)
      fun id ↦ some (.unclaimed id)) := by
  cases hok : unclaimSeat T D S ctx seatId generation firstName lastName draws with
  | error x => exact hi
  | ok out =>
    simp only [unclaimSeat, bind_eq_ok, Prod.exists, pure_eq_ok] at hok
    obtain ⟨n, tables', hunclaim, rfl⟩ := hok
    obtain ⟨hids, husers, hlast, hrows, hprincipals⟩ := unclaimStudentSeat_unclaims hunclaim
    have hmove : TablesMove K S tables' S.lastAuthorization (.unclaimed n) := by
      refine ⟨⟨hids ▸ hi.keyed.seats, husers.nodup hi.keyed.users, ?_⟩, le_rfl, ?_, ?_, ?_,
        fun _ _ _ _ _ _ _ h ↦ (by cases h), fun _ h ↦ (by cases h),
        fun _ _ _ _ _ h ↦ (by cases h)⟩
      · intro u' hu'
        obtain ⟨u, hu, -, -, rfl⟩ := hprincipals u' hu'
        rw [hlast]
        exact hi.keyed.given u hu
      · intro row' hrow'
        obtain ⟨row, hrow, hid, hcase⟩ := hrows row' hrow'
        refine ⟨row, hrow, hid, ?_⟩
        rcases hcase with ⟨hsame, huser, hne⟩ | hnext
        · refine .inl ⟨hsame, huser ▸ id, ?_⟩
          rintro heq
          exact hne (SetupEvent.unclaimed.inj heq).symm
        · right
          omega
      · intro u' hu' m _ hm
        obtain ⟨u, hu, _, _, rfl⟩ := hprincipals u' hu'
        exact ⟨fun _ _ h ↦ (by cases h), u, hu, rfl, rfl⟩
      · intro u' hu'
        obtain ⟨u, hu, _, _, rfl⟩ := hprincipals u' hu'
        have hstory : UserStory K S.lastAuthorization ([.unclaimed n] ++ S.log) u := by
          refine (hi.users u hu).append ?_ le_rfl
          intro e he
          rw [List.mem_singleton.1 he]
          exact ⟨fun _ _ h ↦ (by cases h), fun _ _ h ↦ (by cases h)⟩
        exact ⟨hstory.authorized, hstory.code⟩
    -- neither what is forgotten of the seat nor what is of its principal is in the tables
    have hnever : ∀ k, ¬(SetupEvent.unclaimed n).Reopens k := fun _ h ↦ by cases h
    have hforgotten := hi.forgetOwner (.seat n)
    have hseat := hmove.forgetOwner hnever (.seat n)
    unfold forgetOrphaned
    split
    · next userId _ =>
      exact (hforgotten.forgetOwner (.user userId)).moved
        (hseat.forgetOwner hnever (.user userId)) trivial
    · exact hforgotten.moved hseat trivial

end Unclaim

end TokenHub.Identity
