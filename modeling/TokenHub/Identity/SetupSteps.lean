import TokenHub.Identity.Setup

set_option autoImplicit false

namespace TokenHub.Identity

open Ledger Lib.Checks Lib.Past Lib.Json
open Rent (Instant)

variable {K : SetupKeys} {T : Texts} {S S' : SetupState} {k token : ℕ} {r r' : SetupRecord}
  {binding : String} {log : List SetupEvent} {e : SetupEvent}

section Scopes

theorem Owner.text_injective : Function.Injective Owner.text := by
  have htext {n m : ℕ} {p : String} (h : p ++ String.ofList (Lib.Digits.natText n) =
      p ++ String.ofList (Lib.Digits.natText m)) : n = m := by
    rw [← String.toList_inj, String.toList_append, String.toList_append, String.toList_ofList,
      String.toList_ofList] at h
    exact Lib.Digits.natText_injective (List.append_cancel_left h)
  have hhead (n m : ℕ) : "seat:" ++ String.ofList (Lib.Digits.natText n) ≠
      "user:" ++ String.ofList (Lib.Digits.natText m) := by
    intro h
    rw [← String.toList_inj, String.toList_append, String.toList_append] at h
    have hfirst := congrArg List.head? h
    simp at hfirst
  intro a b h
  cases a with
  | seat n =>
    cases b with
    | seat m => rw [htext h]
    | user m => exact absurd h (hhead n m)
  | user n =>
    cases b with
    | seat m => exact absurd h.symm (hhead m n)
    | user m => rw [htext h]

theorem SetupKeys.Separates.scopeDigest (h : K.Separates) {o o' : Owner} {vs vs' : List Value}
    (heq : scopeDigest K o vs = scopeDigest K o' vs') : o = o' ∧ vs = vs' := by
  have hvalues := dumps_injective (h.1 heq)
  simp only [Value.arr.injEq, List.cons.injEq, Value.str.injEq] at hvalues
  exact ⟨Owner.text_injective hvalues.1, hvalues.2⟩

theorem hashUsernameLookup_inj (h : T.Separates) {u v : String}
    (heq : hashUsernameLookup T u = hashUsernameLookup T v) :
    normalizeUsername T u = normalizeUsername T v := by
  have hparts := (h _ _ _ _ heq).2
  simpa using hparts

end Scopes

section Records

theorem record_some : S.record k = some r ↔ S.records k = some r ∧ S.clock < r.expiresAt := by
  rw [SetupState.record, Option.filter_eq_some_iff, decide_eq_true_iff]

theorem readSetup_ok : readSetup S token binding = .ok r ↔
    S.record token = some r ∧ r.scope = binding := by
  rw [readSetup, demand_eq_ok, Option.filter_eq_some_iff, decide_eq_true_iff]

def SetupState.setRecord (S : SetupState) (token : ℕ) (record : SetupRecord) : SetupState :=
  { S with records := Function.update S.records token (some record) }

theorem change_ok {α : Type} {operation : SetupRecord → Except Raise (α × SetupRecord)} {a : α}
    (h : change S token binding operation = .ok (a, S')) :
    ∃ r r', S.record token = some r ∧ r.scope = binding ∧ operation r = .ok (a, r') ∧
      S' = S.setRecord token r' := by
  simp only [change, bind_eq_ok, Prod.exists, pure_eq_ok, Prod.mk.injEq] at h
  obtain ⟨r, hread, a', r', hoperation, rfl, rfl⟩ := h
  obtain ⟨hr, hscope⟩ := readSetup_ok.1 hread
  exact ⟨r, r', hr, hscope, hoperation, rfl⟩

theorem generate_ok {value : String} {written : Bool}
    (h : generate S token binding value = .ok (written, S')) :
    ∃ r, S.record token = some r ∧
      ((written = false ∧
          S' = { S.setRecord token r with lastGeneration := S.lastGeneration + 1 }) ∨
        (written = true ∧ r.completing = false ∧
          S' = { S.setRecord token { r with
            username := some value, generation := S.lastGeneration + 1, verifiedPage := none
            attempts := 0, collision := false } with
            lastGeneration := S.lastGeneration + 1 })) := by
  simp only [generate, bind_eq_ok, Prod.exists, pure_eq_ok, Prod.mk.injEq] at h
  obtain ⟨_, S₁, hchange, rfl, rfl⟩ := h
  obtain ⟨r, r', hr, -, hoperation, rfl⟩ := change_ok hchange
  rw [require_bind_eq_ok] at hoperation
  obtain ⟨hcompleting, hoperation⟩ := hoperation
  refine ⟨r, hr, ?_⟩
  split_ifs at hoperation
  · rw [pure_eq_ok, Prod.mk.injEq] at hoperation
    obtain ⟨rfl, rfl⟩ := hoperation
    exact .inl ⟨rfl, rfl⟩
  · rw [pure_eq_ok, Prod.mk.injEq] at hoperation
    obtain ⟨rfl, rfl⟩ := hoperation
    exact .inr ⟨rfl, hcompleting, rfl⟩

theorem verify_ok {page typed : String} {matched : Bool} {attempts : ℕ}
    (h : verify S token binding T page typed = .ok ((matched, attempts), S')) :
    ∃ r username, S.record token = some r ∧ r.username = some username ∧ r.completing = false ∧
      (matched = true → hashUsernameLookup T typed = hashUsernameLookup T username) ∧
      S' = S.setRecord token { r with
        attempts := attempts, verifiedPage := if matched then some page else none } := by
  rw [verify, require_bind_eq_ok] at h
  obtain ⟨-, hchange⟩ := h
  obtain ⟨r, r', hr, -, hoperation, rfl⟩ := change_ok hchange
  rw [demand_bind_eq_ok] at hoperation
  obtain ⟨username, hfound, hoperation⟩ := hoperation
  rw [Option.filter_eq_some_iff, decide_eq_true_iff] at hfound
  simp only [pure_eq_ok, Prod.mk.injEq] at hoperation
  obtain ⟨⟨rfl, rfl⟩, rfl⟩ := hoperation
  exact ⟨r, username, hr, hfound.1, hfound.2.1, of_decide_eq_true, rfl⟩

theorem takeVerified_ok {page : String} {taken : SetupRecord}
    (h : takeVerified S token binding T page = .ok (taken, S')) :
    ∃ username, S.record token = some taken ∧ taken.username = some username ∧
      taken.verifiedPage = some page ∧
      S' = S.setRecord token { taken with
        username := none, verifiedPage := none, completing := true
        completionLookup := some (hashUsernameLookup T username) } := by
  obtain ⟨r, r', hr, -, hoperation, rfl⟩ := change_ok h
  rw [demand_bind_eq_ok] at hoperation
  obtain ⟨username, hfound, hoperation⟩ := hoperation
  rw [Option.filter_eq_some_iff, decide_eq_true_iff] at hfound
  simp only [pure_eq_ok, Prod.mk.injEq] at hoperation
  obtain ⟨rfl, rfl⟩ := hoperation
  exact ⟨username, hr, hfound.1, hfound.2.2.2, rfl⟩

theorem restore_ok {taken : SetupRecord} {collision : Bool} {u : Unit}
    (h : restore S token binding taken collision = .ok (u, S')) :
    ∃ r, S.record token = some r ∧ r.generation = taken.generation ∧
      S' = S.setRecord token { r with
        username := taken.username, verifiedPage := none, completing := false
        collision := collision, completionLookup := none } := by
  obtain ⟨r, r', hr, -, hoperation, rfl⟩ := change_ok h
  rw [require_bind_eq_ok] at hoperation
  obtain ⟨hsame, hoperation⟩ := hoperation
  simp only [pure_eq_ok, Prod.mk.injEq] at hoperation
  obtain ⟨-, rfl⟩ := hoperation
  exact ⟨r, hr, hsame.2, rfl⟩

theorem completionIsValid_true {generation : ℕ} {value : String}
    (h : completionIsValid S token binding T generation value = true) :
    ∃ r, S.record token = some r ∧ r.scope = binding ∧ r.completing = true ∧
      r.generation = generation ∧ r.completionLookup = some (hashUsernameLookup T value) := by
  rw [completionIsValid] at h
  split at h
  · rename_i r hread
    obtain ⟨hr, hscope⟩ := readSetup_ok.1 hread
    rw [decide_eq_true_iff] at h
    exact ⟨r, hr, hscope, h⟩
  · cases h

end Records

section Stories

structure RecordStory (T : Texts) (log : List SetupEvent) (k : ℕ) (r : SetupRecord) : Prop where
  username : ∀ u, r.username = some u → GeneratedNow T k r.generation u log
  verified : ∀ p, r.verifiedPage = some p →
    ∃ u, r.username = some u ∧ TypedBack T k r.generation u p log
  completing : r.completing = true → ∀ u, r.completionLookup = some (hashUsernameLookup T u) →
    ConsumedNow T k r.generation u log

theorem SetupEvent.ne_generated (h : ¬ e.Reopens k) (g : ℕ) (u : String) :
    e ≠ .generated k g u := by
  rintro rfl
  exact h rfl

theorem RecordStory.append {newer : List SetupEvent} (h : RecordStory T log k r)
    (hnewer : ∀ e ∈ newer, ¬ e.Reopens k) : RecordStory T (newer ++ log) k r := by
  have hgenerated : ∀ e ∈ newer, ∀ g u, e ≠ .generated k g u :=
    fun e he ↦ SetupEvent.ne_generated (hnewer e he)
  refine ⟨?_, ?_, ?_⟩
  · intro u hu
    exact (h.username u hu).append hgenerated
  · intro p hp
    obtain ⟨u, hu, htyped⟩ := h.verified p hp
    exact ⟨u, hu, htyped.append hgenerated⟩
  · intro hcompleting u hu
    exact (h.completing hcompleting u hu).append hnewer

/-- What a principal's codes allow has been told by the log. -/
structure UserStory (K : SetupKeys) (last : ℕ) (log : List SetupEvent) (u : User) : Prop where
  authorized : ∀ h, u.recoverySetupNonceHash = some h → ∃ n deadline, h = K.recoveryNonceHash n ∧
    n ≤ last ∧ u.recoverySetupExpiresAt = some deadline ∧ AuthorizedUntil u.id n deadline log
  code : ∀ c, u.resetCode = some c → ∃ t, u.resetCodeExpiresAt = some (t + 10 * 60 * second) ∧
    Since (fun e ↦ (∀ c t, e ≠ .issued u.id c t) ∧ ∀ c n, e ≠ .validated u.id c n)
      (fun e _ ↦ e = .issued u.id c t) log

theorem UserStory.append {l : List SetupEvent} {last last' : ℕ} {u : User}
    (h : UserStory K last log u)
    (hnewer : ∀ e ∈ l, (∀ c t, e ≠ .issued u.id c t) ∧ ∀ c n, e ≠ .validated u.id c n)
    (hlast : last ≤ last') : UserStory K last' (l ++ log) u := by
  constructor
  · intro x hx
    obtain ⟨n, deadline, rfl, hn, hdeadline, hauthorized⟩ := h.authorized x hx
    exact ⟨n, deadline, rfl, hn.trans hlast, hdeadline, hauthorized.append hnewer⟩
  · intro c hc
    obtain ⟨t, ht, hissued⟩ := h.code c hc
    exact ⟨t, ht, hissued.append hnewer⟩

theorem UserStory.of_none {last : ℕ} {u : User} (hnonce : u.recoverySetupNonceHash = none)
    (hcode : u.resetCode = none) : UserStory K last log u := by
  constructor
  · intro h hh
    rw [hnonce] at hh
    cases hh
  · intro c hc
    rw [hcode] at hc
    cases hc

/-- A seat that a claim was activated for is bound, or its claim is of a later generation. -/
def SeatStory (log : List SetupEvent) (row : Seat) : Prop :=
  ∀ k g u generation t, .activated k g u (.seat row.id generation) t ∈ log →
    generation < row.claimGeneration ∨
      (generation = row.claimGeneration ∧ row.userId ≠ none)

inductive Scoped (K : SetupKeys) (tables : IdentityState) (last : ℕ) (log : List SetupEvent)
    (k : ℕ) (r : SetupRecord) : Prop
  | seat (id generation : ℕ) (classId : String) (howner : r.owner = .seat id)
      (hscope : r.scope = scopeDigest K (.seat id) [.str classId, .num generation])
      (hrows : ∀ row ∈ tables.seats, row.id = id → generation ≤ row.claimGeneration ∧
        (row.claimGeneration = generation → BegunNow k (.seat id generation) log))
  | user (id authorization : ℕ) (howner : r.owner = .user id)
      (hscope : r.scope = scopeDigest K (.user id) [.num authorization])
      (hlast : authorization ≤ last)
      (hrows : ∀ u ∈ tables.users, u.id = id →
        u.recoverySetupNonceHash = some (K.recoveryNonceHash authorization) →
          BegunNow k (.user id authorization) log)

def Indexed (S : SetupState) : Prop :=
  ∀ k r, S.record k = some r → ∃ i, S.owners r.owner = some i ∧ k ∈ i.tokens ∧
    r.expiresAt ≤ i.expiresAt

/-- The keys of seats and principals are unique, and those of principals given in turn. -/
structure Keyed (tables : IdentityState) : Prop where
  seats : (tables.seats.map (·.id)).Nodup
  users : (tables.users.map (·.id)).Nodup
  given : ∀ u ∈ tables.users, u.id ≤ tables.lastUserId

structure SetupInvariant (K : SetupKeys) (T : Texts) (S : SetupState) : Prop where
  keyed : Keyed S.tables
  issued : ∀ k r, S.record k = some r → k ≤ S.lastToken ∧ r.generation ≤ S.lastGeneration ∧
    r.expiresAt ≤ S.clock + ttlSeconds * second
  stories : ∀ k r, S.record k = some r → RecordStory T S.log k r
  inScope : ∀ k r, S.record k = some r →
    Scoped K S.tables S.lastAuthorization S.log k r
  indexed : Indexed S
  taken : ∀ k t, (k, t) ∈ S.taken → t.generation ≤ S.lastGeneration ∧
    ∀ r, S.record k = some r → r.generation = t.generation →
      ∀ u, t.username = some u → GeneratedNow T k t.generation u S.log
  users : ∀ u ∈ S.tables.users, UserStory K S.lastAuthorization S.log u
  seats : ∀ row ∈ S.tables.seats, SeatStory S.log row
  spent : ∀ k g u target t, .activated k g u target t ∈ S.log →
    k ≤ S.lastToken ∧ S.record k = none
  lawful : Lawful (Backed T) S.log

theorem Indexed.mem_tokensOf (h : Indexed S) (hr : S.record k = some r) :
    k ∈ S.tokensOf r.owner := by
  obtain ⟨i, hi, hmem, hexpires⟩ := h k r hr
  have hlive : S.clock < i.expiresAt := (record_some.1 hr).2.trans_le hexpires
  rw [SetupState.tokensOf, hi, Option.filter_some, if_pos (decide_eq_true hlive)]
  exact hmem

end Stories

section Frames

/-- A state whose records are among those of another. -/
theorem SetupInvariant.fewer (hi : SetupInvariant K T S) (hlog : S'.log = S.log)
    (htables : S'.tables = S.tables) (htaken : S'.taken = S.taken)
    (hlast : S'.lastToken = S.lastToken ∧ S'.lastGeneration = S.lastGeneration ∧
      S'.lastAuthorization = S.lastAuthorization) (hclock : S.clock ≤ S'.clock)
    (hrecords : ∀ k r, S'.record k = some r → S.record k = some r) (hindexed : Indexed S') :
    SetupInvariant K T S' := by
  obtain ⟨htoken, hgeneration, hauthorization⟩ := hlast
  refine ⟨htables ▸ hi.keyed, ?_, ?_, ?_, hindexed, ?_, ?_, ?_, ?_, ?_⟩
  · intro k r hr
    obtain ⟨hk, hg, hexpires⟩ := hi.issued k r (hrecords k r hr)
    rw [htoken, hgeneration]
    exact ⟨hk, hg, hexpires.trans (by simpa using hclock)⟩
  · intro k r hr
    rw [hlog]
    exact hi.stories k r (hrecords k r hr)
  · intro k r hr
    cases hi.inScope k r (hrecords k r hr) with
    | seat id generation classId howner hscope hrows =>
      exact .seat id generation classId howner hscope (by rwa [htables, hlog])
    | user id authorization howner hscope hlast hrows =>
      exact .user id authorization howner hscope (by rwa [hauthorization])
        (by rwa [htables, hlog])
  · intro k t hk
    rw [htaken] at hk
    obtain ⟨hg, hcurrent⟩ := hi.taken k t hk
    rw [hgeneration, hlog]
    exact ⟨hg, fun r hr ↦ hcurrent r (hrecords k r hr)⟩
  · rw [htables, hlog, hauthorization]
    exact hi.users
  · rw [htables, hlog]
    exact hi.seats
  · intro k g u target t he
    rw [hlog] at he
    obtain ⟨hk, hnone⟩ := hi.spent k g u target t he
    rw [htoken]
    refine ⟨hk, ?_⟩
    cases hr : S'.record k with
    | none => rfl
    | some r =>
      rw [hrecords k r hr] at hnone
      cases hnone
  · rw [hlog]
    exact hi.lawful

theorem SetupInvariant.elapsed (hi : SetupInvariant K T S) (d : ℕ) :
    SetupInvariant K T { S with clock := S.clock + d } := by
  have hclock : S.clock ≤ S.clock + d := by
    simp
  have hrecords : ∀ k r, SetupState.record { S with clock := S.clock + d } k = some r →
      S.record k = some r := by
    intro k r hr
    obtain ⟨hrecord, hlive⟩ := record_some.1 hr
    exact record_some.2 ⟨hrecord, hclock.trans_lt hlive⟩
  exact hi.fewer rfl rfl rfl ⟨rfl, rfl, rfl⟩ hclock hrecords
    fun k r hr ↦ hi.indexed k r (hrecords k r hr)

theorem SetupInvariant.discard (hi : SetupInvariant K T S) (token : ℕ) :
    SetupInvariant K T (discard S token) := by
  have hrecords : ∀ k r, (Identity.discard S token).record k = some r → S.record k = some r := by
    intro k r hr
    obtain ⟨hrecord, hlive⟩ := record_some.1 hr
    change Function.update S.records token none k = some r at hrecord
    by_cases hk : k = token
    · subst hk
      rw [Function.update_self] at hrecord
      cases hrecord
    · rw [Function.update_of_ne hk] at hrecord
      exact record_some.2 ⟨hrecord, hlive⟩
  exact hi.fewer rfl rfl rfl ⟨rfl, rfl, rfl⟩ le_rfl hrecords
    fun k r hr ↦ hi.indexed k r (hrecords k r hr)

theorem forgetOwner_record {owner : Owner} (h : (forgetOwner S owner).record k = some r) :
    S.record k = some r ∧ k ∉ S.tokensOf owner := by
  obtain ⟨hrecord, hlive⟩ := record_some.1 h
  simp only [forgetOwner] at hrecord
  split_ifs at hrecord with hk
  exact ⟨record_some.2 ⟨hrecord, hlive⟩, hk⟩

theorem SetupInvariant.forgetOwner (hi : SetupInvariant K T S) (owner : Owner) :
    SetupInvariant K T (forgetOwner S owner) := by
  refine hi.fewer rfl rfl rfl ⟨rfl, rfl, rfl⟩ le_rfl (fun k r hr ↦ (forgetOwner_record hr).1) ?_
  intro k r hr
  obtain ⟨hrecord, hk⟩ := forgetOwner_record hr
  have hne : r.owner ≠ owner := by
    rintro rfl
    exact hk (hi.indexed.mem_tokensOf hrecord)
  obtain ⟨i, hi, hmem⟩ := hi.indexed k r hrecord
  refine ⟨i, ?_, hmem⟩
  exact (Function.update_of_ne hne _ _).trans hi

theorem BegunNow.now (target : Target) (t : Instant) :
    BegunNow k target (.begun k target t :: log) := by
  cases target with
  | seat id generation => exact Or.inl ⟨t, rfl⟩
  | user id authorization => exact Or.inl ⟨t, rfl⟩

theorem BegunNow.append {newer : List SetupEvent} {target : Target} (h : BegunNow k target log)
    (hnewer : ∀ e ∈ newer, (∀ id, e ≠ .unclaimed id) ∧ ∀ id c t, e ≠ .issued id c t) :
    BegunNow k target (newer ++ log) := by
  cases target with
  | seat id generation => exact Since.append (fun e he ↦ (hnewer e he).1 id) h
  | user id authorization => exact Since.append (fun e he ↦ (hnewer e he).2 id) h

/-- What an operation on the record of a token tells the log. -/
def SetupEvent.Revises (token : ℕ) : SetupEvent → Prop
  | .generated k .. => k = token
  | .verified k .. => k = token
  | .taken k .. => k = token
  | .restored k => k = token
  | _ => False

/-- What an operation on a record tells concerns no other token, seat or principal. -/
structure SetupEvent.Quiet (token : ℕ) (e : SetupEvent) : Prop where
  unclaimed : ∀ id, e ≠ .unclaimed id
  issued : ∀ id c t, e ≠ .issued id c t
  validated : ∀ id c n, e ≠ .validated id c n
  activated : ∀ k g u target t, e ≠ .activated k g u target t
  reopens : ∀ k, k ≠ token → ¬ e.Reopens k

theorem SetupEvent.Revises.quiet (h : e.Revises token) : e.Quiet token := by
  constructor
  · rintro id rfl
    exact h
  · rintro id c t rfl
    exact h
  · rintro id c n rfl
    exact h
  · rintro k g u target t rfl
    exact h
  · intro k hk hreopens
    cases e <;> first | exact hk (hreopens.symm.trans h) | exact hreopens | exact h

theorem SetupEvent.Revises.backed (h : e.Revises token) : Backed T e log := by
  cases e <;> trivial

theorem lawful_append {newer : List SetupEvent} (h : Lawful (Backed T) log)
    (hnewer : ∀ e ∈ newer, ∀ older, Backed T e older) : Lawful (Backed T) (newer ++ log) := by
  induction newer with
  | nil => exact h
  | cons e newer ih =>
    obtain ⟨he, hnewer⟩ := List.forall_mem_cons.1 hnewer
    exact ⟨he _, ih hnewer⟩

theorem setRecord_record (h : (S.setRecord token r').record k = some r) :
    (k = token ∧ r = r') ∨ (k ≠ token ∧ S.record k = some r) := by
  obtain ⟨hrecord, hlive⟩ := record_some.1 h
  change Function.update S.records token (some r') k = some r at hrecord
  by_cases hk : k = token
  · subst hk
    rw [Function.update_self, Option.some.injEq] at hrecord
    exact .inl ⟨rfl, hrecord.symm⟩
  · rw [Function.update_of_ne hk] at hrecord
    exact .inr ⟨hk, record_some.2 ⟨hrecord, hlive⟩⟩

theorem SetupInvariant.revised {l : List SetupEvent} {g : ℕ} (hi : SetupInvariant K T S)
    (hr : S.record token = some r) (howner : r'.owner = r.owner) (hscope : r'.scope = r.scope)
    (hexpires : r'.expiresAt = r.expiresAt) (hg : S.lastGeneration ≤ g)
    (hgeneration : r'.generation ≤ g)
    (hsame : (r'.generation = r.generation ∧ ∀ e ∈ l, ∀ g u, e ≠ .generated token g u) ∨
      S.lastGeneration < r'.generation)
    (hnewer : ∀ e ∈ l, e.Revises token) (hstory : RecordStory T (l ++ S.log) token r') :
    SetupInvariant K T
      { S.setRecord token r' with lastGeneration := g, log := l ++ S.log } := by
  have hquiet : ∀ e ∈ l, e.Quiet token := fun e he ↦ (hnewer e he).quiet
  have hnone : ∀ e ∈ l, (∀ id, e ≠ .unclaimed id) ∧ ∀ id c t, e ≠ .issued id c t :=
    fun e he ↦ ⟨(hquiet e he).unclaimed, (hquiet e he).issued⟩
  have hactivated : ∀ k g u target t, .activated k g u target t ∈ l ++ S.log →
      .activated k g u target t ∈ S.log := by
    intro k g u target t he
    rcases List.mem_append.1 he with he | he
    · exact absurd rfl ((hquiet _ he).activated k g u target t)
    · exact he
  obtain ⟨htoken, -, hexpiry⟩ := hi.issued token r hr
  have hlive : ∀ k x, (S.setRecord token r').record k = some x →
      (k = token ∧ x = r') ∨ (k ≠ token ∧ S.record k = some x) := fun k x ↦ setRecord_record
  refine ⟨hi.keyed, ?_, ?_, ?_, ?_, ?_, ?_, ?_, ?_, ?_⟩
  · intro k x hx
    rcases hlive k x hx with ⟨rfl, rfl⟩ | ⟨hk, hx⟩
    · exact ⟨htoken, hgeneration, hexpires ▸ hexpiry⟩
    · obtain ⟨hk', hx', hexpiry'⟩ := hi.issued k x hx
      exact ⟨hk', hx'.trans hg, hexpiry'⟩
  · intro k x hx
    rcases hlive k x hx with ⟨rfl, rfl⟩ | ⟨hk, hx⟩
    · exact hstory
    · exact (hi.stories k x hx).append fun e he ↦ (hquiet e he).reopens k hk
  · intro k x hx
    obtain ⟨y, hy, howner', hscope'⟩ : ∃ y, S.record k = some y ∧ x.owner = y.owner ∧
        x.scope = y.scope := by
      rcases hlive k x hx with ⟨rfl, rfl⟩ | ⟨hk, hx⟩
      · exact ⟨r, hr, howner, hscope⟩
      · exact ⟨x, hx, rfl, rfl⟩
    cases hi.inScope k y hy with
    | seat id generation classId howner'' hscope'' hrows =>
      refine .seat id generation classId (howner'.trans howner'') (hscope'.trans hscope'') ?_
      intro row hrow hid
      exact ⟨(hrows row hrow hid).1, fun heq ↦ ((hrows row hrow hid).2 heq).append hnone⟩
    | user id authorization howner'' hscope'' hlast hrows =>
      refine .user id authorization (howner'.trans howner'') (hscope'.trans hscope'') hlast ?_
      intro u hu hid hnonce
      exact (hrows u hu hid hnonce).append hnone
  · intro k x hx
    rcases hlive k x hx with ⟨rfl, rfl⟩ | ⟨hk, hx⟩
    · rw [howner, hexpires]
      exact hi.indexed k r hr
    · exact hi.indexed k x hx
  · intro k t hk
    obtain ⟨ht, hcurrent⟩ := hi.taken k t hk
    refine ⟨ht.trans hg, ?_⟩
    intro x hx hgen u hu
    rcases hlive k x hx with ⟨rfl, rfl⟩ | ⟨hk, hx⟩
    · rcases hsame with ⟨hsame, hgenerated⟩ | hfresh
      · exact (hcurrent r hr (hsame.symm.trans hgen) u hu).append hgenerated
      · omega
    · refine (hcurrent x hx hgen u hu).append ?_
      exact fun e he ↦ SetupEvent.ne_generated ((hquiet e he).reopens k hk)
  · intro u hu
    exact (hi.users u hu).append (fun e he ↦ ⟨(hquiet e he).issued u.id, (hquiet e he).validated u.id⟩)
      le_rfl
  · intro row hrow k g u generation t he
    exact hi.seats row hrow k g u generation t (hactivated _ _ _ _ _ he)
  · intro k g u target t he
    obtain ⟨hk, hnone'⟩ := hi.spent k g u target t (hactivated _ _ _ _ _ he)
    refine ⟨hk, ?_⟩
    cases hx : SetupState.record
        { S.setRecord token r' with lastGeneration := _, log := l ++ S.log } k with
    | none => rfl
    | some x =>
      rcases hlive k x hx with ⟨rfl, rfl⟩ | ⟨-, hx⟩
      · rw [hr] at hnone'
        cases hnone'
      · rw [hx] at hnone'
        cases hnone'
  · exact lawful_append hi.lawful fun e he older ↦ (hnewer e he).backed

theorem beginSetup_record {owner : Owner} {ttl : ℤ}
    (h : (beginSetup S binding owner ttl).2.record k = some r) :
    (k = S.lastToken + 1 ∧ r.owner = owner ∧ r.scope = binding ∧
        r.generation = S.lastGeneration + 1 ∧ r.username = none ∧ r.verifiedPage = none ∧
        r.completing = false ∧ r.expiresAt ≤ S.clock + ttlSeconds * second) ∨
      (k ≠ S.lastToken + 1 ∧ S.record k = some r) := by
  obtain ⟨hrecord, hlive⟩ := record_some.1 h
  change Function.update S.records (S.lastToken + 1) (some _) k = some r at hrecord
  by_cases hk : k = S.lastToken + 1
  · subst hk
    rw [Function.update_self, Option.some.injEq] at hrecord
    subst hrecord
    refine .inl ⟨rfl, rfl, rfl, rfl, rfl, rfl, rfl, ?_⟩
    change S.clock + max 1 (min 1800 ttl) * 1000000 ≤ S.clock + 1800 * 1000000
    have hmax : max 1 (min 1800 ttl) ≤ 1800 := max_le (by decide) (min_le_left _ _)
    have hscaled := mul_le_mul_of_nonneg_right hmax (show (0 : ℤ) ≤ 1000000 by decide)
    exact add_le_add_right hscaled S.clock
  · rw [Function.update_of_ne hk] at hrecord
    exact .inr ⟨hk, record_some.2 ⟨hrecord, hlive⟩⟩

theorem Indexed.begun {owner : Owner} {ttl : ℤ} (h : Indexed S)
    (hexpiry : ∀ k r, S.record k = some r → r.expiresAt ≤ S.clock + ttlSeconds * second) :
    Indexed (beginSetup S binding owner ttl).2 := by
  have hlater : S.clock + ttlSeconds * second ≤ S.clock + (ttlSeconds + 60) * second :=
    add_le_add_right (by decide) S.clock
  intro k r hr
  by_cases howner : r.owner = owner
  · subst howner
    refine ⟨_, Function.update_self _ _ _, ?_⟩
    rcases beginSetup_record hr with ⟨rfl, -, -, -, -, -, -, hexpires⟩ | ⟨-, hrecord⟩
    · exact ⟨List.mem_cons_self, hexpires.trans hlater⟩
    · exact ⟨List.mem_cons_of_mem _ (h.mem_tokensOf hrecord), (hexpiry k r hrecord).trans hlater⟩
  · rcases beginSetup_record hr with ⟨-, howner', -⟩ | ⟨-, hrecord⟩
    · exact absurd howner' howner
    · obtain ⟨i, hi, hmem⟩ := h k r hrecord
      exact ⟨i, (Function.update_of_ne howner _ _).trans hi, hmem⟩

theorem SetupInvariant.begun {owner : Owner} {ttl : ℤ} (hi : SetupInvariant K T S)
    (target : Target) (htime : InTime target S.clock S.log)
    (hscoped : ∀ r, r.owner = owner → r.scope = binding → Scoped K S.tables S.lastAuthorization
      (.begun (S.lastToken + 1) target S.clock :: S.log) (S.lastToken + 1) r) :
    SetupInvariant K T { (beginSetup S binding owner ttl).2 with
      log := .begun (S.lastToken + 1) target S.clock :: S.log } := by
  have hlive : ∀ k x, (beginSetup S binding owner ttl).2.record k = some x →
      (k = S.lastToken + 1 ∧ x.owner = owner ∧ x.scope = binding ∧
        x.generation = S.lastGeneration + 1 ∧ x.username = none ∧ x.verifiedPage = none ∧
        x.completing = false ∧ x.expiresAt ≤ S.clock + ttlSeconds * second) ∨
      (k ≠ S.lastToken + 1 ∧ S.record k = some x) := fun k x ↦ beginSetup_record
  have hlog : ∀ e ∈ [SetupEvent.begun (S.lastToken + 1) target S.clock],
      ∀ k, ¬ e.Reopens k := by
    intro e he k
    rw [List.mem_singleton.1 he]
    exact id
  have hnone : ∀ e ∈ [SetupEvent.begun (S.lastToken + 1) target S.clock],
      (∀ id, e ≠ .unclaimed id) ∧ ∀ id c t, e ≠ .issued id c t := by
    intro e he
    rw [List.mem_singleton.1 he]
    exact ⟨nofun, nofun⟩
  have hactivated : ∀ k g u tgt t, .activated k g u tgt t ∈
      SetupEvent.begun (S.lastToken + 1) target S.clock :: S.log →
      .activated k g u tgt t ∈ S.log := by
    intro k g u tgt t he
    rcases List.mem_cons.1 he with he | he
    · cases he
    · exact he
  refine ⟨hi.keyed, ?_, ?_, ?_, ?_, ?_, ?_, ?_, ?_, htime, hi.lawful⟩
  · intro k x hx
    rcases hlive k x hx with ⟨rfl, -, -, hgen, -, -, -, hexpires⟩ | ⟨-, hx⟩
    · exact ⟨le_rfl, hgen.le, hexpires⟩
    · obtain ⟨hk, hgen, hexpires⟩ := hi.issued k x hx
      exact ⟨hk.trans (Nat.le_succ _), hgen.trans (Nat.le_succ _), hexpires⟩
  · intro k x hx
    rcases hlive k x hx with ⟨-, -, -, -, husername, hverified, hcompleting, -⟩ | ⟨-, hx⟩
    · refine ⟨?_, ?_, ?_⟩
      · intro u hu
        rw [husername] at hu
        cases hu
      · intro p hp
        rw [hverified] at hp
        cases hp
      · intro h
        rw [hcompleting] at h
        cases h
    · exact (hi.stories k x hx).append fun e he ↦ hlog e he k
  · intro k x hx
    rcases hlive k x hx with ⟨rfl, howner, hscope, -⟩ | ⟨-, hx⟩
    · exact hscoped x howner hscope
    · cases hi.inScope k x hx with
      | seat id generation classId howner hscope hrows =>
        refine .seat id generation classId howner hscope ?_
        intro row hrow hid
        exact ⟨(hrows row hrow hid).1, fun heq ↦ ((hrows row hrow hid).2 heq).append hnone⟩
      | user id authorization howner hscope hlast hrows =>
        refine .user id authorization howner hscope hlast ?_
        intro u hu hid hnonce
        exact (hrows u hu hid hnonce).append hnone
  · exact hi.indexed.begun fun k r hr ↦ (hi.issued k r hr).2.2
  · intro k t hk
    obtain ⟨ht, hcurrent⟩ := hi.taken k t hk
    refine ⟨ht.trans (Nat.le_succ _), ?_⟩
    intro x hx hgen u hu
    rcases hlive k x hx with ⟨-, -, -, hgen', -⟩ | ⟨-, hx⟩
    · omega
    · have hgenerated := hcurrent x hx hgen u hu
      exact Since.later (e := .begun (S.lastToken + 1) target S.clock) (fun _ _ ↦ nofun) hgenerated
  · intro u hu
    have hstory : UserStory K S.lastAuthorization
        ([.begun (S.lastToken + 1) target S.clock] ++ S.log) u := by
      refine (hi.users u hu).append ?_ le_rfl
      intro e he
      rw [List.mem_singleton.1 he]
      exact ⟨nofun, nofun⟩
    exact hstory
  · intro row hrow k g u generation t he
    exact hi.seats row hrow k g u generation t (hactivated _ _ _ _ _ he)
  · intro k g u tgt t he
    obtain ⟨hk, hnone'⟩ := hi.spent k g u tgt t (hactivated _ _ _ _ _ he)
    refine ⟨hk.trans (Nat.le_succ _), ?_⟩
    refine Option.eq_none_iff_forall_ne_some.2 fun x hx ↦ ?_
    rcases hlive k x hx with ⟨rfl, -⟩ | ⟨-, hx⟩
    · omega
    · rw [hx] at hnone'
      cases hnone'

/-- What a command on the tables, told by an entry of the log, does to seats and principals. -/
structure TablesMove (K : SetupKeys) (S : SetupState) (tables : IdentityState) (last : ℕ)
    (e : SetupEvent) : Prop where
  keyed : Keyed tables
  newest : S.lastAuthorization ≤ last
  seats : ∀ row' ∈ tables.seats, ∃ row ∈ S.tables.seats, row'.id = row.id ∧
    (row'.claimGeneration = row.claimGeneration ∧ (row.userId ≠ none → row'.userId ≠ none) ∧
        e ≠ .unclaimed row.id ∨
      row.claimGeneration < row'.claimGeneration)
  nonces : ∀ u' ∈ tables.users, ∀ n ≤ S.lastAuthorization,
    u'.recoverySetupNonceHash = some (K.recoveryNonceHash n) →
      (∀ c t, e ≠ .issued u'.id c t) ∧ ∃ u ∈ S.tables.users, u.id = u'.id ∧
        u.recoverySetupNonceHash = u'.recoverySetupNonceHash
  users : ∀ u' ∈ tables.users, UserStory K last (e :: S.log) u'
  bound : ∀ row' ∈ tables.seats, ∀ k g u generation t,
    e = .activated k g u (.seat row'.id generation) t →
      generation = row'.claimGeneration ∧ row'.userId ≠ none
  reopens : ∀ k, e.Reopens k → S.record k = none
  spent : ∀ k g u target t, e = .activated k g u target t → k ≤ S.lastToken

theorem SetupInvariant.moved {tables : IdentityState} {last : ℕ} (hi : SetupInvariant K T S)
    (hmove : TablesMove K S tables last e) (hbacked : Backed T e S.log) :
    SetupInvariant K T
      { S with tables := tables, lastAuthorization := last, log := e :: S.log } := by
  have hreopens : ∀ k r, S.record k = some r → ¬ e.Reopens k := by
    intro k r hr he
    rw [hmove.reopens k he] at hr
    cases hr
  refine ⟨hmove.keyed, hi.issued, ?_, ?_, hi.indexed, ?_, hmove.users, ?_, ?_, hbacked, hi.lawful⟩
  · intro k r hr
    have hstory : RecordStory T ([e] ++ S.log) k r := by
      refine (hi.stories k r hr).append ?_
      intro x hx
      rw [List.mem_singleton.1 hx]
      exact hreopens k r hr
    exact hstory
  · intro k r hr
    cases hi.inScope k r hr with
    | seat id generation classId howner hscope hrows =>
      refine .seat id generation classId howner hscope ?_
      intro row' hrow' hid
      obtain ⟨row, hrow, hid', hcase⟩ := hmove.seats row' hrow'
      rw [hid'] at hid
      obtain ⟨hle, hbegun⟩ := hrows row hrow hid
      rcases hcase with ⟨hsame, -, hne⟩ | hlt
      · rw [hsame]
        refine ⟨hle, fun heq ↦ ?_⟩
        rw [hid] at hne
        exact Since.later (e := e) hne (hbegun heq)
      · exact ⟨hle.trans hlt.le, fun heq ↦ by omega⟩
    | user id authorization howner hscope hlast hrows =>
      refine .user id authorization howner hscope (hlast.trans hmove.newest) ?_
      intro u' hu' hid hnonce
      obtain ⟨hne, u, hu, hid', hsame⟩ := hmove.nonces u' hu' authorization hlast hnonce
      rw [hid] at hne
      exact Since.later (e := e) hne (hrows u hu (hid'.trans hid) (hsame.trans hnonce))
  · intro k t hk
    obtain ⟨ht, hcurrent⟩ := hi.taken k t hk
    refine ⟨ht, ?_⟩
    intro r hr hgen u hu
    have hgenerated := hcurrent r hr hgen u hu
    exact Since.later (e := e) (SetupEvent.ne_generated (hreopens k r hr)) hgenerated
  · intro row' hrow' k g u generation t he
    rcases List.mem_cons.1 he with he | he
    · exact .inr (hmove.bound row' hrow' k g u generation t he.symm)
    · obtain ⟨row, hrow, hid, hcase⟩ := hmove.seats row' hrow'
      rw [hid] at he
      have hstory := hi.seats row hrow k g u generation t he
      rcases hcase with ⟨hsame, hbound, -⟩ | hlt
      · rw [hsame]
        exact hstory.imp id fun h ↦ ⟨h.1, hbound h.2⟩
      · left
        omega
  · intro k g u target t he
    rcases List.mem_cons.1 he with he | he
    · exact ⟨hmove.spent k g u target t he.symm, hmove.reopens k (he ▸ rfl)⟩
    · exact hi.spent k g u target t he

end Frames

section Operations

theorem GeneratedNow.of_normal {token g : ℕ} {u v : String} (h : GeneratedNow T token g u log)
    (huv : normalizeUsername T u = normalizeUsername T v) : GeneratedNow T token g v log := by
  refine Since.imp (fun _ h ↦ h) ?_ h
  rintro e older ⟨w, he, hw⟩
  exact ⟨w, he, hw.trans huv⟩

theorem TypedBack.of_normal {token g : ℕ} {u v page : String}
    (h : TypedBack T token g u page log)
    (huv : normalizeUsername T u = normalizeUsername T v) : TypedBack T token g v page log := by
  refine Since.imp (fun _ h ↦ h) ?_ h
  rintro e older ⟨typed, he, htyped, hgenerated⟩
  exact ⟨typed, he, htyped.trans huv, hgenerated.of_normal huv⟩

theorem SetupInvariant.generate {value : String} (hi : SetupInvariant K T S) :
    SetupInvariant K T (told S (generate S token binding value) fun written ↦
      if written then some (.generated token (S.lastGeneration + 1) value) else none) := by
  cases hok : Identity.generate S token binding value with
  | error x => exact hi
  | ok out =>
    obtain ⟨written, S'⟩ := out
    obtain ⟨r, hr, hcase⟩ := generate_ok hok
    obtain ⟨-, hgen, -⟩ := hi.issued token r hr
    rcases hcase with ⟨rfl, rfl⟩ | ⟨rfl, hcompleting, rfl⟩
    · have hsame : SetupInvariant K T { S.setRecord token r with
          lastGeneration := S.lastGeneration + 1, log := [] ++ S.log } :=
        hi.revised hr rfl rfl rfl (Nat.le_succ _) (hgen.trans (Nat.le_succ _)) (.inl ⟨rfl, nofun⟩)
          nofun (hi.stories token r hr)
      exact hsame
    · refine hi.revised (l := [.generated token (S.lastGeneration + 1) value]) hr rfl rfl rfl
        (Nat.le_succ _) le_rfl (.inr (Nat.lt_succ_self _)) ?_ ⟨?_, nofun, ?_⟩
      · intro e he
        rw [List.mem_singleton.1 he]
        exact rfl
      · intro u hu
        exact Since.now ⟨value, rfl, by rw [Option.some.inj hu]⟩
      · intro h
        rw [hcompleting] at h
        cases h

theorem SetupInvariant.verify {page typed : String} (hi : SetupInvariant K T S)
    (hT : T.Separates) :
    SetupInvariant K T (told S (verify S token binding T page typed) fun out ↦
      if out.1 then some (.verified token page typed) else none) := by
  cases hok : Identity.verify S token binding T page typed with
  | error x => exact hi
  | ok out =>
    obtain ⟨⟨matched, attempts⟩, S'⟩ := out
    obtain ⟨r, username, hr, husername, hcompleting, hmatched, rfl⟩ := verify_ok hok
    obtain ⟨-, hgen, -⟩ := hi.issued token r hr
    have hgenerated := (hi.stories token r hr).username username husername
    cases matched with
    | false =>
      have hmissed : SetupInvariant K T { S.setRecord token { r with
          attempts := attempts, verifiedPage := none } with
          lastGeneration := S.lastGeneration, log := [] ++ S.log } := by
        refine hi.revised hr rfl rfl rfl le_rfl hgen (.inl ⟨rfl, nofun⟩) nofun ⟨?_, nofun, ?_⟩
        · exact (hi.stories token r hr).username
        · exact (hi.stories token r hr).completing
      exact hmissed
    | true =>
      refine hi.revised (l := [.verified token page typed]) hr rfl rfl rfl le_rfl hgen
        (.inl ⟨rfl, ?_⟩) ?_ ⟨?_, ?_, ?_⟩
      · intro e he
        rw [List.mem_singleton.1 he]
        exact fun _ _ ↦ nofun
      · intro e he
        rw [List.mem_singleton.1 he]
        exact rfl
      · intro u hu
        have hstory := (hi.stories token r hr).username u hu
        exact hstory.later (fun _ _ ↦ nofun)
      · intro p hp
        obtain rfl := Option.some.inj hp
        refine ⟨username, husername, Since.now ⟨typed, rfl, ?_, hgenerated⟩⟩
        exact hashUsernameLookup_inj hT (hmatched rfl)
      · intro h
        rw [hcompleting] at h
        cases h

theorem SetupInvariant.takeVerified {page : String} {taken : SetupRecord}
    (hi : SetupInvariant K T S) (hT : T.Separates)
    (hok : takeVerified S token binding T page = .ok (taken, S')) :
    SetupInvariant K T { S' with
      taken := (token, taken) :: S'.taken
      log := .taken token taken.generation page :: S'.log } := by
  obtain ⟨username, hr, husername, hverified, rfl⟩ := takeVerified_ok hok
  obtain ⟨-, hgen, -⟩ := hi.issued token taken hr
  obtain ⟨u, hu, htyped⟩ := (hi.stories token taken hr).verified page hverified
  obtain rfl : username = u := Option.some.inj (husername.symm.trans hu)
  have hrevised : SetupInvariant K T { S.setRecord token { taken with
      username := none, verifiedPage := none, completing := true
      completionLookup := some (hashUsernameLookup T username) } with
      lastGeneration := S.lastGeneration
      log := [.taken token taken.generation page] ++ S.log } := by
    refine hi.revised hr rfl rfl rfl le_rfl hgen (.inl ⟨rfl, ?_⟩) ?_ ⟨nofun, nofun, ?_⟩
    · intro e he
      rw [List.mem_singleton.1 he]
      exact fun _ _ ↦ nofun
    · intro e he
      rw [List.mem_singleton.1 he]
      exact rfl
    · intro _ v hv
      refine Since.now ⟨page, rfl, htyped.of_normal ?_⟩
      exact hashUsernameLookup_inj hT (Option.some.inj hv)
  obtain ⟨hkeyed, hissued, hstories, hscoped, hindexed, htaken, husers, hseats, hspent, hlawful⟩ :=
    hrevised
  refine ⟨hkeyed, hissued, hstories, hscoped, hindexed, ?_, husers, hseats, hspent, hlawful⟩
  intro k t hk
  rcases List.mem_cons.1 hk with hk | hk
  · obtain ⟨rfl, rfl⟩ := Prod.mk.inj hk
    refine ⟨hgen, ?_⟩
    intro r _ _ v hv
    have hgenerated := (hi.stories k t hr).username v hv
    exact Since.later (e := .taken k t.generation page) (fun _ _ ↦ nofun) hgenerated
  · exact htaken k t hk

theorem SetupInvariant.restore {taken : SetupRecord} {collision : Bool}
    (hi : SetupInvariant K T S) (hmem : (token, taken) ∈ S.taken) :
    SetupInvariant K T (told S (restore S token binding taken collision) fun _ ↦
      some (.restored token)) := by
  cases hok : Identity.restore S token binding taken collision with
  | error x => exact hi
  | ok out =>
    obtain ⟨u, S'⟩ := out
    obtain ⟨r, hr, hsame, rfl⟩ := restore_ok hok
    obtain ⟨-, hgen, -⟩ := hi.issued token r hr
    refine hi.revised (l := [.restored token]) hr rfl rfl rfl le_rfl hgen (.inl ⟨rfl, ?_⟩) ?_
      ⟨?_, nofun, nofun⟩
    · intro e he
      rw [List.mem_singleton.1 he]
      exact fun _ _ ↦ nofun
    · intro e he
      rw [List.mem_singleton.1 he]
      exact rfl
    · intro u hu
      have hgenerated := (hi.taken token taken hmem).2 r hr hsame u hu
      rw [← hsame] at hgenerated
      exact hgenerated.later (fun _ _ ↦ nofun)

end Operations

end TokenHub.Identity
