import TokenHub.TeacherRecovery.Attempts

set_option autoImplicit false

namespace TokenHub.TeacherRecovery

open Lib.Checks Lib.Past Lib.Json Identity
open Rent (Instant)

variable {T : Texts} {K : RecoveryKeys} {S S' : RecoveryState} {log : List RecoveryEvent}
  {e : RecoveryEvent} {r row : RecoveryRequest} {user : Principal} {requestId : ℕ}
  {classId : String} {ch challenge : RecoveryClassChallenge} {c : StudentRecoveryCode}

section Rows

theorem codeDigest_inj {v v' : String} {n n' : ℕ} {c c' : String} (hK : Function.Injective K.hmac)
    (h : codeDigest K v n c = codeDigest K v' n' c') : v = v' := by
  have hvalues := dumps_injective (hK h)
  simp only [Value.arr.injEq, List.cons.injEq, Value.str.injEq] at hvalues
  exact hvalues.2.2.2.1

theorem activeRow_ok (h : activeRow S requestId = .ok (user, row)) :
    row ∈ S.requests ∧ row.id = requestId ∧ user ∈ S.users ∧ user.id = row.userId ∧
      row.IsActive S.clock := by
  rw [activeRow, demand_eq_ok, Option.filter_eq_some_iff, decide_eq_true_iff] at h
  obtain ⟨hlock, hactive⟩ := h
  simp only [lock, Option.bind_eq_some_iff, Option.map_eq_some_iff, Prod.mk.injEq] at hlock
  obtain ⟨row', hrow, user', huser, rfl, rfl⟩ := hlock
  have hid : row'.id = requestId := by simpa using List.find?_some hrow
  have howner := List.find?_some huser
  rw [decide_eq_true_iff] at howner
  exact ⟨List.mem_of_find?_eq_some hrow, hid, List.mem_of_find?_eq_some huser, howner.1, hactive⟩

theorem classRow_some (h : classRow S row classId = some challenge) :
    challenge ∈ S.challenges ∧ challenge.requestId = row.id ∧ challenge.classId = classId := by
  rw [classRow] at h
  split_ifs at h
  have hkey := List.find?_some h
  rw [decide_eq_true_iff] at hkey
  exact ⟨List.mem_of_find?_eq_some h, hkey⟩

end Rows

section Invariant

def ChallengeStory (requests : List RecoveryRequest) (log : List RecoveryEvent)
    (ch : RecoveryClassChallenge) : Prop :=
  ∀ r ∈ requests, r.id = ch.requestId → ∀ n, ch.satisfiedRound = some n →
    n ≤ r.submissionRound ∧ (n = r.submissionRound → ConfirmedNow r.id ch.classId n log)

def CodeStory (K : RecoveryKeys) (requests : List RecoveryRequest) (log : List RecoveryEvent)
    (c : StudentRecoveryCode) : Prop :=
  ∀ h, c.codeHash = some h → ∃ value n expiresAt,
    h = codeDigest K value c.requestId c.classId ∧ c.issuedRound = some n ∧
      c.codeExpiresAt = some expiresAt ∧ ∀ r ∈ requests, r.id = c.requestId →
        n ≤ r.submissionRound ∧
          (n = r.submissionRound → IssuedNow r.id c.classId c.seatId value n expiresAt log)

structure RecoveryInvariant (K : RecoveryKeys) (S : RecoveryState) : Prop where
  requestIds : (S.requests.map (·.id)).Nodup
  given : ∀ r ∈ S.requests, r.id ≤ S.lastRequestId
  challengesGiven : ∀ ch ∈ S.challenges, ch.requestId ≤ S.lastRequestId
  codesGiven : ∀ c ∈ S.codes, c.requestId ≤ S.lastRequestId
  codeIds : (S.codes.map (·.id)).Nodup
  codeIdsGiven : ∀ c ∈ S.codes, c.id ≤ S.lastCodeId
  begun : ∀ r ∈ S.requests, ∃ t, .begun r.id r.userId r.requiredClassIds t ∈ S.log ∧
    r.expiresAt = t + 5 * 86400 * second
  done : ∀ r ∈ S.requests, ∀ u l n t, .completed r.id u l n t ∈ S.log → r.completedAt ≠ none
  doneGiven : ∀ id u l n t, .completed id u l n t ∈ S.log → id ≤ S.lastRequestId
  drawnGiven : ∀ id c l, .drawn id c l ∈ S.log → id ≤ S.lastRequestId
  satisfied : ∀ ch ∈ S.challenges, ChallengeStory S.requests S.log ch
  codes : ∀ c ∈ S.codes, CodeStory K S.requests S.log c
  drawn : ∀ c ∈ S.codes, Drawn c.requestId c.classId c.seatId S.log
  undrawn : ∀ ch ∈ S.challenges, ch.selectedAt = none →
    ∀ l, .drawn ch.requestId ch.classId l ∉ S.log
  started : ∀ r ∈ S.requests, ∀ c l, .drawn r.id c l ∈ S.log → r.selectionStartedAt ≠ none
  ceremony : ∀ r ∈ S.requests, ∀ r' ∈ S.requests, ∀ userId,
    r.IsCeremony userId S.clock → r'.IsCeremony userId S.clock → r.id = r'.id
  lawful : Lawful (Backed K) S.log

theorem ConfirmedNow.later {n : ℕ} (h : ConfirmedNow requestId classId n log)
    (he : e ≠ .refused requestId) : ConfirmedNow requestId classId n (e :: log) :=
  Since.later he h

theorem IssuedNow.later {n seatId : ℕ} {code : String} {t : Instant}
    (h : IssuedNow requestId classId seatId code n t log) (he : e ≠ .refused requestId) :
    IssuedNow requestId classId seatId code n t (e :: log) :=
  Since.later he h

theorem Drawn.later {seatId : ℕ} (h : Drawn requestId classId seatId log) :
    Drawn requestId classId seatId (e :: log) := by
  obtain ⟨seatIds, hmem, hdrawn⟩ := h
  exact ⟨seatIds, List.mem_cons_of_mem e hmem, hdrawn⟩

theorem ChallengeStory.later (h : ChallengeStory S.requests log ch)
    (he : ∀ id, e ≠ .refused id) : ChallengeStory S.requests (e :: log) ch := by
  intro r hr hid n hn
  obtain ⟨hle, hconfirmed⟩ := h r hr hid n hn
  exact ⟨hle, fun heq ↦ (hconfirmed heq).later (he r.id)⟩

theorem CodeStory.later (h : CodeStory K S.requests log c) (he : ∀ id, e ≠ .refused id) :
    CodeStory K S.requests (e :: log) c := by
  intro x hx
  obtain ⟨value, n, expiresAt, hhash, hround, hexpires, hissued⟩ := h x hx
  refine ⟨value, n, expiresAt, hhash, hround, hexpires, ?_⟩
  intro r hr hid
  obtain ⟨hle, hnow⟩ := hissued r hr hid
  exact ⟨hle, fun heq ↦ (hnow heq).later (he r.id)⟩

theorem RecoveryInvariant.request_inj (hi : RecoveryInvariant K S) {r' : RecoveryRequest}
    (hr : r ∈ S.requests) (hr' : r' ∈ S.requests) (hid : r.id = r'.id) : r = r' :=
  List.inj_on_of_nodup_map hi.requestIds hr hr' hid

theorem RecoveryInvariant.oneCeremony (hi : RecoveryInvariant K S) : OneCeremony S := by
  rintro r hr r' hr' huser ⟨hpending, hlive, c, l, hdrawn⟩ ⟨hpending', hlive', c', l', hdrawn'⟩
  refine hi.request_inj hr hr' (hi.ceremony r hr r' hr' r'.userId ?_ ?_)
  · exact ⟨huser, hpending, hlive, hi.started r hr c l hdrawn⟩
  · exact ⟨rfl, hpending', hlive', hi.started r' hr' c' l' hdrawn'⟩

end Invariant

section Frames

/-- Time, rosters and ownership: no request changes, and challenges and codes only go. -/
theorem RecoveryInvariant.fewer (hi : RecoveryInvariant K S) (hlog : S'.log = S.log)
    (hrequests : S'.requests = S.requests) (hlast : S'.lastRequestId = S.lastRequestId)
    (hlastCode : S'.lastCodeId = S.lastCodeId) (hclock : S.clock ≤ S'.clock)
    (hchallenges : S'.challenges ⊆ S.challenges) (hcodes : S'.codes.Sublist S.codes) :
    RecoveryInvariant K S' := by
  have hearlier : ∀ (r : RecoveryRequest) userId, r.IsCeremony userId S'.clock →
      r.IsCeremony userId S.clock := by
    rintro r userId ⟨huser, hpending, hlive, hstarted⟩
    exact ⟨huser, hpending, hclock.trans_lt hlive, hstarted⟩
  constructor
  · rw [hrequests]
    exact hi.requestIds
  · rw [hrequests, hlast]
    exact hi.given
  · intro ch hch
    rw [hlast]
    exact hi.challengesGiven ch (hchallenges hch)
  · intro c hc
    rw [hlast]
    exact hi.codesGiven c (hcodes.subset hc)
  · exact (hcodes.map _).nodup hi.codeIds
  · intro c hc
    rw [hlastCode]
    exact hi.codeIdsGiven c (hcodes.subset hc)
  · rw [hrequests, hlog]
    exact hi.begun
  · rw [hrequests, hlog]
    exact hi.done
  · rw [hlog, hlast]
    exact hi.doneGiven
  · rw [hlog, hlast]
    exact hi.drawnGiven
  · intro ch hch
    rw [hrequests, hlog]
    exact hi.satisfied ch (hchallenges hch)
  · intro c hc
    rw [hrequests, hlog]
    exact hi.codes c (hcodes.subset hc)
  · intro c hc
    rw [hlog]
    exact hi.drawn c (hcodes.subset hc)
  · intro ch hch
    rw [hlog]
    exact hi.undrawn ch (hchallenges hch)
  · rw [hrequests, hlog]
    exact hi.started
  · rw [hrequests]
    intro r hr r' hr' userId h h'
    exact hi.ceremony r hr r' hr' userId (hearlier r userId h) (hearlier r' userId h')
  · rw [hlog]
    exact hi.lawful

/-- A rewrite of one request, told by an entry of the log or by none. -/
structure Rewrites (K : RecoveryKeys) (S : RecoveryState) (requestId : ℕ)
    (f : RecoveryRequest → RecoveryRequest) (newer : Option RecoveryEvent) : Prop where
  same : ∀ r ∈ S.requests, r.id = requestId → (f r).id = r.id ∧ (f r).userId = r.userId ∧
    (f r).requiredClassIds = r.requiredClassIds ∧ (f r).expiresAt = r.expiresAt ∧
    (f r).selectionStartedAt = r.selectionStartedAt
  round : ∀ r ∈ S.requests, r.id = requestId → r.submissionRound ≤ (f r).submissionRound
  completed : ∀ r ∈ S.requests, r.id = requestId → r.completedAt ≠ none → (f r).completedAt ≠ none
  pending : ∀ r ∈ S.requests, r.id = requestId → (f r).status = .pending → r.status = .pending
  refused : ∀ id, .refused id ∈ newer → id = requestId ∧
    ∀ r ∈ S.requests, r.id = requestId → r.submissionRound < (f r).submissionRound
  undrawn : ∀ id c l, .drawn id c l ∉ newer
  done : ∀ id u l n t, .completed id u l n t ∈ newer → id = requestId ∧ id ≤ S.lastRequestId ∧
    ∀ r ∈ S.requests, r.id = requestId → (f r).completedAt ≠ none
  backed : ∀ e ∈ newer, Backed K e S.log

theorem Rewrites.source {f : RecoveryRequest → RecoveryRequest} {newer : Option RecoveryEvent}
    (hf : Rewrites K S requestId f newer) (h : r ∈ (setRequest S requestId f).requests) :
    ∃ r₀ ∈ S.requests, r.id = r₀.id ∧ r.userId = r₀.userId ∧
      r.requiredClassIds = r₀.requiredClassIds ∧ r.expiresAt = r₀.expiresAt ∧
      r.selectionStartedAt = r₀.selectionStartedAt ∧
      r₀.submissionRound ≤ r.submissionRound ∧
      (r₀.completedAt ≠ none → r.completedAt ≠ none) ∧
      (r.status = .pending → r₀.status = .pending) ∧
      (.refused r₀.id ∈ newer → r₀.submissionRound < r.submissionRound) ∧
      ∀ u l n t, .completed r₀.id u l n t ∈ newer → r.completedAt ≠ none := by
  obtain ⟨r₀, hr₀, rfl⟩ := List.mem_map.1 h
  refine ⟨r₀, hr₀, ?_⟩
  split_ifs with hid
  · obtain ⟨hsame, huser, hclasses, hexpires, hstarted⟩ := hf.same r₀ hr₀ hid
    refine ⟨hsame, huser, hclasses, hexpires, hstarted, hf.round r₀ hr₀ hid,
      hf.completed r₀ hr₀ hid, hf.pending r₀ hr₀ hid, ?_, ?_⟩
    · intro hrefused
      exact (hf.refused _ hrefused).2 r₀ hr₀ hid
    · intro u l n t hdone
      exact (hf.done _ u l n t hdone).2.2 r₀ hr₀ hid
  · refine ⟨rfl, rfl, rfl, rfl, rfl, le_rfl, fun h ↦ h, fun h ↦ h, ?_, ?_⟩
    · intro hrefused
      exact absurd (hf.refused _ hrefused).1 hid
    · intro u l n t hdone
      exact absurd (hf.done _ u l n t hdone).1 hid

theorem since_newer {hold : RecoveryEvent → Prop} {start : RecoveryEvent → List RecoveryEvent → Prop}
    {newer : Option RecoveryEvent} (h : Since hold start log) (hnewer : ∀ e ∈ newer, hold e) :
    Since hold start (newer.toList ++ log) := by
  refine h.append ?_
  intro e he
  exact hnewer e (Option.mem_toList.1 he)

theorem RecoveryInvariant.rewritten {f : RecoveryRequest → RecoveryRequest}
    {newer : Option RecoveryEvent} {users : List Principal} {passkeys : List PasskeyCredential}
    {lastNonce : ℕ} (hi : RecoveryInvariant K S) (hf : Rewrites K S requestId f newer) :
    RecoveryInvariant K { setRequest S requestId f with
      users := users, passkeys := passkeys, lastNonce := lastNonce
      log := newer.toList ++ S.log } := by
  have hold : ∀ e : RecoveryEvent, e ∈ S.log → e ∈ newer.toList ++ S.log :=
    fun e he ↦ List.mem_append_right _ he
  have hdrawn : ∀ id c l, .drawn id c l ∈ newer.toList ++ S.log → .drawn id c l ∈ S.log := by
    intro id c l he
    rcases List.mem_append.1 he with he | he
    · exact absurd (Option.mem_toList.1 he) (hf.undrawn id c l)
    · exact he
  constructor
  · have hids : (setRequest S requestId f).requests.map (·.id) = S.requests.map (·.id) := by
      rw [setRequest, List.map_map]
      refine List.map_congr_left ?_
      intro r hr
      rw [Function.comp_apply]
      split_ifs with hid
      · exact (hf.same r hr hid).1
      · rfl
    exact hids ▸ hi.requestIds
  · intro r hr
    obtain ⟨r₀, hr₀, hid, -⟩ := hf.source hr
    rw [hid]
    exact hi.given r₀ hr₀
  · exact hi.challengesGiven
  · exact hi.codesGiven
  · exact hi.codeIds
  · exact hi.codeIdsGiven
  · intro r hr
    obtain ⟨r₀, hr₀, hid, huser, hclasses, hexpires, -⟩ := hf.source hr
    obtain ⟨t, hbegun, hdeadline⟩ := hi.begun r₀ hr₀
    rw [hid, huser, hclasses, hexpires]
    exact ⟨t, hold _ hbegun, hdeadline⟩
  · intro r hr u l n t he
    obtain ⟨r₀, hr₀, hid, -, -, -, -, -, hcompleted, -, -, hdone⟩ := hf.source hr
    rw [hid] at he
    rcases List.mem_append.1 he with he | he
    · exact hdone u l n t (Option.mem_toList.1 he)
    · exact hcompleted (hi.done r₀ hr₀ u l n t he)
  · intro id u l n t he
    rcases List.mem_append.1 he with he | he
    · exact (hf.done id u l n t (Option.mem_toList.1 he)).2.1
    · exact hi.doneGiven id u l n t he
  · intro id c l he
    exact hi.drawnGiven id c l (hdrawn id c l he)
  · intro ch hch r hr hid n hn
    obtain ⟨r₀, hr₀, hid₀, -, -, -, -, hround, -, -, hrefused, -⟩ := hf.source hr
    obtain ⟨hle, hconfirmed⟩ := hi.satisfied ch hch r₀ hr₀ (hid₀.symm.trans hid) n hn
    refine ⟨hle.trans hround, fun heq ↦ ?_⟩
    rw [hid₀]
    refine since_newer (hconfirmed (by omega)) ?_
    rintro e he rfl
    have hlt := hrefused he
    omega
  · intro c hc x hx
    obtain ⟨value, n, expiresAt, hhash, hissuedRound, hexpires, hissued⟩ := hi.codes c hc x hx
    refine ⟨value, n, expiresAt, hhash, hissuedRound, hexpires, ?_⟩
    intro r hr hid
    obtain ⟨r₀, hr₀, hid₀, -, -, -, -, hround, -, -, hrefused, -⟩ := hf.source hr
    obtain ⟨hle, hnow⟩ := hissued r₀ hr₀ (hid₀.symm.trans hid)
    refine ⟨hle.trans hround, fun heq ↦ ?_⟩
    rw [hid₀]
    refine since_newer (hnow (by omega)) ?_
    rintro e he rfl
    have hlt := hrefused he
    omega
  · intro c hc
    obtain ⟨seatIds, hmem, hsample⟩ := hi.drawn c hc
    exact ⟨seatIds, hold _ hmem, hsample⟩
  · intro ch hch hnone l he
    exact hi.undrawn ch hch hnone l (hdrawn _ _ _ he)
  · intro r hr c l he
    obtain ⟨r₀, hr₀, hid₀, -, -, -, hstarted, -⟩ := hf.source hr
    rw [hid₀] at he
    rw [hstarted]
    exact hi.started r₀ hr₀ c l (hdrawn _ _ _ he)
  · intro r hr r' hr' userId h h'
    obtain ⟨r₀, hr₀, hid₀, huser, -, hexpires, hstarted, -, -, hpending, -⟩ := hf.source hr
    obtain ⟨r₀', hr₀', hid₀', huser', -, hexpires', hstarted', -, -, hpending', -⟩ := hf.source hr'
    rw [hid₀, hid₀']
    refine hi.ceremony r₀ hr₀ r₀' hr₀' userId ?_ ?_
    · exact ⟨huser ▸ h.1, hpending h.2.1, hexpires ▸ h.2.2.1, hstarted ▸ h.2.2.2⟩
    · exact ⟨huser' ▸ h'.1, hpending' h'.2.1, hexpires' ▸ h'.2.2.1, hstarted' ▸ h'.2.2.2⟩
  · cases newer with
    | none => exact hi.lawful
    | some e => exact ⟨hf.backed e rfl, hi.lawful⟩

structure Deposits (K : RecoveryKeys) (S : RecoveryState) (challenges : List RecoveryClassChallenge)
    (codes : List StudentRecoveryCode) (e : RecoveryEvent) : Prop where
  ids : codes.map (·.id) = S.codes.map (·.id)
  challenges : ∀ ch' ∈ challenges, ∃ ch ∈ S.challenges, ch'.requestId = ch.requestId ∧
    ch'.classId = ch.classId ∧ ch'.selectedAt = ch.selectedAt ∧
    (ch'.satisfiedRound = ch.satisfiedRound ∨ ChallengeStory S.requests (e :: S.log) ch')
  codes : ∀ c' ∈ codes, ∃ c ∈ S.codes, c'.requestId = c.requestId ∧ c'.classId = c.classId ∧
    c'.seatId = c.seatId ∧ (c' = c ∨ CodeStory K S.requests (e :: S.log) c')
  closes : ∀ id, e ≠ .refused id
  draws : ∀ id c l, e ≠ .drawn id c l
  completes : ∀ id u l n t, e ≠ .completed id u l n t
  backed : Backed K e S.log

theorem RecoveryInvariant.deposited {challenges : List RecoveryClassChallenge}
    {codes : List StudentRecoveryCode} (hi : RecoveryInvariant K S)
    (h : Deposits K S challenges codes e) :
    RecoveryInvariant K { S with challenges := challenges, codes := codes, log := e :: S.log } := by
  have hdrawn : ∀ id c l, .drawn id c l ∈ e :: S.log → .drawn id c l ∈ S.log := by
    intro id c l he
    rcases List.mem_cons.1 he with he | he
    · exact absurd he.symm (h.draws id c l)
    · exact he
  have hdone : ∀ id u l n t, .completed id u l n t ∈ e :: S.log →
      .completed id u l n t ∈ S.log := by
    intro id u l n t he
    rcases List.mem_cons.1 he with he | he
    · exact absurd he.symm (h.completes id u l n t)
    · exact he
  constructor
  · exact hi.requestIds
  · exact hi.given
  · intro ch' hch'
    obtain ⟨ch, hch, hid, -⟩ := h.challenges ch' hch'
    rw [hid]
    exact hi.challengesGiven ch hch
  · intro c' hc'
    obtain ⟨c, hc, hid, -⟩ := h.codes c' hc'
    rw [hid]
    exact hi.codesGiven c hc
  · exact h.ids ▸ hi.codeIds
  · intro c' hc'
    have hid : c'.id ∈ S.codes.map (·.id) := h.ids ▸ List.mem_map_of_mem hc'
    obtain ⟨c, hc, hsame⟩ := List.mem_map.1 hid
    exact hsame ▸ hi.codeIdsGiven c hc
  · intro r hr
    obtain ⟨t, hbegun, hdeadline⟩ := hi.begun r hr
    exact ⟨t, List.mem_cons_of_mem e hbegun, hdeadline⟩
  · intro r hr u l n t he
    exact hi.done r hr u l n t (hdone _ _ _ _ _ he)
  · intro id u l n t he
    exact hi.doneGiven id u l n t (hdone _ _ _ _ _ he)
  · intro id c l he
    exact hi.drawnGiven id c l (hdrawn _ _ _ he)
  · intro ch' hch'
    obtain ⟨ch, hch, hid, hclass, -, hsame | hstory⟩ := h.challenges ch' hch'
    · intro r hr hrid n hn
      rw [hclass]
      exact (hi.satisfied ch hch).later h.closes r hr (hrid.trans hid) n (hsame ▸ hn)
    · exact hstory
  · intro c' hc'
    obtain ⟨c, hc, -, -, -, rfl | hstory⟩ := h.codes c' hc'
    · exact (hi.codes c' hc).later h.closes
    · exact hstory
  · intro c' hc'
    obtain ⟨c, hc, hid, hclass, hseat, -⟩ := h.codes c' hc'
    rw [hid, hclass, hseat]
    exact (hi.drawn c hc).later
  · intro ch' hch' hnone l he
    obtain ⟨ch, hch, hid, hclass, hselected, -⟩ := h.challenges ch' hch'
    rw [hid, hclass] at he
    exact hi.undrawn ch hch (hselected.symm.trans hnone) l (hdrawn _ _ _ he)
  · intro r hr c l he
    exact hi.started r hr c l (hdrawn _ _ _ he)
  · exact hi.ceremony
  · exact ⟨h.backed, hi.lawful⟩

end Frames

section Commands

theorem RecoveryInvariant.issue {codeId seatId principalId : ℕ} {passphrase : String}
    {value : Fin 1000000} (hi : RecoveryInvariant K S) :
    RecoveryInvariant K (told S (issueConfirmation K S requestId classId codeId seatId principalId
      passphrase value) fun c ↦ some (.issued requestId classId c.seat c.principal passphrase
        (sixDigits value) c.round c.expiresAt)) := by
  cases hok : issueConfirmation K S requestId classId codeId seatId principalId passphrase value with
  | error u => exact hi
  | ok out =>
    simp only [issueConfirmation, bind_eq_ok, Prod.exists] at hok
    obtain ⟨user, row, hrow, hok⟩ := hok
    obtain ⟨hmem, rfl, -⟩ := activeRow_ok hrow
    simp only [require_eq_ok, demand_eq_ok, exists_const, pure_eq_ok] at hok
    obtain ⟨ch, -, ⟨c₀, hc₀, hrequest, hclass, rfl, rfl⟩, seat, hseat, principal, hprincipal,
      ⟨hclaimed, hverified⟩, rfl⟩ := hok
    have hseatIs := List.find?_some hseat
    rw [decide_eq_true_iff] at hseatIs
    have hprincipalIs := List.find?_some hprincipal
    rw [decide_eq_true_iff] at hprincipalIs
    obtain ⟨hid, hseatClass, hbound, hrole⟩ := hseatIs
    refine hi.deposited ⟨?_, fun ch hch ↦ ⟨ch, hch, rfl, rfl, rfl, .inl rfl⟩, ?_,
      fun _ h ↦ (by cases h), fun _ _ _ h ↦ (by cases h), fun _ _ _ _ _ h ↦ (by cases h),
      ⟨hseatClass, hrole, by rw [hbound]; exact Option.some_ne_none _, hclaimed⟩, ?_, hverified⟩
    · rw [List.map_map]
      refine List.map_congr_left ?_
      intro c _
      rw [Function.comp_apply]
      split_ifs <;> rfl
    · intro c' hc'
      obtain ⟨c, hc, rfl⟩ := List.mem_map.1 hc'
      refine ⟨c, hc, ?_⟩
      split_ifs with hkey
      · obtain rfl := List.inj_on_of_nodup_map hi.codeIds hc hc₀ hkey.1
        refine ⟨rfl, rfl, rfl, .inr ?_⟩
        intro x hx
        obtain rfl := Option.some.inj hx
        refine ⟨sixDigits value, row.submissionRound, _, ?_, rfl, rfl, ?_⟩
        · rw [hrequest, hclass]
        · intro r hr hrid
          obtain rfl := hi.request_inj hr hmem (hrid.trans hrequest)
          refine ⟨le_rfl, fun _ ↦ Since.now ⟨seat, principal, passphrase, ?_, hid, ?_⟩⟩
          · rw [hclass]
          · rw [hrid]
            exact hi.drawn c hc
      · exact ⟨rfl, rfl, rfl, .inl rfl⟩
    · rw [hbound, hprincipalIs]

theorem mem_setChallenge {f : RecoveryClassChallenge → RecoveryClassChallenge}
    {ch' : RecoveryClassChallenge} (h : ch' ∈ (setChallenge S requestId classId f).challenges) :
    ∃ ch ∈ S.challenges, ch' = ch ∨
      (ch.requestId = requestId ∧ ch.classId = classId ∧ ch' = f ch) := by
  obtain ⟨ch, hch, rfl⟩ := List.mem_map.1 h
  refine ⟨ch, hch, ?_⟩
  split_ifs with hkey
  · exact .inr ⟨hkey.1, hkey.2, rfl⟩
  · exact .inl rfl

/-- A code that matches was issued in the present round and has not expired. -/
theorem RecoveryInvariant.matched {code : String} (hi : RecoveryInvariant K S)
    (hK : Function.Injective K.hmac) (hrow : row ∈ S.requests) (hc : c ∈ S.codes)
    (h : Matches K S row classId code c) :
    ConfirmedNow row.id classId row.submissionRound
      (.submitted row.id classId code row.submissionRound S.clock :: S.log) := by
  obtain ⟨hrequest, hclass, hhash, hround, ⟨t, ht, hlive⟩, -⟩ := h
  obtain ⟨value, n, expiresAt, hvalue, hround', hexpires, hissued⟩ := hi.codes c hc _ hhash
  obtain rfl := codeDigest_inj hK hvalue
  obtain rfl := Option.some.inj (hround.symm.trans hround')
  obtain rfl := Option.some.inj (hexpires.symm.trans ht)
  have hnow := (hissued row hrow hrequest.symm).2 rfl
  rw [hclass] at hnow
  exact Since.now ⟨_, c.seatId, S.clock, _, rfl, hlive, hnow⟩

theorem RecoveryInvariant.confirm {nonce : Option ℕ} {code : String} (hi : RecoveryInvariant K S)
    (hK : Function.Injective K.hmac) :
    RecoveryInvariant K (told S (confirmClass K S requestId nonce classId code) fun round ↦
      some (.submitted requestId classId code round S.clock)) := by
  cases hok : confirmClass K S requestId nonce classId code with
  | error u => exact hi
  | ok out =>
    simp only [confirmClass, bind_eq_ok, Prod.exists] at hok
    obtain ⟨user, row, hrow, hok⟩ := hok
    obtain ⟨hmem, rfl, -⟩ := activeRow_ok hrow
    simp only [require_eq_ok, demand_eq_ok, exists_const] at hok
    obtain ⟨-, challenge, -, hok⟩ := hok
    split_ifs at hok with hmatch
    · rw [pure_eq_ok] at hok
      subst hok
      obtain ⟨-, -, c₀, hc₀, hmatches⟩ := hmatch
      refine hi.deposited ⟨?_, ?_, ?_, fun _ h ↦ (by cases h), fun _ _ _ h ↦ (by cases h),
        fun _ _ _ _ _ h ↦ (by cases h), trivial⟩
      · rw [satisfyClass, List.map_map]
        refine List.map_congr_left ?_
        intro c _
        rw [Function.comp_apply]
        split_ifs <;> rfl
      · intro ch' hch'
        obtain ⟨ch₁, hch₁, hcase⟩ := mem_setChallenge hch'
        obtain ⟨ch, hch, hcase₁⟩ := mem_setChallenge hch₁
        refine ⟨ch, hch, ?_⟩
        rcases hcase₁ with rfl | ⟨-, -, rfl⟩
        · rcases hcase with rfl | ⟨hid, hclass, rfl⟩
          · exact ⟨rfl, rfl, rfl, .inl rfl⟩
          · refine ⟨rfl, rfl, rfl, .inr ?_⟩
            intro r hr hrid n hn
            obtain rfl := Option.some.inj hn
            obtain rfl := hi.request_inj hr hmem (hrid.trans hid)
            refine ⟨le_rfl, fun _ ↦ ?_⟩
            rw [hclass]
            exact hi.matched hK hmem hc₀ hmatches
        · rcases hcase with rfl | ⟨hid, hclass, rfl⟩
          · exact ⟨rfl, rfl, rfl, .inl rfl⟩
          · refine ⟨rfl, rfl, rfl, .inr ?_⟩
            intro r hr hrid n hn
            obtain rfl := Option.some.inj hn
            obtain rfl := hi.request_inj hr hmem (hrid.trans hid)
            refine ⟨le_rfl, fun _ ↦ ?_⟩
            change ConfirmedNow r.id ch.classId _ _
            rw [show ch.classId = classId from hclass]
            exact hi.matched hK hmem hc₀ hmatches
      · intro c' hc'
        obtain ⟨c, hc, rfl⟩ := List.mem_map.1 hc'
        refine ⟨c, hc, ?_⟩
        split_ifs
        · exact ⟨rfl, rfl, rfl, .inr fun _ h ↦ (by cases h)⟩
        · exact ⟨rfl, rfl, rfl, .inl rfl⟩
    · rw [pure_eq_ok] at hok
      subst hok
      have hcodes : ∀ c' ∈ S.codes, ∃ c ∈ S.codes, c'.requestId = c.requestId ∧
          c'.classId = c.classId ∧ c'.seatId = c.seatId ∧ (c' = c ∨ CodeStory K S.requests
            (.submitted row.id classId code row.submissionRound S.clock :: S.log) c') :=
        fun c hc ↦ ⟨c, hc, rfl, rfl, rfl, .inl rfl⟩
      refine hi.deposited ⟨rfl, ?_, hcodes, fun _ h ↦ (by cases h), fun _ _ _ h ↦ (by cases h),
        fun _ _ _ _ _ h ↦ (by cases h), trivial⟩
      intro ch' hch'
      obtain ⟨ch, hch, rfl | ⟨-, -, rfl⟩⟩ := mem_setChallenge hch'
      · exact ⟨ch', hch, rfl, rfl, rfl, .inl rfl⟩
      · exact ⟨ch, hch, rfl, rfl, rfl, .inl rfl⟩

theorem mem_drawRecipients {draw : ℕ × ℕ} (h : r ∈ (drawRecipients S row classId draw).requests) :
    ∃ r₀ ∈ S.requests, ∃ started, r = { r₀ with selectionStartedAt := started } ∧
      (r₀.id = row.id → started ≠ none) ∧ (r₀.id ≠ row.id → started = r₀.selectionStartedAt) := by
  obtain ⟨r₀, hr₀, rfl⟩ := List.mem_map.1 h
  refine ⟨r₀, hr₀, ?_⟩
  split_ifs with hid
  · exact ⟨some _, rfl, fun _ ↦ nofun, fun hne ↦ absurd hid hne⟩
  · exact ⟨r₀.selectionStartedAt, rfl, fun heq ↦ absurd heq hid, fun _ ↦ rfl⟩

theorem mem_drawnCodes {draw : ℕ × ℕ} (h : c ∈ (drawRecipients S row classId draw).codes) :
    c ∈ S.codes ∨ c.requestId = row.id ∧ c.classId = classId ∧ c.codeHash = none ∧
      c.id ≤ S.lastCodeId + 2 ∧ c.seatId ∈ [draw.1, draw.2] := by
  rcases List.mem_append.1 h with h | h
  · exact .inl h
  · right
    rw [List.mem_pair] at h
    rcases h with rfl | rfl
    · exact ⟨rfl, rfl, rfl, by change S.lastCodeId + 1 ≤ _; omega, by simp⟩
    · exact ⟨rfl, rfl, rfl, le_rfl, by simp⟩

theorem requestIds_drawRecipients (S : RecoveryState) (row : RecoveryRequest)
    (classId : String) (draw : ℕ × ℕ) :
    (drawRecipients S row classId draw).requests.map (·.id) = S.requests.map (·.id) := by
  rw [drawRecipients, setRequest, List.map_map]
  refine List.map_congr_left ?_
  intro r _
  rw [Function.comp_apply]
  split_ifs <;> rfl

theorem RecoveryInvariant.codeIds_draw (hi : RecoveryInvariant K S) (row : RecoveryRequest)
    (classId : String) (draw : ℕ × ℕ) :
    ((drawRecipients S row classId draw).codes.map (·.id)).Nodup := by
  have hids : (drawRecipients S row classId draw).codes.map (·.id) =
      S.codes.map (·.id) ++ [S.lastCodeId + 1, S.lastCodeId + 2] := List.map_append
  rw [hids]
  refine List.Nodup.append hi.codeIds (by simp) ?_
  intro n hn hn'
  obtain ⟨c, hc, rfl⟩ := List.mem_map.1 hn
  have hle := hi.codeIdsGiven c hc
  rw [List.mem_pair] at hn'
  omega

/-- An empty slot has no code yet, and the story of the others goes on. -/
theorem RecoveryInvariant.codes_draw {draw : ℕ × ℕ} (hi : RecoveryInvariant K S)
    (he : ∀ id, e ≠ .refused id) (hc : c ∈ (drawRecipients S row classId draw).codes) :
    CodeStory K (drawRecipients S row classId draw).requests (e :: S.log) c := by
  intro x hx
  rcases mem_drawnCodes hc with hc | ⟨-, -, hhash, -⟩
  · obtain ⟨value, n, expiresAt, hvalue, hround, hexpires, hissued⟩ := (hi.codes c hc).later he x hx
    refine ⟨value, n, expiresAt, hvalue, hround, hexpires, ?_⟩
    intro r hr hid
    obtain ⟨r₀, hr₀, started, rfl, -⟩ := mem_drawRecipients hr
    exact hissued r₀ hr₀ hid
  · rw [hhash] at hx
    cases hx

theorem RecoveryInvariant.satisfied_draw {draw : ℕ × ℕ} (hi : RecoveryInvariant K S)
    (he : ∀ id, e ≠ .refused id) (hch : ch ∈ (drawRecipients S row classId draw).challenges) :
    ChallengeStory (drawRecipients S row classId draw).requests (e :: S.log) ch := by
  intro r hr hid n hn
  obtain ⟨r₀, hr₀, started, rfl, -⟩ := mem_drawRecipients hr
  obtain ⟨ch₀, hch₀, rfl | ⟨-, -, rfl⟩⟩ := mem_setChallenge hch
  · exact (hi.satisfied ch hch₀).later he r₀ hr₀ hid n hn
  · exact (hi.satisfied ch₀ hch₀).later he r₀ hr₀ hid n hn

theorem RecoveryInvariant.undrawn_draw {draw : ℕ × ℕ} (hi : RecoveryInvariant K S)
    (hch : ch ∈ (drawRecipients S row classId draw).challenges) (hselected : ch.selectedAt = none)
    (l : List ℕ) : .drawn ch.requestId ch.classId l ∉
      RecoveryEvent.drawn row.id classId [draw.1, draw.2] :: S.log := by
  intro he
  obtain ⟨ch₀, hch₀, hcase⟩ := List.mem_map.1 hch
  split_ifs at hcase with hkey
  · subst hcase
    cases hselected
  · subst hcase
    rcases List.mem_cons.1 he with he | he
    · obtain ⟨hid, hclass, -⟩ := RecoveryEvent.drawn.inj he
      exact hkey ⟨hid, hclass⟩
    · exact hi.undrawn ch₀ hch₀ hselected l he

theorem RecoveryInvariant.started_draw {draw : ℕ × ℕ} (hi : RecoveryInvariant K S)
    (hr : r ∈ (drawRecipients S row classId draw).requests) {c : String} {l : List ℕ}
    (he : .drawn r.id c l ∈ RecoveryEvent.drawn row.id classId [draw.1, draw.2] :: S.log) :
    r.selectionStartedAt ≠ none := by
  obtain ⟨r₀, hr₀, started, rfl, hset, hkept⟩ := mem_drawRecipients hr
  by_cases hid : r₀.id = row.id
  · exact hset hid
  · rcases List.mem_cons.1 he with he | he
    · exact absurd (RecoveryEvent.drawn.inj he).1 hid
    · change started ≠ none
      rw [hkept hid]
      exact hi.started r₀ hr₀ c l he

theorem ceremony_of_draw {draw : ℕ × ℕ} (hr : r ∈ (drawRecipients S row classId draw).requests)
    {userId : ℕ} (h : r.IsCeremony userId S.clock) (hne : r.id ≠ row.id) :
    ∃ r₀ ∈ S.requests, r₀.id = r.id ∧ r₀.IsCeremony userId S.clock := by
  obtain ⟨r₀, hr₀, started, rfl, -, hkept⟩ := mem_drawRecipients hr
  exact ⟨r₀, hr₀, rfl, h.1, h.2.1, h.2.2.1, hkept hne ▸ h.2.2.2⟩

/-- Another ceremony of the row's teacher would have refused the draw. -/
theorem RecoveryInvariant.ceremony_alone {draw : ℕ × ℕ} (hi : RecoveryInvariant K S)
    (hrow : row ∈ S.requests)
    (hother : ∀ r ∈ S.requests, ¬ (r.IsCeremony row.userId S.clock ∧ r.id ≠ row.id))
    {r' : RecoveryRequest} (hr : r ∈ (drawRecipients S row classId draw).requests)
    (hr' : r' ∈ (drawRecipients S row classId draw).requests) {userId : ℕ}
    (h : r.IsCeremony userId S.clock) (h' : r'.IsCeremony userId S.clock) (hid : r.id = row.id) :
    r'.id = row.id := by
  have huser : r.userId = row.userId := by
    obtain ⟨r₀, hr₀, started, rfl, -⟩ := mem_drawRecipients hr
    rw [hi.request_inj hr₀ hrow hid]
  by_contra hne
  obtain ⟨r₀, hr₀, hid₀, hceremony⟩ := ceremony_of_draw hr' h' hne
  rw [← h.1, huser] at hceremony
  exact hother r₀ hr₀ ⟨hceremony, hid₀ ▸ hne⟩

theorem RecoveryInvariant.ceremony_draw {draw : ℕ × ℕ} (hi : RecoveryInvariant K S)
    (hrow : row ∈ S.requests)
    (hother : ∀ r ∈ S.requests, ¬ (r.IsCeremony row.userId S.clock ∧ r.id ≠ row.id))
    {r' : RecoveryRequest} (hr : r ∈ (drawRecipients S row classId draw).requests)
    (hr' : r' ∈ (drawRecipients S row classId draw).requests) {userId : ℕ}
    (h : r.IsCeremony userId S.clock) (h' : r'.IsCeremony userId S.clock) : r.id = r'.id := by
  by_cases hid : r.id = row.id
  · rw [hid, hi.ceremony_alone hrow hother hr hr' h h' hid]
  · by_cases hid' : r'.id = row.id
    · exact absurd (hi.ceremony_alone hrow hother hr' hr h' h hid') hid
    · obtain ⟨r₀, hr₀, hsame, hceremony⟩ := ceremony_of_draw hr h hid
      obtain ⟨r₀', hr₀', hsame', hceremony'⟩ := ceremony_of_draw hr' h' hid'
      rw [← hsame, ← hsame']
      exact hi.ceremony r₀ hr₀ r₀' hr₀' userId hceremony hceremony'

theorem RecoveryInvariant.draw {draw : ℕ × ℕ} (hi : RecoveryInvariant K S) (hrow : row ∈ S.requests)
    (hnone : ∀ l, .drawn row.id classId l ∉ S.log)
    (hother : ∀ r ∈ S.requests, ¬ (r.IsCeremony row.userId S.clock ∧ r.id ≠ row.id))
    (hsample : IsSample (eligibleSeats S classId) draw) :
    RecoveryInvariant K { drawRecipients S row classId draw with
      log := .drawn row.id classId [draw.1, draw.2] :: S.log } where
  requestIds := requestIds_drawRecipients S row classId draw ▸ hi.requestIds
  given r hr := by
    obtain ⟨r₀, hr₀, started, rfl, -⟩ := mem_drawRecipients hr
    exact hi.given r₀ hr₀
  challengesGiven ch' hch' := by
    obtain ⟨ch, hch, rfl | ⟨-, -, rfl⟩⟩ := mem_setChallenge hch'
    · exact hi.challengesGiven ch' hch
    · exact hi.challengesGiven ch hch
  codesGiven c hc := by
    rcases mem_drawnCodes hc with hc | ⟨hid, -⟩
    · exact hi.codesGiven c hc
    · rw [hid]
      exact hi.given row hrow
  codeIds := hi.codeIds_draw row classId draw
  codeIdsGiven c hc := by
    change c.id ≤ S.lastCodeId + 2
    rcases mem_drawnCodes hc with hc | ⟨-, -, -, hle, -⟩
    · have hle := hi.codeIdsGiven c hc
      omega
    · exact hle
  begun r hr := by
    obtain ⟨r₀, hr₀, started, rfl, -⟩ := mem_drawRecipients hr
    obtain ⟨t, hbegun, hdeadline⟩ := hi.begun r₀ hr₀
    exact ⟨t, List.mem_cons_of_mem _ hbegun, hdeadline⟩
  done r hr u l n t he := by
    obtain ⟨r₀, hr₀, started, rfl, -⟩ := mem_drawRecipients hr
    exact hi.done r₀ hr₀ u l n t ((List.mem_cons.1 he).resolve_left (fun h ↦ by cases h))
  doneGiven id u l n t he :=
    hi.doneGiven id u l n t ((List.mem_cons.1 he).resolve_left (fun h ↦ by cases h))
  drawnGiven id c l he := by
    rcases List.mem_cons.1 he with he | he
    · obtain ⟨rfl, -⟩ := RecoveryEvent.drawn.inj he
      exact hi.given row hrow
    · exact hi.drawnGiven id c l he
  satisfied ch hch := hi.satisfied_draw (fun _ h ↦ by cases h) hch
  codes c hc := hi.codes_draw (fun _ h ↦ by cases h) hc
  drawn c hc := by
    rcases mem_drawnCodes hc with hc | ⟨hid, hclass, -, -, hseat⟩
    · exact (hi.drawn c hc).later
    · rw [hid, hclass]
      exact ⟨_, List.mem_cons_self, by simpa using hsample.2.2, rfl, hseat⟩
  undrawn ch hch hselected l := hi.undrawn_draw hch hselected l
  started r hr c l he := hi.started_draw hr he
  ceremony r hr r' hr' userId h h' := hi.ceremony_draw hrow hother hr hr' h h'
  lawful := ⟨hnone, hi.lawful⟩

theorem RecoveryInvariant.select {nonce : Option ℕ} {draw : ℕ × ℕ} (hi : RecoveryInvariant K S) :
    RecoveryInvariant K (told S (selectClassRecipients K S requestId nonce classId draw) fun drawn ↦
      if drawn then some (.drawn requestId classId [draw.1, draw.2]) else none) := by
  cases hok : selectClassRecipients K S requestId nonce classId draw with
  | error u => exact hi
  | ok out =>
    simp only [selectClassRecipients, bind_eq_ok, Prod.exists] at hok
    obtain ⟨user, row, hrow, hok⟩ := hok
    obtain ⟨hmem, rfl, -, howner, -⟩ := activeRow_ok hrow
    simp only [require_eq_ok, demand_eq_ok, exists_const] at hok
    obtain ⟨-, challenge, hchallenge, hok⟩ := hok
    obtain ⟨hch, hrequest, hclass⟩ := classRow_some hchallenge
    split_ifs at hok with hselected
    · rw [pure_eq_ok] at hok
      subst hok
      exact hi
    · simp only [bind_eq_ok, require_eq_ok, exists_const, pure_eq_ok] at hok
      obtain ⟨hother, ⟨-, hsample⟩, rfl⟩ := hok
      rw [howner] at hother
      refine hi.draw hmem ?_ hother hsample
      intro l
      rw [← hrequest, ← hclass]
      exact hi.undrawn challenge hch (not_ne_iff.1 hselected) l

end Commands

end TokenHub.TeacherRecovery
