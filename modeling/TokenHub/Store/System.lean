import TokenHub.Store.Reversal
import TokenHub.Lib.Runs
import Mathlib.Logic.Relation

set_option autoImplicit false

namespace TokenHub.Store

open Ledger Attendance HallPass Lib.Checks Lib.Runs
open Rent (Instant ClassZone AcquisitionType EntitlementEventType)

/-- What the commands take from their surroundings: the random ids of the event rows, the digest,
the class's time zone, and the two renderings of texts. -/
structure StoreEnv where
  eventIds : ℕ → ℕ
  sha256 : String → String
  zone : ClassZone
  fold : String → String
  isoformat : Instant → String

/-- The commands that grant, use, end or reserve entitlements. -/
inductive StoreAction
  | grantHallPasses (q : GrantRequest)
  | grantStoreEntitlements (type : EntitlementType) (q : GrantRequest)
  | grantInsuranceEntitlement (q : GrantRequest)
  | purchase (m : PurchaseMoment) (call : PurchaseCall)
  | consume (q : EndingRequest)
  | expire (q : EndingRequest)
  | revoke (q : EndingRequest)
  | removeHallPasses (seatId : ℕ) (classId : String) (quantity : ℤ) (actorSeatId : ℕ)
      (correlationId : String)
  | expireRentPerks (classId correlationId : String) (actorSeatId : ℕ)
  | voidTransaction (call : VoidCall)
  | resolveIssue (call : IssueCall)
  | expireGoal (call : GoalExpiryCall)
  | submitHallPass (ctx : ClassContext) (destination : String) (requestedAt : Instant)
  | approveHallPass (ctx : ClassContext) (requestId : ℕ) (idempotencyKey : Option String)
  | rejectHallPass (ctx : ClassContext) (requestId : ℕ)
  | cancelHallPass (ctx : ClassContext) (requestId : ℕ)
  | closePriorDay (ctx : ClassContext)
  | recordHallPass (classId : String) (holderSeatId approverSeatId : ℕ) (destination : String)
      (idempotencyKey : Option String)
  | useItem (seatId entitlementId : ℕ)
  | decideRedemption (decision : RedemptionDecision) (ctx : ClassContext)
      (requestId entitlementId : Option ℕ)
  | completeImmediateUse (ctx : ClassContext) (pendingActionId : ℕ)

abbrev StoreStep := Instant × StoreAction

section Steps

variable (env : StoreEnv)

def recordHallPass (S : StoreState) (t : Instant) (classId : String)
    (holderSeatId approverSeatId : ℕ) (destination : String) (idempotencyKey : Option String) :
    Except Raise StoreState := do
  let (_, P) ← recordHallPassLog env.zone env.fold S.toPassState env.isoformat classId t
    ⟨holderSeatId, approverSeatId, destination, idempotencyKey, none⟩
  return { S with toPassState := P }

def perform (S : StoreState) : StoreStep → Except Raise StoreState
  | (t, .grantHallPasses q) => Store.grantHallPasses env.eventIds S t q
  | (t, .grantStoreEntitlements type q) => Store.grantStoreEntitlements env.eventIds S t type q
  | (t, .grantInsuranceEntitlement q) => Store.grantInsuranceEntitlement env.eventIds S t q
  | (_, .purchase m call) => (executeStorePurchase env.eventIds env.sha256 S m call).map (·.2)
  | (t, .consume q) => consumeEntitlement env.eventIds S t q
  | (t, .expire q) => expireEntitlement env.eventIds S t q
  | (t, .revoke q) => revokeEntitlement env.eventIds S t q
  | (t, .removeHallPasses seatId classId quantity actorSeatId correlationId) =>
    Store.removeHallPasses env.eventIds S t seatId classId quantity actorSeatId correlationId
  | (t, .expireRentPerks classId correlationId actorSeatId) =>
    Store.expireRentPerks env.eventIds S t classId correlationId actorSeatId
  | (t, .voidTransaction call) =>
    (executeVoidTransaction env.eventIds env.sha256 S t call).map (·.2)
  | (t, .resolveIssue call) => (Store.resolveIssue env.eventIds env.sha256 S t call).map (·.2)
  | (t, .expireGoal call) =>
    (expireLapsedCollectiveGoal env.eventIds env.sha256 S t call).map (·.2)
  | (_, .submitHallPass ctx destination requestedAt) =>
    submitHallPassRequest S ctx destination requestedAt
  | (t, .approveHallPass ctx requestId idempotencyKey) =>
    approveHallPassRequest S ctx env.zone env.fold env.isoformat t requestId idempotencyKey
  | (_, .rejectHallPass ctx requestId) => rejectHallPassRequest S ctx requestId
  | (_, .cancelHallPass ctx requestId) => cancelHallPassRequest S ctx requestId
  | (t, .closePriorDay ctx) => .ok (closePriorDayHallPassRequests S ctx env.zone t)
  | (t, .recordHallPass classId holderSeatId approverSeatId destination idempotencyKey) =>
    Store.recordHallPass env S t classId holderSeatId approverSeatId destination idempotencyKey
  | (t, .useItem seatId entitlementId) => Store.useItem env.eventIds S seatId t entitlementId
  | (t, .decideRedemption decision ctx requestId entitlementId) =>
    (Store.decideRedemption env.eventIds S decision ctx t requestId entitlementId).map (·.2)
  | (_, .completeImmediateUse ctx pendingActionId) =>
    Store.completeImmediateUse S ctx pendingActionId

def storeStep (S : StoreState) (a : StoreStep) : StoreState :=
  match perform env S a with
  | .ok S' => S'
  | .error _ => S

end Steps

end TokenHub.Store

namespace TokenHub.Store

open Rent (Instant AcquisitionType EntitlementEventType)

/-- The tables of all entitlements, with the count of the identifiers drawn. -/
structure LineageState extends EntitlementTables where
  uuids : ℕ

def StoreState.lineages (S : StoreState) : LineageState :=
  { S.toEntitlementTables with uuids := S.uuids }

section Tables

variable (T : EntitlementTables)

def EntitlementTables.grantedRows : List EntitlementEvent :=
  T.entitlementEvents.filter (·.eventType = .granted)

def EntitlementTables.terminalRows : List EntitlementEvent :=
  T.entitlementEvents.filter (·.isTerminal)

def EntitlementTables.usedPasses : List ℕ := T.hallPassLogs.filterMap (·.hallPassId)

def EntitlementTables.waitingRows : List PendingAction := T.pendingActions.filter (·.isUnresolved)

def EntitlementTables.addEvent (row : EntitlementEvent) : EntitlementTables :=
  { T with entitlementEvents := T.entitlementEvents ++ [row] }

def EntitlementTables.addLog (log : HallPassLog) : EntitlementTables :=
  { T with hallPassLogs := T.hallPassLogs ++ [log] }

def EntitlementTables.addRequest (p : PendingAction) : EntitlementTables :=
  { T with pendingActions := T.pendingActions ++ [p] }

def EntitlementTables.keepRequests (keep : PendingAction → Bool) : EntitlementTables :=
  { T with pendingActions := T.pendingActions.filter keep }

end Tables

/-- A row that ends a grant's lineage bears the grant's own data. -/
structure Ends (g row : EntitlementEvent) : Prop where
  isTerminal : row.isTerminal = true
  entitlementId : row.entitlementId = g.entitlementId
  classId : row.classId = g.classId
  targetSeatId : row.targetSeatId = g.targetSeatId
  productId : row.productId = g.productId
  entitlementType : row.entitlementType = g.entitlementType
  acquisitionType : row.acquisitionType = g.acquisitionType

structure Held (T : EntitlementTables) (g : EntitlementEvent) : Prop where
  mem : g ∈ T.grantedRows
  notEnded : T.ended g.classId g.entitlementId = false
  notWaiting : T.hasPendingAction g.classId g.entitlementId = false

/-- What the writers do to lineages: they open new ones and end those that are held. -/
inductive LineageMove : LineageState → LineageState → Prop
  | grant {L : LineageState} (row : EntitlementEvent) (hrow : row.eventType = .granted)
      (hid : row.entitlementId = L.uuids) :
      LineageMove L { L.addEvent row with uuids := L.uuids + 1 }
  | finish {L : LineageState} {g : EntitlementEvent} (hg : Held L.toEntitlementTables g)
      (row : EntitlementEvent) (hrow : Ends g row) :
      LineageMove L { L.addEvent row with uuids := L.uuids }
  | use {L : LineageState} {g : EntitlementEvent} (hg : Held L.toEntitlementTables g)
      (htype : g.entitlementType = .hallPass) (log : HallPassLog)
      (hlog : log.hallPassId = some g.entitlementId) (hclass : log.classId = g.classId) :
      LineageMove L { L.addLog log with uuids := L.uuids }
  | log {L : LineageState} (log : HallPassLog) (hlog : log.hallPassId = none) :
      LineageMove L { L.addLog log with uuids := L.uuids }
  | acknowledge {L : LineageState} (p : PendingAction) (hid : p.pendingActionId = L.uuids)
      (hkind : p.kind = some .immediateUseAcknowledgement) (houtcome : p.outcome = none) :
      LineageMove L { L.addRequest p with uuids := L.uuids + 1 }

/-- What the commands do to requests: they withdraw some, and make one on a held lineage. -/
inductive RequestMove : LineageState → LineageState → Prop
  | submit {L : LineageState} {g : EntitlementEvent} (hg : Held L.toEntitlementTables g)
      (p : PendingAction) (hid : p.pendingActionId = L.uuids) (hwaits : p.isUnresolved = true)
      (hitem : p.entitlementId = g.entitlementId) (hclass : p.classId = g.classId)
      (hfeat : p.kind = some .hallPassRequest → p.authoritativeFeat = "FEAT-PROD-002" ∧
        ∀ q ∈ L.pendingActions, q.kind = some .hallPassRequest → q.classId = p.classId →
          q.seatId ≠ p.seatId) :
      RequestMove L { L.addRequest p with uuids := L.uuids + 1 }
  | withdraw {L : LineageState} (keep : PendingAction → Bool) :
      RequestMove L { L.keepRequests keep with uuids := L.uuids }

/-- A decision on a request: the request goes, and its item may end. -/
inductive Decision (requestId : ℕ) : LineageState → LineageState → Prop
  | mk {L L' : LineageState} {p : PendingAction} (hp : p ∈ L.waitingRows)
      (hid : p.pendingActionId = requestId) (hitem : ∀ i, L'.ended p.classId i = true →
        L.ended p.classId i = true ∨ i = p.entitlementId)
      (hmove : Relation.ReflTransGen LineageMove
        { L.keepRequests (·.pendingActionId ≠ requestId) with uuids := L.uuids } L') :
      Decision requestId L L'

section Simp

variable {T : EntitlementTables} {row : EntitlementEvent} {log : HallPassLog} {p : PendingAction}
  {keep : PendingAction → Bool} {c : String} {i : ℕ}

@[simp] theorem grantedRows_addEvent : (T.addEvent row).grantedRows =
    T.grantedRows ++ if row.eventType = .granted then [row] else [] := by
  by_cases h : row.eventType = .granted <;>
    simp [EntitlementTables.grantedRows, EntitlementTables.addEvent, h]

@[simp] theorem terminalRows_addEvent : (T.addEvent row).terminalRows =
    T.terminalRows ++ if row.isTerminal then [row] else [] := by
  by_cases h : row.isTerminal = true <;>
    simp [EntitlementTables.terminalRows, EntitlementTables.addEvent, h]

@[simp] theorem usedPasses_addLog : (T.addLog log).usedPasses =
    T.usedPasses ++ log.hallPassId.toList := by
  cases h : log.hallPassId <;>
    simp [EntitlementTables.usedPasses, EntitlementTables.addLog, List.filterMap_append, h]

@[simp] theorem waitingRows_addRequest : (T.addRequest p).waitingRows =
    T.waitingRows ++ if p.isUnresolved then [p] else [] := by
  by_cases h : p.isUnresolved = true <;>
    simp [EntitlementTables.waitingRows, EntitlementTables.addRequest, h]

@[simp] theorem waitingRows_keepRequests : (T.keepRequests keep).waitingRows =
    T.waitingRows.filter keep := by
  simp only [EntitlementTables.waitingRows, EntitlementTables.keepRequests, List.filter_filter]
  exact List.filter_congr (fun _ _ ↦ Bool.and_comm _ _)

@[simp] theorem usedPasses_addEvent : (T.addEvent row).usedPasses = T.usedPasses := rfl
@[simp] theorem waitingRows_addEvent : (T.addEvent row).waitingRows = T.waitingRows := rfl
@[simp] theorem grantedRows_addLog : (T.addLog log).grantedRows = T.grantedRows := rfl
@[simp] theorem terminalRows_addLog : (T.addLog log).terminalRows = T.terminalRows := rfl
@[simp] theorem waitingRows_addLog : (T.addLog log).waitingRows = T.waitingRows := rfl
@[simp] theorem grantedRows_addRequest : (T.addRequest p).grantedRows = T.grantedRows := rfl
@[simp] theorem terminalRows_addRequest : (T.addRequest p).terminalRows = T.terminalRows := rfl
@[simp] theorem usedPasses_addRequest : (T.addRequest p).usedPasses = T.usedPasses := rfl
@[simp] theorem grantedRows_keepRequests : (T.keepRequests keep).grantedRows = T.grantedRows := rfl
@[simp] theorem terminalRows_keepRequests : (T.keepRequests keep).terminalRows = T.terminalRows :=
  rfl
@[simp] theorem usedPasses_keepRequests : (T.keepRequests keep).usedPasses = T.usedPasses := rfl

theorem isTerminal_of_granted (h : row.eventType = .granted) : row.isTerminal = false := by
  simp [EntitlementEvent.isTerminal, h]

theorem isTerminal_iff : row.isTerminal = true ↔ row.eventType ≠ .granted := by
  cases h : row.eventType <;> simp [EntitlementEvent.isTerminal, h]

theorem ended_iff : T.ended c i = true ↔
    (∃ e ∈ T.terminalRows, e.classId = c ∧ e.entitlementId = i) ∨
      ∃ l ∈ T.hallPassLogs, l.classId = c ∧ l.hallPassId = some i := by
  simp only [EntitlementTables.ended, EntitlementTables.terminalEvent,
    EntitlementTables.isUsedHallPass, EntitlementTables.terminalRows, Bool.or_eq_true,
    List.find?_isSome, List.any_eq_true, List.mem_filter, decide_eq_true_eq]
  constructor
  · rintro (⟨e, he, hc, hi, ht⟩ | h)
    · exact .inl ⟨e, ⟨he, ht⟩, hc, hi⟩
    · exact .inr h
  · rintro (⟨e, ⟨he, ht⟩, hc, hi⟩ | h)
    · exact .inl ⟨e, he, hc, hi, ht⟩
    · exact .inr h

theorem ended_false_iff : T.ended c i = false ↔
    (∀ e ∈ T.terminalRows, e.classId = c → e.entitlementId ≠ i) ∧
      ∀ l ∈ T.hallPassLogs, l.classId = c → l.hallPassId ≠ some i := by
  rw [← Bool.not_eq_true, ended_iff]
  push Not
  rfl

theorem hasPendingAction_iff : T.hasPendingAction c i = true ↔
    ∃ p ∈ T.waitingRows, p.classId = c ∧ p.entitlementId = i := by
  simp only [EntitlementTables.hasPendingAction, EntitlementTables.waitingRows, List.any_eq_true,
    List.mem_filter, decide_eq_true_eq]
  constructor
  · rintro ⟨p, hp, hu, hc, hi⟩
    exact ⟨p, ⟨hp, hu⟩, hc, hi⟩
  · rintro ⟨p, ⟨hp, hu⟩, hc, hi⟩
    exact ⟨p, hp, hu, hc, hi⟩

theorem hasPendingAction_false_iff : T.hasPendingAction c i = false ↔
    ∀ p ∈ T.waitingRows, p.classId = c → p.entitlementId ≠ i := by
  rw [← Bool.not_eq_true, hasPendingAction_iff]
  push Not
  rfl

end Simp

/-- What holds of the tables at all times: a lineage is granted once and ends at most once, and a
request waits on a lineage that has not ended, alone. -/
structure LineageInvariant (L : LineageState) : Prop where
  fresh : ∀ e ∈ L.entitlementEvents, e.entitlementId < L.uuids
  grantsUnique : (L.grantedRows.map (·.entitlementId)).Nodup
  endsUnique : (L.terminalRows.map (·.entitlementId)).Nodup
  endsOf : ∀ e ∈ L.terminalRows, ∃ g ∈ L.grantedRows, Ends g e
  usesUnique : L.usedPasses.Nodup
  usesOf : ∀ l ∈ L.hallPassLogs, ∀ i, l.hallPassId = some i → ∃ g ∈ L.grantedRows,
    g.entitlementId = i ∧ g.classId = l.classId ∧ g.entitlementType = .hallPass
  exclusive : ∀ e ∈ L.terminalRows, e.entitlementId ∉ L.usedPasses
  requestsFresh : ∀ p ∈ L.pendingActions, p.pendingActionId < L.uuids
  requestsUnique : (L.pendingActions.map (·.pendingActionId)).Nodup
  requestsOpen : ∀ p ∈ L.pendingActions, p.outcome = none
  requestsFeat : ∀ p ∈ L.pendingActions, p.kind = some .hallPassRequest →
    p.authoritativeFeat = "FEAT-PROD-002"
  waitingUnique : (L.waitingRows.map (·.entitlementId)).Nodup
  waitingOf : ∀ p ∈ L.waitingRows, ∃ g ∈ L.grantedRows, g.entitlementId = p.entitlementId ∧
    g.classId = p.classId ∧ L.ended g.classId g.entitlementId = false
  oneHallPassRequest : ((L.pendingActions.filter (·.kind = some .hallPassRequest)).map
    (fun p ↦ (p.classId, p.seatId))).Nodup

namespace LineageInvariant

variable {L L' : LineageState} {g g' row : EntitlementEvent}

theorem unique_grant (h : LineageInvariant L) (hg : g ∈ L.grantedRows) (hg' : g' ∈ L.grantedRows)
    (hid : g.entitlementId = g'.entitlementId) : g = g' :=
  List.inj_on_of_nodup_map h.grantsUnique hg hg' hid

/-- Neither an event nor a log of a lineage that has not ended names it. -/
theorem not_ended (h : LineageInvariant L) (hg : g ∈ L.grantedRows)
    (hopen : L.ended g.classId g.entitlementId = false) :
    g.entitlementId ∉ L.terminalRows.map (·.entitlementId) ∧ g.entitlementId ∉ L.usedPasses := by
  rw [ended_false_iff] at hopen
  constructor
  · intro hmem
    obtain ⟨e, he, hid⟩ := List.mem_map.1 hmem
    obtain ⟨g', hg', hends⟩ := h.endsOf e he
    obtain rfl := h.unique_grant hg hg' (hid.symm.trans hends.entitlementId)
    exact hopen.1 e he hends.classId hid
  · intro hmem
    obtain ⟨l, hl, hid⟩ := List.mem_filterMap.1 hmem
    obtain ⟨g', hg', hid', hclass, -⟩ := h.usesOf l hl _ hid
    obtain rfl := h.unique_grant hg hg' hid'.symm
    exact hopen.2 l hl hclass.symm hid

theorem not_waiting (h : LineageInvariant L) (hg : g ∈ L.grantedRows)
    (hfree : L.hasPendingAction g.classId g.entitlementId = false) :
    g.entitlementId ∉ L.waitingRows.map (·.entitlementId) := by
  intro hmem
  obtain ⟨p, hp, hid⟩ := List.mem_map.1 hmem
  obtain ⟨g', hg', hid', hclass, -⟩ := h.waitingOf p hp
  obtain rfl := h.unique_grant hg hg' (hid.symm.trans hid'.symm)
  rw [hasPendingAction_false_iff] at hfree
  exact hfree p hp hclass.symm hid

theorem fresh_granted (h : LineageInvariant L) (hg : g ∈ L.grantedRows) :
    g.entitlementId < L.uuids := h.fresh g (List.mem_filter.1 hg).1

end LineageInvariant

end TokenHub.Store
