import Mathlib.Data.List.Pairwise
import TokenHub.Configuration.Transfer
import TokenHub.Lib.Runs

set_option autoImplicit false

namespace TokenHub.Configuration

open Ledger Lib.Checks Lib.Json Lib.Runs
open Rent (Instant)

variable {κ δ : Type} {W : Surroundings κ δ} {S S' : TransferState κ} {ctx : Context}
  {session : Session} {raw confirmation : String} {token : Token} {envelope : Envelope}

section Receipts

variable {receipts : List ConfigurationImportReceipt} {r : ConfigurationImportReceipt}
  {classId : String} {operationId : ℕ}

theorem findReceipt_some (h : findReceipt receipts classId operationId = some r) :
    r ∈ receipts ∧ r.classId = classId ∧ r.operationId = operationId := by
  rw [findReceipt] at h
  exact ⟨List.mem_of_find?_eq_some h, by simpa using List.find?_some h⟩

theorem findReceipt_none : findReceipt receipts classId operationId = none ↔
    ∀ r ∈ receipts, ¬ (r.classId = classId ∧ r.operationId = operationId) := by
  simp [findReceipt, List.find?_eq_none]

/-- Writing the result of a new receipt leaves the ones before it. -/
theorem setResult_concat {result : Value} (hnone : findReceipt receipts classId operationId = none)
    (hclass : r.classId = classId) (hoperation : r.operationId = operationId) :
    setResult (receipts ++ [r]) classId operationId result =
      receipts ++ [{ r with result := result }] := by
  rw [setResult, List.map_append, List.map_singleton, if_pos ⟨hclass, hoperation⟩]
  congr 1
  refine (List.map_congr_left (g := id) ?_).trans (List.map_id _)
  intro s hs
  exact if_neg (findReceipt_none.1 hnone s hs)

theorem mem_keptReceipts {cutoff : Instant} : r ∈ keptReceipts receipts classId cutoff ↔
    r ∈ receipts ∧ ¬ (r.classId = classId ∧ r.expiresAt ≤ cutoff) := by
  rw [keptReceipts, List.mem_filter, decide_eq_true_iff]

end Receipts

section Commands

structure Accepts (W : Surroundings κ δ) (S : TransferState κ) (ctx : Context)
    (raw confirmation : String) (token : Token) : Prop where
  verified : W.verifyConfirmation confirmation = some token
  ofClass : token.classId = ctx.classId
  ofSeat : token.seatId = ctx.seatId
  ofFile : token.digest = W.sha256 raw
  unexpired : S.clock < token.expiresAt

theorem acceptReference_ok
    (h : acceptReference W S ctx session raw confirmation = .ok (token, envelope)) :
    Accepts W S ctx raw confirmation token := by
  rw [acceptReference, demand_bind_eq_ok] at h
  obtain ⟨t, hverified, h⟩ := h
  rw [require_bind_eq_ok] at h
  obtain ⟨⟨hclass, hseat, hfile⟩, h⟩ := h
  rw [unit_bind_eq_ok] at h
  obtain ⟨-, h⟩ := h
  rw [bind_eq_ok] at h
  obtain ⟨e, -, h⟩ := h
  rw [require_bind_eq_ok] at h
  obtain ⟨-, h⟩ := h
  rw [unit_bind_eq_ok] at h
  obtain ⟨hvalid, h⟩ := h
  rw [pure_eq_ok, Prod.mk.injEq] at h
  obtain ⟨rfl, rfl⟩ := h
  rw [validateReference, require_bind_eq_ok, require_eq_ok] at hvalid
  exact
    { verified := hverified, ofClass := hclass, ofSeat := hseat, ofFile := hfile,
      unexpired := hvalid.2 t rfl }

structure Imports (W : Surroundings κ δ) (S : TransferState κ) (ctx : Context) (token : Token)
    (result : Value) (S' : TransferState κ) : Prop where
  clock : S.clock ≤ S'.clock
  issued : S'.issued = S.issued
  receipts : ∃ r, r.classId = ctx.classId ∧ r.operationId = token.operationId ∧
    r.actorSeatId = ctx.seatId ∧ r.fingerprint = digest W.sha256 token.value ∧
    r.expiresAt = token.expiresAt ∧ r.result = result ∧ S'.receipts = S.receipts ++ [r]
  audit : S'.audit = S.audit ++
    [.imported ctx.classId token.operationId (digest W.sha256 token.value) result]

theorem applyImport_ok {lasting : ℕ} {result : Value}
    (hnone : findReceipt S.receipts ctx.classId token.operationId = none)
    (h : applyImport W S ctx token envelope lasting = .ok (result, S')) :
    Imports W S ctx token result S' := by
  rw [applyImport, require_bind_eq_ok] at h
  obtain ⟨-, h⟩ := h
  rw [bind_eq_ok] at h
  obtain ⟨groups, -, h⟩ := h
  rw [bind_eq_ok] at h
  obtain ⟨decoded, -, h⟩ := h
  simp only [reserve, hnone, and_self, require_of, ok_bind, pure_bind, Bool.true_eq_false,
    if_false] at h
  rw [bind_eq_ok] at h
  obtain ⟨⟨res, k⟩, -, h⟩ := h
  rw [pure_eq_ok, Prod.mk.injEq] at h
  obtain ⟨rfl, rfl⟩ := h
  exact
    { clock := le_add_of_nonneg_right (Int.natCast_nonneg lasting)
      issued := rfl
      receipts := ⟨_, rfl, rfl, rfl, rfl, rfl, rfl, setResult_concat hnone rfl rfl⟩
      audit := rfl }

theorem confirmImport_ok {lasting : ℕ} {result : Value}
    (h : confirmImport W S ctx session raw confirmation lasting = .ok (result, S')) :
    ∃ token, Accepts W S ctx raw confirmation token ∧
      ((S' = S ∧ ∃ r ∈ S.receipts, r.classId = ctx.classId ∧ r.operationId = token.operationId ∧
          r.result = result) ∨
        (findReceipt S.receipts ctx.classId token.operationId = none ∧
          Imports W S ctx token result S')) := by
  rw [confirmImport, bind_eq_ok] at h
  obtain ⟨⟨token, envelope⟩, haccept, h⟩ := h
  refine ⟨token, acceptReference_ok haccept, ?_⟩
  cases hfind : findReceipt S.receipts ctx.classId token.operationId with
  | some r =>
    simp only [hfind] at h
    rw [require_bind_eq_ok, pure_eq_ok, Prod.mk.injEq] at h
    obtain ⟨-, rfl, rfl⟩ := h
    obtain ⟨hr, hclass, hoperation⟩ := findReceipt_some hfind
    exact .inl ⟨rfl, r, hr, hclass, hoperation, rfl⟩
  | none =>
    simp only [hfind] at h
    exact .inr ⟨rfl, applyImport_ok hfind h⟩

end Commands

section Invariant

def AuditEntry.IsImport (classId : String) (operationId : ℕ) : AuditEntry → Prop
  | .imported c o _ _ => c = classId ∧ o = operationId
  | _ => False

instance (classId : String) (operationId : ℕ) :
    (e : AuditEntry) → Decidable (e.IsImport classId operationId)
  | .imported c o _ _ => inferInstanceAs (Decidable (c = classId ∧ o = operationId))
  | .exported _ _ => isFalse id
  | .cleanup _ _ => isFalse id

def imports (S : TransferState κ) (classId : String) (operationId : ℕ) : List AuditEntry :=
  S.audit.filter (·.IsImport classId operationId)

/-- What every run keeps: operations are known by their tokens, and an import's receipt is there
for as long as its token is unexpired. -/
structure TransferInvariant (W : Surroundings κ δ) (S : TransferState κ) : Prop where
  operations : ∀ (n : ℕ) (i : Issue), S.issued[n]? = some i → i.token.operationId = n
  files : ∀ i ∈ S.issued, i.token.digest = W.sha256 i.file
  once : ∀ classId operationId, (imports S classId operationId).length ≤ 1
  imported : ∀ classId operationId fingerprint result,
    .imported classId operationId fingerprint result ∈ S.audit →
      ∃ i ∈ S.issued, i.token.classId = classId ∧ i.token.operationId = operationId ∧
        (i.token.expiresAt ≤ S.clock ∨ ∃ r ∈ S.receipts, r.classId = classId ∧
          r.operationId = operationId ∧ r.result = result)
  receipts : ∀ r ∈ S.receipts, ∃ i ∈ S.issued, i.token.classId = r.classId ∧
    i.token.operationId = r.operationId ∧ i.token.seatId = r.actorSeatId ∧
    r.fingerprint = digest W.sha256 i.token.value ∧ r.expiresAt = i.token.expiresAt
  keys : S.receipts.Pairwise (fun r s ↦ ¬ (r.classId = s.classId ∧ r.operationId = s.operationId))

namespace TransferInvariant

variable {i j : Issue}

theorem issue_unique (h : TransferInvariant W S) (hi : i ∈ S.issued) (hj : j ∈ S.issued)
    (hij : i.token.operationId = j.token.operationId) : i = j := by
  obtain ⟨m, hm⟩ := List.mem_iff_getElem?.1 hi
  obtain ⟨n, hn⟩ := List.mem_iff_getElem?.1 hj
  have hmn : m = n := by rw [← h.operations m i hm, ← h.operations n j hn, hij]
  subst hmn
  exact Option.some.inj (hm.symm.trans hn)

theorem receipt_unique (h : TransferInvariant W S) {r s : ConfigurationImportReceipt}
    (hr : r ∈ S.receipts) (hs : s ∈ S.receipts) (hclass : r.classId = s.classId)
    (hoperation : r.operationId = s.operationId) : r = s := by
  by_contra hne
  have hsymm : Std.Symm (fun r s : ConfigurationImportReceipt ↦
      ¬ (r.classId = s.classId ∧ r.operationId = s.operationId)) :=
    ⟨fun _ _ hab hba ↦ hab ⟨hba.1.symm, hba.2.symm⟩⟩
  exact h.keys.forall hr hs hne ⟨hclass, hoperation⟩

theorem findReceipt_eq (h : TransferInvariant W S) {r : ConfigurationImportReceipt}
    (hr : r ∈ S.receipts) : findReceipt S.receipts r.classId r.operationId = some r := by
  cases hfind : findReceipt S.receipts r.classId r.operationId with
  | none => exact absurd ⟨rfl, rfl⟩ (findReceipt_none.1 hfind r hr)
  | some s =>
    obtain ⟨hs, hclass, hoperation⟩ := findReceipt_some hfind
    rw [h.receipt_unique hs hr hclass hoperation]

theorem not_imported (h : TransferInvariant W S) (hi : i ∈ S.issued)
    (hunexpired : S.clock < i.token.expiresAt)
    (hnone : findReceipt S.receipts i.token.classId i.token.operationId = none) :
    imports S i.token.classId i.token.operationId = [] := by
  rw [imports, List.filter_eq_nil_iff]
  intro e he himport
  have himport := of_decide_eq_true himport
  cases e with
  | exported => exact himport
  | cleanup => exact himport
  | imported classId operationId fingerprint result =>
    obtain ⟨rfl, rfl⟩ := himport
    obtain ⟨j, hj, -, hoperation, hexpired | ⟨r, hr, hkey, hkey', -⟩⟩ :=
      h.imported _ _ _ _ he
    · rw [h.issue_unique hj hi hoperation] at hexpired
      exact absurd hexpired hunexpired.not_ge
    · exact findReceipt_none.1 hnone r hr ⟨hkey, hkey'⟩

/-- Time passing, and steps elsewhere, keep the invariant. -/
theorem of_same (h : TransferInvariant W S) (hclock : S.clock ≤ S'.clock)
    (hissued : S'.issued = S.issued) (hreceipts : S'.receipts = S.receipts)
    (haudit : S'.audit = S.audit) : TransferInvariant W S' where
  operations := hissued ▸ h.operations
  files := hissued ▸ h.files
  once := by
    intro classId operationId
    rw [imports, haudit]
    exact h.once classId operationId
  imported := by
    intro classId operationId fingerprint result he
    rw [haudit] at he
    rw [hissued, hreceipts]
    obtain ⟨i, hi, hclass, hoperation, hlater⟩ := h.imported _ _ _ _ he
    exact ⟨i, hi, hclass, hoperation, hlater.imp_left (fun hexpired ↦ hexpired.trans hclock)⟩
  receipts := by
    rw [hissued, hreceipts]
    exact h.receipts
  keys := hreceipts ▸ h.keys

theorem noted (h : TransferInvariant W S) {e : AuditEntry}
    (he : ∀ classId operationId, ¬ e.IsImport classId operationId)
    (hclock : S'.clock = S.clock) (hissued : S'.issued = S.issued)
    (hreceipts : S'.receipts = S.receipts) (haudit : S'.audit = S.audit ++ [e]) :
    TransferInvariant W S' where
  operations := hissued ▸ h.operations
  files := hissued ▸ h.files
  once := by
    intro classId operationId
    have hnot : [e].filter (·.IsImport classId operationId) = [] := by simp [he]
    rw [imports, haudit, List.filter_append, hnot, List.append_nil]
    exact h.once classId operationId
  imported := by
    intro classId operationId fingerprint result hmem
    rw [haudit, List.mem_append, List.mem_singleton] at hmem
    rw [hissued, hreceipts, hclock]
    rcases hmem with hmem | rfl
    · exact h.imported _ _ _ _ hmem
    · exact absurd ⟨rfl, rfl⟩ (he classId operationId)
  receipts := by
    rw [hissued, hreceipts]
    exact h.receipts
  keys := hreceipts ▸ h.keys

/-- A signed confirmation takes the next operation. -/
theorem issued (h : TransferInvariant W S) {raw : String} (hnew : token.operationId = S.issued.length)
    (hfile : token.digest = W.sha256 raw) :
    TransferInvariant W { S with issued := S.issued ++ [⟨token, raw⟩] } where
  operations := by
    intro n i hi
    rw [List.getElem?_append] at hi
    split_ifs at hi with hlt
    · exact h.operations n i hi
    · have hzero : n - S.issued.length = 0 := by
        by_contra hne
        rw [List.getElem?_eq_none] at hi
        · cases hi
        · rw [List.length_singleton]
          omega
      rw [hzero, List.getElem?_cons_zero] at hi
      obtain rfl := Option.some.inj hi
      rw [hnew]
      omega
  files := by
    intro i hi
    rcases List.mem_append.1 hi with hi | hi
    · exact h.files i hi
    · rw [List.mem_singleton.1 hi]
      exact hfile
  once := h.once
  imported := by
    intro classId operationId fingerprint result he
    obtain ⟨i, hi, hrest⟩ := h.imported _ _ _ _ he
    exact ⟨i, List.mem_append_left _ hi, hrest⟩
  receipts := by
    intro r hr
    obtain ⟨i, hi, hrest⟩ := h.receipts r hr
    exact ⟨i, List.mem_append_left _ hi, hrest⟩
  keys := h.keys

theorem imports (h : TransferInvariant W S) (hi : i ∈ S.issued)
    (haccept : Accepts W S ctx raw confirmation i.token) {result : Value}
    (hnone : findReceipt S.receipts ctx.classId i.token.operationId = none)
    (hs : Imports W S ctx i.token result S') : TransferInvariant W S' := by
  obtain ⟨r, hclass, hoperation, hactor, hprint, hexpires, hresult, hreceipts⟩ := hs.receipts
  have hnot : Configuration.imports S ctx.classId i.token.operationId = [] := by
    rw [← haccept.ofClass] at hnone ⊢
    exact h.not_imported hi haccept.unexpired hnone
  exact
    { operations := hs.issued ▸ h.operations
      files := hs.issued ▸ h.files
      once := by
        intro classId operationId
        rw [Configuration.imports, hs.audit, List.filter_append, List.length_append]
        by_cases hkey : ctx.classId = classId ∧ i.token.operationId = operationId
        · obtain ⟨rfl, rfl⟩ := hkey
          rw [Configuration.imports] at hnot
          rw [hnot, List.length_nil, Nat.zero_add]
          exact List.length_filter_le _ _
        · have hother : [AuditEntry.imported ctx.classId i.token.operationId
              (digest W.sha256 i.token.value) result].filter
                (·.IsImport classId operationId) = [] := by
            rw [List.filter_eq_nil_iff]
            intro e he himport
            rw [List.mem_singleton.1 he] at himport
            exact hkey (of_decide_eq_true himport)
          rw [hother, List.length_nil, Nat.add_zero]
          exact h.once classId operationId
      imported := by
        intro classId operationId fingerprint res he
        rw [hs.audit, List.mem_append, List.mem_singleton] at he
        rw [hs.issued, hreceipts]
        rcases he with he | he
        · obtain ⟨j, hj, hjclass, hjoperation, hexpired | ⟨s, hmem, hrest⟩⟩ := h.imported _ _ _ _ he
          · exact ⟨j, hj, hjclass, hjoperation, .inl (hexpired.trans hs.clock)⟩
          · exact ⟨j, hj, hjclass, hjoperation, .inr ⟨s, List.mem_append_left _ hmem, hrest⟩⟩
        · obtain ⟨rfl, rfl, rfl, rfl⟩ := AuditEntry.imported.inj he
          exact ⟨i, hi, haccept.ofClass, rfl, .inr ⟨r, by simp, hclass, hoperation, hresult⟩⟩
      receipts := by
        intro s hmem
        rw [hreceipts, List.mem_append, List.mem_singleton] at hmem
        rw [hs.issued]
        rcases hmem with hmem | rfl
        · exact h.receipts s hmem
        · refine ⟨i, hi, haccept.ofClass.trans hclass.symm, hoperation.symm, ?_, hprint, hexpires⟩
          exact haccept.ofSeat.trans hactor.symm
      keys := by
        rw [hreceipts, List.pairwise_append]
        refine ⟨h.keys, List.pairwise_singleton _ _, ?_⟩
        intro s hmem t ht hkey
        rw [List.mem_singleton.1 ht, hclass, hoperation] at hkey
        exact findReceipt_none.1 hnone s hmem hkey }

/-- A cleanup takes away receipts of expired tokens only. -/
theorem cleaned (h : TransferInvariant W S) (classId : String)
    (hclock : S'.clock = S.clock) (hissued : S'.issued = S.issued)
    (hreceipts : S'.receipts = keptReceipts S.receipts classId S.clock)
    (haudit : S'.audit = S.audit) : TransferInvariant W S' where
  operations := hissued ▸ h.operations
  files := hissued ▸ h.files
  once := by
    intro c o
    rw [Configuration.imports, haudit]
    exact h.once c o
  imported := by
    intro c o fingerprint result he
    rw [haudit] at he
    rw [hissued, hreceipts, hclock]
    obtain ⟨i, hi, hclass, hoperation, hexpired | ⟨r, hr, hkey, hkey', hresult⟩⟩ :=
      h.imported _ _ _ _ he
    · exact ⟨i, hi, hclass, hoperation, .inl hexpired⟩
    · refine ⟨i, hi, hclass, hoperation, ?_⟩
      by_cases hgone : r.classId = classId ∧ r.expiresAt ≤ S.clock
      · left
        obtain ⟨j, hj, -, hjoperation, -, -, hexpires⟩ := h.receipts r hr
        rw [h.issue_unique hi hj ((hoperation.trans hkey'.symm).trans hjoperation.symm), ← hexpires]
        exact hgone.2
      · exact .inr ⟨r, mem_keptReceipts.2 ⟨hr, hgone⟩, hkey, hkey', hresult⟩
  receipts := by
    intro r hr
    rw [hreceipts] at hr
    rw [hissued]
    exact h.receipts r (mem_keptReceipts.1 hr).1
  keys := by
    rw [hreceipts]
    exact h.keys.filter _

end TransferInvariant

end Invariant

section Runs

/-- Time does not run back, and what was signed stays signed. -/
structure Later (S S' : TransferState κ) : Prop where
  clock : S.clock ≤ S'.clock
  issued : S.issued <+: S'.issued

theorem Later.refl (S : TransferState κ) : Later S S := ⟨le_refl _, List.prefix_refl _⟩

theorem Later.trans {S'' : TransferState κ} (h : Later S S') (h' : Later S' S'') : Later S S'' :=
  ⟨h.clock.trans h'.clock, h.issued.trans h'.issued⟩

theorem exportConfiguration_ok {selection : Value} {expected : Option String}
    {reference raw : String}
    (h : exportConfiguration W S ctx session selection expected reference = .ok (raw, S')) :
    S'.clock = S.clock ∧ S'.issued = S.issued ∧ S'.receipts = S.receipts ∧
      S'.audit = S.audit ++ [.exported ctx.userId (W.sha256 raw)] := by
  rw [exportConfiguration, unit_bind_eq_ok] at h
  obtain ⟨-, h⟩ := h
  rw [require_bind_eq_ok, bind_eq_ok] at h
  obtain ⟨-, groups, -, h⟩ := h
  rw [bind_eq_ok] at h
  obtain ⟨decoded, -, h⟩ := h
  rw [pure_eq_ok, Prod.mk.injEq] at h
  obtain ⟨rfl, rfl⟩ := h
  exact ⟨rfl, rfl, rfl, rfl⟩

theorem previewImport_ok {selection schedules : Value} {text : String}
    (h : previewImport W S ctx session raw selection schedules = .ok (text, S')) :
    ∃ token : Token, token.operationId = S.issued.length ∧ token.digest = W.sha256 raw ∧
      S' = { S with issued := S.issued ++ [⟨token, raw⟩] } := by
  rw [previewImport, unit_bind_eq_ok] at h
  obtain ⟨-, h⟩ := h
  rw [bind_eq_ok] at h
  obtain ⟨envelope, -, h⟩ := h
  rw [unit_bind_eq_ok] at h
  obtain ⟨-, h⟩ := h
  rw [bind_eq_ok] at h
  obtain ⟨groups, -, h⟩ := h
  rw [bind_eq_ok] at h
  obtain ⟨decoded, -, h⟩ := h
  rw [unit_bind_eq_ok] at h
  obtain ⟨-, h⟩ := h
  rw [pure_eq_ok, Prod.mk.injEq] at h
  exact ⟨_, rfl, rfl, h.2.symm⟩

theorem cleanupReceipts_ok {count : ℕ} (h : cleanupReceipts S ctx session = .ok (count, S')) :
    S'.clock = S.clock ∧ S'.issued = S.issued ∧
      S'.receipts = keptReceipts S.receipts ctx.classId S.clock ∧
      S'.audit = S.audit ++ [.cleanup ctx.classId count] := by
  rw [cleanupReceipts, unit_bind_eq_ok] at h
  obtain ⟨-, h⟩ := h
  rw [pure_eq_ok, Prod.mk.injEq] at h
  obtain ⟨rfl, rfl⟩ := h
  exact ⟨rfl, rfl, rfl, rfl⟩

theorem TransferInvariant.confirm (h : TransferInvariant W S) {lasting : ℕ} {result : Value}
    (hunforged : Unforged W S confirmation)
    (hok : confirmImport W S ctx session raw confirmation lasting = .ok (result, S')) :
    TransferInvariant W S' ∧ Later S S' := by
  obtain ⟨token, haccept, ⟨rfl, -⟩ | ⟨hnone, hs⟩⟩ := confirmImport_ok hok
  · exact ⟨h, Later.refl _⟩
  · obtain ⟨i, hi, rfl⟩ := hunforged token haccept.verified
    exact ⟨h.imports hi haccept hnone hs, hs.clock, hs.issued ▸ List.prefix_refl _⟩

theorem step_keeps (h : TransferInvariant W S) (a : Action κ) (hunforged : Unforgeable W S a) :
    TransferInvariant W (step W S a) ∧ Later S (step W S a) := by
  cases a with
  | elapsed d =>
    have hclock : S.clock ≤ S.clock + (d : ℤ) := le_add_of_nonneg_right (Int.natCast_nonneg d)
    exact ⟨h.of_same hclock rfl rfl rfl, hclock, List.prefix_refl _⟩
  | identified I => exact ⟨h.of_same (le_refl _) rfl rfl rfl, le_refl _, List.prefix_refl _⟩
  | configured k => exact ⟨h.of_same (le_refl _) rfl rfl rfl, le_refl _, List.prefix_refl _⟩
  | exports ctx session selection expected reference =>
    refine committed_relates (R := fun S S' ↦ TransferInvariant W S' ∧ Later S S')
      ⟨h, Later.refl S⟩ ?_
    intro raw S' hok
    obtain ⟨hclock, hissued, hreceipts, haudit⟩ := exportConfiguration_ok hok
    refine ⟨h.noted (fun _ _ ↦ id) hclock hissued hreceipts haudit, hclock.ge, ?_⟩
    exact hissued ▸ List.prefix_refl _
  | preview ctx session raw selection schedules =>
    refine committed_relates (R := fun S S' ↦ TransferInvariant W S' ∧ Later S S')
      ⟨h, Later.refl S⟩ ?_
    intro text S' hok
    obtain ⟨token, hnew, hfile, rfl⟩ := previewImport_ok hok
    exact ⟨h.issued hnew hfile, le_refl _, List.prefix_append _ _⟩
  | confirm ctx session raw confirmation lasting =>
    refine committed_relates (R := fun S S' ↦ TransferInvariant W S' ∧ Later S S')
      ⟨h, Later.refl S⟩ ?_
    intro result S' hok
    exact h.confirm hunforged hok
  | cleanup ctx session =>
    refine committed_relates (R := fun S S' ↦ TransferInvariant W S' ∧ Later S S')
      ⟨h, Later.refl S⟩ ?_
    intro count S' hok
    obtain ⟨hclock, hissued, hreceipts, haudit⟩ := cleanupReceipts_ok hok
    have hnoted : TransferInvariant W { S with audit := S'.audit } :=
      h.noted (fun _ _ ↦ id) rfl rfl rfl haudit
    exact ⟨hnoted.cleaned ctx.classId hclock hissued hreceipts rfl, hclock.ge,
      hissued ▸ List.prefix_refl _⟩

theorem run_keeps (h : TransferInvariant W S) {as : List (Action κ)}
    (has : AllAlong (Unforgeable W) (step W) S as) :
    TransferInvariant W (run (step W) S as) ∧ Later S (run (step W) S as) := by
  induction as generalizing S with
  | nil => exact ⟨h, Later.refl S⟩
  | cons a as ih =>
    obtain ⟨ha, has⟩ := has
    obtain ⟨hstep, hlater⟩ := step_keeps h a ha
    obtain ⟨hrun, hlater'⟩ := ih hstep has
    exact ⟨hrun, hlater.trans hlater'⟩

theorem initial_invariant (clock : Instant) (I : Identities) (exports : ℕ → ExportAuthority)
    (k : κ) : TransferInvariant W (.initial clock I exports k) where
  operations := by simp [TransferState.initial]
  files := by simp [TransferState.initial]
  once := by simp [imports, TransferState.initial]
  imported := by simp [TransferState.initial]
  receipts := by simp [TransferState.initial]
  keys := List.Pairwise.nil

end Runs

section AppliedOnce

/-- The law of configuration imports, at a state that some commands have led to. -/
structure AppliesOnce (W : Surroundings κ δ) (S : TransferState κ) : Prop where
  once : ∀ i ∈ S.issued, (imports S i.token.classId i.token.operationId).length ≤ 1
  logged : ∀ ctx session raw confirmation lasting result S', Unforged W S confirmation →
    confirmImport W S ctx session raw confirmation lasting = .ok (result, S') →
      S' = S ∨ ∃ i ∈ S.issued, W.verifyConfirmation confirmation = some i.token ∧
        S'.audit = S.audit ++ [.imported i.token.classId i.token.operationId
          (digest W.sha256 i.token.value) result]
  replayed : ∀ ctx session raw confirmation lasting, ∀ i ∈ S.issued, ∀ fingerprint result,
    .imported i.token.classId i.token.operationId fingerprint result ∈ S.audit →
    (∃ envelope, acceptReference W S ctx session raw confirmation = .ok (i.token, envelope)) →
      confirmImport W S ctx session raw confirmation lasting = .ok (result, S)
  refused : ∀ ctx session raw confirmation lasting, Unforged W S confirmation →
    (∀ i ∈ S.issued, W.verifyConfirmation confirmation = some i.token →
      (raw ≠ i.file ∧ Set.InjOn W.sha256 {raw, i.file}) ∨ i.token.expiresAt ≤ S.clock) →
    (∃ e, confirmImport W S ctx session raw confirmation lasting = .error e) ∧
      step W S (.confirm ctx session raw confirmation lasting) = S
  cleanup : ∀ ctx session, ∀ r ∈ S.receipts, r ∉ (step W S (.cleanup ctx session)).receipts →
    ∀ as, AllAlong (Unforgeable W) (step W) (step W S (.cleanup ctx session)) as →
    ∀ ctx' session' raw confirmation token,
      let S' := run (step W) (step W S (.cleanup ctx session)) as
      Unforged W S' confirmation → W.verifyConfirmation confirmation = some token →
      token.classId = r.classId → token.operationId = r.operationId →
        ∃ e, acceptReference W S' ctx' session' raw confirmation = .error e

variable (h : TransferInvariant W S)

include h in
theorem confirmImport_replayed {lasting : ℕ} {i : Issue} {fingerprint : String} {result : Value}
    (hi : i ∈ S.issued)
    (himported : .imported i.token.classId i.token.operationId fingerprint result ∈ S.audit)
    (haccept : acceptReference W S ctx session raw confirmation = .ok (i.token, envelope)) :
    confirmImport W S ctx session raw confirmation lasting = .ok (result, S) := by
  have hchecked := acceptReference_ok haccept
  obtain ⟨j, hj, -, hoperation, hexpired | ⟨r, hr, hclass, hkey, rfl⟩⟩ :=
    h.imported _ _ _ _ himported
  · rw [h.issue_unique hj hi hoperation] at hexpired
    exact absurd hexpired hchecked.unexpired.not_ge
  · obtain ⟨j, hj, -, hjoperation, hseat, hprint, -⟩ := h.receipts r hr
    obtain rfl := h.issue_unique hj hi (hjoperation.trans hkey)
    have hfind := h.findReceipt_eq hr
    rw [hclass, hkey, hchecked.ofClass] at hfind
    rw [confirmImport, haccept, ok_bind]
    simp only [hfind]
    rw [require_of ⟨hprint, hseat.symm.trans hchecked.ofSeat⟩, ok_bind]
    rfl

include h in
theorem confirmImport_refused {lasting : ℕ} (hunforged : Unforged W S confirmation)
    (hstale : ∀ i ∈ S.issued, W.verifyConfirmation confirmation = some i.token →
      (raw ≠ i.file ∧ Set.InjOn W.sha256 {raw, i.file}) ∨ i.token.expiresAt ≤ S.clock) :
    ∃ e, confirmImport W S ctx session raw confirmation lasting = .error e := by
  cases hanswer : confirmImport W S ctx session raw confirmation lasting with
  | error e => exact ⟨e, rfl⟩
  | ok p =>
    exfalso
    obtain ⟨token, haccept, -⟩ := confirmImport_ok hanswer
    obtain ⟨i, hi, rfl⟩ := hunforged token haccept.verified
    rcases hstale i hi haccept.verified with ⟨hfile, hsha⟩ | hexpired
    · have hdigest : W.sha256 raw = W.sha256 i.file := by rw [← haccept.ofFile, h.files i hi]
      exact hfile (hsha (.inl rfl) (.inr rfl) hdigest)
    · exact absurd hexpired haccept.unexpired.not_ge

include h in
/-- What a cleanup removes is past its token's expiry, and time does not run back. -/
theorem removed_not_accepted {r : ConfigurationImportReceipt} (hr : r ∈ S.receipts)
    (hgone : r ∉ (step W S (.cleanup ctx session)).receipts) (hlater : Later S S')
    (hafter : TransferInvariant W S') (hunforged : Unforged W S' confirmation)
    (hverified : W.verifyConfirmation confirmation = some token)
    (hoperation : token.operationId = r.operationId) {ctx' : Context} {session' : Session} :
    ∃ e, acceptReference W S' ctx' session' raw confirmation = .error e := by
  cases hanswer : acceptReference W S' ctx' session' raw confirmation with
  | error e => exact ⟨e, rfl⟩
  | ok p =>
    exfalso
    have haccept := acceptReference_ok hanswer
    obtain rfl : token = p.1 := Option.some.inj (hverified.symm.trans haccept.verified)
    have hexpired : r.expiresAt ≤ S.clock := by
      by_contra hlive
      apply hgone
      show r ∈ (committed S (cleanupReceipts S ctx session)).receipts
      cases hcleanup : cleanupReceipts S ctx session with
      | error e => exact hr
      | ok q =>
        obtain ⟨-, -, hreceipts, -⟩ := cleanupReceipts_ok hcleanup
        rw [committed_ok, hreceipts]
        exact mem_keptReceipts.2 ⟨hr, fun hkey ↦ hlive hkey.2⟩
    obtain ⟨i, hi, -, hioperation, -, -, hexpires⟩ := h.receipts r hr
    obtain ⟨j, hj, hjtoken⟩ := hunforged p.1 hverified
    have hij : j = i := by
      refine hafter.issue_unique hj (hlater.issued.subset hi) ?_
      rw [hjtoken, hoperation, hioperation]
    have hlast : p.1.expiresAt ≤ S'.clock := by
      rw [← hjtoken, hij, ← hexpires]
      exact hexpired.trans hlater.clock
    exact absurd hlast haccept.unexpired.not_ge

include h in
theorem appliesOnce : AppliesOnce W S where
  once := fun i _ ↦ h.once i.token.classId i.token.operationId
  logged := by
    intro ctx session raw confirmation lasting result S' hunforged hok
    obtain ⟨token, haccept, ⟨rfl, -⟩ | ⟨-, hs⟩⟩ := confirmImport_ok hok
    · exact .inl rfl
    · obtain ⟨i, hi, rfl⟩ := hunforged token haccept.verified
      exact .inr ⟨i, hi, haccept.verified, haccept.ofClass ▸ hs.audit⟩
  replayed := by
    rintro ctx session raw confirmation lasting i hi fingerprint result himported ⟨envelope, haccept⟩
    exact confirmImport_replayed h hi himported haccept
  refused := by
    intro ctx session raw confirmation lasting hunforged hstale
    have herror : ∃ e, confirmImport W S ctx session raw confirmation lasting = .error e :=
      confirmImport_refused h hunforged hstale
    obtain ⟨e, he⟩ := herror
    refine ⟨⟨e, he⟩, ?_⟩
    show committed S _ = S
    rw [he]
    rfl
  cleanup := by
    intro ctx session r hr hgone as has ctx' session' raw confirmation token S' hunforged hverified
      _ hoperation
    obtain ⟨hstep, hlater⟩ := step_keeps h (.cleanup ctx session) trivial
    obtain ⟨hrun, hlater'⟩ := run_keeps hstep has
    exact removed_not_accepted h hr hgone (hlater.trans hlater') hrun hunforged hverified hoperation

/-- Whatever the confirmations, the cleanups and their order, no confirmation that was signed is
imported twice. -/
theorem import_applied_at_most_once (W : Surroundings κ δ) (clock : Instant) (I : Identities)
    (exports : ℕ → ExportAuthority) (k : κ) (as : List (Action κ))
    (has : AllAlong (Unforgeable W) (step W) (.initial clock I exports k) as) :
    AppliesOnce W (run (step W) (.initial clock I exports k) as) :=
  appliesOnce (run_keeps (initial_invariant clock I exports k) has).1

section Sample

def sampleContext : Context := ⟨1, "c", 2, "teacher"⟩

def sampleSession : Session := ⟨some "n", false⟩

def sampleIdentities : Identities where
  users := [⟨1, "teacher", some "n"⟩]
  classes := [⟨"c", 1⟩]
  seats := [⟨2, "c", 1, "teacher"⟩]

def sampleReference : String :=
  "0123456789abcdef0123456789abcdef0123456789abcdef0123456789abcdef"

def sampleEnvelope : Envelope := ⟨sampleReference, 0, exportLifetime, []⟩

def sampleToken : Token :=
  ⟨0, "c", 2, "export", sampleReference, exportLifetime, .null, .obj [], "0"⟩

theorem confirm_issued {lasting : ℕ} :
    (step W S (.confirm ctx session raw confirmation lasting)).issued = S.issued := by
  refine committed_relates (R := fun S S' : TransferState κ ↦ S'.issued = S.issued) rfl ?_
  intro result S' hok
  obtain ⟨token, -, ⟨rfl, -⟩ | ⟨-, hs⟩⟩ := confirmImport_ok hok
  · rfl
  · exact hs.issued

theorem cleanup_issued : (step W S (.cleanup ctx session)).issued = S.issued := by
  refine committed_relates (R := fun S S' : TransferState κ ↦ S'.issued = S.issued) rfl ?_
  intro count S' hok
  exact (cleanupReceipts_ok hok).2.1

def sampleSurroundings : Surroundings ℕ Unit where
  sha256 := id
  signExport _ := "export"
  verifyExport text := if text = "export" then some sampleEnvelope else none
  signConfirmation _ := "confirmation"
  verifyConfirmation text := if text = "confirmation" then some sampleToken else none
  inventory _ _ := []
  selectEntries groups _ := .ok groups
  schedule groups _ _ := .ok groups
  validate _ _ := .ok ()
  previewTiming _ _ _ _ := .ok ()
  stateText _ _ _ := "0"
  enabled _ _ := []
  apply k _ _ _ _ _ := .ok (.num k, k + 1)

def sampleConfirm : Action ℕ := .confirm sampleContext sampleSession "export" "confirmation" 1

def sampleRun : List (Action ℕ) :=
  [.exports sampleContext sampleSession .null none sampleReference,
    .preview sampleContext sampleSession "export" .null (.obj []), sampleConfirm, sampleConfirm,
    .elapsed exportLifetime.toNat, .cleanup sampleContext sampleSession, sampleConfirm]

theorem sample_exported : step sampleSurroundings
    (.initial 0 sampleIdentities (fun _ ↦ ⟨none, none⟩) 0)
    (.exports sampleContext sampleSession .null none sampleReference) =
      { clock := 0
        identities := sampleIdentities
        exports := Function.update (fun _ ↦ ⟨none, none⟩) 1
          ⟨some sampleReference, some exportLifetime⟩
        receipts := []
        audit := [.exported 1 "export"]
        configuration := 0
        issued := [] } := rfl

set_option maxRecDepth 4000 in
theorem sample_previewed : (step sampleSurroundings (step sampleSurroundings
    (.initial 0 sampleIdentities (fun _ ↦ ⟨none, none⟩) 0)
    (.exports sampleContext sampleSession .null none sampleReference))
    (.preview sampleContext sampleSession "export" .null (.obj []))).issued =
      [⟨sampleToken, "export"⟩] := by
  rw [sample_exported]
  rfl

/-- An import, its replay, and a retry after the receipt has been cleaned up. -/
theorem import_applied_at_most_once_replayed :
    let S := run (step sampleSurroundings)
      (.initial 0 sampleIdentities (fun _ ↦ ⟨none, none⟩) 0) sampleRun
    S.issued = [⟨sampleToken, "export"⟩] ∧ ∀ i ∈ S.issued,
      (imports S i.token.classId i.token.operationId).length ≤ 1 := by
  have hsigned : ∀ S : TransferState ℕ, S.issued = [⟨sampleToken, "export"⟩] →
      Unforgeable sampleSurroundings S sampleConfirm := by
    intro S hissued token htoken
    refine ⟨⟨sampleToken, "export"⟩, ?_, Option.some.inj htoken⟩
    rw [hissued]
    exact List.mem_singleton_self _
  have hkept (S : TransferState ℕ) : (step sampleSurroundings S sampleConfirm).issued = S.issued :=
    confirm_issued
  have helapsed (S : TransferState ℕ) (d : ℕ) :
      (step sampleSurroundings S (.elapsed d)).issued = S.issued := rfl
  have hrun : AllAlong (Unforgeable sampleSurroundings) (step sampleSurroundings)
      (.initial 0 sampleIdentities (fun _ ↦ ⟨none, none⟩) 0) sampleRun := by
    simp only [sampleRun, AllAlong]
    refine ⟨trivial, trivial, hsigned _ sample_previewed, hsigned _ ?_, trivial, trivial,
      hsigned _ ?_, trivial⟩
    · rw [hkept, sample_previewed]
    · rw [cleanup_issued, helapsed, hkept, hkept, sample_previewed]
  have hissued : (run (step sampleSurroundings) (.initial 0 sampleIdentities
      (fun _ ↦ ⟨none, none⟩) 0) sampleRun).issued = [⟨sampleToken, "export"⟩] := by
    rw [sampleRun, run_cons, run_cons, run_cons, run_cons, run_cons, run_cons, run_cons, run_nil,
      hkept, cleanup_issued, helapsed, hkept, hkept, sample_previewed]
  have hlaw := import_applied_at_most_once sampleSurroundings 0 sampleIdentities
    (fun _ ↦ ⟨none, none⟩) 0 sampleRun hrun
  exact ⟨hissued, hlaw.once⟩

end Sample

end AppliedOnce

end TokenHub.Configuration
