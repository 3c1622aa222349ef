import Mathlib.Data.List.Forall2
import Mathlib.Tactic.Common

set_option autoImplicit false

namespace TokenHub.Lib.Checks

variable {ε α β : Type}

/-- A check that raises `e` where `p` fails. -/
def require (p : Prop) [Decidable p] (e : ε) : Except ε Unit :=
  if p then .ok () else .error e

@[simp] theorem require_eq_ok {p : Prop} [Decidable p] {e : ε} {u : Unit} :
    require p e = .ok u ↔ p := by
  unfold require
  split_ifs with h <;> simp [h]

theorem require_of {p : Prop} [Decidable p] {e : ε} (h : p) :
    require p e = .ok () := if_pos h

theorem require_of_not {p : Prop} [Decidable p] {e : ε} (h : ¬ p) :
    require p e = .error e := if_neg h

/-- A lookup that raises `e` where nothing is found. -/
def demand (o : Option α) (e : ε) : Except ε α :=
  match o with
  | some a => .ok a
  | none => .error e

@[simp] theorem demand_some (a : α) (e : ε) : demand (some a) e = .ok a := rfl

@[simp] theorem demand_eq_ok {o : Option α} {e : ε} {a : α} :
    demand o e = .ok a ↔ o = some a := by
  cases o <;> simp [demand]

@[simp] theorem bind_eq_ok {x : Except ε α} {f : α → Except ε β} {b : β} :
    (x >>= f) = .ok b ↔ ∃ a, x = .ok a ∧ f a = .ok b := by
  cases x with
  | error e => simp [bind, Except.bind]
  | ok a => simp [bind, Except.bind]

theorem require_bind_eq_ok {p : Prop} [Decidable p] {e : ε} {f : Unit → Except ε β} {b : β} :
    (require p e >>= f) = .ok b ↔ p ∧ f () = .ok b := by
  rw [bind_eq_ok]
  constructor
  · rintro ⟨⟨⟩, hp, hf⟩
    exact ⟨require_eq_ok.1 hp, hf⟩
  · rintro ⟨hp, hf⟩
    exact ⟨(), require_of hp, hf⟩

theorem demand_bind_eq_ok {o : Option α} {e : ε} {f : α → Except ε β} {b : β} :
    (demand o e >>= f) = .ok b ↔ ∃ a, o = some a ∧ f a = .ok b := by
  simp

@[simp] theorem ok_bind (a : α) (f : α → Except ε β) : (Except.ok a >>= f) = f a := rfl

@[simp] theorem pure_eq_ok {a b : α} : (pure a : Except ε α) = .ok b ↔ a = b := by
  simp [pure, Except.pure]

theorem unit_bind_eq_ok {x : Except ε Unit} {f : Unit → Except ε β} {b : β} :
    (x >>= f) = .ok b ↔ x = .ok () ∧ f () = .ok b := by
  rw [bind_eq_ok]
  exact ⟨fun ⟨_, hx, hf⟩ ↦ ⟨hx, hf⟩, fun ⟨hx, hf⟩ ↦ ⟨(), hx, hf⟩⟩

theorem mapError_eq_ok {ε' : Type} {f : ε → ε'} {x : Except ε α} {a : α} :
    x.mapError f = .ok a ↔ x = .ok a := by
  cases x with
  | error e => simp [Except.mapError]
  | ok b => simp [Except.mapError]

theorem map_eq_ok {f : α → β} {x : Except ε α} {b : β} :
    x.map f = .ok b ↔ ∃ a, x = .ok a ∧ f a = b := by
  cases x with
  | error e => simp [Except.map]
  | ok a => simp [Except.map]

theorem mapM_eq_ok {f : α → Except ε β} {as : List α} {bs : List β} :
    as.mapM f = .ok bs ↔ List.Forall₂ (fun a b ↦ f a = .ok b) as bs := by
  induction as generalizing bs with
  | nil =>
    rw [List.mapM_nil, pure_eq_ok, List.forall₂_nil_left_iff, eq_comm]
  | cons a as ih =>
    simp only [List.mapM_cons, bind_eq_ok, pure_eq_ok]
    constructor
    · rintro ⟨b, hb, bs', hbs, rfl⟩
      exact .cons hb (ih.1 hbs)
    · rintro (_ | ⟨hb, hbs⟩)
      exact ⟨_, hb, _, ih.2 hbs, rfl⟩

theorem exists_forall₂ {R : α → β → Prop} {as : List α} (h : ∀ a ∈ as, ∃ b, R a b) :
    ∃ bs, List.Forall₂ R as bs := by
  induction as with
  | nil => exact ⟨[], .nil⟩
  | cons a as ih =>
    obtain ⟨b, hb⟩ := h a (by simp)
    obtain ⟨bs, hbs⟩ := ih (fun x hx ↦ h x (by simp [hx]))
    exact ⟨b :: bs, .cons hb hbs⟩

theorem forall₂_exists_right {R : α → β → Prop} {as : List α} {bs : List β} {a : α}
    (h : List.Forall₂ R as bs) (ha : a ∈ as) : ∃ b ∈ bs, R a b := by
  induction h with
  | nil => simp at ha
  | cons hr _ ih =>
    rcases List.mem_cons.1 ha with rfl | ha
    · exact ⟨_, by simp, hr⟩
    · obtain ⟨b, hb, hab⟩ := ih ha
      exact ⟨b, by simp [hb], hab⟩

theorem forall₂_exists_left {R : α → β → Prop} {as : List α} {bs : List β} {b : β}
    (h : List.Forall₂ R as bs) (hb : b ∈ bs) : ∃ a ∈ as, R a b :=
  forall₂_exists_right (R := fun b a ↦ R a b) h.flip hb

theorem forall₂_append_inv {R : α → β → Prop} {as as' : List α} {bs : List β}
    (h : List.Forall₂ R (as ++ as') bs) :
    ∃ cs ds, bs = cs ++ ds ∧ List.Forall₂ R as cs ∧ List.Forall₂ R as' ds := by
  induction as generalizing bs with
  | nil => exact ⟨[], bs, rfl, .nil, h⟩
  | cons a as ih =>
    obtain _ | ⟨hr, ht⟩ := h
    obtain ⟨cs, ds, rfl, hcs, hds⟩ := ih ht
    exact ⟨_ :: cs, ds, rfl, .cons hr hcs, hds⟩

/-- Two lists written by related elements are the same list just when the lists agree. -/
theorem forall₂_eq_iff {γ : Type} {R : α → γ → Prop} {S : β → γ → Prop} {Q : α → β → Prop}
    (hRS : ∀ a b c d, R a c → S b d → (c = d ↔ Q a b)) {as : List α} {bs : List β}
    {cs ds : List γ} (hc : List.Forall₂ R as cs) (hd : List.Forall₂ S bs ds) :
    cs = ds ↔ List.Forall₂ Q as bs := by
  induction hc generalizing bs ds with
  | nil =>
    cases hd with
    | nil => simp
    | cons h t => simp
  | cons h t ih =>
    cases hd with
    | nil => simp
    | cons h' t' =>
      rw [List.cons.injEq, List.forall₂_cons, hRS _ _ _ _ h h', ih t']

section Rejections

variable {P : ε → Prop}

/-- Whatever a computation raises satisfies `P`. -/
def Rejects (P : ε → Prop) (x : Except ε α) : Prop := ∀ e, x = .error e → P e

theorem Rejects.ok (a : α) : Rejects P (.ok a : Except ε α) := by
  intro e h
  cases h

theorem Rejects.error {e : ε} (he : P e) : Rejects P (.error e : Except ε α) := by
  intro e' h
  cases h
  exact he

theorem Rejects.require_failed {p : Prop} [Decidable p] {e : ε} (he : ¬ p → P e) :
    Rejects P (require p e) := by
  unfold Checks.require
  split_ifs with hp
  · exact .ok ()
  · exact .error (he hp)

theorem Rejects.require {p : Prop} [Decidable p] {e : ε} (he : P e) :
    Rejects P (require p e) :=
  .require_failed (fun _ ↦ he)

theorem Rejects.demand {o : Option α} {e : ε} (he : P e) : Rejects P (demand o e) := by
  cases o with
  | none => exact .error he
  | some a => exact .ok a

/-- As `bind`, where the outcome of the first part is known in the second. -/
theorem Rejects.bind_ok {x : Except ε α} {f : α → Except ε β} (hx : Rejects P x)
    (hf : ∀ a, x = .ok a → Rejects P (f a)) : Rejects P (x >>= f) := by
  cases x with
  | error e => exact .error (hx e rfl)
  | ok a => exact hf a rfl

theorem Rejects.bind {x : Except ε α} {f : α → Except ε β} (hx : Rejects P x)
    (hf : ∀ a, Rejects P (f a)) : Rejects P (x >>= f) :=
  hx.bind_ok (fun a _ ↦ hf a)

end Rejections

section Commit

variable {σ : Type}

/-- The state after a command; a raised exception rolls back. -/
def committed (s : σ) (r : Except ε (α × σ)) : σ :=
  match r with
  | .ok (_, s') => s'
  | .error _ => s

@[simp] theorem committed_ok (s : σ) (a : α) (s' : σ) :
    committed s (.ok (a, s') : Except ε (α × σ)) = s' := rfl

theorem committed_relates {R : σ → σ → Prop} {s : σ} {r : Except ε (α × σ)} (hrefl : R s s)
    (hok : ∀ a s', r = .ok (a, s') → R s s') : R s (committed s r) := by
  cases r with
  | error e => exact hrefl
  | ok p => exact hok p.1 p.2 rfl

end Commit

section Tally

variable {σ : Type}

/-- A fallible step for each element in turn; the counts are added up. -/
def tally (f : σ → α → Except ε (ℕ × σ)) : σ → List α → Except ε (ℕ × σ)
  | s, [] => return (0, s)
  | s, a :: as => do
    let (n, s') ← f s a
    let (m, s'') ← tally f s' as
    return (n + m, s'')

/-- A reflexive and transitive relation that every step respects holds from start to end. -/
theorem tally_relates {f : σ → α → Except ε (ℕ × σ)} {I : σ → Prop} {R : σ → σ → Prop}
    {as : List α} {s s' : σ} {n : ℕ} (h : tally f s as = .ok (n, s')) (hI : I s)
    (hrefl : ∀ s, R s s) (htrans : ∀ s t u, R s t → R t u → R s u)
    (hstep : ∀ a ∈ as, ∀ s n s', I s → f s a = .ok (n, s') → I s' ∧ R s s') : I s' ∧ R s s' := by
  induction as generalizing s n with
  | nil =>
    simp only [tally, pure_eq_ok, Prod.mk.injEq] at h
    obtain ⟨-, rfl⟩ := h
    exact ⟨hI, hrefl s⟩
  | cons a as ih =>
    simp only [tally, bind_eq_ok, Prod.exists, pure_eq_ok, Prod.mk.injEq] at h
    obtain ⟨n₁, s₁, h₁, n₂, s₂, h₂, -, rfl⟩ := h
    obtain ⟨hI₁, hR₁⟩ := hstep a (by simp) s n₁ s₁ hI h₁
    obtain ⟨hI₂, hR₂⟩ := ih h₂ hI₁ (fun b hb ↦ hstep b (by simp [hb]))
    exact ⟨hI₂, htrans _ _ _ hR₁ hR₂⟩

/-- Where each step adds the facts of its own element, the whole adds those of all of them. -/
theorem tally_adds {β : Type} {f : σ → α → Except ε (ℕ × σ)} {I : σ → Prop} {P : σ → β → Prop}
    {Q : α → β → Prop} {as : List α} {s s' : σ} {n : ℕ} (h : tally f s as = .ok (n, s')) (hI : I s)
    (hstep : ∀ a ∈ as, ∀ s n s', I s → f s a = .ok (n, s') →
      I s' ∧ ∀ x, P s' x ↔ P s x ∨ Q a x) :
    I s' ∧ ∀ x, P s' x ↔ P s x ∨ ∃ a ∈ as, Q a x := by
  induction as generalizing s n with
  | nil =>
    simp only [tally, pure_eq_ok, Prod.mk.injEq] at h
    obtain ⟨-, rfl⟩ := h
    exact ⟨hI, by simp⟩
  | cons a as ih =>
    simp only [tally, bind_eq_ok, Prod.exists, pure_eq_ok, Prod.mk.injEq] at h
    obtain ⟨n₁, s₁, h₁, n₂, s₂, h₂, -, rfl⟩ := h
    obtain ⟨hI₁, hP₁⟩ := hstep a (by simp) s n₁ s₁ hI h₁
    obtain ⟨hI₂, hP₂⟩ := ih h₂ hI₁ (fun b hb ↦ hstep b (by simp [hb]))
    refine ⟨hI₂, fun x ↦ ?_⟩
    rw [hP₂, hP₁, or_assoc]
    simp

end Tally

end TokenHub.Lib.Checks
