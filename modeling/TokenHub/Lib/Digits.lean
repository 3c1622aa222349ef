import Mathlib.Data.List.Basic
import Mathlib.Order.Basic
import Mathlib.Data.Nat.Notation
import Mathlib.Data.Int.Notation

set_option autoImplicit false

namespace TokenHub.Lib.PrefixCode

variable {α β γ σ : Type}

/-- Text written by `f` can be told from what follows it, as long as what follows is one of
the continuations that `stop` admits. -/
def Delimited (stop : List σ → Prop) (f : α → List σ) : Prop :=
  ∀ ⦃a b : α⦄ ⦃r s : List σ⦄, stop r → stop s → f a ++ r = f b ++ s → a = b ∧ r = s

theorem Delimited.injective {stop : List σ → Prop} {f : α → List σ}
    (hf : Delimited stop f) (h : stop []) : Function.Injective f := by
  intro a b hab
  exact (hf h h (by rw [hab])).1

def pairCode (f : α → List σ) (sep : σ) (g : β → List σ) (p : α × β) : List σ :=
  f p.1 ++ sep :: g p.2

/-- Two texts that are cut at the first of a symbol are cut alike. -/
theorem cut_inj {c : σ} {u v x y : List σ} (hu : c ∉ u) (hv : c ∉ v)
    (h : u ++ c :: x = v ++ c :: y) : u = v ∧ x = y := by
  induction u generalizing v with
  | nil =>
    cases v with
    | nil => exact ⟨rfl, (List.cons.inj h).2⟩
    | cons b v => exact absurd (List.cons.inj h).1 (List.ne_of_not_mem_cons hv)
  | cons a u ih =>
    cases v with
    | nil => exact absurd (List.cons.inj h).1.symm (List.ne_of_not_mem_cons hu)
    | cons b v =>
      obtain ⟨rfl, ht⟩ := List.cons.inj h
      obtain ⟨rfl, hxy⟩ := ih (List.not_mem_of_not_mem_cons hu) (List.not_mem_of_not_mem_cons hv) ht
      exact ⟨rfl, hxy⟩

end TokenHub.Lib.PrefixCode

namespace TokenHub.Lib.Digits

open PrefixCode

/-- Decimal digits of a natural number, most significant first. -/
def natText (n : ℕ) : List Char := Nat.toDigits 10 n

def intText : ℤ → List Char
  | .ofNat n => natText n
  | .negSucc n => '-' :: natText (n + 1)

def NoDigit (r : List Char) : Prop := ∀ c ∈ r.head?, c.isDigit = false

@[simp] theorem noDigit_nil : NoDigit [] := by simp [NoDigit]

@[simp] theorem noDigit_cons (c : Char) (r : List Char) :
    NoDigit (c :: r) ↔ c.isDigit = false := by simp [NoDigit]

instance : DecidablePred NoDigit
  | [] => isTrue noDigit_nil
  | c :: r => decidable_of_iff _ (noDigit_cons c r).symm

theorem natText_injective : Function.Injective natText := by
  intro m n h
  have hm := Nat.ofDigitChars_ten_toDigits (n := m)
  rw [show Nat.toDigits 10 m = Nat.toDigits 10 n from h, Nat.ofDigitChars_ten_toDigits] at hm
  exact hm.symm

theorem natText_isDigit {n : ℕ} {c : Char} (h : c ∈ natText n) : c.isDigit = true :=
  Nat.isDigit_of_mem_toDigits (by omega) (by omega) h

theorem natText_ne_nil (n : ℕ) : natText n ≠ [] := Nat.toDigits_ne_nil

theorem span_digits {ds r : List Char} (hd : ∀ c ∈ ds, c.isDigit = true) (hr : NoDigit r) :
    (ds ++ r).takeWhile Char.isDigit = ds ∧ (ds ++ r).dropWhile Char.isDigit = r := by
  induction ds with
  | nil =>
    cases r with
    | nil => simp
    | cons c r => simp [(noDigit_cons c r).1 hr]
  | cons c ds ih =>
    have hc := hd c (by simp)
    have := ih (fun x hx ↦ hd x (by simp [hx]))
    simp [hc, this.1, this.2]

/-- Runs of digits before texts that begin with none are told apart. -/
theorem digits_cut {u v r s : List Char} (hu : ∀ c ∈ u, c.isDigit = true)
    (hv : ∀ c ∈ v, c.isDigit = true) (hr : NoDigit r) (hs : NoDigit s)
    (h : u ++ r = v ++ s) : u = v ∧ r = s := by
  have hut := span_digits hu hr
  have hvt := span_digits hv hs
  rw [h] at hut
  exact ⟨hut.1.symm.trans hvt.1, hut.2.symm.trans hvt.2⟩

theorem natText_delimited : Delimited NoDigit natText := by
  intro m n r s hr hs he
  obtain ⟨hmn, hrs⟩ := digits_cut (fun c h ↦ natText_isDigit h) (fun c h ↦ natText_isDigit h)
    hr hs he
  exact ⟨natText_injective hmn, hrs⟩

theorem natText_suffix {u v : List Char} {m n : ℕ} (hu : NoDigit u.reverse)
    (hv : NoDigit v.reverse) (h : u ++ natText m = v ++ natText n) : u = v ∧ m = n := by
  have hrev := congrArg List.reverse h
  rw [List.reverse_append, List.reverse_append] at hrev
  have hdigits : ∀ k, ∀ c ∈ (natText k).reverse, c.isDigit = true :=
    fun k c hc ↦ natText_isDigit (List.mem_reverse.1 hc)
  have hm := span_digits (hdigits m) hu
  have hn := span_digits (hdigits n) hv
  rw [hrev] at hm
  exact ⟨List.reverse_injective (hm.2.symm.trans hn.2),
    natText_injective (List.reverse_injective (hm.1.symm.trans hn.1))⟩

theorem natText_head_ne_minus (n : ℕ) (r s : List Char) : natText n ++ r ≠ '-' :: s := by
  obtain ⟨c, t, ht⟩ := List.exists_cons_of_ne_nil (natText_ne_nil n)
  have hc : c.isDigit = true := natText_isDigit (n := n) (by rw [ht]; simp)
  rw [ht, List.cons_append]
  intro h
  rw [(List.cons.inj h).1] at hc
  exact absurd hc (by decide)

theorem intText_delimited : Delimited NoDigit intText := by
  intro a b r s hr hs he
  cases a with
  | ofNat m =>
    cases b with
    | ofNat n =>
      obtain ⟨hmn, hrs⟩ := natText_delimited hr hs he
      exact ⟨by rw [hmn], hrs⟩
    | negSucc n => exact absurd he (natText_head_ne_minus m r _)
  | negSucc m =>
    cases b with
    | ofNat n => exact absurd he.symm (natText_head_ne_minus n s _)
    | negSucc n =>
      obtain ⟨hmn, hrs⟩ := natText_delimited hr hs (List.cons.inj he).2
      exact ⟨by rw [Nat.succ.inj hmn], hrs⟩

theorem intText_head (n : ℤ) : ∃ c t, intText n = c :: t ∧ (c = '-' ∨ c.isDigit = true) := by
  cases n with
  | ofNat n =>
    obtain ⟨c, t, ht⟩ := List.exists_cons_of_ne_nil (natText_ne_nil n)
    exact ⟨c, t, ht, .inr (natText_isDigit (n := n) (by rw [ht]; simp))⟩
  | negSucc n => exact ⟨'-', natText (n + 1), rfl, .inl rfl⟩

end TokenHub.Lib.Digits
