import Mathlib.Algebra.Group.Int.Defs
import Mathlib.Algebra.Group.Nat.Defs
import Mathlib.Tactic.Common
import TokenHub.Lib.Digits

set_option autoImplicit false

namespace TokenHub.Lib.Decimals

open PrefixCode Digits

/-- A number of general decimal arithmetic: a sign, a coefficient and an exponent, or one of
the special values. -/
inductive Decimal
  | finite (negative : Bool) (coefficient : ℕ) (exponent : ℤ)
  | infinity (negative : Bool)
  | nan
deriving DecidableEq, Repr

/-- A number with exactly two decimal places. The sign is kept apart from the hundredths, so
that a negative zero is a value of its own. -/
structure Hundredths where
  negative : Bool
  units : ℕ
deriving DecidableEq, Repr

namespace Hundredths

def value (q : Hundredths) : ℤ := if q.negative then -q.units else q.units

def ofCents (n : ℤ) : Hundredths := ⟨decide (n < 0), n.natAbs⟩

@[simp] theorem value_ofCents (n : ℤ) : (ofCents n).value = n := by
  simp only [value, ofCents, decide_eq_true_eq]
  split_ifs <;> omega

def toText (q : Hundredths) : List Char :=
  (if q.negative then ['-'] else []) ++ natText (q.units / 100) ++
    ['.', Nat.digitChar (q.units / 10 % 10), Nat.digitChar (q.units % 10)]

theorem digitChar_inj {m n : ℕ} (hm : m < 10) (hn : n < 10)
    (h : Nat.digitChar m = Nat.digitChar n) : m = n := by
  have hall : ∀ m < 10, ∀ n < 10, Nat.digitChar m = Nat.digitChar n → m = n := by decide
  exact hall m hm n hn h

theorem unsigned_text_inj {m n : ℕ} {r s : List Char}
    (h : natText m ++ '.' :: r = natText n ++ '.' :: s) : m = n ∧ r = s := by
  obtain ⟨hmn, hrs⟩ := natText_delimited ((noDigit_cons '.' r).2 rfl)
    ((noDigit_cons '.' s).2 rfl) h
  exact ⟨hmn, (List.cons.inj hrs).2⟩

theorem toText_injective : Function.Injective toText := by
  rintro ⟨b, m⟩ ⟨c, n⟩ h
  have hbc : b = c := by
    cases b <;> cases c <;> try rfl
    · simp only [toText, List.append_assoc] at h
      exact absurd h (natText_head_ne_minus _ _ _)
    · simp only [toText, List.append_assoc] at h
      exact absurd h.symm (natText_head_ne_minus _ _ _)
  subst hbc
  simp only [toText, List.append_assoc, List.append_cancel_left_eq] at h
  obtain ⟨hq, ht⟩ := unsigned_text_inj h
  simp only [List.cons.injEq, and_true] at ht
  have h₁ := digitChar_inj (Nat.mod_lt _ (by omega)) (Nat.mod_lt _ (by omega)) ht.1
  have h₂ := digitChar_inj (Nat.mod_lt _ (by omega)) (Nat.mod_lt _ (by omega)) ht.2
  have hmn : m = n := by omega
  rw [hmn]

theorem toText_ne_nan (q : Hundredths) : q.toText ≠ ['N', 'a', 'N'] := by
  intro h
  have : '.' ∈ q.toText := by simp [toText]
  rw [h] at this
  exact absurd this (by decide)

end Hundredths

namespace Decimal

def isFinite : Decimal → Bool
  | .finite .. => true
  | _ => false

/-- Rounding of `n / d` to an integer, ties to the even neighbour. -/
def divHalfEven (n d : ℕ) : ℕ :=
  if 2 * (n % d) < d ∨ (2 * (n % d) = d ∧ n / d % 2 = 0) then n / d else n / d + 1

theorem divHalfEven_le {n d m : ℕ} (hd : 0 < d) (h : n ≤ m * d) : divHalfEven n d ≤ m := by
  have hle : n / d ≤ m := Nat.div_le_of_le_mul (by rwa [Nat.mul_comm])
  unfold divHalfEven
  split_ifs with hround
  · exact hle
  · refine Nat.succ_le_of_lt (Nat.lt_of_le_of_ne hle (fun heq ↦ hround (.inl ?_)))
    have hsplit := Nat.div_add_mod n d
    rw [heq, Nat.mul_comm] at hsplit
    omega

def contextPrecision : ℕ := 28

/-- Rounding of a finite number to hundredths; `none` where the result needs more digits than
the context has. -/
def quantizeFinite (negative : Bool) (coefficient : ℕ) (exponent : ℤ) : Option Hundredths :=
  let units :=
    if -2 ≤ exponent then coefficient * 10 ^ (exponent + 2).toNat
    else divHalfEven coefficient (10 ^ (-2 - exponent).toNat)
  if units < 10 ^ contextPrecision then some ⟨negative, units⟩ else none

/-- What rounding to hundredths gives: a number, or a NaN that was handed in. -/
inductive Quantized
  | number (q : Hundredths)
  | nan
deriving DecidableEq, Repr

def Quantized.toText : Quantized → List Char
  | .number q => q.toText
  | .nan => ['N', 'a', 'N']

theorem Quantized.toText_injective : Function.Injective toText := by
  intro a b h
  cases a with
  | number q =>
    cases b with
    | number q' => rw [Hundredths.toText_injective h]
    | nan => exact absurd h q.toText_ne_nan
  | nan =>
    cases b with
    | number q' => exact absurd h.symm q'.toText_ne_nan
    | nan => rfl

/-- `quantize` to two places; `none` where it signals an invalid operation. -/
def quantize : Decimal → Option Quantized
  | .finite s c e => (quantizeFinite s c e).map .number
  | .infinity _ => none
  | .nan => some .nan

def ofHundredths (q : Hundredths) : Decimal := .finite q.negative q.units (-2)

def ofCents (n : ℤ) : Decimal := ofHundredths (.ofCents n)

theorem quantizeFinite_hundredths {b : Bool} {n : ℕ} (h : n < 10 ^ contextPrecision) :
    quantizeFinite b n (-2) = some ⟨b, n⟩ := by
  simp [quantizeFinite, h]

/-- The decimal's own text, in scientific notation where the exponent asks for it. -/
def toText : Decimal → List Char
  | .infinity s => (if s then ['-'] else []) ++ "Infinity".toList
  | .nan => "NaN".toList
  | .finite s c e =>
    let digits := natText c
    let leftDigits : ℤ := e + digits.length
    let dotPlace : ℤ := if e ≤ 0 ∧ -6 < leftDigits then leftDigits else 1
    let body :=
      if dotPlace ≤ 0 then
        '0' :: '.' :: (List.replicate (-dotPlace).toNat '0' ++ digits)
      else if digits.length ≤ dotPlace then
        digits ++ List.replicate (dotPlace - digits.length).toNat '0'
      else digits.take dotPlace.toNat ++ '.' :: digits.drop dotPlace.toNat
    let scale :=
      if leftDigits = dotPlace then []
      else 'E' :: ((if leftDigits < dotPlace then [] else ['+']) ++
        intText (leftDigits - dotPlace))
    (if s then ['-'] else []) ++ body ++ scale

example : (Decimal.finite true 5 (-2)).toText = "-0.05".toList := by decide

example : (Decimal.finite false 12 3).toText = "1.2E+4".toList := by decide

end Decimal

section Context

open Decimal

/-- A whole coefficient times a power of ten. -/
structure Scaled where
  coefficient : ℤ
  exponent : ℤ
deriving DecidableEq, Repr

/-- Rounding to the digits that the context keeps, ties to the even neighbour. -/
def Scaled.inContext (x : Scaled) : Scaled :=
  let excess := (natText x.coefficient.natAbs).length - contextPrecision
  ⟨x.coefficient.sign * divHalfEven x.coefficient.natAbs (10 ^ excess), x.exponent + excess⟩

def Scaled.mul (x y : Scaled) : Scaled :=
  Scaled.inContext ⟨x.coefficient * y.coefficient, x.exponent + y.exponent⟩

def Scaled.hundredLess (x : Scaled) : Scaled :=
  let scale := min x.exponent 0
  let rest := Scaled.inContext
    ⟨100 * 10 ^ (-scale).toNat - x.coefficient * 10 ^ (x.exponent - scale).toNat, scale⟩
  ⟨rest.coefficient, rest.exponent - 2⟩

/-- `quantize` to hundredths, ties away from zero; `none` where it signals an invalid operation. -/
def Scaled.quantizeHalfUp (x : Scaled) : Option ℤ :=
  let units :=
    if -2 ≤ x.exponent then x.coefficient.natAbs * 10 ^ (x.exponent + 2).toNat
    else (2 * x.coefficient.natAbs / 10 ^ (-2 - x.exponent).toNat + 1) / 2
  if units < 10 ^ contextPrecision then some (x.coefficient.sign * units) else none

end Context

end TokenHub.Lib.Decimals
