import TokenHub.Lib.Decimals

set_option autoImplicit false

namespace TokenHub.Lib.Decimals

open Digits

/-- A finite number of no negative sign, under the arithmetic of the default context. -/
structure Magnitude where
  coefficient : ℕ
  exponent : ℤ
deriving DecidableEq, Repr

namespace Magnitude

/-- A magnitude read off a decimal; `none` for a negative or a special value. -/
def ofDecimal : Decimal → Option Magnitude
  | .finite negative coefficient exponent =>
    if negative = true ∧ coefficient ≠ 0 then none else some ⟨coefficient, exponent⟩
  | _ => none

def ofHundredths (n : ℕ) : Magnitude := ⟨n, -2⟩

def le (a b : Magnitude) : Prop :=
  a.coefficient * 10 ^ (a.exponent - b.exponent).toNat ≤
    b.coefficient * 10 ^ (b.exponent - a.exponent).toNat

instance : DecidableRel le := fun a b ↦ by unfold le; infer_instance

/-- The quotient of two numbers with as many digits as the context keeps. -/
def roundQuotient (n d : ℕ) : Magnitude :=
  let shift : ℤ := Decimal.contextPrecision + (natText d).length - (natText n).length
  let scaled (k : ℤ) : ℕ := Decimal.divHalfEven (n * 10 ^ k.toNat) (d * 10 ^ (-k).toNat)
  if scaled shift < 10 ^ Decimal.contextPrecision then ⟨scaled shift, -shift⟩
  else ⟨scaled (shift - 1), 1 - shift⟩

def mul (a b : Magnitude) : Magnitude :=
  let q := roundQuotient (a.coefficient * b.coefficient) 1
  ⟨q.coefficient, q.exponent + a.exponent + b.exponent⟩

def div (a b : Magnitude) : Magnitude :=
  let q := roundQuotient a.coefficient b.coefficient
  ⟨q.coefficient, q.exponent + a.exponent - b.exponent⟩

/-- Rounding to hundredths; `none` where the context has too few digits for it. -/
def toHundredths (a : Magnitude) : Option ℕ :=
  (Decimal.quantizeFinite false a.coefficient a.exponent).map (·.units)

example : ((div ⟨1, 0⟩ ⟨3, 0⟩).mul ⟨3, 0⟩).toHundredths = some 100 := by decide +kernel

end Magnitude

end TokenHub.Lib.Decimals
