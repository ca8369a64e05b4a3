/-!
# Binary floating point

Finite non-negative values of the 64-bit binary format as exact pairs `mantissa * 2 ^ exponent`.
Every operation computes the exact rational result and rounds it once, to the nearest value and on
a tie to the even mantissa.
-/

namespace StreamAdmission.Decimal

def twoTo (k : Nat) : Nat := Nat.pow 2 k

def tenTo (k : Nat) : Nat := Nat.pow 10 k

/-- The quotient of two numbers rounded to the nearest, a half to the even neighbour. -/
def roundedQuotient (num den : Nat) : Nat :=
  let quotient := num / den
  let rest := 2 * (num % den)
  if rest < den ∨ (rest = den ∧ quotient % 2 = 0) then quotient else quotient + 1

/-- The value `mantissa * 2 ^ exponent`. -/
structure Binary64 where
  mantissa : Nat
  exponent : Int
  deriving DecidableEq, Repr

namespace Binary64

def minExponent : Int := -1074

def maxExponent : Int := 971

def zero : Binary64 := ⟨0, minExponent⟩

def isZero (x : Binary64) : Bool := x.mantissa = 0

/-- The value as a quotient of natural numbers. -/
def ratio (x : Binary64) : Nat × Nat :=
  (x.mantissa * twoTo x.exponent.toNat, twoTo (-x.exponent).toNat)

/-- Rounds at a given exponent; a mantissa that fills up moves to the next exponent. -/
def roundAt (exponent : Int) (num den : Nat) : Option Binary64 :=
  let mantissa := roundedQuotient (num * twoTo (-exponent).toNat) (den * twoTo exponent.toNat)
  let rounded : Binary64 :=
    if mantissa = twoTo 53 then ⟨twoTo 52, exponent + 1⟩ else ⟨mantissa, exponent⟩
  if rounded.exponent ≤ maxExponent then some rounded else none

/-- The value nearest to a positive quotient; none if that is beyond the largest one. -/
def round (num den : Nat) : Option Binary64 :=
  if num = 0 then some zero
  else
    let low : Int := (num.log2 : Int) - den.log2 - 53
    let fits := num * twoTo (-low).toNat < twoTo 53 * (den * twoTo low.toNat)
    roundAt (max minExponent (if fits then low else low + 1)) num den

def ofNat (n : Nat) : Option Binary64 := round n 1

def mul (x y : Binary64) : Option Binary64 :=
  round (x.ratio.1 * y.ratio.1) (x.ratio.2 * y.ratio.2)

def div (x y : Binary64) : Option Binary64 :=
  round (x.ratio.1 * y.ratio.2) (x.ratio.2 * y.ratio.1)

/-- The value nearest to a power of ten, for exponents up to 308. -/
def powTen (k : Nat) : Binary64 := (ofNat (tenTo k)).getD zero

/-- The largest exponent of a power of ten that has a finite value. -/
def maxPower : Nat := 308

/-- Divides by the largest power of ten a number of times, or until nothing is left. -/
def divTop : Nat → Binary64 → Binary64
  | 0, x => x
  | times + 1, x => if x.isZero then x else divTop times ((x.div (powTen maxPower)).getD zero)

/-- Multiplies by a power of ten, or divides by one. Below the range of powers the value is first
divided by the largest of them, as often as needed. None if the result is too large. -/
def scaleTen (x : Binary64) (exponent : Int) : Option Binary64 :=
  if x.isZero then some x
  else if 0 ≤ exponent then
    if exponent ≤ maxPower then x.mul (powTen exponent.toNat) else none
  else
    let times := (exponent.natAbs - 1) / maxPower
    (divTop times x).div (powTen (exponent.natAbs - times * maxPower))

end Binary64

end StreamAdmission.Decimal
