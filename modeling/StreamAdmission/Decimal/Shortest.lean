import StreamAdmission.Decimal.Binary64
import StreamAdmission.Text.Numeral

/-!
# Shortest decimals

The decimal with the fewest digits that rounds to a given binary value; of two such decimals the
nearer, and on a tie the one with the even last digit.
-/

namespace StreamAdmission.Decimal

/-- The number `0.d₁d₂… * 10 ^ point`, its digits as characters. -/
structure Digits where
  digits : List Char
  point : Int
  deriving DecidableEq, Repr

namespace Binary64

/-- Compares `a * 10 ^ i` with `n * 2 ^ j` exactly. -/
def compareScaled (a : Nat) (i : Int) (n : Nat) (j : Int) : Ordering :=
  compare (a * tenTo i.toNat * twoTo (-j).toNat) (n * twoTo j.toNat * tenTo (-i).toNat)

/-- Whether `digits * 10 ^ scale` lies among the numbers that round to `x`: from half way to the
value below to half way to the value above, the ends included if the mantissa is even. -/
def readsBack (x : Binary64) (digits : Nat) (scale : Int) : Bool :=
  let narrow := x.mantissa = twoTo 52 ∧ minExponent < x.exponent
  let low := if narrow then 4 * x.mantissa - 1 else 4 * x.mantissa - 2
  let high := 4 * x.mantissa + 2
  let even := x.mantissa % 2 = 0
  let above := compareScaled digits scale low (x.exponent - 2)
  let below := compareScaled digits scale high (x.exponent - 2)
  (above = .gt || (above = .eq && even)) && (below = .lt || (below = .eq && even))

/-- The least `k` with `x < 10 ^ k`, for a value that is not zero. -/
def pointOf (x : Binary64) : Int :=
  ((Text.decimal (x.ratio.1 * tenTo 330 / x.ratio.2)).length : Int) - 330

/-- The two neighbours of `x` among the multiples of `10 ^ scale`, the preferred one first. -/
def neighbours (x : Binary64) (scale : Int) : List Nat :=
  let num := x.ratio.1 * tenTo (-scale).toNat
  let den := x.ratio.2 * tenTo scale.toNat
  let low := num / den
  if roundedQuotient num den = low then [low, low + 1] else [low + 1, low]

/-- Looks for a decimal of at least `17 - tries` digits that reads back. -/
def searchDigits (x : Binary64) (point : Int) : Nat → Nat × Int
  | 0 => (x.ratio.1, 0)
  | tries + 1 =>
    let scale := point - (17 - tries : Nat)
    match (neighbours x scale).find? (x.readsBack · scale) with
    | some digits => (digits, scale)
    | none => searchDigits x point tries

def shortest (x : Binary64) : Digits :=
  let (digits, scale) := searchDigits x x.pointOf 17
  let written := Text.decimal digits
  ⟨(written.reverse.dropWhile (· = '0')).reverse, scale + written.length⟩

end Binary64

end StreamAdmission.Decimal
