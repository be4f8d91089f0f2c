import PushDelivery.Text

/-!
# Double-precision numbers

A double is its 64-bit word: a sign, an eleven-bit exponent and a 52-bit fraction. A finite one
denotes `significand * 2 ^ exponent` up to its sign. All arithmetic here rounds an exact quotient
of naturals once, to the nearest double and to the even one of two equally near, so it needs no
machine arithmetic and can be reasoned about in `Nat`.
-/

namespace PushDelivery

/-- A double-precision number, given by its word. -/
structure Binary64 where
  bits : UInt64
  deriving DecidableEq, Inhabited

namespace Binary64

def signUnit : Nat := 0x8000000000000000

/-- The weight of the lowest exponent bit, which is also the leading bit of a normal significand. -/
def exponentUnit : Nat := 0x10000000000000

def isNegative (x : Binary64) : Bool := signUnit ≤ x.bits.toNat

def biasedExponent (x : Binary64) : Nat := x.bits.toNat / exponentUnit % 2048

def fraction (x : Binary64) : Nat := x.bits.toNat % exponentUnit

/-- Whether the word denotes a number, and not an infinity or no number at all. -/
def isFinite (x : Binary64) : Bool := x.biasedExponent ≠ 2047

/-- The significand of a finite number, with the leading bit of a normal one. -/
def significand (x : Binary64) : Nat :=
  if x.biasedExponent = 0 then x.fraction else x.fraction + exponentUnit

/-- The exponent that belongs to `significand`. -/
def exponent (x : Binary64) : Int :=
  if x.biasedExponent = 0 then -1074 else (x.biasedExponent : Int) - 1075

/-- Whether the number is a zero of either sign. -/
def isZero (x : Binary64) : Bool := x.significand = 0

/-- The word with the given sign and the given magnitude, which is below `2 ^ 63`. -/
def ofFields (negative : Bool) (magnitude : Nat) : Binary64 :=
  ⟨UInt64.ofNat (if negative then signUnit + magnitude else magnitude)⟩

def infiniteMagnitude : Nat := 2047 * exponentUnit

def negate (x : Binary64) : Binary64 :=
  ofFields (!x.isNegative) (x.bits.toNat % signUnit)

/-- Which of two equally near natural numbers a quotient is rounded to. -/
inductive Tie where
  | toEven
  | up
  deriving DecidableEq

/-- `num / den` rounded to a natural number; a half goes as `tie` says. -/
def roundNearest (tie : Tie) (num den : Nat) : Nat :=
  let q := num / den
  let twice := 2 * (num % den)
  if twice < den ∨ (twice = den ∧ tie = .toEven ∧ q % 2 = 0) then q else q + 1

/-- The power of two that scales `num / den` to at least `2 ^ 52`, as far as subnormals allow. -/
def scaleOf (num den : Nat) : Int :=
  let guess : Int := num.log2 - den.log2 - 52
  let tooLarge : Bool :=
    if 0 ≤ guess then num < den <<< (52 + guess.toNat)
    else num <<< (-guess).toNat < den <<< 52
  max (-1074) (if tooLarge then guess - 1 else guess)

/-- The double nearest to `num / den` with the given sign; beyond the range it is infinite.
A significand that rounds up to `2 ^ 53` carries into the exponent field by plain addition. -/
def ofRatio (negative : Bool) (num den : Nat) : Binary64 :=
  if num = 0 ∨ den = 0 then ofFields negative 0
  else
    let q := scaleOf num den
    let m := if 0 ≤ q then roundNearest .toEven num (den <<< q.toNat)
      else roundNearest .toEven (num <<< (-q).toNat) den
    ofFields negative (min infiniteMagnitude ((q + 1074).toNat * exponentUnit + m))

def ofNat (n : Nat) : Binary64 := ofRatio false n 1

def ofInt (n : Int) : Binary64 := ofRatio (n < 0) n.natAbs 1

/-- The magnitude of a finite number as a quotient of naturals. -/
def magnitude (x : Binary64) : Nat × Nat :=
  if 0 ≤ x.exponent then (x.significand <<< x.exponent.toNat, 1)
  else (x.significand, 1 <<< (-x.exponent).toNat)

/-- The rounded product of finite numbers. -/
def mul (x y : Binary64) : Binary64 :=
  ofRatio (x.isNegative != y.isNegative)
    (x.magnitude.1 * y.magnitude.1) (x.magnitude.2 * y.magnitude.2)

/-- The rounded quotient of finite numbers, the divisor not zero. -/
def div (x y : Binary64) : Binary64 :=
  ofRatio (x.isNegative != y.isNegative)
    (x.magnitude.1 * y.magnitude.2) (x.magnitude.2 * y.magnitude.1)

/-- A finite number as a signed multiple of the smallest double, `2 ^ -1074`. -/
def units (x : Binary64) : Int :=
  let n : Int := (x.significand <<< (x.exponent + 1074).toNat : Nat)
  if x.isNegative then -n else n

/-- The rounded sum of finite numbers. A sum that has left the finite range stays as it is. -/
def add (x y : Binary64) : Binary64 :=
  if !x.isFinite then x
  else if !y.isFinite then y
  else
    let n := x.units + y.units
    if n = 0 then ofFields (x.isNegative && y.isNegative) 0
    else ofRatio (n < 0) n.natAbs (1 <<< 1074)

/-- Whether one finite number is at most another; zeros of both signs are equal. -/
def le (x y : Binary64) : Bool := x.units ≤ y.units

end Binary64

end PushDelivery

/-!
## Shortest decimals

The decimal text of a double shows the fewest significant digits that still identify it among all
doubles, and of the decimals with that many digits the one nearest to it; where two are equally
near, the caller decides. For each digit count the two neighbours of the number on the decimal grid
are compared exactly with the interval of numbers that round to it.
-/

namespace PushDelivery.Binary64

/-- A decimal `0.d₁d₂… * 10 ^ point`, its digits without trailing zeros. -/
structure Decimal where
  digits : List Nat
  point : Int
  deriving DecidableEq

/-- The numbers that round to a double, as multiples of `2 ^ (exponent - 2)`: the double itself lies
at four times its significand, and the ends belong to the interval when the significand is even. -/
structure Neighbourhood where
  lower : Nat
  centre : Nat
  upper : Nat
  closed : Bool
  scale : Int

/-- The interval of a positive finite number. Below a power of two the neighbours lie half as
far. -/
def neighbourhood (x : Binary64) : Neighbourhood where
  lower := if x.fraction = 0 ∧ 1 < x.biasedExponent
    then 4 * x.significand - 1 else 4 * x.significand - 2
  centre := 4 * x.significand
  upper := 4 * x.significand + 2
  closed := x.significand % 2 = 0
  scale := x.exponent - 2

/-- `n * 2 ^ scale / 10 ^ grid` as a quotient of naturals. -/
def onGrid (n : Nat) (scale grid : Int) : Nat × Nat :=
  ((n <<< scale.toNat) * Nat.pow 10 (-grid).toNat, (1 <<< (-scale).toNat) * Nat.pow 10 grid.toNat)

/-- Whether `d * 10 ^ grid` rounds to the double of the neighbourhood. -/
def Neighbourhood.contains (b : Neighbourhood) (d : Nat) (grid : Int) : Bool :=
  let low := onGrid b.lower b.scale grid
  let high := onGrid b.upper b.scale grid
  if b.closed then low.1 ≤ d * low.2 ∧ d * high.2 ≤ high.1
  else low.1 < d * low.2 ∧ d * high.2 < high.1

/-- The number of digits before the point of a positive finite number; it is zero or negative for a
number below one tenth of one. No double is so small that it vanishes when scaled by `10 ^ 330`. -/
def pointOf (x : Binary64) : Int :=
  let scaled := onGrid x.significand x.exponent (-330)
  ((Numeral.decimalDigits (scaled.1 / scaled.2)).length : Int) - 330

/-- The decimal of a grid point, its trailing zeros dropped. -/
def Decimal.ofGrid (d : Nat) (grid : Int) : Decimal :=
  let ds := Numeral.decimalDigits d
  ⟨(ds.reverse.dropWhile (· = 0)).reverse, ds.length + grid⟩

/-- The nearest decimal with `count` digits if it rounds back; of two equally near, the one that
`tie` names. -/
def atPrecision? (x : Binary64) (tie : Tie) (point : Int) (count : Nat) : Option Decimal :=
  let b := x.neighbourhood
  let grid := point - count
  let exact := onGrid b.centre b.scale grid
  let below := exact.1 / exact.2
  let twice := 2 * (exact.1 % exact.2)
  let nearest := roundNearest tie exact.1 exact.2
  let other := if nearest = below then below + 1 else below
  if b.contains nearest grid then some (.ofGrid nearest grid)
  else if twice ≠ 0 ∧ b.contains other grid then some (.ofGrid other grid)
  else none

/-- The shortest decimal of a positive finite number. Seventeen digits always identify a double. -/
def shortest (x : Binary64) (tie : Tie) : Decimal :=
  let point := x.pointOf
  ((List.range 17).findSome? fun i => x.atPrecision? tie point (i + 1)).getD ⟨[0], 0⟩

end PushDelivery.Binary64

/-!
## Layouts of decimal text

The digits of a double are fixed by `Binary64.shortest` but for a choice between two equally near
decimals. A layout makes this choice and decides how the digits are written: which exponents are
written positionally, and whether a whole number shows a fraction.
-/

namespace PushDelivery.Binary64

/-- How the decimal of a double is written. -/
structure Layout where
  /-- Which of two equally near decimals is written. -/
  tie : Tie
  /-- Whether a decimal with its point at this position is written without an exponent. -/
  positional : Int → Bool
  /-- Whether a whole number ends in `.0`. -/
  showsFraction : Bool

/-- Numbers of a JSON text: positional from five zeros after the point up to sixteen digits before
it, and never without a fraction. The last digit is even where two are equally near. -/
def Layout.json : Layout where
  tie := .toEven
  positional k := -5 < k ∧ k ≤ 16
  showsFraction := true

/-- Sample values of an exposition: always positional, whole numbers without a fraction. Of two
equally near decimals the one farther from zero is written. -/
def Layout.exposition : Layout where
  tie := .up
  positional _ := true
  showsFraction := false

def digitChars (ds : List Nat) : List Char := ds.map Numeral.digitChar

def Layout.positionalText (l : Layout) (d : Decimal) : List Char :=
  let fractionOf (cs : List Char) : List Char :=
    if cs.isEmpty then (if l.showsFraction then ['.', '0'] else []) else '.' :: cs
  if d.point ≤ 0 then
    '0' :: fractionOf (List.replicate (-d.point).toNat '0' ++ digitChars d.digits)
  else
    let n := d.point.toNat
    digitChars (d.digits.take n) ++ List.replicate (n - d.digits.length) '0'
      ++ fractionOf (digitChars (d.digits.drop n))

/-- A decimal written with an exponent, whose sign is always shown. -/
def scientificText (d : Decimal) : List Char :=
  let exponent := d.point - 1
  let fraction := digitChars (d.digits.drop 1)
  digitChars (d.digits.take 1) ++ (if fraction.isEmpty then [] else '.' :: fraction)
    ++ ['e', if exponent < 0 then '-' else '+'] ++ (Numeral.decimal exponent.natAbs).toList

/-- The text of a double. -/
def Layout.text (l : Layout) (x : Binary64) : String :=
  let body : List Char :=
    if !x.isFinite then (if x.fraction = 0 then ['i', 'n', 'f'] else ['N', 'a', 'N'])
    else if x.isZero then l.positionalText ⟨[], 1⟩
    else
      let d := x.shortest l.tie
      if l.positional d.point then l.positionalText d else scientificText d
  String.ofList (if x.isNegative then '-' :: body else body)

end PushDelivery.Binary64
