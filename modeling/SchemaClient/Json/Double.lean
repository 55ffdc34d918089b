/-!
# Binary floating point in exact arithmetic

A finite IEEE double is a sign and a magnitude `mantissa * 2 ^ exponent`. Rounding takes an exact
quotient to the nearest magnitude, ties to the even mantissa, and fails past the largest one. The
shortest decimal digits that read back are found on the decimal grids of one to seventeen digits,
where only the two neighbours of the value can lie closest.
-/

namespace SchemaClient.Json

/-- The value `mantissa * 2 ^ exponent`; as `round` yields it, the mantissa is below `2 ^ 53`. -/
structure Magnitude where
  mantissa : Nat
  exponent : Int
deriving DecidableEq, Repr

namespace Magnitude

def zero : Magnitude := ⟨0, 0⟩

/-- A quotient of natural numbers with this value. -/
def ratio (x : Magnitude) : Nat × Nat :=
  (x.mantissa * Nat.pow 2 x.exponent.toNat, Nat.pow 2 (-x.exponent).toNat)

/-- The natural number nearest to `n / d`, a half going to the even neighbour. -/
def nearest (n d : Nat) : Nat :=
  let q := n / d
  let twice := 2 * (n % d)
  if twice < d then q else if d < twice then q + 1 else q + q % 2

/-- The quotient `n / d` in units of `2 ^ e`. -/
def inUnits (n d : Nat) (e : Int) : Nat × Nat :=
  (n * Nat.pow 2 (-e).toNat, d * Nat.pow 2 e.toNat)

/-- The exponent that gives `n / d` a mantissa of 53 bits, or the least exponent there is. -/
def exponentOf (n d : Nat) : Int :=
  let guess : Int := (n.log2 : Int) - (d.log2 : Int) - 52
  let (a, b) := inUnits n d guess
  max (if a < Nat.pow 2 52 * b then guess - 1 else guess) (-1074)

/-- The magnitude nearest to `n / d`, if there is none too large for it. -/
def round (n d : Nat) : Option Magnitude :=
  if n = 0 then some zero else
    let e := exponentOf n d
    let (a, b) := inUnits n d e
    let m := nearest a b
    let (m, e) := if m = Nat.pow 2 53 then (Nat.pow 2 52, e + 1) else (m, e)
    if m = 0 then some zero else if e > 971 then none else some ⟨m, e⟩

def ofNat (n : Nat) : Option Magnitude :=
  round n 1

def mul (x y : Magnitude) : Option Magnitude :=
  round (x.ratio.1 * y.ratio.1) (x.ratio.2 * y.ratio.2)

def div (x y : Magnitude) : Option Magnitude :=
  round (x.ratio.1 * y.ratio.2) (x.ratio.2 * y.ratio.1)

/-- Powers of ten as magnitudes; the largest finite one is `10 ^ 308`. -/
def powerOfTen (k : Nat) : Option Magnitude :=
  ofNat (Nat.pow 10 k)

/-- Divides by `10 ^ 308`, `count` times or until nothing is left. -/
def shiftBlocks : Nat → Magnitude → Option Magnitude
  | 0, x => some x
  | count + 1, x =>
    if x.mantissa = 0 then some zero
    else do shiftBlocks count (← x.div (← powerOfTen 308))

/-- Divides by `10 ^ k`, three hundred and eight places at a time, rounding each quotient. -/
def shiftRight (x : Magnitude) (k : Nat) : Option Magnitude := do
  let blocks := (k - 1) / 308
  (← shiftBlocks blocks x).div (← powerOfTen (k - 308 * blocks))

/-- Multiplies by `10 ^ k`. -/
def shiftLeft (x : Magnitude) (k : Nat) : Option Magnitude :=
  if k ≤ 308 then do x.mul (← powerOfTen k)
  else if x.mantissa = 0 then some zero else none

/-- The magnitude of `significand * 10 ^ exponent`: the significand and the power of ten are
rounded each before their product or quotient is. -/
def ofDecimal (significand : Nat) (exponent : Int) : Option Magnitude := do
  let x ← ofNat significand
  if exponent < 0 then x.shiftRight exponent.natAbs else x.shiftLeft exponent.toNat

/-- The largest `k` with `10 ^ k ≤ n / d`. -/
def decimalExponent (n d : Nat) : Int :=
  if d ≤ n then (Nat.toDigits 10 (n / d)).length - 1
  else -((Nat.toDigits 10 ((d + n - 1) / n - 1)).length : Int)

/-- Bounds of the reals that round to a magnitude, with whether the bounds themselves do. All
three are multiples of a quarter unit in the last place of the mantissa. -/
structure Interval where
  low : Nat
  value : Nat
  high : Nat
  unit : Nat
  closed : Bool

def interval (x : Magnitude) : Interval :=
  let (n, d) := inUnits 1 1 (-(x.exponent - 2))
  let narrow := x.mantissa = Nat.pow 2 52 && x.exponent > -1074
  ⟨(4 * x.mantissa - if narrow then 1 else 2) * n, 4 * x.mantissa * n, (4 * x.mantissa + 2) * n,
    d, x.mantissa % 2 = 0⟩

/-- Whether `digits * 10 ^ place` rounds to the magnitude. -/
def Interval.holds (i : Interval) (digits : Nat) (place : Int) : Bool :=
  let point := digits * Nat.pow 10 place.toNat * i.unit
  let scale := Nat.pow 10 (-place).toNat
  let (low, high) := (i.low * scale, i.high * scale)
  if i.closed then low ≤ point && point ≤ high else low < point && point < high

/-- The nearest grid point with `count` digits that reads back, as its digits and their place. -/
def onGrid (i : Interval) (top : Int) (count : Nat) : Option (Nat × Int) :=
  let place := top - count + 1
  let n := i.value * Nat.pow 10 (-place).toNat
  let d := i.unit * Nat.pow 10 place.toNat
  let below := n / d
  let above := below + 1
  let nearer := if 2 * (n % d) ≤ d then [below, above] else [above, below]
  (nearer.find? fun digits => digits ≠ 0 && i.holds digits place).map fun digits => (digits, place)

/-- The fewest decimal digits that read back, with the place of the last of them. -/
def shortest (x : Magnitude) : Nat × Int :=
  let i := x.interval
  let top := decimalExponent i.value i.unit
  ((List.range 17).findSome? fun k => onGrid i top (k + 1)).getD (0, 0)

end Magnitude

/-- A finite double; zero has two signs. -/
structure Double where
  negative : Bool
  magnitude : Magnitude
deriving DecidableEq, Repr

namespace Double

/-- Digits without the zeros at their end, and how many those are. -/
def splitZeros (digits : List Char) : List Char × Nat :=
  let kept := (digits.reverse.dropWhile (· == '0')).reverse
  (kept, digits.length - kept.length)

/-- Decimal text of `digits * 10 ^ place`: positional for scientific exponents from -4 to 15,
with `.0` after an integer, and `e` notation without it otherwise. -/
def decimalText (digits : Nat) (place : Int) : List Char :=
  let (ds, zeros) := splitZeros (Nat.toDigits 10 digits)
  let place := place + zeros
  let exponent := place + ds.length - 1
  if -5 < exponent && exponent < 16 then
    if 0 ≤ place then ds ++ List.replicate place.toNat '0' ++ ['.', '0']
    else if 0 ≤ exponent then
      ds.take (exponent.toNat + 1) ++ '.' :: ds.drop (exponent.toNat + 1)
    else '0' :: '.' :: List.replicate (-exponent - 1).toNat '0' ++ ds
  else
    let fraction := if ds.length ≤ 1 then [] else '.' :: ds.drop 1
    ds.take 1 ++ fraction ++ 'e' :: (toString exponent).toList

def text (x : Double) : List Char :=
  (if x.negative then ['-'] else []) ++
    if x.magnitude.mantissa = 0 then ['0', '.', '0']
    else let (digits, place) := x.magnitude.shortest; decimalText digits place

end Double

end SchemaClient.Json
