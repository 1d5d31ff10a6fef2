/-
# The fewest decimal digits that read back

A floating-point number `m * 2^q` stands for an interval of reals: those nearer to it than to
its neighbours, the ends included exactly if `m` is even.  Its shortest decimal form is the
point of the coarsest decimal grid that lies in this interval; of two such points the nearer
one, and of two equally near ones the larger.

All comparisons are made on natural numbers over one common denominator.
-/

namespace Concolic.Decimal

/-- A positive binary fraction: `mantissa * 2^exponent`. -/
structure Binary where
  /-- The significant bits, as a number. -/
  mantissa : Nat
  /-- The power of two they are multiplied by. -/
  exponent : Int
  /-- Is the next smaller number only half as far away as the next larger one? -/
  closerBelow : Bool

/-- The value of the bits of a finite positive double; `none` for zero. -/
def Binary.ofBits (bits : Nat) : Option Binary :=
  let fraction : Nat := bits % Nat.pow 2 52
  let biased : Nat := bits / Nat.pow 2 52 % Nat.pow 2 11
  if biased = 0 then
    if fraction = 0 then none else some ⟨fraction, -1074, false⟩
  else some ⟨Nat.pow 2 52 + fraction, (biased : Int) - 1075, fraction = 0 && biased > 1⟩

/-- A decimal: `digits * 10^exponent`. -/
structure Scaled where
  /-- The significant digits, as a number. -/
  digits : Nat
  /-- The power of ten they are multiplied by. -/
  exponent : Int

/-- A value and the ends of its interval, as numerators over one denominator. -/
structure Interval where
  /-- Numerator of the lower end. -/
  low : Nat
  /-- Numerator of the value. -/
  value : Nat
  /-- Numerator of the upper end. -/
  high : Nat
  /-- The common denominator. -/
  denominator : Nat
  /-- Do the ends belong to the interval? -/
  closed : Bool

/-- The reals that round to the number. -/
def Binary.interval (b : Binary) : Interval :=
  let quarter := b.exponent - 2
  let scale := Nat.pow 2 quarter.toNat
  { low := (4 * b.mantissa - if b.closerBelow then 1 else 2) * scale
    value := 4 * b.mantissa * scale
    high := (4 * b.mantissa + 2) * scale
    denominator := Nat.pow 2 (-quarter).toNat
    closed := b.mantissa % 2 = 0 }

/-- Does the interval hold the point `p / denominator`? -/
def Interval.holds (i : Interval) (p : Nat) : Bool :=
  if i.closed then i.low ≤ p && p ≤ i.high else i.low < p && p < i.high

/-- The interval with all its points multiplied by a power of ten. -/
def Interval.shift (i : Interval) (k : Int) : Interval :=
  let up := Nat.pow 10 k.toNat
  { i with
    low := i.low * up
    value := i.value * up
    high := i.high * up
    denominator := i.denominator * Nat.pow 10 (-k).toNat }

/-- The whole number in the interval that is nearest to its value, if one of the two beside
the value is in it. -/
def Interval.nearestWhole (i : Interval) : Option Nat :=
  let below := i.value / i.denominator
  let down := i.holds (below * i.denominator)
  let up := i.holds ((below + 1) * i.denominator)
  if up && (!down || i.denominator ≤ 2 * (i.value % i.denominator)) then some (below + 1)
  else if down then some below
  else none

/-- The number of digits of the whole part of `value / denominator`, or minus the number of
zeros after the point. -/
def Interval.magnitude (i : Interval) : Int :=
  if i.denominator ≤ i.value then ((Nat.toDigits 10 (i.value / i.denominator)).length : Int)
  else 1 - ((Nat.toDigits 10 (i.denominator / i.value)).length : Int)

/-- The decimal on the coarsest of the next `fuel` grids that meets the interval, the first
grid having the unit `10^unit`. -/
def Interval.search (i : Interval) (unit : Int) : Nat → Scaled
  | 0 => ⟨(i.shift (-unit)).value / (i.shift (-unit)).denominator, unit⟩
  | fuel + 1 =>
    match (i.shift (-unit)).nearestWhole with
    | some n => ⟨n, unit⟩
    | none => i.search (unit - 1) fuel

/-- The shortest decimal that reads back as the number. -/
def Binary.shortest (b : Binary) : Scaled :=
  let i := b.interval
  i.search i.magnitude 20

/-- The digits of `digits * 10^exponent` in positional form: no exponent, and no point if the
number is whole. -/
def Scaled.positional (s : Scaled) : String :=
  let ds := Nat.toDigits 10 s.digits
  if 0 ≤ s.exponent then String.ofList (ds ++ List.replicate s.exponent.toNat '0')
  else
    let places := (-s.exponent).toNat
    let padded := List.replicate (places + 1 - ds.length) '0' ++ ds
    let whole := padded.take (padded.length - places)
    let part := padded.drop (padded.length - places)
    let kept := (part.reverse.dropWhile (· == '0')).reverse
    String.ofList (if kept.isEmpty then whole else whole ++ '.' :: kept)

/-- A finite non-negative double in positional form with the fewest digits. -/
def shortestText (x : Float) : String :=
  match Binary.ofBits x.toBits.toNat with
  | none => "0"
  | some b => b.shortest.positional

end Concolic.Decimal
