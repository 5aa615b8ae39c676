/-!
# Shortest decimals

The shortest decimal that reads back as a given double: of all decimals in the interval of reals
that round to the double, one with the fewest digits, and among those the nearest. A double is
taken apart into an integer times a power of two, and everything after that is exact arithmetic on
natural numbers. For a given number of digits only the two neighbours of the value on the decimal
grid can be nearest, so for each number of digits from 1 to 17 these two are tried.
-/

namespace Workbench

/-- The positive decimal `mantissa · 10 ^ exponent`. -/
structure Decimal where
  mantissa : Nat
  exponent : Int

namespace Decimal

/-- A positive double as a quotient of natural numbers, with the ends of the interval of reals that
round to it, all over one denominator, and whether the ends belong to it. -/
structure Rounding where
  value : Nat
  low : Nat
  high : Nat
  denominator : Nat
  closed : Bool

/-- The interval of `mantissa · 2 ^ exponent`. The gap below is half as wide as the one above when
the mantissa is the least one of its binade. -/
def Rounding.ofBinary (mantissa : Nat) (exponent : Int) (leastOfBinade : Bool) : Rounding :=
  let up := Nat.pow 2 (exponent - 2).toNat
  { value := 4 * mantissa * up
    low := (4 * mantissa - if leastOfBinade then 1 else 2) * up
    high := (4 * mantissa + 2) * up
    denominator := Nat.pow 2 (2 - exponent).toNat
    closed := mantissa % 2 = 0 }

/-- The decimal `n · 10 ^ exponent` lies in the interval. -/
def Rounding.holds (r : Rounding) (n : Nat) (exponent : Int) : Bool :=
  let scaled := n * Nat.pow 10 exponent.toNat * r.denominator
  let unit := Nat.pow 10 (-exponent).toNat
  if r.closed then r.low * unit ≤ scaled && scaled ≤ r.high * unit
  else r.low * unit < scaled && scaled < r.high * unit

/-- The neighbour of the value on the grid of multiples of `10 ^ exponent` that lies in the
interval, the nearer one if both do and the even one if both are equally near. -/
def Rounding.onGrid? (r : Rounding) (exponent : Int) : Option Nat :=
  let scaled := r.value * Nat.pow 10 (-exponent).toNat
  let unit := r.denominator * Nat.pow 10 exponent.toNat
  let below := scaled / unit
  match r.holds below exponent, r.holds (below + 1) exponent with
  | true, true =>
    let twice := 2 * (scaled % unit)
    some (if twice < unit || (twice = unit && below % 2 = 0) then below else below + 1)
  | true, false => some below
  | false, true => some (below + 1)
  | false, false => none

/-- The number of decimal digits before the point, zero or negative for a value below 1/10. -/
def Rounding.magnitude (r : Rounding) : Int :=
  if r.denominator ≤ r.value then ((Nat.toDigits 10 (r.value / r.denominator)).length : Int)
  else
    let inverse := (r.denominator - 1) / r.value
    1 - ((Nat.toDigits 10 inverse).length : Int)

/-- The mantissa without trailing zeros; `fuel` bounds their number. -/
def stripped : Nat → Decimal → Decimal
  | 0, d => d
  | fuel + 1, d =>
    if d.mantissa % 10 = 0 then stripped fuel ⟨d.mantissa / 10, d.exponent + 1⟩ else d

/-- Tries `digits`, `digits + 1`, … digits, `more` times. -/
def Rounding.shortestFrom (r : Rounding) (magnitude : Int) : Nat → Nat → Option Decimal
  | _, 0 => none
  | digits, more + 1 =>
    match r.onGrid? (magnitude - digits) with
    | some n => if n = 0 then r.shortestFrom magnitude (digits + 1) more
      else some (stripped 20 ⟨n, magnitude - digits⟩)
    | none => r.shortestFrom magnitude (digits + 1) more

/-- The shortest decimal that reads back as the value. -/
def Rounding.shortest? (r : Rounding) : Option Decimal := r.shortestFrom r.magnitude 1 18

/-- The parts of a double: its sign, its integer mantissa and its binary exponent. -/
structure Parts where
  negative : Bool
  mantissa : Nat
  exponent : Int
  leastOfBinade : Bool

/-- Takes a finite double apart; an infinity and a value that is no number have no parts. -/
def parts? (x : Float) : Option Parts :=
  let bits : Nat := x.toBits.toNat
  let fraction : Nat := bits % Nat.pow 2 52
  let biased : Nat := bits / Nat.pow 2 52 % Nat.pow 2 11
  let negative : Bool := bits / Nat.pow 2 63 = 1
  if biased = 2047 then none
  else if biased = 0 then some ⟨negative, fraction, -1074, false⟩
  else some ⟨negative, Nat.pow 2 52 + fraction, (biased : Int) - 1075, fraction = 0 && 1 < biased⟩

/-- How a decimal is written. -/
structure Format where
  /-- The least exponent of the leading digit that is written positionally. -/
  leastPositional : Int
  /-- The least exponent of the leading digit that is again written with an exponent. -/
  leastScientific : Int

/-- The decimal digits of a number. -/
def digits (n : Nat) : List Char := Nat.toDigits 10 n

/-- Zeros. -/
def zeros (n : Nat) : List Char := List.replicate n '0'

/-- The positional form, always with a fraction. -/
def positional (ds : List Char) (exponent : Int) : List Char :=
  let point := (ds.length : Int) + exponent
  if 0 ≤ exponent then ds ++ zeros exponent.toNat ++ ['.', '0']
  else if 0 < point then ds.take point.toNat ++ '.' :: ds.drop point.toNat
  else '0' :: '.' :: zeros (-point).toNat ++ ds

/-- The scientific form, with a sign in the exponent and a fraction only where there is one. -/
def scientific (ds : List Char) (exponent : Int) : List Char :=
  let lead := (ds.length : Int) + exponent - 1
  let sign := if lead < 0 then '-' else '+'
  let fraction := match ds.drop 1 with
    | [] => []
    | more => '.' :: more
  ds.take 1 ++ fraction ++ 'e' :: sign :: digits lead.natAbs

/-- The text of a positive decimal. -/
def write (f : Format) (d : Decimal) : List Char :=
  let ds := digits d.mantissa
  let lead := (ds.length : Int) + d.exponent - 1
  if f.leastPositional ≤ lead && lead < f.leastScientific then positional ds d.exponent
  else scientific ds d.exponent

/-- The text of a double, if it is finite. Zero keeps its sign. -/
def write? (f : Format) (x : Float) : Option (List Char) := do
  let p ← parts? x
  let sign := if p.negative then ['-'] else []
  if p.mantissa = 0 then some (sign ++ ['0', '.', '0'])
  else
    let d ← (Rounding.ofBinary p.mantissa p.exponent p.leastOfBinade).shortest?
    some (sign ++ d.write f)

end Decimal
end Workbench
