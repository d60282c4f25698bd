import OpGraph.Number.Binary

namespace OpGraph

/-- A decimal `digits * 10 ^ exponent`. -/
structure Decimal where
  digits : Nat
  exponent : Int
  deriving DecidableEq, Repr

/-- How an exact tie between two nearest candidates is broken. -/
inductive Tie where
  /-- The candidate whose last digit is even. -/
  | even
  /-- The larger candidate. -/
  | up
  deriving DecidableEq, Repr

namespace Decimal

/-- Compare `c * 10 ^ k` with `x * 2 ^ e`, exactly. -/
def compareScaled (c : Nat) (k : Int) (x : Nat) (e : Int) : Ordering :=
  let left := c * Nat.pow 10 k.toNat * Nat.pow 2 (-e).toNat
  let right := x * Nat.pow 2 e.toNat * Nat.pow 10 (-k).toNat
  compare left right

/-- Drop trailing zero digits into the exponent. -/
def normalize (d : Decimal) : Decimal :=
  if h : d.digits ≠ 0 ∧ d.digits % 10 = 0 then
    have : d.digits / 10 < d.digits := Nat.div_lt_self (Nat.pos_of_ne_zero h.1) (by decide)
    normalize ⟨d.digits / 10, d.exponent + 1⟩
  else d
termination_by d.digits

/-- The number of decimal digits of a positive natural. -/
def digitCount (n : Nat) : Nat :=
  if n < 10 then 1 else digitCount (n / 10) + 1

/-- The rounding interval of `m * 2 ^ e` in units of `2 ^ (e - 2)`: value, low end, high end. -/
structure Interval where
  value : Nat
  low : Nat
  high : Nat
  unit : Int
  inclusive : Bool

/-- Whether `c * 10 ^ k` lies in the interval. -/
def Interval.contains (i : Interval) (c : Nat) (k : Int) : Bool :=
  let lo := compareScaled c k i.low i.unit
  let hi := compareScaled c k i.high i.unit
  if i.inclusive then lo != .lt && hi != .gt else lo == .gt && hi == .lt

/-- The grid point nearest the value among `q * 10 ^ k` and `(q + 1) * 10 ^ k`, if one lies in
the interval. -/
def Interval.pick (i : Interval) (tie : Tie) (k : Int) : Option Nat :=
  let num := i.value * Nat.pow 2 i.unit.toNat * Nat.pow 10 (-k).toNat
  let den := Nat.pow 2 (-i.unit).toNat * Nat.pow 10 k.toNat
  let q := num / den
  let lowIn := q ≠ 0 && i.contains q k
  let highIn := i.contains (q + 1) k
  if lowIn && highIn then
    match compareScaled (2 * q + 1) k (2 * i.value) i.unit with
    | .gt => some q
    | .lt => some (q + 1)
    | .eq => some (if tie = .even && q % 2 = 0 then q else q + 1)
  else if lowIn then some q
  else if highIn then some (q + 1)
  else none

/-- Try the grids `10 ^ k`, `10 ^ (k - 1)`, ... for at most `fuel` steps. -/
def Interval.search (i : Interval) (tie : Tie) : Nat → Int → Decimal
  | 0, _ => ⟨i.value, i.unit⟩
  | fuel + 1, k =>
    match i.pick tie k with
    | some c => normalize ⟨c, k⟩
    | none => i.search tie fuel (k - 1)

/-- The rounding interval of a positive finite value of format `f`. -/
def interval (f : BinaryFormat) (m : Nat) (e : Int) : Interval :=
  let closeBelow := m = Nat.pow 2 f.fractionBits ∧ e > f.leastExponent
  { value := 4 * m
    low := if closeBelow then 4 * m - 1 else 4 * m - 2
    high := 4 * m + 2
    unit := e - 2
    inclusive := m % 2 == 0 }

/-- The shortest decimal in the rounding interval of the positive value `m * 2 ^ e`, nearest to it
among those. -/
def shortest (f : BinaryFormat) (tie : Tie) (m : Nat) (e : Int) : Decimal :=
  let i := interval f m e
  let bits : Int := (i.high.log2 : Int) + 1 + i.unit
  let start : Int := if bits ≤ 0 then 0 else (bits + 2) / 3
  let fuel := (start - min 0 i.unit).toNat + 2
  i.search tie fuel start

/-- A run of `n` zero digits. -/
def zeros (n : Nat) : String := String.ofList (List.replicate n '0')

/-- Positional notation with at least one fractional digit: `1200.0`, `12.5`, `0.0012`. -/
def positional (d : Decimal) : String :=
  let s := toString d.digits
  let point : Int := s.length + d.exponent
  if 0 ≤ d.exponent then s ++ zeros d.exponent.toNat ++ ".0"
  else if 0 < point then
    String.ofList (s.toList.take point.toNat) ++ "." ++ String.ofList (s.toList.drop point.toNat)
  else "0." ++ zeros (-point).toNat ++ s

/-- The mantissa of scientific notation, one digit before the point and none after it when there
is only one, with its power of ten. -/
def mantissaAndPower (d : Decimal) : String × Int :=
  let s := toString d.digits
  let power : Int := s.length + d.exponent - 1
  let mantissa :=
    if s.length = 1 then s else String.ofList (s.toList.take 1) ++ "." ++ String.ofList (s.toList.drop 1)
  (mantissa, power)

/-- Scientific notation with an exponent signed only when negative: `1e16`, `1.5e-7`. -/
def scientific (d : Decimal) : String :=
  let (mantissa, power) := d.mantissaAndPower
  mantissa ++ "e" ++ toString power

/-- Scientific notation with an exponent that always carries its sign: `1e+16`, `1.5e-7`. -/
def scientificSigned (d : Decimal) : String :=
  let (mantissa, power) := d.mantissaAndPower
  mantissa ++ "e" ++ (if 0 ≤ power then "+" else "") ++ toString power

/-- The position of the decimal point relative to the first digit: `10 ^ (p - 1) ≤ d < 10 ^ p`. -/
def pointPosition (d : Decimal) : Int := (toString d.digits).length + d.exponent

end Decimal

namespace BinaryFormat

/-- The debugging text of a pattern: `NaN`, `inf`, `-inf`, or the shortest decimal that reads back
(of two equally near, the larger), in scientific notation when the magnitude is nonzero and below
`1e-4` or at least `1e16`, else positional with a fractional digit. -/
def debugText (f : BinaryFormat) (bits : Nat) : String :=
  match f.decode bits with
  | .nan => "NaN"
  | .infinite negative => if negative then "-inf" else "inf"
  | .finite negative m e =>
    let sign := if negative then "-" else ""
    if m = 0 then sign ++ "0.0"
    else
      let magnitude := bits % f.signBit
      let d := Decimal.shortest f .up m e
      let tiny := magnitude < f.round false 1 10000
      let huge := f.ofNat (Nat.pow 10 16) ≤ magnitude
      sign ++ (if tiny ∨ huge then d.scientific else d.positional)

/-- The exact decimal text of a finite nonnegative pattern with `places` fractional digits, the
last one rounded to nearest (a tie going to the even digit). -/
def fixedText (f : BinaryFormat) (bits : Nat) (places : Nat) : String :=
  match f.decode bits with
  | .finite _ m e =>
    let p := fraction m e
    let n := roundHalfEven (p.1 * Nat.pow 10 places) p.2
    let frac := toString (n % Nat.pow 10 places)
    toString (n / Nat.pow 10 places) ++ (if places = 0 then "" else
      "." ++ Decimal.zeros (places - frac.length) ++ frac)
  | .nan => "NaN"
  | .infinite _ => "inf"

end BinaryFormat

end OpGraph
