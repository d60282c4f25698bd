namespace OpGraph

/-- A binary format: significand precision in bits (the hidden bit included) and exponent width. -/
structure BinaryFormat where
  precision : Nat
  exponentBits : Nat
  deriving DecidableEq, Repr

/-- What a bit pattern stands for. `finite neg m e` is `(-1)^neg * m * 2^e`. -/
inductive BinaryValue where
  | nan
  | infinite (negative : Bool)
  | finite (negative : Bool) (significand : Nat) (exponent : Int)
  deriving DecidableEq, Repr

namespace BinaryFormat

/-- Single precision: 24 significand bits, 8 exponent bits. -/
def binary32 : BinaryFormat := ⟨24, 8⟩

/-- Double precision: 53 significand bits, 11 exponent bits. -/
def binary64 : BinaryFormat := ⟨53, 11⟩

/-- Stored fraction bits. -/
def fractionBits (f : BinaryFormat) : Nat := f.precision - 1

def bias (f : BinaryFormat) : Nat := Nat.pow 2 (f.exponentBits - 1) - 1

/-- The biased exponent of infinities and not-a-number. -/
def topExponent (f : BinaryFormat) : Nat := Nat.pow 2 f.exponentBits - 1

/-- The exponent of one unit of a subnormal significand. -/
def leastExponent (f : BinaryFormat) : Int := 1 - (f.bias : Int) - f.fractionBits

/-- Width of a pattern in bits. -/
def width (f : BinaryFormat) : Nat := f.precision + f.exponentBits

def signBit (f : BinaryFormat) : Nat := Nat.pow 2 (f.width - 1)

/-- The pattern of positive infinity. -/
def infinityBits (f : BinaryFormat) : Nat := f.topExponent * Nat.pow 2 f.fractionBits

/-- Read a bit pattern. -/
def decode (f : BinaryFormat) (bits : Nat) : BinaryValue :=
  let negative := bits / f.signBit % 2 == 1
  let biased := bits / Nat.pow 2 f.fractionBits % Nat.pow 2 f.exponentBits
  let fraction := bits % Nat.pow 2 f.fractionBits
  if biased = f.topExponent then
    if fraction = 0 then .infinite negative else .nan
  else if biased = 0 then .finite negative fraction f.leastExponent
  else .finite negative (fraction + Nat.pow 2 f.fractionBits) (f.leastExponent + biased - 1)

/-- Whether a pattern is not-a-number. -/
def isNaN (f : BinaryFormat) (bits : Nat) : Bool :=
  f.decode bits == .nan

/-- Whether a pattern is a zero of either sign. -/
def isZero (f : BinaryFormat) (bits : Nat) : Bool :=
  bits % f.signBit == 0

/-- Numeric equality of patterns: not-a-number equals nothing, and the two zeros are equal. -/
def numEq (f : BinaryFormat) (a b : Nat) : Bool :=
  !f.isNaN a && !f.isNaN b && (a == b || (f.isZero a && f.isZero b))

/-- `num / (den * 2 ^ e)` as an exact fraction of naturals. -/
def scaled (num den : Nat) (e : Int) : Nat × Nat :=
  if 0 ≤ e then (num, den * Nat.pow 2 e.toNat) else (num * Nat.pow 2 (-e).toNat, den)

/-- A quotient of naturals rounded to the nearest natural, a tie going to the even one. -/
def roundHalfEven (n d : Nat) : Nat :=
  let q := n / d
  let r := n % d
  if 2 * r > d then q + 1
  else if 2 * r = d then (if q % 2 = 1 then q + 1 else q)
  else q

/-- The pattern nearest to the positive fraction `num / den`, without its sign. -/
def roundPositive (f : BinaryFormat) (num den : Nat) : Nat :=
  let guess : Int := (num.log2 : Int) - den.log2 - f.fractionBits
  let top := scaled num den guess
  let e := if top.1 / top.2 < Nat.pow 2 f.fractionBits then guess - 1 else guess
  let e := max e f.leastExponent
  let q := scaled num den e
  let m := roundHalfEven q.1 q.2
  let (m, e) := if m = Nat.pow 2 f.precision then (m / 2, e + 1) else (m, e)
  if m < Nat.pow 2 f.fractionBits then m
  else
    let biased := e - f.leastExponent + 1
    if f.topExponent ≤ biased then f.infinityBits
    else biased.toNat * Nat.pow 2 f.fractionBits + (m - Nat.pow 2 f.fractionBits)

/-- The pattern nearest to `±num / den`. -/
def round (f : BinaryFormat) (negative : Bool) (num den : Nat) : Nat :=
  let magnitude := if num = 0 then 0 else f.roundPositive num den
  if negative then f.signBit + magnitude else magnitude

/-- The pattern of a natural number. -/
def ofNat (f : BinaryFormat) (n : Nat) : Nat := f.round false n 1

/-- `significand * 2 ^ exponent` as a fraction of naturals. -/
def fraction (m : Nat) (e : Int) : Nat × Nat :=
  if 0 ≤ e then (m * Nat.pow 2 e.toNat, 1) else (m, Nat.pow 2 (-e).toNat)

/-- The rounded product of two finite values. -/
def mulFinite (f : BinaryFormat) (na : Bool) (ma : Nat) (ea : Int) (nb : Bool) (mb : Nat)
    (eb : Int) : Nat :=
  let p := fraction (ma * mb) (ea + eb)
  f.round (na != nb) p.1 p.2

/-- The rounded quotient of two finite values, the divisor non-zero. -/
def divFinite (f : BinaryFormat) (na : Bool) (ma : Nat) (ea : Int) (nb : Bool) (mb : Nat)
    (eb : Int) : Nat :=
  let a := fraction ma ea
  let b := fraction mb eb
  f.round (na != nb) (a.1 * b.2) (a.2 * b.1)

/-- Whether a pattern is an infinity. -/
def isInfinite (f : BinaryFormat) (bits : Nat) : Bool :=
  match f.decode bits with
  | .infinite _ => true
  | _ => false

/-- A value of one format rounded into another; not-a-number becomes the quiet pattern. -/
def convert (src dst : BinaryFormat) (bits : Nat) : Nat :=
  match src.decode bits with
  | .nan => dst.infinityBits + Nat.pow 2 (dst.fractionBits - 1)
  | .infinite neg => (if neg then dst.signBit else 0) + dst.infinityBits
  | .finite neg m e =>
    let p := fraction m e
    dst.round neg p.1 p.2

end BinaryFormat

end OpGraph
