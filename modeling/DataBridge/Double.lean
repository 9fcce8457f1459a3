/-!
# Double-precision numbers

Double-precision numbers by their 64 bits, in exact arithmetic on natural
numbers: the value of the bits, the nearest double of a whole number, and the
nearest single-precision number.
-/

namespace DataBridge

structure Double where
  bits : UInt64
deriving DecidableEq, Repr

namespace Double

def signWeight : Nat := 1 <<< 63

/-- The weight of the lowest bit of the exponent field. -/
def exponentWeight : Nat := 1 <<< 52

def negative (x : Double) : Bool :=
  x.bits.toNat / signWeight == 1

def exponentField (x : Double) : Nat :=
  x.bits.toNat / exponentWeight % 2048

def fraction (x : Double) : Nat :=
  x.bits.toNat % exponentWeight

/-- Neither infinite nor without a value. -/
def isFinite (x : Double) : Bool :=
  x.exponentField != 2047

def isNaN (x : Double) : Bool :=
  x.exponentField == 2047 && x.fraction != 0

/-- The magnitude of a finite number is `significand * 2 ^ exponent`. -/
def significand (x : Double) : Nat :=
  if x.exponentField = 0 then x.fraction else x.fraction + exponentWeight

/-- The power of two that goes with the significand. -/
def exponent (x : Double) : Int :=
  (max 1 x.exponentField : Nat) - 1075

/-- The number of the three fields. -/
def ofFields (negative : Bool) (exponentField fraction : Nat) : Double :=
  ⟨UInt64.ofNat
    ((if negative then signWeight else 0) + exponentField * exponentWeight +
      fraction)⟩

def zero : Double := ofFields false 0 0

def nan : Double := ofFields false 2047 (1 <<< 51)

def infinity (negative : Bool) : Double := ofFields negative 2047 0

/-- The number `m * 2 ^ q`, for `m` below `2 ^ 53` and `q` from `-1074` on.
Too large a number is infinite. -/
def ofScaled (negative : Bool) (m : Nat) (q : Int) : Double :=
  let shift := min (52 - m.log2) (q + 1074).toNat
  let scaled := m <<< shift
  let field := (q - shift + 1075).toNat
  if scaled < exponentWeight then ofFields negative 0 scaled
  else if field < 2047 then ofFields negative field (scaled - exponentWeight)
  else infinity negative

/-- `m / 2 ^ drop` to the nearest natural number, a tie to the even one. -/
def roundShift (m drop : Nat) : Nat :=
  let divisor := 1 <<< drop
  let quotient := m >>> drop
  let twice := 2 * (m % divisor)
  if divisor < twice || (divisor == twice && quotient % 2 == 1) then
    quotient + 1
  else quotient

/-- Rounds `m * 2 ^ q` to `precision` bits, none of them below `2 ^ least`. -/
def roundScaled (precision : Nat) (least : Int) (m : Nat) (q : Int) :
    Nat × Int :=
  let drop := max (m.log2 + 1 - precision) (least - q).toNat
  let rounded := roundShift m drop
  if rounded = 1 <<< precision then (1 <<< (precision - 1), q + drop + 1)
  else (rounded, q + drop)

/-- The nearest double of a whole number. -/
def ofInt (n : Int) : Double :=
  let (m, q) := roundScaled 53 (-1074) n.natAbs 0
  ofScaled (n < 0) m q

/-- The nearest single-precision number, as a double. -/
def toSingle (x : Double) : Double :=
  if x.isFinite then
    let (m, q) := roundScaled 24 (-149) x.significand x.exponent
    if 128 ≤ m.log2 + q then infinity x.negative else ofScaled x.negative m q
  else x

/-- The whole number between zero and a finite number that is nearest to the
latter. -/
def truncate (x : Double) : Int :=
  let magnitude :=
    if 0 ≤ x.exponent then x.significand <<< x.exponent.toNat
    else x.significand >>> (-x.exponent).toNat
  if x.negative then -magnitude else magnitude

/-- The whole part of a finite number as a double, which keeps the sign. -/
def trunc (x : Double) : Double :=
  if 0 ≤ x.exponent then x
  else ofScaled x.negative (x.significand >>> (-x.exponent).toNat) 0

def abs (x : Double) : Double :=
  ofFields false x.exponentField x.fraction

/-- The magnitude of a finite number in units of `2 ^ least`, for a `least` not
above its exponent. -/
def units (x : Double) (least : Int) : Nat :=
  x.significand <<< (x.exponent - least).toNat

/-- The finite number in units of `2 ^ least`, for a `least` not above its
exponent. -/
def signedUnits (x : Double) (least : Int) : Int :=
  if x.negative then -x.units least else x.units least

/-- What is left of a finite number after division by one other than zero, with
the sign of the former. -/
def rem (x y : Double) : Double :=
  let least := min x.exponent y.exponent
  ofScaled x.negative (x.units least % y.units least) least

/-- The sum of two finite numbers, to the nearest double. -/
def add (x y : Double) : Double :=
  let least := min x.exponent y.exponent
  let sum := x.signedUnits least + y.signedUnits least
  let (m, q) := roundScaled 53 (-1074) sum.natAbs least
  ofScaled (if sum = 0 then x.negative && y.negative else sum < 0) m q

/-- What is left of a finite number after division by one other than zero,
brought up to zero or above. -/
def remEuclid (x y : Double) : Double :=
  let left := x.rem y
  if left.negative && left.significand != 0 then left.add y.abs else left

/-- The whole part as an unsigned 32-bit word: the nearest such word, and zero
when there is no number. -/
def toWord (x : Double) : UInt32 :=
  if x.isNaN then 0 else UInt32.ofNat (min x.truncate.toNat 4294967295)

end Double

end DataBridge
