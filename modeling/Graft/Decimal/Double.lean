/-!
# Doubles as exact ratios

A double is kept as its 64 bits, and all arithmetic on it is exact arithmetic on natural numbers
followed by one rounding.

* `Double.significand`, `Double.exponent`   the magnitude is `significand * 2 ^ exponent`;
* `Double.ratio`                            the magnitude as a fraction;
* `Double.nearest? num den`                 the double nearest to `num / den`, ties to the even
                                            significand, nothing beyond the largest double;
* `Double.times?`, `Double.dividedBy?`           product and quotient of two magnitudes, rounded once;
* `Double.same`                             numeric equality: the two zeros are one number.
-/

namespace Graft

/-- a finite double, by its bits: sign, eleven exponent bits, fifty-two fraction bits -/
structure Double where
  bits : UInt64
deriving DecidableEq, Repr, Inhabited

/-- `2 ^ n` -/
def twoTo (n : Nat) : Nat := Nat.pow 2 n

/-- `10 ^ n` -/
def tenTo (n : Nat) : Nat := Nat.pow 10 n

namespace Double

/-! ## parts -/

def negative (d : Double) : Bool := d.bits.toNat / twoTo 63 % 2 == 1

def biased (d : Double) : Nat := d.bits.toNat / twoTo 52 % twoTo 11

def fraction (d : Double) : Nat := d.bits.toNat % twoTo 52

def significand (d : Double) : Nat :=
  if d.biased = 0 then d.fraction else d.fraction + twoTo 52

def exponent (d : Double) : Int :=
  if d.biased = 0 then -1074 else (d.biased : Int) - 1075

def isZero (d : Double) : Bool := d.significand == 0

/-- the magnitude as numerator and denominator -/
def ratio (d : Double) : Nat × Nat :=
  (d.significand * twoTo d.exponent.toNat, twoTo (-d.exponent).toNat)

/-- the same magnitude with the sign flipped -/
def neg (d : Double) : Double := ⟨d.bits ^^^ 0x8000000000000000⟩

def zero : Double := ⟨0⟩

def same (a b : Double) : Bool := a == b || (a.isZero && b.isZero)

/-! ## rounding -/

/-- `num / den` to the nearest natural number, a half to the even one -/
def roundHalfEven (num den : Nat) : Nat :=
  let quotient := num / den
  let twice := 2 * (num % den)
  if twice < den then quotient
  else if den < twice then quotient + 1
  else quotient + quotient % 2

/-- `num / den` in units of `2 ^ e`, as numerator and denominator -/
def inUnits (num den : Nat) (e : Int) : Nat × Nat :=
  (num * twoTo (-e).toNat, den * twoTo e.toNat)

/-- the exponent of the last bit of a double near `num / den` -/
def unitOf (num den : Nat) : Int :=
  let low := max ((num.log2 : Int) - den.log2 - 53) (-1074)
  let (n, d) := inUnits num den low
  if n / d < twoTo 53 then low else low + 1

/-- the double nearest to `num / den`, or nothing if that is beyond the largest double -/
def nearest? (num den : Nat) : Option Double :=
  let e := if num = 0 then -1074 else unitOf num den
  let (n, d) := inUnits num den e
  let bits := (e + 1074).toNat * twoTo 52 + roundHalfEven n d
  if bits < 2047 * twoTo 52 then some ⟨UInt64.ofNat bits⟩ else none

def ofNat? (n : Nat) : Option Double := nearest? n 1

/-- the product of two magnitudes -/
def times? (a b : Double) : Option Double :=
  nearest? (a.ratio.1 * b.ratio.1) (a.ratio.2 * b.ratio.2)

/-- the quotient of two magnitudes -/
def dividedBy? (a b : Double) : Option Double :=
  nearest? (a.ratio.1 * b.ratio.2) (a.ratio.2 * b.ratio.1)

end Double

end Graft
