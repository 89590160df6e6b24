import Graft.Decimal.Double

/-!
# The shortest decimal of a double

Every real number between the two midpoints around a double rounds to that double; the midpoints
themselves do if its significand is even.  `Double.shortest d` is the multiple of the largest power
of ten in that interval, and of several the nearest to `d`, a tie to the even one.  It has no
trailing zero, and no decimal with fewer digits reads back as `d`.

`Decimal.layout` writes it: as an ordinary decimal while its leading digit stands at one of the
places `10 ^ (-5)` to `10 ^ 15`, otherwise with a signed exponent.
-/

namespace Graft

/-- the number `digits * 10 ^ exponent` -/
structure Decimal where
  digits : Nat
  exponent : Int
deriving DecidableEq, Repr

/-! ## the interval of a double -/

/-- the numbers that round to a double, in units of a quarter of its last bit: `low` and `high` are
the midpoints to its neighbours, `closed` says whether they belong to it -/
structure Double.Interval where
  low : Nat
  value : Nat
  high : Nat
  closed : Bool
  /-- one unit is `2 ^ unit` -/
  unit : Int

/-- below a power of two the neighbours are half as far apart -/
def Double.interval (d : Double) : Double.Interval :=
  let m := d.significand
  let low := if d.fraction = 0 ∧ 1 < d.biased then 4 * m - 1 else 4 * m - 2
  ⟨low, 4 * m, 4 * m + 2, m % 2 == 0, d.exponent - 2⟩

/-- whether `c * 10 ^ e` lies in the interval -/
def Double.Interval.holds (i : Double.Interval) (c : Nat) (e : Int) : Bool :=
  let x := c * tenTo e.toNat * twoTo (-i.unit).toNat
  let scale := tenTo (-e).toNat * twoTo i.unit.toNat
  if i.closed then i.low * scale ≤ x && x ≤ i.high * scale
  else i.low * scale < x && x < i.high * scale

/-! ## the search -/

/-- the multiple of `10 ^ e` in the interval that is nearest to its value -/
def Double.Interval.multiple? (i : Double.Interval) (e : Int) : Option Nat :=
  let num := i.value * twoTo i.unit.toNat * tenTo (-e).toNat
  let den := twoTo (-i.unit).toNat * tenTo e.toNat
  let below := num / den
  let nearer := Double.roundHalfEven num den
  let other := if nearer = below then below + 1 else below
  if 0 < nearer && i.holds nearer e then some nearer
  else if 0 < other && i.holds other e then some other
  else none

/-- drops trailing zeros of the digits, at most `n` of them -/
def Decimal.strip : Nat → Decimal → Decimal
  | 0, x => x
  | n + 1, x => if x.digits % 10 = 0 then strip n ⟨x.digits / 10, x.exponent + 1⟩ else x

/-- the place of the leading digit, or one or two places above it -/
def Double.topPlace (d : Double) : Int :=
  (d.exponent + d.significand.log2 + 1) * 30103 / 100000 + 1

/-- the shortest decimal that rounds to the magnitude of `d` -/
def Double.shortest (d : Double) : Decimal :=
  let places := (List.range 20).map fun n : Nat => d.topPlace - n
  let hit := places.findSome? fun e => (d.interval.multiple? e).map fun c => (⟨c, e⟩ : Decimal)
  (hit.getD ⟨0, 0⟩).strip 2

/-! ## writing it -/

def zeros (n : Nat) : String := String.ofList (List.replicate n '0')

/-- the point stands after `point` digits -/
def Decimal.positional (digits : String) (point : Int) : String :=
  let size : Int := digits.length
  if point ≤ 0 then "0." ++ zeros (-point).toNat ++ digits
  else if size ≤ point then digits ++ zeros (point - size).toNat ++ ".0"
  else (digits.take point.toNat).toString ++ "." ++ (digits.drop point.toNat).toString

/-- an exponent always has a sign -/
def Decimal.exponentText (place : Int) : String :=
  (if place < 0 then "e-" else "e+") ++ place.natAbs.repr

/-- one digit before the point, none after it if there are no more -/
def Decimal.scientific (digits : String) (place : Int) : String :=
  let rest := (digits.drop 1).toString
  (digits.take 1).toString ++ (if rest.isEmpty then "" else "." ++ rest) ++ exponentText place

/-- written out while the leading digit stands at a place from `-5` to `15` -/
def Decimal.layout (x : Decimal) : String :=
  let digits := x.digits.repr
  let place := x.exponent + digits.length - 1
  if -5 ≤ place ∧ place ≤ 15 then positional digits (place + 1) else scientific digits place

/-- the text of a double -/
def Double.render (d : Double) : String :=
  (if d.negative then "-" else "") ++ (if d.isZero then "0.0" else d.shortest.layout)

end Graft
