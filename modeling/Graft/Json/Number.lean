import Graft.Decimal.Shortest

/-!
# Numbers

A number is an integer or a double, and the two never equal each other.

* `Number.same`      equality of numbers;
* `Number.render`    the text: an integer in decimal, a double by its shortest decimal;
* `Number.ofText?`   reads an optional minus, digits without a leading zero, and optional fraction
                     and exponent.

Reading keeps an integer exact between `-2 ^ 63` and `2 ^ 64 - 1`.  Everything else becomes a double:
the leading digits, as many as stay below `2 ^ 64`, are rounded to a double, and that is multiplied
or divided by the double of a power of ten.  A result beyond the largest double is refused.
-/

namespace Graft

inductive Number where
  | int (value : Int)
  | double (value : Double)
deriving DecidableEq, Repr

namespace Number

def same : Number → Number → Bool
  | .int a, .int b => a == b
  | .double a, .double b => a.same b
  | _, _ => false

def render : Number → String
  | .int value => value.repr
  | .double value => value.render

/-! ## digits -/

def digit? (c : Char) : Option Nat := if c.isDigit then some (c.toNat - '0'.toNat) else none

/-- the digits at the front, and the rest -/
def digits : List Char → List Nat × List Char
  | [] => ([], [])
  | c :: rest =>
    match digit? c with
    | some d => (d :: (digits rest).1, (digits rest).2)
    | none => ([], c :: rest)

/-- the first number that does not fit 64 bits -/
def wordLimit : Nat := 0x10000000000000000

def ofDigits (ds : List Nat) : Nat := ds.foldl (fun n d => n * 10 + d) 0

/-- goes on with digits while the number stays below `2 ^ 64`; how many did not fit comes second -/
def leading : Nat → List Nat → Nat × Nat
  | n, [] => (n, 0)
  | n, d :: ds => if n * 10 + d < wordLimit then leading (n * 10 + d) ds else (n, (d :: ds).length)

/-! ## doubles -/

/-- the double of `10 ^ k` -/
def powerOfTen? (k : Nat) : Option Double := Double.ofNat? (tenTo k)

/-- a magnitude divided by `10 ^ k`, in steps of at most `10 ^ 308`; what is left after two full
steps is zero -/
def scaleDown? (f : Double) (k : Nat) : Option Double :=
  if k ≤ 308 then (powerOfTen? k).bind f.dividedBy?
  else if k ≤ 616 then do
    let top ← powerOfTen? 308
    let once ← f.dividedBy? top
    let rest ← powerOfTen? (k - 308)
    once.dividedBy? rest
  else some Double.zero

/-- the double of `significand * 10 ^ exponent`; nothing if that is too large -/
def scaled? (significand : Nat) (exponent : Int) : Option Double := do
  let f ← Double.ofNat? significand
  if f.isZero then some f
  else if exponent < 0 then scaleDown? f (-exponent).toNat
  else if exponent ≤ 308 then (powerOfTen? exponent.toNat).bind f.times?
  else none

/-- the double of a decimal, by its digits before and after the point and its exponent -/
def double? (whole fraction : List Nat) (exponent : Int) : Option Double :=
  let (n, skipped) := leading 0 whole
  let (m, dropped) := leading n fraction
  scaled? m (exponent + skipped - (fraction.length - dropped : Nat))

def integer? (negative : Bool) (n : Nat) : Option Number :=
  if negative then if 0 < n ∧ 2 * n ≤ wordLimit then some (.int (-n)) else none
  else if n < wordLimit then some (.int n) else none

/-! ## the grammar -/

/-- the digits before the point: zero alone, or no leading zero -/
def whole? (cs : List Char) : Option (List Nat × List Char) :=
  match digits cs with
  | ([], _) => none
  | (0 :: _ :: _, _) => none
  | (ds, rest) => some (ds, rest)

/-- a point and at least one digit, or nothing -/
def fraction? : List Char → Option (List Nat × List Char)
  | '.' :: rest =>
    match digits rest with
    | ([], _) => none
    | (ds, rest) => some (ds, rest)
  | rest => some ([], rest)

def signed? (negative : Bool) (cs : List Char) : Option (Int × List Char) :=
  match digits cs with
  | ([], _) => none
  | (ds, rest) => some (if negative then -(ofDigits ds : Int) else ofDigits ds, rest)

/-- a sign may stand before the digits of an exponent -/
def exponentDigits? : List Char → Option (Int × List Char)
  | '+' :: rest => signed? false rest
  | '-' :: rest => signed? true rest
  | rest => signed? false rest

/-- an exponent, or nothing -/
def exponent? : List Char → Option (Option Int × List Char)
  | 'e' :: rest => (exponentDigits? rest).map fun (e, rest) => (some e, rest)
  | 'E' :: rest => (exponentDigits? rest).map fun (e, rest) => (some e, rest)
  | rest => some (none, rest)

def magnitude? (negative : Bool) (cs : List Char) : Option Number := do
  let (whole, rest) ← whole? cs
  let (fraction, rest) ← fraction? rest
  let (exponent, rest) ← exponent? rest
  guard rest.isEmpty
  let plain := fraction.isEmpty && exponent.isNone
  match if plain then integer? negative (ofDigits whole) else none with
  | some n => some n
  | none =>
    let d ← double? whole fraction (exponent.getD 0)
    some (.double (if negative then d.neg else d))

/-- the number that a text spells -/
def ofText? : List Char → Option Number
  | '-' :: rest => magnitude? true rest
  | cs => magnitude? false cs

end Number

end Graft
