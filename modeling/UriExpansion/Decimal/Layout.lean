import UriExpansion.Decimal.Reading

/-!
# Writing numbers

The reals that round to a magnitude form an interval, which contains its ends when the mantissa is
even. The shortest decimal is the first point inside that interval on the grids of one, two, and
more significant digits; of the two grid points beside the value the nearer one is taken. A layout
fixes how the decimal is written: where positional notation ends, how a whole number is marked, and
which way ties go.
-/

namespace UriExpansion

/-- The value `coefficient * 10 ^ exponent`. -/
structure Decimal where
  coefficient : Nat
  exponent : Int
  deriving DecidableEq

inductive Tie
  | toEven
  | upward
  deriving DecidableEq

structure RoundingInterval where
  low : Nat
  value : Nat
  high : Nat
  denominator : Nat
  closed : Bool

namespace RoundingInterval

/-- The neighbour below a power of two is nearer than the one above. -/
def ofMagnitude (x : Magnitude) : RoundingInterval :=
  let quarter := x.exponent - 2
  let scale := quarter.toNat
  let below := if x.mantissa = Magnitude.leastFull then 1 else 2
  { low := (4 * x.mantissa - below) <<< scale
    value := (4 * x.mantissa) <<< scale
    high := (4 * x.mantissa + 2) <<< scale
    denominator := 1 <<< (-quarter).toNat
    closed := x.mantissa % 2 = 0 }

def inUnits (i : RoundingInterval) (k : Int) : RoundingInterval :=
  let factor := Nat.pow 10 (-k).toNat
  { i with
    low := i.low * factor
    value := i.value * factor
    high := i.high * factor
    denominator := i.denominator * Nat.pow 10 k.toNat }

def contains (i : RoundingInterval) (n : Nat) : Bool :=
  let point := n * i.denominator
  if i.closed then i.low ≤ point && point ≤ i.high else i.low < point && point < i.high

def nearestInside? (i : RoundingInterval) (tie : Tie) : Option Nat :=
  let below := i.value / i.denominator
  let twice := 2 * (i.value % i.denominator)
  match i.contains below, i.contains (below + 1) with
  | false, false => none
  | true, false => some below
  | false, true => some (below + 1)
  | true, true =>
    if twice < i.denominator then some below
    else if i.denominator < twice then some (below + 1)
    else match tie with
      | .upward => some (below + 1)
      | .toEven => some (below + below % 2)

def decimalExponent (i : RoundingInterval) : Int :=
  if i.denominator ≤ i.value then (decimalDigits (i.value / i.denominator)).length - 1
  else -(decimalDigits ((i.denominator - 1) / i.value)).length

end RoundingInterval

namespace Magnitude

/-- Seventeen digits always suffice. -/
def mostDigits : Nat := 17

def shortest (x : Magnitude) (tie : Tie) : Decimal :=
  if x.mantissa = 0 then ⟨0, 0⟩
  else
    let i := RoundingInterval.ofMagnitude x
    let top := i.decimalExponent
    let onGrid (further : Nat) : Option Decimal :=
      ((i.inUnits (top - further)).nearestInside? tie).map (⟨·, top - further⟩)
    ((List.range mostDigits).findSome? onGrid).getD ⟨x.numerator / x.denominator, 0⟩

end Magnitude

structure NumberLayout where
  tie : Tie
  /-- The positions of the decimal point, counted from the first digit, that are written without an
  exponent; all of them when absent. -/
  positional : Option (Int × Int)
  wholeMark : String

namespace NumberLayout

def plain : NumberLayout := ⟨.upward, none, ""⟩

/-- Numbers inside JSON text: an exponent below `1e-5` and from `1e16` on, and a whole number keeps
a fraction. -/
def json : NumberLayout := ⟨.toEven, some (-4, 16), ".0"⟩

def zeros (n : Nat) : List Char :=
  List.replicate n '0'

def positionalText (l : NumberLayout) (digits : List Char) (position : Int) : String :=
  if position ≤ 0 then
    String.ofList ('0' :: '.' :: zeros (-position).toNat ++ digits)
  else if digits.length ≤ position then
    String.ofList (digits ++ zeros (position.toNat - digits.length)) ++ l.wholeMark
  else
    String.ofList (digits.take position.toNat ++ '.' :: digits.drop position.toNat)

def exponentText (digits : List Char) (position : Int) : String :=
  let exponent := position - 1
  let fraction := if digits.length ≤ 1 then [] else '.' :: digits.drop 1
  let sign := if exponent < 0 then '-' else '+'
  String.ofList (digits.take 1 ++ fraction ++ 'e' :: sign :: decimalDigits exponent.natAbs)

def significant (d : Decimal) : List Char :=
  ((decimalDigits d.coefficient).reverse.dropWhile (· = '0')).reverse

def decimalText (l : NumberLayout) (d : Decimal) : String :=
  if d.coefficient = 0 then "0" ++ l.wholeMark
  else
    let position := (decimalDigits d.coefficient).length + d.exponent
    match l.positional with
    | none => l.positionalText (significant d) position
    | some (low, high) =>
      if low ≤ position ∧ position ≤ high then l.positionalText (significant d) position
      else exponentText (significant d) position

def text (l : NumberLayout) : Binary64 → String
  | .nan => "NaN"
  | .infinite negative => if negative then "-inf" else "inf"
  | .finite negative x =>
    (if negative then "-" else "") ++ l.decimalText (x.shortest l.tie)

end NumberLayout

end UriExpansion
