/-!
# Reading numbers

Numbers are rows of digits, in bases up to sixteen. A double is a finite magnitude with a sign, an
infinity or not-a-number, and a finite magnitude is an integer below `2 ^ 53` times a power of two.
A decimal is an optional sign, digits with an optional point, and an optional exponent; it is read
as the nearest double. Everything is computed on integers, so that results can be evaluated inside
proofs.
-/

namespace UriExpansion

def decimalDigits (n : Nat) : List Char :=
  Nat.toDigits 10 n

def hexDigits (n : Nat) : List Char :=
  Nat.toDigits 16 n

def digitValue (c : Char) : Nat :=
  c.toNat - '0'.toNat

def natOfDigits (digits : List Char) : Nat :=
  digits.foldl (fun n c => 10 * n + digitValue c) 0

def hexValue? (c : Char) : Option Nat :=
  if '0' ≤ c ∧ c ≤ '9' then some (digitValue c)
  else if 'a' ≤ c ∧ c ≤ 'f' then some (c.toNat - 'a'.toNat + 10)
  else if 'A' ≤ c ∧ c ≤ 'F' then some (c.toNat - 'A'.toNat + 10)
  else none

def natOfBase? (base : Nat) (digits : List Char) : Option Nat :=
  if digits.isEmpty then none
  else digits.foldlM (fun n c => do
    let d ← hexValue? c
    if d < base then some (base * n + d) else none) 0

/-- The value `mantissa * 2 ^ exponent`, in lowest position: the mantissa has 53 bits unless the
exponent is the least one. -/
structure Magnitude where
  mantissa : Nat
  exponent : Int
  deriving DecidableEq

inductive Binary64
  | nan
  | infinite (negative : Bool)
  | finite (negative : Bool) (magnitude : Magnitude)
  deriving DecidableEq

namespace Magnitude

def leastExponent : Int := -1074

def greatestExponent : Int := 971

def leastFull : Nat := 0x10000000000000

def zero : Magnitude := ⟨0, leastExponent⟩

def unscale (num den : Nat) (e : Int) : Nat × Nat :=
  (num <<< (-e).toNat, den <<< e.toNat)

def roundEven (num den : Nat) : Nat :=
  let quotient := num / den
  let twice := 2 * (num % den)
  if twice < den then quotient
  else if den < twice then quotient + 1
  else quotient + quotient % 2

def exponentOf (num den : Nat) : Int :=
  let e := max ((num.log2 : Int) - den.log2 - 53) leastExponent
  let (n, d) := unscale num den e
  if n / d < 2 * leastFull then e else e + 1

def nearest? (num den : Nat) : Option Magnitude :=
  if num = 0 then some zero
  else
    let e := exponentOf num den
    let (n, d) := unscale num den e
    let m := roundEven n d
    let r : Magnitude := if m = 2 * leastFull then ⟨leastFull, e + 1⟩ else ⟨m, e⟩
    if r.exponent ≤ greatestExponent then some r else none

def numerator (x : Magnitude) : Nat :=
  x.mantissa <<< x.exponent.toNat

def denominator (x : Magnitude) : Nat :=
  1 <<< (-x.exponent).toNat

def ofNat? (n : Nat) : Option Magnitude :=
  nearest? n 1

def mul? (x y : Magnitude) : Option Magnitude :=
  nearest? (x.numerator * y.numerator) (x.denominator * y.denominator)

def div? (x y : Magnitude) : Option Magnitude :=
  nearest? (x.numerator * y.denominator) (x.denominator * y.numerator)

end Magnitude

namespace Binary64

def signed (negative : Bool) : Option Magnitude → Binary64
  | some x => .finite negative x
  | none => .infinite negative

def isFinite : Binary64 → Bool
  | .finite _ _ => true
  | _ => false

end Binary64

/-- The nearest magnitude to `coefficient * 10 ^ exponent`. Exponents far outside the range are
decided without computing the power. -/
def nearestDecimal (coefficient : Nat) (exponent : Int) : Option Magnitude :=
  let size := (decimalDigits coefficient).length + exponent
  if coefficient = 0 ∨ size < -400 then some .zero
  else if 400 < size then none
  else Magnitude.nearest? (coefficient * Nat.pow 10 exponent.toNat) (Nat.pow 10 (-exponent).toNat)

def takeSign : List Char → Bool × List Char
  | '-' :: cs => (true, cs)
  | '+' :: cs => (false, cs)
  | cs => (false, cs)

def readExponent : List Char → Option Int
  | [] => some 0
  | c :: cs =>
    if c = 'e' ∨ c = 'E' then
      let (negative, digits) := takeSign cs
      if digits ≠ [] ∧ digits.all Char.isDigit then
        some (if negative then -natOfDigits digits else natOfDigits digits)
      else none
    else none

def readMagnitude (cs : List Char) : Option (Option Magnitude) :=
  let whole := cs.takeWhile Char.isDigit
  let rest := cs.dropWhile Char.isDigit
  let (fraction, rest) :=
    match rest with
    | '.' :: rest => (rest.takeWhile Char.isDigit, rest.dropWhile Char.isDigit)
    | _ => ([], rest)
  if whole = [] ∧ fraction = [] then none
  else (readExponent rest).map fun exponent =>
    nearestDecimal (natOfDigits (whole ++ fraction)) (exponent - fraction.length)

namespace Binary64

def read? (text : List Char) : Option Binary64 :=
  let (negative, cs) := takeSign text
  let word := String.ofList (cs.map Char.toLower)
  if word = "nan" then some .nan
  else if word = "inf" ∨ word = "infinity" then some (.infinite negative)
  else (readMagnitude cs).map (signed negative)

end Binary64

end UriExpansion
