import UriExpansion.Json.Fault

/-!
# JSON numbers

Digits are collected in a coefficient of 64 bits; those that no longer fit only move the decimal
point. A number with a fraction or an exponent, or one that is too large for 64 bits, is a double:
the coefficient is multiplied or divided by a power of ten, each step rounded.
-/

namespace UriExpansion

namespace Json

def greatestCoefficient : Nat := 0xffffffffffffffff

def collect : List Char → Nat → Nat → Cursor → Nat × Nat × Cursor
  | [], coefficient, count, c => (coefficient, count, c)
  | d :: ds, coefficient, count, c =>
    let grown := 10 * coefficient + digitValue d
    if d.isDigit && grown ≤ greatestCoefficient then collect ds grown (count + 1) c.next
    else (coefficient, count, c)

def dropDigits (c : Cursor) : Nat × Cursor :=
  let c' := c.skip Char.isDigit
  (c'.offset - c.offset, c')

def atDigit (c : Cursor) : Bool :=
  c.rest.head?.any Char.isDigit

def greatestPower : Nat := 308

def powerOfTen (n : Nat) : Magnitude :=
  (Magnitude.ofNat? (Nat.pow 10 n)).getD .zero

/-- Scales by a power of ten. Powers beyond the greatest one are reached in several steps, of which
there are few, since the magnitude soon vanishes. -/
def scaleTen : Nat → Magnitude → Int → Option Magnitude
  | 0, x, _ => some x
  | fuel + 1, x, exponent =>
    if exponent.natAbs ≤ greatestPower then
      if 0 ≤ exponent then x.mul? (powerOfTen exponent.natAbs)
      else x.div? (powerOfTen exponent.natAbs)
    else if x.mantissa = 0 then some x
    else if 0 ≤ exponent then none
    else (x.div? (powerOfTen greatestPower)).bind (scaleTen fuel · (exponent + greatestPower))

def magnitudeOf (coefficient : Nat) (exponent : Int) : Option Magnitude :=
  (Magnitude.ofNat? coefficient).bind (scaleTen (exponent.natAbs / greatestPower + 1) · exponent)

def finishFloat (sign : Bool) (coefficient : Nat) (exponent : Int) (c : Cursor) :
    Except Fault (JsonNumber × Cursor) :=
  match magnitudeOf coefficient exponent with
  | some x => .ok (.float sign x, c)
  | none => c.fail .numberOutOfRange

def greatestExponent : Nat := 0x7fffffff

def clampExponent (e : Int) : Int :=
  max (-0x80000000) (min greatestExponent e)

def collectExponent : List Char → Nat → Cursor → Option Nat × Cursor
  | [], e, c => (some e, c)
  | d :: ds, e, c =>
    if d.isDigit then
      let grown := 10 * e + digitValue d
      if grown ≤ greatestExponent then collectExponent ds grown c.next
      else (none, c.next)
    else (some e, c)

def readExponentPart (sign : Bool) (coefficient : Nat) (exponent : Int) (c : Cursor) :
    Except Fault (JsonNumber × Cursor) :=
  let (down, c) :=
    match c.rest with
    | '-' :: _ => (true, c.next)
    | '+' :: _ => (false, c.next)
    | _ => (false, c)
  match c.rest with
  | [] => c.fail .endInValue
  | d :: _ =>
    if d.isDigit then
      match collectExponent c.rest 0 c with
      | (some e, c) =>
        finishFloat sign coefficient (clampExponent (if down then exponent - e else exponent + e)) c
      | (none, c) =>
        if coefficient ≠ 0 ∧ !down then c.fail .numberOutOfRange
        else .ok (.float sign .zero, (dropDigits c).2)
    else c.failNext .invalidNumber

def readScale (sign : Bool) (coefficient : Nat) (exponent : Int) (c : Cursor) :
    Except Fault (JsonNumber × Cursor) :=
  match c.rest with
  | 'e' :: _ | 'E' :: _ => readExponentPart sign coefficient exponent c.next
  | _ => finishFloat sign coefficient exponent c

def readFraction (sign : Bool) (coefficient : Nat) (exponent : Int) (c : Cursor) :
    Except Fault (JsonNumber × Cursor) :=
  let (coefficient, count, c) := collect c.rest coefficient 0 c
  if atDigit c then
    readScale sign coefficient (exponent - count) (dropDigits c).2
  else if count = 0 then
    c.failAhead (if c.rest.isEmpty then .endInValue else .invalidNumber)
  else
    readScale sign coefficient (exponent - count) c

def integer (sign : Bool) (coefficient : Nat) : JsonNumber :=
  if !sign then .natural coefficient
  else if coefficient = 0 ∨ 0x8000000000000000 < coefficient then
    .float true ((Magnitude.ofNat? coefficient).getD .zero)
  else .negative (coefficient - 1)

def readTail (sign : Bool) (coefficient : Nat) (c : Cursor) :
    Except Fault (JsonNumber × Cursor) :=
  match c.rest with
  | '.' :: _ => readFraction sign coefficient 0 c.next
  | 'e' :: _ | 'E' :: _ => readExponentPart sign coefficient 0 c.next
  | _ => .ok (integer sign coefficient, c)

def readLongTail (sign : Bool) (coefficient : Nat) (c : Cursor) :
    Except Fault (JsonNumber × Cursor) :=
  let (dropped, c) := dropDigits c
  match c.rest with
  | '.' :: _ => readFraction sign coefficient dropped c.next
  | _ => readScale sign coefficient dropped c

def readNumber (sign : Bool) (c : Cursor) : Except Fault (JsonNumber × Cursor) :=
  match c.rest with
  | [] => c.fail .endInValue
  | '0' :: _ =>
    if atDigit c.next then c.next.failAhead .invalidNumber else readTail sign 0 c.next
  | d :: _ =>
    if d.isDigit then
      let (coefficient, _, c) := collect c.rest 0 0 c
      if atDigit c then readLongTail sign coefficient c else readTail sign coefficient c
    else c.failNext .invalidNumber

end Json

end UriExpansion
