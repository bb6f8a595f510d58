import UriExpansion.Decimal.Reading
import UriExpansion.Params
import UriExpansion.Yaml.Token.Basic

/-!
# Meaning of scalars

A plain scalar without a tag is null, a boolean, an integer, a double or a text, whichever its
spelling allows first. A tag of the core schema demands one of them.
-/

namespace UriExpansion

namespace Yaml

/-- What a scalar means. Integers beyond 64 bits are told apart. -/
inductive Meaning
  | null
  | bool (b : Bool)
  | int (n : Int)
  | wide (n : Int)
  | float (x : Binary64)
  | text (s : String)
  deriving DecidableEq

def isNullWord (s : String) : Bool :=
  ["null", "Null", "NULL", "~"].contains s

def bool? (s : String) : Option Bool :=
  if ["true", "True", "TRUE"].contains s then some true
  else if ["false", "False", "FALSE"].contains s then some false
  else none

/-- Zeros before further digits make a text of a number. -/
def hasLeadingZero (cs : List Char) : Bool :=
  let digits := match cs with
    | '-' :: rest | '+' :: rest => rest
    | _ => cs
  1 < digits.length && digits.head? = some '0' && digits.all Char.isDigit

def readBased? : List Char → Option Nat
  | '0' :: 'x' :: digits => natOfBase? 16 digits
  | '0' :: 'o' :: digits => natOfBase? 8 digits
  | '0' :: 'b' :: digits => natOfBase? 2 digits
  | _ => none

def readNatural? (cs : List Char) : Option Nat :=
  (readBased? cs).or (natOfBase? 10 cs)

def readInteger? (cs : List Char) : Option Int :=
  if hasLeadingZero cs then none
  else match cs with
    | '-' :: rest => (readNatural? rest).map fun n => -n
    | '+' :: rest => (readNatural? rest).map fun n => n
    | _ => (readNatural? cs).map fun n => n

def fits64 (n : Int) : Bool :=
  -0x8000000000000000 ≤ n && n ≤ 0xffffffffffffffff

def fits128 (n : Int) : Bool :=
  -0x80000000000000000000000000000000 ≤ n && n ≤ 0xffffffffffffffffffffffffffffffff

/-- Integers beyond 128 bits are no integers. -/
def integer? (s : String) : Option Meaning :=
  (readInteger? s.toList).bind fun n =>
    if fits64 n then some (.int n)
    else if fits128 n then some (.wide n)
    else none

def double? (s : String) : Option Binary64 :=
  let unsigned := match s.toList with
    | '+' :: rest => rest
    | cs => cs
  if [".inf", ".Inf", ".INF"].contains (String.ofList unsigned) then some (.infinite false)
  else if ["-.inf", "-.Inf", "-.INF"].contains s then some (.infinite true)
  else if [".nan", ".NaN", ".NAN"].contains s then some .nan
  else if s.startsWith "++" || s.startsWith "+-" then none
  else (Binary64.read? unsigned).filter Binary64.isFinite

def plainMeaning (s : String) : Meaning :=
  if s.isEmpty || isNullWord s then .null
  else match bool? s, integer? s with
    | some b, _ => .bool b
    | none, some m => m
    | none, none =>
      if hasLeadingZero s.toList then .text s
      else ((double? s).map .float).getD (.text s)

inductive CoreTag
  | null
  | bool
  | int
  | float
  deriving DecidableEq

namespace CoreTag

def name : CoreTag → String
  | .null => "null"
  | .bool => "bool"
  | .int => "int"
  | .float => "float"

def demand : CoreTag → String
  | .null => "null"
  | .bool => "a boolean"
  | .int => "an integer"
  | .float => "a float"

def ofBytes? (tag : Bytes) : Option CoreTag :=
  [null, bool, int, float].find? fun t => tag = Bytes.ofAscii ("tag:yaml.org,2002:" ++ t.name)

def meaning? (t : CoreTag) (s : String) : Option Meaning :=
  match t with
  | .null => if isNullWord s then some .null else none
  | .bool => (bool? s).map .bool
  | .int => integer? s
  | .float => (double? s).map .float

end CoreTag

def isLocalTag (tag : Bytes) : Bool :=
  tag.head? = some '!'.toNat

def meaning (tag : Option Bytes) (s : String) (plain : Bool) : Except CoreTag Meaning :=
  match tag with
  | none => .ok (if plain then plainMeaning s else .text s)
  | some tag =>
    match CoreTag.ofBytes? tag with
    | some core =>
      match core.meaning? s with
      | some m => .ok m
      | none => .error core
    | none => .ok (if plain && isLocalTag tag then plainMeaning s else .text s)

end Yaml

end UriExpansion
