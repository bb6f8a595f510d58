import UriExpansion.Decimal.Layout
import UriExpansion.Keyed

/-!
# Parameters

A parameter is bound to a text, a list of texts or a list of key/value pairs, which keep their order
and may repeat a key. Scalars are bound by one canonical text each. A store lists its names in the
order of their first binding: binding a bound name again keeps its place, and a name removed and
bound again goes to the end.
-/

namespace UriExpansion

inductive Value
  | str (text : String)
  | list (items : List String)
  | map (pairs : List (String × String))
  deriving DecidableEq

namespace Value

/-- A collection without members counts as undefined; an empty text is defined. -/
def defined : Value → Bool
  | .str _ => true
  | .list items => !items.isEmpty
  | .map pairs => !pairs.isEmpty

def alternate (pairs : List (String × String)) : List String :=
  pairs.flatMap fun (k, v) => [k, v]

end Value

inductive Shape
  | name
  | scalar
  | value
  | store
  deriving DecidableEq

namespace Shape

def description : Shape → String
  | .name => "a string"
  | .scalar => "a string, number or boolean"
  | .value => "a scalar, a sequence of scalars or a mapping of scalars"
  | .store => "a mapping of parameter names to values"

end Shape

structure Store where
  entries : List (String × Value)
  nodup : (Keyed.keys entries).Nodup

inductive Change
  | bind (name : String) (value : Value)
  | unbind (name : String)
  deriving DecidableEq

namespace Change

def ofOption (name : String) : Option Value → Change
  | some value => .bind name value
  | none => .unbind name

end Change

namespace Store

instance : EmptyCollection Store := ⟨⟨[], List.nodup_nil⟩⟩

def names (s : Store) : List String :=
  Keyed.keys s.entries

def size (s : Store) : Nat :=
  s.entries.length

def isEmpty (s : Store) : Bool :=
  s.entries.isEmpty

def get? (s : Store) (name : String) : Option Value :=
  s.entries.lookup name

def contains (s : Store) (name : String) : Bool :=
  s.names.contains name

def insert (s : Store) (name : String) (value : Value) : Store :=
  ⟨Keyed.insert s.entries name value, Keyed.nodup_insert s.nodup name value⟩

def erase (s : Store) (name : String) : Store :=
  ⟨Keyed.erase s.entries name, Keyed.nodup_erase s.nodup name⟩

def remove (s : Store) (name : String) : Option Value × Store :=
  ((Keyed.remove name s.entries).1,
    ⟨(Keyed.remove name s.entries).2, Keyed.nodup_remove s.nodup name⟩)

def apply (s : Store) : Change → Store
  | .bind name value => s.insert name value
  | .unbind name => s.erase name

def replay (s : Store) (changes : List Change) : Store :=
  changes.foldl apply s

def extend (s : Store) (entries : List (String × Value)) : Store :=
  s.replay (entries.map fun e => .bind e.1 e.2)

def ofList (entries : List (String × Value)) : Store :=
  extend ∅ entries

/-- Equal size, and every entry of the first is in the second. Order does not count. -/
def beq (p q : Store) : Bool :=
  p.size == q.size && p.entries.all fun e => q.get? e.1 == some e.2

instance : BEq Store := ⟨beq⟩

end Store

inductive Scalar
  | int (n : Int)
  | float (x : Binary64)
  | bool (b : Bool)
  | text (s : String)

def boolText (b : Bool) : String :=
  if b then "true" else "false"

def natText (n : Nat) : String :=
  String.ofList (decimalDigits n)

def intText (n : Int) : String :=
  if n < 0 then "-" ++ natText n.natAbs else natText n.natAbs

namespace Scalar

def canonical : Scalar → String
  | .int n => intText n
  | .float x => NumberLayout.plain.text x
  | .bool b => boolText b
  | .text s => s

end Scalar

namespace Store

def bindScalar (s : Store) (name : String) (x : Scalar) : Store :=
  s.insert name (.str x.canonical)

def bindList (s : Store) (name : String) (xs : List Scalar) : Store :=
  s.insert name (.list (xs.map Scalar.canonical))

def bindMap (s : Store) (name : String) (ps : List (String × Scalar)) : Store :=
  s.insert name (.map (ps.map fun (key, x) => (key, x.canonical)))

end Store

end UriExpansion
