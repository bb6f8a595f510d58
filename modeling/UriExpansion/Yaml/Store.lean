import UriExpansion.Params
import UriExpansion.Yaml.Document
import UriExpansion.Yaml.Error

/-!
# Parameters in YAML

A parameter document is a mapping of names to scalars, sequences of scalars or mappings of scalars,
or it is empty. The members act on the store in the order of the text.
-/

namespace UriExpansion

namespace Yaml

/-- A place among the nodes of a document, and the number of aliases followed so far. -/
structure Place where
  index : Nat
  jumps : Nat

/-- A node that was reached, perhaps through an alias, and where reading goes on behind an alias. -/
structure Reached where
  index : Nat
  node : Node
  mark : Mark
  jumps : Nat
  behindAlias : Option Nat

namespace Reached

def after (r : Reached) (stop jumps : Nat) : Place :=
  ⟨r.behindAlias.getD stop, jumps⟩

end Reached

namespace Document

def endError (d : Document) : Error :=
  match d.ending with
  | .unknownAnchor mark => ⟨.unknownAnchor, .root, some mark⟩
  | .malformed | .complete => .ofCause .malformed

def jumpLimit (d : Document) : Nat :=
  d.nodes.size * 100

def nodeAt (d : Document) (i : Nat) : Except Error (Node × Mark) :=
  match d.node? i with
  | some n => .ok n
  | none => .error d.endError

/-- The node at a place. An alias leads to an anchored node, which is no alias. -/
def reach (d : Document) (p : Place) : Except Error Reached := do
  let (node, mark) ← d.nodeAt p.index
  match node with
  | .alias number =>
    if d.jumpLimit ≤ p.jumps then .error (.ofCause .tooManyJumps)
    else
      let target := (d.target? number).getD p.index
      let (node, mark) ← d.nodeAt target
      .ok ⟨target, node, mark, p.jumps + 1, some (p.index + 1)⟩
  | _ => .ok ⟨p.index, node, mark, p.jumps, none⟩

end Document

def Meaning.bound? : Meaning → Option String
  | .null | .wide _ => none
  | .bool b => some (boolText b)
  | .int n => some (Scalar.int n).canonical
  | .float x => some (Scalar.float x).canonical
  | .text s => some s

def isUtf8 (bs : Bytes) : Bool :=
  (ByteArray.mk (bs.map UInt8.ofNat).toArray).validateUTF8

/-- A readable local tag makes a node one of several variants. -/
def isVariant (tag : Option Bytes) : Bool :=
  tag.any fun bs => isLocalTag bs && isUtf8 bs

def mismatch {α : Type} (found : Found) (wanted : Shape) : Except Error α :=
  .error (.ofCause (.mismatch found wanted))

def scalarMeaning (tag : Option Bytes) (text : String) (plain : Bool) : Except Error Meaning :=
  (meaning tag text plain).mapError fun demand => .ofCause (.unmet text demand)

def scalarOf (wanted : Shape) : Node → Except Error String
  | .scalar tag text plain =>
    if isVariant tag then mismatch .variant wanted
    else do
      let m ← scalarMeaning tag text plain
      match m.bound? with
      | some s => .ok s
      | none => mismatch (.ofMeaning m) wanted
  | .sequenceStart tag => mismatch (if isVariant tag then .variant else .sequence) wanted
  | .mappingStart tag => mismatch (if isVariant tag then .variant else .mapping) wanted
  | _ => mismatch .absent wanted

namespace Document

def readScalar (d : Document) (wanted : Shape) (path : Path) (p : Place) :
    Except Error (String × Place) := do
  let r ← d.reach p
  let text ← (scalarOf wanted r.node).mapError (Error.locate r.mark path)
  .ok (text, r.after (r.index + 1) r.jumps)

def readItems (d : Document) (path : Path) : Nat → Nat → Place → Except Error (List String × Place)
  | 0, _, _ => .error d.endError
  | fuel + 1, count, p => do
    let (node, _) ← d.nodeAt p.index
    match node with
    | .sequenceEnd => .ok ([], { p with index := p.index + 1 })
    | _ =>
      let (item, p) ← d.readScalar .scalar (.item path count) p
      let (items, p) ← d.readItems path fuel (count + 1) p
      .ok (item :: items, p)

def memberPath (path : Path) : Node → Path
  | .scalar _ key _ => .member path key
  | _ => .unnamed path

def readPairs (d : Document) (path : Path) :
    Nat → Place → Except Error (List (String × String) × Place)
  | 0, _ => .error d.endError
  | fuel + 1, p => do
    let (node, _) ← d.nodeAt p.index
    match node with
    | .mappingEnd => .ok ([], { p with index := p.index + 1 })
    | _ =>
      let (key, p) ← d.readScalar .scalar path p
      let (value, p) ← d.readScalar .scalar (memberPath path node) p
      let (pairs, p) ← d.readPairs path fuel p
      .ok ((key, value) :: pairs, p)

/-- The value of a node that was reached. Every entry takes a node, also through an alias. -/
def valueOf (d : Document) (path : Path) (r : Reached) : Except Error (Value × Place) :=
  let inside : Place := ⟨r.index + 1, r.jumps⟩
  let result : Except Error (Value × Place) := match r.node with
    | .sequenceStart tag =>
      if isVariant tag then mismatch .variant .value
      else (d.readItems path (d.nodes.size + 1) 0 inside).map fun (items, p) => (.list items, p)
    | .mappingStart tag =>
      if isVariant tag then mismatch .variant .value
      else (d.readPairs path (d.nodes.size + 1) inside).map fun (pairs, p) => (.map pairs, p)
    | node => (scalarOf .value node).map fun text => (.str text, inside)
  match result with
  | .ok (v, p) => .ok (v, r.after p.index p.jumps)
  | .error e => .error (e.locate r.mark path)

/-- Whether a member has no value. A tag that demands null refuses everything else. -/
def isNull : Node → Except Error Bool
  | .absent => .ok true
  | .scalar none text true => .ok (text.isEmpty || isNullWord text)
  | .scalar (some tag) text true =>
    if CoreTag.ofBytes? tag = some .null then
      if isNullWord text then .ok true else .error (.ofCause (.unmet text .null))
    else .ok false
  | _ => .ok false

def readMember (d : Document) (path : Path) (p : Place) :
    Except Error (Option Value × Place) := do
  let r ← d.reach p
  if ← isNull r.node then .ok (none, r.after (r.index + 1) r.jumps)
  else
    let (v, p) ← d.valueOf path r
    .ok (some v, p)

/-- A name is the text of a scalar, whatever it means. Tags do not matter. -/
def nameOf : Node → Except Error String
  | .scalar _ text _ => .ok text
  | .sequenceStart _ => mismatch .sequence .name
  | .mappingStart _ => mismatch .mapping .name
  | _ => mismatch .absent .name

def readName (d : Document) (path : Path) (p : Place) : Except Error (String × Place) := do
  let r ← d.reach p
  let name ← (nameOf r.node).mapError (Error.locate r.mark path)
  .ok (name, r.after (r.index + 1) r.jumps)

def readChanges (d : Document) : Nat → Place → Except Error (List Change)
  | 0, _ => .error d.endError
  | fuel + 1, p => do
    let (node, _) ← d.nodeAt p.index
    match node with
    | .mappingEnd => .ok []
    | _ =>
      let (name, p) ← d.readName .root p
      let (value, p) ← d.readMember (memberPath .root node) p
      let changes ← d.readChanges fuel p
      .ok (.ofOption name value :: changes)

def changes (d : Document) : Except Error (List Change) := do
  let r ← d.reach ⟨0, 0⟩
  let result := match r.node with
    | .mappingStart _ => d.readChanges (d.nodes.size + 1) ⟨r.index + 1, r.jumps⟩
    | .absent => .ok []
    | .scalar tag text plain =>
      if plain && text.isEmpty then .ok []
      else do
        let m ← scalarMeaning tag text plain
        mismatch (.ofMeaning m) .store
    | _ => mismatch .sequence .store
  result.mapError (Error.locate r.mark .root)

def readValue (d : Document) : Except Error Value := do
  let r ← d.reach ⟨0, 0⟩
  (d.valueOf .root r).map Prod.fst

end Document

/-- Reads the only document of a text. A fault of a node is reported before a malformed rest. -/
def readText {α : Type} (read : Document → Except Error α) (text : String) : Except Error α := do
  let (d, further) := Document.load text
  let x ← read d
  match d.ending with
  | .complete => if further then .error (.ofCause .severalDocuments) else .ok x
  | _ => .error d.endError

def parseChanges (text : String) : Except Error (List Change) :=
  readText Document.changes text

end Yaml

namespace Value

def parseYaml (text : String) : Except Yaml.Error Value :=
  Yaml.readText Yaml.Document.readValue text

end Value

end UriExpansion
