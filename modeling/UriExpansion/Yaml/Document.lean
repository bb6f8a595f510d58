import UriExpansion.Keyed
import UriExpansion.Yaml.Event

/-!
# Documents

A document is a row of nodes. An anchor gets the number of anchor names before it, and an alias
refers to the node that holds its number when the document is complete.
-/

namespace UriExpansion

namespace Yaml

inductive Node
  /-- Stands for the missing document of an empty stream. -/
  | absent
  | alias (number : Nat)
  | scalar (tag : Option Bytes) (text : String) (plain : Bool)
  | sequenceStart (tag : Option Bytes)
  | sequenceEnd
  | mappingStart (tag : Option Bytes)
  | mappingEnd

inductive Ending
  | complete
  | malformed
  | unknownAnchor (mark : Mark)

structure Document where
  nodes : Array (Node × Mark)
  /-- The places of anchored nodes, the latest first. -/
  anchored : List (Nat × Nat)
  ending : Ending

namespace Document

def node? (d : Document) (i : Nat) : Option (Node × Mark) :=
  d.nodes[i]?

def target? (d : Document) (number : Nat) : Option Nat :=
  d.anchored.lookup number

end Document

structure Loading where
  nodes : Array (Node × Mark)
  anchored : List (Nat × Nat)
  numbers : List (String × Nat)

namespace Loading

def empty : Loading := ⟨#[], [], []⟩

def finish (l : Loading) (ending : Ending) : Document :=
  ⟨l.nodes, l.anchored, ending⟩

def push (l : Loading) (anchor : Option String) (n : Node) (mark : Mark) : Loading :=
  let l := match anchor with
    | none => l
    | some name =>
      { l with
        anchored := (l.numbers.length, l.nodes.size) :: l.anchored
        numbers := Keyed.insert l.numbers name l.numbers.length }
  { l with nodes := l.nodes.push (n, mark) }

def run : List Event → Loading → Document × Bool
  | [], l => (l.finish .malformed, true)
  | e :: es, l =>
    match e.kind with
    | .streamStart | .documentStart => run es l
    | .streamEnd => ((l.push none .absent e.mark).finish .complete, false)
    | .documentEnd =>
      let further := match es with
        | ⟨.streamEnd, _⟩ :: _ => false
        | _ => true
      (l.finish .complete, further)
    | .alias name =>
      match l.numbers.lookup name with
      | none => (l.finish (.unknownAnchor e.mark), true)
      | some number => run es (l.push none (.alias number) e.mark)
    | .scalar props text plain => run es (l.push props.anchor (.scalar props.tag text plain) e.mark)
    | .sequenceStart props => run es (l.push props.anchor (.sequenceStart props.tag) e.mark)
    | .sequenceEnd => run es (l.push none .sequenceEnd e.mark)
    | .mappingStart props => run es (l.push props.anchor (.mappingStart props.tag) e.mark)
    | .mappingEnd => run es (l.push none .mappingEnd e.mark)

end Loading

def Document.load (text : String) : Document × Bool :=
  Loading.empty.run (Event.parse text)

end Yaml

end UriExpansion
