import UriExpansion.Yaml.Token.Scan

/-!
# Events

The nodes of a document come in order, with the ends of collections; an omitted node is an empty
plain scalar. The tokens of a stream are read by an automaton with a stack. Every step answers one
event, and the state says which construct the next token continues.
-/

namespace UriExpansion

namespace Yaml

structure Properties where
  anchor : Option String
  tag : Option Bytes

namespace Properties

def none : Properties := ⟨.none, .none⟩

end Properties

inductive Event.Kind
  | streamStart
  | streamEnd
  | documentStart
  | documentEnd
  | alias (name : String)
  | scalar (props : Properties) (text : String) (plain : Bool)
  | sequenceStart (props : Properties)
  | sequenceEnd
  | mappingStart (props : Properties)
  | mappingEnd

structure Event where
  kind : Event.Kind
  mark : Mark

inductive Expecting
  | streamStart
  | document (first : Bool)
  | documentContent
  | documentEnd
  | blockNode
  | blockEntry (first : Bool)
  | indentlessEntry
  | blockKey (first : Bool)
  | blockValue
  | flowEntry (first : Bool)
  | pairKey
  | pairValue
  | pairEnd
  | flowKey (first : Bool)
  | flowValue
  | flowNoValue
  | nothing
  deriving DecidableEq

structure Automaton where
  tokens : List Token
  expecting : Expecting
  stack : List Expecting
  handles : List (String × Bytes)

abbrev Step := Option (Event × Automaton)

namespace Automaton

def start (tokens : List Token) : Automaton :=
  ⟨tokens, .streamStart, [], []⟩

def expect (a : Automaton) (e : Expecting) : Automaton :=
  { a with expecting := e }

def push (a : Automaton) (e : Expecting) : Automaton :=
  { a with stack := e :: a.stack }

def pop (a : Automaton) : Automaton :=
  match a.stack with
  | e :: rest => { a with expecting := e, stack := rest }
  | [] => { a with expecting := .nothing }

def skip (a : Automaton) : Automaton :=
  { a with tokens := a.tokens.tail }

def peek (a : Automaton) : Option Token :=
  a.tokens.head?

def emit (a : Automaton) (kind : Event.Kind) (mark : Mark) : Step :=
  some (⟨kind, mark⟩, a)

def emitEmpty (a : Automaton) (mark : Mark) : Step :=
  a.emit (.scalar .none "" true) mark

def defaultHandles : List (String × Bytes) :=
  [("!", Bytes.ofAscii "!"), ("!!", Bytes.ofAscii "tag:yaml.org,2002:")]

/-- The directives before a document: whether a version was given, and the handles. A directive must
not be repeated, and the version has to be known. -/
def readDirectives : List Token → Bool → List (String × Bytes) →
    Option (List (String × Bytes) × List Token)
  | [], _, _ => none
  | t :: ts, versioned, handles =>
    match t.kind with
    | .version major minor =>
      if versioned || major ≠ 1 || (minor ≠ 1 && minor ≠ 2) then none
      else readDirectives ts true handles
    | .tagDirective handle lead =>
      if (handles.lookup handle).isSome then none
      else readDirectives ts versioned (handles ++ [(handle, lead)])
    | _ => some (handles ++ defaultHandles, t :: ts)

def resolveTag (a : Automaton) (handle : String) (rest : Bytes) : Option Bytes :=
  if handle.isEmpty then some rest
  else (a.handles.lookup handle).map (· ++ rest)

def takeAnchor (a : Automaton) : Option String × Automaton :=
  match a.peek with
  | some ⟨.anchor name, _, _⟩ => (some name, a.skip)
  | _ => (none, a)

def takeTag (a : Automaton) : Option (Option Bytes × Automaton) :=
  match a.peek with
  | some ⟨.tag handle rest, _, _⟩ => (a.resolveTag handle rest).map fun tag => (some tag, a.skip)
  | _ => some (none, a)

def takeProperties (a : Automaton) : Option (Properties × Automaton) := do
  let (first, a) := a.takeAnchor
  let (tag, a) ← a.takeTag
  let (second, a) := if first.isNone && tag.isSome then a.takeAnchor else (none, a)
  some (⟨first.or second, tag⟩, a)

/-- A node. Block collections are nodes of a block only; the entries of a sequence that is the value
of a key need not be indented. -/
def node (a : Automaton) (inBlock indentless : Bool) : Step := do
  let first ← a.peek
  match first.kind with
  | .alias name => a.skip.pop.emit (.alias name) first.start
  | _ =>
    let (props, a) ← a.takeProperties
    let t ← a.peek
    match t.kind, inBlock, indentless with
    | .blockEntry, _, true => (a.expect .indentlessEntry).emit (.sequenceStart props) first.start
    | .scalar text plain, _, _ => a.skip.pop.emit (.scalar props text plain) first.start
    | .flowSequenceStart, _, _ =>
      (a.expect (.flowEntry true)).emit (.sequenceStart props) first.start
    | .flowMappingStart, _, _ =>
      (a.expect (.flowKey true)).emit (.mappingStart props) first.start
    | .blockSequenceStart, true, _ =>
      (a.expect (.blockEntry true)).emit (.sequenceStart props) first.start
    | .blockMappingStart, true, _ =>
      (a.expect (.blockKey true)).emit (.mappingStart props) first.start
    | _, _, _ =>
      if props.anchor.isSome || props.tag.isSome then
        a.pop.emit (.scalar props "" true) first.start
      else none

def nodeUnless (a : Automaton) (ends : Token.Kind → Bool) (after : Expecting)
    (inBlock indentless : Bool) (emptyMark : Token → Mark) : Step := do
  let t ← a.peek
  if ends t.kind then (a.expect after).emitEmpty (emptyMark t)
  else (a.push after).node inBlock indentless

def skipDocumentEnds (a : Automaton) : Automaton :=
  { a with tokens := a.tokens.dropWhile (·.kind = .documentEnd) }

def document (a : Automaton) (first : Bool) : Step := do
  let a := if first then a else a.skipDocumentEnds
  let t ← a.peek
  match t.kind, first with
  | .streamEnd, _ => (a.skip.expect .nothing).emit .streamEnd t.start
  | .version _ _, _ | .tagDirective _ _, _ | .documentStart, _ | _, false =>
    let (handles, tokens) ← readDirectives a.tokens false []
    match tokens with
    | ⟨.documentStart, _, _⟩ :: rest =>
      (({ a with handles, tokens := rest }.push .documentEnd).expect .documentContent).emit
        .documentStart t.start
    | _ => none
  | _, true =>
    (({ a with handles := defaultHandles }.push .documentEnd).expect .blockNode).emit
      .documentStart t.start

def documentContent (a : Automaton) : Step := do
  let t ← a.peek
  match t.kind with
  | .version _ _ | .tagDirective _ _ | .documentStart | .documentEnd | .streamEnd =>
    a.pop.emitEmpty t.start
  | _ => a.node true false

def documentEnd (a : Automaton) : Step := do
  let t ← a.peek
  let a := if t.kind = .documentEnd then a.skip else a
  (a.expect (.document false)).emit .documentEnd t.start

def blockEntry (a : Automaton) (first : Bool) : Step := do
  let a := if first then a.skip else a
  let t ← a.peek
  match t.kind with
  | .blockEntry =>
    a.skip.nodeUnless (fun k => k = .blockEntry || k = .blockEnd) (.blockEntry false) true false
      fun _ => t.stop
  | .blockEnd => a.skip.pop.emit .sequenceEnd t.start
  | _ => none

def indentlessEntry (a : Automaton) : Step := do
  let t ← a.peek
  match t.kind with
  | .blockEntry =>
    a.skip.nodeUnless (fun k => k = .blockEntry || k = .key || k = .value || k = .blockEnd)
      .indentlessEntry true false fun _ => t.stop
  | _ => a.pop.emit .sequenceEnd t.start

def endsBlockPart (k : Token.Kind) : Bool :=
  k = .key || k = .value || k = .blockEnd

def blockKey (a : Automaton) (first : Bool) : Step := do
  let a := if first then a.skip else a
  let t ← a.peek
  match t.kind with
  | .key => a.skip.nodeUnless endsBlockPart .blockValue true true fun _ => t.stop
  | .blockEnd => a.skip.pop.emit .mappingEnd t.start
  | _ => none

def blockValue (a : Automaton) : Step := do
  let t ← a.peek
  match t.kind with
  | .value => a.skip.nodeUnless endsBlockPart (.blockKey false) true true fun _ => t.stop
  | _ => (a.expect (.blockKey false)).emitEmpty t.start

def takeComma (a : Automaton) (first : Bool) : Option Automaton := do
  let t ← a.peek
  if first then some a
  else if t.kind = .flowEntry then some a.skip
  else none

def flowEntry (a : Automaton) (first : Bool) : Step := do
  let a := if first then a.skip else a
  let t ← a.peek
  if t.kind = .flowSequenceEnd then a.skip.pop.emit .sequenceEnd t.start
  else
    let a ← a.takeComma first
    let t ← a.peek
    match t.kind with
    | .key => (a.skip.expect .pairKey).emit (.mappingStart .none) t.start
    | .flowSequenceEnd => a.skip.pop.emit .sequenceEnd t.start
    | _ => (a.push (.flowEntry false)).node false false

/-- An omitted key takes the token ahead with it. -/
def pairKey (a : Automaton) : Step := do
  let t ← a.peek
  match t.kind with
  | .value | .flowEntry | .flowSequenceEnd => (a.skip.expect .pairValue).emitEmpty t.stop
  | _ => (a.push .pairValue).node false false

def pairValue (a : Automaton) : Step := do
  let t ← a.peek
  match t.kind with
  | .value =>
    a.skip.nodeUnless (fun k => k = .flowEntry || k = .flowSequenceEnd) .pairEnd false false
      Token.start
  | _ => (a.expect .pairEnd).emitEmpty t.start

def pairEnd (a : Automaton) : Step := do
  let t ← a.peek
  (a.expect (.flowEntry false)).emit .mappingEnd t.start

def flowKey (a : Automaton) (first : Bool) : Step := do
  let a := if first then a.skip else a
  let t ← a.peek
  if t.kind = .flowMappingEnd then a.skip.pop.emit .mappingEnd t.start
  else
    let a ← a.takeComma first
    let t ← a.peek
    match t.kind with
    | .key =>
      a.skip.nodeUnless (fun k => k = .value || k = .flowEntry || k = .flowMappingEnd) .flowValue
        false false Token.start
    | .flowMappingEnd => a.skip.pop.emit .mappingEnd t.start
    | _ => (a.push .flowNoValue).node false false

def flowValue (a : Automaton) : Step := do
  let t ← a.peek
  match t.kind with
  | .value =>
    a.skip.nodeUnless (fun k => k = .flowEntry || k = .flowMappingEnd) (.flowKey false) false false
      Token.start
  | _ => (a.expect (.flowKey false)).emitEmpty t.start

def flowNoValue (a : Automaton) : Step := do
  let t ← a.peek
  (a.expect (.flowKey false)).emitEmpty t.start

def step (a : Automaton) : Step :=
  match a.expecting with
  | .streamStart => do
    let t ← a.peek
    (a.skip.expect (.document true)).emit .streamStart t.start
  | .document first => a.document first
  | .documentContent => a.documentContent
  | .documentEnd => a.documentEnd
  | .blockNode => a.node true false
  | .blockEntry first => a.blockEntry first
  | .indentlessEntry => a.indentlessEntry
  | .blockKey first => a.blockKey first
  | .blockValue => a.blockValue
  | .flowEntry first => a.flowEntry first
  | .pairKey => a.pairKey
  | .pairValue => a.pairValue
  | .pairEnd => a.pairEnd
  | .flowKey first => a.flowKey first
  | .flowValue => a.flowValue
  | .flowNoValue => a.flowNoValue
  | .nothing => none

def run : Nat → Automaton → List Event
  | 0, _ => []
  | fuel + 1, a =>
    match a.step with
    | none => []
    | some (e, a) => e :: run fuel a

end Automaton

namespace Event

/-- The events of a text, which end with the end of the stream when the text is well formed. Between
two tokens there are at most as many events as there are constructs to close or to leave empty. -/
def parse (text : String) : List Event :=
  let (tokens, _) := Token.scan text
  (Automaton.start tokens).run (8 * tokens.length + 8)

end Event

end Yaml

end UriExpansion
