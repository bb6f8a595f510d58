import UriExpansion.Yaml.Token.Block
import UriExpansion.Yaml.Token.Flow

/-!
# Reading tokens

Tokens are read one after the other. A block collection has no brackets: it begins where a line is
indented further than the block around it, and ends where a line is indented less. Whether a token
begins a key is known only when a colon follows it, so tokens wait in a queue until no key can begin
at the first of them.
-/

namespace UriExpansion

namespace Yaml

/-- A place where a key may have begun: the number of its first token and its mark. A required key
begins a line at the indentation of its block. -/
structure KeyStart where
  number : Nat
  mark : Mark
  required : Bool

structure Scanner where
  cursor : Cursor
  indent : Int
  outerIndents : List Int
  keys : List (Option KeyStart)
  keyAllowed : Bool
  queue : List Token
  delivered : Nat

namespace Scanner

def start (text : String) : Scanner :=
  let c := Cursor.start text
  { cursor := c
    indent := -1
    outerIndents := []
    keys := [none]
    keyAllowed := true
    queue := [⟨.streamStart, c.mark, c.mark⟩]
    delivered := 0 }

def mark (s : Scanner) : Mark :=
  s.cursor.mark

def inFlow (s : Scanner) : Bool :=
  1 < s.keys.length

def enqueue (s : Scanner) (t : Token) : Scanner :=
  { s with queue := s.queue ++ [t] }

def enqueueAt (s : Scanner) (number : Nat) (t : Token) : Scanner :=
  { s with queue := s.queue.insertIdx (number - s.delivered) t }

/-- Whether a key that began there can no longer be one: its line is over, or it is too long. -/
def isStale (now : Mark) (k : KeyStart) : Bool :=
  k.mark.line < now.line || k.mark.index + 1024 < now.index

def dropStale (s : Scanner) : Option Scanner :=
  let stale (k : Option KeyStart) : Bool := k.any (isStale s.mark)
  if s.keys.any fun k => stale k && k.any KeyStart.required then none
  else some { s with keys := s.keys.map fun k => if stale k then none else k }

def setKey (k : Option KeyStart) : List (Option KeyStart) → List (Option KeyStart)
  | [] => [k]
  | _ :: ks => k :: ks

def currentKey (s : Scanner) : Option KeyStart :=
  s.keys.head?.join

def dropKey (s : Scanner) : Option Scanner :=
  if s.currentKey.any KeyStart.required then none
  else some { s with keys := setKey none s.keys }

def noteKey (s : Scanner) : Option Scanner :=
  if s.keyAllowed then do
    let k : KeyStart :=
      { number := s.delivered + s.queue.length
        mark := s.mark
        required := !s.inFlow && s.indent = s.mark.column }
    let s ← s.dropKey
    some { s with keys := setKey (some k) s.keys }
  else some s

def openBlock (s : Scanner) (number : Option Nat) (kind : Token.Kind) (mark : Mark) : Scanner :=
  if !s.inFlow && s.indent < mark.column then
    let t : Token := ⟨kind, mark, mark⟩
    let s := { s with indent := mark.column, outerIndents := s.indent :: s.outerIndents }
    match number with
    | some n => s.enqueueAt n t
    | none => s.enqueue t
  else s

def closeBlocksFrom (column : Int) (mark : Mark) :
    List Int → Int → List Token → List Int × Int × List Token
  | [], indent, ts => ([], indent, ts)
  | outer :: outers, indent, ts =>
    if column < indent then
      closeBlocksFrom column mark outers outer (ts ++ [⟨.blockEnd, mark, mark⟩])
    else (outer :: outers, indent, ts)

def closeBlocks (s : Scanner) (column : Int) : Scanner :=
  if s.inFlow then s
  else
    let (outers, indent, ts) := closeBlocksFrom column s.mark s.outerIndents s.indent []
    { s with outerIndents := outers, indent := indent, queue := s.queue ++ ts }

/-- Passes blanks, comments and breaks. A tab is no indentation, so it stops where a key may
begin. -/
def skipSpace : Nat → Scanner → Scanner
  | 0, s => s
  | fuel + 1, s =>
    let blank (x : Char) : Bool := x = ' ' || ((s.inFlow || !s.keyAllowed) && x = '\t')
    let c := (s.cursor.skip blank).skipComment
    if c.seesAt 0 isBreak then
      skipSpace fuel
        { s with cursor := c.takeBreak.2, keyAllowed := s.keyAllowed || !s.inFlow }
    else { s with cursor := c }

def emit (s : Scanner) (kind : Token.Kind) (c : Cursor) : Scanner :=
  { s.enqueue ⟨kind, s.mark, c.mark⟩ with cursor := c }

def withKey (s : Scanner) (read : Scanner → Option (Token.Kind × Cursor)) : Option Scanner := do
  let s ← s.noteKey
  let (kind, c) ← read s
  some ({ s with keyAllowed := false }.emit kind c)

def fetchEnd (s : Scanner) : Option Scanner := do
  let m := s.mark
  let m := if m.column = 0 then m else { m with line := m.line + 1, column := 0 }
  let s := { s with cursor := { s.cursor with mark := m } }.closeBlocks (-1)
  let s ← s.dropKey
  some ({ s with keyAllowed := false }.emit .streamEnd s.cursor)

def fetchDirective (s : Scanner) : Option Scanner := do
  let s ← (s.closeBlocks (-1)).dropKey
  let (kind, stop, c) ← readDirective s.cursor.next
  some { s.enqueue ⟨kind, s.mark, stop⟩ with cursor := c, keyAllowed := false }

def fetchDocumentIndicator (s : Scanner) (kind : Token.Kind) : Option Scanner := do
  let s ← (s.closeBlocks (-1)).dropKey
  some ({ s with keyAllowed := false }.emit kind (s.cursor.nextN 3))

def fetchFlowStart (s : Scanner) (kind : Token.Kind) : Option Scanner := do
  let s ← s.noteKey
  some ({ s with keys := none :: s.keys, keyAllowed := true }.emit kind s.cursor.next)

def fetchFlowEnd (s : Scanner) (kind : Token.Kind) : Option Scanner := do
  let s ← s.dropKey
  let keys := if s.inFlow then s.keys.tail else s.keys
  some ({ s with keys, keyAllowed := false }.emit kind s.cursor.next)

def fetchFlowEntry (s : Scanner) : Option Scanner := do
  let s ← s.dropKey
  some ({ s with keyAllowed := true }.emit .flowEntry s.cursor.next)

def fetchBlockEntry (s : Scanner) : Option Scanner :=
  if !s.inFlow && !s.keyAllowed then none
  else do
    let s ← (s.openBlock none .blockSequenceStart s.mark).dropKey
    some ({ s with keyAllowed := true }.emit .blockEntry s.cursor.next)

def fetchKey (s : Scanner) : Option Scanner :=
  if !s.inFlow && !s.keyAllowed then none
  else do
    let s ← (s.openBlock none .blockMappingStart s.mark).dropKey
    some ({ s with keyAllowed := !s.inFlow }.emit .key s.cursor.next)

/-- A colon. If a key may have begun before, it did, and its block too. -/
def fetchValue (s : Scanner) : Option Scanner :=
  match s.currentKey with
  | some k =>
    let s := (s.enqueueAt k.number ⟨.key, k.mark, k.mark⟩).openBlock
      (some k.number) .blockMappingStart k.mark
    some ({ s with keys := setKey none s.keys, keyAllowed := false }.emit .value s.cursor.next)
  | none =>
    if !s.inFlow && !s.keyAllowed then none
    else
      let s := s.openBlock none .blockMappingStart s.mark
      some ({ s with keyAllowed := !s.inFlow }.emit .value s.cursor.next)

def fetchBlockScalar (s : Scanner) (folded : Bool) : Option Scanner := do
  let s ← s.dropKey
  let (kind, c) ← readBlock folded s.indent s.cursor.next
  some ({ s with keyAllowed := true }.emit kind c)

def fetchPlain (s : Scanner) : Option Scanner := do
  let s ← s.noteKey
  let p ← readPlain s.inFlow (s.indent + 1) s.cursor
  some { s.enqueue ⟨.scalar p.text true, s.mark, p.stop⟩ with
    cursor := p.cursor, keyAllowed := p.broken }

def isIndicator (c : Char) : Bool :=
  ['-', '?', ':', ',', '[', ']', '\x7b', '\x7d', '#', '&', '*', '!', '|', '>', '\'', '"', '%', '@',
    '`'].contains c

def beginsPlain (s : Scanner) (x : Char) : Bool :=
  !(isBlank x || isBreak x || isIndicator x) ||
    (x = '-' && !s.cursor.seesAt 1 isBlank) ||
    (!s.inFlow && (x = '?' || x = ':') && !s.cursor.blankOrEnd 1)

def fetchFrom (s : Scanner) (x : Char) : Option Scanner :=
  let c := s.cursor
  if c.mark.column = 0 && x = '%' then s.fetchDirective
  else if c.seesIndicator '-' then s.fetchDocumentIndicator .documentStart
  else if c.seesIndicator '.' then s.fetchDocumentIndicator .documentEnd
  else if x = '[' then s.fetchFlowStart .flowSequenceStart
  else if x = '\x7b' then s.fetchFlowStart .flowMappingStart
  else if x = ']' then s.fetchFlowEnd .flowSequenceEnd
  else if x = '\x7d' then s.fetchFlowEnd .flowMappingEnd
  else if x = ',' then s.fetchFlowEntry
  else if x = '-' && c.blankOrEnd 1 then s.fetchBlockEntry
  else if x = '?' && (s.inFlow || c.blankOrEnd 1) then s.fetchKey
  else if x = ':' && (s.inFlow || c.blankOrEnd 1) then s.fetchValue
  else if x = '*' then s.withKey fun s => (readName s.cursor.next).map fun (n, c) => (.alias n, c)
  else if x = '&' then s.withKey fun s => (readName s.cursor.next).map fun (n, c) => (.anchor n, c)
  else if x = '!' then s.withKey fun s => readTag s.inFlow s.cursor
  else if x = '|' && !s.inFlow then s.fetchBlockScalar false
  else if x = '>' && !s.inFlow then s.fetchBlockScalar true
  else if x = '\'' || x = '"' then s.withKey fun s => readQuoted x s.cursor.next
  else if s.beginsPlain x then s.fetchPlain
  else none

def fetch (s : Scanner) : Option Scanner := do
  let s ← (s.skipSpace (s.cursor.rest.length + 1)).dropStale
  let s := s.closeBlocks s.mark.column
  match s.cursor.rest with
  | [] => s.fetchEnd
  | x :: _ => s.fetchFrom x

/-- Whether the first token of the queue might yet turn out to be a key. -/
def waits (s : Scanner) : Bool :=
  s.keys.any fun k => k.any (·.number = s.delivered)

def deliver : List Token → Scanner → List Token × Scanner
  | [], s => ([], s)
  | t :: ts, s =>
    if s.waits then ([], s)
    else
      let (out, s) := deliver ts { s with queue := ts, delivered := s.delivered + 1 }
      (t :: out, s)

def run : Nat → Scanner → List Token × Bool
  | 0, _ => ([], false)
  | fuel + 1, s =>
    match if s.queue.isEmpty then some s else s.dropStale with
    | none => ([], false)
    | some s =>
      let (out, s) := deliver s.queue s
      if out.any (·.kind = .streamEnd) then (out, true)
      else
        match s.fetch with
        | none => (out, false)
        | some s =>
          let (further, complete) := run fuel s
          (out ++ further, complete)

end Scanner

def Token.scan (text : String) : List Token × Bool :=
  let s := Scanner.start text
  if s.cursor.rest.all isAllowed then s.run (s.cursor.rest.length + 4) else ([], false)

end Yaml

end UriExpansion
