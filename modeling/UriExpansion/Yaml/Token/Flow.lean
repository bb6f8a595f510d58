import UriExpansion.Decimal.Reading
import UriExpansion.Yaml.Token.Basic

/-!
# Plain and quoted scalars

A scalar may go over several lines. Blanks around a break are dropped, a single line feed becomes a
space, and further breaks are kept. A plain scalar ends at a colon before a blank, at a comment, at
a less indented line, at a line that separates documents, and inside a flow collection at a flow
indicator. Between single quotes a quote is written twice. Between double quotes a backslash begins
an escape, or joins two lines.
-/

namespace UriExpansion

namespace Yaml

structure Gap where
  blanks : String
  broken : Bool
  firstBreak : String
  furtherBreaks : String

namespace Gap

def empty : Gap := ⟨"", false, "", ""⟩

def afterEscapedBreak : Gap := ⟨"", true, "", ""⟩

def text (g : Gap) : String :=
  if g.broken then
    if g.firstBreak.startsWith "\n" then
      if g.furtherBreaks.isEmpty then " " else g.furtherBreaks
    else g.firstBreak ++ g.furtherBreaks
  else g.blanks

end Gap

/-- Reads blanks and breaks, at most `fuel` of them. Where a least column is given, no tab may stand
before it on a further line. -/
def readGap (column : Option Int) : Nat → Gap → Cursor → Option (Gap × Cursor)
  | 0, g, c => some (g, c)
  | fuel + 1, g, c =>
    match c.rest with
    | [] => some (g, c)
    | x :: _ =>
      if isBlank x then
        if g.broken then
          if x = '\t' && column.any fun least => (c.mark.column : Int) < least then none
          else readGap column fuel g c.next
        else readGap column fuel { g with blanks := g.blanks.push x } c.next
      else if isBreak x then
        let (text, c) := c.takeBreak
        if g.broken then
          readGap column fuel { g with furtherBreaks := g.furtherBreaks ++ text } c
        else readGap column fuel { g with broken := true, firstBreak := text } c
      else some (g, c)

def isFlowIndicator (c : Char) : Bool :=
  [',', '[', ']', '\x7b', '\x7d'].contains c

def readPlainWord (inFlow : Bool) : Nat → String → Cursor → Option (String × Cursor)
  | 0, text, c => some (text, c)
  | fuel + 1, text, c =>
    match c.rest with
    | [] => some (text, c)
    | x :: _ =>
      if isBlank x || isBreak x then some (text, c)
      else if inFlow && x = ':' && c.seesAt 1 (fun y => isFlowIndicator y || y = '?') then none
      else if x = ':' && c.blankOrEnd 1 then some (text, c)
      else if inFlow && isFlowIndicator x then some (text, c)
      else readPlainWord inFlow fuel (text.push x) c.next

structure PlainScalar where
  text : String
  stop : Mark
  broken : Bool
  cursor : Cursor

def readPlainWords (inFlow : Bool) (column : Int) :
    Nat → String → Mark → Gap → Cursor → Option PlainScalar
  | 0, text, stop, gap, c => some ⟨text, stop, gap.broken, c⟩
  | fuel + 1, text, stop, gap, c =>
    if c.seesDocumentIndicator || c.sees '#' then some ⟨text, stop, gap.broken, c⟩
    else do
      let (word, c) ← readPlainWord inFlow c.rest.length "" c
      if word.isEmpty then some ⟨text, stop, gap.broken, c⟩
      else
        let text := text ++ gap.text ++ word
        let stop := c.mark
        if c.seesAt 0 isBlank || c.seesAt 0 isBreak then
          let (gap, c) ← readGap (some column) c.rest.length .empty c
          if !inFlow && (c.mark.column : Int) < column then some ⟨text, stop, gap.broken, c⟩
          else readPlainWords inFlow column fuel text stop gap c
        else some ⟨text, stop, false, c⟩

def readPlain (inFlow : Bool) (column : Int) (c : Cursor) : Option PlainScalar :=
  readPlainWords inFlow column (c.rest.length + 1) "" c.mark .empty c

def simpleEscape? : Char → Option Char
  | '0' => some '\x00'
  | 'a' => some '\x07'
  | 'b' => some '\x08'
  | 't' | '\t' => some '\t'
  | 'n' => some '\n'
  | 'v' => some '\x0b'
  | 'f' => some '\x0c'
  | 'r' => some '\r'
  | 'e' => some '\x1b'
  | ' ' => some ' '
  | '"' => some '"'
  | '/' => some '/'
  | '\\' => some '\\'
  | 'N' => some '\u0085'
  | '_' => some '\u00a0'
  | 'L' => some '\u2028'
  | 'P' => some '\u2029'
  | _ => none

def escapeWidth? : Char → Option Nat
  | 'x' => some 2
  | 'u' => some 4
  | 'U' => some 8
  | _ => none

def scalarValue? (n : Nat) : Option Char :=
  if n.isValidChar then some (Char.ofNat n) else none

def readEscape (c : Cursor) : Option (Char × Cursor) := do
  let letter ← c.ahead 1
  match simpleEscape? letter with
  | some x => some (x, c.nextN 2)
  | none =>
    let width ← escapeWidth? letter
    let digits := (c.rest.drop 2).take width
    if digits.length < width then none
    else
      let x ← scalarValue? (← natOfBase? 16 digits)
      some (x, c.nextN (2 + width))

def readQuotedWord (quote : Char) : Nat → String → Cursor → Option (String × Bool × Cursor)
  | 0, text, c => some (text, false, c)
  | fuel + 1, text, c =>
    match c.rest with
    | [] => some (text, false, c)
    | x :: rest =>
      if isBlank x || isBreak x then some (text, false, c)
      else if x = quote then
        if quote = '\'' && rest.head? = some '\'' then
          readQuotedWord quote fuel (text.push '\'') (c.nextN 2)
        else some (text, false, c)
      else if quote = '"' && x = '\\' then
        if c.seesAt 1 isBreak then some (text, true, c.next.takeBreak.2)
        else do
          let (y, c) ← readEscape c
          readQuotedWord quote fuel (text.push y) c
      else readQuotedWord quote fuel (text.push x) c.next

def readQuotedText (quote : Char) : Nat → String → Cursor → Option (String × Cursor)
  | 0, _, _ => none
  | fuel + 1, text, c =>
    if c.seesDocumentIndicator || c.rest.isEmpty then none
    else do
      let (text, joined, c) ← readQuotedWord quote c.rest.length text c
      if c.sees quote then some (text, c.next)
      else
        let gap := if joined then Gap.afterEscapedBreak else Gap.empty
        let (gap, c) ← readGap none c.rest.length gap c
        readQuotedText quote fuel (text ++ gap.text) c

def readQuoted (quote : Char) (c : Cursor) : Option (Token.Kind × Cursor) := do
  let (text, c) ← readQuotedText quote (c.rest.length + 1) "" c
  some (.scalar text false, c)

end Yaml

end UriExpansion
