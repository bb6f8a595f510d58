import UriExpansion.Decimal.Reading
import UriExpansion.Yaml.Token.Property

/-!
# Block scalars

A literal scalar keeps its breaks. A folded one joins lines by a space, unless one of them begins
with a blank. The header says how the breaks at the end are treated and may give the indentation.
-/

namespace UriExpansion

namespace Yaml

inductive Chomp
  | strip
  | clip
  | keep
  deriving DecidableEq

def chomp? : Char → Option Chomp
  | '-' => some .strip
  | '+' => some .keep
  | _ => none

def readIndicator (c : Cursor) : Option (Option Nat × Cursor) :=
  match c.rest with
  | d :: _ =>
    if d.isDigit then if d = '0' then none else some (some (digitValue d), c.next)
    else some (none, c)
  | [] => some (none, c)

def takeChomp (c : Cursor) : Option Chomp × Cursor :=
  match c.rest.head?.bind chomp? with
  | some chomp => (some chomp, c.next)
  | none => (none, c)

def readHeader (c : Cursor) : Option ((Chomp × Option Nat) × Cursor) := do
  let (before, c) := takeChomp c
  let (digit, c) ← readIndicator c
  let (after, c) := if before.isNone && digit.isSome then takeChomp c else (none, c)
  some (((before.or after).getD .clip, digit), c)

def readEmptyLines (indent : Option Nat) :
    Nat → Nat → String → Cursor → Option (Nat × String × Cursor)
  | 0, longest, breaks, c => some (longest, breaks, c)
  | fuel + 1, longest, breaks, c =>
    let inside (column : Nat) : Bool := indent.all (column < ·)
    if c.sees ' ' && inside c.mark.column then readEmptyLines indent fuel longest breaks c.next
    else
      let longest := max longest c.mark.column
      if c.sees '\t' && inside c.mark.column then none
      else if c.seesAt 0 isBreak then
        let (text, c) := c.takeBreak
        readEmptyLines indent fuel longest (breaks ++ text) c
      else some (longest, breaks, c)

structure BlockText where
  text : String
  lastBreak : String
  emptyLines : String
  beganBlank : Bool

namespace BlockText

def join (folded : Bool) (b : BlockText) (beginsBlank : Bool) : String :=
  if folded && b.lastBreak.startsWith "\n" && !b.beganBlank && !beginsBlank then
    b.text ++ (if b.emptyLines.isEmpty then " " else b.emptyLines)
  else b.text ++ b.lastBreak ++ b.emptyLines

def finish (chomp : Chomp) (b : BlockText) : String :=
  match chomp with
  | .strip => b.text
  | .clip => b.text ++ b.lastBreak
  | .keep => b.text ++ b.lastBreak ++ b.emptyLines

end BlockText

def readLines (folded : Bool) (indent : Nat) :
    Nat → BlockText → Cursor → Option (BlockText × Cursor)
  | 0, b, c => some (b, c)
  | fuel + 1, b, c =>
    if c.mark.column = indent && !c.rest.isEmpty then do
      let beginsBlank := c.seesAt 0 isBlank
      let line := String.ofList (c.rest.takeWhile (!isBreak ·))
      let (lastBreak, c) := (c.skip (!isBreak ·)).takeBreak
      let (_, emptyLines, c) ← readEmptyLines (some indent) c.rest.length 0 "" c
      readLines folded indent fuel
        ⟨b.join folded beginsBlank ++ line, lastBreak, emptyLines, beginsBlank⟩ c
    else some (b, c)

def readBlock (folded : Bool) (outer : Int) (c : Cursor) : Option (Token.Kind × Cursor) := do
  let ((chomp, digit), c) ← readHeader c
  let c ← readLineEnd c
  let given := digit.map fun d => (max outer 0).toNat + d
  let (longest, emptyLines, c) ← readEmptyLines given (c.rest.length + 1) 0 "" c
  let indent := given.getD (max longest (max (outer + 1).toNat 1))
  let (b, c) ← readLines folded indent (c.rest.length + 1) ⟨"", "", emptyLines, false⟩ c
  some (.scalar (b.finish chomp) false, c)

end Yaml

end UriExpansion
