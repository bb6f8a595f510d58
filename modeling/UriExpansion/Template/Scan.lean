import UriExpansion.Template.Segment

/-!
# Scanning a template text

One round of the scan takes a character of literal text, or a whole expression up to the first
closing brace. Positions count the bytes of the UTF-8 encoding. Every round takes at least one
character, so as many rounds as the text has characters read all of it. A template keeps its source
text beside its segments.
-/

namespace UriExpansion

/-- Why a text is not a template: the brace at this byte position is never closed. -/
structure Unterminated where
  position : Nat
  deriving DecidableEq

namespace Unterminated

def message (e : Unterminated) : String :=
  s!"Malformed template: unterminated expression starting at position {e.position}"

end Unterminated

structure Scan where
  segments : List Segment
  literal : String
  position : Nat
  rest : List Char

namespace Scan

def start (text : String) : Scan :=
  ⟨[], "", 0, text.toList⟩

def flush (s : Scan) : List Segment :=
  if s.literal.isEmpty then s.segments else s.segments ++ [.literal s.literal]

def splitAtBrace : List Char → Option (List Char × List Char)
  | [] => none
  | c :: cs =>
    if c = '}' then some ([], cs)
    else (splitAtBrace cs).map fun (body, rest) => (c :: body, rest)

def next (s : Scan) : Option (Except Unterminated Scan) :=
  match s.rest with
  | [] => none
  | c :: cs =>
    if c = '{' then
      match splitAtBrace cs with
      | none => some (.error ⟨s.position⟩)
      | some (body, rest) => some (.ok
          { segments := s.flush ++ [.expression (.ofBody body)]
            literal := ""
            position := s.position + 1 + ((String.ofList body).utf8ByteSize + 1)
            rest })
    else some (.ok
      { s with
        literal := s.literal.push c
        position := s.position + c.utf8Size
        rest := cs })

def run : Nat → Scan → Except Unterminated (List Segment)
  | 0, s => .ok s.flush
  | rounds + 1, s =>
    match s.next with
    | none => .ok s.flush
    | some (.error e) => .error e
    | some (.ok s) => run rounds s

end Scan

structure Template where
  source : String
  segments : List Segment
  deriving DecidableEq

namespace Template

def parse (text : String) : Except Unterminated Template :=
  ((Scan.start text).run text.length).map (⟨text, ·⟩)

def vars (t : Template) : List VarSpec :=
  t.segments.flatMap Segment.vars

end Template

end UriExpansion
