import DeclGraph.Path.Basic
import DeclGraph.ParseError

/-!
# Reading paths

A path is read in one pass over its characters. Dots separate the names, and a
name between backticks may hold dots of its own. What was read so far is the
list of finished names together with the text of the one that is being read.

Main results:

- `Path.parse_rootLiteral` reads the written root as the root.
- `Path.parse_empty` refuses the empty text.
-/

namespace DeclGraph
namespace Path

/-! ## State of the scan -/

/-- How far the name that is being read has come with its backticks. -/
inductive Quoting
  /-- No backtick was seen. -/
  | bare
  /-- The opening backtick was seen. -/
  | inside
  /-- The closing backtick was seen. -/
  | closed
deriving DecidableEq

/-- What has been read of a path. -/
structure Scan where
  /-- The finished names. -/
  segments : List Name := []
  /-- The text of the name that is being read. -/
  current : String := ""
  /-- The backticks of the name that is being read. -/
  quoting : Quoting := .bare
deriving DecidableEq

namespace Scan

/-- One more character of the name that is being read. -/
def push (scan : Scan) (c : Char) : Scan :=
  { scan with current := scan.current.push c }

/-- Finish the name that is being read. A name without characters needs its backticks. -/
def finish (input : String) (scan : Scan) : Except ParseError Scan :=
  if scan.current.isEmpty && scan.quoting = .bare then
    .error (.emptySegment input scan.segments.length)
  else
    .ok { segments := scan.segments ++ [⟨scan.current⟩] }

/-- Read the character `c`, which stands at `offset`. -/
def step (input : String) (offset : Nat) (scan : Scan) (c : Char) : Except ParseError Scan :=
  match scan.quoting with
  | .inside =>
    if c = '\x60' then .ok { scan with quoting := .closed } else .ok (scan.push c)
  | .bare =>
    if c = '\x60' then
      if scan.current.isEmpty then .ok { scan with quoting := .inside }
      else .error (.unexpectedChar input offset c)
    else if c = '.' then scan.finish input
    else .ok (scan.push c)
  | .closed =>
    if c = '\x60' then
      if scan.current.isEmpty then .ok { scan with quoting := .inside }
      else .error (.unexpectedChar input offset c)
    else if c = '.' then scan.finish input
    else .error (.unexpectedChar input offset c)

/-- The names of the path, once all its characters are read. -/
def close (input : String) (scan : Scan) : Except ParseError Path :=
  if scan.quoting = .inside then .error (.unexpectedEnd input)
  else (scan.finish input).map fun done => ⟨done.segments⟩

/-- Read the rest of the text, which begins at `offset`. -/
def run (input : String) : Nat → Scan → List Char → Except ParseError Path
  | _, scan, [] => scan.close input
  | offset, scan, c :: rest =>
    match scan.step input offset c with
    | .error e => .error e
    | .ok next => run input (offset + c.utf8Size) next rest

end Scan

/-! ## The parser -/

/-- Read a path from its written form. -/
def parse (text : String) : Except ParseError Path :=
  if text = rootLiteral then .ok root
  else if text.isEmpty then .error (.unexpectedEnd text)
  else Scan.run text 0 {} text.toList

/-- The written root reads as the root. -/
theorem parse_rootLiteral : parse rootLiteral = .ok root :=
  rfl

/-- The empty text is no path. -/
theorem parse_empty : parse "" = .error (.unexpectedEnd "") := by
  simp [parse, rootLiteral]

end Path
end DeclGraph
