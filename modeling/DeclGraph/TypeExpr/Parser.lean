import DeclGraph.Path.Parser
import DeclGraph.TypeExpr.Basic
import DeclGraph.Unicode.Blank

/-!
# Reading types

A type is read in one pass over its characters. The brackets that are open at a
place form a stack: each remembers the path in front of it and the arguments
that are already complete. The text of a path is collected up to the next
bracket, comma or blank outside backticks and then read as a path on its own, so
an error inside it is reported in terms of that text.

Blanks may stand before a path and, between brackets, before the comma or the
closing bracket that follows a type. They may not stand between a path and its
bracket, nor after the whole type.

Main results:

- `TypeExpr.parse_empty` refuses the empty text.
-/

namespace DeclGraph
namespace TypeExpr

/-! ## State of the scan -/

/-- An open bracket with a type behind it. -/
structure Frame where
  /-- The path in front of the bracket. -/
  head : Path
  /-- Where the bracket stands. -/
  openAt : Nat
  /-- The complete arguments. -/
  args : List TypeExpr := []

/-- What the text has to go on with. -/
inductive Stage
  /-- A type has to begin, after any blanks. -/
  | start
  /-- A bracket was opened at `openAt`, after the path `head`, and a type or the closing bracket
  has to come, after any blanks. -/
  | opened (head : Path) (openAt : Nat)
  /-- The path with this text is being read; `quoted` tells whether a backtick is open. -/
  | path (text : String) (quoted : Bool)
  /-- This type is complete. -/
  | complete (type : TypeExpr)

/-- What has been read of a type: the open brackets, the innermost first, and what comes next. -/
structure Scan where
  /-- The open brackets. -/
  frames : List Frame := []
  /-- What comes next. -/
  stage : Stage := .start

namespace Scan

/-- Does `c` end the text of a path, outside backticks? -/
def endsPath (c : Char) : Bool :=
  c = '[' || c = ',' || c = ']' || Unicode.isBlank c

/-- Begin a path with `c`, unless `c` cannot begin one. -/
def beginPath (input : String) (offset : Nat) (frames : List Frame) (c : Char) :
    Except ParseError Scan :=
  if endsPath c then .error (.unexpectedChar input offset c)
  else .ok ⟨frames, .path (String.singleton c) (c = '\x60')⟩

/-- Read `c` after a complete type. -/
def afterType (input : String) (offset : Nat) (frames : List Frame) (type : TypeExpr) (c : Char) :
    Except ParseError Scan :=
  match frames with
  | [] => .error (.unexpectedChar input offset c)
  | frame :: outer =>
    if Unicode.isBlank c then .ok ⟨frames, .complete type⟩
    else if c = ',' then .ok ⟨{ frame with args := frame.args ++ [type] } :: outer, .start⟩
    else if c = ']' then .ok ⟨outer, .complete ⟨frame.head, frame.args ++ [type]⟩⟩
    else .error (.unexpectedChar input offset c)

/-- Read the character `c`, which stands at `offset`. -/
def step (input : String) (offset : Nat) (scan : Scan) (c : Char) : Except ParseError Scan :=
  match scan.stage with
  | .start =>
    if Unicode.isBlank c then .ok scan else beginPath input offset scan.frames c
  | .opened head openAt =>
    if Unicode.isBlank c then .ok scan
    else if c = ']' then .ok ⟨scan.frames, .complete ⟨head, []⟩⟩
    else beginPath input offset ({ head, openAt } :: scan.frames) c
  | .path text quoted =>
    if c = '\x60' then .ok ⟨scan.frames, .path (text.push c) (!quoted)⟩
    else if quoted || !endsPath c then .ok ⟨scan.frames, .path (text.push c) quoted⟩
    else
      match Path.parse text with
      | .error e => .error e
      | .ok head =>
        if c = '[' then .ok ⟨scan.frames, .opened head offset⟩
        else afterType input offset scan.frames ⟨head, []⟩ c
  | .complete type => afterType input offset scan.frames type c

/-- The complete type, if no bracket is open. -/
def closeType (input : String) (frames : List Frame) (type : TypeExpr) :
    Except ParseError TypeExpr :=
  match frames with
  | [] => .ok type
  | frame :: _ => .error (.unclosedBracket input frame.openAt)

/-- The type that was read, once all its characters are. -/
def close (input : String) (scan : Scan) : Except ParseError TypeExpr :=
  match scan.stage with
  | .start => .error (.unexpectedEnd input)
  | .opened _ _ => .error (.unexpectedEnd input)
  | .path text _ =>
    match Path.parse text with
    | .error e => .error e
    | .ok head => closeType input scan.frames ⟨head, []⟩
  | .complete type => closeType input scan.frames type

/-- Read the rest of the text, which begins at `offset`. -/
def run (input : String) : Nat → Scan → List Char → Except ParseError TypeExpr
  | _, scan, [] => scan.close input
  | offset, scan, c :: rest =>
    match scan.step input offset c with
    | .error e => .error e
    | .ok next => run input (offset + c.utf8Size) next rest

end Scan

/-! ## The parser -/

/-- Read a type from its written form. The brackets of a type without arguments may be left
out. -/
def parse (text : String) : Except ParseError TypeExpr :=
  Scan.run text 0 {} text.toList

/-- The empty text is no type. -/
theorem parse_empty : parse "" = .error (.unexpectedEnd "") :=
  rfl

end TypeExpr
end DeclGraph
