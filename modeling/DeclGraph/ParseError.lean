/-!
# Parse errors

What can be wrong with the text of a path or of a type. Every error carries the
text it was found in, and where a place can be named, that place as an offset in
UTF-8 bytes from the start of that text.
-/

namespace DeclGraph

/-- Why a text is not a path, or not a type. -/
inductive ParseError
  /-- A path has nothing between two dots, or before the first, or after the last; `index` counts
  the segments before it. -/
  | emptySegment (path : String) (index : Nat)
  /-- A character stands where it cannot. -/
  | unexpectedChar (input : String) (offset : Nat) (found : Char)
  /-- A `[` is never closed. -/
  | unclosedBracket (input : String) (offset : Nat)
  /-- The text ends where more was needed. -/
  | unexpectedEnd (input : String)
deriving DecidableEq

namespace ParseError

/-- The wording of an error. -/
def message : ParseError → String
  | emptySegment path index =>
    "empty segment at position " ++ Nat.repr index ++ " in '" ++ path ++ "'"
  | unexpectedChar input offset found =>
    "unexpected '" ++ String.singleton found ++ "' at offset " ++ Nat.repr offset ++ " in '" ++
      input ++ "'"
  | unclosedBracket input offset =>
    "unclosed '[' opened at offset " ++ Nat.repr offset ++ " in '" ++ input ++ "'"
  | unexpectedEnd input =>
    "unexpected end of input in '" ++ input ++ "'"

end ParseError
end DeclGraph
