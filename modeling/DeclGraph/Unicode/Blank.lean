import DeclGraph.Unicode.Ranges

/-!
# Blank characters

The Unicode property White_Space. A type text may hold blanks before a path and
before the comma or bracket that follows a type argument.
-/

namespace DeclGraph
namespace Unicode

/-- Code point ranges of the property White_Space. -/
def blankRanges : Ranges := [
  (0x9, 0xD), (0x20, 0x20), (0x85, 0x85), (0xA0, 0xA0), (0x1680, 0x1680), (0x2000, 0x200A),
  (0x2028, 0x2029), (0x202F, 0x202F), (0x205F, 0x205F), (0x3000, 0x3000)]

/-- Is `c` white space? -/
def isBlank (c : Char) : Bool :=
  blankRanges.contains c

end Unicode
end DeclGraph
