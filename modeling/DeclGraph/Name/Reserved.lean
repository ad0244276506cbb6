/-!
# Reserved words

The words that the emitted language keeps for itself. A declaration may still be
called by one of them, but its name is then written between backticks.
-/

namespace DeclGraph
namespace Name

/-- Reserved words made of letters. -/
def reservedKeywords : List String := [
  "abstract", "case", "catch", "class", "def", "do", "else", "extends", "false", "final",
  "finally", "for", "forSome", "if", "implicit", "import", "lazy", "macro", "match", "new",
  "null", "object", "override", "package", "private", "protected", "return", "sealed", "super",
  "this", "throw", "trait", "try", "true", "type", "val", "var", "while", "with", "yield"]

/-- Reserved words made of symbols. -/
def reservedSymbols : List String :=
  ["_", ":", "=", "=>", "<-", "<:", "<%", ">:", "#", "@"]

/-- Is `word` reserved, in either way? -/
def isReserved (word : String) : Bool :=
  reservedKeywords.contains word || reservedSymbols.contains word

end Name
end DeclGraph
