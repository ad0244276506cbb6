import DeclGraph.Unicode.GraphemeExtend
import DeclGraph.Unicode.Unprintable

/-!
# String literals

A text inside an annotation is written as a string literal: between quotation
marks, with a backslash before whatever would end the literal, break the line or
leave no clear mark on the page.

Main results:

- `Text.quoted` is the literal of a text, one escape per character.
-/

namespace DeclGraph
namespace Text

/-- A character given by its code point in hexadecimal, without leading zeros. -/
def codePointEscape (c : Char) : List Char :=
  ['\\', 'u', '\x7b'] ++ Nat.toDigits 16 c.toNat ++ ['\x7d']

/-- Is `c` one of the two halfwidth sound marks of Katakana, U+FF9E and U+FF9F? They extend a
grapheme, yet they are letters and take a cell of their own on the page. -/
def isHalfwidthSoundMark (c : Char) : Bool :=
  c = '\uff9e' || c = '\uff9f'

/-- Does `c` attach to the character before it, without a place of its own? -/
def isAttachedMark (c : Char) : Bool :=
  Unicode.isGraphemeExtend c && !isHalfwidthSoundMark c

/-- A character inside a literal. A mark that attaches to the character before it is given by its
code point, and so is a character without a printed form. -/
def escape (c : Char) : List Char :=
  if c = '\x00' then ['\\', '0']
  else if c = '\t' then ['\\', 't']
  else if c = '\n' then ['\\', 'n']
  else if c = '\r' then ['\\', 'r']
  else if c = '\x22' then ['\\', '\x22']
  else if c = '\\' then ['\\', '\\']
  else if isAttachedMark c || Unicode.isUnprintable c then codePointEscape c
  else [c]

/-- The literal of a text. -/
def quoted (text : String) : String :=
  String.ofList ('\x22' :: text.toList.flatMap escape ++ ['\x22'])

/-- A literal is the escaped characters between two quotation marks. -/
@[simp]
theorem toList_quoted (text : String) :
    (quoted text).toList = '\x22' :: text.toList.flatMap escape ++ ['\x22'] :=
  String.toList_ofList

end Text
end DeclGraph
