import DeclGraph.Json.Basic

/-!
# JSON texts

A value is written with one array element or field a line, indented by two spaces
for every level. Inside a string only the quotation mark, the backslash and the
control characters below the space are escaped.

Main results:

- `Json.pretty` is the text of a value.
-/

namespace DeclGraph
namespace Json

/-! ## Strings -/

/-- A control character by its number, in two hexadecimal digits. -/
def controlEscape (c : Char) : List Char :=
  ['\\', 'u', '0', '0', Nat.digitChar (c.toNat / 16), Nat.digitChar (c.toNat % 16)]

/-- A character inside a string. -/
def escape (c : Char) : List Char :=
  if c = '\x22' then ['\\', '\x22']
  else if c = '\\' then ['\\', '\\']
  else if c = '\x08' then ['\\', 'b']
  else if c = '\t' then ['\\', 't']
  else if c = '\n' then ['\\', 'n']
  else if c = '\x0c' then ['\\', 'f']
  else if c = '\r' then ['\\', 'r']
  else if c.toNat < 0x20 then controlEscape c
  else [c]

/-- The text of a string. -/
def quoted (text : String) : String :=
  String.ofList ('\x22' :: text.toList.flatMap escape ++ ['\x22'])

/-- A string is written as its escaped characters between two quotation marks. -/
@[simp]
theorem toList_quoted (text : String) :
    (quoted text).toList = '\x22' :: text.toList.flatMap escape ++ ['\x22'] :=
  String.toList_ofList

/-! ## Values -/

/-- The start of a line at some depth. -/
def lineStart (depth : Nat) : String :=
  String.ofList ('\n' :: List.replicate (2 * depth) ' ')

/-- Lines between an opening and a closing bracket; no lines stay on the line of the brackets. -/
def bracketed (depth : Nat) (opening : String) (lines : List String) (closing : String) : String :=
  if lines.isEmpty then opening ++ closing
  else
    opening ++ lineStart (depth + 1) ++ ("," ++ lineStart (depth + 1)).intercalate lines ++
      lineStart depth ++ closing

mutual

/-- The text of a value whose first line stands at `depth`. -/
def prettyAt (depth : Nat) : Json → String
  | null => "null"
  | bool value => if value then "true" else "false"
  | number value => Nat.repr value
  | string value => quoted value
  | array items => bracketed depth "[" (itemTexts (depth + 1) items) "]"
  | object fields => bracketed depth "\x7b" (fieldTexts (depth + 1) fields) "\x7d"

/-- The texts of the elements of an array. -/
def itemTexts (depth : Nat) : List Json → List String
  | [] => []
  | item :: rest => prettyAt depth item :: itemTexts depth rest

/-- The texts of the fields of an object. -/
def fieldTexts (depth : Nat) : List (String × Json) → List String
  | [] => []
  | (key, value) :: rest => (quoted key ++ ": " ++ prettyAt depth value) :: fieldTexts depth rest

end

/-- The text of a value. -/
def pretty (json : Json) : String :=
  prettyAt 0 json

/-- The elements of an array are written one by one. -/
@[simp]
theorem itemTexts_eq_map (depth : Nat) (items : List Json) :
    itemTexts depth items = items.map (prettyAt depth) := by
  induction items with
  | nil => rfl
  | cons item rest ih => simp [itemTexts, ih]

end Json
end DeclGraph
