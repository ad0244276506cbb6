import DeclGraph.Name.Reserved
import DeclGraph.Unicode.IdentifierStart
import DeclGraph.Unicode.IdentifierContinue

/-!
# Names

A name is any text at all; nothing is checked when one is made. Only when it is
written does it matter whether the text can stand as an identifier by itself or
has to be put between backticks.

Main results:

- `Name.text_of_needsQuoting` and `Name.text_of_not_needsQuoting` give the two
  written forms.
-/

namespace DeclGraph

/-- An identifier as it was declared, before any quoting. -/
structure Name where
  /-- The text of the name. -/
  raw : String
deriving DecidableEq, Inhabited

namespace Name

/-! ## Names with a fixed meaning -/

/-- The empty name, which the root package has. -/
def empty : Name := ⟨""⟩

/-- The name that marks a method as a constructor. -/
def constructor : Name := ⟨"<init>"⟩

/-- The name that marks a parameter type as repeated. -/
def repeated : Name := ⟨"*"⟩

/-- The outermost package of the standard library. -/
def scala : Name := ⟨"scala"⟩

/-- The package of the interoperation library. -/
def scalajs : Name := ⟨"scalajs"⟩

/-- The package of the native types. -/
def js : Name := ⟨"js"⟩

/-- Is this the empty name? -/
def isEmpty (name : Name) : Bool :=
  name.raw.isEmpty

/-- Is this the name of constructors? -/
def isConstructor (name : Name) : Bool :=
  name = constructor

/-! ## Written form -/

/-- Letters and digits in the wide sense, with `_` and `$` allowed to open the word and `$`
allowed anywhere. -/
def isPlainIdentifier : List Char → Bool
  | [] => false
  | first :: rest =>
    (first = '_' || first = '$' || Unicode.isIdentifierStart first) &&
      rest.all fun c => c = '$' || Unicode.isIdentifierContinue c

/-- The characters that operators are made of. -/
def operatorChars : List Char :=
  "!#%&*+-/:<=>?@\\^|~".toList

/-- A nonempty run of operator characters. -/
def isOperatorIdentifier (chars : List Char) : Bool :=
  !chars.isEmpty && chars.all operatorChars.contains

/-- Must the name be put between backticks to be read as one identifier? -/
def needsQuoting (name : Name) : Bool :=
  name.raw.isEmpty || isReserved name.raw ||
    !(isPlainIdentifier name.raw.toList || isOperatorIdentifier name.raw.toList)

/-- The name between backticks. -/
def quoted (name : Name) : String :=
  "`" ++ name.raw ++ "`"

/-- The name as emitted: between backticks when it needs them, and bare otherwise. -/
def text (name : Name) : String :=
  if name.needsQuoting then name.quoted else name.raw

/-- A name that needs backticks is written between them. -/
@[simp]
theorem text_of_needsQuoting {name : Name} (h : name.needsQuoting = true) :
    name.text = name.quoted :=
  if_pos h

/-- A name that needs no backticks is written as it stands. -/
@[simp]
theorem text_of_not_needsQuoting {name : Name} (h : name.needsQuoting = false) :
    name.text = name.raw := by
  simp [text, h]

/-! ## Order -/

/-- Names are ordered as their texts are, by code point. -/
def order (a b : Name) : Ordering :=
  List.compareLex (fun c d => compareOfLessAndEq c.toNat d.toNat) a.raw.toList b.raw.toList

end Name
end DeclGraph
