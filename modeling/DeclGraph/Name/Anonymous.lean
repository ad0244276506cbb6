import DeclGraph.Name.Basic

/-!
# Anonymous names

A container hands out `anon$1`, `anon$2`, … for structural types that have no
name of their own. The number can be read back from such a name, also when it
was spelled with leading zeros.

Main results:

- `Name.anonymousIndex?_anonymous` reads back the number of an issued name.
- `Name.toNat_shiftIndex` bounds a shifted number by its 32 bits.
-/

namespace DeclGraph
namespace Name

/-- What every anonymous name begins with. -/
def anonymousStem : String := "anon$"

/-- The name of the `n`th anonymous type of a container. -/
def anonymous (n : UInt32) : Name :=
  ⟨anonymousStem ++ Nat.repr n.toNat⟩

/-- The number that decimal digits spell, if there is a digit, all characters are digits and the
number fits in 32 bits. -/
def numeral? (digits : List Char) : Option UInt32 :=
  let value := Nat.ofDigitChars 10 digits 0
  if !digits.isEmpty && digits.all Char.isDigit && value < UInt32.size then
    some (UInt32.ofNat value)
  else
    none

/-- The number of an anonymous name, and nothing for any other name. -/
def anonymousIndex? (name : Name) : Option UInt32 :=
  if anonymousStem.toList.isPrefixOf name.raw.toList then
    numeral? (name.raw.toList.drop anonymousStem.toList.length)
  else
    none

/-- The digits of a 32-bit number spell that number. -/
theorem numeral?_toDigits (n : UInt32) : numeral? (Nat.toDigits 10 n.toNat) = some n := by
  have nonempty : (Nat.toDigits 10 n.toNat).isEmpty = false := by
    simp [Nat.toDigits_ne_nil]
  have digits : (Nat.toDigits 10 n.toNat).all Char.isDigit = true := by
    simpa using fun c => Nat.isDigit_of_mem_toDigits (b := 10) (by decide) (by decide)
  simp [numeral?, nonempty, digits, UInt32.toNat_lt_size]

/-- The number of an issued name reads back. -/
@[simp]
theorem anonymousIndex?_anonymous (n : UInt32) : (anonymous n).anonymousIndex? = some n := by
  have written : (anonymous n).raw.toList = anonymousStem.toList ++ Nat.toDigits 10 n.toNat := by
    simp [anonymous]
  have stem : anonymousStem.toList.isPrefixOf (anonymous n).raw.toList = true := by
    rw [written, List.isPrefixOf_iff_prefix]
    exact List.prefix_append ..
  rw [anonymousIndex?, if_pos stem, written, List.drop_left, numeral?_toDigits]

/-! ## Shifting -/

/-- The number `n` places after `index`, or the last 32-bit number if that comes first. -/
def shiftIndex (index n : UInt32) : UInt32 :=
  UInt32.ofNat (min (index.toNat + n.toNat) (UInt32.size - 1))

/-- Shifting adds up, as far as 32 bits can count. -/
@[simp]
theorem toNat_shiftIndex (index n : UInt32) :
    (shiftIndex index n).toNat = min (index.toNat + n.toNat) (UInt32.size - 1) :=
  UInt32.toNat_ofNat_of_lt' (Nat.lt_of_le_of_lt (Nat.min_le_right _ _) (by decide))

end Name
end DeclGraph
