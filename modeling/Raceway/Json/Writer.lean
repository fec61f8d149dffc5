import Raceway.Decimal.Text
/-!
# Writing

The compact JSON text of records: fields in order, and no blanks.
-/

namespace Raceway.Json

/-- Items with commas between them. -/
def commaSeparated : List (List Char) → List Char
  | [] => []
  | [item] => item
  | item :: items => item ++ ',' :: commaSeparated items

def writeList (items : List (List Char)) : List Char :=
  '[' :: (commaSeparated items ++ [']'])

/-- An object of named values. The names are plain, nothing in them has to be escaped. -/
def writeRecord (fields : List (String × List Char)) : List Char :=
  let items := fields.map fun (name, value) => '"' :: (name.toList ++ '"' :: ':' :: value)
  '\x7b' :: (commaSeparated items ++ ['\x7d'])

def writeNatural (n : Nat) : List Char :=
  Decimal.natText n

def writeBoolean (b : Bool) : List Char :=
  if b then "true".toList else "false".toList

end Raceway.Json
