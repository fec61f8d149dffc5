import Raceway.Decimal.Text
import Raceway.Json.NumberText
import Raceway.Text.Quoted
/-!
# Faults of a data file

What can be wrong with a JSON text, and the wording of each fault.
-/

namespace Raceway.Json

open Decimal (natText)

/-- What stands in the text where something else was called for. -/
inductive Found where
  | null
  | boolean (value : Bool)
  | integer (value : Int)
  | floating (value : Float)
  | text (value : List Char)
  | list
  | object

/-- What a place of the text calls for. -/
inductive Expected where
  | double
  | size
  | word32
  | word64
  | boolean
  | list
  | pair
  | record (name : String)
  | fieldsOf (name : String) (count : Nat)

/-- The first fault met when a text is read from the front. -/
inductive Fault where
  | endInValue
  | endInList
  | endInObject
  | endInText
  | noValue
  | brokenWord
  | noColon
  | noListSeparator
  | noObjectSeparator
  | trailingComma
  | trailingCharacters
  | keyNotText
  | badNumber
  | numberTooLarge
  | badEscape
  | loneSurrogate
  | brokenSurrogatePair
  | controlCharacter
  | wrongType (found : Found) (expected : Expected)
  | wrongValue (found : Found) (expected : Expected)
  | wrongLength (count : Nat) (expected : Expected)
  | duplicateField (name : String)
  | missingField (name : String)

namespace Found

/-- How a message names what was found. -/
def describe [NumberText] : Found → List Char
  | null => "null".toList
  | boolean value => "boolean `".toList ++ (if value then "true`" else "false`").toList
  | integer (.ofNat n) => "integer `".toList ++ natText n ++ "`".toList
  | integer (.negSucc n) => "integer `-".toList ++ natText (n + 1) ++ "`".toList
  | floating x => "floating point `".toList ++ writeDouble x ++ "`".toList
  | text value => "string ".toList ++ Text.quoted value
  | list => "sequence".toList
  | object => "map".toList

end Found

namespace Expected

/-- How a message names what was called for. -/
def describe : Expected → List Char
  | double => "f64".toList
  | size => "usize".toList
  | word32 => "u32".toList
  | word64 => "u64".toList
  | boolean => "a boolean".toList
  | list => "a sequence".toList
  | pair => "an array of length 2".toList
  | record name => "struct ".toList ++ name.toList
  | fieldsOf name count =>
    "struct ".toList ++ name.toList ++ " with ".toList ++ natText count ++ " elements".toList

end Expected

namespace Fault

/-- The wording of a fault. The line and the column that it was met at are left out. -/
def message [NumberText] : Fault → List Char
  | endInValue => "EOF while parsing a value".toList
  | endInList => "EOF while parsing a list".toList
  | endInObject => "EOF while parsing an object".toList
  | endInText => "EOF while parsing a string".toList
  | noValue => "expected value".toList
  | brokenWord => "expected ident".toList
  | noColon => "expected `:`".toList
  | noListSeparator => "expected `,` or `]`".toList
  | noObjectSeparator => "expected `,` or `\x7d`".toList
  | trailingComma => "trailing comma".toList
  | trailingCharacters => "trailing characters".toList
  | keyNotText => "key must be a string".toList
  | badNumber => "invalid number".toList
  | numberTooLarge => "number out of range".toList
  | badEscape => "invalid escape".toList
  | loneSurrogate => "lone leading surrogate in hex escape".toList
  | brokenSurrogatePair => "unexpected end of hex escape".toList
  | controlCharacter =>
    "control character (\\u0000-\\u001F) found while parsing a string".toList
  | wrongType found expected =>
    "invalid type: ".toList ++ found.describe ++ ", expected ".toList ++ expected.describe
  | wrongValue found expected =>
    "invalid value: ".toList ++ found.describe ++ ", expected ".toList ++ expected.describe
  | wrongLength count expected =>
    "invalid length ".toList ++ natText count ++ ", expected ".toList ++ expected.describe
  | duplicateField name => "duplicate field `".toList ++ name.toList ++ "`".toList
  | missingField name => "missing field `".toList ++ name.toList ++ "`".toList

end Fault

end Raceway.Json
