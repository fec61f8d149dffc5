import Raceway.Text.Glyphless
/-!
# Quoted text

Text as a message shows it: between quotation marks, with everything that would not be legible
written as an escape.
-/

namespace Raceway.Text

/-- One character inside quotation marks. A character without a glyph is shown by its code point,
in hexadecimal and without leading zeros. -/
def escapedChar (c : Char) : List Char :=
  match c with
  | '\x00' => ['\\', '0']
  | '\t' => ['\\', 't']
  | '\r' => ['\\', 'r']
  | '\n' => ['\\', 'n']
  | '\\' => ['\\', '\\']
  | '"' => ['\\', '"']
  | _ =>
    if isGlyphless c then
      ['\\', 'u', '\x7b'] ++ Nat.toDigits 16 c.toNat ++ ['\x7d']
    else [c]

/-- Text between quotation marks. -/
def quoted (text : List Char) : List Char :=
  '"' :: (text.flatMap escapedChar ++ ['"'])

end Raceway.Text
