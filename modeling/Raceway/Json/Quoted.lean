import Raceway.Json.Reader
/-!
# Quoted text

The texts of a JSON text, in which a backslash starts an escape. A character beyond the first
65536 may be escaped by two numbers, a leading and a trailing surrogate.
-/

namespace Raceway.Json

def hexValue? (c : Char) : Option Nat :=
  if c.isDigit then some (c.toNat - '0'.toNat)
  else if 'a' ≤ c ∧ c ≤ 'f' then some (c.toNat - 'a'.toNat + 10)
  else if 'A' ≤ c ∧ c ≤ 'F' then some (c.toNat - 'A'.toNat + 10)
  else none

/-- Reads four hexadecimal digits. The text has to go on for at least four bytes. -/
def readHex4 : Reader Nat
  | a :: b :: c :: d :: r =>
    match hexValue? a, hexValue? b, hexValue? c, hexValue? d with
    | some a, some b, some c, some d =>
      .ok ⟨((a * 16 + b) * 16 + c) * 16 + d, r, by simp; omega⟩
    | _, _, _, _ => .error .badEscape
  | s => .error (if (String.ofList s).utf8ByteSize < 4 then .endInText else .badEscape)

def isLeading (n : Nat) : Bool :=
  decide (0xD800 ≤ n) && decide (n < 0xDC00)

def isTrailing (n : Nat) : Bool :=
  decide (0xDC00 ≤ n) && decide (n < 0xE000)

/-- Reads the character behind `\u`: one number, or two that make a pair. -/
def readCodePoint : Reader Char := fun s => do
  let first ← readHex4 s
  if isTrailing first.value then .error .loneSurrogate
  else if isLeading first.value then
    match h : first.rest with
    | [] => .error .endInText
    | ['\\'] => .error .endInText
    | '\\' :: 'u' :: r =>
      let second ← readHex4 r
      if isTrailing second.value then
        let code := 0x10000 + (first.value - 0xD800) * 0x400 + (second.value - 0xDC00)
        return ⟨Char.ofNat code, second.rest, by
          have := first.shorter
          have := second.shorter
          simp only [h, List.length_cons] at *
          omega⟩
      else .error .loneSurrogate
    | _ => .error .brokenSurrogatePair
  else return first.map Char.ofNat

/-- The character that a letter behind a backslash stands for. -/
def escapedLetter? : Char → Option Char
  | '"' => some '"'
  | '\\' => some '\\'
  | '/' => some '/'
  | 'b' => some '\x08'
  | 'f' => some '\x0c'
  | 'n' => some '\n'
  | 'r' => some '\r'
  | 't' => some '\t'
  | _ => none

/-- Reads an escape behind its backslash; `codePoint` reads what follows `\u`. -/
def readEscape {α : Type} (letter : Char → α) (codePoint : Reader α) : Reader α
  | [] => .error .endInText
  | 'u' :: r => do
    let t ← codePoint r
    return t.behind 'u'
  | c :: r =>
    match escapedLetter? c with
    | some e => .ok ⟨letter e, r, Nat.lt_succ_self _⟩
    | none => .error .badEscape

/-- Reads a text behind its opening quotation mark. -/
def readText : Reader (List Char)
  | [] => .error .endInText
  | '"' :: r => .ok ⟨[], r, Nat.lt_succ_self _⟩
  | '\\' :: r => do
    let c ← readEscape id readCodePoint r
    let more ← readText c.rest
    return ⟨c.value :: more.value, more.rest,
      Nat.lt_succ_of_lt (Nat.lt_trans more.shorter c.shorter)⟩
  | c :: r =>
    if c < ' ' then .error .controlCharacter
    else do
      let more ← readText r
      return ⟨c :: more.value, more.rest, Nat.lt_succ_of_lt more.shorter⟩
termination_by s => s.length
decreasing_by
  · exact Nat.lt_succ_of_lt c.shorter
  · exact Nat.lt_succ_self _

/-- Passes over a text behind its opening quotation mark. Surrogates need not come in pairs. -/
def skipText : Reader Unit
  | [] => .error .endInText
  | '"' :: r => .ok ⟨(), r, Nat.lt_succ_self _⟩
  | '\\' :: r => do
    let c ← readEscape (fun _ => ()) (fun s => return (← readHex4 s).map fun _ => ()) r
    let more ← skipText c.rest
    return more.within (Nat.le_succ_of_le (Nat.le_of_lt c.shorter))
  | c :: r =>
    if c < ' ' then .error .controlCharacter
    else do
      let more ← skipText r
      return more.behind c
termination_by s => s.length
decreasing_by
  · exact Nat.lt_succ_of_lt c.shorter
  · exact Nat.lt_succ_self _

end Raceway.Json
