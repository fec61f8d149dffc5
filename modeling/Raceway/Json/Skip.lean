import Raceway.Json.Number
import Raceway.Json.Quoted
/-!
# Passing over a value

Values nobody asked for are passed over, but have to be well formed. The lists and objects that
are still open form a stack, so they may be nested to any depth.
-/

namespace Raceway.Json

/-- What kind of value is open. -/
inductive Bracket where
  | list
  | object

namespace Bracket

def closing : Bracket → Char
  | list => ']'
  | object => '\x7d'

def cutShort : Bracket → Fault
  | list => .endInList
  | object => .endInObject

def noSeparator : Bracket → Fault
  | list => .noListSeparator
  | object => .noObjectSeparator

end Bracket

/-- Passes over a number, a text or one of the three words. A number that the text ends in is
like any other broken one. -/
def skipScalar : Reader Unit
  | [] => .error .endInValue
  | c :: r =>
    if c == 'n' then return (← readWord "ull".toList r).behind c
    else if c == 't' then return (← readWord "rue".toList r).behind c
    else if c == 'f' then return (← readWord "alse".toList r).behind c
    else if c == '"' then return (← skipText r).behind c
    else if startsNumber c then return (← readLiteral .badNumber (c :: r)).map fun _ => ()
    else .error .noValue

/-- Reads the colon between a key and its value. -/
def readColon : Reader Unit := fun s =>
  match nextChar s with
  | none => .error .endInObject
  | some c => if c.value == ':' then .ok (c.map fun _ => ()) else .error .noColon

/-- Passes over a key and its colon. -/
def skipKey : Reader Unit := fun s =>
  match nextChar s with
  | none => .error .endInObject
  | some c =>
    if c.value == '"' then do
      let key ← skipText c.rest
      let colon ← readColon key.rest
      return c.andThen (key.andThen colon)
    else .error .keyNotText

/-- What is left after everything up to the last closing bracket has been passed over. -/
abbrev Remainder (limit : Nat) :=
  Except Fault { r : List Char // r.length < limit }

mutual

/-- Passes over a value inside open brackets, and over all that follows it in them. -/
def skipNested (limit : Nat) (stack : List Bracket) (s : List Char) (fits : s.length ≤ limit) :
    Remainder limit :=
  match nextChar s with
  | none => .error .endInValue
  | some c =>
    if c.value == '[' then
      skipOpened limit .list stack c.rest (Nat.lt_of_lt_of_le c.shorter fits)
    else if c.value == '\x7b' then
      skipOpened limit .object stack c.rest (Nat.lt_of_lt_of_le c.shorter fits)
    else do
      let t ← readBehindBlank skipScalar s
      skipClosed limit stack t.rest (Nat.lt_of_lt_of_le t.shorter fits)
termination_by (s.length, 0)
decreasing_by
  · exact Prod.Lex.left _ _ c.shorter
  · exact Prod.Lex.left _ _ c.shorter
  · exact Prod.Lex.left _ _ t.shorter

/-- Passes over what follows an opening bracket. -/
def skipOpened (limit : Nat) (bracket : Bracket) (stack : List Bracket) (s : List Char)
    (fits : s.length < limit) : Remainder limit :=
  match nextChar s with
  | none => .error bracket.cutShort
  | some c =>
    if c.value == bracket.closing then
      skipClosed limit stack c.rest (Nat.lt_trans c.shorter fits)
    else skipItem limit bracket stack s (Nat.le_of_lt fits)
termination_by (s.length, 2)
decreasing_by
  · exact Prod.Lex.left _ _ c.shorter
  · exact Prod.Lex.right _ (by decide)

/-- Passes over a list item or a field of an object, and over all that follows it. -/
def skipItem (limit : Nat) (bracket : Bracket) (stack : List Bracket) (s : List Char)
    (fits : s.length ≤ limit) : Remainder limit :=
  match bracket with
  | .list => skipNested limit (.list :: stack) s fits
  | .object => do
    let key ← skipKey s
    skipNested limit (.object :: stack) key.rest
      (Nat.le_trans (Nat.le_of_lt key.shorter) fits)
termination_by (s.length, 1)
decreasing_by
  · exact Prod.Lex.right _ (by decide)
  · exact Prod.Lex.left _ _ key.shorter

/-- Passes over what follows a complete value. -/
def skipClosed (limit : Nat) (stack : List Bracket) (s : List Char) (fits : s.length < limit) :
    Remainder limit :=
  match stack with
  | [] => .ok ⟨s, fits⟩
  | bracket :: stack =>
    match nextChar s with
    | none => .error bracket.cutShort
    | some c =>
      if c.value == ',' then
        skipItem limit bracket stack c.rest (Nat.le_of_lt (Nat.lt_trans c.shorter fits))
      else if c.value == bracket.closing then
        skipClosed limit stack c.rest (Nat.lt_trans c.shorter fits)
      else .error bracket.noSeparator
termination_by (s.length, 0)
decreasing_by
  · exact Prod.Lex.left _ _ c.shorter
  · exact Prod.Lex.left _ _ c.shorter

end

/-- Passes over a value. -/
def skipValue : Reader Unit := fun s => do
  let left ← skipNested s.length [] s Nat.le.refl
  return ⟨(), left.1, left.2⟩

end Raceway.Json
