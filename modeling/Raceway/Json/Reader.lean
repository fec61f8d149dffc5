import Raceway.Json.Fault
/-!
# Readers

A reader takes a value off the front of a text or reports the first fault. It always takes at
least one character, so reading value after value comes to an end.
-/

namespace Raceway.Json

/-- A value taken off the front of `s`, and what is left. -/
structure Taken (s : List Char) (α : Type) where
  value : α
  rest : List Char
  shorter : rest.length < s.length

/-- Takes a value off the front of a text. -/
abbrev Reader (α : Type) :=
  (s : List Char) → Except Fault (Taken s α)

/-- A part of `s` that may be missing, and what is left. -/
structure Passed (s : List Char) (α : Type) where
  value : α
  rest : List Char
  le : rest.length ≤ s.length

namespace Taken

variable {s t : List Char} {α β : Type}

def map (f : α → β) (x : Taken s α) : Taken s β :=
  ⟨f x.value, x.rest, x.shorter⟩

/-- What was taken off the end of a text was taken off the text. -/
def within (x : Taken s α) (h : s.length ≤ t.length) : Taken t α :=
  ⟨x.value, x.rest, Nat.lt_of_lt_of_le x.shorter h⟩

/-- What was taken behind a character, as part of the text that starts with it. -/
def behind (c : Char) (x : Taken s α) : Taken (c :: s) α :=
  x.within (Nat.le_succ _)

/-- What was taken next, as part of the text that the first value was taken off. -/
def andThen (x : Taken s α) (y : Taken x.rest β) : Taken s β :=
  ⟨y.value, y.rest, Nat.lt_trans y.shorter x.shorter⟩

end Taken

namespace Passed

variable {s : List Char} {α β : Type}

/-- Nothing of the text is used. -/
def missing (value : α) : Passed s α :=
  ⟨value, s, Nat.le_refl _⟩

/-- What was passed behind a character, as part of the text that starts with it. -/
def behind (c : Char) (x : Passed s α) : Taken (c :: s) α :=
  ⟨x.value, x.rest, Nat.lt_succ_of_le x.le⟩

/-- What was taken next, as part of the text that the first part was passed in. -/
def andThen (x : Passed s α) (y : Taken x.rest β) : Taken s β :=
  ⟨y.value, y.rest, Nat.lt_of_lt_of_le y.shorter x.le⟩

end Passed

/-- The four characters that may stand between the parts of a text. -/
def isBlank (c : Char) : Bool :=
  c == ' ' || c == '\n' || c == '\t' || c == '\r'

def skipBlank (s : List Char) : List Char :=
  s.dropWhile isBlank

theorem length_skipBlank_le (s : List Char) : (skipBlank s).length ≤ s.length :=
  (List.dropWhile_sublist isBlank).length_le

/-- The next character that is no blank, `none` at the end of the text. -/
def nextChar : (s : List Char) → Option (Taken s Char)
  | [] => none
  | c :: r => if isBlank c then (nextChar r).map (Taken.behind c) else some ⟨c, r, by simp⟩

/-- Reads a value behind blanks. -/
def readBehindBlank {α : Type} (read : Reader α) : Reader α := fun s => do
  let t ← read (skipBlank s)
  return t.within (length_skipBlank_le s)

/-- Reads the rest of a word whose first letter has been seen. -/
def readWord : List Char → (s : List Char) → Except Fault (Passed s Unit)
  | [], _ => .ok (.missing ())
  | _ :: _, [] => .error .endInValue
  | letter :: more, c :: r =>
    if c == letter then do
      let left ← readWord more r
      return ⟨(), left.rest, Nat.le_succ_of_le left.le⟩
    else .error .brokenWord

end Raceway.Json
