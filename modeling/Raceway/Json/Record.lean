import Raceway.Json.Sequence
import Raceway.Json.Skip
/-!
# Records

A record is read from an object with its fields in any order, or from a list with the fields in
the order of the record. Fields that are not required keep the value of a blank record.
-/

namespace Raceway.Json

/-- A field of the record type `ρ`; reading its value tells how to change a record. -/
structure RecordField (ρ : Type) where
  name : String
  required : Bool
  read : Reader (ρ → ρ)

/-- A record under construction, with the names of the fields that have been read. -/
structure Draft (ρ : Type) where
  record : ρ
  seen : List String

variable {ρ : Type}

/-- Looks for the next key of an object and reads it; `none` stands for the closing brace. There
is a comma before every key but the first, and no closing brace may follow it. -/
def nextKey (first : Bool) : Reader (Option (List Char)) := fun s =>
  match nextChar s with
  | none => .error .endInObject
  | some c =>
    if c.value == '\x7d' then .ok (c.map fun _ => none)
    else if first then
      if c.value == '"' then do
        let key ← readText c.rest
        return c.andThen (key.map some)
      else .error .keyNotText
    else if c.value == ',' then
      match nextChar c.rest with
      | none => .error .endInValue
      | some d =>
        if d.value == '"' then do
          let key ← readText d.rest
          return c.andThen (d.andThen (key.map some))
        else if d.value == '\x7d' then .error .trailingComma
        else .error .keyNotText
    else .error .noObjectSeparator

/-- Reads the value of a field behind its key. A key of no field has its value passed over, and
a field must not be read twice. -/
def readField (fields : List (RecordField ρ)) (draft : Draft ρ) (key : List Char) :
    Reader (Draft ρ) := fun s =>
  match fields.find? fun field => field.name.toList == key with
  | none => do
    let colon ← readColon s
    let value ← skipValue colon.rest
    return colon.andThen (value.map fun _ => draft)
  | some field =>
    if draft.seen.contains field.name then .error (.duplicateField field.name)
    else do
      let colon ← readColon s
      let value ← field.read colon.rest
      return colon.andThen
        (value.map fun change => ⟨change draft.record, field.name :: draft.seen⟩)

/-- Reads the fields of an object up to its closing brace. -/
def readFields (fields : List (RecordField ρ)) (first : Bool) (draft : Draft ρ)
    (s : List Char) : Except Fault (Taken s (Draft ρ)) := do
  let key ← nextKey first s
  match key.value with
  | none => return key.map fun _ => draft
  | some name =>
    let field ← readField fields draft name key.rest
    let more ← readFields fields false field.value field.rest
    return key.andThen (field.andThen more)
termination_by s.length
decreasing_by exact Nat.lt_trans field.shorter key.shorter

/-- The record of a finished object, unless a required field is missing. -/
def Draft.finish (fields : List (RecordField ρ)) (draft : Draft ρ) : Except Fault ρ :=
  match fields.find? fun field => field.required && !draft.seen.contains field.name with
  | some field => .error (.missingField field.name)
  | none => .ok draft.record

/-- Reads the fields of a record from the items of a list, in order. `count` items have been read
and `total` is the number of fields. -/
def readPositions (name : String) (total : Nat) :
    List (RecordField ρ) → (count : Nat) → ρ → (s : List Char) → Except Fault (Passed s ρ)
  | [], _, record, _ => .ok (.missing record)
  | field :: fields, count, record, s => do
    let next ← nextItem (count == 0) s
    if next.value then
      let value ← field.read next.rest
      let more ← readPositions name total fields (count + 1) (value.value record) value.rest
      return ⟨more.value, more.rest,
        Nat.le_trans more.le (Nat.le_of_lt (next.andThen value).shorter)⟩
    else if field.required then .error (.wrongLength count (.fieldsOf name total))
    else readPositions name total fields count record s

/-- Reads a record. -/
def readRecord [NumberText] (name : String) (fields : List (RecordField ρ)) (blank : ρ) : Reader ρ :=
  readBehindBlank fun
    | '[' :: r => do
      let record ← readPositions name fields.length fields 0 blank r
      let close ← readListEnd record.rest
      return (record.andThen (close.map fun _ => record.value)).behind '['
    | '\x7b' :: r => do
      let draft ← readFields fields true ⟨blank, []⟩ r
      let record ← draft.value.finish fields
      return (draft.map fun _ => record).behind '\x7b'
    | s => .error (mismatch (.record name) s)

/-- Reads a whole text, which holds one value and nothing behind it. -/
def readAll {α : Type} (read : Reader α) (text : List Char) : Except Fault α := do
  let t ← read text
  if (nextChar t.rest).isSome then .error .trailingCharacters else return t.value

end Raceway.Json
