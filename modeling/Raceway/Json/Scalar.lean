import Raceway.Json.Number
import Raceway.Json.Quoted
/-!
# Scalars

Readers for the numbers and truth values of a record, and the fault of a value that is not of the
kind a place calls for.
-/

namespace Raceway.Json

variable [NumberText]

/-- The fault of a value that is not what its place calls for. A broken value has its own fault;
lists and objects are not looked into. -/
def mismatch (expected : Expected) : List Char → Fault
  | [] => .endInValue
  | c :: r =>
    let word := fun (more : String) (found : Found) =>
      match readWord more.toList r with
      | .ok _ => .wrongType found expected
      | .error fault => fault
    if c == 'n' then word "ull" .null
    else if c == 't' then word "rue" (.boolean true)
    else if c == 'f' then word "alse" (.boolean false)
    else if c == '"' then
      match readText r with
      | .ok t => .wrongType (.text t.value) expected
      | .error fault => fault
    else if c == '[' then .wrongType .list expected
    else if c == '\x7b' then .wrongType .object expected
    else if startsNumber c then
      match readNumber (c :: r) with
      | .ok t => .wrongType t.value.found expected
      | .error fault => fault
    else .noValue

/-- Reads a number where `expected` is called for. -/
def readNumberAs (expected : Expected) : Reader Number :=
  readBehindBlank fun s =>
    if s.head?.any startsNumber then readNumber s else .error (mismatch expected s)

/-- Reads a double. -/
def readDouble : Reader Float := fun s => do
  let t ← readNumberAs .double s
  return t.map Number.toDouble

/-- Reads a natural number of at most `most`. -/
def readNatural (expected : Expected) (most : Nat) : Reader Nat := fun s => do
  let t ← readNumberAs expected s
  match t.value with
  | .natural n =>
    if n ≤ most then return t.map fun _ => n
    else .error (.wrongValue t.value.found expected)
  | .negative _ => .error (.wrongValue t.value.found expected)
  | .floating _ => .error (.wrongType t.value.found expected)

/-- Reads a truth value. -/
def readBoolean : Reader Bool :=
  readBehindBlank fun
    | 't' :: r => do return ((← readWord "rue".toList r).behind 't').map fun _ => true
    | 'f' :: r => do return ((← readWord "alse".toList r).behind 'f').map fun _ => false
    | s => .error (mismatch .boolean s)

end Raceway.Json
