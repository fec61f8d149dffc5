import Raceway.Json.Record
import Raceway.Json.Writer
import Raceway.Layout
import Raceway.Playfield
import Raceway.Progress
/-!
# Track bundles and other records

A bundle is a data file that holds a layout and its settings. Bundles and the records that they
are made of are read from and written to JSON texts.
-/

namespace Raceway

open Json

/-- A layout together with its settings. -/
structure Bundle where
  layout : Layout Float
  settings : Settings Float

variable [NumberText]

namespace Point

def fields : List (RecordField (Point Float)) :=
  [⟨"x", true, fun s => return (← readDouble s).map fun x p => { p with x := x }⟩,
   ⟨"y", true, fun s => return (← readDouble s).map fun y p => { p with y := y }⟩]

/-- Reads a point as a record of its coordinates. -/
def read : Reader (Point Float) :=
  readRecord "Point" fields ⟨0, 0⟩

def write (p : Point Float) : List Char :=
  writeRecord [("x", writeDouble p.x), ("y", writeDouble p.y)]

/-- Reads a point as a pair of coordinates. -/
def readPair : Reader (Point Float) := fun s =>
  return (← Json.readPair s).map fun (x, y) => ⟨x, y⟩

def writePair (p : Point Float) : List Char :=
  writeList [writeDouble p.x, writeDouble p.y]

end Point

namespace Segment

def fields : List (RecordField (Segment Float)) :=
  [⟨"a", true, fun s => return (← Point.read s).map fun a t => { t with a := a }⟩,
   ⟨"b", true, fun s => return (← Point.read s).map fun b t => { t with b := b }⟩]

/-- Reads a segment. -/
def read : Reader (Segment Float) :=
  readRecord "Segment" fields ⟨⟨0, 0⟩, ⟨0, 0⟩⟩

def write (s : Segment Float) : List Char :=
  writeRecord [("a", s.a.write), ("b", s.b.write)]

end Segment

namespace Settings

def fields : List (RecordField (Settings Float)) :=
  [⟨"origin_x", false, fun s => return (← readDouble s).map fun x c => { c with originX := x }⟩,
   ⟨"origin_y", false, fun s => return (← readDouble s).map fun x c => { c with originY := x }⟩,
   ⟨"width", false, fun s => return (← readDouble s).map fun x c => { c with width := x }⟩,
   ⟨"height", false, fun s => return (← readDouble s).map fun x c => { c with height := x }⟩,
   ⟨"cell_size", false, fun s => return (← readDouble s).map fun x c => { c with cellSize := x }⟩,
   ⟨"reset_on_collision", false,
    fun s => return (← readBoolean s).map fun b c => { c with resetOnCollision := b }⟩]

/-- Reads settings. What is missing is as in the standard settings. -/
def read : Reader (Settings Float) :=
  readRecord "TrackConfig" fields standard

def write (c : Settings Float) : List Char :=
  writeRecord
    [("origin_x", writeDouble c.originX), ("origin_y", writeDouble c.originY),
     ("width", writeDouble c.width), ("height", writeDouble c.height),
     ("cell_size", writeDouble c.cellSize),
     ("reset_on_collision", writeBoolean c.resetOnCollision)]

end Settings

namespace Progress

def fields : List (RecordField Progress) :=
  [⟨"cursor", true, fun s =>
    return (← readNatural .size (UInt64.size - 1) s).map fun n p => { p with cursor := .ofNat n }⟩,
   ⟨"laps", true, fun s =>
    return (← readNatural .word32 (UInt32.size - 1) s).map fun n p => { p with laps := .ofNat n }⟩,
   ⟨"crossings", true, fun s =>
    return (← readNatural .word64 (UInt64.size - 1) s).map fun n p => { p with crossings := .ofNat n }⟩,
   ⟨"collisions", true, fun s =>
    return (← readNatural .word64 (UInt64.size - 1) s).map fun n p =>
      { p with collisions := .ofNat n }⟩]

/-- Reads the progress of a racer. -/
def read : Reader Progress :=
  readRecord "AgentState" fields start

def write (p : Progress) : List Char :=
  writeRecord
    [("cursor", writeNatural p.cursor.toNat), ("laps", writeNatural p.laps.toNat),
     ("crossings", writeNatural p.crossings.toNat),
     ("collisions", writeNatural p.collisions.toNat)]

end Progress

namespace Bundle

def blank : Bundle := ⟨⟨[], [], []⟩, Settings.standard⟩

def fields : List (RecordField Bundle) :=
  let points := fun (set : List (Point Float) → Layout Float → Layout Float) (s : List Char) => do
    let t ← readList Point.readPair s
    return t.map fun ps (b : Bundle) => { b with layout := set ps b.layout }
  [⟨"inner", true, points fun ps l => { l with inner := ps }⟩,
   ⟨"outer", true, points fun ps l => { l with outer := ps }⟩,
   ⟨"checkpoints", false, points fun ps l => { l with checkpoints := ps }⟩,
   ⟨"config", false, fun s => return (← Settings.read s).map fun c b => { b with settings := c }⟩]

/-- Reads a bundle. Gates and settings may be missing. -/
def read : Reader Bundle :=
  readRecord "TrackBundle" fields blank

def write (b : Bundle) : List Char :=
  writeRecord
    [("inner", writeList (b.layout.inner.map Point.writePair)),
     ("outer", writeList (b.layout.outer.map Point.writePair)),
     ("checkpoints", writeList (b.layout.checkpoints.map Point.writePair)),
     ("config", b.settings.write)]

/-- The bundle that a whole text holds. -/
def ofText (text : List Char) : Except (TrackError Float) Bundle :=
  match readAll read text with
  | .ok bundle => .ok bundle
  | .error fault => .error (.badBundle fault)

end Bundle

end Raceway
