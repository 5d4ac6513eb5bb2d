import Ember.OrderedMap
import Ember.Value

/-!
# Frames and cells

A name is bound to a cell, which holds a value or none. Cells are bound in
frames, and every frame but the first has frames around it. A name is looked up
from the innermost frame outwards; a value is only ever written to the frame
itself.

A declaration gives a name a new cell, an assignment writes to the cell that the
name has in the frame. A function captures the cells that are bound where it is
made: it sees later assignments to them, and not later declarations of the same
names.
-/

namespace Ember

/-- The number of a cell in the heap. -/
abbrev CellId := Nat

/-- A frame: a name for it, the cells that it binds, and the frames around it,
innermost first. -/
structure Frame where
  name : String
  slots : OrderedMap String CellId := .empty
  outers : List FrameId := []
deriving Repr, Inhabited

/-- All frames and cells, numbered in the order of their making. -/
structure Heap where
  frames : Array Frame
  cells : Array (Option Value) := #[]
deriving Repr, Inhabited

namespace Heap

/-- The frame of the whole program. -/
def globalFrame : FrameId := 0

/-- A heap with the frame of a program and nothing in it. -/
def initial : Heap :=
  { frames := #[{ name := "global" }] }

/-- A frame by its number. -/
def frame (h : Heap) (f : FrameId) : Frame :=
  h.frames.getD f { name := "" }

/-- The content of a cell. -/
def content (h : Heap) (c : CellId) : Option Value :=
  h.cells.getD c none

/-- A frame and those around it, innermost first. -/
def chain (h : Heap) (f : FrameId) : List FrameId :=
  f :: (h.frame f).outers

/-- The cell that a name is bound to, in the innermost frame that binds it. -/
def lookup (h : Heap) (f : FrameId) (name : String) : Option CellId :=
  (h.chain f).findSome? fun g => (h.frame g).slots.get? name

/-- What a name is bound to, if it is bound. -/
def get? (h : Heap) (f : FrameId) (name : String) : Option (Option Value) :=
  (h.lookup f name).map h.content

/-- Whether a name is bound, in the frame or in one around it. -/
def contains (h : Heap) (f : FrameId) (name : String) : Bool :=
  (h.lookup f name).isSome

/-- The names that are bound, frame by frame from the innermost. -/
def names (h : Heap) (f : FrameId) : List String :=
  ((h.chain f).flatMap fun g => (h.frame g).slots.keys).eraseDups

/-- The names that a frame itself binds, and what they are bound to. -/
def bindings (h : Heap) (f : FrameId) : List (String × Option Value) :=
  (h.frame f).slots.entries.map fun (name, c) => (name, h.content c)

/-- Adds a frame. -/
def addFrame (h : Heap) (frame : Frame) : FrameId × Heap :=
  (h.frames.size, { h with frames := h.frames.push frame })

/-- Adds the frame of another program, with nothing around it. -/
def create (h : Heap) : FrameId × Heap :=
  h.addFrame { name := "global" }

/-- Adds an empty frame inside another. -/
def enclose (h : Heap) (f : FrameId) (name : String) : FrameId × Heap :=
  let outers := h.chain f
  h.addFrame { name, outers }

/-- Adds a frame inside another that binds the same cells. -/
def capture (h : Heap) (f : FrameId) : FrameId × Heap :=
  let inner := h.frame f
  h.addFrame { name := "closure:" ++ inner.name, slots := inner.slots, outers := f :: inner.outers }

/-- Binds a name to a new cell. -/
def declare (h : Heap) (f : FrameId) (name : String) (value : Option Value) : Heap :=
  let cell := h.cells.size
  { frames := h.frames.modify f fun frame => { frame with slots := frame.slots.put name cell }
    cells := h.cells.push value }

/-- Writes to the cell that the frame itself binds the name to; without one, binds
it to a new cell. -/
def assign (h : Heap) (f : FrameId) (name : String) (value : Option Value) : Heap :=
  match (h.frame f).slots.get? name with
  | some cell => { h with cells := h.cells.setIfInBounds cell value }
  | none => h.declare f name value

/-- Binds names to new cells, one after the other. -/
def declareAll (h : Heap) (f : FrameId) : List (String × Option Value) → Heap
  | [] => h
  | (name, value) :: rest => (h.declare f name value).declareAll f rest

end Heap

end Ember
