/-
Placing tables on a grid, row by row.
-/
import Schemata.Layout.NodeSize

namespace Schemata

/-- A grid: its number of columns, the corner of its first cell, and the distances between the
corners of neighbouring cells. -/
structure Grid where
  columns : Nat := 3
  originX : Float := 100
  originY : Float := 100
  spacingX : Float := 300
  spacingY : Float := 250
  deriving Repr

/-- The place of the box of a table: its upper left corner and its size. -/
structure Placement where
  table : TableId
  x : Float
  y : Float
  width : Float
  height : Float
  deriving Repr

/-- A schema with the places of its tables. -/
structure Diagram where
  schema : Schema
  placements : List Placement
  deriving Repr

namespace Grid

def standard : Grid := {}

/-- The corner of a cell.  A grid without columns has one. -/
def cell (g : Grid) (index : Nat) : Float × Float :=
  let columns := max g.columns 1
  (g.originX + (index % columns).toFloat * g.spacingX,
   g.originY + (index / columns).toFloat * g.spacingY)

/-- The box of a table at a given corner. -/
def box (t : Table) (x y : Float) : Placement :=
  ⟨t.id, x, y, (Layout.nodeWidth t).toFloat, (Layout.nodeHeight t).toFloat⟩

/-- The boxes of the tables of a schema, each in the cell of its index. -/
def layout (g : Grid) (s : Schema) : List Placement :=
  s.tables.mapIdx fun i t => box t (g.cell i).1 (g.cell i).2

def diagram (g : Grid) (s : Schema) : Diagram := ⟨s, g.layout s⟩

end Grid

end Schemata
