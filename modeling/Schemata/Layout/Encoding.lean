/-
Places and grids as JSON values.
-/
import Schemata.Layout.Grid
import Schemata.Schema.Encoding

namespace Schemata

open Json (withDefault fields? natBelow? float?)

namespace Placement

def toJson (p : Placement) : Json :=
  .ofFields [("tableId", .text p.table.text), ("x", .ofFloat p.x), ("y", .ofFloat p.y),
    ("width", .ofFloat p.width), ("height", .ofFloat p.height)]

end Placement

namespace Diagram

def toJson (d : Diagram) : Json :=
  .ofFields [("graph", d.schema.toJson), ("placements", .array (d.placements.map Placement.toJson))]

end Diagram

namespace Grid

/-- The least number that is too great for a number of columns. -/
def columnBound : Nat := 0x10000000000000000

def ofJson? (value : Json) : Option Grid := do
  let [columns, originX, originY, spacingX, spacingY] ←
    fields? ["columns", "originX", "originY", "spacingX", "spacingY"] value | none
  return {
    columns := ← withDefault standard.columns (natBelow? columnBound) columns
    originX := ← withDefault standard.originX float? originX
    originY := ← withDefault standard.originY float? originY
    spacingX := ← withDefault standard.spacingX float? spacingX
    spacingY := ← withDefault standard.spacingY float? spacingY }

end Grid

end Schemata
