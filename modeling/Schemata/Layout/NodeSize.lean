/-
The size of the box that shows a table: a header with the name of the table, and a row for every
column with its name, its type and a badge for each of its marks.
-/
import Schemata.Schema.Basic
import Schemata.Text.Width

namespace Schemata
namespace Layout

def cellWidth : Nat := 8

def rowHeight : Nat := 20

def textWidth (text : String) : Nat := Text.cellCount text.toList * cellWidth

/-- The number of marks that a column shows. -/
def badges (c : Column) : Nat := [c.isPrimaryKey, c.isForeignKey, c.isUnique].countP id

/-- The width of the row of a column, in which a badge takes three cells. -/
def columnWidth (c : Column) : Nat :=
  textWidth c.name + textWidth c.type.name + cellWidth * (2 + 3 * badges c)

/-- The width of the box of a table, which is never below two hundred. -/
def nodeWidth (t : Table) : Nat :=
  max 200 (max (textWidth t.name) ((t.columns.map columnWidth).foldl max 0) + 2 * 12)

/-- The height of the box of a table, which is never below sixty. -/
def nodeHeight (t : Table) : Nat :=
  max 60 (rowHeight + 2 * 4 +
    if t.columns.isEmpty then 0 else t.columns.length * rowHeight + 2 * 8)

def minimalWidth : Float := 140

def minimalHeight : Float := 60

/-- The larger one of two numbers.  What is not a number gives way to the other one. -/
def larger (x y : Float) : Float := if x.isNaN || x < y then y else x

/-- A size that someone asks for, raised to the least size of a box. -/
def clampSize (width height : Float) : Float × Float :=
  (larger width minimalWidth, larger height minimalHeight)

end Layout
end Schemata
