/-
Importing a definition script: reading it, looking up its names, and placing its tables.
-/
import Schemata.Layout.Grid
import Schemata.Sql.Document
import Schemata.Sql.Resolution

namespace Schemata
namespace Sql

/-- How a script is imported.  A foreign key on a column that is unique alone makes a relation of
one to one if that is wished. -/
structure ImportOptions where
  dialect : DialectChoice := .auto
  grid : Grid := .standard
  inferOneToOne : Bool := false
  deriving Repr

def schemaOf (options : ImportOptions) (text : String) : Except ImportError Schema := do
  let document ← Document.ofScript text options.dialect
  document.toSchema options.inferOneToOne

def importScript (options : ImportOptions) (text : String) : Except ImportError Diagram := do
  let s ← schemaOf options text
  return options.grid.diagram s

end Sql
end Schemata
