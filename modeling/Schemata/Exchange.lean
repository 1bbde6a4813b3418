/-
Schemas that are handed over as JSON text.  A script goes in and a diagram comes out, or a schema
goes in and a script comes out.  A schema from outside may be inconsistent, so it is checked first.
-/
import Schemata.Failure
import Schemata.Schema.Starter
import Schemata.Sql.Encoding

namespace Schemata
namespace Exchange

/-- The diagram of the schema that a script defines, as JSON text. -/
def scriptToJson (options : Sql.ImportOptions) (text : String) : Except Failure String :=
  match Sql.importScript options text with
  | .ok diagram => .ok diagram.toJson.compact
  | .error e => .error (.rejectedScript e)

def jsonToScript (source : String) : Except Failure String :=
  match Schema.parse? source with
  | none => .error .unreadable
  | some s =>
    match Sql.checkedScript s with
    | .ok text => .ok text
    | .error e => .error (.noScript e)

/-- The starter schema on the standard grid, as JSON text. -/
def starterJson : String := (Grid.standard.diagram .starter).toJson.compact

end Exchange
end Schemata
