/-
The options of an import read from JSON values.
-/
import Schemata.Layout.Encoding
import Schemata.Sql.Import

namespace Schemata
namespace Sql

open Json (withDefault fields? bool?)

namespace DialectChoice

def ofJson? (value : Json) : Option DialectChoice := value.word?.bind ofName?

end DialectChoice

namespace ImportOptions

def ofJson? (value : Json) : Option ImportOptions := do
  let [dialect, grid, inferOneToOne] ← fields? ["dialect", "grid", "inferOneToOne"] value | none
  return {
    dialect := ← withDefault .auto DialectChoice.ofJson? dialect
    grid := ← withDefault .standard Grid.ofJson? grid
    inferOneToOne := ← withDefault false bool? inferOneToOne }

end ImportOptions

end Sql
end Schemata
