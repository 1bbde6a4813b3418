/-
Schemas as JSON values, and what can be read from them.  The counter of a schema is not written,
so a schema that is read starts counting anew.
-/
import Schemata.Json.Printer
import Schemata.Json.Reader
import Schemata.Json.Record
import Schemata.Schema.Operations
import Schemata.Text.Blank
import Schemata.Text.Case

namespace Schemata

open Json (required withDefault optional fields? text? bool? list?)

/-! ## Writing -/

namespace Column

def toJson (c : Column) : Json :=
  .ofFields [("id", .text c.id.text), ("name", .text c.name), ("type", .text c.type.name),
    ("isPrimaryKey", .bool c.isPrimaryKey), ("isForeignKey", .bool c.isForeignKey),
    ("isUnique", .bool c.isUnique), ("isNullable", .bool c.isNullable)]

end Column

namespace Table

def toJson (t : Table) : Json :=
  .ofFields [("id", .text t.id.text), ("name", .text t.name),
    ("columns", .array (t.columns.map Column.toJson))]

end Table

namespace Relation

def toJson (r : Relation) : Json :=
  .ofFields [("id", .text r.id.text),
    ("sourceTableId", .text r.source.table.text), ("sourceColumnId", .text r.source.column.text),
    ("targetTableId", .text r.target.table.text), ("targetColumnId", .text r.target.column.text),
    ("cardinality", .text r.cardinality.name)]

end Relation

namespace Schema

def toJson (s : Schema) : Json :=
  .ofFields [("tables", .array (s.tables.map Table.toJson)),
    ("relations", .array (s.relations.map Relation.toJson))]

end Schema

/-! ## Reading -/

namespace ColumnType

def ofJson? (value : Json) : Option ColumnType := value.word?.bind ofName?

end ColumnType

namespace Cardinality

def ofJson? (value : Json) : Option Cardinality := value.word?.bind ofName?

/-- The cardinality that a text spells in any letter case, with or without blanks around it. -/
def ofText? (s : String) : Option Cardinality :=
  ofName? (String.ofList (Text.upper (Text.trim s.toList)))

end Cardinality

namespace Column

def ofJson? (value : Json) : Option Column := do
  let [id, name, type, isPrimaryKey, isForeignKey, isUnique, isNullable] ←
    fields? ["id", "name", "type", "isPrimaryKey", "isForeignKey", "isUnique", "isNullable"] value
    | none
  return {
    id := ⟨← required text? id⟩
    name := ← required text? name
    type := ← required ColumnType.ofJson? type
    isPrimaryKey := ← required bool? isPrimaryKey
    isForeignKey := ← required bool? isForeignKey
    isUnique := ← required bool? isUnique
    isNullable := ← required bool? isNullable }

end Column

namespace Table

def ofJson? (value : Json) : Option Table := do
  let [id, name, columns] ← fields? ["id", "name", "columns"] value | none
  return {
    id := ⟨← required text? id⟩
    name := ← required text? name
    columns := ← required (list? Column.ofJson?) columns }

end Table

namespace Relation

def ofJson? (value : Json) : Option Relation := do
  let [id, sourceTable, sourceColumn, targetTable, targetColumn, cardinality] ←
    fields? ["id", "sourceTableId", "sourceColumnId", "targetTableId", "targetColumnId",
      "cardinality"] value
    | none
  return {
    id := ⟨← required text? id⟩
    source := ⟨⟨← required text? sourceTable⟩, ⟨← required text? sourceColumn⟩⟩
    target := ⟨⟨← required text? targetTable⟩, ⟨← required text? targetColumn⟩⟩
    cardinality := ← required Cardinality.ofJson? cardinality }

end Relation

namespace Schema

def ofJson? (value : Json) : Option Schema := do
  let [tables, relations] ← fields? ["tables", "relations"] value | none
  return {
    tables := ← required (list? Table.ofJson?) tables
    relations := ← required (list? Relation.ofJson?) relations
    counter := 0 }

/-- The schema that a JSON text denotes.  Nothing is said about its consistency. -/
def parse? (source : String) : Option Schema := (Json.parse? source).bind ofJson?

end Schema

namespace ColumnSpec

def ofJson? (value : Json) : Option ColumnSpec := do
  let [name, type, isPrimaryKey, isUnique, isNullable] ←
    fields? ["name", "type", "isPrimaryKey", "isUnique", "isNullable"] value | none
  let standard : ColumnSpec := {}
  return {
    name := ← withDefault standard.name text? name
    type := ← withDefault standard.type ColumnType.ofJson? type
    isPrimaryKey := ← withDefault standard.isPrimaryKey bool? isPrimaryKey
    isUnique := ← withDefault standard.isUnique bool? isUnique
    isNullable := ← withDefault standard.isNullable bool? isNullable }

end ColumnSpec

namespace ColumnPatch

def ofJson? (value : Json) : Option ColumnPatch := do
  let [name, type, isPrimaryKey, isForeignKey, isUnique, isNullable] ←
    fields? ["name", "type", "isPrimaryKey", "isForeignKey", "isUnique", "isNullable"] value
    | none
  return {
    name := ← optional text? name
    type := ← optional ColumnType.ofJson? type
    isPrimaryKey := ← optional bool? isPrimaryKey
    isForeignKey := ← optional bool? isForeignKey
    isUnique := ← optional bool? isUnique
    isNullable := ← optional bool? isNullable }

end ColumnPatch

end Schemata
