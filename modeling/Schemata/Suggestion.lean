/-
Suggested schemas.  A suggestion names its tables and columns by ids of its own, which are checked
and then replaced by new ones.
-/
import Schemata.Schema.Consistency
import Schemata.Schema.Encoding

namespace Schemata

open Json (required withDefault fields? text? bool? list?)

structure SuggestedColumn where
  id : String
  name : String
  type : ColumnType
  isPrimaryKey : Bool
  /-- Has no effect, because the relations decide which columns are foreign keys. -/
  isForeignKey : Bool
  isUnique : Bool
  isNullable : Bool
  deriving DecidableEq, Repr

def SuggestedColumn.spec (c : SuggestedColumn) : ColumnSpec :=
  ⟨c.name, c.type, c.isPrimaryKey, c.isUnique, c.isNullable⟩

structure SuggestedTable where
  id : String
  name : String
  columns : List SuggestedColumn
  deriving DecidableEq, Repr

/-- A column of a suggestion, by the ids of the suggestion. -/
structure SuggestedEnd where
  table : String
  column : String
  deriving DecidableEq, Repr

structure SuggestedRelation where
  source : SuggestedEnd
  target : SuggestedEnd
  cardinality : Cardinality
  deriving DecidableEq, Repr

structure Suggestion where
  tables : List SuggestedTable
  relations : List SuggestedRelation
  deriving DecidableEq, Repr

inductive SuggestionError
  /-- The service that makes suggestions failed. -/
  | service (reason : String)
  /-- The answer of the service is no suggestion. -/
  | malformed
  | duplicateTable (table : String)
  | duplicateColumn (table column : String)
  | unknownTable (relation : Nat) (table : String)
  | unknownColumn (relation : Nat) (table column : String)
  /-- An operation on the schema that is being built failed. -/
  | missing (m : Missing)
  deriving DecidableEq, Repr

def SuggestionError.message : SuggestionError → String
  | service reason => s!"suggestion service failed: {reason}"
  | malformed => "malformed suggestion"
  | duplicateTable table => s!"suggested table id `{table}` is used more than once"
  | duplicateColumn table column =>
    s!"suggested column id `{column}` is used more than once in table `{table}`"
  | unknownTable relation table =>
    s!"suggested relation {relation} references unknown table `{table}`"
  | unknownColumn relation table column =>
    s!"suggested relation {relation} references unknown column `{column}` of table `{table}`"
  | missing m => m.message

/-! ## JSON -/

namespace SuggestedColumn

def toJson (c : SuggestedColumn) : Json :=
  .ofFields [("id", .text c.id), ("name", .text c.name), ("type", .text c.type.name),
    ("isPK", .bool c.isPrimaryKey), ("isFK", .bool c.isForeignKey),
    ("isUnique", .bool c.isUnique), ("isNullable", .bool c.isNullable)]

def ofJson? (value : Json) : Option SuggestedColumn := do
  let [id, name, type, isPrimaryKey, isForeignKey, isUnique, isNullable] ←
    fields? ["id", "name", "type", "isPK", "isFK", "isUnique", "isNullable"] value | none
  return {
    id := ← required text? id
    name := ← required text? name
    type := ← required ColumnType.ofJson? type
    isPrimaryKey := ← withDefault false bool? isPrimaryKey
    isForeignKey := ← withDefault false bool? isForeignKey
    isUnique := ← withDefault false bool? isUnique
    isNullable := ← withDefault true bool? isNullable }

end SuggestedColumn

namespace SuggestedTable

def toJson (t : SuggestedTable) : Json :=
  .ofFields [("id", .text t.id), ("name", .text t.name),
    ("columns", .array (t.columns.map SuggestedColumn.toJson))]

def ofJson? (value : Json) : Option SuggestedTable := do
  let [id, name, columns] ← fields? ["id", "name", "columns"] value | none
  return {
    id := ← required text? id
    name := ← required text? name
    columns := ← withDefault [] (list? SuggestedColumn.ofJson?) columns }

end SuggestedTable

namespace SuggestedRelation

def toJson (r : SuggestedRelation) : Json :=
  .ofFields [("sourceTableId", .text r.source.table), ("sourceColumnId", .text r.source.column),
    ("targetTableId", .text r.target.table), ("targetColumnId", .text r.target.column),
    ("type", .text r.cardinality.name)]

/-- A cardinality in any letter case, with or without blanks around it. -/
def cardinality? (value : Json) : Option Cardinality := value.text?.bind Cardinality.ofText?

def ofJson? (value : Json) : Option SuggestedRelation := do
  let [sourceTable, sourceColumn, targetTable, targetColumn, cardinality] ←
    fields? ["sourceTableId", "sourceColumnId", "targetTableId", "targetColumnId", "type"] value
    | none
  return {
    source := ⟨← required text? sourceTable, ← required text? sourceColumn⟩
    target := ⟨← required text? targetTable, ← required text? targetColumn⟩
    cardinality := ← withDefault .oneToMany cardinality? cardinality }

end SuggestedRelation

namespace Suggestion

def toJson (s : Suggestion) : Json :=
  .ofFields [("tables", .array (s.tables.map SuggestedTable.toJson)),
    ("relations", .array (s.relations.map SuggestedRelation.toJson))]

def ofJson? (value : Json) : Option Suggestion := do
  let [tables, relations] ← fields? ["tables", "relations"] value | none
  return {
    tables := ← required (list? SuggestedTable.ofJson?) tables
    relations := ← withDefault [] (list? SuggestedRelation.ofJson?) relations }

def parse? (source : String) : Option Suggestion := (Json.parse? source).bind ofJson?

/-! ## Checking -/

/-- The first id that is used twice for a table, or twice for a column of one table.  The columns
of a table are looked at before its own id. -/
def repeatedId? (seen : List String) : List SuggestedTable → Option SuggestionError
  | [] => none
  | t :: rest =>
    match firstRepeated? [] (t.columns.map (·.id)) with
    | some column => some (.duplicateColumn t.id column)
    | none => if t.id ∈ seen then some (.duplicateTable t.id) else repeatedId? (t.id :: seen) rest

/-- What is wrong with an end of the relation of the given index. -/
def unknownEnd? (s : Suggestion) (relation : Nat) (e : SuggestedEnd) : Option SuggestionError :=
  match s.tables.find? (·.id == e.table) with
  | none => some (.unknownTable relation e.table)
  | some t =>
    if t.columns.any (·.id == e.column) then none
    else some (.unknownColumn relation e.table e.column)

/-- What is wrong with the first bad relation, of relations of which the first has the given
index. -/
def badRelation? (s : Suggestion) (index : Nat) : List SuggestedRelation → Option SuggestionError
  | [] => none
  | r :: rest =>
    match (s.unknownEnd? index r.source).or (s.unknownEnd? index r.target) with
    | some e => some e
    | none => badRelation? s (index + 1) rest

/-- What is wrong with a suggestion: ids that are used twice come first. -/
def fault? (s : Suggestion) : Option SuggestionError :=
  (repeatedId? [] s.tables).or (s.badRelation? 0 s.relations)

/-! ## Building -/

/-- The columns of a suggestion and what became of them. -/
abbrev Renaming := List (SuggestedEnd × Endpoint)

/-- The schema with the columns of a suggested table at the end of the table `table`. -/
def addColumns (table : TableId) (id : String) (s : Schema) (names : Renaming) :
    List SuggestedColumn → Except SuggestionError (Schema × Renaming)
  | [] => .ok (s, names)
  | c :: rest => do
    let (s, column) ← (s.addColumn table c.spec).mapError .missing
    addColumns table id s (names ++ [(⟨id, c.id⟩, ⟨table, column⟩)]) rest

def addTables (s : Schema) (names : Renaming) :
    List SuggestedTable → Except SuggestionError (Schema × Renaming)
  | [] => .ok (s, names)
  | t :: rest => do
    let (s, table) := s.addTable t.name none
    let (s, names) ← addColumns table t.id s names t.columns
    addTables s names rest

/-- The schema with the suggested relations.  Every end of them has to be known. -/
def addRelations (names : Renaming) (s : Schema) (index : Nat) :
    List SuggestedRelation → Except SuggestionError Schema
  | [] => .ok s
  | r :: rest =>
    match names.lookup r.source, names.lookup r.target with
    | some source, some target => do
      let (s, id) ← (s.connect source target).mapError .missing
      let s ← (s.setCardinality id r.cardinality).mapError .missing
      addRelations names s (index + 1) rest
    | none, _ => .error (.unknownColumn index r.source.table r.source.column)
    | _, none => .error (.unknownColumn index r.target.table r.target.column)

def toSchema (s : Suggestion) : Except SuggestionError Schema :=
  match s.fault? with
  | some e => .error e
  | none => do
    let (schema, names) ← addTables .empty [] s.tables
    addRelations names schema 0 s.relations

end Suggestion

end Schemata
