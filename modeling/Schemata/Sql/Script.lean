/-
Writing a schema as a definition script: a statement for every table, and then one for every
relation.  All names are quoted, so they may hold any characters.
-/
import Schemata.Schema.Consistency

namespace Schemata
namespace Sql

/-- The text with every quotation mark doubled. -/
def doubleQuotes (cs : List Char) : List Char := cs.flatMap fun c => if c = '"' then [c, c] else [c]

def quoteName (name : String) : String :=
  String.ofList (['"'] ++ doubleQuotes name.toList ++ ['"'])

inductive ScriptError
  | unknownTable (relation : RelationId) (table : TableId)
  | unknownColumn (relation : RelationId) (e : Endpoint)
  | duplicateTableName (name : String)
  | duplicateColumnName (table column : String)
  | inconsistent (violation : Violation)
  deriving DecidableEq, Repr

def ScriptError.message : ScriptError → String
  | unknownTable relation table =>
    s!"relation {relation.text} references unknown table {table.text}"
  | unknownColumn relation e =>
    s!"relation {relation.text} references unknown column {e.column.text} of table {e.table.text}"
  | duplicateTableName name => s!"table name `{name}` is used more than once"
  | duplicateColumnName table column =>
    s!"column name `{column}` is used more than once in table `{table}`"
  | inconsistent violation => s!"inconsistent graph: {violation.message}"

/-! ## Tables -/

/-- The line of a column.  The columns of a primary key need not be declared unique. -/
def columnLine (c : Column) : String :=
  "    " ++ quoteName c.name ++ " " ++ c.type.name ++
    (if c.isNullable then "" else " NOT NULL") ++
    (if c.isUnique && !c.isPrimaryKey then " UNIQUE" else "")

/-- The line of the primary key, if there is one. -/
def primaryKeyLine? (t : Table) : Option String :=
  if t.primaryKey.isEmpty then none
  else some ("    PRIMARY KEY (" ++ ", ".intercalate (t.primaryKey.map (quoteName ·.name)) ++ ")")

def tableLines (t : Table) : List String := t.columns.map columnLine ++ (primaryKeyLine? t).toList

def tableStatement (t : Table) : String :=
  "CREATE TABLE " ++ quoteName t.name ++ " (\n" ++
    (if (tableLines t).isEmpty then "" else ",\n".intercalate (tableLines t) ++ "\n") ++ ");\n"

/-! ## Relations -/

/-- The table and the column at an end of a relation. -/
def endOf (s : Schema) (relation : RelationId) (e : Endpoint) :
    Except ScriptError (Table × Column) :=
  match s.table? e.table with
  | none => .error (.unknownTable relation e.table)
  | some t =>
    match t.column? e.column with
    | none => .error (.unknownColumn relation e)
    | some c => .ok (t, c)

/-- The name of the constraint for the `k`-th relation. -/
def constraintName (table column : String) (k : Nat) : String := s!"fk_{table}_{column}_{k}"

/-- The statement for the `k`-th relation. -/
def relationStatement (s : Schema) (k : Nat) (r : Relation) : Except ScriptError String := do
  let (sourceTable, sourceColumn) ← endOf s r.id r.source
  let (targetTable, targetColumn) ← endOf s r.id r.target
  return "ALTER TABLE " ++ quoteName targetTable.name ++ " ADD CONSTRAINT " ++
    quoteName (constraintName targetTable.name targetColumn.name k) ++
    " FOREIGN KEY (" ++ quoteName targetColumn.name ++ ") REFERENCES " ++
    quoteName sourceTable.name ++ " (" ++ quoteName sourceColumn.name ++ ");\n"

/-- The statements for relations of which the first is the `k`-th.  Nothing bounds the numbers
here; a signed counter of 32 bits holds those of fewer than `2 ^ 31` relations. -/
def relationStatements (s : Schema) (k : Nat) : List Relation → Except ScriptError (List String)
  | [] => .ok []
  | r :: rest => do
    let statement ← relationStatement s k r
    let more ← relationStatements s (k + 1) rest
    return statement :: more

/-! ## Scripts -/

/-- The first name that is used twice, for tables or for columns of one table. -/
def repeatedName? (seen : List String) : List Table → Option ScriptError
  | [] => none
  | t :: rest =>
    if t.name ∈ seen then some (.duplicateTableName t.name)
    else match firstRepeated? [] (t.columns.map (·.name)) with
      | some column => some (.duplicateColumnName t.name column)
      | none => repeatedName? (t.name :: seen) rest

def script (s : Schema) : Except ScriptError String :=
  match repeatedName? [] s.tables with
  | some e => .error e
  | none => do
    let relations ← relationStatements s 1 s.relations
    return "\n".intercalate (s.tables.map tableStatement ++ relations)

/-- The script that defines the schema, if the schema is consistent. -/
def checkedScript (s : Schema) : Except ScriptError String :=
  match s.violation? with
  | some v => .error (.inconsistent v)
  | none => script s

end Sql
end Schemata
