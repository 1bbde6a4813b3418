/-
Looking up the names of a document.  All tables and their columns are made first, then the keys
are marked, and then the foreign keys become relations, so a constraint may stand before the
tables that it names.
-/
import Schemata.Schema.Operations
import Schemata.Sql.Definition

namespace Schemata
namespace Sql

/-- Something that a constraint names is not there. -/
def unresolved (d : ConstraintDef) (reference : Reference) : ImportError :=
  .rejected (.unresolved reference) d.site

/-! ## Tables -/

def ColumnDef.spec (c : ColumnDef) : ColumnSpec :=
  ⟨c.name, c.type, c.isPrimaryKey, c.isUnique, c.isNullable⟩

def declareTable (s : Schema) (d : TableDef) : Schema :=
  let (s, table) := s.addTable d.name none
  d.columns.foldl (fun s c => (s.insertColumn table c.spec).1) s

/-- The schema with new tables, none of which may have the name of an earlier one. -/
def declareTables (s : Schema) : List TableDef → Except ImportError Schema
  | [] => .ok s
  | d :: rest =>
    if (s.tableNamed? d.name).isSome then
      .error (.rejected (.malformed (.duplicateTable d.name)) d.site)
    else declareTables (declareTable s d) rest

/-! ## Names -/

def findTable (s : Schema) (name : String) : Except Reference Table :=
  match s.tableNamed? name with
  | some t => .ok t
  | none => .error (.table name)

def findColumn (s : Schema) (table column : String) : Except Reference Endpoint := do
  let t ← findTable s table
  match t.columnNamed? column with
  | some c => .ok ⟨t.id, c.id⟩
  | none => .error (.column table column)

/-! ## Keys -/

/-- The schema with the columns of a primary key marked, one after the other. -/
def markPrimaryKey (s : Schema) (table : String) : List String → Except Reference Schema
  | [] => .ok s
  | column :: rest => do
    let e ← findColumn s table column
    markPrimaryKey (s.modifyColumn e fun c => { c with isPrimaryKey := true }) table rest

/-- The schema with a unique column marked.  Several columns that are unique together have no mark
of their own. -/
def markUnique (s : Schema) (table : String) (columns : List String) :
    Except Reference Schema := do
  match ← columns.mapM (findColumn s table) with
  | [e] => return s.modifyColumn e fun c => { c with isUnique := true }
  | _ => return s

/-- The schema after a constraint that is no foreign key. -/
def applyKey (s : Schema) (d : ConstraintDef) : Except Reference Schema :=
  match d.constraint with
  | .primaryKey columns => markPrimaryKey s d.table columns
  | .unique columns => markUnique s d.table columns
  | .foreignKey _ => .ok s

/-! ## Foreign keys -/

/-- The names of the columns that a foreign key refers to.  Without a list they are the primary
key of the table, which then has to have as many columns as the foreign key. -/
def targetNames (s : Schema) (key : ForeignKey) : Except Reference (List String) :=
  if key.targets.isEmpty then do
    let t ← findTable s key.table
    let names := t.primaryKey.map (·.name)
    if names.length = key.columns.length then return names else .error (.primaryKey key.table)
  else .ok key.targets

/-- The columns that refer to others and the columns they refer to, pair by pair. -/
def findPairs (s : Schema) (holder : String) (key : ForeignKey) :
    Except Reference (List (Endpoint × Endpoint)) := do
  let targets ← targetNames s key
  (key.columns.zip targets).mapM fun (column, target) => do
    let referring ← findColumn s holder column
    let referred ← findColumn s key.table target
    return (referring, referred)

/-- Whether at most one row of its table can have a given value in the column: the column is
unique, or it is the whole primary key. -/
def isUniqueAlone (s : Schema) (e : Endpoint) : Bool :=
  match s.table? e.table with
  | none => false
  | some t =>
    match t.column? e.column with
    | none => false
    | some c => c.isUnique || (c.isPrimaryKey && t.primaryKey.length = 1)

/-- The cardinality of the relation that a foreign key makes. -/
def inferredCardinality (inferOneToOne : Bool) (s : Schema) (referring : Endpoint) : Cardinality :=
  if inferOneToOne && isUniqueAlone s referring then .oneToOne else .oneToMany

def relate (inferOneToOne : Bool) (s : Schema) (pairs : List (Endpoint × Endpoint)) : Schema :=
  pairs.foldl (fun s (referring, referred) =>
    (s.insertRelation referred referring (inferredCardinality inferOneToOne s referring)).1) s

/-- The schema after a constraint that is a foreign key. -/
def applyForeignKey (inferOneToOne : Bool) (s : Schema) (d : ConstraintDef) :
    Except Reference Schema :=
  match d.constraint with
  | .foreignKey key => do
    let pairs ← findPairs s d.table key
    return relate inferOneToOne s pairs
  | _ => .ok s

def Constraint.isForeignKey : Constraint → Bool
  | .foreignKey _ => true
  | _ => false

/-! ## Documents -/

/-- The schema after constraints, each of them applied by `step`. -/
def applyAll (step : Schema → ConstraintDef → Except Reference Schema) (s : Schema) :
    List ConstraintDef → Except ImportError Schema
  | [] => .ok s
  | d :: rest =>
    match step s d with
    | .error reference => .error (unresolved d reference)
    | .ok s => applyAll step s rest

def Document.toSchema (inferOneToOne : Bool) (d : Document) : Except ImportError Schema := do
  let s ← declareTables .empty d.tables
  let s ← applyAll applyKey s (d.constraints.filter (!·.constraint.isForeignKey))
  applyAll (applyForeignKey inferOneToOne) s (d.constraints.filter (·.constraint.isForeignKey))

end Sql
end Schemata
