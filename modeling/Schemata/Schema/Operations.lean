/-
Changing a schema.  Every operation first looks up what it refers to and fails if something is
missing; then it makes the whole change, so that what relations and columns say about each other
agrees again.
-/
import Schemata.Schema.FreshId

namespace Schemata

/-- What an operation refers to is not there. -/
inductive Missing
  | table (table : TableId)
  | column (e : Endpoint)
  | relation (relation : RelationId)
  | position (table : TableId) (index length : Nat)
  deriving DecidableEq, Repr

def Missing.message : Missing → String
  | table id => s!"table {id.text} not found"
  | column e => s!"column {e.column.text} not found in table {e.table.text}"
  | relation id => s!"relation {id.text} not found"
  | position id index length =>
    s!"column position {index} out of range for table {id.text} ({length} columns)"

structure ColumnSpec where
  name : String := "new_column"
  type : ColumnType := .varchar
  isPrimaryKey : Bool := false
  isUnique : Bool := false
  isNullable : Bool := true
  deriving DecidableEq, Repr

/-- The primary key that a new table begins with. -/
def ColumnSpec.primaryId : ColumnSpec := ⟨"id", .integer, true, false, false⟩

/-- The properties of a column that are to change.  A wish about the note that the column is a
foreign key has no effect, because the relations decide about it. -/
structure ColumnPatch where
  name : Option String := none
  type : Option ColumnType := none
  isPrimaryKey : Option Bool := none
  isForeignKey : Option Bool := none
  isUnique : Option Bool := none
  isNullable : Option Bool := none
  deriving DecidableEq, Repr

/-- The column after a patch, of which the relations say whether it is a foreign key. -/
def ColumnPatch.apply (p : ColumnPatch) (isForeignKey : Bool) (c : Column) : Column where
  id := c.id
  name := p.name.getD c.name
  type := p.type.getD c.type
  isPrimaryKey := p.isPrimaryKey.getD c.isPrimaryKey
  isForeignKey := isForeignKey
  isUnique := p.isUnique.getD c.isUnique
  isNullable := p.isNullable.getD c.isNullable

/-- The list with `f` applied to the first item that satisfies `p`. -/
def modifyFirst (p : α → Bool) (f : α → α) : List α → List α
  | [] => []
  | x :: rest => if p x then f x :: rest else x :: modifyFirst p f rest

namespace Schema

/-! ## Looking up -/

def requireTable (s : Schema) (id : TableId) : Except Missing Table :=
  match s.table? id with
  | some t => .ok t
  | none => .error (.table id)

def requireColumn (s : Schema) (e : Endpoint) : Except Missing Column := do
  let t ← s.requireTable e.table
  match t.column? e.column with
  | some c => .ok c
  | none => .error (.column e)

def requireRelation (s : Schema) (id : RelationId) : Except Missing Relation :=
  match s.relation? id with
  | some r => .ok r
  | none => .error (.relation id)

/-! ## Changing parts -/

def modifyTable (s : Schema) (id : TableId) (f : Table → Table) : Schema :=
  { s with tables := modifyFirst (·.id == id) f s.tables }

def modifyColumn (s : Schema) (e : Endpoint) (f : Column → Column) : Schema :=
  s.modifyTable e.table fun t => { t with columns := modifyFirst (·.id == e.column) f t.columns }

/-- The schema in which the column notes what the relations say. -/
def refresh (s : Schema) (e : Endpoint) : Schema :=
  s.modifyColumn e fun c => { c with isForeignKey := s.isForeignKey e }

/-- A new column, and the schema that has given it its id.  The counter has no bound here, and no run
reaches that of 64 bits: see `freshTable` for the reason and `draw_least` for the limit. -/
def newColumn (s : Schema) (spec : ColumnSpec) : Column × Schema :=
  let n := s.freshColumn
  (⟨.ofNumber n, spec.name, spec.type, spec.isPrimaryKey, false, spec.isUnique, spec.isNullable⟩,
    { s with counter := n })

/-- The schema with a new column at the end of a table, and the id of the column. -/
def insertColumn (s : Schema) (table : TableId) (spec : ColumnSpec) : Schema × ColumnId :=
  let (c, s) := s.newColumn spec
  (s.modifyTable table fun t => { t with columns := t.columns ++ [c] }, c.id)

/-- The schema with a new relation, and the id of the relation. -/
def insertRelation (s : Schema) (source target : Endpoint) (cardinality : Cardinality) :
    Schema × RelationId :=
  let n := s.freshRelation
  let r : Relation := ⟨.ofNumber n, source, target, cardinality⟩
  ({ s with relations := s.relations ++ [r], counter := n }.refresh target, r.id)

/-! ## Operations -/

/-- A new table, with one column or none. -/
def addTable (s : Schema) (name : String) (first : Option ColumnSpec) : Schema × TableId :=
  let n := s.freshTable
  let id := TableId.ofNumber n
  let s := { s with counter := n }
  match first with
  | none => ({ s with tables := s.tables ++ [⟨id, name, []⟩] }, id)
  | some spec =>
    let (c, s) := s.newColumn spec
    ({ s with tables := s.tables ++ [⟨id, name, [c]⟩] }, id)

/-- Names may occur twice while a schema is edited. -/
def renameTable (s : Schema) (id : TableId) (name : String) : Except Missing Schema := do
  let _ ← s.requireTable id
  return s.modifyTable id fun t => { t with name := name }

/-- Removes a table with its columns and every relation that touches it. -/
def removeTable (s : Schema) (id : TableId) : Except Missing (Schema × Table) := do
  let t ← s.requireTable id
  let removed := s.relations.filter (·.touchesTable id)
  let rest : Schema :=
    { s with tables := s.tables.eraseP (·.id == id),
             relations := s.relations.filter (!·.touchesTable id) }
  return (removed.foldl (fun s r => s.refresh r.target) rest, t)

def addColumn (s : Schema) (table : TableId) (spec : ColumnSpec) :
    Except Missing (Schema × ColumnId) := do
  let _ ← s.requireTable table
  return s.insertColumn table spec

def updateColumn (s : Schema) (e : Endpoint) (patch : ColumnPatch) : Except Missing Schema := do
  let _ ← s.requireColumn e
  return s.modifyColumn e (patch.apply (s.isForeignKey e))

def removeColumn (s : Schema) (e : Endpoint) : Except Missing (Schema × Column) := do
  let c ← s.requireColumn e
  let removed := s.relations.filter (·.touches e)
  let rest := { s with relations := s.relations.filter (!·.touches e) }.modifyTable e.table fun t =>
    { t with columns := t.columns.eraseP (·.id == e.column) }
  return (removed.foldl (fun s r => (s.refresh r.source).refresh r.target) rest, c)

/-- Moves the column at `source` so that it stands at `destination`. -/
def reorderColumn (s : Schema) (table : TableId) (source destination : Nat) :
    Except Missing Schema := do
  let t ← s.requireTable table
  let length := t.columns.length
  if source ≥ length then throw (.position table source length)
  if destination ≥ length then throw (.position table destination length)
  return s.modifyTable table fun t =>
    match t.columns[source]? with
    | some c => { t with columns := (t.columns.eraseIdx source).insertIdx destination c }
    | none => t

/-- A new relation, of which the target becomes a foreign key. -/
def connect (s : Schema) (source target : Endpoint) : Except Missing (Schema × RelationId) := do
  let _ ← s.requireColumn source
  let _ ← s.requireColumn target
  return s.insertRelation source target .oneToMany

def setCardinality (s : Schema) (id : RelationId) (cardinality : Cardinality) :
    Except Missing Schema := do
  let _ ← s.requireRelation id
  return { s with
    relations := modifyFirst (·.id == id) (fun r => { r with cardinality := cardinality })
      s.relations }

def disconnect (s : Schema) (id : RelationId) : Except Missing (Schema × Relation) := do
  let r ← s.requireRelation id
  return ({ s with relations := s.relations.eraseP (·.id == id) }.refresh r.target, r)

/-- The table in which every column notes what the relations say. -/
def reconciledTable (s : Schema) (t : Table) : Table :=
  { t with
    columns := t.columns.map fun c => { c with isForeignKey := s.isForeignKey ⟨t.id, c.id⟩ } }

/-- The columns of all tables that note something wrong. -/
def misflagged (s : Schema) : List Column :=
  s.tables.flatMap fun t => t.columns.filter fun c => c.isForeignKey != s.isForeignKey ⟨t.id, c.id⟩

/-- Makes every column note what the relations say, and counts the notes that were wrong. -/
def reconcile (s : Schema) : Schema × Nat :=
  ({ s with tables := s.tables.map s.reconciledTable }, s.misflagged.length)

end Schema

end Schemata
