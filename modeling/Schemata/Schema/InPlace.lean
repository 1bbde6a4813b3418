/-
Changing a schema in place, step by step.  The schema is still there if a step finds something
missing, and it is then as the earlier steps have left it.
-/
import Schemata.Schema.Edit

namespace Schemata

/-- A procedure that changes a schema in place, and may end early because something is missing. -/
abbrev InPlace := EStateM Missing Schema

namespace InPlace

/-! ## Looking up -/

def requireTable (id : TableId) : InPlace Table := do
  match (← get).table? id with
  | some t => return t
  | none => throw (.table id)

def requireColumn (e : Endpoint) : InPlace Column := do
  let t ← requireTable e.table
  match t.column? e.column with
  | some c => return c
  | none => throw (.column e)

def requireRelation (id : RelationId) : InPlace Relation := do
  match (← get).relation? id with
  | some r => return r
  | none => throw (.relation id)

def requirePosition (table : TableId) (index length : Nat) : InPlace Unit :=
  if index < length then return else throw (.position table index length)

/-! ## Steps -/

/-- The id of a new table.  Its number counts as given even if the table is not made. -/
def newTableId : InPlace TableId := modifyGet fun s =>
  (.ofNumber s.freshTable, { s with counter := s.freshTable })

def newColumn (spec : ColumnSpec) : InPlace Column := modifyGet fun s => s.newColumn spec

def newRelationId : InPlace RelationId := modifyGet fun s =>
  (.ofNumber s.freshRelation, { s with counter := s.freshRelation })

/-- Takes away the relations that satisfy `p`. -/
def takeRelations (p : Relation → Bool) : InPlace (List Relation) := do
  let (taken, kept) := (← get).relations.partition p
  modify fun s => { s with relations := kept }
  return taken

def refreshAll (es : List Endpoint) : InPlace Unit := modify fun s => es.foldl Schema.refresh s

/-! ## Operations -/

def addTable (name : String) (first : Option ColumnSpec) : InPlace TableId := do
  let id ← newTableId
  let columns ← match first with
    | some spec => do
      let c ← newColumn spec
      pure [c]
    | none => pure []
  modify fun s => { s with tables := s.tables ++ [⟨id, name, columns⟩] }
  return id

def renameTable (id : TableId) (name : String) : InPlace Unit := do
  let _ ← requireTable id
  modify (·.modifyTable id fun t => { t with name := name })

/-- The table is looked up once, before its relations are taken away. -/
def removeTable (id : TableId) : InPlace Table := do
  let tables := (← get).tables
  match tables.findFinIdx? (·.id == id) with
  | none => throw (.table id)
  | some i =>
    let removed ← takeRelations (·.touchesTable id)
    modify fun s => { s with tables := s.tables.eraseIdx i }
    refreshAll (removed.map (·.target))
    return tables[i]

def addColumn (table : TableId) (spec : ColumnSpec) : InPlace ColumnId := do
  let _ ← requireTable table
  let c ← newColumn spec
  modify (·.modifyTable table fun t => { t with columns := t.columns ++ [c] })
  return c.id

def updateColumn (e : Endpoint) (patch : ColumnPatch) : InPlace Unit := do
  let _ ← requireColumn e
  let isForeignKey := (← get).isForeignKey e
  modify (·.modifyColumn e (patch.apply isForeignKey))

/-- The column is looked up again after its relations were taken away. -/
def removeColumn (e : Endpoint) : InPlace Column := do
  let _ ← requireColumn e
  let removed ← takeRelations (·.touches e)
  let t ← requireTable e.table
  match t.columns.findFinIdx? (·.id == e.column) with
  | none => throw (.column e)
  | some i =>
    modify (·.modifyTable e.table fun t => { t with columns := t.columns.eraseIdx i })
    refreshAll (removed.flatMap fun r => [r.source, r.target])
    return t.columns[i]

def reorderColumn (table : TableId) (source destination : Nat) : InPlace Unit := do
  let t ← requireTable table
  requirePosition table source t.columns.length
  requirePosition table destination t.columns.length
  modify (·.modifyTable table fun t =>
    match t.columns[source]? with
    | some c => { t with columns := (t.columns.eraseIdx source).insertIdx destination c }
    | none => t)

def connect (source target : Endpoint) : InPlace RelationId := do
  let _ ← requireColumn source
  let _ ← requireColumn target
  let id ← newRelationId
  modify fun s => { s with relations := s.relations ++ [⟨id, source, target, .oneToMany⟩] }
  refreshAll [target]
  return id

def setCardinality (id : RelationId) (cardinality : Cardinality) : InPlace Unit := do
  let _ ← requireRelation id
  modify fun s => { s with
    relations := modifyFirst (·.id == id) (fun r => { r with cardinality := cardinality })
      s.relations }

def disconnect (id : RelationId) : InPlace Relation := do
  let relations := (← get).relations
  match relations.findFinIdx? (·.id == id) with
  | none => throw (.relation id)
  | some i =>
    modify fun s => { s with relations := s.relations.eraseIdx i }
    refreshAll [relations[i].target]
    return relations[i]

/-- Makes the column at a place note what the relations say, and counts it if it noted otherwise.
Where there is no column nothing happens. -/
def reconcileColumn (i changed j : Nat) : InPlace Nat := do
  let s ← get
  match s.tables[i]? with
  | none => return changed
  | some t =>
    match t.columns[j]? with
    | none => return changed
    | some c =>
      let derived := s.isForeignKey ⟨t.id, c.id⟩
      if c.isForeignKey = derived then return changed
      let columns := t.columns.set j { c with isForeignKey := derived }
      set { s with tables := s.tables.set i { t with columns := columns } }
      return changed + 1

/-- Goes through the columns of the table at a place, one after the other. -/
def reconcileTable (changed i : Nat) : InPlace Nat := do
  let count := ((← get).tables[i]?.map (·.columns.length)).getD 0
  (List.range count).foldlM (reconcileColumn i) changed

/-- Goes through all tables, and counts the notes that were wrong. -/
def reconcile : InPlace Nat := do
  (List.range (← get).tables.length).foldlM reconcileTable 0

end InPlace

/-- The edit as a procedure. -/
def Edit.inPlace : Edit → InPlace Outcome
  | .addTable name first => .newTable <$> InPlace.addTable name first
  | .renameTable table name => do
    InPlace.renameTable table name
    return .done
  | .removeTable table => .removedTable <$> InPlace.removeTable table
  | .addColumn table spec => .newColumn <$> InPlace.addColumn table spec
  | .updateColumn e patch => do
    InPlace.updateColumn e patch
    return .done
  | .removeColumn e => .removedColumn <$> InPlace.removeColumn e
  | .reorderColumn table source destination => do
    InPlace.reorderColumn table source destination
    return .done
  | .connect source target => .newRelation <$> InPlace.connect source target
  | .setCardinality relation cardinality => do
    InPlace.setCardinality relation cardinality
    return .done
  | .disconnect relation => .removedRelation <$> InPlace.disconnect relation
  | .reconcile => .changed <$> InPlace.reconcile

end Schemata
