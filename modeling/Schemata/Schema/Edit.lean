/-
Edits: the operations on a schema as data, so that a history of a schema is a list.
-/
import Schemata.Schema.Operations

namespace Schemata

inductive Edit
  | addTable (name : String) (first : Option ColumnSpec)
  | renameTable (table : TableId) (name : String)
  | removeTable (table : TableId)
  | addColumn (table : TableId) (spec : ColumnSpec)
  | updateColumn (e : Endpoint) (patch : ColumnPatch)
  | removeColumn (e : Endpoint)
  | reorderColumn (table : TableId) (source destination : Nat)
  | connect (source target : Endpoint)
  | setCardinality (relation : RelationId) (cardinality : Cardinality)
  | disconnect (relation : RelationId)
  | reconcile
  deriving DecidableEq, Repr

namespace Edit

/-- The table that is added if nothing else is asked for. -/
def addDefaultTable : Edit := addTable "new_table" (some .primaryId)

end Edit

/-- What an edit reports: an id that was given, a part that was removed, or a number. -/
inductive Outcome
  | done
  | newTable (id : TableId)
  | newColumn (id : ColumnId)
  | newRelation (id : RelationId)
  | removedTable (t : Table)
  | removedColumn (c : Column)
  | removedRelation (r : Relation)
  | changed (count : Nat)
  deriving DecidableEq, Repr

namespace Schema

/-- The schema after an edit, and what the edit reports. -/
def perform (s : Schema) : Edit → Except Missing (Schema × Outcome)
  | .addTable name first =>
    let (s, id) := s.addTable name first
    .ok (s, .newTable id)
  | .renameTable table name => do
    let s ← s.renameTable table name
    return (s, .done)
  | .removeTable table => do
    let (s, t) ← s.removeTable table
    return (s, .removedTable t)
  | .addColumn table spec => do
    let (s, id) ← s.addColumn table spec
    return (s, .newColumn id)
  | .updateColumn e patch => do
    let s ← s.updateColumn e patch
    return (s, .done)
  | .removeColumn e => do
    let (s, c) ← s.removeColumn e
    return (s, .removedColumn c)
  | .reorderColumn table source destination => do
    let s ← s.reorderColumn table source destination
    return (s, .done)
  | .connect source target => do
    let (s, id) ← s.connect source target
    return (s, .newRelation id)
  | .setCardinality relation cardinality => do
    let s ← s.setCardinality relation cardinality
    return (s, .done)
  | .disconnect relation => do
    let (s, r) ← s.disconnect relation
    return (s, .removedRelation r)
  | .reconcile =>
    let (s, n) := s.reconcile
    .ok (s, .changed n)

/-- The schema after an edit.  An edit that fails changes nothing. -/
def after (s : Schema) (edit : Edit) : Schema :=
  match s.perform edit with
  | .ok (s, _) => s
  | .error _ => s

def afterAll (s : Schema) (edits : List Edit) : Schema := edits.foldl after s

end Schema

end Schemata
