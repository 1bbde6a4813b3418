/-
Schemas: tables with their columns, and relations between columns.  The source of a relation is
the column that is referred to, and its target is the column that holds the foreign key.
-/

namespace Schemata

structure TableId where
  text : String
  deriving DecidableEq, Repr

structure ColumnId where
  text : String
  deriving DecidableEq, Repr

structure RelationId where
  text : String
  deriving DecidableEq, Repr

inductive ColumnType
  | varchar
  | integer
  | boolean
  | date
  | timestamp
  | uuid
  | text
  | json
  deriving DecidableEq, Repr

namespace ColumnType

def all : List ColumnType := [varchar, integer, boolean, date, timestamp, uuid, text, json]

def name : ColumnType → String
  | varchar => "VARCHAR"
  | integer => "INTEGER"
  | boolean => "BOOLEAN"
  | date => "DATE"
  | timestamp => "TIMESTAMP"
  | uuid => "UUID"
  | text => "TEXT"
  | json => "JSON"

def ofName? (s : String) : Option ColumnType := all.find? (·.name == s)

end ColumnType

/-- How many rows on either side of a relation belong together. -/
inductive Cardinality
  | oneToOne
  | oneToMany
  | manyToMany
  deriving DecidableEq, Repr

namespace Cardinality

def all : List Cardinality := [oneToOne, oneToMany, manyToMany]

def name : Cardinality → String
  | oneToOne => "1:1"
  | oneToMany => "1:N"
  | manyToMany => "N:M"

def ofName? (s : String) : Option Cardinality := all.find? (·.name == s)

/-- Whether an arrow head is drawn at the source and at the target. -/
def arrowHeads : Cardinality → Bool × Bool
  | oneToOne => (false, false)
  | oneToMany => (false, true)
  | manyToMany => (true, true)

end Cardinality

structure Column where
  id : ColumnId
  name : String
  type : ColumnType
  isPrimaryKey : Bool
  /-- A note that some relation targets the column.  See `Schema.isForeignKey`. -/
  isForeignKey : Bool
  isUnique : Bool
  isNullable : Bool
  deriving DecidableEq, Repr

structure Table where
  id : TableId
  name : String
  columns : List Column
  deriving DecidableEq, Repr

namespace Table

def column? (t : Table) (id : ColumnId) : Option Column := t.columns.find? (·.id == id)

def columnNamed? (t : Table) (name : String) : Option Column := t.columns.find? (·.name == name)

def columnIndex? (t : Table) (id : ColumnId) : Option Nat := t.columns.findIdx? (·.id == id)

/-- The columns of the primary key, in the order of the columns. -/
def primaryKey (t : Table) : List Column := t.columns.filter (·.isPrimaryKey)

end Table

/-- A column of a table, by their ids. -/
structure Endpoint where
  table : TableId
  column : ColumnId
  deriving DecidableEq, Repr

structure Relation where
  id : RelationId
  source : Endpoint
  target : Endpoint
  cardinality : Cardinality
  deriving DecidableEq, Repr

namespace Relation

def touches (r : Relation) (e : Endpoint) : Bool := r.source == e || r.target == e

def touchesTable (r : Relation) (t : TableId) : Bool := r.source.table == t || r.target.table == t

end Relation

/-- A schema: its tables and relations in the order they were made, and the number that the last
new id was given. -/
structure Schema where
  tables : List Table
  relations : List Relation
  counter : Nat
  deriving DecidableEq, Repr

namespace Schema

def empty : Schema := ⟨[], [], 0⟩

def isEmpty (s : Schema) : Bool := s.tables.isEmpty

def table? (s : Schema) (id : TableId) : Option Table := s.tables.find? (·.id == id)

/-- The first table with the given name.  Names may occur twice while a schema is edited. -/
def tableNamed? (s : Schema) (name : String) : Option Table := s.tables.find? (·.name == name)

def column? (s : Schema) (e : Endpoint) : Option Column :=
  (s.table? e.table).bind (·.column? e.column)

def relation? (s : Schema) (id : RelationId) : Option Relation := s.relations.find? (·.id == id)

def relationsOfTable (s : Schema) (t : TableId) : List Relation :=
  s.relations.filter (·.touchesTable t)

def relationsOfColumn (s : Schema) (e : Endpoint) : List Relation :=
  s.relations.filter (·.touches e)

/-- Whether some relation targets the column.  The note in the column itself only repeats this. -/
def isForeignKey (s : Schema) (e : Endpoint) : Bool := s.relations.any (·.target == e)

end Schema

end Schemata
