/-
Consistent schemas.  Ids are not used twice, every relation leads from a column to a column, and
every column notes truly whether it is a foreign key.  `Schema.violation?` finds the first breach.
-/
import Schemata.Schema.Basic

namespace Schemata

inductive Violation
  | duplicateTable (table : TableId)
  | duplicateColumn (e : Endpoint)
  | duplicateRelation (relation : RelationId)
  | danglingTable (relation : RelationId) (table : TableId)
  | danglingColumn (relation : RelationId) (e : Endpoint)
  | foreignKeyFlag (e : Endpoint) (stored derived : Bool)
  deriving DecidableEq, Repr

def Violation.message : Violation → String
  | duplicateTable table => s!"duplicate table id {table.text}"
  | duplicateColumn e => s!"duplicate column id {e.column.text} in table {e.table.text}"
  | duplicateRelation relation => s!"duplicate relation id {relation.text}"
  | danglingTable relation table =>
    s!"relation {relation.text} references missing table {table.text}"
  | danglingColumn relation e =>
    s!"relation {relation.text} references missing column {e.column.text} of table {e.table.text}"
  | foreignKeyFlag e stored derived =>
    s!"column {e.column.text} of table {e.table.text} has isForeignKey={stored}, " ++
      s!"relations say {derived}"

/-- The first item that is among `seen` or among the items before it. -/
def firstRepeated? [DecidableEq α] (seen : List α) : List α → Option α
  | [] => none
  | x :: rest => if x ∈ seen then some x else firstRepeated? (x :: seen) rest

theorem firstRepeated?_eq_none [DecidableEq α] {seen xs : List α} :
    firstRepeated? seen xs = none ↔ xs.Nodup ∧ ∀ x ∈ xs, x ∉ seen := by
  induction xs generalizing seen with
  | nil => simp [firstRepeated?]
  | cons x rest ih =>
    unfold firstRepeated?
    split
    · next h => simp [h]
    · next h =>
      rw [ih]
      constructor
      · rintro ⟨hn, hd⟩
        exact ⟨List.nodup_cons.mpr ⟨fun hx => hd x hx (by simp), hn⟩,
          by
            intro y hy
            rcases List.mem_cons.mp hy with rfl | hy
            · exact h
            · exact fun hs => hd y hy (List.mem_cons_of_mem _ hs)⟩
      · rintro ⟨hn, hd⟩
        obtain ⟨hx, hn⟩ := List.nodup_cons.mp hn
        refine ⟨hn, fun y hy hys => ?_⟩
        rcases List.mem_cons.mp hys with rfl | hys
        · exact hx hy
        · exact hd y (List.mem_cons_of_mem _ hy) hys

namespace Schema

/-- The endpoint names a column of a table. -/
def HasEndpoint (s : Schema) (e : Endpoint) : Prop :=
  ∃ t ∈ s.tables, t.id = e.table ∧ ∃ c ∈ t.columns, c.id = e.column

/-- What the edits of a schema preserve. -/
structure Consistent (s : Schema) : Prop where
  tables_nodup : (s.tables.map (·.id)).Nodup
  columns_nodup : ∀ t ∈ s.tables, (t.columns.map (·.id)).Nodup
  relations_nodup : (s.relations.map (·.id)).Nodup
  endpoints : ∀ r ∈ s.relations, s.HasEndpoint r.source ∧ s.HasEndpoint r.target
  foreignKeys : ∀ t ∈ s.tables, ∀ c ∈ t.columns,
    (c.isForeignKey = true ↔ ∃ r ∈ s.relations, r.target = ⟨t.id, c.id⟩)

/-- The first id that is used twice for a table, or twice for a column of one table. -/
def tableViolation? (seen : List TableId) : List Table → Option Violation
  | [] => none
  | t :: rest =>
    if t.id ∈ seen then some (.duplicateTable t.id)
    else match firstRepeated? [] (t.columns.map (·.id)) with
      | some c => some (.duplicateColumn ⟨t.id, c⟩)
      | none => tableViolation? (t.id :: seen) rest

/-- Whether a relation has an end that names no column. -/
def endpointViolation? (s : Schema) (relation : RelationId) (e : Endpoint) : Option Violation :=
  match s.table? e.table with
  | none => some (.danglingTable relation e.table)
  | some t => if (t.column? e.column).isSome then none else some (.danglingColumn relation e)

/-- The first relation whose id is used twice or that has an end that names no column. -/
def relationViolation? (s : Schema) (seen : List RelationId) : List Relation → Option Violation
  | [] => none
  | r :: rest =>
    if r.id ∈ seen then some (.duplicateRelation r.id)
    else match (s.endpointViolation? r.id r.source).or (s.endpointViolation? r.id r.target) with
      | some v => some v
      | none => relationViolation? s (r.id :: seen) rest

/-- Whether a column notes wrongly that it is a foreign key. -/
def flagViolation? (s : Schema) (e : Endpoint) (stored : Bool) : Option Violation :=
  if stored = s.isForeignKey e then none else some (.foreignKeyFlag e stored (s.isForeignKey e))

/-- The first breach of consistency: tables and columns come first, then relations, then the
columns again with their notes. -/
def violation? (s : Schema) : Option Violation :=
  (tableViolation? [] s.tables).or <|
    (s.relationViolation? [] s.relations).or <|
      s.tables.findSome? fun t =>
        t.columns.findSome? fun c => s.flagViolation? ⟨t.id, c.id⟩ c.isForeignKey

end Schema

end Schemata
