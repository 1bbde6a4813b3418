/-
What the statements of a script define, before any name is looked up.  A constraint stands apart
from the table it applies to, because it may be written before the table.
-/
import Schemata.Schema.Basic
import Schemata.Sql.ImportError

namespace Schemata
namespace Sql

open Text (Position)

structure ColumnDef where
  name : String
  type : ColumnType
  isPrimaryKey : Bool
  isUnique : Bool
  isNullable : Bool
  position : Position
  deriving DecidableEq, Repr

structure TableDef where
  name : String
  columns : List ColumnDef
  site : Site
  deriving DecidableEq, Repr

/-- Columns of a table that refer to columns of the table `table`.  Without a list of targets they
refer to its primary key. -/
structure ForeignKey where
  columns : List String
  table : String
  targets : List String
  deriving DecidableEq, Repr

inductive Constraint
  | primaryKey (columns : List String)
  | unique (columns : List String)
  | foreignKey (key : ForeignKey)
  deriving DecidableEq, Repr

structure ConstraintDef where
  /-- The name of the table that the constraint applies to. -/
  table : String
  constraint : Constraint
  site : Site
  deriving DecidableEq, Repr

/-- The tables and constraints of a script, in the order they are written. -/
structure Document where
  tables : List TableDef
  constraints : List ConstraintDef
  deriving DecidableEq, Repr

namespace Document

def empty : Document := ⟨[], []⟩

instance : Append Document :=
  ⟨fun a b => ⟨a.tables ++ b.tables, a.constraints ++ b.constraints⟩⟩

theorem tables_append (a b : Document) : (a ++ b).tables = a.tables ++ b.tables := rfl

theorem constraints_append (a b : Document) :
    (a ++ b).constraints = a.constraints ++ b.constraints := rfl

end Document

end Sql
end Schemata
