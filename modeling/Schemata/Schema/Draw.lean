/-
Drawing a new id step by step.  The counter moves on until the id with its number is free.  It is
kept in a word of the machine, and where its next number does not fit no id is drawn.
-/
import Schemata.Schema.FreshId

namespace Schemata

/-- The numbers that the counter can hold are those below the limit. -/
def counterLimit : Nat := UInt64.size

/-- The sorts of objects that have an id. -/
inductive IdSort
  | table
  | column
  | relation
  deriving DecidableEq, Repr

namespace IdSort

def letter : IdSort → String
  | table => "t"
  | column => "c"
  | relation => "r"

/-- The ids of all objects of the sort.  Columns count in whichever table they are. -/
def taken (s : Schema) : IdSort → List String
  | table => s.tableIds.map (·.text)
  | column => s.columnIds.map (·.text)
  | relation => s.relationIds.map (·.text)

/-- The number that the next new object of the sort is given. -/
def fresh (s : Schema) : IdSort → Nat
  | table => s.freshTable
  | column => s.freshColumn
  | relation => s.freshRelation

end IdSort

/-- An id that was drawn, the schema after it, and the number of turns that it took. -/
structure Draw where
  id : String
  schema : Schema
  turns : Nat
  deriving DecidableEq, Repr

/-- Draws an id.  Every turn moves the counter on and tries the id with its number. -/
def Schema.draw (sort : IdSort) (s : Schema) : Option Draw :=
  if s.counter + 1 < counterLimit then
    let next := { s with counter := s.counter + 1 }
    let candidate := numberedId sort.letter next.counter
    if (sort.taken next).contains candidate then
      (next.draw sort).map fun d => { d with turns := d.turns + 1 }
    else some ⟨candidate, next, 1⟩
  else none
termination_by counterLimit - s.counter

end Schemata
