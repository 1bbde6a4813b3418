/-
New ids.  An id is a letter and a number.  One number is drawn for every new id of any sort, and
numbers whose id is taken already are skipped.
-/
import Schemata.Schema.Basic

namespace Schemata

def numberedId (letter : String) (n : Nat) : String := letter ++ toString n

/-- The least number above `n` whose id is not among `taken`.  There is one among the first
`taken.length + 1` numbers, because different numbers have different ids. -/
def freshNumber (letter : String) (taken : List String) (n : Nat) : Nat :=
  ((List.range' (n + 1) (taken.length + 1)).find? fun k =>
    !taken.contains (numberedId letter k)).getD (n + 1)

namespace Schema

def tableIds (s : Schema) : List TableId := s.tables.map (·.id)

def columnIds (s : Schema) : List ColumnId := s.tables.flatMap fun t => t.columns.map (·.id)

def relationIds (s : Schema) : List RelationId := s.relations.map (·.id)

/-- The number of the next new table.  Nothing bounds the counter here, and no run reaches the limit
of one in 64 bits: it starts at zero, it is read from nowhere, and every turn of drawing an id moves
it on by one, so the limit is `2 ^ 64` turns away.  What a draw comes to below the limit and at it
is `draw_least`. -/
def freshTable (s : Schema) : Nat := freshNumber "t" (s.tableIds.map (·.text)) s.counter

/-- The number of the next new column, in whichever table.  The counter is that of `freshTable`,
and as far from the limit that `draw_least` is about. -/
def freshColumn (s : Schema) : Nat := freshNumber "c" (s.columnIds.map (·.text)) s.counter

/-- The number of the next new relation.  The counter is that of `freshTable`, and as far from the
limit that `draw_least` is about. -/
def freshRelation (s : Schema) : Nat := freshNumber "r" (s.relationIds.map (·.text)) s.counter

end Schema

def TableId.ofNumber (n : Nat) : TableId := ⟨numberedId "t" n⟩

def ColumnId.ofNumber (n : Nat) : ColumnId := ⟨numberedId "c" n⟩

def RelationId.ofNumber (n : Nat) : RelationId := ⟨numberedId "r" n⟩

end Schemata
