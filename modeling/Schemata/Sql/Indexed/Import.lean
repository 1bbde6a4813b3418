/-
Importing by indices, offsets and ids.  A script is split into statements, each of them a range of
its lexemes and a part of its text; the statements are read; and the schema is built by operations
that each look up what they change, with the ids that earlier ones gave back.
-/
import Schemata.Sql.Import
import Schemata.Sql.Indexed.Statement

namespace Schemata
namespace Sql

open Text (Position)

/-! ## Statements -/

/-- A statement, with the part of the script that it was cut out of. -/
structure Excerpt where
  lexemes : List Lexeme
  text : List Char
  position : Position
  deriving DecidableEq, Repr

namespace Excerpt

/-- The lexemes from one index on and in front of another one. -/
def range (lexemes : List Lexeme) (start stop : Nat) : Except Halt (List Lexeme) :=
  if start ≤ stop ∧ stop ≤ lexemes.length then .ok ((lexemes.take stop).drop start)
  else .error (.breach .range)

/-- The part of a script that some neighbouring lexemes cover, without blanks around it. -/
def ofRun (source : List Char) (run : List Lexeme) : Except Halt Excerpt :=
  match run.head?, run.getLast? with
  | some first, some last =>
    match Text.slice? source first.start last.stop with
    | some text => .ok ⟨run, Text.trim text, first.position⟩
    | none => .error (.breach .slice)
  | _, _ => .ok ⟨run, [], default⟩

def ofRange (source : List Char) (lexemes : List Lexeme) (start stop : Nat) :
    Except Halt Excerpt := do
  let run ← range lexemes start stop
  ofRun source run

/-- A breach of the grammar that is seen before the statement is complete. -/
def refuse (e : Excerpt) (fault : SyntaxFault) (position : Position) : Except Halt α :=
  .error (.rejected (.rejected (.malformed fault) ⟨String.ofList e.text, position⟩))

/-- The statement between two indices and the ones after it, or just these if it is empty. -/
def push (source : List Char) (lexemes : List Lexeme) (start stop : Nat)
    (more : Except Halt (List Excerpt)) : Except Halt (List Excerpt) :=
  if start < stop then do
    let e ← ofRange source lexemes start stop
    let es ← more
    return e :: es
  else more

/-- The statements from the index `start` on, of which the lexemes in front of the index `next`
were passed already.  The positions of the parentheses that are open come innermost first. -/
def split (source : List Char) (lexemes : List Lexeme) (opened : List Position) (start next : Nat) :
    List Lexeme → Except Halt (List Excerpt)
  | [] => .ok []
  | l :: rest =>
    match l.token with
    | .leftParen => split source lexemes (l.position :: opened) start (next + 1) rest
    | .rightParen =>
      match opened with
      | [] => do
        let e ← ofRange source lexemes start (next + 1)
        e.refuse .unbalancedParen l.position
      | _ :: opened => split source lexemes opened start (next + 1) rest
    | .semicolon =>
      if opened.isEmpty then
        push source lexemes start next (split source lexemes [] (next + 1) (next + 1) rest)
      else split source lexemes opened start (next + 1) rest
    | .eof =>
      match opened with
      | position :: _ => do
        let e ← ofRange source lexemes start (max next (start + 1))
        e.refuse .unclosedParen position
      | [] => push source lexemes start next (split source lexemes [] start (next + 1) rest)
    | _ => split source lexemes opened start (next + 1) rest

def cursor (e : Excerpt) : Cursor := ⟨e.lexemes, e.text, 0⟩

def readAll (dialect : Dialect) : List Excerpt → Except Halt Document
  | [] => .ok .empty
  | e :: rest => do
    let document ← e.cursor.read dialect
    let more ← readAll dialect rest
    return document ++ more

end Excerpt

def Document.indexed (script : String) (choice : DialectChoice) : Except Halt Document :=
  match tokenize script with
  | .error e => .error (.rejected (.lexical e))
  | .ok lexemes => do
    let es ← Excerpt.split script.toList lexemes [] 0 0 lexemes
    Excerpt.readAll (choice.resolve lexemes) es

/-! ## Names -/

/-- A table that was made, and its columns by name.  What was added last comes first. -/
structure IndexEntry where
  table : TableId
  columns : List (String × ColumnId)

/-- The tables that were made, by name. -/
abbrev NameIndex := List (String × IndexEntry)

namespace NameIndex

def table (index : NameIndex) (d : ConstraintDef) (name : String) : Except Halt IndexEntry :=
  match index.lookup name with
  | some entry => .ok entry
  | none => .error (.rejected (unresolved d (.table name)))

def column (index : NameIndex) (d : ConstraintDef) (table column : String) :
    Except Halt Endpoint := do
  let entry ← index.table d table
  match entry.columns.lookup column with
  | some id => .ok ⟨entry.table, id⟩
  | none => .error (.rejected (unresolved d (.column table column)))

end NameIndex

/-! ## Schemas -/

/-- The outcome of an operation, which nothing in an import makes fail. -/
def operate (x : Except Missing α) : Except Halt α := x.mapError fun m => .breach (.missing m)

namespace NameIndex

def addColumns (table : TableId) (s : Schema) (columns : List (String × ColumnId)) :
    List ColumnDef → Except Halt (Schema × List (String × ColumnId))
  | [] => .ok (s, columns)
  | c :: rest => do
    let (s, id) ← operate (s.addColumn table c.spec)
    addColumns table s ((c.name, id) :: columns) rest

def addTables (s : Schema) (index : NameIndex) :
    List TableDef → Except Halt (Schema × NameIndex)
  | [] => .ok (s, index)
  | d :: rest =>
    if (index.lookup d.name).isSome then
      .error (.rejected (.rejected (.malformed (.duplicateTable d.name)) d.site))
    else do
      let (s, table) := s.addTable d.name none
      let (s, columns) ← addColumns table s [] d.columns
      addTables s ((d.name, ⟨table, columns⟩) :: index) rest

variable (index : NameIndex)

def markPrimaryKey (d : ConstraintDef) (s : Schema) : List String → Except Halt Schema
  | [] => .ok s
  | column :: rest => do
    let e ← index.column d d.table column
    let s ← operate (s.updateColumn e { isPrimaryKey := some true })
    markPrimaryKey d s rest

def markUnique (d : ConstraintDef) (s : Schema) (columns : List String) : Except Halt Schema := do
  match ← columns.mapM (index.column d d.table) with
  | [e] => operate (s.updateColumn e { isUnique := some true })
  | _ => return s

def applyKey (s : Schema) (d : ConstraintDef) : Except Halt Schema :=
  match d.constraint with
  | .primaryKey columns => index.markPrimaryKey d s columns
  | .unique columns => index.markUnique d s columns
  | .foreignKey _ => .ok s

def targetNames (s : Schema) (d : ConstraintDef) (key : ForeignKey) :
    Except Halt (List String) :=
  if key.targets.isEmpty then do
    let entry ← index.table d key.table
    let names := ((s.table? entry.table).map fun t => t.primaryKey.map (·.name)).getD []
    if names.length = key.columns.length then return names
    else .error (.rejected (unresolved d (.primaryKey key.table)))
  else .ok key.targets

/-- The schema with a relation for each of the pairs of columns. -/
def relate (inferOneToOne : Bool) (s : Schema) : List (Endpoint × Endpoint) → Except Halt Schema
  | [] => .ok s
  | (referring, referred) :: rest => do
    let (s, relation) ← operate (s.connect referred referring)
    let s ←
      if inferOneToOne && isUniqueAlone s referring then
        operate (s.setCardinality relation .oneToOne)
      else .ok s
    relate inferOneToOne s rest

def applyForeignKey (inferOneToOne : Bool) (s : Schema) (d : ConstraintDef) :
    Except Halt Schema :=
  match d.constraint with
  | .foreignKey key => do
    let targets ← index.targetNames s d key
    let pairs ← (key.columns.zip targets).mapM fun (column, target) => do
      let referring ← index.column d d.table column
      let referred ← index.column d key.table target
      return (referring, referred)
    relate inferOneToOne s pairs
  | _ => .ok s

end NameIndex

def Document.indexedSchema (inferOneToOne : Bool) (d : Document) : Except Halt Schema := do
  let (s, index) ← NameIndex.addTables .empty [] d.tables
  let s ← (d.constraints.filter (!·.constraint.isForeignKey)).foldlM index.applyKey s
  (d.constraints.filter (·.constraint.isForeignKey)).foldlM (index.applyForeignKey inferOneToOne) s

/-- The schema of a script, by indices, offsets and ids. -/
def indexedSchemaOf (options : ImportOptions) (text : String) : Except Halt Schema := do
  let document ← Document.indexed text options.dialect
  document.indexedSchema options.inferOneToOne

end Sql
end Schemata
