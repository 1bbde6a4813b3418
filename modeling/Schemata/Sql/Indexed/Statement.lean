/-
Reading a statement by indices: columns, constraints, bodies of tables and additions to tables.
-/
import Schemata.Sql.Indexed.Cursor

namespace Schemata
namespace Sql

open Text (Position)

/-! ## Types -/

namespace TypeName

/-- The first `n` words. -/
def leading (words : List String) (n : Nat) : Except Halt (List String) :=
  if n ≤ words.length then .ok (words.take n) else .error (.breach .range)

/-- The type of the longest run of words at the head, of at most `n` words, that the dialect
knows. -/
def longestType? (dialect : Dialect) (whole : List Char) (words : List String) :
    Nat → Except Halt (Option ColumnType)
  | 0 => .ok none
  | n + 1 => do
    let run ← leading words (n + 1)
    match ofWords? dialect whole run with
    | some type => return some type
    | none => longestType? dialect whole words n

def indexedType? (dialect : Dialect) (name : String) : Except Halt (Option ColumnType) :=
  let whole := Text.lower name.toList
  let words := leadingWords whole
  longestType? dialect whole words words.length

end TypeName

namespace Cursor

/-- The name of a type, of which `raw` was read already.  The parameters are cut out of the text,
from the parenthesis that opens them to the end of the one that closes them. -/
def readTypeName : Nat → List Char → Cursor → Except Halt (List Char × Cursor)
  | 0, _, _ => .error (.breach .round)
  | rounds + 1, raw, c =>
    match c.token with
    | .ident word =>
      readTypeName rounds (raw ++ (if raw.isEmpty then [] else [' ']) ++ word.toList) c.advance
    | .leftParen =>
      if raw.isEmpty then .ok (raw, c)
      else do
        let start := c.lexeme.start
        let c ← c.skipGroup
        let close ← c.previous
        let parameters ← c.slice start close.stop
        readTypeName rounds (raw ++ parameters) c
    | _ => .ok (raw, c)

/-! ## Columns -/

def readColumnClause (c : Cursor) : Except Halt (ColumnClause × Cursor) :=
  match c.token with
  | .keyword .primary => do
    let c ← c.advance.expect (.keyword .key) "KEY after PRIMARY"
    return (.primaryKey, c)
  | .keyword .not => do
    let c ← c.advance.expect (.keyword .null) "NULL after NOT"
    return (.notNull, c)
  | .keyword .null => .ok (.null, c.advance)
  | .keyword .unique => .ok (.unique, c.advance.skipIf (.keyword .key))
  | .keyword .default => do
    let c ← skipExpression c.rounds c.advance
    return (.passed, c)
  | .keyword .references => do
    let position := c.position
    let (target, c) ← c.advance.readTarget
    return (.references target position, c)
  | .keyword .check => do
    let c ← c.advance.skipGroup
    return (.passed, c)
  | .leftParen => do
    let c ← c.skipGroup
    return (.passed, c)
  | .keyword .constraint => .ok (.passed, c.advance.skipName)
  | .keyword .on => do
    let c ← skipActions c.rounds c
    return (.passed, c)
  | token => if isFiller token then .ok (.passed, c.advance) else c.fail (.unexpectedClause token)

def readColumnClauses : Nat → Cursor → Except Halt (List ColumnClause × Cursor)
  | 0, _ => .error (.breach .round)
  | rounds + 1, c =>
    if endsItem c.token then .ok ([], c)
    else do
      let (clause, c) ← c.readColumnClause
      let (clauses, c) ← readColumnClauses rounds c
      return (clause :: clauses, c)

def readColumn (dialect : Dialect) (c : Cursor) :
    Except Halt ((ColumnDef × List PlacedConstraint) × Cursor) := do
  let position := c.position
  let (name, c) ← c.readName "column name"
  let (raw, c) ← readTypeName c.rounds [] c
  if raw.isEmpty then c.fail (.missingType name)
  else
    let typeName := String.ofList raw
    match ← TypeName.indexedType? dialect typeName with
    | none => c.reject (.unsupportedType typeName name) position
    | some type => do
      let (clauses, c) ← readColumnClauses c.rounds c
      let column : ColumnDef := ⟨name, type, false, false, true, position⟩
      return ((clauses.foldl ColumnDef.apply column,
        clauses.filterMap (ColumnClause.constraint? name)), c)

/-! ## Constraints -/

def readForeignKey (c : Cursor) : Except Halt (ForeignKey × Cursor) := do
  let c ← c.expect (.keyword .foreign) "FOREIGN"
  let c ← c.expect (.keyword .key) "KEY after FOREIGN"
  let (columns, c) ← c.skipName.readColumnList
  let c ← c.expect (.keyword .references) "REFERENCES"
  let (target, c) ← c.readTarget
  if target.columns.isEmpty || target.columns.length = columns.length then
    return (⟨columns, target.table, target.columns⟩, c)
  else c.fail (.unpairedColumns columns.length target.columns.length)

def skipConstraintName (c : Cursor) : Cursor :=
  if c.token = .keyword .constraint then c.advance.skipName else c

/-- A constraint that is no check, which is passed over, after its name. -/
def readConstraintKind (c : Cursor) : Except Halt (Option Constraint × Cursor) :=
  match c.token with
  | .keyword .primary => do
    let c ← c.advance.expect (.keyword .key) "KEY after PRIMARY"
    let (columns, c) ← c.readColumnList
    return (some (.primaryKey columns), c)
  | .keyword .unique => do
    let c := c.advance
    let c := if c.token = .keyword .key || c.token = .keyword .index then c.advance else c
    let (columns, c) ← c.skipName.readColumnList
    return (some (.unique columns), c)
  | .keyword .foreign => do
    let (key, c) ← c.readForeignKey
    return (some (.foreignKey key), c)
  | .keyword .check => do
    let c ← c.advance.skipGroup
    return (none, c)
  | _ => c.fail .constraintKind

def readConstraint (c : Cursor) : Except Halt (Option Constraint × Cursor) :=
  c.skipConstraintName.readConstraintKind

/-! ## Bodies of tables -/

/-- The cursor in front of the next token outside of groups that stops, or at the end. -/
def skipUntil (stops : Token → Bool) : Nat → Cursor → Except Halt Cursor
  | 0, _ => .error (.breach .round)
  | rounds + 1, c =>
    if stops c.token || c.token = .eof then .ok c
    else if c.token = .leftParen then do
      let c ← c.skipGroup
      skipUntil stops rounds c
    else skipUntil stops rounds c.advance

/-- Whether an index is defined from the next lexeme on, which is the word `INDEX` or `KEY`. -/
def definesIndex (c : Cursor) : Except Halt Bool :=
  match (c.ahead 1).token with
  | .leftParen => do
    let name ← c.name? 2
    return name.isSome
  | .ident _ | .quoted _ =>
    match (c.ahead 2).token with
    | .leftParen => do
      let name ← c.name? 3
      return name.isSome
    | token => .ok (token.isWord "using")
  | _ => .ok false

/-- An item that is no constraint: an index, which is passed over, or a column. -/
def readDefinition (dialect : Dialect) (c : Cursor) : Except Halt (Body × Cursor) := do
  let isIndex ←
    if c.token = .keyword .index || c.token = .keyword .key then c.definesIndex else .ok false
  if isIndex then
    let c ← skipUntil endsItem c.rounds c
    return (.empty, c)
  else
    match ← c.name? 0 with
    | some _ =>
      let ((column, constraints), c) ← c.readColumn dialect
      return (⟨[column], constraints⟩, c)
    | none => c.fail (.unexpectedItem c.token)

def readItem (dialect : Dialect) (c : Cursor) : Except Halt (Body × Cursor) :=
  match c.token with
  | .keyword .constraint | .keyword .primary | .keyword .unique | .keyword .foreign
  | .keyword .check => do
    let position := c.position
    let (constraint, c) ← c.readConstraint
    return (⟨[], constraint.toList.map (·, position)⟩, c)
  | _ => c.readDefinition dialect

def readItems (dialect : Dialect) : Nat → List String → Cursor → Except Halt (Body × Cursor)
  | 0, _, _ => .error (.breach .round)
  | rounds + 1, taken, c => do
    let (body, c) ← c.readItem dialect
    match repeatedColumn? taken body.columns with
    | some column => c.reject (.malformed (.duplicateColumn column.name)) column.position
    | none => do
      let (more, c) ← c.readSeparator .itemSeparator
      if more then
        let (items, c) ← readItems dialect rounds (taken ++ body.columns.map (·.name)) c
        return (body ++ items, c)
      else return (body, c)

/-! ## Statements -/

def skipIfNotExists (c : Cursor) : Except Halt Cursor :=
  if c.token = .keyword .ifWord then do
    let c ← c.advance.expect (.keyword .not) "NOT"
    c.expect (.keyword .existsWord) "EXISTS"
  else .ok c

def skipIfExists (c : Cursor) : Except Halt Cursor :=
  if c.token = .keyword .ifWord then c.advance.expect (.keyword .existsWord) "EXISTS" else .ok c

/-- The name and the body of a table, after the word `CREATE`. -/
def readCreate (dialect : Dialect) (c : Cursor) : Except Halt (String × Body) := do
  let c ← skipWhile isTableModifier c.rounds c
  let c ← c.expect (.keyword .table) "TABLE after CREATE"
  let c ← c.skipIfNotExists
  let (name, c) ← c.readQualifiedName "table name"
  let c ← c.expect .leftParen "`(` to open the table body"
  if c.token = .rightParen then return (name, .empty)
  else
    let (body, _) ← readItems dialect c.rounds [] c
    return (name, body)

def readAddition (c : Cursor) : Except Halt (List PlacedConstraint × Cursor) := do
  let position := c.position
  let c ← c.expect (.keyword .add) "ADD CONSTRAINT"
  if isAddable c.token then
    let (constraint, c) ← c.readConstraint
    let c ← skipUntil (· = .comma) c.rounds c
    return (constraint.toList.map (·, position), c)
  else c.fail .alterationKind

def readAdditions : Nat → Cursor → Except Halt (List PlacedConstraint)
  | 0, _ => .error (.breach .round)
  | rounds + 1, c => do
    let (constraints, c) ← c.readAddition
    if c.token = .comma then
      let more ← readAdditions rounds c.advance
      return constraints ++ more
    else return constraints

/-- The name of a table and the constraints added to it, after the word `ALTER`. -/
def readAlter (c : Cursor) : Except Halt (String × List PlacedConstraint) := do
  let c ← c.expect (.keyword .table) "TABLE after ALTER"
  let c ← c.skipIfExists
  let (name, c) ← (c.skipIf (.keyword .only)).readQualifiedName "table name"
  let constraints ← readAdditions c.rounds c
  return (name, constraints)

def constraintDefs (c : Cursor) (table : String) (constraints : List PlacedConstraint) :
    List ConstraintDef :=
  constraints.map fun (constraint, position) =>
    ⟨table, constraint, ⟨String.ofList c.source, position⟩⟩

def read (dialect : Dialect) (c : Cursor) : Except Halt Document :=
  match c.token with
  | .keyword .create => do
    let (name, body) ← c.advance.readCreate dialect
    return ⟨[⟨name, body.columns, ⟨String.ofList c.source, c.position⟩⟩],
      c.constraintDefs name body.constraints⟩
  | .keyword .alter => do
    let (name, constraints) ← c.advance.readAlter
    return ⟨[], c.constraintDefs name constraints⟩
  | _ => c.fail .unknownStatement

end Cursor

end Sql
end Schemata
