/-
Reading a script.  A statement either creates a table, with columns and constraints in its body,
or adds constraints to a table.  What stands after the body of a table is an option of the table
and is passed over.
-/
import Schemata.Sql.ColumnClause
import Schemata.Sql.Statement

namespace Schemata
namespace Sql

open Text (Position)

/-! ## Constraints -/

/-- The columns of a foreign key and what they refer to, after the word `FOREIGN`. -/
def readForeignKey (ts : List Lexeme) : Except Fault (ForeignKey × List Lexeme) := do
  let ts ← expect (.keyword .key) "KEY after FOREIGN" ts
  let (columns, ts) ← readColumnList (skipName ts)
  let ts ← expect (.keyword .references) "REFERENCES" ts
  let (target, ts) ← readTarget ts
  if target.columns.isEmpty || target.columns.length = columns.length then
    return (⟨columns, target.table, target.columns⟩, ts)
  else fail (.unpairedColumns columns.length target.columns.length) ts

/-- The lexemes after the name of a constraint, if the constraint has one. -/
def skipConstraintName (ts : List Lexeme) : List Lexeme :=
  if nextToken ts = .keyword .constraint then skipName ts.tail else ts

/-- A constraint on a whole table, of which checks are passed over. -/
def readConstraint (ts : List Lexeme) : Except Fault (Option Constraint × List Lexeme) :=
  match skipConstraintName ts with
  | [] => fail .constraintKind []
  | l :: rest =>
    match l.token with
    | .keyword .primary => do
      let ts ← expect (.keyword .key) "KEY after PRIMARY" rest
      let (columns, ts) ← readColumnList ts
      return (some (.primaryKey columns), ts)
    | .keyword .unique => do
      let ts := if nextToken rest = .keyword .key || nextToken rest = .keyword .index
        then rest.tail else rest
      let (columns, ts) ← readColumnList (skipName ts)
      return (some (.unique columns), ts)
    | .keyword .foreign => do
      let (key, ts) ← readForeignKey rest
      return (some (.foreignKey key), ts)
    | .keyword .check => do
      let (_, ts) ← readGroup rest
      return (none, ts)
    | _ => fail .constraintKind (l :: rest)

theorem length_readForeignKey {ts rest : List Lexeme} {key : ForeignKey}
    (h : readForeignKey ts = .ok (key, rest)) : rest.length < ts.length := by
  obtain ⟨mid, h₁, h⟩ := ok_of_bind h
  obtain ⟨⟨columns, mid'⟩, h₂, h⟩ := ok_of_bind h
  obtain ⟨mid'', h₃, h⟩ := ok_of_bind h
  obtain ⟨⟨target, mid'''⟩, h₄, h⟩ := ok_of_bind h
  have := length_expect h₁
  have := length_readColumnList h₂
  have := length_skipName mid
  have := length_expect h₃
  have := length_readTarget h₄
  dsimp only at h
  split at h
  · cases h; omega
  · exact absurd h fail_ne_ok

theorem length_skipConstraintName (ts : List Lexeme) :
    (skipConstraintName ts).length ≤ ts.length := by
  unfold skipConstraintName
  split
  · have := length_skipName ts.tail
    simp only [List.length_tail] at this
    omega
  · exact Nat.le_refl _

theorem length_readConstraint {ts rest : List Lexeme} {c : Option Constraint}
    (h : readConstraint ts = .ok (c, rest)) : rest.length < ts.length := by
  have hname := length_skipConstraintName ts
  unfold readConstraint at h
  split at h
  · exact absurd h fail_ne_ok
  · next l tail htail =>
    rw [htail, List.length_cons] at hname
    refine Nat.lt_of_lt_of_le (Nat.lt_succ_of_le ?_) hname
    split at h
    · obtain ⟨mid, h₁, h⟩ := ok_of_bind h
      obtain ⟨⟨columns, mid'⟩, h₂, h⟩ := ok_of_bind h
      cases h
      have := length_expect h₁
      have := length_readColumnList h₂
      omega
    · obtain ⟨⟨columns, mid⟩, h₁, h⟩ := ok_of_bind h
      cases h
      have h₁ := length_readColumnList h₁
      have h₂ := length_skipName
        (if nextToken tail = .keyword .key || nextToken tail = .keyword .index
          then tail.tail else tail)
      have h₃ : (if nextToken tail = .keyword .key || nextToken tail = .keyword .index
          then tail.tail else tail).length ≤ tail.length := by
        split <;> simp
      omega
    · obtain ⟨⟨key, mid⟩, h₁, h⟩ := ok_of_bind h
      cases h
      exact Nat.le_of_lt (length_readForeignKey h₁)
    · obtain ⟨⟨group, mid⟩, h₁, h⟩ := ok_of_bind h
      cases h
      exact Nat.le_of_lt (length_readGroup h₁)
    · exact absurd h fail_ne_ok

/-! ## Bodies of tables -/

/-- The lexemes from the first token on that stops, outside of groups. -/
def skipUntil (stops : Token → Bool) (ts : List Lexeme) : Except Fault (List Lexeme) :=
  match ts with
  | [] => .ok []
  | l :: rest =>
    if stops l.token then .ok (l :: rest)
    else if l.token = .leftParen then
      match _h : readGroup (l :: rest) with
      | .error e => .error e
      | .ok (_, rest) => skipUntil stops rest
    else skipUntil stops rest
termination_by ts.length
decreasing_by
  · exact length_readGroup _h
  · simp

theorem skipUntil_cons (stops : Token → Bool) (l : Lexeme) (rest : List Lexeme) :
    skipUntil stops (l :: rest) =
      if stops l.token then .ok (l :: rest)
      else if l.token = .leftParen then do
        let (_, rest) ← readGroup (l :: rest)
        skipUntil stops rest
      else skipUntil stops rest := by
  rw [skipUntil]
  split
  · rfl
  · split
    · split <;> next h => rw [h]; rfl
    · rfl

theorem length_skipUntil {stops : Token → Bool} {ts rest : List Lexeme}
    (h : skipUntil stops ts = .ok rest) : rest.length ≤ ts.length := by
  fun_induction skipUntil stops ts with
  | case1 => cases h; simp
  | case2 => cases h; simp
  | case3 => cases h
  | case4 l tail _ _ group mid hg ih =>
    have := ih h
    have := length_readGroup hg
    omega
  | case5 l tail _ _ ih => have := ih h; simp only [List.length_cons]; omega

/-- Whether a list of columns comes next, which begins with a name in parentheses.  The parameters
of a type are numbers. -/
def opensColumnList : List Lexeme → Bool
  | l :: name :: _ => l.token = .leftParen && name.name?.isSome
  | _ => false

/-- Whether an index is defined, after the word `INDEX` or `KEY`: otherwise the word is the name
of a column. -/
def definesIndex (ts : List Lexeme) : Bool :=
  opensColumnList ts ||
    (nextToken ts).isName && (opensColumnList ts.tail || (nextToken ts.tail).isWord "using")

structure Body where
  columns : List ColumnDef
  constraints : List PlacedConstraint
  deriving DecidableEq, Repr

namespace Body

def empty : Body := ⟨[], []⟩

instance : Append Body := ⟨fun a b => ⟨a.columns ++ b.columns, a.constraints ++ b.constraints⟩⟩

end Body

/-- One item of the body of a table: a column, a constraint, or an index, which is passed over. -/
def readItem (dialect : Dialect) (ts : List Lexeme) : Except Fault (Body × List Lexeme) :=
  match ts with
  | [] => fail (.unexpectedItem .eof) []
  | l :: rest =>
    match l.token with
    | .keyword .constraint | .keyword .primary | .keyword .unique | .keyword .foreign
    | .keyword .check => do
      let (constraint, ts) ← readConstraint (l :: rest)
      return (⟨[], constraint.toList.map (·, l.position)⟩, ts)
    | token =>
      if (token = .keyword .index || token = .keyword .key) && definesIndex rest then do
        let ts ← skipUntil endsItem rest
        return (.empty, ts)
      else if l.name?.isSome then do
        let ((column, constraints), ts) ← readColumn dialect (l :: rest)
        return (⟨[column], constraints⟩, ts)
      else fail (.unexpectedItem token) (l :: rest)

theorem length_readItem {dialect : Dialect} {ts rest : List Lexeme} {b : Body}
    (h : readItem dialect ts = .ok (b, rest)) : rest.length < ts.length := by
  have hconstraint : ∀ {l : Lexeme} {tail : List Lexeme},
      (do
        let (constraint, ts) ← readConstraint (l :: tail)
        return ((⟨[], constraint.toList.map (·, l.position)⟩ : Body), ts)) = .ok (b, rest) →
      rest.length < (l :: tail).length := by
    intro l tail h
    obtain ⟨⟨constraint, mid⟩, h₁, h⟩ := ok_of_bind h
    cases h
    exact length_readConstraint h₁
  unfold readItem at h
  split at h
  · exact absurd h fail_ne_ok
  · split at h
    iterate 5
      exact hconstraint h
    split at h
    · obtain ⟨mid, h₁, h⟩ := ok_of_bind h
      cases h
      exact Nat.lt_succ_of_le (length_skipUntil h₁)
    · split at h
      · obtain ⟨⟨⟨column, constraints⟩, mid⟩, h₁, h⟩ := ok_of_bind h
        cases h
        exact length_readColumn h₁
      · exact absurd h fail_ne_ok

/-- The first of the columns whose name is among `taken`. -/
def repeatedColumn? (taken : List String) (columns : List ColumnDef) : Option ColumnDef :=
  columns.find? fun c => taken.contains c.name

/-- The items of the body of a table and the parenthesis that closes it.  No column may have one
of the names `taken` or the name of an earlier column. -/
def readItems (dialect : Dialect) (taken : List String) (ts : List Lexeme) :
    Except Fault (Body × List Lexeme) :=
  match _item : readItem dialect ts with
  | .error e => .error e
  | .ok (body, rest) =>
    match repeatedColumn? taken body.columns with
    | some c => .error ⟨.malformed (.duplicateColumn c.name), some c.position⟩
    | none =>
      match _separator : readSeparator .itemSeparator rest with
      | .error e => .error e
      | .ok (false, rest) => .ok (body, rest)
      | .ok (true, rest) => do
        let (more, ts) ← readItems dialect (taken ++ body.columns.map (·.name)) rest
        return (body ++ more, ts)
termination_by ts.length
decreasing_by exact Nat.lt_trans (length_readSeparator _separator) (length_readItem _item)

theorem readItems_eq (dialect : Dialect) (taken : List String) (ts : List Lexeme) :
    readItems dialect taken ts = do
      let (body, rest) ← readItem dialect ts
      match repeatedColumn? taken body.columns with
      | some c => .error ⟨.malformed (.duplicateColumn c.name), some c.position⟩
      | none => do
        let (more, rest) ← readSeparator .itemSeparator rest
        if more then
          let (items, rest) ← readItems dialect (taken ++ body.columns.map (·.name)) rest
          return (body ++ items, rest)
        else return (body, rest) := by
  rw [readItems]
  split
  · next h => rw [h]; rfl
  · next h =>
    rw [h]
    dsimp only [bind, Except.bind]
    cases repeatedColumn? taken _ with
    | some c => rfl
    | none =>
      dsimp only
      split
      · next hs => rw [hs]
      · next hs => rw [hs]; rfl
      · next hs => rw [hs]; rfl

/-! ## Statements -/

/-- Words that may stand between `CREATE` and `TABLE`. -/
def isTableModifier (t : Token) : Bool :=
  ["temp", "temporary", "unlogged", "global", "local"].any fun word => t.isWord word

/-- The lexemes after `IF NOT EXISTS`, if that comes next. -/
def skipIfNotExists (ts : List Lexeme) : Except Fault (List Lexeme) :=
  if nextToken ts = .keyword .ifWord then do
    let ts ← expect (.keyword .not) "NOT" ts.tail
    expect (.keyword .existsWord) "EXISTS" ts
  else .ok ts

/-- The lexemes after `IF EXISTS`, if that comes next. -/
def skipIfExists (ts : List Lexeme) : Except Fault (List Lexeme) :=
  if nextToken ts = .keyword .ifWord then expect (.keyword .existsWord) "EXISTS" ts.tail
  else .ok ts

/-- The name and the body of a table, after the word `CREATE`. -/
def readCreate (dialect : Dialect) (ts : List Lexeme) : Except Fault (String × Body) := do
  let ts ← expect (.keyword .table) "TABLE after CREATE" (ts.dropWhile (isTableModifier ·.token))
  let ts ← skipIfNotExists ts
  let (name, ts) ← readQualifiedName "table name" ts
  let ts ← expect .leftParen "`(` to open the table body" ts
  if nextToken ts = .rightParen then return (name, .empty)
  else
    let (body, _) ← readItems dialect [] ts
    return (name, body)

/-- The kinds of constraint that can be added to a table. -/
def isAddable : Token → Bool
  | .keyword .constraint | .keyword .primary | .keyword .unique | .keyword .foreign => true
  | _ => false

/-- A constraint that is added to a table.  What stands between it and the next comma concerns
only how it is enforced. -/
def readAddition (ts : List Lexeme) : Except Fault (List PlacedConstraint × List Lexeme) :=
  match ts with
  | [] => fail (.expected "ADD CONSTRAINT" .eof) []
  | l :: rest => do
    let ts ← expect (.keyword .add) "ADD CONSTRAINT" (l :: rest)
    if isAddable (nextToken ts) then
      let (constraint, ts) ← readConstraint ts
      let ts ← skipUntil (· = .comma) ts
      return (constraint.toList.map (·, l.position), ts)
    else fail .alterationKind ts

theorem length_readAddition {ts rest : List Lexeme} {cs : List PlacedConstraint}
    (h : readAddition ts = .ok (cs, rest)) : rest.length < ts.length := by
  unfold readAddition at h
  split at h
  · exact absurd h fail_ne_ok
  · obtain ⟨mid, h₁, h⟩ := ok_of_bind h
    split at h
    · obtain ⟨⟨constraint, mid'⟩, h₂, h⟩ := ok_of_bind h
      obtain ⟨mid'', h₃, h⟩ := ok_of_bind h
      cases h
      have := length_expect h₁
      have := length_readConstraint h₂
      have := length_skipUntil h₃
      omega
    · exact absurd h fail_ne_ok

/-- The constraints that are added to a table, with commas between them. -/
def readAdditions (ts : List Lexeme) : Except Fault (List PlacedConstraint) :=
  match _h : readAddition ts with
  | .error e => .error e
  | .ok (constraints, []) => .ok constraints
  | .ok (constraints, _ :: rest) => do
    let more ← readAdditions rest
    return constraints ++ more
termination_by ts.length
decreasing_by exact Nat.lt_trans (Nat.lt_succ_self _) (length_readAddition _h)

theorem readAdditions_eq (ts : List Lexeme) : readAdditions ts = do
    let (constraints, rest) ← readAddition ts
    match rest with
    | [] => return constraints
    | _ :: rest => do
      let more ← readAdditions rest
      return constraints ++ more := by
  rw [readAdditions]
  split <;> next h => rw [h]; rfl

/-- The name of a table and the constraints added to it, after the word `ALTER`. -/
def readAlter (ts : List Lexeme) : Except Fault (String × List PlacedConstraint) := do
  let ts ← expect (.keyword .table) "TABLE after ALTER" ts
  let ts ← skipIfExists ts
  let (name, ts) ← readQualifiedName "table name" (skipIf (.keyword .only) ts)
  let constraints ← readAdditions ts
  return (name, constraints)

namespace Statement

def constraintDefs (s : Statement) (table : String) (constraints : List PlacedConstraint) :
    List ConstraintDef :=
  constraints.map fun (constraint, position) => ⟨table, constraint, ⟨s.text, position⟩⟩

def read (dialect : Dialect) (s : Statement) : Except Fault Document :=
  match s.first.token with
  | .keyword .create => do
    let (name, body) ← readCreate dialect s.others
    return ⟨[⟨name, body.columns, ⟨s.text, s.position⟩⟩], s.constraintDefs name body.constraints⟩
  | .keyword .alter => do
    let (name, constraints) ← readAlter s.others
    return ⟨[], s.constraintDefs name constraints⟩
  | _ => fail .unknownStatement s.lexemes

/-- A fault in the statement.  One that was noticed at the end is placed at the last lexeme. -/
def reject (s : Statement) (fault : Fault) : ImportError :=
  .rejected fault.cause ⟨s.text, fault.position.getD s.last.position⟩

end Statement

namespace Document

/-- What the statements define, one after the other. -/
def ofStatements (dialect : Dialect) : List Statement → Except ImportError Document
  | [] => .ok .empty
  | s :: rest =>
    match s.read dialect with
    | .error fault => .error (s.reject fault)
    | .ok document => do
      let more ← ofStatements dialect rest
      return document ++ more

def ofScript (script : String) (choice : DialectChoice) : Except ImportError Document :=
  match tokenize script with
  | .error e => .error (.lexical e)
  | .ok lexemes => do
    let statements ← splitStatements lexemes
    ofStatements (choice.resolve lexemes) statements

end Document

end Sql
end Schemata
