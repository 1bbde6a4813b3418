/-
Definitions of columns.  A column has a name, a type of one or more words with parameters, and
clauses in any order, of which a later one overrules an earlier one.  Most clauses say nothing
about the schema and are passed over.
-/
import Schemata.Sql.Clause
import Schemata.Sql.TypeName

namespace Schemata
namespace Sql

open Text (Position)

/-- A constraint and the position of its first lexeme. -/
abbrev PlacedConstraint := Constraint × Position

/-! ## Types -/

/-- The name of a type, of which `raw` was read already.  Words are joined by one space each, and
the parameters follow without blanks. -/
def readTypeName (raw : List Char) (ts : List Lexeme) : Except Fault (List Char × List Lexeme) :=
  match ts with
  | [] => .ok (raw, [])
  | l :: rest =>
    match l.token with
    | .ident word => readTypeName (raw ++ (if raw.isEmpty then [] else [' ']) ++ word.toList) rest
    | .leftParen =>
      if raw.isEmpty then .ok (raw, l :: rest)
      else
        match _h : readGroup (l :: rest) with
        | .error e => .error e
        | .ok (group, rest) => readTypeName (raw ++ Text.squeeze (spell group)) rest
    | _ => .ok (raw, l :: rest)
termination_by ts.length
decreasing_by
  · simp
  · exact length_readGroup _h

theorem readTypeName_cons (raw : List Char) (l : Lexeme) (rest : List Lexeme) :
    readTypeName raw (l :: rest) =
      match l.token with
      | .ident word =>
        readTypeName (raw ++ (if raw.isEmpty then [] else [' ']) ++ word.toList) rest
      | .leftParen =>
        if raw.isEmpty then .ok (raw, l :: rest)
        else do
          let (group, rest) ← readGroup (l :: rest)
          readTypeName (raw ++ Text.squeeze (spell group)) rest
      | _ => .ok (raw, l :: rest) := by
  rw [readTypeName]
  split
  · rfl
  · split
    · rfl
    · split <;> next h => rw [h]; rfl
  · rfl

theorem length_readTypeName {raw name : List Char} {ts rest : List Lexeme}
    (h : readTypeName raw ts = .ok (name, rest)) : rest.length ≤ ts.length := by
  fun_induction readTypeName raw ts with
  | case1 => cases h; simp
  | case2 raw l tail word _ ih => have := ih h; simp only [List.length_cons]; omega
  | case3 => cases h; simp
  | case4 => cases h
  | case5 raw l tail _ _ group after hg ih =>
    have := ih h
    have := length_readGroup hg
    omega
  | case6 => cases h; simp

/-! ## Clauses -/

/-- A clause of a column, as far as it says something about the schema. -/
inductive ColumnClause
  | primaryKey
  | notNull
  | null
  | unique
  | references (target : Target) (position : Position)
  | passed
  deriving DecidableEq, Repr

/-- The tokens that end an item of a table body. -/
def endsItem : Token → Bool
  | .comma | .rightParen | .eof => true
  | _ => false

/-- The tokens of clauses that consist of any words, such as a collation or a comment. -/
def isFiller : Token → Bool
  | .ident _ | .quoted _ | .str _ | .num _ | .symbol _ | .dot => true
  | _ => false

/-- The clause that begins with the lexeme `l`. -/
def readColumnClause (l : Lexeme) (rest : List Lexeme) :
    Except Fault (ColumnClause × List Lexeme) :=
  match l.token with
  | .keyword .primary => do
    let ts ← expect (.keyword .key) "KEY after PRIMARY" rest
    return (.primaryKey, ts)
  | .keyword .not => do
    let ts ← expect (.keyword .null) "NULL after NOT" rest
    return (.notNull, ts)
  | .keyword .null => .ok (.null, rest)
  | .keyword .unique => .ok (.unique, skipIf (.keyword .key) rest)
  | .keyword .default => do
    let ts ← skipExpression rest
    return (.passed, ts)
  | .keyword .references => do
    let (target, ts) ← readTarget rest
    return (.references target l.position, ts)
  | .keyword .check => do
    let (_, ts) ← readGroup rest
    return (.passed, ts)
  | .leftParen => do
    let (_, ts) ← readGroup (l :: rest)
    return (.passed, ts)
  | .keyword .constraint => .ok (.passed, skipName rest)
  | .keyword .on => do
    let ts ← skipAction rest
    let ts ← skipActions ts
    return (.passed, ts)
  | token =>
    if isFiller token then .ok (.passed, rest)
    else fail (.unexpectedClause token) (l :: rest)

theorem length_readColumnClause {l : Lexeme} {ts rest : List Lexeme} {c : ColumnClause}
    (h : readColumnClause l ts = .ok (c, rest)) : rest.length ≤ ts.length := by
  unfold readColumnClause at h
  split at h
  · obtain ⟨mid, h₁, h⟩ := ok_of_bind h
    cases h
    exact Nat.le_of_lt (length_expect h₁)
  · obtain ⟨mid, h₁, h⟩ := ok_of_bind h
    cases h
    exact Nat.le_of_lt (length_expect h₁)
  · cases h; exact Nat.le_refl _
  · cases h; exact length_skipIf _ _
  · obtain ⟨mid, h₁, h⟩ := ok_of_bind h
    cases h
    exact Nat.le_of_lt (length_skipExpression h₁)
  · obtain ⟨⟨target, mid⟩, h₁, h⟩ := ok_of_bind h
    cases h
    exact Nat.le_of_lt (length_readTarget h₁)
  · obtain ⟨⟨group, mid⟩, h₁, h⟩ := ok_of_bind h
    cases h
    exact Nat.le_of_lt (length_readGroup h₁)
  · obtain ⟨⟨group, mid⟩, h₁, h⟩ := ok_of_bind h
    cases h
    exact Nat.le_of_lt_succ (length_readGroup h₁)
  · cases h; exact length_skipName _
  · obtain ⟨mid, h₁, h⟩ := ok_of_bind h
    obtain ⟨mid', h₂, h⟩ := ok_of_bind h
    cases h
    exact Nat.le_trans (length_skipActions h₂) (length_skipAction h₁)
  · split at h
    · cases h; exact Nat.le_refl _
    · exact absurd h fail_ne_ok

/-- The clauses up to the end of the item. -/
def readColumnClauses (ts : List Lexeme) : Except Fault (List ColumnClause × List Lexeme) :=
  match ts with
  | [] => .ok ([], [])
  | l :: rest =>
    if endsItem l.token then .ok ([], l :: rest)
    else
      match _h : readColumnClause l rest with
      | .error e => .error e
      | .ok (clause, rest) => do
        let (clauses, ts) ← readColumnClauses rest
        return (clause :: clauses, ts)
termination_by ts.length
decreasing_by exact Nat.lt_succ_of_le (length_readColumnClause _h)

theorem readColumnClauses_cons (l : Lexeme) (rest : List Lexeme) :
    readColumnClauses (l :: rest) =
      if endsItem l.token then .ok ([], l :: rest)
      else do
        let (clause, rest) ← readColumnClause l rest
        let (clauses, rest) ← readColumnClauses rest
        return (clause :: clauses, rest) := by
  rw [readColumnClauses]
  split
  · rfl
  · split <;> next h => rw [h]; rfl

theorem length_readColumnClauses {ts rest : List Lexeme} {cs : List ColumnClause}
    (h : readColumnClauses ts = .ok (cs, rest)) : rest.length ≤ ts.length := by
  fun_induction readColumnClauses ts generalizing cs with
  | case1 => cases h; simp
  | case2 => cases h; simp
  | case3 => cases h
  | case4 l tail _ clause mid hc ih =>
    obtain ⟨⟨cs', r⟩, h₁, h₂⟩ := ok_of_bind h
    cases h₂
    have := ih h₁
    have := length_readColumnClause hc
    simp only [List.length_cons] at *
    omega

/-! ## Columns -/

def ColumnDef.apply (c : ColumnDef) : ColumnClause → ColumnDef
  | .primaryKey => { c with isPrimaryKey := true }
  | .notNull => { c with isNullable := false }
  | .null => { c with isNullable := true }
  | .unique => { c with isUnique := true }
  | .references _ _ => c
  | .passed => c

/-- The constraint that a clause of the column `name` makes. -/
def ColumnClause.constraint? (name : String) : ColumnClause → Option PlacedConstraint
  | references target position =>
    some (.foreignKey ⟨[name], target.table, target.columns⟩, position)
  | _ => none

/-- A column of a table body, and the constraints made by its clauses. -/
def readColumn (dialect : Dialect) (ts : List Lexeme) :
    Except Fault ((ColumnDef × List PlacedConstraint) × List Lexeme) :=
  match ts with
  | [] => fail (.expected "column name" .eof) []
  | l :: rest => do
    let (name, ts) ← readName "column name" (l :: rest)
    let (raw, ts) ← readTypeName [] ts
    if raw.isEmpty then fail (.missingType name) ts
    else
      let typeName := String.ofList raw
      match TypeName.toType? dialect typeName with
      | none => .error ⟨.unsupportedType typeName name, some l.position⟩
      | some type => do
        let (clauses, ts) ← readColumnClauses ts
        let column : ColumnDef := ⟨name, type, false, false, true, l.position⟩
        return ((clauses.foldl ColumnDef.apply column,
          clauses.filterMap (ColumnClause.constraint? name)), ts)

theorem length_readColumn {dialect : Dialect} {ts rest : List Lexeme}
    {c : ColumnDef × List PlacedConstraint} (h : readColumn dialect ts = .ok (c, rest)) :
    rest.length < ts.length := by
  unfold readColumn at h
  split at h
  · exact absurd h fail_ne_ok
  · obtain ⟨⟨name, mid⟩, h₁, h⟩ := ok_of_bind h
    obtain ⟨⟨raw, mid'⟩, h₂, h⟩ := ok_of_bind h
    have := length_readName h₁
    have := length_readTypeName h₂
    dsimp only at h
    split at h
    · exact absurd h fail_ne_ok
    · split at h
      · cases h
      · obtain ⟨⟨clauses, mid''⟩, h₃, h⟩ := ok_of_bind h
        cases h
        have := length_readColumnClauses h₃
        dsimp only
        omega

end Sql
end Schemata
