/-
What can be wrong with a definition script.  A cause says what is wrong, and a site where: the
text of the statement, and a position in it.
-/
import Schemata.Sql.Lexeme

namespace Schemata
namespace Sql

open Text (Position)

inductive SyntaxFault
  | unbalancedParen
  | unclosedParen
  | unknownStatement
  | expected (what : String) (found : Token)
  | unexpectedItem (found : Token)
  | unexpectedClause (found : Token)
  | itemSeparator
  | nameSeparator
  | constraintKind
  | alterationKind
  | missingType (column : String)
  | unpairedColumns (columns targets : Nat)
  | actionEvent
  | action
  | defaultValue
  | duplicateColumn (name : String)
  | duplicateTable (name : String)
  deriving DecidableEq, Repr

def SyntaxFault.message : SyntaxFault → String
  | unbalancedParen => "unbalanced `)`"
  | unclosedParen => "unclosed `(`"
  | unknownStatement => "unrecognized statement, expected CREATE TABLE or ALTER TABLE"
  | expected what found => s!"expected {what}, found {found.listing}"
  | unexpectedItem found => s!"unexpected {found.listing} in table body"
  | unexpectedClause found => s!"unexpected {found.listing} in column definition"
  | itemSeparator => "expected `,` or `)` in table body"
  | nameSeparator => "expected `,` or `)` in column list"
  | constraintKind => "expected PRIMARY KEY, UNIQUE, FOREIGN KEY or CHECK"
  | alterationKind => "unsupported ALTER TABLE form, expected a key constraint"
  | missingType column => s!"missing type for column `{column}`"
  | unpairedColumns columns targets =>
    s!"foreign key has {columns} columns but references {targets}"
  | actionEvent => "expected DELETE or UPDATE after ON"
  | action => "expected referential action"
  | defaultValue => "expected DEFAULT value"
  | duplicateColumn name => s!"duplicate column `{name}`"
  | duplicateTable name => s!"duplicate table `{name}`"

inductive Reference
  | table (name : String)
  | column (table name : String)
  /-- A primary key that has to pair with the columns of a foreign key. -/
  | primaryKey (table : String)
  deriving DecidableEq, Repr

def Reference.describe : Reference → String
  | table name => s!"table `{name}`"
  | column owner name => s!"column `{owner}`.`{name}`"
  | primaryKey owner => s!"primary key of `{owner}`"

inductive Cause
  | malformed (fault : SyntaxFault)
  | unsupportedType (typeName column : String)
  | unresolved (reference : Reference)
  deriving DecidableEq, Repr

/-- The text of a statement and a position in it. -/
structure Site where
  statement : String
  position : Position
  deriving DecidableEq, Repr

inductive ImportError
  | lexical (e : LexError)
  | rejected (cause : Cause) (site : Site)
  deriving DecidableEq, Repr

namespace ImportError

def position : ImportError → Position
  | lexical e => e.position
  | rejected _ site => site.position

/-- The statement at fault.  A script that cannot be cut into lexemes has no statements. -/
def statement? : ImportError → Option String
  | lexical _ => none
  | rejected _ site => some site.statement

def message : ImportError → String
  | lexical e => e.message
  | rejected (.malformed fault) site =>
    s!"syntax error at {site.position.toText}: {fault.message} in `{site.statement}`"
  | rejected (.unsupportedType typeName column) site =>
    s!"unsupported type `{typeName}` for column `{column}` at {site.position.toText}"
  | rejected (.unresolved reference) site =>
    s!"unresolved reference to {reference.describe} at {site.position.toText} in `{site.statement}`"

end ImportError

end Sql
end Schemata
