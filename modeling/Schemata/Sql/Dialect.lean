/-
The dialects of definition scripts.  Only the names of types depend on the dialect.  A script
gives its dialect away by words and marks that only one of them has; the text of quoted names and
of literals says nothing.
-/
import Schemata.Sql.Lexeme

namespace Schemata
namespace Sql

inductive Dialect
  | generic
  | postgres
  | mysql
  deriving DecidableEq, Repr

/-- A dialect, or the wish to find it out. -/
inductive DialectChoice
  | auto
  | named (dialect : Dialect)
  deriving DecidableEq, Repr

namespace Dialect

def name : Dialect → String
  | generic => "generic"
  | postgres => "postgres"
  | mysql => "mysql"

/-- Bare words that only scripts of the dialect postgres have. -/
def postgresWords : List String :=
  ["serial", "bigserial", "smallserial", "serial4", "serial8", "jsonb", "timestamptz", "timetz",
   "bytea", "citext", "nextval"]

/-- Bare words that only scripts of the dialect mysql have. -/
def mysqlWords : List String :=
  ["auto_increment", "tinyint", "mediumint", "tinytext", "mediumtext", "longtext", "unsigned"]

/-- The dialect that a token in front of `next` speaks for. -/
def cue? (l : Lexeme) (next : Token) : Option Dialect :=
  match l.token with
  | .ident name =>
    let word := String.ofList (Text.lower name.toList)
    if postgresWords.contains word then some postgres
    else if mysqlWords.contains word || (word == "engine" && next = .symbol '=') then some mysql
    else none
  | .symbol ':' => if next = .symbol ':' then some postgres else none
  | .quoted _ => if l.text.head? = some '\x60' then some mysql else none
  | _ => none

/-- All cues of a script, in order. -/
def cues : List Lexeme → List Dialect
  | [] => []
  | l :: rest => (cue? l ((rest.head?.map (·.token)).getD .eof)).toList ++ cues rest

/-- The dialect with more cues, and the generic one if neither has more. -/
def detect (script : List Lexeme) : Dialect :=
  let found := cues script
  if found.count postgres > found.count mysql then postgres
  else if found.count mysql > found.count postgres then mysql
  else generic

end Dialect

namespace DialectChoice

def all : List DialectChoice := [auto, named .generic, named .postgres, named .mysql]

def name : DialectChoice → String
  | auto => "auto"
  | named dialect => dialect.name

def ofName? (s : String) : Option DialectChoice := all.find? (·.name == s)

/-- The choice that a name or a nickname in any letter case stands for. -/
def ofNickname? (s : String) : Option DialectChoice :=
  let word := String.ofList (Text.lower s.toList)
  if word == "auto" then some auto
  else if ["generic", "sql", "ansi"].contains word then some (named .generic)
  else if ["postgres", "postgresql", "pg"].contains word then some (named .postgres)
  else if ["mysql", "mariadb"].contains word then some (named .mysql)
  else none

def resolve (choice : DialectChoice) (script : List Lexeme) : Dialect :=
  match choice with
  | auto => Dialect.detect script
  | named dialect => dialect

/-- The dialect of a single type name, which gives no cue. -/
def orGeneric : DialectChoice → Dialect
  | auto => .generic
  | named dialect => dialect

end DialectChoice

end Sql
end Schemata
