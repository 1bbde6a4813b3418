/-
The tokens of a definition script.  A keyword is a bare word that the grammar knows; a quoted name
is never one.
-/
import Schemata.Text.Case
import Schemata.Text.Escaped

namespace Schemata
namespace Sql

inductive Keyword
  | create | alter | add | table | only | primary | key | foreign | references | not | null
  | unique | default | on | constraint | index | ifWord | existsWord | check
  deriving DecidableEq, Repr

namespace Keyword

def name : Keyword → String
  | create => "Create"
  | alter => "Alter"
  | add => "Add"
  | table => "Table"
  | only => "Only"
  | primary => "Primary"
  | key => "Key"
  | foreign => "Foreign"
  | references => "References"
  | not => "Not"
  | null => "Null"
  | unique => "Unique"
  | default => "Default"
  | on => "On"
  | constraint => "Constraint"
  | index => "Index"
  | ifWord => "If"
  | existsWord => "Exists"
  | check => "Check"

def all : List Keyword :=
  [create, alter, add, table, only, primary, key, foreign, references, not, null, unique, default,
   on, constraint, index, ifWord, existsWord, check]

def spelling (k : Keyword) : List Char := Text.upper k.name.toList

/-- The keyword that a bare word spells in any letter case. -/
def ofWord? (word : List Char) : Option Keyword :=
  all.find? fun k => k.spelling == Text.upper word

end Keyword

inductive Token
  | keyword (k : Keyword)
  /-- A bare word that is no keyword. -/
  | ident (name : String)
  /-- A name in quotation marks or brackets, without them. -/
  | quoted (name : String)
  /-- A string literal, without its quotation marks. -/
  | str (value : String)
  | num (text : String)
  | leftParen
  | rightParen
  | comma
  | semicolon
  | dot
  /-- Any other character. -/
  | symbol (c : Char)
  /-- The end of the text. -/
  | eof
  deriving DecidableEq, Repr

namespace Token

/-- The text of a name, bare or quoted. -/
def ident? : Token → Option String
  | ident name => some name
  | quoted name => some name
  | _ => none

def isName (t : Token) : Bool := t.ident?.isSome

/-- A bare word that spells `word`, which is in lower case, in any ASCII letter case. -/
def isWord (word : String) : Token → Bool
  | ident name => Text.lowerAscii name.toList == word.toList
  | _ => false

/-- The sort of a token in a listing. -/
def kind : Token → String
  | keyword k => k.name
  | ident _ => "Ident"
  | quoted _ => "Quoted"
  | str _ => "Str"
  | num _ => "Num"
  | leftParen => "LParen"
  | rightParen => "RParen"
  | comma => "Comma"
  | semicolon => "Semicolon"
  | dot => "Dot"
  | symbol _ => "Symbol"
  | eof => "Eof"

/-- What a token holds beside its sort. -/
def content? : Token → Option String
  | ident name => some name
  | quoted name => some name
  | str value => some value
  | num text => some text
  | symbol c => some (String.singleton c)
  | _ => none

/-- A token as error messages show it: its sort, and its content in quotation marks. -/
def listing (t : Token) : String :=
  match t with
  | symbol c => t.kind ++ "(" ++ Text.quoted '\'' [c] ++ ")"
  | _ => match t.content? with
    | some text => t.kind ++ "(" ++ Text.quoted '"' text.toList ++ ")"
    | none => t.kind

end Token

def wordToken (word : List Char) : Token :=
  match Keyword.ofWord? word with
  | some k => .keyword k
  | none => .ident (String.ofList word)

end Sql
end Schemata
