/-
Reading the lexemes of a statement by their indices.  A cursor moves over them, and the parts of
the text that a reader needs are cut out of the text of the statement between two byte offsets.

An index may be out of range and an offset may be no place to cut at.  Each of these is a breach,
which is kept apart from what can be wrong with the script.  A loop is given as many rounds as the
statement has lexemes and one more, and to need another one is a breach as well.
-/
import Schemata.Schema.Operations
import Schemata.Sql.Document
import Schemata.Text.Slice

namespace Schemata
namespace Sql

open Text (Position)

/-- What is wrong with an import, and not with the script. -/
inductive Breach
  /-- There is no lexeme with the index. -/
  | index
  /-- The range does not lie within the list. -/
  | range
  /-- The offset lies in front of the one that it is counted from. -/
  | offset
  /-- The text cannot be cut at the offsets. -/
  | slice
  /-- The statement ends within a group. -/
  | group
  /-- The loop has had its rounds. -/
  | round
  /-- The schema lacks what was added to it before. -/
  | missing (missing : Missing)
  deriving DecidableEq, Repr

/-- Why an import stops. -/
inductive Halt
  | rejected (e : ImportError)
  | breach (b : Breach)
  deriving DecidableEq, Repr

/-- A place among the lexemes of a statement, and the text of the statement. -/
structure Cursor where
  lexemes : List Lexeme
  source : List Char
  index : Nat
  deriving Repr

namespace Cursor

/-! ## Lexemes -/

/-- A mark of the end where the last lexeme ends. -/
def endMark (c : Cursor) : Lexeme :=
  match c.lexemes.getLast? with
  | some l => ⟨⟨[], [], .eof⟩, l.position, l.stop⟩
  | none => ⟨⟨[], [], .eof⟩, default, 0⟩

/-- The lexeme that stands `n` places behind the next one. -/
def ahead (c : Cursor) (n : Nat) : Lexeme := (c.lexemes[c.index + n]?).getD c.endMark

def lexeme (c : Cursor) : Lexeme := c.ahead 0

def token (c : Cursor) : Token := c.lexeme.token

def position (c : Cursor) : Position := c.lexeme.position

/-- The cursor behind the next lexeme.  Behind the last one it stays where it is. -/
def advance (c : Cursor) : Cursor :=
  if c.index < c.lexemes.length then { c with index := c.index + 1 } else c

/-- The lexeme in front of the cursor. -/
def previous (c : Cursor) : Except Halt Lexeme :=
  if c.index = 0 then .error (.breach .index)
  else
    match c.lexemes[c.index - 1]? with
    | some l => .ok l
    | none => .error (.breach .index)

/-- How often a loop may go round. -/
def rounds (c : Cursor) : Nat := c.lexemes.length + 1

def reject (c : Cursor) (cause : Cause) (position : Position) : Except Halt α :=
  .error (.rejected (.rejected cause ⟨String.ofList c.source, position⟩))

def fail (c : Cursor) (fault : SyntaxFault) : Except Halt α :=
  c.reject (.malformed fault) c.position

/-! ## The text -/

/-- How far an offset lies behind the beginning of the statement. -/
def rebase (c : Cursor) (offset : Nat) : Except Halt Nat :=
  let base := (c.lexemes.head?.map (·.start)).getD 0
  if base ≤ offset then .ok (offset - base) else .error (.breach .offset)

/-- What stands between two offsets into the script, without blanks. -/
def slice (c : Cursor) (start stop : Nat) : Except Halt (List Char) := do
  let start ← c.rebase start
  let stop ← c.rebase stop
  match Text.slice? c.source start stop with
  | some part => return Text.squeeze part
  | none => .error (.breach .slice)

/-- The name that the lexeme `n` places behind the next one spells.  A keyword counts as a name,
the way it stands in the text. -/
def name? (c : Cursor) (n : Nat) : Except Halt (Option String) :=
  match c.lexemes[c.index + n]? with
  | none => .ok none
  | some l =>
    match l.token with
    | .ident name => .ok (some name)
    | .quoted name => .ok (some name)
    | .keyword _ => do
      let part ← c.slice l.start l.stop
      return some (String.ofList part)
    | _ => .ok none

/-! ## Names -/

def expect (c : Cursor) (token : Token) (what : String) : Except Halt Cursor :=
  if c.token = token then .ok c.advance else c.fail (.expected what c.token)

def skipIf (c : Cursor) (token : Token) : Cursor := if c.token = token then c.advance else c

def skipName (c : Cursor) : Cursor := if c.token.isName then c.advance else c

def readName (c : Cursor) (what : String) : Except Halt (String × Cursor) := do
  match ← c.name? 0 with
  | some name => return (name, c.advance)
  | none => c.fail (.expected what c.token)

def lastPart (what : String) : Nat → String → Cursor → Except Halt (String × Cursor)
  | 0, _, _ => .error (.breach .round)
  | rounds + 1, name, c =>
    if c.token = .dot then do
      let (part, c) ← c.advance.readName what
      lastPart what rounds part c
    else .ok (name, c)

def readQualifiedName (c : Cursor) (what : String) : Except Halt (String × Cursor) := do
  let (name, c) ← c.readName what
  lastPart what c.rounds name c

/-! ## Groups -/

/-- The cursor behind `depth` groups that are open. -/
def closeGroups : Nat → Nat → Cursor → Except Halt Cursor
  | _, 0, c => .ok c
  | 0, _ + 1, _ => .error (.breach .round)
  | rounds + 1, depth + 1, c =>
    match c.token with
    | .leftParen => closeGroups rounds (depth + 2) c.advance
    | .rightParen => closeGroups rounds depth c.advance
    | .eof => .error (.breach .group)
    | _ => closeGroups rounds (depth + 1) c.advance

def skipGroup (c : Cursor) : Except Halt Cursor := do
  let c ← c.expect .leftParen "`(`"
  closeGroups c.rounds 1 c

def skipGroup? (c : Cursor) : Except Halt Cursor :=
  if c.token = .leftParen then c.skipGroup else .ok c

/-! ## Lists of columns -/

def readSeparator (c : Cursor) (fault : SyntaxFault) : Except Halt (Bool × Cursor) :=
  if c.token = .comma then .ok (true, c.advance)
  else if c.token = .rightParen then .ok (false, c.advance)
  else c.fail fault

def readColumnEntry (c : Cursor) : Except Halt (String × Cursor) := do
  let (name, c) ← c.readName "column name"
  let c ← c.skipGroup?
  return (name, if c.token.isWord "asc" || c.token.isWord "desc" then c.advance else c)

def readColumnEntries : Nat → Cursor → Except Halt (List String × Cursor)
  | 0, _ => .error (.breach .round)
  | rounds + 1, c => do
    let (name, c) ← c.readColumnEntry
    let (more, c) ← c.readSeparator .nameSeparator
    if more then
      let (names, c) ← readColumnEntries rounds c
      return (name :: names, c)
    else return ([name], c)

def readColumnList (c : Cursor) : Except Halt (List String × Cursor) := do
  let c ← c.expect .leftParen "`(` before column list"
  readColumnEntries c.rounds c

/-! ## References -/

def skipAction (c : Cursor) : Except Halt Cursor :=
  if c.token.isWord "delete" || c.token.isWord "update" then
    let c := c.advance
    if c.token.isWord "set" || c.token.isWord "no" then .ok c.advance.advance
    else if c.token.isName then c.advance.skipGroup?
    else c.fail .action
  else c.fail .actionEvent

def skipActions : Nat → Cursor → Except Halt Cursor
  | 0, _ => .error (.breach .round)
  | rounds + 1, c =>
    if c.token = .keyword .on then do
      let c ← c.advance.skipAction
      skipActions rounds c
    else .ok c

def skipMatch (c : Cursor) : Cursor :=
  if c.token.isWord "match" then c.advance.advance else c

def readTargetColumns (c : Cursor) : Except Halt (List String × Cursor) :=
  if c.token = .leftParen then c.readColumnList else .ok ([], c)

def readTarget (c : Cursor) : Except Halt (Target × Cursor) := do
  let (table, c) ← c.readQualifiedName "referenced table"
  let (columns, c) ← c.readTargetColumns
  let c ← skipActions c.rounds c.skipMatch
  return (⟨table, columns⟩, c)

/-! ## Default values -/

/-- The cursor behind the tokens that satisfy `p`. -/
def skipWhile (p : Token → Bool) : Nat → Cursor → Except Halt Cursor
  | 0, _ => .error (.breach .round)
  | rounds + 1, c => if p c.token then skipWhile p rounds c.advance else .ok c

def skipOperand (c : Cursor) : Except Halt Cursor :=
  match c.token with
  | .leftParen => c.skipGroup
  | .ident _ => c.advance.skipGroup?
  | .str _ | .num _ | .keyword .null | .quoted _ => .ok c.advance
  | _ => c.fail .defaultValue

def skipExpression : Nat → Cursor → Except Halt Cursor
  | 0, _ => .error (.breach .round)
  | rounds + 1, c => do
    let c ← c.skipOperand
    if isOperator c.token then
      let c ← skipWhile isOperator c.rounds c
      skipExpression rounds c
    else return c

end Cursor

end Sql
end Schemata
