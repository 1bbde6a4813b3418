/-
Statements: the parts of a script between semicolons that stand in no parentheses.  Parentheses
have to balance over the whole script, and then they balance in each statement.
-/
import Schemata.Sql.ImportError

namespace Schemata
namespace Sql

open Text (Position)

/-- A statement, which has at least one lexeme. -/
structure Statement where
  first : Lexeme
  others : List Lexeme
  deriving DecidableEq, Repr

namespace Statement

def lexemes (s : Statement) : List Lexeme := s.first :: s.others

def last (s : Statement) : Lexeme := s.others.getLastD s.first

def position (s : Statement) : Position := s.first.position

/-- The part of the script from the first lexeme through the last one. -/
def text (s : Statement) : String := String.ofList (spell s.lexemes)

/-- The statement of a run of lexemes, unless the run is empty. -/
def ofLexemes? : List Lexeme → Option Statement
  | [] => none
  | first :: others => some ⟨first, others⟩

end Statement

/-- A breach of the grammar in a run of lexemes. -/
def runFault (fault : SyntaxFault) (run : List Lexeme) (position : Position) : ImportError :=
  .rejected (.malformed fault) ⟨String.ofList (spell run), position⟩

/-- The end of the script, after the given run.  The innermost parenthesis that is still open
comes first in `opened`. -/
def endRuns (opened : List Position) (run : List Lexeme) :
    Except ImportError (List (List Lexeme)) :=
  match opened with
  | [] => .ok [run]
  | position :: _ => .error (runFault .unclosedParen run position)

/-- The runs of lexemes between the semicolons outside of parentheses.  The run so far comes
first, and `opened` holds the positions of the parentheses that are open in it. -/
def runs (opened : List Position) (run : List Lexeme) :
    List Lexeme → Except ImportError (List (List Lexeme))
  | [] => endRuns opened run
  | l :: rest =>
    match l.token with
    | .eof => endRuns opened run
    | .leftParen => runs (l.position :: opened) (run ++ [l]) rest
    | .rightParen =>
      match opened with
      | [] => .error (runFault .unbalancedParen (run ++ [l]) l.position)
      | _ :: opened => runs opened (run ++ [l]) rest
    | .semicolon =>
      if opened.isEmpty then (runs [] [] rest).map (run :: ·) else runs opened (run ++ [l]) rest
    | _ => runs opened (run ++ [l]) rest

def splitStatements (script : List Lexeme) : Except ImportError (List Statement) :=
  (runs [] [] script).map (·.filterMap Statement.ofLexemes?)

theorem ofLexemes?_lexemes {run : List Lexeme} {s : Statement}
    (h : Statement.ofLexemes? run = some s) : s.lexemes = run := by
  cases run with
  | nil => simp [Statement.ofLexemes?] at h
  | cons l rest => cases h; rfl

end Sql
end Schemata
