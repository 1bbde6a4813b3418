/-
Everything that can go wrong, sorted into kinds that a program can tell apart.
-/
import Schemata.Sql.Script
import Schemata.Sql.ImportError
import Schemata.Schema.Operations
import Schemata.Suggestion

namespace Schemata

inductive FailureKind
  | notFound
  | unsupportedType
  | unresolvedReference
  | parseError
  | generationError
  | suggestionError
  deriving DecidableEq, Repr

def FailureKind.name : FailureKind → String
  | notFound => "not_found"
  | unsupportedType => "unsupported_type"
  | unresolvedReference => "unresolved_reference"
  | parseError => "parse_error"
  | generationError => "generation_error"
  | suggestionError => "suggestion_error"

def Sql.ImportError.kind : Sql.ImportError → FailureKind
  | .lexical _ => .parseError
  | .rejected (.malformed _) _ => .parseError
  | .rejected (.unsupportedType _ _) _ => .unsupportedType
  | .rejected (.unresolved _) _ => .unresolvedReference

inductive Failure
  | missing (m : Missing)
  | rejectedScript (e : Sql.ImportError)
  | noScript (e : Sql.ScriptError)
  | noSuggestion (e : SuggestionError)
  /-- A text that was to denote a schema denotes none. -/
  | unreadable
  deriving DecidableEq, Repr

namespace Failure

def kind : Failure → FailureKind
  | missing _ => .notFound
  | rejectedScript e => e.kind
  | noScript _ => .generationError
  | noSuggestion _ => .suggestionError
  | unreadable => .parseError

def message : Failure → String
  | missing m => m.message
  | rejectedScript e => e.message
  | noScript e => e.message
  | noSuggestion e => e.message
  | unreadable => "invalid graph JSON"

end Failure

end Schemata
