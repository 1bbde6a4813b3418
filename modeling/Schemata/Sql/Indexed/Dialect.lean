/-
Finding out the dialect of a script by indices and offsets.  The lexemes are gone through by their
indices, two scores go up on the way, and what a name is quoted with is looked up in the script.
-/
import Schemata.Sql.Dialect
import Schemata.Text.Slice

namespace Schemata
namespace Sql

/-- How often either dialect was spoken for. -/
structure Score where
  postgres : Nat
  mysql : Nat
  deriving DecidableEq, Repr

namespace Score

/-- The score with one cue more. -/
def add (score : Score) : Option Dialect → Score
  | some .postgres => { score with postgres := score.postgres + 1 }
  | some .mysql => { score with mysql := score.mysql + 1 }
  | _ => score

end Score

namespace Dialect

/-- Whether the script goes on with the character at a byte offset. -/
def goesOnWith (source : List Char) (offset : Nat) (c : Char) : Bool :=
  match Text.cut? source offset with
  | some (_, rest) => rest.head? = some c
  | none => false

/-- The dialect that the lexeme at an index speaks for. -/
def cueAt? (source : List Char) (lexemes : List Lexeme) (i : Nat) : Option Dialect :=
  match lexemes[i]? with
  | none => none
  | some l =>
    let next := lexemes[i + 1]?.map (·.token)
    match l.token with
    | .ident name =>
      let word := String.ofList (Text.lower name.toList)
      if postgresWords.contains word then some postgres
      else if mysqlWords.contains word || (word == "engine" && next = some (.symbol '=')) then
        some mysql
      else none
    | .symbol ':' => if next = some (.symbol ':') then some postgres else none
    | .quoted _ => if goesOnWith source l.start '\x60' then some mysql else none
    | _ => none

/-- The dialect with the higher score, and the generic one if neither is higher. -/
def indexedDetect (source : List Char) (lexemes : List Lexeme) : Dialect :=
  let score := (List.range lexemes.length).foldl
    (fun score i => score.add (cueAt? source lexemes i)) (Score.mk 0 0)
  if score.postgres > score.mysql then postgres
  else if score.mysql > score.postgres then mysql
  else generic

end Dialect

end Sql
end Schemata
