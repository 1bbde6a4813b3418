/-
A document is put together from its parts, one for each statement of the script.
-/
import Mathlib.Data.List.Forall2
import Schemata.Proofs.Sql.Resolution
import Schemata.Sql.Document

namespace Schemata
namespace Sql

/-- The statements of a script, if it can be cut into any. -/
def statementsOf (script : String) : List Statement :=
  match tokenize script with
  | .error _ => []
  | .ok lexemes => ((splitStatements lexemes).toOption).getD []

theorem statementsOf_eq {script : String} {lexemes : List Lexeme} {ss : List Statement}
    (hlexemes : tokenize script = .ok lexemes) (hss : splitStatements lexemes = .ok ss) :
    statementsOf script = ss := by
  rw [statementsOf, hlexemes]
  dsimp only
  rw [hss]
  rfl

theorem Statement.rules_constraintDefs (s : Statement) (table : String)
    (cs : List PlacedConstraint) :
    (s.constraintDefs table cs).map ConstraintDef.rule = (cs.map (·.1)).map (Rule.mk table) := by
  rw [constraintDefs, List.map_map, List.map_map]
  rfl

namespace Document

/-- All that the parts define, in order. -/
def join (parts : List Document) : Document :=
  ⟨parts.flatMap (·.tables), parts.flatMap (·.constraints)⟩

theorem join_cons (d : Document) (parts : List Document) : join (d :: parts) = d ++ join parts := by
  rw [join, List.flatMap_cons, List.flatMap_cons]
  rfl

theorem ofStatements_eq_ok {dialect : Dialect} {ss : List Statement} {d : Document} :
    ofStatements dialect ss = .ok d ↔
      ∃ parts, List.Forall₂ (fun s part => Statement.read dialect s = .ok part) ss parts ∧
        d = join parts := by
  induction ss generalizing d with
  | nil =>
    rw [ofStatements, Except.ok.injEq]
    constructor
    · intro h
      exact ⟨[], .nil, h.symm⟩
    · rintro ⟨parts, hparts, rfl⟩
      rw [List.forall₂_nil_left_iff.mp hparts]
      rfl
  | cons s ss ih =>
    rw [ofStatements]
    cases hs : s.read dialect with
    | error fault =>
      constructor
      · intro h
        cases h
      · rintro ⟨parts, hparts, -⟩
        obtain ⟨part, -, hpart, -, -⟩ := List.forall₂_cons_left_iff.mp hparts
        rw [hs] at hpart
        cases hpart
    | ok part =>
      constructor
      · intro h
        obtain ⟨more, hmore, h⟩ := ok_of_bind h
        cases h
        obtain ⟨parts, hparts, rfl⟩ := ih.mp hmore
        exact ⟨part :: parts, .cons hs hparts, (join_cons part parts).symm⟩
      · rintro ⟨parts, hparts, rfl⟩
        obtain ⟨part', parts', hpart, hparts', rfl⟩ := List.forall₂_cons_left_iff.mp hparts
        rw [hs] at hpart
        cases hpart
        dsimp only
        rw [ih.mpr ⟨parts', hparts', rfl⟩, join_cons]
        rfl

/-- A script is read if it can be cut into lexemes and statements and each statement is read. -/
theorem ofScript_eq_ok {script : String} {choice : DialectChoice} {d : Document} :
    ofScript script choice = .ok d ↔
      ∃ lexemes ss parts, tokenize script = .ok lexemes ∧ splitStatements lexemes = .ok ss ∧
        List.Forall₂ (fun s part => Statement.read (choice.resolve lexemes) s = .ok part) ss
          parts ∧
        d = join parts := by
  unfold ofScript
  cases hlexemes : tokenize script with
  | error e =>
    constructor
    · intro h
      cases h
    · rintro ⟨lexemes, ss, parts, h, -⟩
      cases h
  | ok lexemes =>
    constructor
    · intro h
      obtain ⟨ss, hss, h⟩ := ok_of_bind h
      obtain ⟨parts, hparts, hd⟩ := ofStatements_eq_ok.mp h
      exact ⟨lexemes, ss, parts, rfl, hss, hparts, hd⟩
    · rintro ⟨_, ss, parts, h, hss, hparts, hd⟩
      cases h
      dsimp only
      rw [hss]
      exact ofStatements_eq_ok.mpr ⟨parts, hparts, hd⟩

end Document
end Sql
end Schemata
