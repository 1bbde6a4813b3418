/-
Replacing the schema of a session.  An import and a suggestion work out a diagram from the options
and from what they are given, without a look at what the session holds, and then either put the
whole diagram in its place or leave everything as it is.
-/
import Schemata.Proofs.Schema.TableIds
import Schemata.Proofs.Sql.ImportedNames
import Schemata.Proofs.Suggestion.Building
import Schemata.Session

namespace Schemata

/-- What replaces the schema and the places of a session. -/
inductive Replacement
  | importScript (text : String)
  | applySuggestion (suggestion : Suggestion)
  | requestSuggestion (service : String → Except SuggestionError Suggestion) (prompt : String)

namespace Replacement

def inPlace : Replacement → InSession Unit
  | .importScript text => InSession.importScript text
  | .applySuggestion suggestion => InSession.applySuggestion suggestion
  | .requestSuggestion service prompt => InSession.requestSuggestion service prompt

/-- The diagram of a suggested schema, or why there is none. -/
def suggested (options : Sql.ImportOptions) (suggestion : Suggestion) : Except Failure Diagram :=
  options.grid.diagram <$> suggestion.toSchema.mapError Failure.noSuggestion

/-- The diagram that is worked out, or why there is none. -/
def diagram (options : Sql.ImportOptions) : Replacement → Except Failure Diagram
  | .importScript text => (Sql.importScript options text).mapError Failure.rejectedScript
  | .applySuggestion suggestion => suggested options suggestion
  | .requestSuggestion service prompt =>
    (service prompt).mapError Failure.noSuggestion >>= suggested options

/-- The end of a procedure that shows a diagram, or changes nothing. -/
def settled (s : Session) : Except Failure Diagram → EStateM.Result Failure Session Unit
  | .ok d => .ok () ⟨d.schema, d.placements, s.options⟩
  | .error f => .error f s

theorem run_importScript (text : String) (s : Session) :
    (InSession.importScript text).run s =
      settled s ((Sql.importScript s.options text).mapError Failure.rejectedScript) := by
  rw [InSession.importScript, EStateM.run_bind, EStateM.run_get]
  dsimp only
  cases Sql.importScript s.options text with
  | error e => rfl
  | ok d => rfl

theorem run_applySuggestion (suggestion : Suggestion) (s : Session) :
    (InSession.applySuggestion suggestion).run s = settled s (suggested s.options suggestion) := by
  rw [InSession.applySuggestion, suggested]
  cases suggestion.toSchema with
  | error e => rfl
  | ok schema => rfl

/-- The diagram is worked out before anything is changed. -/
theorem run_inPlace (r : Replacement) (s : Session) :
    r.inPlace.run s = settled s (r.diagram s.options) := by
  cases r with
  | importScript text => exact run_importScript text s
  | applySuggestion suggestion => exact run_applySuggestion suggestion s
  | requestSuggestion service prompt =>
    show (InSession.requestSuggestion service prompt).run s = _
    rw [InSession.requestSuggestion, diagram]
    cases service prompt with
    | error e => rfl
    | ok suggestion => exact run_applySuggestion suggestion s

/-- A replacement that fails changes nothing, and what one that succeeds leaves, or how one fails,
depends on the options and on what it is given, not on the session that it replaces. -/
theorem inPlace_whole (r : Replacement) :
    (∀ s f u, r.inPlace.run s = .error f u → u = s) ∧
      ∀ s t : Session, s.options = t.options →
        (∃ f, r.inPlace.run s = .error f s ∧ r.inPlace.run t = .error f t) ∨
          ∃ u, u.options = s.options ∧ r.inPlace.run s = .ok () u ∧ r.inPlace.run t = .ok () u := by
  constructor
  · intro s f u h
    rw [run_inPlace] at h
    cases hdiagram : r.diagram s.options with
    | error f' =>
      rw [hdiagram] at h
      cases h
      rfl
    | ok d =>
      rw [hdiagram] at h
      cases h
  · intro s t hoptions
    rw [run_inPlace, run_inPlace, ← hoptions]
    cases r.diagram s.options with
    | error f => exact .inl ⟨f, rfl, rfl⟩
    | ok d => exact .inr ⟨⟨d.schema, d.placements, s.options⟩, rfl, rfl, by rw [hoptions]; rfl⟩

/-! ## The diagram -/

/-- The schema is consistent, its tables have numbers that it gave, and they stand on the grid. -/
structure Fresh (options : Sql.ImportOptions) (d : Diagram) : Prop where
  consistent : d.schema.Consistent
  gave : ∀ id ∈ d.schema.tableIds, d.schema.Gave id
  placements : d.placements = options.grid.layout d.schema

theorem fresh_diagram {options : Sql.ImportOptions} {s : Schema} {ts : List TableSpec}
    {js : List Join} (hs : s = Schema.numbered ts js) (h : s.Consistent) :
    Fresh options (options.grid.diagram s) :=
  ⟨h, hs ▸ Schema.gave_numbered ts js, rfl⟩

theorem fresh_of_suggested {options : Sql.ImportOptions} {suggestion : Suggestion} {d : Diagram}
    (h : suggested options suggestion = .ok d) : Fresh options d := by
  cases hschema : suggestion.toSchema with
  | error e => rw [suggested, hschema] at h; cases h
  | ok schema =>
    rw [suggested, hschema] at h
    cases h
    obtain ⟨-, ks, -, hnumbered⟩ := Suggestion.toSchema_eq_ok.mp hschema
    exact fresh_diagram hnumbered (Suggestion.toSchema_consistent hschema)

theorem fresh_of_diagram {r : Replacement} {options : Sql.ImportOptions} {d : Diagram}
    (h : r.diagram options = .ok d) : Fresh options d := by
  cases r with
  | importScript text =>
    cases hschema : Sql.schemaOf options text with
    | error e => rw [diagram, Sql.importScript, hschema] at h; cases h
    | ok schema =>
      rw [diagram, Sql.importScript, hschema] at h
      cases h
      obtain ⟨ts, -, js, -, -, hnumbered⟩ := Sql.schemaOf_eq_ok hschema
      exact fresh_diagram hnumbered (Sql.schemaOf_consistent hschema)
  | applySuggestion suggestion => exact fresh_of_suggested h
  | requestSuggestion service prompt =>
    obtain ⟨suggestion, -, h⟩ := Sql.ok_of_bind h
    exact fresh_of_suggested h

end Replacement
end Schemata
