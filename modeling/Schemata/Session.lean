/-
An editing session: a schema, the places of its tables, and the options for imports.  Most of what
can be done to a session is a procedure that changes it in place and may fail on the way; the
session is still there then, as far as it was changed.
-/
import Schemata.Failure
import Schemata.Schema.InPlace
import Schemata.Schema.Starter
import Schemata.Sql.Import

namespace Schemata

structure Session where
  schema : Schema
  placements : List Placement
  options : Sql.ImportOptions
  deriving Repr

namespace Session

def new (options : Sql.ImportOptions) : Session := ⟨.empty, [], options⟩

def placement? (s : Session) (table : TableId) : Option Placement :=
  s.placements.find? (·.table == table)

/-- The schema with the places that its tables have in the session. -/
def diagram (s : Session) : Diagram := ⟨s.schema, s.placements⟩

def relayout (s : Session) : Session :=
  { s with placements := s.options.grid.layout s.schema }

/-- The session with another schema, the tables of which are placed on the grid. -/
def replace (s : Session) (schema : Schema) : Session := relayout { s with schema := schema }

def withSample (options : Sql.ImportOptions) : Session := (new options).replace .starter

/-- The session with another schema and the places it had. -/
def load (s : Session) (schema : Schema) : Session := { s with schema := schema }

def prunePlacements (s : Session) : Session :=
  { s with placements := s.placements.filter fun p => (s.schema.table? p.table).isSome }

def exportScript (s : Session) : Except Failure String :=
  match Sql.script s.schema with
  | .ok text => .ok text
  | .error e => .error (.noScript e)

end Session

/-! ## Procedures -/

/-- A procedure that changes a session in place, and may end early because something fails. -/
abbrev InSession := EStateM Failure Session

namespace InSession

/-- Replaces the schema and all places. -/
def importScript (text : String) : InSession Unit := do
  match Sql.importScript (← get).options text with
  | .ok diagram =>
    modify fun s => { s with schema := diagram.schema }
    modify fun s => { s with placements := diagram.placements }
  | .error e => throw (.rejectedScript e)

/-- Replaces the schema by the suggested one, and places its tables on the grid. -/
def applySuggestion (suggestion : Suggestion) : InSession Unit :=
  match suggestion.toSchema with
  | .ok schema => modify fun s => s.replace schema
  | .error e => throw (.noSuggestion e)

/-- Applies what a service answers to a prompt. -/
def requestSuggestion (service : String → Except SuggestionError Suggestion) (prompt : String) :
    InSession Unit :=
  match service prompt with
  | .ok suggestion => applySuggestion suggestion
  | .error e => throw (.noSuggestion e)

/-- Moves a table, and gives it a place if it has none. -/
def place (table : TableId) (x y : Float) : InSession Unit := do
  match (← get).schema.table? table with
  | none => throw (.missing (.table table))
  | some t => modify fun s =>
    match s.placement? table with
    | some _ =>
      { s with
        placements := modifyFirst (·.table == table) (fun p => { p with x := x, y := y })
          s.placements }
    | none => { s with placements := s.placements ++ [{ Grid.box t x y with table := table }] }

/-- Gives a place another size, which is at least the least size of a box. -/
def resize (table : TableId) (width height : Float) : InSession Unit := do
  match (← get).placement? table with
  | none => throw (.missing (.table table))
  | some _ =>
    let (width, height) := Layout.clampSize width height
    modify fun s => { s with
      placements := modifyFirst (·.table == table)
        (fun p => { p with width := width, height := height }) s.placements }

/-- Edits the schema in place.  What the edit leaves is kept, even if it fails, and a new table has
no place yet. -/
def edit (e : Edit) : InSession Outcome := fun s =>
  match e.inPlace.run s.schema with
  | .ok outcome schema => .ok outcome (s.load schema)
  | .error m schema => .error (.missing m) (s.load schema)

end InSession

namespace Session

/-- The result of a procedure and the session after it, or how it failed. -/
def completed (s : Session) (p : InSession α) : Except Failure (Session × α) :=
  match p.run s with
  | .ok a t => .ok (t, a)
  | .error f _ => .error f

def importScript (s : Session) (text : String) : Except Failure Session :=
  Prod.fst <$> s.completed (InSession.importScript text)

def applySuggestion (s : Session) (suggestion : Suggestion) : Except Failure Session :=
  Prod.fst <$> s.completed (InSession.applySuggestion suggestion)

def requestSuggestion (s : Session) (service : String → Except SuggestionError Suggestion)
    (prompt : String) : Except Failure Session :=
  Prod.fst <$> s.completed (InSession.requestSuggestion service prompt)

def place (s : Session) (table : TableId) (x y : Float) : Except Failure Session :=
  Prod.fst <$> s.completed (InSession.place table x y)

def resize (s : Session) (table : TableId) (width height : Float) : Except Failure Session :=
  Prod.fst <$> s.completed (InSession.resize table width height)

def edit (s : Session) (e : Edit) : Except Failure (Session × Outcome) :=
  s.completed (InSession.edit e)

end Session

end Schemata
