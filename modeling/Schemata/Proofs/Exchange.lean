/-
Schemas that go out as JSON text and come back.  Everything that is handed out can be read again,
and the script of what comes back is the script of the schema that was handed out.
-/
import Schemata.Exchange
import Schemata.Proofs.Json.Numerals
import Schemata.Proofs.Schema.Encoding
import Schemata.Proofs.Sql.RoundTrip

namespace Schemata

open Json (Written Reordered)

/-! ## Diagrams -/

theorem written_ofFloat (x : Float) : Written (.ofFloat x) := by
  unfold Json.ofFloat
  split
  · next spelling h => exact Decimal.written_render? h
  · exact .null

theorem Placement.written_toJson (p : Placement) : Written p.toJson :=
  written_ofFields ⟨.text _, written_ofFloat _, written_ofFloat _, written_ofFloat _, written_ofFloat _⟩

theorem Diagram.written_toJson (d : Diagram) : Written d.toJson :=
  written_ofFields ⟨d.schema.written_toJson, written_list Placement.written_toJson _⟩

theorem Diagram.graph_toJson (d : Diagram) : d.toJson.member? "graph" = some d.schema.toJson := by
  simp [Diagram.toJson, Json.ofFields, Json.member?]

/-! ## Scripts -/

namespace Sql

/-- The counter of a schema does not show in its script. -/
theorem script_withCounter (s : Schema) (n : Nat) : script { s with counter := n } = script s := by
  have hend : ∀ relation e, endOf { s with counter := n } relation e = endOf s relation e :=
    fun _ _ => rfl
  have hstatements : ∀ k rs, relationStatements { s with counter := n } k rs =
      relationStatements s k rs := by
    intro k rs
    induction rs generalizing k with
    | nil => rfl
    | cons r rs ih =>
      rw [relationStatements, relationStatements, ih]
      rfl
  rw [script, script, hstatements]

theorem exists_script_of_schemaOf {options : ImportOptions} {text : String} {s : Schema}
    (h : schemaOf options text = .ok s) : ∃ ddl, script s = .ok ddl := by
  obtain ⟨ts, ls, js, hnames, hjs, rfl⟩ := schemaOf_eq_ok h
  refine ⟨scriptText (TableSpec.exported ts) ls, ?_⟩
  rw [script_eq_ok_iff (Schema.uniqueIds_numbered ts js) (linkedBy_numbered hjs),
    Schema.specs_numbered]
  exact ⟨hnames, rfl⟩

end Sql

namespace Exchange

/-- A schema that is handed out as JSON text comes back without its counter.  A script gives a
diagram, and any JSON text of the schema in it, with the members in any order, gives the script of
the schema that the first script defines. -/
theorem jsonToScript_scriptToJson :
    (∀ s : Schema, Schema.parse? s.toJson.compact = some { s with counter := 0 }) ∧
      ∀ options text json, scriptToJson options text = .ok json →
        ∃ value graph s ddl, Json.parse? json = some value ∧ value.member? "graph" = some graph ∧
          Sql.schemaOf options text = .ok s ∧ Sql.script s = .ok ddl ∧
          ∀ source v, Json.parse? source = some v → Reordered graph v →
            jsonToScript source = .ok ddl := by
  refine ⟨Schema.parse?_toJson, fun options text json h => ?_⟩
  unfold scriptToJson at h
  split at h
  · next diagram hdiagram =>
    cases h
    obtain ⟨s, hs, hd⟩ := Sql.ok_of_bind hdiagram
    cases hd
    obtain ⟨ddl, hddl⟩ := Sql.exists_script_of_schemaOf hs
    refine ⟨_, _, s, ddl, Json.parse?_compact (Diagram.written_toJson _),
      Diagram.graph_toJson _, hs, hddl, fun source v hsource hv => ?_⟩
    have hparse : Schema.parse? source = some { s with counter := 0 } := by
      rw [Schema.parse?, hsource]
      exact Schema.ofJson?_of_reordered hv
    have hviolation : { s with counter := 0 }.violation? = none :=
      Schema.violation?_eq_none.mpr ((Sql.schemaOf_consistent hs).withCounter 0)
    rw [jsonToScript, hparse]
    dsimp only
    rw [Sql.checkedScript, hviolation]
    dsimp only
    rw [Sql.script_withCounter, hddl]
  · cases h

/-- The name of the table has quotation marks, and the name of the column a line feed. -/
def quotedScript : String := "create table \"say \"\"é\"\"\" (\"a\nb\" int)"

def quotedSchema : Schema :=
  ⟨[⟨⟨"t1"⟩, "say \"é\"", [⟨⟨"c2"⟩, "a\nb", .integer, false, false, false, true⟩]⟩], [], 2⟩

/-- The relations come first. -/
def quotedGraph : Json :=
  .ofFields [("relations", .array []), ("tables", .array (quotedSchema.tables.map Table.toJson))]

theorem jsonToScript_scriptToJson_quoted :
    scriptToJson {} quotedScript = .ok (Grid.standard.diagram quotedSchema).toJson.compact ∧
      jsonToScript quotedGraph.compact =
        .ok "CREATE TABLE \"say \"\"é\"\"\" (\n    \"a\nb\" INTEGER\n);\n" := by
  have hschema : Sql.schemaOf {} quotedScript = .ok quotedSchema := by decide +kernel
  have hjson : scriptToJson {} quotedScript =
      .ok (Grid.standard.diagram quotedSchema).toJson.compact := by
    rw [scriptToJson, Sql.importScript, hschema]
    rfl
  have hwritten : Written quotedGraph :=
    written_ofFields ⟨written_list Relation.written_toJson [], written_list Table.written_toJson _⟩
  have hreordered : Reordered quotedSchema.toJson quotedGraph :=
    .object rfl (Json.forall₂_reordered_refl _) (.swap _ _ _)
  obtain ⟨value, graph, s, ddl, hvalue, hgraph, hs, hddl, hread⟩ :=
    jsonToScript_scriptToJson.2 {} quotedScript _ hjson
  rw [Json.parse?_compact (Diagram.written_toJson _)] at hvalue
  cases hvalue
  rw [Diagram.graph_toJson] at hgraph
  cases hgraph
  rw [hschema] at hs
  cases hs
  have hscript : Sql.script quotedSchema =
      .ok "CREATE TABLE \"say \"\"é\"\"\" (\n    \"a\nb\" INTEGER\n);\n" := by decide +kernel
  cases hddl.symm.trans hscript
  exact ⟨hjson, hread _ _ (Json.parse?_compact hwritten) hreordered⟩

end Exchange
end Schemata
