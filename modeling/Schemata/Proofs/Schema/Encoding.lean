/-
Schemas that are written as JSON values and read again.  Nothing but the counter is lost, and the
members of the objects may be put in another order in between.
-/
import Schemata.Proofs.Json.Records
import Schemata.Proofs.Json.Writing
import Schemata.Schema.Encoding

namespace Schemata

open Json (Reordered Written fields?_of_reordered list?_of_reordered)

/-! ## Reading -/

theorem ColumnType.ofName?_name (t : ColumnType) : ofName? t.name = some t := by
  cases t <;> rfl

theorem Cardinality.ofName?_name (c : Cardinality) : ofName? c.name = some c := by
  cases c <;> rfl

section

variable {v : Json}

theorem Column.ofJson?_of_reordered {c : Column} (h : Reordered c.toJson v) :
    Column.ofJson? v = some c := by
  have hnames : ["id", "name", "type", "isPrimaryKey", "isForeignKey", "isUnique",
    "isNullable"].Nodup := by decide
  obtain ⟨values, hfields, hvalues⟩ := fields?_of_reordered hnames rfl h
  rcases hvalues with _ | ⟨hid, _ | ⟨hname, _ | ⟨htype, _ | ⟨hkey, _ | ⟨hforeign, _ | ⟨hunique,
    _ | ⟨hnullable, _ | _⟩⟩⟩⟩⟩⟩⟩
  obtain rfl := hid.eq_text
  obtain rfl := hname.eq_text
  obtain rfl := htype.eq_text
  obtain rfl := hkey.eq_bool
  obtain rfl := hforeign.eq_bool
  obtain rfl := hunique.eq_bool
  obtain rfl := hnullable.eq_bool
  have htype : ColumnType.ofJson? (.text c.type.name) = some c.type := c.type.ofName?_name
  rw [Column.ofJson?, hfields]
  simp [Json.required, Json.text?, Json.bool?, htype]

theorem Table.ofJson?_of_reordered {t : Table} (h : Reordered t.toJson v) :
    Table.ofJson? v = some t := by
  have hnames : ["id", "name", "columns"].Nodup := by decide
  obtain ⟨values, hfields, hvalues⟩ := fields?_of_reordered hnames rfl h
  rcases hvalues with _ | ⟨hid, _ | ⟨hname, _ | ⟨hcolumns, _ | _⟩⟩⟩
  obtain rfl := hid.eq_text
  obtain rfl := hname.eq_text
  have hcolumns := list?_of_reordered Column.ofJson?_of_reordered hcolumns
  rw [Table.ofJson?, hfields]
  simp [Json.required, Json.text?, hcolumns]

theorem Relation.ofJson?_of_reordered {r : Relation} (h : Reordered r.toJson v) :
    Relation.ofJson? v = some r := by
  have hnames : ["id", "sourceTableId", "sourceColumnId", "targetTableId", "targetColumnId",
    "cardinality"].Nodup := by decide
  obtain ⟨values, hfields, hvalues⟩ := fields?_of_reordered hnames rfl h
  rcases hvalues with _ | ⟨hid, _ | ⟨hsource, _ | ⟨hsourceColumn, _ | ⟨htarget,
    _ | ⟨htargetColumn, _ | ⟨hcardinality, _ | _⟩⟩⟩⟩⟩⟩
  obtain rfl := hid.eq_text
  obtain rfl := hsource.eq_text
  obtain rfl := hsourceColumn.eq_text
  obtain rfl := htarget.eq_text
  obtain rfl := htargetColumn.eq_text
  obtain rfl := hcardinality.eq_text
  have hcardinality : Cardinality.ofJson? (.text r.cardinality.name) = some r.cardinality :=
    r.cardinality.ofName?_name
  rw [Relation.ofJson?, hfields]
  simp [Json.required, Json.text?, hcardinality]

/-- A schema is read from its JSON value, whatever the order of the members is. -/
theorem Schema.ofJson?_of_reordered {s : Schema} (h : Reordered s.toJson v) :
    Schema.ofJson? v = some { s with counter := 0 } := by
  have hnames : ["tables", "relations"].Nodup := by decide
  obtain ⟨values, hfields, hvalues⟩ := fields?_of_reordered hnames rfl h
  rcases hvalues with _ | ⟨htables, _ | ⟨hrelations, _ | _⟩⟩
  have htables := list?_of_reordered Table.ofJson?_of_reordered htables
  have hrelations := list?_of_reordered Relation.ofJson?_of_reordered hrelations
  rw [Schema.ofJson?, hfields]
  simp [Json.required, htables, hrelations]

end

/-! ## Writing -/

theorem written_ofFields {fields : List (String × Json)} (h : fields.Forall fun f => Written f.2) :
    Written (.ofFields fields) := by
  rw [List.forall_iff_forall_mem] at h
  refine .object (fun m hm => ?_) (fun m hm => ?_)
  · obtain ⟨f, -, rfl⟩ := List.mem_map.mp hm
    rfl
  · obtain ⟨f, hf, rfl⟩ := List.mem_map.mp hm
    exact h f hf

theorem written_list {encode : α → Json} (h : ∀ x, Written (encode x)) (xs : List α) :
    Written (.array (xs.map encode)) := by
  refine .array fun v hv => ?_
  obtain ⟨x, -, rfl⟩ := List.mem_map.mp hv
  exact h x

theorem Column.written_toJson (c : Column) : Written c.toJson :=
  written_ofFields ⟨.text _, .text _, .text _, .bool _, .bool _, .bool _, .bool _⟩

theorem Table.written_toJson (t : Table) : Written t.toJson :=
  written_ofFields ⟨.text _, .text _, written_list Column.written_toJson _⟩

theorem Relation.written_toJson (r : Relation) : Written r.toJson :=
  written_ofFields ⟨.text _, .text _, .text _, .text _, .text _, .text _⟩

theorem Schema.written_toJson (s : Schema) : Written s.toJson :=
  written_ofFields ⟨written_list Table.written_toJson _, written_list Relation.written_toJson _⟩

/-- A schema that is written as JSON text and read again has the same tables and relations. -/
theorem Schema.parse?_toJson (s : Schema) :
    Schema.parse? s.toJson.compact = some { s with counter := 0 } := by
  rw [Schema.parse?, Json.parse?_compact s.written_toJson]
  exact Schema.ofJson?_of_reordered (.refl _)

end Schemata
