/-
What a schema says by names: its tables and columns without ids and notes, and the endpoints that
names stand for.  Where no name is used twice, a change to the column that has a name is a change to
every column by its name, so such changes compose.
-/
import Schemata.Proofs.Schema.Consistency
import Schemata.Sql.Clause
import Schemata.Sql.Resolution

namespace Schemata

/-- A table without ids and notes. -/
structure TableSpec where
  name : String
  columns : List ColumnSpec
  deriving DecidableEq, Repr

def Column.spec (c : Column) : ColumnSpec :=
  ⟨c.name, c.type, c.isPrimaryKey, c.isUnique, c.isNullable⟩

/-- The column with everything but its id and its note changed. -/
def Column.withSpec (c : Column) (d : ColumnSpec) : Column :=
  ⟨c.id, d.name, d.type, d.isPrimaryKey, c.isForeignKey, d.isUnique, d.isNullable⟩

theorem Column.spec_withSpec (c : Column) (d : ColumnSpec) : (c.withSpec d).spec = d := rfl

theorem Column.withSpec_spec (c : Column) : c.withSpec c.spec = c := rfl

theorem Column.withSpec_withSpec (c : Column) (d d' : ColumnSpec) :
    (c.withSpec d).withSpec d' = c.withSpec d' := rfl

def Table.spec (t : Table) : TableSpec := ⟨t.name, t.columns.map Column.spec⟩

def Schema.specs (s : Schema) : List TableSpec := s.tables.map Table.spec

namespace TableSpec

/-- Some table of the name has a column of the name. -/
def Declare (ts : List TableSpec) (table column : String) : Prop :=
  ∃ t ∈ ts, t.name = table ∧ ∃ c ∈ t.columns, c.name = column

/-- No name is used twice for tables, or twice for columns of one table. -/
structure Distinct (ts : List TableSpec) : Prop where
  tables : (ts.map (·.name)).Nodup
  columns : ∀ t ∈ ts, (t.columns.map (·.name)).Nodup

/-- The names of the columns that make up the primary key of a table. -/
def primaryKey (t : TableSpec) : List String := (t.columns.filter (·.isPrimaryKey)).map (·.name)

/-- The table with every column changed. -/
def mapColumns (g : String → ColumnSpec → ColumnSpec) (t : TableSpec) : TableSpec :=
  ⟨t.name, t.columns.map (g t.name)⟩

/-- A change to columns that leaves their names alone. -/
def KeepsNames (g : String → ColumnSpec → ColumnSpec) : Prop := ∀ table c, (g table c).name = c.name

theorem map_name_mapColumns (g : String → ColumnSpec → ColumnSpec) (ts : List TableSpec) :
    (ts.map (mapColumns g)).map (·.name) = ts.map (·.name) := by
  simp [mapColumns, Function.comp_def]

theorem Distinct.mapColumns {g : String → ColumnSpec → ColumnSpec} (hg : KeepsNames g)
    {ts : List TableSpec} (h : Distinct ts) : Distinct (ts.map (mapColumns g)) := by
  have hname : ∀ table c, (g table c).name = c.name := hg
  refine ⟨by rw [map_name_mapColumns]; exact h.tables, fun t ht => ?_⟩
  obtain ⟨u, hu, rfl⟩ := List.mem_map.mp ht
  simpa [TableSpec.mapColumns, Function.comp_def, hname] using h.columns u hu

theorem declare_mapColumns_iff {g : String → ColumnSpec → ColumnSpec} (hg : KeepsNames g)
    {ts : List TableSpec} {table column : String} :
    Declare (ts.map (mapColumns g)) table column ↔ Declare ts table column := by
  have hname : ∀ table c, (g table c).name = c.name := hg
  simp [Declare, mapColumns, hname]

end TableSpec

namespace Schema

open TableSpec (KeepsNames)

/-- The endpoint is that of the column which the names stand for. -/
def Named (s : Schema) (table column : String) (e : Endpoint) : Prop :=
  ∃ t ∈ s.tables, t.name = table ∧ ∃ c ∈ t.columns, c.name = column ∧ e = ⟨t.id, c.id⟩

/-- The endpoint is that of the `j`-th column of the `i`-th table. -/
def At (s : Schema) (i j : Nat) (e : Endpoint) : Prop :=
  ∃ t c, s.tables[i]? = some t ∧ t.columns[j]? = some c ∧ e = ⟨t.id, c.id⟩

theorem At.hasEndpoint {s : Schema} {i j : Nat} {e : Endpoint} (h : s.At i j e) :
    s.HasEndpoint e := by
  obtain ⟨t, c, ht, hc, rfl⟩ := h
  exact ⟨t, List.mem_of_getElem? ht, rfl, c, List.mem_of_getElem? hc, rfl⟩

theorem names_nodup {s : Schema} (h : TableSpec.Distinct s.specs) :
    (s.tables.map (·.name)).Nodup := by
  have htables := h.tables
  rwa [specs, List.map_map] at htables

theorem columnNames_nodup {s : Schema} (h : TableSpec.Distinct s.specs) {t : Table}
    (ht : t ∈ s.tables) : (t.columns.map (·.name)).Nodup := by
  have hcolumns := h.columns t.spec (List.mem_map_of_mem ht)
  rwa [Table.spec, List.map_map] at hcolumns

theorem declare_specs_iff {s : Schema} {table column : String} :
    TableSpec.Declare s.specs table column ↔ ∃ e, s.Named table column e := by
  constructor
  · rintro ⟨t', ht', hname, c', hc', hcname⟩
    obtain ⟨t, ht, rfl⟩ := List.mem_map.mp ht'
    obtain ⟨c, hc, rfl⟩ := List.mem_map.mp hc'
    exact ⟨_, t, ht, hname, c, hc, hcname, rfl⟩
  · rintro ⟨e, t, ht, hname, c, hc, hcname, -⟩
    exact ⟨t.spec, List.mem_map_of_mem ht, hname, c.spec, List.mem_map_of_mem hc, hcname⟩

theorem Named.hasEndpoint {s : Schema} {table column : String} {e : Endpoint}
    (h : s.Named table column e) : s.HasEndpoint e := by
  obtain ⟨t, ht, -, c, hc, -, rfl⟩ := h
  exact ⟨t, ht, rfl, c, hc, rfl⟩

theorem HasEndpoint.named {s : Schema} {e : Endpoint} (h : s.HasEndpoint e) :
    ∃ table column, s.Named table column e := by
  obtain ⟨t, ht, hid, c, hc, hcid⟩ := h
  exact ⟨t.name, c.name, t, ht, rfl, c, hc, rfl, by rw [hid, hcid]⟩

/-- Names stand for one endpoint at most. -/
theorem Named.endpoint_unique {s : Schema} (h : TableSpec.Distinct s.specs)
    {table column : String} {e e' : Endpoint} (he : s.Named table column e)
    (he' : s.Named table column e') : e = e' := by
  obtain ⟨t, ht, hname, c, hc, hcname, rfl⟩ := he
  obtain ⟨t', ht', hname', c', hc', hcname', rfl⟩ := he'
  have htt : t = t' :=
    List.inj_on_of_nodup_map (names_nodup h) ht ht' (hname.trans hname'.symm)
  subst htt
  rw [List.inj_on_of_nodup_map (columnNames_nodup h ht) hc hc' (hcname.trans hcname'.symm)]

/-- An endpoint has one pair of names at most. -/
theorem Named.names_unique {s : Schema} (h : s.UniqueIds) {table column table' column' : String}
    {e : Endpoint} (he : s.Named table column e) (he' : s.Named table' column' e) :
    table = table' ∧ column = column' := by
  obtain ⟨t, ht, rfl, c, hc, rfl, rfl⟩ := he
  obtain ⟨t', ht', rfl, c', hc', rfl, heq⟩ := he'
  rw [Endpoint.mk.injEq] at heq
  have htt : t = t' := List.inj_on_of_nodup_map h.tables ht ht' heq.1
  subst htt
  rw [List.inj_on_of_nodup_map (h.columns t ht) hc hc' heq.2]
  exact ⟨rfl, rfl⟩

/-! ## Looking up names -/

theorem findTable_eq_ok {s : Schema} (h : TableSpec.Distinct s.specs) {name : String} {t : Table} :
    Sql.findTable s name = .ok t ↔ t ∈ s.tables ∧ t.name = name := by
  rw [← find?_eq_some_iff_mem (names_nodup h)]
  unfold Sql.findTable tableNamed?
  cases s.tables.find? (·.name == name) with
  | none => simp
  | some u => simp

theorem findColumn_eq_ok {s : Schema} (h : TableSpec.Distinct s.specs) {table column : String}
    {e : Endpoint} : Sql.findColumn s table column = .ok e ↔ s.Named table column e := by
  unfold Sql.findColumn
  constructor
  · intro hok
    obtain ⟨t, ht, hok⟩ := Sql.ok_of_bind hok
    obtain ⟨htmem, htname⟩ := (findTable_eq_ok h).mp ht
    unfold Table.columnNamed? at hok
    split at hok
    · next c hc =>
      cases hok
      obtain ⟨hcmem, hcname⟩ := (find?_eq_some_iff_mem (columnNames_nodup h htmem)).mp hc
      exact ⟨t, htmem, htname, c, hcmem, hcname, rfl⟩
    · cases hok
  · rintro ⟨t, ht, hname, c, hc, hcname, rfl⟩
    have hcolumn : t.columnNamed? column = some c :=
      (find?_eq_some_iff_mem (columnNames_nodup h ht)).mpr ⟨hc, hcname⟩
    rw [(findTable_eq_ok h).mpr ⟨ht, hname⟩]
    simp [bind, Except.bind, hcolumn]

/-! ## Changes by name -/

/-- The schema with every column changed, with regard to the name of its table. -/
def mapSpecs (s : Schema) (g : String → ColumnSpec → ColumnSpec) : Schema :=
  { s with
    tables := s.tables.map fun t =>
      { t with columns := t.columns.map fun c => c.withSpec (g t.name c.spec) } }

theorem mapSpecs_mapSpecs (s : Schema) (g h : String → ColumnSpec → ColumnSpec) :
    (s.mapSpecs h).mapSpecs g = s.mapSpecs fun table c => g table (h table c) := by
  simp [mapSpecs, Function.comp_def, Column.withSpec_withSpec, Column.spec_withSpec]

theorem mapSpecs_self (s : Schema) : s.mapSpecs (fun _ c => c) = s := by
  simp [mapSpecs, Column.withSpec_spec]

theorem specs_mapSpecs (s : Schema) (g : String → ColumnSpec → ColumnSpec) :
    (s.mapSpecs g).specs = s.specs.map (TableSpec.mapColumns g) := by
  simp [mapSpecs, specs, Table.spec, TableSpec.mapColumns, Function.comp_def,
    Column.spec_withSpec]

theorem UniqueIds.mapSpecs {s : Schema} (h : s.UniqueIds) (g : String → ColumnSpec → ColumnSpec) :
    (s.mapSpecs g).UniqueIds := by
  refine ⟨by simpa [Schema.mapSpecs, Function.comp_def] using h.tables, fun t ht => ?_⟩
  obtain ⟨u, hu, rfl⟩ := List.mem_map.mp ht
  simpa [Function.comp_def, Column.withSpec] using h.columns u hu

theorem named_mapSpecs_iff {s : Schema} {g : String → ColumnSpec → ColumnSpec} (hg : KeepsNames g)
    {table column : String} {e : Endpoint} :
    (s.mapSpecs g).Named table column e ↔ s.Named table column e := by
  have hname : ∀ table c, (g table c).name = c.name := hg
  simp [Named, Schema.mapSpecs, Column.withSpec, hname, Column.spec]

theorem modifyColumn_eq_mapSpecs {s : Schema} (hids : s.UniqueIds)
    (hnames : TableSpec.Distinct s.specs) {table column : String} {e : Endpoint}
    (he : s.Named table column e) {f : Column → Column} {g : String → ColumnSpec → ColumnSpec}
    (hon : ∀ c, c.name = column → f c = c.withSpec (g table c.spec))
    (hoff : ∀ table' c, ¬(table' = table ∧ c.name = column) → g table' c = c) :
    s.modifyColumn e f = s.mapSpecs g := by
  rw [modifyColumn_eq_mapColumns hids, mapColumns, mapSpecs]
  congr 1
  refine List.map_congr_left fun t ht => ?_
  refine congrArg (Table.mk t.id t.name) (List.map_congr_left fun c hc => ?_)
  have hnamed : s.Named t.name c.name ⟨t.id, c.id⟩ := ⟨t, ht, rfl, c, hc, rfl, rfl⟩
  by_cases hend : (⟨t.id, c.id⟩ : Endpoint) = e
  · obtain ⟨htable, hcolumn⟩ := (hend ▸ hnamed).names_unique hids he
    rw [if_pos hend, htable, hon c hcolumn]
  · rw [if_neg hend, hoff, Column.withSpec_spec]
    rintro ⟨htable, hcolumn⟩
    have hcolumn' : c.name = column := hcolumn
    rw [htable, hcolumn'] at hnamed
    exact hend (hnamed.endpoint_unique hnames he)

end Schema
end Schemata
