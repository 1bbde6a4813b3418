/-
Writing a schema as a script and reading the script.  The names in a consistent schema determine its
links, and its script is that of its tables and links; so what comes back has the same tables and
relations by names, with ids numbered in order.  An import is numbered in order already.
-/
import Schemata.Proofs.Sql.ImportedNames
import Schemata.Proofs.Sql.ScriptSchema

namespace Schemata

/-- The schema in which the columns of primary keys are not unique on their own account. -/
def Schema.exported (s : Schema) : Schema :=
  { s with
    tables := s.tables.map fun t =>
      { t with columns := t.columns.map fun c =>
          { c with isUnique := c.isUnique && !c.isPrimaryKey } } }

theorem Schema.exported_eq_mapSpecs (s : Schema) :
    s.exported = s.mapSpecs fun _ => ColumnSpec.exported := rfl

theorem TableSpec.Distinct.exported {ts : List TableSpec} (h : Distinct ts) :
    Distinct (exported ts) := h.mapColumns keepsNames_exported

namespace Sql

/-! ## Links -/

/-- The relations of a consistent schema are those of links. -/
theorem exists_linkedBy {s : Schema} (h : s.Consistent) : ∃ ls, LinkedBy s ls := by
  have hlinks : ∃ ls, List.Forall₂ (fun r l => Link.Ends s l r.source r.target) s.relations ls := by
    refine exists_forall₂_iff.mpr fun r hr => ?_
    obtain ⟨hsource, htarget⟩ := h.linked.endpoints r hr
    obtain ⟨table, target, hsource⟩ := hsource.named
    obtain ⟨holder, column, htarget⟩ := htarget.named
    exact ⟨⟨holder, column, table, target⟩, hsource, htarget⟩
  obtain ⟨ls, hls⟩ := hlinks
  exact ⟨ls, hls.flip⟩

theorem declared_of_linkedBy {s : Schema} {ls : List Link} (h : LinkedBy s ls) :
    ∀ l ∈ ls, l.Declared s.specs := by
  intro l hl
  obtain ⟨r, -, hends⟩ := exists_right_of_forall₂ h l hl
  exact ⟨Schema.declare_specs_iff.mpr ⟨_, hends.2⟩, Schema.declare_specs_iff.mpr ⟨_, hends.1⟩⟩

theorem declared_exported_iff {ts : List TableSpec} {l : Link} :
    l.Declared (TableSpec.exported ts) ↔ l.Declared ts :=
  and_congr (TableSpec.declare_mapColumns_iff TableSpec.keepsNames_exported)
    (TableSpec.declare_mapColumns_iff TableSpec.keepsNames_exported)

/-- If no relation is inferred to be one to one, links are joined as before the export. -/
theorem joins_exported_iff {ts : List TableSpec} {l : Link} {j : Join} :
    l.Joins false (TableSpec.exported ts) j ↔ l.Joins false ts j :=
  and_congr_left' (and_congr
    (Schema.named_numbered_mapColumns TableSpec.keepsNames_exported)
    (Schema.named_numbered_mapColumns TableSpec.keepsNames_exported))

/-- A schema that has a script comes back from it with the tables and links that it had. -/
theorem exists_schemaOf_script {s : Schema} (hids : s.UniqueIds) {ls : List Link}
    (hlinks : LinkedBy s ls) {ddl : String} (hddl : script s = .ok ddl) (options : ImportOptions) :
    ∃ js, List.Forall₂ (Link.Joins options.inferOneToOne (TableSpec.exported s.specs)) ls js ∧
      schemaOf options ddl = .ok (Schema.numbered (TableSpec.exported s.specs) js) ∧
      script (Schema.numbered (TableSpec.exported s.specs) js) = .ok ddl := by
  obtain ⟨hnames, rfl⟩ := (script_eq_ok_iff hids hlinks).mp hddl
  have hdeclared : ∀ l ∈ ls, l.Declared (TableSpec.exported s.specs) := fun l hl =>
    declared_exported_iff.mpr (declared_of_linkedBy hlinks l hl)
  obtain ⟨js, hjs⟩ := exists_joins_iff.mpr hdeclared
  refine ⟨js, hjs, ?_, ?_⟩
  · rw [schemaOf_scriptText hnames.exported, TableSpec.exported_exported]
    exact ⟨js, hjs, rfl⟩
  · rw [script_eq_ok_iff (Schema.uniqueIds_numbered _ js) (linkedBy_numbered hjs),
      Schema.specs_numbered, TableSpec.exported_exported]
    exact ⟨hnames.exported, rfl⟩

/-! ## Copies -/

/-- What a column comes back as. -/
structure ColumnCopy (c d : Column) : Prop where
  name : d.name = c.name
  type : d.type = c.type
  isPrimaryKey : d.isPrimaryKey = c.isPrimaryKey
  isForeignKey : d.isForeignKey = c.isForeignKey
  isUnique : d.isUnique = (c.isUnique && !c.isPrimaryKey)
  isNullable : d.isNullable = c.isNullable

structure TableCopy (t u : Table) : Prop where
  name : u.name = t.name
  columns : List.Forall₂ ColumnCopy t.columns u.columns

structure RelationCopy (s p : Schema) (r q : Relation) : Prop where
  source : ∃ i j, s.At i j r.source ∧ p.At i j q.source
  target : ∃ i j, s.At i j r.target ∧ p.At i j q.target
  cardinality : q.cardinality = .oneToMany

/-- What a schema comes back as: everything in the same order, and ends in the same places. -/
structure Copy (s p : Schema) : Prop where
  tables : List.Forall₂ TableCopy s.tables p.tables
  relations : List.Forall₂ (RelationCopy s p) s.relations p.relations

section

variable {s p : Schema}

theorem forall₂_tables (hspecs : p.specs = TableSpec.exported s.specs) :
    List.Forall₂ (fun t u => t ∈ s.tables ∧ u ∈ p.tables ∧
      u.spec = t.spec.mapColumns fun _ => ColumnSpec.exported) s.tables p.tables := by
  rw [TableSpec.exported, Schema.specs, Schema.specs, List.map_map] at hspecs
  exact forall₂_of_map_eq hspecs

theorem forall₂_columns {t u : Table}
    (hspec : u.spec = t.spec.mapColumns fun _ => ColumnSpec.exported) :
    List.Forall₂ (fun c d => c ∈ t.columns ∧ d ∈ u.columns ∧ d.spec = c.spec.exported)
      t.columns u.columns := by
  have hcolumns : u.columns.map Column.spec = (t.columns.map Column.spec).map ColumnSpec.exported :=
    congrArg TableSpec.columns hspec
  rw [List.map_map] at hcolumns
  exact forall₂_of_map_eq hcolumns

/-- Endpoints of the same names are in the same place. -/
theorem exists_at (hspecs : p.specs = TableSpec.exported s.specs)
    (hnames : TableSpec.Distinct p.specs) {table column : String} {e e' : Endpoint}
    (he : s.Named table column e) (he' : p.Named table column e') :
    ∃ i j, s.At i j e ∧ p.At i j e' := by
  obtain ⟨t, ht, hname, c, hc, hcname, rfl⟩ := he
  obtain ⟨i, ht⟩ := List.mem_iff_getElem?.mp ht
  obtain ⟨j, hc⟩ := List.mem_iff_getElem?.mp hc
  obtain ⟨u, hu, -, humem, hspec⟩ :=
    exists_getElem?_of_forall₂ (forall₂_tables hspecs) ht
  obtain ⟨d, hd, -, hdmem, hdspec⟩ :=
    exists_getElem?_of_forall₂ (forall₂_columns hspec) hc
  have huname : u.name = table := (congrArg TableSpec.name hspec).trans hname
  have hdname : d.name = column := (congrArg ColumnSpec.name hdspec).trans hcname
  have hnamed : p.Named table column ⟨u.id, d.id⟩ := ⟨u, humem, huname, d, hdmem, hdname, rfl⟩
  rw [he'.endpoint_unique hnames hnamed]
  exact ⟨i, j, ⟨t, c, ht, hc, rfl⟩, u, d, hu, hd, rfl⟩

theorem columnCopy_of_spec {c d : Column} (hspec : d.spec = c.spec.exported)
    (hforeign : d.isForeignKey = c.isForeignKey) : ColumnCopy c d := by
  have heq : ∀ {β : Type} (f : ColumnSpec → β), f d.spec = f c.spec.exported := fun f =>
    congrArg f hspec
  exact ⟨heq ColumnSpec.name, heq ColumnSpec.type, heq ColumnSpec.isPrimaryKey, hforeign,
    heq ColumnSpec.isUnique, heq ColumnSpec.isNullable⟩

/-- Consistent schemas with the same links are copies if the tables differ by the export only. -/
theorem copy_of_links (hs : s.Consistent) (hp : p.Consistent)
    (hnames : TableSpec.Distinct s.specs) (hspecs : p.specs = TableSpec.exported s.specs)
    {ls : List Link} (hslinks : LinkedBy s ls) (hplinks : LinkedBy p ls)
    (hcardinality : ∀ q ∈ p.relations, q.cardinality = .oneToMany) : Copy s p := by
  have hpnames : TableSpec.Distinct p.specs := by
    rw [hspecs]
    exact hnames.exported
  constructor
  · refine (forall₂_tables hspecs).imp ?_
    rintro t u ⟨ht, hu, hspec⟩
    have hname : u.name = t.name := congrArg TableSpec.name hspec
    refine ⟨hname, (forall₂_columns hspec).imp ?_⟩
    rintro c d ⟨hc, hd, hcspec⟩
    have hcname : d.name = c.name := congrArg ColumnSpec.name hcspec
    refine columnCopy_of_spec hcspec ?_
    rw [hp.truthful u hu d hd, hs.truthful t ht c hc, Bool.eq_iff_iff,
      isForeignKey_iff_link hp.linked.toUniqueIds hpnames hplinks hu hd,
      isForeignKey_iff_link hs.linked.toUniqueIds hnames hslinks ht hc, hname, hcname]
  · have hmany := (List.forall₂_and_left _ _).mpr ⟨hcardinality, hplinks.flip⟩
    refine forall₂_of_common hslinks hmany.flip ?_
    rintro l r q hr ⟨hq, hends⟩
    exact ⟨exists_at hspecs hpnames hr.1 hends.1, exists_at hspecs hpnames hr.2 hends.2, hq⟩

end

/-! ## Main results -/

theorem cardinality_of_joins {ts : List TableSpec} {ls : List Link} {js : List Join}
    (h : List.Forall₂ (Link.Joins false ts) ls js) :
    ∀ q ∈ (Schema.numbered ts js).relations, q.cardinality = .oneToMany := by
  intro q hq
  obtain ⟨k, j, -, -, hj, rfl⟩ := mem_numberFrom hq
  obtain ⟨l, -, -, hmany⟩ := exists_left_of_forall₂ h j hj
  exact hmany

/-- A consistent schema that has a script comes back from it, whatever its names are. -/
theorem schemaOf_script {s : Schema} (hs : s.violation? = none) {ddl : String}
    (hddl : script s = .ok ddl) {options : ImportOptions}
    (hmany : options.inferOneToOne = false) :
    ∃ p, schemaOf options ddl = .ok p ∧ Copy s p ∧ p.violation? = none ∧ script p = .ok ddl := by
  have hconsistent := Schema.violation?_eq_none.mp hs
  obtain ⟨ls, hlinks⟩ := exists_linkedBy hconsistent
  have hnames := ((script_eq_ok_iff hconsistent.linked.toUniqueIds hlinks).mp hddl).1
  obtain ⟨js, hjs, hread, hscript⟩ :=
    exists_schemaOf_script hconsistent.linked.toUniqueIds hlinks hddl options
  have hp := consistent_of_joins hjs
  have hplinks := linkedBy_numbered hjs
  rw [hmany] at hjs
  refine ⟨_, hread, ?_, Schema.violation?_eq_none.mpr hp, hscript⟩
  exact copy_of_links hconsistent hp hnames (Schema.specs_numbered _ js) hlinks hplinks
    (cardinality_of_joins hjs)

/-- The names are a keyword, nothing at all, and texts with marks, and a table refers to itself. -/
def hardNames : Schema :=
  ⟨[⟨⟨"t"⟩, "a \"b\";", [⟨⟨"c"⟩, "", .integer, true, true, true, false⟩,
      ⟨⟨"d"⟩, "primary\nkey", .text, false, false, true, true⟩]⟩,
    ⟨⟨"u"⟩, "", [⟨⟨"c"⟩, "select", .uuid, false, true, false, true⟩]⟩],
   [⟨⟨"r"⟩, ⟨⟨"t"⟩, ⟨"c"⟩⟩, ⟨⟨"u"⟩, ⟨"c"⟩⟩, .manyToMany⟩,
    ⟨⟨"s"⟩, ⟨⟨"t"⟩, ⟨"d"⟩⟩, ⟨⟨"t"⟩, ⟨"c"⟩⟩, .oneToOne⟩], 0⟩

def hardScript : String :=
  "CREATE TABLE \"a \"\"b\"\";\" (\n    \"\" INTEGER NOT NULL,\n" ++
    "    \"primary\nkey\" TEXT UNIQUE,\n    PRIMARY KEY (\"\")\n);\n" ++
    "\nCREATE TABLE \"\" (\n    \"select\" UUID\n);\n" ++
    "\nALTER TABLE \"\" ADD CONSTRAINT \"fk__select_1\" FOREIGN KEY (\"select\")" ++
    " REFERENCES \"a \"\"b\"\";\" (\"\");\n" ++
    "\nALTER TABLE \"a \"\"b\"\";\" ADD CONSTRAINT \"fk_a \"\"b\"\";__2\" FOREIGN KEY (\"\")" ++
    " REFERENCES \"a \"\"b\"\";\" (\"primary\nkey\");\n"

theorem schemaOf_hardScript :
    (hardNames.violation? = none ∧ script hardNames = .ok hardScript) ∧
      ∃ p, schemaOf {} hardScript = .ok p ∧ Copy hardNames p ∧ p.violation? = none ∧
        script p = .ok hardScript := by
  have hconsistent : hardNames.violation? = none := by decide
  have hscript : script hardNames = .ok hardScript := by decide +kernel
  exact ⟨⟨hconsistent, hscript⟩, schemaOf_script hconsistent hscript rfl⟩

/-- An import has a script, and reading the script changes nothing but needless marks. -/
theorem schemaOf_script_schemaOf {options : ImportOptions} {text : String} {s : Schema}
    (h : schemaOf options text = .ok s) :
    ∃ ddl p, script s = .ok ddl ∧ schemaOf options ddl = .ok p ∧ script p = .ok ddl ∧
      (options.inferOneToOne = false → p = s.exported) := by
  obtain ⟨ts, ls, js, hnames, hjs, rfl⟩ := schemaOf_eq_ok h
  have hids := Schema.uniqueIds_numbered ts js
  have hlinks := linkedBy_numbered hjs
  have hspecs := Schema.specs_numbered ts js
  have hddl : script (Schema.numbered ts js) = .ok (scriptText (TableSpec.exported ts) ls) := by
    rw [script_eq_ok_iff hids hlinks, hspecs]
    exact ⟨hnames, rfl⟩
  obtain ⟨ks, hks, hread, hscript⟩ := exists_schemaOf_script hids hlinks hddl options
  rw [hspecs] at hks hread hscript
  refine ⟨_, _, hddl, hread, hscript, fun hmany => ?_⟩
  rw [hmany] at hjs hks
  have hks' := hks.imp fun _ _ => joins_exported_iff.mp
  rw [forall₂_joins_unique hnames hks' hjs, Schema.exported_eq_mapSpecs, Schema.mapSpecs_numbered]
  rfl

/-- The keys are stated in three places, and one table refers to another before it is there. -/
def scattered : String :=
  "create table pet (owner int references human, tag int); alter table pet add unique (tag);" ++
    "create table human (id int primary key unique)"

def scatteredSchema : Schema :=
  ⟨[⟨⟨"t1"⟩, "pet", [⟨⟨"c2"⟩, "owner", .integer, false, true, false, true⟩,
      ⟨⟨"c3"⟩, "tag", .integer, false, false, true, true⟩]⟩,
    ⟨⟨"t4"⟩, "human", [⟨⟨"c5"⟩, "id", .integer, true, false, true, true⟩]⟩],
   [⟨⟨"r6"⟩, ⟨⟨"t4"⟩, ⟨"c5"⟩⟩, ⟨⟨"t1"⟩, ⟨"c2"⟩⟩, .oneToMany⟩], 6⟩

theorem schemaOf_scattered :
    schemaOf {} scattered = .ok scatteredSchema ∧
      ∃ ddl p, script scatteredSchema = .ok ddl ∧ schemaOf {} ddl = .ok p ∧ script p = .ok ddl ∧
        (ImportOptions.inferOneToOne {} = false → p = scatteredSchema.exported) := by
  have hread : schemaOf {} scattered = .ok scatteredSchema := by decide +kernel
  exact ⟨hread, schemaOf_script_schemaOf hread⟩

end Sql
end Schemata
