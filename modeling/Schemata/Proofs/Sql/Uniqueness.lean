/-
Which columns stay unique alone when a schema is written as a script and the script is read.  A
column of a primary key is written without its own mark.  That changes nothing if it is the whole
key; but if it shares the key with other columns, nothing in the script says that it is unique, and
a relation that it holds is not inferred to be one to one any more.
-/
import Schemata.Proofs.Sql.RoundTrip

namespace Schemata
namespace Sql

/-- Whether the column is one of several columns that make up the primary key of their table. -/
def sharesKey (s : Schema) (e : Endpoint) : Bool :=
  match s.table? e.table with
  | none => false
  | some t =>
    match t.column? e.column with
    | none => false
    | some c => c.isPrimaryKey && t.primaryKey.length ≠ 1

theorem sharesKey_of_mem {s : Schema} (hids : s.UniqueIds) {t : Table} {c : Column}
    (ht : t ∈ s.tables) (hc : c ∈ t.columns) :
    sharesKey s ⟨t.id, c.id⟩ = (c.isPrimaryKey && decide (t.primaryKey.length ≠ 1)) := by
  have htable : s.table? t.id = some t := (find?_eq_some_iff_mem hids.tables).mpr ⟨ht, rfl⟩
  have hcolumn : t.column? c.id = some c :=
    (find?_eq_some_iff_mem (hids.columns t ht)).mpr ⟨hc, rfl⟩
  simp only [sharesKey, htable, hcolumn]

/-- Only the columns that share a key can lose that they are unique alone, and all of them do. -/
def KeepsUniqueness (s p : Schema) : Prop :=
  List.Forall₂ (fun t u => List.Forall₂ (fun c d =>
      isUniqueAlone p ⟨u.id, d.id⟩ =
        (isUniqueAlone s ⟨t.id, c.id⟩ && !sharesKey s ⟨t.id, c.id⟩))
    t.columns u.columns) s.tables p.tables

/-- Only the relations that are held by a column that shares a key can change, and each of them is
one to many. -/
def KeepsCardinalities (s p : Schema) : Prop :=
  List.Forall₂ (fun r q =>
      q.cardinality = if sharesKey s r.target then .oneToMany else r.cardinality)
    s.relations p.relations

section

variable {s p : Schema}

/-- The export changes neither names nor keys. -/
theorem length_primaryKey_exported {t u : Table}
    (hspec : u.spec = t.spec.mapColumns fun _ => ColumnSpec.exported) :
    u.primaryKey.length = t.primaryKey.length := by
  have hkeys : u.spec.primaryKey = t.spec.primaryKey := by
    rw [hspec]
    simp [TableSpec.primaryKey, TableSpec.mapColumns, ColumnSpec.exported, List.filter_map,
      Function.comp_def]
  have hlength := congrArg List.length hkeys
  rwa [primaryKey_spec, primaryKey_spec, List.length_map, List.length_map] at hlength

theorem isUniqueAlone_exported (hs : s.UniqueIds) (hp : p.UniqueIds) {t u : Table} {c d : Column}
    (ht : t ∈ s.tables) (hu : u ∈ p.tables)
    (hspec : u.spec = t.spec.mapColumns fun _ => ColumnSpec.exported) (hc : c ∈ t.columns)
    (hd : d ∈ u.columns) (hcolumn : d.spec = c.spec.exported) :
    isUniqueAlone p ⟨u.id, d.id⟩ =
      (isUniqueAlone s ⟨t.id, c.id⟩ && !sharesKey s ⟨t.id, c.id⟩) := by
  have hunique : d.isUnique = (c.isUnique && !c.isPrimaryKey) :=
    congrArg ColumnSpec.isUnique hcolumn
  have hkey : d.isPrimaryKey = c.isPrimaryKey := congrArg ColumnSpec.isPrimaryKey hcolumn
  rw [isUniqueAlone_of_mem hp hu hd, isUniqueAlone_of_mem hs ht hc, sharesKey_of_mem hs ht hc,
    hunique, hkey, length_primaryKey_exported hspec, decide_not]
  cases c.isPrimaryKey with
  | false => simp
  | true => cases c.isUnique <;> simp

theorem keepsUniqueness_of_specs (hs : s.UniqueIds) (hp : p.UniqueIds)
    (hspecs : p.specs = TableSpec.exported s.specs) : KeepsUniqueness s p := by
  refine (forall₂_tables hspecs).imp ?_
  rintro t u ⟨ht, hu, hspec⟩
  refine (forall₂_columns hspec).imp ?_
  rintro c d ⟨hc, hd, hcolumn⟩
  exact isUniqueAlone_exported hs hp ht hu hspec hc hd hcolumn

/-- Columns that have the same names are in the same place. -/
theorem isUniqueAlone_named (hs : s.UniqueIds) (hp : p.UniqueIds)
    (hnames : TableSpec.Distinct p.specs) (hspecs : p.specs = TableSpec.exported s.specs)
    {table column : String} {e e' : Endpoint} (he : s.Named table column e)
    (he' : p.Named table column e') :
    isUniqueAlone p e' = (isUniqueAlone s e && !sharesKey s e) := by
  obtain ⟨i, j, ⟨t, c, ht, hc, rfl⟩, u, d, hu, hd, rfl⟩ := exists_at hspecs hnames he he'
  obtain ⟨u', hu', htmem, humem, hspec⟩ := exists_getElem?_of_forall₂ (forall₂_tables hspecs) ht
  cases hu.symm.trans hu'
  obtain ⟨d', hd', hcmem, hdmem, hcolumn⟩ := exists_getElem?_of_forall₂ (forall₂_columns hspec) hc
  cases hd.symm.trans hd'
  exact isUniqueAlone_exported hs hp htmem humem hspec hcmem hdmem hcolumn

end

/-! ## Cardinalities -/

/-- The relations of a schema that is numbered in order are inferred from their holders. -/
theorem linkedBy_inferred {ts : List TableSpec} (hnames : TableSpec.Distinct ts)
    {inferOneToOne : Bool} {ls : List Link} {js : List Join}
    (h : List.Forall₂ (Link.Joins inferOneToOne ts) ls js) :
    List.Forall₂ (fun l r => l.Ends (Schema.numbered ts js) r.source r.target ∧
        r.cardinality = inferredCardinality inferOneToOne (Schema.numbered ts js) r.target)
      ls (Schema.numbered ts js).relations := by
  have hspecs := Schema.specs_numbered ts js
  refine forall₂_numberFrom (f := Join.numbered) (fun k l j hj => ?_) h _
  have hends : l.Ends (Schema.numbered ts js) j.source j.target := ends_numbered_iff.mpr hj.1
  refine ⟨hends, ?_⟩
  show j.cardinality = inferredCardinality inferOneToOne _ j.target
  rw [inferredCardinality_eq (Schema.uniqueIds_numbered ts js) (by rwa [hspecs]) hends.2, hspecs]
  exact hj.2

theorem inferredCardinality_and (inferOneToOne shares : Bool) {s p : Schema} {e e' : Endpoint}
    (h : isUniqueAlone p e' = (isUniqueAlone s e && !shares)) :
    inferredCardinality inferOneToOne p e' =
      if shares then .oneToMany else inferredCardinality inferOneToOne s e := by
  rw [inferredCardinality, inferredCardinality, h]
  cases shares <;> simp

/-- The holder of a relation is the same column as before, so only its uniqueness matters. -/
theorem keepsCardinalities_of_joins {ts : List TableSpec} (hnames : TableSpec.Distinct ts)
    {inferOneToOne : Bool} {ls : List Link} {js ks : List Join}
    (hjs : List.Forall₂ (Link.Joins inferOneToOne ts) ls js)
    (hks : List.Forall₂ (Link.Joins inferOneToOne (TableSpec.exported ts)) ls ks) :
    KeepsCardinalities (Schema.numbered ts js) (Schema.numbered (TableSpec.exported ts) ks) := by
  have hspecs : (Schema.numbered (TableSpec.exported ts) ks).specs =
      TableSpec.exported (Schema.numbered ts js).specs := by
    rw [Schema.specs_numbered, Schema.specs_numbered]
  have hnames' : TableSpec.Distinct (Schema.numbered (TableSpec.exported ts) ks).specs := by
    rw [Schema.specs_numbered]
    exact hnames.exported
  refine forall₂_of_common (linkedBy_inferred hnames hjs) (linkedBy_inferred hnames.exported hks) ?_
  rintro l r q ⟨hr, hcardinality⟩ ⟨hq, hcardinality'⟩
  rw [hcardinality, hcardinality']
  exact inferredCardinality_and inferOneToOne _ (isUniqueAlone_named (Schema.uniqueIds_numbered ..)
    (Schema.uniqueIds_numbered ..) hnames' hspecs hr.2 hq.2)

/-! ## Main result -/

/-- Whatever is exported, exactly the columns that share a key with others do not come back as
unique alone; and if it was imported with the same options, then only the relations that such a
column holds can come back with another cardinality. -/
theorem script_uniqueness (options : ImportOptions) :
    (∀ s ddl, s.violation? = none → script s = .ok ddl →
      ∃ p, schemaOf options ddl = .ok p ∧ KeepsUniqueness s p) ∧
    ∀ text s, schemaOf options text = .ok s →
      ∃ ddl p, script s = .ok ddl ∧ schemaOf options ddl = .ok p ∧ KeepsUniqueness s p ∧
        KeepsCardinalities s p := by
  constructor
  · intro s ddl hs hddl
    have hconsistent := Schema.violation?_eq_none.mp hs
    have hids := hconsistent.linked.toUniqueIds
    obtain ⟨ls, hlinks⟩ := exists_linkedBy hconsistent
    obtain ⟨js, -, hread, -⟩ := exists_schemaOf_script hids hlinks hddl options
    exact ⟨_, hread, keepsUniqueness_of_specs hids (Schema.uniqueIds_numbered _ js)
      (Schema.specs_numbered _ js)⟩
  · intro text s h
    obtain ⟨ts, ls, js, hnames, hjs, rfl⟩ := schemaOf_eq_ok h
    have hids := Schema.uniqueIds_numbered ts js
    have hspecs := Schema.specs_numbered ts js
    have hlinks := linkedBy_numbered hjs
    have hddl : script (Schema.numbered ts js) = .ok (scriptText (TableSpec.exported ts) ls) := by
      rw [script_eq_ok_iff hids hlinks, hspecs]
      exact ⟨hnames, rfl⟩
    obtain ⟨ks, hks, hread, -⟩ := exists_schemaOf_script hids hlinks hddl options
    rw [hspecs] at hks hread
    refine ⟨_, _, hddl, hread, ?_, keepsCardinalities_of_joins hnames hjs hks⟩
    refine keepsUniqueness_of_specs hids (Schema.uniqueIds_numbered _ ks) ?_
    rw [Schema.specs_numbered, hspecs]

/-! ## A column that is unique and shares a key -/

def sharedKey : String :=
  "CREATE TABLE a (id INT PRIMARY KEY); " ++
    "CREATE TABLE b (x INT UNIQUE REFERENCES a, y INT, PRIMARY KEY (x, y))"

def sharedKeySchema (isUnique : Bool) (cardinality : Cardinality) : Schema :=
  ⟨[⟨⟨"t1"⟩, "a", [⟨⟨"c2"⟩, "id", .integer, true, false, false, true⟩]⟩,
    ⟨⟨"t3"⟩, "b", [⟨⟨"c4"⟩, "x", .integer, true, true, isUnique, true⟩,
      ⟨⟨"c5"⟩, "y", .integer, true, false, false, true⟩]⟩],
   [⟨⟨"r6"⟩, ⟨⟨"t1"⟩, ⟨"c2"⟩⟩, ⟨⟨"t3"⟩, ⟨"c4"⟩⟩, cardinality⟩], 6⟩

def sharedKeyScript : String :=
  "CREATE TABLE \"a\" (\n    \"id\" INTEGER,\n    PRIMARY KEY (\"id\")\n);\n" ++
    "\nCREATE TABLE \"b\" (\n    \"x\" INTEGER,\n    \"y\" INTEGER,\n" ++
    "    PRIMARY KEY (\"x\", \"y\")\n);\n" ++
    "\nALTER TABLE \"b\" ADD CONSTRAINT \"fk_b_x_1\" FOREIGN KEY (\"x\")" ++
    " REFERENCES \"a\" (\"id\");\n"

theorem schemaOf_sharedKey_eq :
    schemaOf { inferOneToOne := true } sharedKey = .ok (sharedKeySchema true .oneToOne) := by
  decide +kernel

theorem violation?_sharedKeySchema : (sharedKeySchema true .oneToOne).violation? = none := by
  decide

theorem script_sharedKeySchema :
    script (sharedKeySchema true .oneToOne) = .ok sharedKeyScript := by
  decide +kernel

theorem script_uniqueness_sharedKey :
    (sharedKeySchema true .oneToOne).violation? = none ∧
      script (sharedKeySchema true .oneToOne) = .ok sharedKeyScript ∧
      schemaOf { inferOneToOne := true } sharedKey = .ok (sharedKeySchema true .oneToOne) ∧
      (∃ p, schemaOf { inferOneToOne := true } sharedKeyScript = .ok p ∧
        KeepsUniqueness (sharedKeySchema true .oneToOne) p) ∧
      ∃ ddl p, script (sharedKeySchema true .oneToOne) = .ok ddl ∧
        schemaOf { inferOneToOne := true } ddl = .ok p ∧
        KeepsUniqueness (sharedKeySchema true .oneToOne) p ∧
        KeepsCardinalities (sharedKeySchema true .oneToOne) p := by
  have h := script_uniqueness { inferOneToOne := true }
  exact ⟨violation?_sharedKeySchema, script_sharedKeySchema, schemaOf_sharedKey_eq,
    h.1 _ _ violation?_sharedKeySchema script_sharedKeySchema, h.2 _ _ schemaOf_sharedKey_eq⟩

/-- The mark of the column is lost, and the relation is inferred to be one to many. -/
theorem schemaOf_sharedKey :
    schemaOf { inferOneToOne := true } sharedKey = .ok (sharedKeySchema true .oneToOne) ∧
      (sharedKeySchema true .oneToOne).violation? = none ∧
      script (sharedKeySchema true .oneToOne) = .ok sharedKeyScript ∧
      schemaOf { inferOneToOne := true } sharedKeyScript =
        .ok (sharedKeySchema false .oneToMany) ∧
      isUniqueAlone (sharedKeySchema true .oneToOne) ⟨⟨"t3"⟩, ⟨"c4"⟩⟩ = true ∧
      isUniqueAlone (sharedKeySchema false .oneToMany) ⟨⟨"t3"⟩, ⟨"c4"⟩⟩ = false := by
  refine ⟨schemaOf_sharedKey_eq, violation?_sharedKeySchema, script_sharedKeySchema, ?_, rfl, rfl⟩
  decide +kernel

end Sql
end Schemata
