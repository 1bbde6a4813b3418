/-
When a schema has a script, and what the script tells of the schema.  The ends of relations are
looked up by ids, but in a consistent schema every end is found; so only names that are used twice
stand in the way.  What is written is names again, and these are the same wherever the ends are at
the same places.
-/
import Schemata.Proofs.Sql.RoundTrip

namespace Schemata
namespace Sql

variable {s u : Schema}

/-! ## Names that are used twice -/

/-- The error names something that is used twice.  That an end of a relation is missing, or that a
schema is inconsistent, says nothing of the kind. -/
def ScriptError.NamesTwice (s : Schema) : ScriptError → Prop
  | .duplicateTableName name => 2 ≤ (s.tables.map (·.name)).count name
  | .duplicateColumnName table column =>
    ∃ t ∈ s.tables, t.name = table ∧ 2 ≤ (t.columns.map (·.name)).count column
  | .unknownTable _ _ | .unknownColumn _ _ | .inconsistent _ => False

theorem namesTwice_of_repeatedName? {e : ScriptError} (h : repeatedName? [] s.tables = some e) :
    e.NamesTwice s := by
  rw [repeatedName?_eq] at h
  obtain ⟨t, ht, ⟨rfl, htable⟩ | ⟨c, rfl, hcount⟩⟩ := firstClash?_eq_some h
  · exact htable.resolve_left List.not_mem_nil
  · exact ⟨t, ht, rfl, hcount⟩

theorem script_eq_error_iff (hids : s.UniqueIds) {ls : List Link} (hlinks : LinkedBy s ls)
    {e : ScriptError} : script s = .error e ↔ repeatedName? [] s.tables = some e := by
  rw [script_eq_of_linkedBy hids hlinks]
  cases repeatedName? [] s.tables <;> simp

/-- A consistent schema has a script unless some name is used twice, and then the error is about
such a name. -/
theorem script_decides (h : s.violation? = none) :
    ((∃ ddl, script s = .ok ddl) ↔
        (s.tables.map (·.name)).Nodup ∧ ∀ t ∈ s.tables, (t.columns.map (·.name)).Nodup) ∧
      ∀ e, script s = .error e → e.NamesTwice s := by
  have hconsistent := Schema.violation?_eq_none.mp h
  have hids := hconsistent.linked.toUniqueIds
  obtain ⟨ls, hlinks⟩ := exists_linkedBy hconsistent
  constructor
  · rw [← repeatedName?_eq_none, script_eq_of_linkedBy hids hlinks]
    cases repeatedName? [] s.tables <;> simp
  · intro e he
    exact namesTwice_of_repeatedName? ((script_eq_error_iff hids hlinks).mp he)

/-- The column that the relation leads to has the same name as the one before it. -/
def twiceNamed : Schema :=
  ⟨[⟨⟨"t1"⟩, "a", [⟨⟨"c1"⟩, "x", .uuid, true, false, false, false⟩]⟩,
    ⟨⟨"t2"⟩, "b", [⟨⟨"c1"⟩, "x", .text, false, false, false, true⟩,
      ⟨⟨"c2"⟩, "x", .uuid, false, true, false, true⟩]⟩],
   [⟨⟨"r1"⟩, ⟨⟨"t1"⟩, ⟨"c1"⟩⟩, ⟨⟨"t2"⟩, ⟨"c2"⟩⟩, .oneToMany⟩], 0⟩

theorem script_decides_twiceNamed :
    twiceNamed.violation? = none ∧ (¬∃ ddl, script twiceNamed = .ok ddl) ∧
      script twiceNamed = .error (.duplicateColumnName "b" "x") ∧
      (ScriptError.duplicateColumnName "b" "x").NamesTwice twiceNamed := by
  have hconsistent : twiceNamed.violation? = none := by decide
  have herror : script twiceNamed = .error (.duplicateColumnName "b" "x") := by decide +kernel
  have hdecides := script_decides hconsistent
  exact ⟨hconsistent, fun hok => absurd (hdecides.1.mp hok) (by decide), herror,
    hdecides.2 _ herror⟩

/-! ## Shapes -/

/-- Columns that a script does not tell apart.  Primary keys are written without their own mark. -/
structure ColumnAlike (c d : Column) : Prop where
  name : d.name = c.name
  type : d.type = c.type
  isPrimaryKey : d.isPrimaryKey = c.isPrimaryKey
  isNullable : d.isNullable = c.isNullable
  isUnique : c.isPrimaryKey = false → d.isUnique = c.isUnique

structure TableAlike (t u : Table) : Prop where
  name : u.name = t.name
  columns : List.Forall₂ ColumnAlike t.columns u.columns

/-- The relations lead between the same places. -/
structure RelationAlike (s u : Schema) (r q : Relation) : Prop where
  source : ∃ i j, s.At i j r.source ∧ u.At i j q.source
  target : ∃ i j, s.At i j r.target ∧ u.At i j q.target

/-- The schemas differ at most in ids and in what a script says nothing about. -/
structure SameShape (s u : Schema) : Prop where
  tables : List.Forall₂ TableAlike s.tables u.tables
  relations : List.Forall₂ (RelationAlike s u) s.relations u.relations

theorem ColumnAlike.exported_eq {c d : Column} (h : ColumnAlike c d) :
    d.spec.exported = c.spec.exported := by
  have hunique : (d.isUnique && !d.isPrimaryKey) = (c.isUnique && !c.isPrimaryKey) := by
    rw [h.isPrimaryKey]
    cases hkey : c.isPrimaryKey with
    | true => rw [Bool.not_true, Bool.and_false, Bool.and_false]
    | false => rw [h.isUnique hkey]
  rw [ColumnSpec.exported, ColumnSpec.exported, ColumnSpec.mk.injEq]
  exact ⟨h.name, h.type, h.isPrimaryKey, hunique, h.isNullable⟩

theorem TableAlike.names_eq {t u : Table} (h : TableAlike t u) :
    u.columns.map (·.name) = t.columns.map (·.name) :=
  map_eq_of_forall₂ (h.columns.imp fun _ _ hc => hc.name)

theorem TableAlike.exported_eq {t u : Table} (h : TableAlike t u) :
    (u.spec.mapColumns fun _ => ColumnSpec.exported) =
      t.spec.mapColumns fun _ => ColumnSpec.exported := by
  have hcolumns : (u.columns.map Column.spec).map ColumnSpec.exported =
      (t.columns.map Column.spec).map ColumnSpec.exported := by
    rw [List.map_map, List.map_map]
    exact map_eq_of_forall₂ (h.columns.imp fun _ _ hc => hc.exported_eq)
  rw [TableSpec.mapColumns, TableSpec.mapColumns, Table.spec, Table.spec, h.name, hcolumns]

theorem SameShape.exported_eq (h : SameShape s u) :
    TableSpec.exported u.specs = TableSpec.exported s.specs := by
  rw [TableSpec.exported, TableSpec.exported, Schema.specs, Schema.specs, List.map_map,
    List.map_map]
  exact map_eq_of_forall₂ (h.tables.imp fun _ _ ht => ht.exported_eq)

/-- Names are checked without a look at ids. -/
theorem repeatedName?_congr {ts us : List Table} (h : List.Forall₂ TableAlike ts us)
    (seen : List String) : repeatedName? seen us = repeatedName? seen ts := by
  induction h generalizing seen with
  | nil => rfl
  | cons ht _ ih => rw [repeatedName?, repeatedName?, ht.name, ht.names_eq, ih]

/-- The names of an end are those at its place, whatever its ids are. -/
theorem named_of_at (hids : s.UniqueIds) (h : List.Forall₂ TableAlike s.tables u.tables)
    {table column : String} {e e' : Endpoint} (he : s.Named table column e)
    (hat : ∃ i j, s.At i j e ∧ u.At i j e') : u.Named table column e' := by
  obtain ⟨i, j, ⟨t, c, ht, hc, rfl⟩, ⟨t', c', ht', hc', rfl⟩⟩ := hat
  have hnamed : s.Named t.name c.name ⟨t.id, c.id⟩ :=
    ⟨t, List.mem_of_getElem? ht, rfl, c, List.mem_of_getElem? hc, rfl, rfl⟩
  obtain ⟨rfl, rfl⟩ := hnamed.names_unique hids he
  obtain ⟨v, hv, halike⟩ := exists_getElem?_of_forall₂ h ht
  obtain rfl := Option.some.inj (ht'.symm.trans hv)
  obtain ⟨d, hd, hcolumn⟩ := exists_getElem?_of_forall₂ halike.columns hc
  obtain rfl := Option.some.inj (hc'.symm.trans hd)
  exact ⟨t', List.mem_of_getElem? ht', halike.name, c', List.mem_of_getElem? hc', hcolumn.name, rfl⟩

theorem SameShape.linkedBy (h : SameShape s u) (hids : s.UniqueIds) {ls : List Link}
    (hlinks : LinkedBy s ls) : LinkedBy u ls := by
  refine forall₂_of_common hlinks.flip h.relations fun r l q hends hq => ?_
  exact ⟨named_of_at hids h.tables hends.1 hq.source, named_of_at hids h.tables hends.2 hq.target⟩

/-- The script of a consistent schema depends on its shape only, and so does the error if there is
no script. -/
theorem script_of_sameShape (hs : s.violation? = none) (hu : u.violation? = none)
    (h : SameShape s u) : script u = script s := by
  have hids := (Schema.violation?_eq_none.mp hs).linked.toUniqueIds
  have hids' := (Schema.violation?_eq_none.mp hu).linked.toUniqueIds
  obtain ⟨ls, hlinks⟩ := exists_linkedBy (Schema.violation?_eq_none.mp hs)
  rw [script_eq_of_linkedBy hids' (h.linkedBy hids hlinks), script_eq_of_linkedBy hids hlinks,
    repeatedName?_congr h.tables, h.exported_eq]

/-- Both tables use the same ids for their columns. -/
def lending (book loan key other : String) (isUnique : Bool) (cardinality : Cardinality) : Schema :=
  ⟨[⟨⟨book⟩, "book", [⟨⟨key⟩, "id", .uuid, true, false, isUnique, false⟩,
      ⟨⟨other⟩, "title", .text, false, false, false, true⟩]⟩,
    ⟨⟨loan⟩, "loan", [⟨⟨other⟩, "day", .date, false, false, true, false⟩,
      ⟨⟨key⟩, "book", .uuid, false, true, false, false⟩]⟩],
   [⟨⟨book ++ loan⟩, ⟨⟨book⟩, ⟨key⟩⟩, ⟨⟨loan⟩, ⟨key⟩⟩, cardinality⟩], 0⟩

/-- The ids of the tables are exchanged, and so are those of the columns. -/
theorem script_of_sameShape_exchanged :
    (lending "x" "y" "a" "b" false .oneToMany).violation? = none ∧
      (lending "y" "x" "b" "a" true .manyToMany).violation? = none ∧
      SameShape (lending "x" "y" "a" "b" false .oneToMany)
        (lending "y" "x" "b" "a" true .manyToMany) ∧
      script (lending "y" "x" "b" "a" true .manyToMany) =
        script (lending "x" "y" "a" "b" false .oneToMany) := by
  have hs : (lending "x" "y" "a" "b" false .oneToMany).violation? = none := by decide
  have hu : (lending "y" "x" "b" "a" true .manyToMany).violation? = none := by decide
  have hshape : SameShape (lending "x" "y" "a" "b" false .oneToMany)
      (lending "y" "x" "b" "a" true .manyToMany) := by
    constructor
    · refine .cons ⟨rfl, ?_⟩ (.cons ⟨rfl, ?_⟩ .nil)
      · refine .cons ⟨rfl, rfl, rfl, rfl, fun hkey => ?_⟩ (.cons ⟨rfl, rfl, rfl, rfl, ?_⟩ .nil)
        · cases hkey
        · exact fun _ => rfl
      · refine .cons ⟨rfl, rfl, rfl, rfl, ?_⟩ (.cons ⟨rfl, rfl, rfl, rfl, ?_⟩ .nil)
        all_goals exact fun _ => rfl
    · refine .cons ⟨⟨0, 0, ?_, ?_⟩, ⟨1, 1, ?_, ?_⟩⟩ .nil
      all_goals exact ⟨_, _, rfl, rfl, rfl⟩
  exact ⟨hs, hu, hshape, script_of_sameShape hs hu hshape⟩

end Sql
end Schemata
