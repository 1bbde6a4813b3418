/-
The specification of resolution, in terms of the document alone: which documents resolve, and what
the schema of a document is like.
-/
import Schemata.Proofs.Sql.Resolution

namespace Schemata
namespace Sql

/-- What reading a script guarantees: no list of columns is empty, and a foreign key has as many
targets as columns or, for a single column, none. -/
def Constraint.WellFormed : Constraint → Prop
  | .primaryKey columns => columns ≠ []
  | .unique columns => columns ≠ []
  | .foreignKey key => key.columns ≠ [] ∧
      (key.targets.length = key.columns.length ∨ key.targets = [] ∧ key.columns.length = 1)

namespace Document

structure WellFormed (d : Document) : Prop where
  columns : ∀ t ∈ d.tables, (t.columns.map (·.name)).Nodup
  constraints : ∀ k ∈ d.constraints, k.constraint.WellFormed

def DeclaresTable (d : Document) (table : String) : Prop := ∃ t ∈ d.tables, t.name = table

def DeclaresColumn (d : Document) (table column : String) : Prop :=
  ∃ t ∈ d.tables, t.name = table ∧ ∃ c ∈ t.columns, c.name = column

/-- The column is declared a primary key, or is listed in one anywhere in the document. -/
def InPrimaryKey (d : Document) (t : TableDef) (c : ColumnDef) : Prop :=
  c.isPrimaryKey = true ∨
    ∃ k ∈ d.constraints, k.table = t.name ∧
      ∃ columns, k.constraint = .primaryKey columns ∧ c.name ∈ columns

/-- The column alone is the primary key. -/
def IsPrimaryKey (d : Document) (t : TableDef) (c : ColumnDef) : Prop :=
  ∀ c' ∈ t.columns, d.InPrimaryKey t c' ↔ c' = c

/-- The column is declared unique, or is the only entry of a unique constraint. -/
def IsUnique (d : Document) (t : TableDef) (c : ColumnDef) : Prop :=
  c.isUnique = true ∨ ∃ k ∈ d.constraints, k.table = t.name ∧ k.constraint = .unique [c.name]

def InForeignKey (d : Document) (t : TableDef) (c : ColumnDef) : Prop :=
  ∃ k ∈ d.constraints, k.table = t.name ∧
    ∃ key, k.constraint = .foreignKey key ∧ c.name ∈ key.columns

/-- All that the constraint names is declared somewhere in the document, and a foreign key without
targets refers to a table whose primary key is one column. -/
def Resolves (d : Document) (k : ConstraintDef) : Prop :=
  match k.constraint with
  | .primaryKey columns =>
    d.DeclaresTable k.table ∧ ∀ column ∈ columns, d.DeclaresColumn k.table column
  | .unique columns =>
    d.DeclaresTable k.table ∧ ∀ column ∈ columns, d.DeclaresColumn k.table column
  | .foreignKey key =>
    ((d.DeclaresTable k.table ∧ ∀ column ∈ key.columns, d.DeclaresColumn k.table column) ∧
      d.DeclaresTable key.table ∧ ∀ target ∈ key.targets, d.DeclaresColumn key.table target) ∧
    (key.targets = [] →
      ∃ t ∈ d.tables, t.name = key.table ∧ ∃ c ∈ t.columns, d.IsPrimaryKey t c)

structure Resolvable (d : Document) : Prop where
  tables : (d.tables.map (·.name)).Nodup
  constraints : ∀ k ∈ d.constraints, d.Resolves k

structure DescribesColumn (d : Document) (t : TableDef) (c : ColumnDef) (column : Column) :
    Prop where
  name : column.name = c.name
  type : column.type = c.type
  isNullable : column.isNullable = c.isNullable
  isPrimaryKey : column.isPrimaryKey = true ↔ d.InPrimaryKey t c
  isUnique : column.isUnique = true ↔ d.IsUnique t c
  isForeignKey : column.isForeignKey = true ↔ d.InForeignKey t c

/-- The column of the link is unique or is a whole primary key. -/
def UniqueHolder (d : Document) (l : Link) : Prop :=
  ∃ t ∈ d.tables, t.name = l.holder ∧ ∃ c ∈ t.columns, c.name = l.column ∧
    (d.IsUnique t c ∨ d.IsPrimaryKey t c)

/-- The relation leads from the column that is referred to, to the column that refers to it. -/
structure DescribesRelation (d : Document) (inferOneToOne : Bool) (s : Schema) (l : Link)
    (r : Relation) : Prop where
  source : s.Named l.table l.target r.source
  target : s.Named l.holder l.column r.target
  oneToOne : r.cardinality = .oneToOne ↔ inferOneToOne = true ∧ d.UniqueHolder l
  oneToMany : r.cardinality = .oneToMany ↔ ¬(inferOneToOne = true ∧ d.UniqueHolder l)

/-- What the schema of a document is like.  Its ids are numbered in order. -/
structure Describes (d : Document) (inferOneToOne : Bool) (s : Schema) : Prop where
  tables : List.Forall₂ (fun (t : TableDef) (table : Table) => table.name = t.name ∧
    List.Forall₂ (d.DescribesColumn t) t.columns table.columns) d.tables s.tables
  relations : List.Forall₂ (d.DescribesRelation inferOneToOne s) d.links s.relations
  numbered : ∃ js, s = Schema.numbered s.specs js
  consistent : s.Consistent

/-! ## Marks -/

theorem declare_specs_iff {d : Document} {table column : String} :
    TableSpec.Declare d.specs table column ↔ d.DeclaresColumn table column := by
  simp [TableSpec.Declare, specs, DeclaresColumn, TableDef.spec, ColumnDef.spec]

theorem declare_marked_iff {d : Document} {table column : String} :
    TableSpec.Declare d.marked table column ↔ d.DeclaresColumn table column := by
  rw [marked, TableSpec.declare_mapColumns_iff (keepsNames_mark d.rules), declare_specs_iff]

theorem WellFormed.columns_specs {d : Document} (hd : d.WellFormed) :
    ∀ t ∈ d.specs, (t.columns.map (·.name)).Nodup := by
  intro t ht
  obtain ⟨t', ht', rfl⟩ := List.mem_map.mp ht
  rw [TableDef.spec, List.map_map]
  exact hd.columns t' ht'

theorem distinct_specs {d : Document} (hd : d.WellFormed)
    (htables : (d.tables.map (·.name)).Nodup) : TableSpec.Distinct d.specs :=
  ⟨by rwa [names_specs], hd.columns_specs⟩

/-- The column with the marks of all keys. -/
def markedColumn (d : Document) (t : TableDef) (c : ColumnDef) : ColumnSpec :=
  mark d.rules t.name c.spec

def markedTable (d : Document) (t : TableDef) : TableSpec :=
  ⟨t.name, t.columns.map (d.markedColumn t)⟩

theorem marked_eq_map (d : Document) : d.marked = d.tables.map d.markedTable := by
  simp [marked, specs, markedTable, markedColumn, TableSpec.mapColumns, TableDef.spec,
    Function.comp_def]

theorem markedColumn_isPrimaryKey {d : Document} {t : TableDef} {c : ColumnDef} :
    (d.markedColumn t c).isPrimaryKey = true ↔ d.InPrimaryKey t c := by
  show (c.isPrimaryKey || d.rules.any (·.marksKey t.name c.name)) = true ↔ _
  rw [Bool.or_eq_true, rules, List.any_map, List.any_eq_true]
  refine or_congr_right (exists_congr fun k => and_congr_right fun _ => ?_)
  obtain ⟨table, constraint, site⟩ := k
  cases constraint <;> simp [ConstraintDef.rule, Rule.marksKey]

theorem markedColumn_isUnique {d : Document} {t : TableDef} {c : ColumnDef} :
    (d.markedColumn t c).isUnique = true ↔ d.IsUnique t c := by
  show (c.isUnique || d.rules.any (·.marksUnique t.name c.name)) = true ↔ _
  rw [Bool.or_eq_true, rules, List.any_map, List.any_eq_true]
  refine or_congr_right (exists_congr fun k => and_congr_right fun _ => ?_)
  obtain ⟨table, constraint, site⟩ := k
  cases constraint with
  | primaryKey columns => simp [ConstraintDef.rule, Rule.marksUnique]
  | foreignKey key => simp [ConstraintDef.rule, Rule.marksUnique]
  | unique columns =>
    rcases columns with _ | ⟨only, _ | ⟨second, rest⟩⟩ <;>
      simp [ConstraintDef.rule, Rule.marksUnique]

/-- Among different items one alone satisfies `p`. -/
theorem filter_length_eq_one_iff {p : α → Bool} {xs : List α} (hn : xs.Nodup) {x : α}
    (hx : x ∈ xs) : (p x = true ∧ (xs.filter p).length = 1) ↔ ∀ y ∈ xs, p y = true ↔ y = x := by
  constructor
  · rintro ⟨hp, hlen⟩ y hy
    obtain ⟨z, hz⟩ := List.length_eq_one_iff.mp hlen
    have hxz : x = z := by
      have hmem := List.mem_filter.mpr ⟨hx, hp⟩
      rwa [hz, List.mem_singleton] at hmem
    refine ⟨fun hpy => ?_, fun heq => heq ▸ hp⟩
    have hmem := List.mem_filter.mpr ⟨hy, hpy⟩
    rw [hz, List.mem_singleton] at hmem
    rw [hmem, hxz]
  · intro honly
    refine ⟨(honly x hx).mpr rfl, ?_⟩
    have hmem : x ∈ xs.filter p := List.mem_filter.mpr ⟨hx, (honly x hx).mpr rfl⟩
    have hsub : xs.filter p ⊆ [x] := by
      intro y hy
      obtain ⟨hy, hpy⟩ := List.mem_filter.mp hy
      exact List.mem_singleton.mpr ((honly y hy).mp hpy)
    have hle := (List.subperm_of_subset (hn.filter p) hsub).length_le
    have hpos := List.length_pos_of_mem hmem
    rw [List.length_singleton] at hle
    omega

theorem primaryKey_markedTable (d : Document) (t : TableDef) :
    (d.markedTable t).primaryKey =
      (t.columns.filter fun c => (d.markedColumn t c).isPrimaryKey).map (·.name) := by
  rw [TableSpec.primaryKey, markedTable, List.filter_map, List.map_map]
  rfl

/-- A column of a table is the whole primary key if it is in a primary key of one column. -/
theorem isPrimaryKey_iff {d : Document} {t : TableDef} (hn : (t.columns.map (·.name)).Nodup)
    {c : ColumnDef} (hc : c ∈ t.columns) :
    d.IsPrimaryKey t c ↔
      (d.markedColumn t c).isPrimaryKey = true ∧ (d.markedTable t).primaryKey.length = 1 := by
  rw [primaryKey_markedTable, List.length_map,
    filter_length_eq_one_iff (p := fun c => (d.markedColumn t c).isPrimaryKey)
      (List.Nodup.of_map _ hn) hc]
  exact forall₂_congr fun c' _ => by rw [markedColumn_isPrimaryKey]

theorem exists_isPrimaryKey_iff {d : Document} {t : TableDef}
    (hn : (t.columns.map (·.name)).Nodup) :
    (∃ c ∈ t.columns, d.IsPrimaryKey t c) ↔ (d.markedTable t).primaryKey.length = 1 := by
  constructor
  · rintro ⟨c, hc, honly⟩
    exact ((isPrimaryKey_iff hn hc).mp honly).2
  · intro hlen
    have hlen' := hlen
    rw [primaryKey_markedTable, List.length_map] at hlen'
    obtain ⟨c, hc⟩ := List.exists_mem_of_length_pos (by rw [hlen']; omega)
    obtain ⟨hmem, hmark⟩ := List.mem_filter.mp hc
    exact ⟨c, hmem, (isPrimaryKey_iff hn hmem).mpr ⟨hmark, hlen⟩⟩

theorem uniqueAlone_marked_iff {d : Document} (hd : d.WellFormed)
    (hnames : TableSpec.Distinct d.marked) {l : Link} (hl : l.Declared d.marked) :
    TableSpec.uniqueAlone d.marked l.holder l.column = true ↔ d.UniqueHolder l := by
  have hunique : ∀ t ∈ d.tables, ∀ c ∈ t.columns,
      TableSpec.uniqueAlone d.marked t.name c.name = true ↔
        d.IsUnique t c ∨ d.IsPrimaryKey t c := by
    intro t ht c hc
    have htable : d.markedTable t ∈ d.marked := by
      rw [marked_eq_map]
      exact List.mem_map_of_mem ht
    have hcolumn : d.markedColumn t c ∈ (d.markedTable t).columns := List.mem_map_of_mem hc
    rw [show TableSpec.uniqueAlone d.marked t.name c.name = _ from
      TableSpec.uniqueAlone_eq hnames htable hcolumn, Bool.or_eq_true, Bool.and_eq_true,
      decide_eq_true_iff, markedColumn_isUnique, isPrimaryKey_iff (hd.columns t ht) hc]
  obtain ⟨t, ht, hname, c, hc, hcname⟩ := declare_marked_iff.mp hl.1
  rw [← hname, ← hcname, hunique t ht c hc]
  constructor
  · intro h
    exact ⟨t, ht, hname, c, hc, hcname, h⟩
  · rintro ⟨t', ht', hname', c', hc', hcname', h⟩
    rw [← hunique t' ht' c' hc', hname', hcname', ← hname, ← hcname] at h
    exact (hunique t ht c hc).mp h

/-! ## What resolves -/

theorem paired_iff {d : Document} (hd : d.WellFormed) {key : ForeignKey}
    (hkey : (Constraint.foreignKey key).WellFormed) :
    key.Paired d.marked ↔ (key.targets = [] →
      ∃ t ∈ d.tables, t.name = key.table ∧ ∃ c ∈ t.columns, d.IsPrimaryKey t c) := by
  refine imp_congr_right fun hnil => ?_
  have hone : key.columns.length = 1 := by
    have hne := List.length_pos_iff.mpr hkey.1
    rcases hkey.2 with hlen | hlen
    · rw [hnil, List.length_nil] at hlen
      omega
    · exact hlen.2
  rw [hone, marked_eq_map]
  constructor
  · rintro ⟨_, hmem, hname, hlen⟩
    obtain ⟨t, ht, rfl⟩ := List.mem_map.mp hmem
    exact ⟨t, ht, hname, (exists_isPrimaryKey_iff (hd.columns t ht)).mpr hlen⟩
  · rintro ⟨t, ht, hname, hkey⟩
    exact ⟨_, List.mem_map_of_mem ht, hname, (exists_isPrimaryKey_iff (hd.columns t ht)).mp hkey⟩

/-- Every column of a foreign key has its target. -/
theorem length_targetsIn {ts : List TableSpec} (hnames : TableSpec.Distinct ts) {key : ForeignKey}
    (hkey : (Constraint.foreignKey key).WellFormed) (hpaired : key.Paired ts) :
    (key.targetsIn ts).length = key.columns.length := by
  unfold ForeignKey.targetsIn
  by_cases hempty : key.targets.isEmpty
  · obtain ⟨t, ht, hname, hlen⟩ := hpaired (List.isEmpty_iff.mp hempty)
    rw [if_pos hempty, ← hname, TableSpec.keyOf_eq hnames ht, hlen]
  · rw [if_neg hempty]
    rcases hkey.2 with hlen | hlen
    · exact hlen
    · exact absurd (List.isEmpty_iff.mpr hlen.1) hempty

theorem forall_links_iff {ts : List TableSpec} {holder : String} {key : ForeignKey}
    (hlen : (key.targetsIn ts).length = key.columns.length) :
    (∀ l ∈ key.links ts holder, l.Declared ts) ↔
      (∀ column ∈ key.columns, TableSpec.Declare ts holder column) ∧
        ∀ target ∈ key.targetsIn ts, TableSpec.Declare ts key.table target := by
  have hcolumns : (key.columns.zip (key.targetsIn ts)).map Prod.fst = key.columns :=
    List.map_fst_zip (by omega)
  have htargets : (key.columns.zip (key.targetsIn ts)).map Prod.snd = key.targetsIn ts :=
    List.map_snd_zip (by omega)
  constructor
  · intro h
    rw [ForeignKey.links, List.forall_mem_map] at h
    refine ⟨fun column hcolumn => ?_, fun target htarget => ?_⟩
    · rw [← hcolumns] at hcolumn
      obtain ⟨p, hp, rfl⟩ := List.mem_map.mp hcolumn
      exact (h p hp).1
    · rw [← htargets] at htarget
      obtain ⟨p, hp, rfl⟩ := List.mem_map.mp htarget
      exact (h p hp).2
  · rintro ⟨hcolumn, htarget⟩
    rw [ForeignKey.links, List.forall_mem_map]
    intro p hp
    obtain ⟨hfst, hsnd⟩ := List.of_mem_zip hp
    exact ⟨hcolumn _ hfst, htarget _ hsnd⟩

/-- The primary key of a table is declared with the table. -/
theorem declare_keyOf {ts : List TableSpec} {table column : String}
    (h : column ∈ TableSpec.keyOf ts table) : TableSpec.Declare ts table column := by
  unfold TableSpec.keyOf at h
  cases hfound : ts.find? (·.name == table) with
  | none =>
    rw [hfound] at h
    cases h
  | some t =>
    rw [hfound] at h
    have hname : t.name = table := by simpa using List.find?_some hfound
    rw [← hname]
    exact TableSpec.declare_of_mem_primaryKey (List.mem_of_find?_eq_some hfound) h

theorem DeclaresColumn.table {d : Document} {table column : String}
    (h : d.DeclaresColumn table column) : d.DeclaresTable table := by
  obtain ⟨t, ht, hname, -⟩ := h
  exact ⟨t, ht, hname⟩

theorem declaresTable_of_forall {d : Document} {table : String} {columns : List String}
    (hne : columns ≠ []) (h : ∀ column ∈ columns, d.DeclaresColumn table column) :
    d.DeclaresTable table := by
  obtain ⟨column, hcolumn⟩ := List.exists_mem_of_ne_nil columns hne
  exact (h column hcolumn).table

theorem forall_links_wellFormed_iff {d : Document} (hd : d.WellFormed)
    (htables : (d.tables.map (·.name)).Nodup) {k : ConstraintDef} {key : ForeignKey}
    (hkey : (Constraint.foreignKey key).WellFormed) (hpaired : key.Paired d.marked) :
    (∀ l ∈ key.links d.marked k.table, l.Declared d.marked) ↔
      (d.DeclaresTable k.table ∧ ∀ column ∈ key.columns, d.DeclaresColumn k.table column) ∧
        d.DeclaresTable key.table ∧
          ∀ target ∈ key.targets, d.DeclaresColumn key.table target := by
  have hnames := distinct_marked (distinct_specs hd htables)
  have hlen := length_targetsIn hnames hkey hpaired
  rw [forall_links_iff hlen]
  simp only [declare_marked_iff]
  have htarget : key.targets.isEmpty = false → key.targetsIn d.marked = key.targets := by
    intro hne
    rw [ForeignKey.targetsIn, hne]
    rfl
  constructor
  · rintro ⟨hcolumns, htargets⟩
    have htargetsIn : key.targetsIn d.marked ≠ [] := by
      intro hnil
      rw [hnil, List.length_nil] at hlen
      exact hkey.1 (List.length_eq_zero_iff.mp hlen.symm)
    refine ⟨⟨declaresTable_of_forall hkey.1 hcolumns, hcolumns⟩,
      declaresTable_of_forall htargetsIn htargets, fun target ht => htargets target ?_⟩
    rwa [htarget (by simpa using List.ne_nil_of_mem ht)]
  · rintro ⟨⟨-, hcolumns⟩, -, htargets⟩
    refine ⟨hcolumns, fun target ht => ?_⟩
    cases hempty : key.targets.isEmpty with
    | false => exact htargets target (htarget hempty ▸ ht)
    | true =>
      rw [ForeignKey.targetsIn, hempty] at ht
      exact declare_marked_iff.mp (declare_keyOf ht)

theorem resolves_iff {d : Document} (hd : d.WellFormed) (htables : (d.tables.map (·.name)).Nodup)
    {k : ConstraintDef} (hk : k.constraint.WellFormed) :
    (k.rule.KeyDeclared d.specs ∧ k.rule.Paired d.marked) ∧
        (∀ l ∈ k.rule.links d.marked, l.Declared d.marked) ↔ d.Resolves k := by
  have hcolumns : ∀ {table : String} {columns : List String}, columns ≠ [] →
      (((∀ column ∈ columns, TableSpec.Declare d.specs table column) ∧ True) ∧
          (∀ l ∈ ([] : List Link), l.Declared d.marked) ↔
        d.DeclaresTable table ∧ ∀ column ∈ columns, d.DeclaresColumn table column) := by
    intro table columns hne
    simp only [declare_specs_iff]
    exact ⟨fun h => ⟨declaresTable_of_forall hne h.1.1, h.1.1⟩, fun h => ⟨⟨h.2, trivial⟩, by simp⟩⟩
  obtain ⟨table, constraint, site⟩ := k
  cases constraint with
  | primaryKey columns => exact hcolumns hk
  | unique columns => exact hcolumns hk
  | foreignKey key =>
    show (True ∧ key.Paired d.marked) ∧ (∀ l ∈ key.links d.marked table, l.Declared d.marked) ↔ _
    rw [true_and, and_comm]
    exact (and_congr_left fun hpaired => forall_links_wellFormed_iff
      (k := ⟨table, .foreignKey key, site⟩) hd htables hk hpaired).trans
        (and_congr_right fun _ => paired_iff hd hk)

/-- A document is resolved exactly if it is resolvable. -/
theorem exists_toSchema_iff {d : Document} (hd : d.WellFormed) (inferOneToOne : Bool) :
    (∃ s, d.toSchema inferOneToOne = .ok s) ↔ d.Resolvable := by
  have hlinks : (∃ js, List.Forall₂ (Link.Joins inferOneToOne d.marked) d.links js) ↔
      ∀ k ∈ d.constraints, ∀ l ∈ k.rule.links d.marked, l.Declared d.marked := by
    rw [exists_joins_iff, links, List.forall_mem_flatMap, rules, List.forall_mem_map]
  simp only [toSchema_eq_ok hd.columns_specs, rules, List.forall_mem_map]
  constructor
  · rintro ⟨s, hnodup, hrules, js, hjs, -⟩
    rw [names_specs] at hnodup
    refine ⟨hnodup, fun k hk => ?_⟩
    exact (resolves_iff hd hnodup (hd.constraints k hk)).mp
      ⟨hrules k hk, hlinks.mp ⟨js, hjs⟩ k hk⟩
  · rintro ⟨hnodup, hconstraints⟩
    have hparts := fun k hk =>
      (resolves_iff hd hnodup (hd.constraints k hk)).mpr (hconstraints k hk)
    obtain ⟨js, hjs⟩ := hlinks.mpr fun k hk => (hparts k hk).2
    exact ⟨_, by rwa [names_specs], fun k hk => (hparts k hk).1, js, hjs, rfl⟩

/-! ## What is resolved -/

theorem mem_links_iff {d : Document} (hd : d.WellFormed) (hnames : TableSpec.Distinct d.marked)
    (hpaired : ∀ r ∈ d.rules, r.Paired d.marked) {t : TableDef} {c : ColumnDef} :
    (∃ l ∈ d.links, l.holder = t.name ∧ l.column = c.name) ↔ d.InForeignKey t c := by
  constructor
  · rintro ⟨l, hl, hholder, hcolumn⟩
    obtain ⟨r, hr, hl⟩ := List.mem_flatMap.mp hl
    obtain ⟨⟨table, constraint, site⟩, hk, rfl⟩ := List.mem_map.mp hr
    cases constraint with
    | primaryKey columns => cases hl
    | unique columns => cases hl
    | foreignKey key =>
      obtain ⟨p, hp, rfl⟩ := List.mem_map.mp hl
      exact ⟨_, hk, hholder, key, rfl, hcolumn ▸ (List.of_mem_zip hp).1⟩
  · rintro ⟨⟨table, constraint, site⟩, hk, htable, key, hkey, hc⟩
    have hkey' : constraint = .foreignKey key := hkey
    subst hkey'
    have hrule : (⟨table, .foreignKey key⟩ : Rule) ∈ d.rules :=
      List.mem_map_of_mem (f := ConstraintDef.rule) hk
    have hlen := length_targetsIn hnames (hd.constraints _ hk) (hpaired _ hrule)
    have hzip : (key.columns.zip (key.targetsIn d.marked)).map Prod.fst = key.columns :=
      List.map_fst_zip (by omega)
    rw [← hzip] at hc
    obtain ⟨p, hp, hname⟩ := List.mem_map.mp hc
    exact ⟨⟨table, p.1, key.table, p.2⟩,
      List.mem_flatMap.mpr ⟨_, hrule, List.mem_map_of_mem hp⟩, htable, hname⟩

theorem describesRelation_of_joins {d : Document} (hd : d.WellFormed)
    (hnames : TableSpec.Distinct d.marked) {inferOneToOne : Bool} {js : List Join} {l : Link}
    {j : Join} (hj : l.Joins inferOneToOne d.marked j) (k : Nat) :
    d.DescribesRelation inferOneToOne (Schema.numbered d.marked js) l (j.numbered k) := by
  have hends : l.Ends (Schema.numbered d.marked js) j.source j.target :=
    ends_numbered_iff.mpr hj.1
  have hdeclared : l.Declared d.marked := by
    rw [Link.Declared, ← Schema.specs_numbered d.marked js, Schema.declare_specs_iff,
      Schema.declare_specs_iff]
    exact ⟨⟨_, hends.2⟩, _, hends.1⟩
  have hunique := uniqueAlone_marked_iff hd hnames hdeclared
  refine ⟨hends.1, hends.2, ?_, ?_⟩
  · show j.cardinality = .oneToOne ↔ _
    rw [hj.2, Link.cardinality, ← hunique, ← Bool.and_eq_true]
    split <;> simp_all
  · show j.cardinality = .oneToMany ↔ _
    rw [hj.2, Link.cardinality, ← hunique, ← Bool.and_eq_true]
    split <;> simp_all

/-- The schema of a document is as the document describes it. -/
theorem describes_of_toSchema {d : Document} (hd : d.WellFormed) {inferOneToOne : Bool}
    {s : Schema} (h : d.toSchema inferOneToOne = .ok s) : d.Describes inferOneToOne s := by
  have hresolvable := (exists_toSchema_iff hd inferOneToOne).mp ⟨s, h⟩
  have hspecs := distinct_specs hd hresolvable.tables
  have hnames := distinct_marked hspecs
  obtain ⟨-, hrules, js, hjs, rfl⟩ := (toSchema_eq_ok hspecs.columns).mp h
  have hids := Schema.uniqueIds_numbered d.marked js
  have hnames' : TableSpec.Distinct (Schema.numbered d.marked js).specs := by
    rwa [Schema.specs_numbered]
  have hconsistent := consistent_of_joins hjs
  have hspecs' : (Schema.numbered d.marked js).tables.map Table.spec =
      d.tables.map d.markedTable := by
    rw [← marked_eq_map]
    exact Schema.specs_numbered d.marked js
  refine ⟨?_, ?_, ⟨js, by rw [Schema.specs_numbered]⟩, hconsistent⟩
  · refine (forall₂_of_map_eq hspecs').imp ?_
    rintro t table ⟨ht, htable, hspec⟩
    refine ⟨congrArg TableSpec.name hspec, ?_⟩
    refine (forall₂_of_map_eq (congrArg TableSpec.columns hspec)).imp ?_
    rintro c column ⟨hc, hcolumn, hcspec⟩
    have hname : column.name = c.name := congrArg ColumnSpec.name hcspec
    refine ⟨hname, congrArg ColumnSpec.type hcspec, congrArg ColumnSpec.isNullable hcspec, ?_, ?_,
      ?_⟩
    · rw [← markedColumn_isPrimaryKey, ← hcspec]
      rfl
    · rw [← markedColumn_isUnique, ← hcspec]
      rfl
    · rw [hconsistent.truthful table htable column hcolumn,
        isForeignKey_iff_link hids hnames' (linkedBy_numbered hjs) htable hcolumn,
        ← mem_links_iff hd hnames fun r hr => (hrules r hr).2, hname,
        show table.name = t.name from congrArg TableSpec.name hspec]
  · refine forall₂_numberFrom (f := Join.numbered) (fun k l j hj => ?_) hjs _
    exact describesRelation_of_joins hd hnames hj k

/-- Resolution accepts exactly the resolvable documents and makes what they describe. -/
theorem toSchema_correct {d : Document} (hd : d.WellFormed) (inferOneToOne : Bool) :
    ((∃ s, d.toSchema inferOneToOne = .ok s) ↔ d.Resolvable) ∧
      ∀ s, d.toSchema inferOneToOne = .ok s → d.Describes inferOneToOne s :=
  ⟨exists_toSchema_iff hd inferOneToOne, fun _ h => describes_of_toSchema hd h⟩

/-- A foreign key without targets stands before the primary key that it refers to. -/
def keyAfterUse : Document :=
  ⟨[⟨"user", [⟨"id", .integer, false, false, false, .start⟩], ⟨"", .start⟩⟩,
     ⟨"profile", [⟨"user_id", .integer, false, true, true, .start⟩], ⟨"", .start⟩⟩],
    [⟨"profile", .foreignKey ⟨["user_id"], "user", []⟩, ⟨"", .start⟩⟩,
     ⟨"user", .primaryKey ["id"], ⟨"", .start⟩⟩]⟩

theorem toSchema_correct_keyAfterUse :
    keyAfterUse.WellFormed ∧ keyAfterUse.Resolvable ∧
      ∃ s, keyAfterUse.toSchema true = .ok s ∧ keyAfterUse.Describes true s := by
  have hwellFormed : keyAfterUse.WellFormed := by
    constructor <;> simp [keyAfterUse, Constraint.WellFormed]
  have hresolvable : keyAfterUse.Resolvable := by
    constructor <;> simp [keyAfterUse, Resolves, DeclaresTable, DeclaresColumn, IsPrimaryKey,
      InPrimaryKey]
  have hcorrect := toSchema_correct hwellFormed true
  obtain ⟨s, hs⟩ := hcorrect.1.mpr hresolvable
  exact ⟨hwellFormed, hresolvable, s, hs, hcorrect.2 s hs⟩

end Document
end Sql
end Schemata
