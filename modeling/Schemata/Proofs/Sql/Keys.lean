/-
The tables of a document and their keys.  Tables whose names differ are declared with their ids
numbered in order; a key constraint then marks columns by their names.
-/
import Schemata.Proofs.Forall2
import Schemata.Proofs.Schema.Numbering

namespace Schemata
namespace Sql

theorem bind_eq_ok_iff {x : Except ε α} {f : α → Except ε β} {b : β} :
    (x >>= f) = .ok b ↔ ∃ a, x = .ok a ∧ f a = .ok b := by
  refine ⟨ok_of_bind, ?_⟩
  rintro ⟨a, rfl, h⟩
  exact h

theorem mapM_eq_ok_iff {f : α → Except ε β} {xs : List α} {ys : List β} :
    xs.mapM f = .ok ys ↔ List.Forall₂ (fun x y => f x = .ok y) xs ys := by
  induction xs generalizing ys with
  | nil =>
    rw [List.mapM_nil, List.forall₂_nil_left_iff]
    exact ⟨fun h => by cases h; rfl, fun h => by rw [h]; rfl⟩
  | cons x rest ih =>
    rw [List.mapM_cons, List.forall₂_cons_left_iff]
    constructor
    · intro h
      obtain ⟨y, hy, h⟩ := ok_of_bind h
      obtain ⟨ys', hys', h⟩ := ok_of_bind h
      cases h
      exact ⟨y, ys', hy, ih.mp hys', rfl⟩
    · rintro ⟨y, ys', hy, hys', rfl⟩
      exact bind_eq_ok_iff.mpr ⟨y, hy, bind_eq_ok_iff.mpr ⟨ys', ih.mpr hys', rfl⟩⟩

/-! ## Tables -/

def TableDef.spec (d : TableDef) : TableSpec := ⟨d.name, d.columns.map ColumnDef.spec⟩

theorem insertColumns_numbered (ts : List TableSpec) (name : String) (cs : List ColumnSpec)
    (ds : List ColumnDef) :
    ds.foldl (fun s c => (s.insertColumn (.ofNumber (TableSpec.extent ts + 1)) c.spec).1)
        (Schema.numbered (ts ++ [⟨name, cs⟩]) []) =
      Schema.numbered (ts ++ [⟨name, cs ++ ds.map ColumnDef.spec⟩]) [] := by
  induction ds generalizing cs with
  | nil => simp
  | cons d rest ih =>
    rw [List.foldl_cons, Schema.insertColumn_numbered, ih, List.map_cons, List.append_assoc,
      List.singleton_append]

theorem declareTable_numbered (ts : List TableSpec) (d : TableDef) :
    declareTable (Schema.numbered ts []) d = Schema.numbered (ts ++ [d.spec]) [] := by
  rw [declareTable, Schema.addTable_numbered]
  exact insertColumns_numbered ts d.name [] d.columns

theorem tableNamed?_isSome_iff {s : Schema} {name : String} :
    (s.tableNamed? name).isSome ↔ name ∈ s.specs.map (·.name) := by
  simp [Schema.tableNamed?, Schema.specs, Table.spec]

theorem tableNamed?_numbered_isSome_iff {ts : List TableSpec} {js : List Join} {name : String} :
    ((Schema.numbered ts js).tableNamed? name).isSome ↔ name ∈ ts.map (·.name) := by
  rw [tableNamed?_isSome_iff, Schema.specs_numbered]

theorem declareTables_numbered_eq_ok {ts : List TableSpec} {ds : List TableDef} {s : Schema} :
    declareTables (Schema.numbered ts []) ds = .ok s ↔
      ((ds.map (·.name)).Nodup ∧ ∀ d ∈ ds, d.name ∉ ts.map (·.name)) ∧
        s = Schema.numbered (ts ++ ds.map TableDef.spec) [] := by
  induction ds generalizing ts with
  | nil =>
    rw [declareTables, List.map_nil, List.map_nil, List.append_nil, Except.ok.injEq]
    exact ⟨fun h => ⟨by simp, h.symm⟩, fun h => h.2.symm⟩
  | cons d rest ih =>
    rw [declareTables]
    by_cases hd : d.name ∈ ts.map (·.name)
    · rw [if_pos (tableNamed?_numbered_isSome_iff.mpr hd)]
      constructor
      · intro h
        cases h
      · rintro ⟨⟨-, hnew⟩, -⟩
        exact absurd hd (hnew d List.mem_cons_self)
    · rw [if_neg (mt tableNamed?_numbered_isSome_iff.mp hd), declareTable_numbered, ih,
        List.map_cons, List.append_assoc, List.singleton_append, List.map_cons, List.nodup_cons,
        List.forall_mem_cons]
      refine and_congr_left fun _ => ?_
      simp only [List.map_append, List.map_cons, List.map_nil, List.mem_append,
        List.mem_singleton, not_or]
      constructor
      · rintro ⟨hrest, hnew⟩
        refine ⟨⟨fun hmem => ?_, hrest⟩, hd, fun d' hd' => (hnew d' hd').1⟩
        obtain ⟨d', hd', heq⟩ := List.mem_map.mp hmem
        exact (hnew d' hd').2 heq
      · rintro ⟨⟨hfirst, hrest⟩, -, hnew⟩
        refine ⟨hrest, fun d' hd' => ⟨hnew d' hd', fun heq => hfirst ?_⟩⟩
        rw [← show d'.name = d.name from heq]
        exact List.mem_map_of_mem hd'

/-- Tables are declared if no name is used twice, and then they are numbered in order. -/
theorem declareTables_eq_ok {ds : List TableDef} {s : Schema} :
    declareTables .empty ds = .ok s ↔
      (ds.map (·.name)).Nodup ∧ s = Schema.numbered (ds.map TableDef.spec) [] := by
  rw [← Schema.numbered_nil_nil, declareTables_numbered_eq_ok]
  simp

/-! ## Keys -/

/-- A constraint and the name of the table that it applies to. -/
structure Rule where
  table : String
  constraint : Constraint
  deriving DecidableEq, Repr

def ConstraintDef.rule (d : ConstraintDef) : Rule := ⟨d.table, d.constraint⟩

namespace Rule

/-- Whether the column is listed in a primary key. -/
def marksKey (r : Rule) (table column : String) : Bool :=
  match r.constraint with
  | .primaryKey columns => r.table == table && columns.contains column
  | _ => false

/-- Whether the column is to be unique alone. -/
def marksUnique (r : Rule) (table column : String) : Bool :=
  match r.constraint with
  | .unique [only] => r.table == table && only == column
  | _ => false

/-- The columns of the key are columns of its table. -/
def KeyDeclared (ts : List TableSpec) (r : Rule) : Prop :=
  match r.constraint with
  | .primaryKey columns => ∀ column ∈ columns, TableSpec.Declare ts r.table column
  | .unique columns => ∀ column ∈ columns, TableSpec.Declare ts r.table column
  | .foreignKey _ => True

end Rule

/-- The column of the table with the marks that the rules make. -/
def mark (rs : List Rule) (table : String) (c : ColumnSpec) : ColumnSpec :=
  { c with
    isPrimaryKey := c.isPrimaryKey || rs.any (·.marksKey table c.name)
    isUnique := c.isUnique || rs.any (·.marksUnique table c.name) }

theorem keepsNames_mark (rs : List Rule) : TableSpec.KeepsNames (mark rs) := fun _ _ => rfl

theorem mark_append (rs rs' : List Rule) (table : String) (c : ColumnSpec) :
    mark (rs ++ rs') table c = mark rs' table (mark rs table c) := by
  simp only [mark, List.any_append, Bool.or_assoc]

/-- Rules that mark nothing. -/
theorem mapSpecs_mark_eq_self {rs : List Rule}
    (hkey : ∀ r ∈ rs, ∀ table column, r.marksKey table column = false)
    (hunique : ∀ r ∈ rs, ∀ table column, r.marksUnique table column = false) (s : Schema) :
    s.mapSpecs (mark rs) = s := by
  have hmark : mark rs = fun _ c => c := by
    funext table c
    have hkeys : rs.any (·.marksKey table c.name) = false :=
      List.any_eq_false.mpr fun r hr => by simp [hkey r hr]
    have huniques : rs.any (·.marksUnique table c.name) = false :=
      List.any_eq_false.mpr fun r hr => by simp [hunique r hr]
    rw [mark, hkeys, huniques, Bool.or_false, Bool.or_false]
  rw [hmark, Schema.mapSpecs_self]

theorem mark_primaryKey_cons (table column : String) (rest : List String) (table' : String)
    (c : ColumnSpec) :
    mark [⟨table, .primaryKey (column :: rest)⟩] table' c =
      mark [⟨table, .primaryKey rest⟩] table' (mark [⟨table, .primaryKey [column]⟩] table' c) := by
  simp only [mark, Rule.marksKey, Rule.marksUnique, List.any_cons, List.any_nil, Bool.or_false,
    List.contains_cons, List.contains_nil, Bool.and_or_distrib_left, Bool.or_assoc]

theorem modifyColumn_primaryKey {s : Schema} (hids : s.UniqueIds)
    (hnames : TableSpec.Distinct s.specs) {table column : String} {e : Endpoint}
    (he : s.Named table column e) :
    s.modifyColumn e (fun c => { c with isPrimaryKey := true }) =
      s.mapSpecs (mark [⟨table, .primaryKey [column]⟩]) := by
  refine Schema.modifyColumn_eq_mapSpecs hids hnames he (fun c hc => ?_) fun table' c hne => ?_
  · simp [mark, Rule.marksKey, Rule.marksUnique, Column.spec, Column.withSpec, hc]
  · have hoff : (table == table' && c.name == column) = false := by
      rw [Bool.eq_false_iff, ne_eq, Bool.and_eq_true, beq_iff_eq, beq_iff_eq]
      exact fun h => hne ⟨h.1.symm, h.2⟩
    simp only [mark, Rule.marksKey, Rule.marksUnique, List.any_cons, List.any_nil,
      List.contains_cons, List.contains_nil, Bool.or_false, hoff]

theorem modifyColumn_unique {s : Schema} (hids : s.UniqueIds)
    (hnames : TableSpec.Distinct s.specs) {table column : String} {e : Endpoint}
    (he : s.Named table column e) :
    s.modifyColumn e (fun c => { c with isUnique := true }) =
      s.mapSpecs (mark [⟨table, .unique [column]⟩]) := by
  refine Schema.modifyColumn_eq_mapSpecs hids hnames he (fun c hc => ?_) fun table' c hne => ?_
  · simp [mark, Rule.marksKey, Rule.marksUnique, Column.spec, Column.withSpec, hc]
  · have hoff : (table == table' && column == c.name) = false := by
      rw [Bool.eq_false_iff, ne_eq, Bool.and_eq_true, beq_iff_eq, beq_iff_eq]
      exact fun h => hne ⟨h.1.symm, h.2.symm⟩
    simp only [mark, Rule.marksKey, Rule.marksUnique, List.any_cons, List.any_nil, Bool.or_false,
      hoff]

theorem markPrimaryKey_eq_ok {s u : Schema} (hids : s.UniqueIds)
    (hnames : TableSpec.Distinct s.specs) {table : String} {columns : List String} :
    markPrimaryKey s table columns = .ok u ↔
      (∀ column ∈ columns, TableSpec.Declare s.specs table column) ∧
        u = s.mapSpecs (mark [⟨table, .primaryKey columns⟩]) := by
  induction columns generalizing s with
  | nil =>
    rw [markPrimaryKey, Except.ok.injEq, mapSpecs_mark_eq_self]
    · exact ⟨fun h => ⟨by simp, h.symm⟩, fun h => h.2.symm⟩
    · simp [Rule.marksKey]
    · simp [Rule.marksUnique]
  | cons column rest ih =>
    let first : List Rule := [⟨table, .primaryKey [column]⟩]
    have hnames' : TableSpec.Distinct (s.mapSpecs (mark first)).specs := by
      rw [Schema.specs_mapSpecs]
      exact hnames.mapColumns (keepsNames_mark first)
    have hrest := ih (hids.mapSpecs (mark first)) hnames'
    simp only [Schema.specs_mapSpecs, TableSpec.declare_mapColumns_iff (keepsNames_mark first),
      Schema.mapSpecs_mapSpecs, first, ← mark_primaryKey_cons] at hrest
    rw [markPrimaryKey, bind_eq_ok_iff, List.forall_mem_cons, Schema.declare_specs_iff]
    constructor
    · rintro ⟨e, he, h⟩
      rw [Schema.findColumn_eq_ok hnames] at he
      rw [modifyColumn_primaryKey hids hnames he] at h
      exact ⟨⟨⟨e, he⟩, (hrest.mp h).1⟩, (hrest.mp h).2⟩
    · rintro ⟨⟨⟨e, he⟩, hdeclared⟩, hu⟩
      refine ⟨e, (Schema.findColumn_eq_ok hnames).mpr he, ?_⟩
      rw [modifyColumn_primaryKey hids hnames he]
      exact hrest.mpr ⟨hdeclared, hu⟩

theorem markUnique_eq_ok {s u : Schema} (hids : s.UniqueIds)
    (hnames : TableSpec.Distinct s.specs) {table : String} {columns : List String} :
    markUnique s table columns = .ok u ↔
      (∀ column ∈ columns, TableSpec.Declare s.specs table column) ∧
        u = s.mapSpecs (mark [⟨table, .unique columns⟩]) := by
  have hends : (∀ column ∈ columns, TableSpec.Declare s.specs table column) ↔
      ∃ es, columns.mapM (findColumn s table) = .ok es := by
    simp only [Schema.declare_specs_iff, mapM_eq_ok_iff, Schema.findColumn_eq_ok hnames]
    exact exists_forall₂_iff.symm
  rw [hends, markUnique, bind_eq_ok_iff, ← exists_and_right]
  refine exists_congr fun es => and_congr_right fun hes => ?_
  -- Only a single column is marked.
  have hmany : (∀ only, columns ≠ [only]) →
      s.mapSpecs (mark [⟨table, .unique columns⟩]) = s := by
    intro hne
    refine mapSpecs_mark_eq_self (by simp [Rule.marksKey]) ?_ s
    intro r hr table' column
    rw [List.mem_singleton.mp hr]
    unfold Rule.marksUnique
    split
    · next only heq => exact absurd (Constraint.unique.inj heq) (hne only)
    · rfl
  rw [mapM_eq_ok_iff] at hes
  cases hes with
  | nil =>
    rw [hmany (by simp)]
    exact ⟨fun h => by cases h; rfl, fun h => by rw [h]; rfl⟩
  | cons he hrest =>
    cases hrest with
    | nil =>
      rw [← modifyColumn_unique hids hnames ((Schema.findColumn_eq_ok hnames).mp he)]
      exact ⟨fun h => by cases h; rfl, fun h => by rw [h]; rfl⟩
    | cons =>
      rw [hmany (by simp)]
      exact ⟨fun h => by cases h; rfl, fun h => by rw [h]; rfl⟩

theorem applyKey_eq_ok {s u : Schema} (hids : s.UniqueIds) (hnames : TableSpec.Distinct s.specs)
    {d : ConstraintDef} :
    applyKey s d = .ok u ↔ d.rule.KeyDeclared s.specs ∧ u = s.mapSpecs (mark [d.rule]) := by
  obtain ⟨table, constraint, site⟩ := d
  cases constraint with
  | primaryKey columns => exact markPrimaryKey_eq_ok hids hnames
  | unique columns => exact markUnique_eq_ok hids hnames
  | foreignKey key =>
    rw [mapSpecs_mark_eq_self (by simp [ConstraintDef.rule, Rule.marksKey])
      (by simp [ConstraintDef.rule, Rule.marksUnique])]
    simp [applyKey, Rule.KeyDeclared, ConstraintDef.rule, eq_comm]

theorem keyDeclared_mapColumns_iff {g : String → ColumnSpec → ColumnSpec}
    (hg : TableSpec.KeepsNames g) {ts : List TableSpec} {r : Rule} :
    r.KeyDeclared (ts.map (TableSpec.mapColumns g)) ↔ r.KeyDeclared ts := by
  unfold Rule.KeyDeclared
  split <;> simp [TableSpec.declare_mapColumns_iff hg]

/-- Key constraints are applied if their columns are declared, and then they mark columns. -/
theorem applyKeys_eq_ok {s u : Schema} (hids : s.UniqueIds) (hnames : TableSpec.Distinct s.specs)
    {ds : List ConstraintDef} :
    applyAll applyKey s ds = .ok u ↔
      (∀ d ∈ ds, d.rule.KeyDeclared s.specs) ∧
        u = s.mapSpecs (mark (ds.map ConstraintDef.rule)) := by
  induction ds generalizing s with
  | nil =>
    rw [applyAll, Except.ok.injEq, List.map_nil, mapSpecs_mark_eq_self (by simp) (by simp)]
    exact ⟨fun h => ⟨by simp, h.symm⟩, fun h => h.2.symm⟩
  | cons d rest ih =>
    have hnames' : TableSpec.Distinct (s.mapSpecs (mark [d.rule])).specs := by
      rw [Schema.specs_mapSpecs]
      exact hnames.mapColumns (keepsNames_mark _)
    have hrest := ih (hids.mapSpecs (mark [d.rule])) hnames'
    simp only [Schema.specs_mapSpecs, keyDeclared_mapColumns_iff (keepsNames_mark _),
      Schema.mapSpecs_mapSpecs, ← mark_append, List.singleton_append] at hrest
    rw [List.forall_mem_cons, List.map_cons, applyAll]
    cases hd : applyKey s d with
    | error reference =>
      have hnot : ¬d.rule.KeyDeclared s.specs := by
        intro hdeclared
        rw [(applyKey_eq_ok hids hnames).mpr ⟨hdeclared, rfl⟩] at hd
        cases hd
      simp [hnot]
    | ok v =>
      obtain ⟨hdeclared, rfl⟩ := (applyKey_eq_ok hids hnames).mp hd
      show applyAll applyKey (s.mapSpecs (mark [d.rule])) rest = .ok u ↔ _
      rw [hrest]
      simp [hdeclared]

end Sql
end Schemata
