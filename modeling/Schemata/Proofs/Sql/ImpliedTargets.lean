/-
Foreign keys without targets.  Such a key refers to the primary key of its table, and the columns of
a primary key are marked but not listed, so they are taken in the order in which the table declares
them.  Spelling them out in that order changes nothing, wherever it is done; spelling them out in
the order in which the primary key lists them does, unless that is the same order.
-/
import Schemata.Proofs.Sql.ImportedNames

namespace Schemata
namespace Sql

/-- The columns of the table that are listed, in the order in which the table declares them. -/
def TableDef.inOrder (t : TableDef) (columns : List String) : List String :=
  (t.columns.map (·.name)).filter columns.contains

theorem filter_contains_eq_self {xs ys : List String} (h : xs.Sublist ys) (hnodup : ys.Nodup) :
    ys.filter xs.contains = xs := by
  have hself : xs.filter xs.contains = xs :=
    List.filter_eq_self.mpr fun x hx => List.contains_iff_mem.mpr hx
  have hsub : xs.Sublist (ys.filter xs.contains) := by
    have hfilter := h.filter xs.contains
    rwa [hself] at hfilter
  have hmem : ys.filter xs.contains ⊆ xs := by
    intro x hx
    exact List.contains_iff_mem.mp (List.mem_filter.mp hx).2
  have hsubperm := List.subperm_of_subset (hnodup.filter _) hmem
  exact (hsub.eq_of_length_le hsubperm.length_le).symm

theorem bind_congr_of_ok {x : Except ε α} {f g : α → Except ε β}
    (h : ∀ a, x = .ok a → f a = g a) : x >>= f = x >>= g := by
  cases x with
  | error e => rfl
  | ok a => exact h a rfl

/-- The primary keys that constraints give to the table. -/
def Document.keysOf (d : Document) (table : String) : List (List String) :=
  d.constraints.filterMap fun c =>
    match c.constraint with
    | .primaryKey columns => if c.table = table then some columns else none
    | _ => none

/-- The constraint as it is, or with the columns of a primary key of the table as the targets of a
foreign key that has none. -/
inductive Spelled (t : TableDef) (columns : List String) : ConstraintDef → ConstraintDef → Prop
  | same (d : ConstraintDef) : Spelled t columns d d
  | spelled {d : ConstraintDef} {key : ForeignKey} (hkey : d.constraint = .foreignKey key)
      (htable : key.table = t.name) (htargets : key.targets = [])
      (hlength : key.columns.length = columns.length) :
      Spelled t columns d
        { d with constraint := .foreignKey { key with targets := t.inOrder columns } }

namespace Spelled

variable {t : TableDef} {columns : List String}

theorem site {d e : ConstraintDef} (h : Spelled t columns d e) : e.site = d.site := by
  cases h <;> rfl

theorem isForeignKey {d e : ConstraintDef} (h : Spelled t columns d e) :
    e.constraint.isForeignKey = d.constraint.isForeignKey := by
  cases h with
  | same => rfl
  | spelled hkey => rw [hkey]; rfl

theorem eq_of_not_isForeignKey {d e : ConstraintDef} (h : Spelled t columns d e)
    (hkind : d.constraint.isForeignKey = false) : e = d := by
  cases h with
  | same => rfl
  | spelled hkey => rw [hkey] at hkind; cases hkind

theorem filter_keys {ds es : List ConstraintDef} (h : List.Forall₂ (Spelled t columns) ds es) :
    es.filter (!·.constraint.isForeignKey) = ds.filter (!·.constraint.isForeignKey) := by
  induction h with
  | nil => rfl
  | @cons d e ds es h _ ih =>
    rw [List.filter_cons, List.filter_cons, h.isForeignKey, ih]
    cases hkind : d.constraint.isForeignKey with
    | true => rfl
    | false => rw [h.eq_of_not_isForeignKey hkind]

theorem filter_foreignKeys {ds es : List ConstraintDef}
    (h : List.Forall₂ (Spelled t columns) ds es) :
    List.Forall₂ (Spelled t columns) (ds.filter (·.constraint.isForeignKey))
      (es.filter (·.constraint.isForeignKey)) := by
  refine List.rel_filter (fun d e hd => ?_) h
  show d.constraint.isForeignKey = true ↔ e.constraint.isForeignKey = true
  rw [hd.isForeignKey]

/-! ## Applying foreign keys -/

section

variable {ts : List TableSpec} {inferOneToOne : Bool}

/-- The table is declared, and its primary key is that of the list. -/
def KeyIs (ts : List TableSpec) (t : TableDef) (columns : List String) : Prop :=
  ∃ u ∈ ts, u.name = t.name ∧ u.primaryKey = t.inOrder columns ∧
    u.primaryKey.length = columns.length

theorem targetNames_eq {s : Schema} (hnames : TableSpec.Distinct s.specs)
    (hkey : KeyIs s.specs t columns) {key : ForeignKey} (htable : key.table = t.name)
    (htargets : key.targets = []) (hlength : key.columns.length = columns.length) :
    targetNames s key = .ok (t.inOrder columns) := by
  obtain ⟨u, hu, hname, hprimary, hcount⟩ := hkey
  refine (targetNames_eq_ok hnames).mpr ⟨fun _ => ⟨u, hu, ?_, ?_⟩, ?_⟩
  · rw [hname, htable]
  · rw [hcount, hlength]
  · rw [ForeignKey.targetsIn, if_pos (by rw [htargets]; rfl), htable, ← hname,
      TableSpec.keyOf_eq hnames hu, hprimary]

theorem applyForeignKey_eq {s : Schema} (hnames : TableSpec.Distinct s.specs)
    (hkey : KeyIs s.specs t columns) {d e : ConstraintDef} (h : Spelled t columns d e) :
    applyForeignKey inferOneToOne s e = applyForeignKey inferOneToOne s d := by
  cases h with
  | same => rfl
  | @spelled key hforeign htable htargets hlength =>
    have himplied := targetNames_eq hnames hkey htable htargets hlength
    have hspelled : targetNames s { key with targets := t.inOrder columns } =
        .ok (t.inOrder columns) := by
      cases hlist : t.inOrder columns with
      | nil =>
        obtain ⟨names, table, targets⟩ := key
        rw [← hlist, ← himplied, hlist]
        dsimp only at htargets
        rw [htargets]
      | cons column rest => rfl
    unfold applyForeignKey findPairs
    rw [hforeign]
    simp only [himplied, hspelled]

theorem applyAll_eq (hnames : TableSpec.Distinct ts) (hkey : KeyIs ts t columns)
    {ds es : List ConstraintDef} (h : List.Forall₂ (Spelled t columns) ds es) (js : List Join) :
    applyAll (applyForeignKey inferOneToOne) (Schema.numbered ts js) es =
      applyAll (applyForeignKey inferOneToOne) (Schema.numbered ts js) ds := by
  induction h generalizing js with
  | nil => rfl
  | @cons d e ds es h _ ih =>
    have hspecs := Schema.specs_numbered ts js
    rw [applyAll, applyAll, applyForeignKey_eq (by rwa [hspecs]) (by rwa [hspecs]) h]
    cases hd : applyForeignKey inferOneToOne (Schema.numbered ts js) d with
    | error reference =>
      show Except.error (unresolved e reference) = .error (unresolved d reference)
      rw [unresolved, unresolved, h.site]
    | ok v =>
      obtain ⟨-, ks, -, rfl⟩ := (applyForeignKey_eq_ok hnames).mp hd
      exact ih (js ++ ks)

end

end Spelled

/-! ## Documents -/

namespace Document

theorem exists_rule_of_mem_keysOf {d : Document} {table : String} {columns : List String}
    (h : columns ∈ d.keysOf table) :
    ∃ c ∈ d.constraints, c.rule = ⟨table, .primaryKey columns⟩ := by
  obtain ⟨c, hc, hlist⟩ := List.mem_filterMap.mp h
  obtain ⟨name, constraint, site⟩ := c
  refine ⟨_, hc, ?_⟩
  cases constraint with
  | primaryKey listed =>
    have hlist : (if name = table then some listed else none) = some columns := hlist
    by_cases hname : name = table
    · rw [if_pos hname] at hlist
      cases hlist
      rw [ConstraintDef.rule, hname]
    · rw [if_neg hname] at hlist
      cases hlist
  | unique listed => cases hlist
  | foreignKey key => cases hlist

/-- The column is marked as a key by the primary keys that list it. -/
theorem any_marksKey (d : Document) (table column : String) :
    d.rules.any (·.marksKey table column) = (d.keysOf table).any (·.contains column) := by
  unfold rules keysOf
  induction d.constraints with
  | nil => rfl
  | cons c rest ih =>
    rw [List.map_cons, List.any_cons, ih]
    obtain ⟨name, constraint, site⟩ := c
    cases constraint with
    | primaryKey columns =>
      by_cases hname : name = table
      · simp [Rule.marksKey, ConstraintDef.rule, hname]
      · simp [Rule.marksKey, ConstraintDef.rule, hname]
    | unique columns => rfl
    | foreignKey key => rfl

section

variable {d : Document} {t : TableDef} {columns : List String}

/-- A table without marks of its own has the key of the only constraint that gives it one. -/
theorem primaryKey_marked (hinline : ∀ c ∈ t.columns, c.isPrimaryKey = false)
    (hkeys : d.keysOf t.name = [columns]) :
    (TableSpec.mapColumns (mark d.rules) t.spec).primaryKey = t.inOrder columns := by
  have hmark : ∀ c ∈ t.columns,
      (mark d.rules t.name c.spec).isPrimaryKey = columns.contains c.name := by
    intro c hc
    show (c.isPrimaryKey || d.rules.any (·.marksKey t.name c.name)) = columns.contains c.name
    rw [hinline c hc, any_marksKey, hkeys]
    simp
  show (((t.columns.map ColumnDef.spec).map (mark d.rules t.name)).filter (·.isPrimaryKey)).map
    (·.name) = (t.columns.map (·.name)).filter columns.contains
  rw [List.map_map, List.filter_map, List.map_map, List.filter_map]
  exact congrArg (List.map _) (List.filter_congr hmark)

theorem keyIs_marked (hnames : TableSpec.Distinct d.specs) (ht : t ∈ d.tables)
    (hinline : ∀ c ∈ t.columns, c.isPrimaryKey = false) (hkeys : d.keysOf t.name = [columns])
    (hnodup : columns.Nodup) (hdeclared : ∀ c ∈ columns, TableSpec.Declare d.specs t.name c) :
    Spelled.KeyIs d.marked t columns := by
  have hspec : t.spec ∈ d.specs := List.mem_map_of_mem ht
  have hprimary := primaryKey_marked hinline hkeys
  refine ⟨_, List.mem_map_of_mem hspec, rfl, hprimary, ?_⟩
  rw [hprimary]
  have hall : (t.columns.map (·.name)).Nodup := by
    have hspecs := hnames.columns t.spec hspec
    rwa [TableDef.spec, List.map_map] at hspecs
  have hperm : (t.inOrder columns).Perm columns := by
    have hordered : (t.inOrder columns).Nodup := hall.filter _
    refine (List.perm_ext_iff_of_nodup hordered hnodup).mpr fun name => ?_
    rw [TableDef.inOrder, List.mem_filter, List.contains_iff_mem]
    refine ⟨fun h => h.2, fun h => ⟨?_, h⟩⟩
    obtain ⟨u, hu, huname, c, hc, rfl⟩ := hdeclared name h
    rw [List.inj_on_of_nodup_map hnames.tables hu hspec huname] at hc
    obtain ⟨c', hc', rfl⟩ := List.mem_map.mp hc
    exact List.mem_map_of_mem hc'
  exact hperm.length_eq

/-- A foreign key without targets means the primary key of its table, in the order in which the
table declares the columns; and that is how the primary key lists them if it lists them in this
order. -/
theorem toSchema_spelled (hcolumns : d.ColumnsDistinct) (ht : t ∈ d.tables)
    (hinline : ∀ c ∈ t.columns, c.isPrimaryKey = false) (hkeys : d.keysOf t.name = [columns])
    (hnodup : columns.Nodup) {constraints : List ConstraintDef}
    (hspelled : List.Forall₂ (Spelled t columns) d.constraints constraints)
    (inferOneToOne : Bool) :
    toSchema inferOneToOne ⟨d.tables, constraints⟩ = d.toSchema inferOneToOne ∧
      (columns.Sublist (t.columns.map (·.name)) → t.inOrder columns = columns) := by
  constructor
  · rw [toSchema, toSchema, Spelled.filter_keys hspelled]
    refine bind_congr_of_ok fun s hs => bind_congr_of_ok fun u hu => ?_
    obtain ⟨htables, rfl⟩ := declareTables_eq_ok.mp hs
    have hnames : TableSpec.Distinct d.specs := ⟨by rwa [names_specs], hcolumns⟩
    obtain ⟨hrules, rfl⟩ := (applyKeys_specs hnames).mp hu
    have hmem : columns ∈ d.keysOf t.name := by
      rw [hkeys]
      exact List.mem_singleton_self columns
    obtain ⟨c, hc, hrule⟩ := exists_rule_of_mem_keysOf hmem
    have hdeclared := hrules c hc
    rw [hrule] at hdeclared
    exact Spelled.applyAll_eq (distinct_marked hnames)
      (keyIs_marked hnames ht hinline hkeys hnodup hdeclared)
      (Spelled.filter_foreignKeys hspelled) []
  · intro hsub
    refine filter_contains_eq_self hsub ?_
    have hall := hcolumns t.spec (List.mem_map_of_mem ht)
    rwa [TableDef.spec, List.map_map] at hall

end

/-! ## A key in another order -/

def reversedKeyStatements : String × String :=
  ("CREATE TABLE k (a INT, b INT, PRIMARY KEY (b, a))",
    "CREATE TABLE r (x INT, y INT, FOREIGN KEY (x, y) REFERENCES k)")

def reversedKeyTable : TableDef :=
  ⟨"k",
    [⟨"a", .integer, false, false, true, ⟨1, 17⟩⟩, ⟨"b", .integer, false, false, true, ⟨1, 24⟩⟩],
    ⟨reversedKeyStatements.1, ⟨1, 1⟩⟩⟩

def reversedKeyHolder : TableDef :=
  ⟨"r",
    [⟨"x", .integer, false, false, true, ⟨1, 68⟩⟩, ⟨"y", .integer, false, false, true, ⟨1, 75⟩⟩],
    ⟨reversedKeyStatements.2, ⟨1, 52⟩⟩⟩

def reversedKeyReference (targets : List String) : ConstraintDef :=
  ⟨"r", .foreignKey ⟨["x", "y"], "k", targets⟩, ⟨reversedKeyStatements.2, ⟨1, 82⟩⟩⟩

/-- The primary key lists its columns in another order than the table. -/
def reversedKey (targets : List String) : Document :=
  ⟨[reversedKeyTable, reversedKeyHolder],
    [⟨"k", .primaryKey ["b", "a"], ⟨reversedKeyStatements.1, ⟨1, 31⟩⟩⟩,
      reversedKeyReference targets]⟩

theorem toSchema_spelled_reversedKey :
    (reversedKey []).ColumnsDistinct ∧ (reversedKey []).keysOf "k" = [["b", "a"]] ∧
      toSchema true (reversedKey ["a", "b"]) = toSchema true (reversedKey []) ∧
      (["b", "a"].Sublist ["a", "b"] → reversedKeyTable.inOrder ["b", "a"] = ["b", "a"]) := by
  have hcolumns : (reversedKey []).ColumnsDistinct := by
    unfold ColumnsDistinct
    decide
  have hreference : Spelled reversedKeyTable ["b", "a"] (reversedKeyReference [])
      (reversedKeyReference ["a", "b"]) :=
    @Spelled.spelled _ _ (reversedKeyReference []) ⟨["x", "y"], "k", []⟩ rfl rfl rfl rfl
  have hspelled : List.Forall₂ (Spelled reversedKeyTable ["b", "a"]) (reversedKey []).constraints
      (reversedKey ["a", "b"]).constraints := .cons (.same _) (.cons hreference .nil)
  exact ⟨hcolumns, rfl, toSchema_spelled hcolumns (List.mem_cons_self ..) (by decide) rfl
    (by decide) hspelled true⟩

def reversedKeySchema (first second : String) : Schema :=
  ⟨[⟨⟨"t1"⟩, "k", [⟨⟨"c2"⟩, "a", .integer, true, false, false, true⟩,
      ⟨⟨"c3"⟩, "b", .integer, true, false, false, true⟩]⟩,
    ⟨⟨"t4"⟩, "r", [⟨⟨"c5"⟩, "x", .integer, false, true, false, true⟩,
      ⟨⟨"c6"⟩, "y", .integer, false, true, false, true⟩]⟩],
   [⟨⟨"r7"⟩, ⟨⟨"t1"⟩, ⟨first⟩⟩, ⟨⟨"t4"⟩, ⟨"c5"⟩⟩, .oneToMany⟩,
    ⟨⟨"r8"⟩, ⟨⟨"t1"⟩, ⟨second⟩⟩, ⟨⟨"t4"⟩, ⟨"c6"⟩⟩, .oneToMany⟩], 8⟩

/-- The order in which the primary key lists its columns is lost. -/
theorem toSchema_reversedKey :
    ofScript (reversedKeyStatements.1 ++ "; " ++ reversedKeyStatements.2) .auto =
        .ok (reversedKey []) ∧
      (reversedKey []).keysOf "k" = [["b", "a"]] ∧
      (reversedKey []).toSchema false = .ok (reversedKeySchema "c2" "c3") ∧
      (reversedKey ["b", "a"]).toSchema false = .ok (reversedKeySchema "c3" "c2") := by
  refine ⟨?_, rfl, ?_, ?_⟩
  · decide +kernel
  · decide +kernel
  · decide +kernel

end Document
end Sql
end Schemata
