/-
What a document resolves to.  A document is resolved if its tables differ in name and all names in
its constraints are declared, wherever they stand; the schema then has the declared tables with all
marks of keys, and a relation for every pair of columns that a foreign key makes.
-/
import Schemata.Proofs.Sql.ForeignKeys

namespace Schemata
namespace Sql
namespace Document

def specs (d : Document) : List TableSpec := d.tables.map TableDef.spec

def rules (d : Document) : List Rule := d.constraints.map ConstraintDef.rule

theorem names_specs (d : Document) : d.specs.map (·.name) = d.tables.map (·.name) := by
  rw [specs, List.map_map]
  rfl

theorem specs_append (a b : Document) : (a ++ b).specs = a.specs ++ b.specs := List.map_append ..

theorem rules_append (a b : Document) : (a ++ b).rules = a.rules ++ b.rules := List.map_append ..

/-- The tables with the marks of all keys. -/
def marked (d : Document) : List TableSpec := d.specs.map (TableSpec.mapColumns (mark d.rules))

/-- The pairs of columns that the foreign keys make, in order. -/
def links (d : Document) : List Link := d.rules.flatMap (Rule.links d.marked)

theorem mark_filter (ds : List ConstraintDef) :
    mark ((ds.filter (!·.constraint.isForeignKey)).map ConstraintDef.rule) =
      mark (ds.map ConstraintDef.rule) := by
  have hkey : ∀ (d : ConstraintDef) table column,
      (!d.constraint.isForeignKey && d.rule.marksKey table column) =
        d.rule.marksKey table column := by
    rintro ⟨table', constraint, site⟩ table column
    cases constraint <;> rfl
  have hunique : ∀ (d : ConstraintDef) table column,
      (!d.constraint.isForeignKey && d.rule.marksUnique table column) =
        d.rule.marksUnique table column := by
    rintro ⟨table', constraint, site⟩ table column
    cases constraint <;> rfl
  funext table c
  simp only [mark, List.any_map, List.any_filter, Function.comp_def, hkey, hunique]

theorem forall_filter_keyDeclared {ds : List ConstraintDef} {ts : List TableSpec} :
    (∀ d ∈ ds.filter (!·.constraint.isForeignKey), d.rule.KeyDeclared ts) ↔
      ∀ d ∈ ds, d.rule.KeyDeclared ts := by
  refine ⟨fun h d hd => ?_, fun h d hd => h d (List.mem_of_mem_filter hd)⟩
  cases hkey : d.constraint.isForeignKey with
  | false => exact h d (List.mem_filter.mpr ⟨hd, by rw [hkey]; rfl⟩)
  | true =>
    obtain ⟨table, constraint, site⟩ := d
    cases constraint with
    | primaryKey columns => cases hkey
    | unique columns => cases hkey
    | foreignKey key => exact True.intro

theorem forall_filter_paired {ds : List ConstraintDef} {ts : List TableSpec} :
    (∀ d ∈ ds.filter (·.constraint.isForeignKey), d.rule.Paired ts) ↔
      ∀ d ∈ ds, d.rule.Paired ts := by
  refine ⟨fun h d hd => ?_, fun h d hd => h d (List.mem_of_mem_filter hd)⟩
  cases hkey : d.constraint.isForeignKey with
  | true => exact h d (List.mem_filter.mpr ⟨hd, hkey⟩)
  | false =>
    obtain ⟨table, constraint, site⟩ := d
    cases constraint with
    | primaryKey columns => exact True.intro
    | unique columns => exact True.intro
    | foreignKey key => cases hkey

theorem flatMap_filter_links (ds : List ConstraintDef) (ts : List TableSpec) :
    (ds.filter (·.constraint.isForeignKey)).flatMap (·.rule.links ts) =
      (ds.map ConstraintDef.rule).flatMap (Rule.links ts) := by
  induction ds with
  | nil => rfl
  | cons d rest ih =>
    obtain ⟨table, constraint, site⟩ := d
    cases constraint with
    | primaryKey columns => exact ih
    | unique columns => exact ih
    | foreignKey key => exact congrArg (key.links ts table ++ ·) ih

theorem distinct_marked {d : Document} (h : TableSpec.Distinct d.specs) :
    TableSpec.Distinct d.marked :=
  h.mapColumns (keepsNames_mark d.rules)

/-- Keys are applied if their columns are declared, and then the tables have the marks of all. -/
theorem applyKeys_specs {d : Document} (hnames : TableSpec.Distinct d.specs) {s : Schema} :
    applyAll applyKey (Schema.numbered d.specs [])
        (d.constraints.filter (!·.constraint.isForeignKey)) = .ok s ↔
      (∀ c ∈ d.constraints, c.rule.KeyDeclared d.specs) ∧ s = Schema.numbered d.marked [] := by
  rw [applyKeys_eq_ok (Schema.uniqueIds_numbered _ _) (by rwa [Schema.specs_numbered]),
    Schema.specs_numbered, forall_filter_keyDeclared, mark_filter, Schema.mapSpecs_numbered]
  rfl

/-- Exactly when a document is resolved, and to what. -/
theorem toSchema_eq_ok {d : Document} (hcolumns : ∀ t ∈ d.specs, (t.columns.map (·.name)).Nodup)
    {inferOneToOne : Bool} {s : Schema} :
    d.toSchema inferOneToOne = .ok s ↔
      (d.specs.map (·.name)).Nodup ∧
        (∀ r ∈ d.rules, r.KeyDeclared d.specs ∧ r.Paired d.marked) ∧
        ∃ js, List.Forall₂ (Link.Joins inferOneToOne d.marked) d.links js ∧
          s = Schema.numbered d.marked js := by
  rw [toSchema, bind_eq_ok_iff, names_specs]
  simp only [declareTables_eq_ok]
  constructor
  · rintro ⟨_, ⟨hnodup, rfl⟩, h⟩
    have hnames : TableSpec.Distinct d.specs := ⟨by rwa [names_specs], hcolumns⟩
    obtain ⟨v, hv, h⟩ := ok_of_bind h
    obtain ⟨hkeys, rfl⟩ := (applyKeys_specs hnames).mp hv
    have h' := (applyForeignKeys_eq_ok (distinct_marked hnames)).mp h
    rw [forall_filter_paired, flatMap_filter_links] at h'
    refine ⟨hnodup, fun r hr => ?_, h'.2⟩
    obtain ⟨c, hc, rfl⟩ := List.mem_map.mp hr
    exact ⟨hkeys c hc, h'.1 c hc⟩
  · rintro ⟨hnodup, hrules, hjoins⟩
    have hnames : TableSpec.Distinct d.specs := ⟨by rwa [names_specs], hcolumns⟩
    refine ⟨_, ⟨hnodup, rfl⟩, bind_eq_ok_iff.mpr ⟨Schema.numbered d.marked [], ?_, ?_⟩⟩
    · exact (applyKeys_specs hnames).mpr ⟨fun c hc => (hrules _ (List.mem_map_of_mem hc)).1, rfl⟩
    · rw [applyForeignKeys_eq_ok (distinct_marked hnames), forall_filter_paired,
        flatMap_filter_links]
      exact ⟨fun c hc => (hrules _ (List.mem_map_of_mem hc)).2, hjoins⟩

end Document
end Sql
end Schemata
