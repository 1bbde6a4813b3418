/-
The foreign keys of a document.  Each pairs columns with the columns they refer to, by names; the
relations that come of the pairs are numbered on, and their cardinalities depend on the keys of the
tables only.
-/
import Schemata.Proofs.Sql.Keys

namespace Schemata
namespace TableSpec

/-- The primary key of the table of the name. -/
def keyOf (ts : List TableSpec) (name : String) : List String :=
  ((ts.find? (·.name == name)).map primaryKey).getD []

/-- Whether the column is unique or is the whole primary key of its table. -/
def uniqueAlone (ts : List TableSpec) (table column : String) : Bool :=
  ts.any fun t => t.name == table && t.columns.any fun c =>
    c.name == column && (c.isUnique || (c.isPrimaryKey && t.primaryKey.length = 1))

theorem keyOf_eq {ts : List TableSpec} (h : Distinct ts) {t : TableSpec} (ht : t ∈ ts) :
    keyOf ts t.name = t.primaryKey := by
  rw [keyOf, (find?_eq_some_iff_mem h.tables).mpr ⟨ht, rfl⟩]
  rfl

theorem uniqueAlone_eq {ts : List TableSpec} (h : Distinct ts) {t : TableSpec} {c : ColumnSpec}
    (ht : t ∈ ts) (hc : c ∈ t.columns) :
    uniqueAlone ts t.name c.name =
      (c.isUnique || (c.isPrimaryKey && decide (t.primaryKey.length = 1))) := by
  rw [Bool.eq_iff_iff, uniqueAlone, List.any_eq_true]
  constructor
  · rintro ⟨t', ht', hfound⟩
    rw [Bool.and_eq_true, beq_iff_eq, List.any_eq_true] at hfound
    obtain ⟨hname, c', hc', hfound⟩ := hfound
    rw [Bool.and_eq_true, beq_iff_eq] at hfound
    rw [List.inj_on_of_nodup_map h.tables ht' ht hname] at hc' hfound
    rw [List.inj_on_of_nodup_map (h.columns t ht) hc' hc hfound.1] at hfound
    exact hfound.2
  · intro hunique
    refine ⟨t, ht, ?_⟩
    rw [Bool.and_eq_true, List.any_eq_true]
    exact ⟨beq_self_eq_true _, c, hc, by rw [hunique, beq_self_eq_true, Bool.and_self]⟩

theorem declare_of_mem_primaryKey {ts : List TableSpec} {t : TableSpec} (ht : t ∈ ts)
    {column : String} (h : column ∈ t.primaryKey) : Declare ts t.name column := by
  obtain ⟨c, hc, hname⟩ := List.mem_map.mp h
  exact ⟨t, ht, rfl, c, List.mem_of_mem_filter hc, hname⟩

end TableSpec

theorem primaryKey_spec (t : Table) : t.spec.primaryKey = t.primaryKey.map (·.name) := by
  simp [TableSpec.primaryKey, Table.spec, Table.primaryKey, List.filter_map, Function.comp_def,
    Column.spec]

theorem keyOf_specs {s : Schema} (hnames : TableSpec.Distinct s.specs) {t : Table}
    (ht : t ∈ s.tables) : TableSpec.keyOf s.specs t.name = t.primaryKey.map (·.name) := by
  rw [← primaryKey_spec]
  exact TableSpec.keyOf_eq hnames (List.mem_map_of_mem ht)

namespace Sql

/-- A column that refers to another column, by the names of their tables and their own. -/
structure Link where
  holder : String
  column : String
  table : String
  target : String
  deriving DecidableEq, Repr

namespace Link

def Declared (ts : List TableSpec) (l : Link) : Prop :=
  TableSpec.Declare ts l.holder l.column ∧ TableSpec.Declare ts l.table l.target

/-- The cardinality of the relation that comes of the link. -/
def cardinality (inferOneToOne : Bool) (ts : List TableSpec) (l : Link) : Cardinality :=
  if inferOneToOne && TableSpec.uniqueAlone ts l.holder l.column then .oneToOne else .oneToMany

/-- The ends of the join are the columns of the link. -/
def Ends (s : Schema) (l : Link) (source target : Endpoint) : Prop :=
  s.Named l.table l.target source ∧ s.Named l.holder l.column target

end Link

namespace ForeignKey

/-- The names of the columns that the foreign key refers to. -/
def targetsIn (ts : List TableSpec) (key : ForeignKey) : List String :=
  if key.targets.isEmpty then TableSpec.keyOf ts key.table else key.targets

/-- Without targets, a primary key of as many columns has to be there. -/
def Paired (ts : List TableSpec) (key : ForeignKey) : Prop :=
  key.targets = [] →
    ∃ t ∈ ts, t.name = key.table ∧ t.primaryKey.length = key.columns.length

def links (ts : List TableSpec) (holder : String) (key : ForeignKey) : List Link :=
  (key.columns.zip (key.targetsIn ts)).map fun (column, target) =>
    ⟨holder, column, key.table, target⟩

end ForeignKey

namespace Rule

def links (ts : List TableSpec) (r : Rule) : List Link :=
  match r.constraint with
  | .foreignKey key => key.links ts r.table
  | _ => []

def Paired (ts : List TableSpec) (r : Rule) : Prop :=
  match r.constraint with
  | .foreignKey key => key.Paired ts
  | _ => True

end Rule

/-! ## Pairs of columns -/

theorem targetNames_eq_ok {s : Schema} (hnames : TableSpec.Distinct s.specs) {key : ForeignKey}
    {names : List String} :
    targetNames s key = .ok names ↔ key.Paired s.specs ∧ names = key.targetsIn s.specs := by
  unfold targetNames ForeignKey.Paired ForeignKey.targetsIn
  by_cases hempty : key.targets.isEmpty
  · have hnil : key.targets = [] := List.isEmpty_iff.mp hempty
    rw [if_pos hempty, if_pos hempty, bind_eq_ok_iff]
    constructor
    · rintro ⟨t, ht, hok⟩
      obtain ⟨htmem, htname⟩ := (Schema.findTable_eq_ok hnames).mp ht
      rw [← htname, keyOf_specs hnames htmem]
      dsimp only at hok
      split at hok
      · next hlen =>
        cases hok
        refine ⟨fun _ => ⟨t.spec, List.mem_map_of_mem htmem, rfl, ?_⟩, rfl⟩
        rw [primaryKey_spec, hlen]
      · cases hok
    · rintro ⟨hex, rfl⟩
      obtain ⟨t', ht', hname, hlen⟩ := hex hnil
      obtain ⟨t, ht, rfl⟩ := List.mem_map.mp ht'
      refine ⟨t, (Schema.findTable_eq_ok hnames).mpr ⟨ht, hname⟩, ?_⟩
      rw [primaryKey_spec] at hlen
      rw [if_pos hlen, ← hname]
      exact congrArg Except.ok (keyOf_specs hnames ht).symm
  · have hne : key.targets ≠ [] := fun h => hempty (by rw [h]; rfl)
    rw [if_neg hempty, if_neg hempty, Except.ok.injEq]
    exact ⟨fun h => ⟨fun hnil => absurd hnil hne, h.symm⟩, fun h => h.2.symm⟩

theorem findPairs_eq_ok {s : Schema} (hnames : TableSpec.Distinct s.specs) {holder : String}
    {key : ForeignKey} {pairs : List (Endpoint × Endpoint)} :
    findPairs s holder key = .ok pairs ↔
      key.Paired s.specs ∧
        List.Forall₂ (fun l p => Link.Ends s l p.2 p.1) (key.links s.specs holder) pairs := by
  have hpair : ∀ (column target : String) (p : Endpoint × Endpoint),
      (do
        let referring ← findColumn s holder column
        let referred ← findColumn s key.table target
        return (referring, referred)) = .ok p ↔
      Link.Ends s ⟨holder, column, key.table, target⟩ p.2 p.1 := by
    intro column target p
    simp only [bind_eq_ok_iff, Schema.findColumn_eq_ok hnames]
    constructor
    · rintro ⟨e, he, e', he', h⟩
      cases h
      exact ⟨he', he⟩
    · rintro ⟨he', he⟩
      exact ⟨p.1, he, p.2, he', rfl⟩
  rw [findPairs, bind_eq_ok_iff]
  simp only [targetNames_eq_ok hnames, mapM_eq_ok_iff, ForeignKey.links,
    List.forall₂_map_left_iff, hpair]
  constructor
  · rintro ⟨names, ⟨hpaired, rfl⟩, hends⟩
    exact ⟨hpaired, hends⟩
  · rintro ⟨hpaired, hends⟩
    exact ⟨_, ⟨hpaired, rfl⟩, hends⟩

/-! ## Cardinalities -/

theorem isUniqueAlone_of_mem {s : Schema} (hids : s.UniqueIds) {t : Table} {c : Column}
    (ht : t ∈ s.tables) (hc : c ∈ t.columns) :
    isUniqueAlone s ⟨t.id, c.id⟩ =
      (c.isUnique || (c.isPrimaryKey && decide (t.primaryKey.length = 1))) := by
  have htable : s.table? t.id = some t := (find?_eq_some_iff_mem hids.tables).mpr ⟨ht, rfl⟩
  have hcolumn : t.column? c.id = some c :=
    (find?_eq_some_iff_mem (hids.columns t ht)).mpr ⟨hc, rfl⟩
  simp only [isUniqueAlone, htable, hcolumn]

/-- Whether a column is unique alone is not a question of notes. -/
theorem isUniqueAlone_mapColumns_note {s : Schema} (h : s.UniqueIds) (p : Endpoint → Bool)
    {e : Endpoint} (he : s.HasEndpoint e) :
    isUniqueAlone (s.mapColumns fun e c => Schema.note (p e) c) e = isUniqueAlone s e := by
  obtain ⟨table, column⟩ := e
  obtain ⟨t, ht, rfl, c, hc, rfl⟩ := he
  rw [isUniqueAlone_of_mem h ht hc]
  refine (isUniqueAlone_of_mem (h.mapColumns (Schema.keepsIds_note p)) (List.mem_map_of_mem ht)
    (List.mem_map_of_mem hc)).trans ?_
  have hlength : ((t.columns.map fun c => Schema.note (p ⟨t.id, c.id⟩) c).filter
      (·.isPrimaryKey)).length = t.primaryKey.length := by
    rw [List.filter_map, List.length_map]
    rfl
  rw [Table.primaryKey, hlength]
  rfl

theorem isUniqueAlone_insertRelation {s : Schema} (h : s.Consistent) {e : Endpoint}
    (he : s.HasEndpoint e) (source target : Endpoint) (cardinality : Cardinality) :
    isUniqueAlone (s.insertRelation source target cardinality).1 e = isUniqueAlone s e := by
  rw [Schema.insertRelation_eq_reconcile h]
  exact isUniqueAlone_mapColumns_note h.linked.toUniqueIds _ he

theorem isUniqueAlone_eq {s : Schema} (hids : s.UniqueIds) (hnames : TableSpec.Distinct s.specs)
    {table column : String} {e : Endpoint} (he : s.Named table column e) :
    isUniqueAlone s e = TableSpec.uniqueAlone s.specs table column := by
  obtain ⟨t, ht, rfl, c, hc, rfl, rfl⟩ := he
  have hunique := TableSpec.uniqueAlone_eq hnames (List.mem_map_of_mem (f := Table.spec) ht)
    (List.mem_map_of_mem (f := Column.spec) hc)
  rw [primaryKey_spec, List.length_map] at hunique
  rw [isUniqueAlone_of_mem hids ht hc]
  exact hunique.symm

theorem inferredCardinality_eq {s : Schema} (hids : s.UniqueIds)
    (hnames : TableSpec.Distinct s.specs) {l : Link} {e : Endpoint}
    (he : s.Named l.holder l.column e) (inferOneToOne : Bool) :
    inferredCardinality inferOneToOne s e = l.cardinality inferOneToOne s.specs := by
  rw [inferredCardinality, isUniqueAlone_eq hids hnames he]
  rfl

/-! ## Relations -/

/-- The join joins the columns of the link. -/
def Link.Joins (inferOneToOne : Bool) (ts : List TableSpec) (l : Link) (j : Join) : Prop :=
  l.Ends (Schema.numbered ts []) j.source j.target ∧
    j.cardinality = l.cardinality inferOneToOne ts

theorem ends_numbered_iff {ts : List TableSpec} {js : List Join} {l : Link} {e e' : Endpoint} :
    l.Ends (Schema.numbered ts js) e e' ↔ l.Ends (Schema.numbered ts []) e e' :=
  and_congr Schema.named_numbered_iff Schema.named_numbered_iff

theorem relate_numbered {ts : List TableSpec} (hnames : TableSpec.Distinct ts)
    (inferOneToOne : Bool) {ls : List Link} {pairs : List (Endpoint × Endpoint)}
    (hends : List.Forall₂ (fun l p => Link.Ends (Schema.numbered ts []) l p.2 p.1) ls pairs)
    (js : List Join) :
    ∃ ks, List.Forall₂ (Link.Joins inferOneToOne ts) ls ks ∧
      relate inferOneToOne (Schema.numbered ts js) pairs = Schema.numbered ts (js ++ ks) := by
  induction hends generalizing js with
  | nil => exact ⟨[], .nil, by rw [List.append_nil]; rfl⟩
  | @cons l p ls pairs hp _ ih =>
    let j : Join := ⟨p.2, p.1, l.cardinality inferOneToOne ts⟩
    have hspecs := Schema.specs_numbered ts js
    have hcardinality : inferredCardinality inferOneToOne (Schema.numbered ts js) p.1 =
        l.cardinality inferOneToOne ts := by
      rw [inferredCardinality_eq (Schema.uniqueIds_numbered ts js) (by rwa [hspecs])
        (Schema.named_numbered_iff.mp hp.2), hspecs]
    obtain ⟨ks, hks, hrelate⟩ := ih (js ++ [j])
    refine ⟨j :: ks, .cons ⟨hp, rfl⟩ hks, ?_⟩
    have hstep : relate inferOneToOne (Schema.numbered ts js) (p :: pairs) =
        relate inferOneToOne (Schema.numbered ts (js ++ [j])) pairs := by
      rw [← Schema.insertRelation_numbered ts js j]
      show relate inferOneToOne (Schema.insertRelation _ p.2 p.1 _).1 pairs = _
      rw [hcardinality]
    rw [hstep, hrelate, List.append_assoc, List.singleton_append]

theorem joins_unique {ts : List TableSpec} (hnames : TableSpec.Distinct ts) {inferOneToOne : Bool}
    {l : Link} {j k : Join} (hj : l.Joins inferOneToOne ts j) (hk : l.Joins inferOneToOne ts k) :
    j = k := by
  have hspecs : TableSpec.Distinct (Schema.numbered ts []).specs := by
    rwa [Schema.specs_numbered]
  obtain ⟨source, target, cardinality⟩ := j
  obtain ⟨⟨hsource, htarget⟩, rfl⟩ := hj
  obtain ⟨source', target', cardinality'⟩ := k
  obtain ⟨⟨hsource', htarget'⟩, rfl⟩ := hk
  rw [Join.mk.injEq]
  exact ⟨hsource.endpoint_unique hspecs hsource', htarget.endpoint_unique hspecs htarget', rfl⟩

theorem forall₂_joins_unique {ts : List TableSpec} (hnames : TableSpec.Distinct ts)
    {inferOneToOne : Bool} {ls : List Link} {js ks : List Join}
    (hjs : List.Forall₂ (Link.Joins inferOneToOne ts) ls js)
    (hks : List.Forall₂ (Link.Joins inferOneToOne ts) ls ks) : js = ks := by
  have hunique : Relator.RightUnique (Link.Joins inferOneToOne ts) :=
    fun _ _ _ hj hk => joins_unique hnames hj hk
  exact List.right_unique_forall₂' hunique hjs hks

/-- Links between columns that are declared can be joined. -/
theorem exists_joins_iff {ts : List TableSpec} {inferOneToOne : Bool} {ls : List Link} :
    (∃ js, List.Forall₂ (Link.Joins inferOneToOne ts) ls js) ↔ ∀ l ∈ ls, l.Declared ts := by
  rw [exists_forall₂_iff]
  refine forall₂_congr fun l _ => ?_
  have hdeclared : l.Declared ts ↔
      (∃ e, (Schema.numbered ts []).Named l.holder l.column e) ∧
        ∃ e, (Schema.numbered ts []).Named l.table l.target e := by
    rw [← Schema.declare_specs_iff, ← Schema.declare_specs_iff, Schema.specs_numbered]
    rfl
  rw [hdeclared]
  constructor
  · rintro ⟨j, ⟨hsource, htarget⟩, -⟩
    exact ⟨⟨_, htarget⟩, _, hsource⟩
  · rintro ⟨⟨e, he⟩, e', he'⟩
    exact ⟨⟨e', e, l.cardinality inferOneToOne ts⟩, ⟨he', he⟩, rfl⟩

theorem applyForeignKey_eq_ok {ts : List TableSpec} (hnames : TableSpec.Distinct ts)
    {inferOneToOne : Bool} {js : List Join} {d : ConstraintDef} {u : Schema} :
    applyForeignKey inferOneToOne (Schema.numbered ts js) d = .ok u ↔
      d.rule.Paired ts ∧ ∃ ks, List.Forall₂ (Link.Joins inferOneToOne ts) (d.rule.links ts) ks ∧
        u = Schema.numbered ts (js ++ ks) := by
  obtain ⟨table, constraint, site⟩ := d
  have hnone : applyForeignKey inferOneToOne (Schema.numbered ts js) ⟨table, constraint, site⟩ =
      .ok (Schema.numbered ts js) →
      (applyForeignKey inferOneToOne (Schema.numbered ts js) ⟨table, constraint, site⟩ = .ok u ↔
        True ∧ ∃ ks, List.Forall₂ (Link.Joins inferOneToOne ts) [] ks ∧
          u = Schema.numbered ts (js ++ ks)) := by
    intro hsame
    simp [hsame, eq_comm]
  cases constraint with
  | primaryKey columns => exact hnone rfl
  | unique columns => exact hnone rfl
  | foreignKey key =>
    show (findPairs (Schema.numbered ts js) table key >>= _) = .ok u ↔
      key.Paired ts ∧ ∃ ks, List.Forall₂ (Link.Joins inferOneToOne ts) (key.links ts table) ks ∧ _
    have hspecs := Schema.specs_numbered ts js
    simp only [bind_eq_ok_iff, findPairs_eq_ok (show TableSpec.Distinct
      (Schema.numbered ts js).specs by rwa [hspecs]), hspecs, ends_numbered_iff]
    constructor
    · rintro ⟨pairs, ⟨hpaired, hends⟩, hok⟩
      obtain ⟨ks, hks, hrelate⟩ := relate_numbered hnames inferOneToOne hends js
      cases hok
      exact ⟨hpaired, ks, hks, hrelate⟩
    · rintro ⟨hpaired, ks, hks, rfl⟩
      have hends : List.Forall₂ (fun l p => Link.Ends (Schema.numbered ts []) l p.2 p.1)
          (key.links ts table) (ks.map fun k => (k.target, k.source)) :=
        List.forall₂_map_right_iff.mpr (hks.imp fun l k h => h.1)
      obtain ⟨ks', hks', hrelate⟩ := relate_numbered hnames inferOneToOne hends js
      refine ⟨_, ⟨hpaired, hends⟩, ?_⟩
      rw [show ks = ks' from forall₂_joins_unique hnames hks hks'] at hrelate ⊢
      rw [← hrelate]
      rfl

/-- Foreign keys are applied if the columns they pair are there, and then they add relations. -/
theorem applyForeignKeys_eq_ok {ts : List TableSpec} (hnames : TableSpec.Distinct ts)
    {inferOneToOne : Bool} {js : List Join} {ds : List ConstraintDef} {u : Schema} :
    applyAll (applyForeignKey inferOneToOne) (Schema.numbered ts js) ds = .ok u ↔
      (∀ d ∈ ds, d.rule.Paired ts) ∧
        ∃ ks, List.Forall₂ (Link.Joins inferOneToOne ts) (ds.flatMap (·.rule.links ts)) ks ∧
          u = Schema.numbered ts (js ++ ks) := by
  induction ds generalizing js with
  | nil => simp [applyAll, eq_comm]
  | cons d rest ih =>
    rw [List.forall_mem_cons, List.flatMap_cons, applyAll]
    cases hd : applyForeignKey inferOneToOne (Schema.numbered ts js) d with
    | error reference =>
      constructor
      · intro h
        cases h
      · rintro ⟨⟨hpaired, -⟩, w, hw, -⟩
        obtain ⟨ks, ks', hks, -, -⟩ := exists_append_of_forall₂ hw
        rw [(applyForeignKey_eq_ok hnames).mpr ⟨hpaired, ks, hks, rfl⟩] at hd
        cases hd
    | ok v =>
      obtain ⟨hpaired, ks, hks, rfl⟩ := (applyForeignKey_eq_ok hnames).mp hd
      show applyAll _ (Schema.numbered ts (js ++ ks)) rest = .ok u ↔ _
      rw [ih]
      constructor
      · rintro ⟨hrest, ks', hks', rfl⟩
        refine ⟨⟨hpaired, hrest⟩, ks ++ ks', ?_, by rw [List.append_assoc]⟩
        exact List.rel_append hks hks'
      · rintro ⟨⟨-, hrest⟩, w, hw, rfl⟩
        obtain ⟨ks₁, ks', hks₁, hks', rfl⟩ := exists_append_of_forall₂ hw
        rw [forall₂_joins_unique hnames hks₁ hks]
        exact ⟨hrest, ks', hks', by rw [List.append_assoc]⟩

/-! ## Schemas and their links -/

/-- The relations of the schema are those of the links, in order. -/
def LinkedBy (s : Schema) (ls : List Link) : Prop :=
  List.Forall₂ (fun l r => Link.Ends s l r.source r.target) ls s.relations

theorem linkedBy_numbered {ts : List TableSpec} {inferOneToOne : Bool} {ls : List Link}
    {js : List Join} (h : List.Forall₂ (Link.Joins inferOneToOne ts) ls js) :
    LinkedBy (Schema.numbered ts js) ls := by
  refine forall₂_numberFrom (f := Join.numbered) (fun k l j hj => ?_) h _
  exact ends_numbered_iff.mpr hj.1

theorem consistent_of_joins {ts : List TableSpec} {inferOneToOne : Bool} {ls : List Link}
    {js : List Join} (h : List.Forall₂ (Link.Joins inferOneToOne ts) ls js) :
    (Schema.numbered ts js).Consistent := by
  refine Schema.consistent_numbered fun j hj => ?_
  obtain ⟨l, -, hends, -⟩ := exists_left_of_forall₂ h j hj
  exact ⟨hends.1.hasEndpoint, hends.2.hasEndpoint⟩

/-- A column is a foreign key if it is the column of a link. -/
theorem isForeignKey_iff_link {s : Schema} (hids : s.UniqueIds)
    (hnames : TableSpec.Distinct s.specs) {ls : List Link} (hlinks : LinkedBy s ls) {t : Table}
    {c : Column} (ht : t ∈ s.tables) (hc : c ∈ t.columns) :
    s.isForeignKey ⟨t.id, c.id⟩ = true ↔ ∃ l ∈ ls, l.holder = t.name ∧ l.column = c.name := by
  have hnamed : s.Named t.name c.name ⟨t.id, c.id⟩ := ⟨t, ht, rfl, c, hc, rfl, rfl⟩
  rw [Schema.isForeignKey_iff]
  unfold LinkedBy at hlinks
  generalize s.relations = rs at hlinks
  induction hlinks with
  | nil => simp
  | @cons l r ls rs hends _ ih =>
    rw [List.exists_mem_cons_iff, List.exists_mem_cons_iff]
    refine or_congr ⟨fun h => ?_, fun h => ?_⟩ ih
    · have htarget := hends.2
      rw [h] at htarget
      exact htarget.names_unique hids hnamed
    · have htarget := hends.2
      rw [h.1, h.2] at htarget
      exact htarget.endpoint_unique hnames hnamed

end Sql
end Schemata
