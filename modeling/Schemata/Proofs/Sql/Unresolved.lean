/-
What a document fails to resolve to.  Either a table has the name of an earlier one, or a constraint
names what is not declared, or implies a primary key that does not fit.  The tables are all declared
before a name is looked up, so what a constraint misses is missing wherever the constraint stands;
and the constraints that are applied before it miss nothing.
-/
import Schemata.Proofs.Sql.Resolution

namespace Schemata

namespace TableSpec

/-- How the column is missing: with its table, or from it. -/
inductive Lacks (ts : List TableSpec) (table column : String) : Sql.Reference → Prop
  | table (habsent : table ∉ ts.map (·.name)) : Lacks ts table column (.table table)
  | column (htable : table ∈ ts.map (·.name)) (habsent : ¬ Declare ts table column) :
      Lacks ts table column (.column table column)

theorem Lacks.not_declare {ts : List TableSpec} {table column : String} {reference : Sql.Reference}
    (h : Lacks ts table column reference) : ¬ Declare ts table column := by
  cases h with
  | table habsent =>
    rintro ⟨t, ht, rfl, -⟩
    exact habsent (List.mem_map_of_mem ht)
  | column _ habsent => exact habsent

theorem lacks_mapColumns_iff {g : String → ColumnSpec → ColumnSpec} (hg : KeepsNames g)
    {ts : List TableSpec} {table column : String} {reference : Sql.Reference} :
    Lacks (ts.map (mapColumns g)) table column reference ↔ Lacks ts table column reference := by
  constructor
  · rintro (habsent | ⟨htable, habsent⟩)
    · rw [map_name_mapColumns] at habsent
      exact .table habsent
    · rw [map_name_mapColumns] at htable
      rw [declare_mapColumns_iff hg] at habsent
      exact .column htable habsent
  · rintro (habsent | ⟨htable, habsent⟩)
    · exact .table (by rwa [map_name_mapColumns])
    · exact .column (by rwa [map_name_mapColumns]) (by rwa [declare_mapColumns_iff hg])

end TableSpec

namespace Sql

theorem error_of_bind {x : Except ε α} {f : α → Except ε β} {e : ε} (h : (x >>= f) = .error e) :
    x = .error e ∨ ∃ a, x = .ok a ∧ f a = .error e := by
  cases x with
  | error e' =>
    cases h
    exact .inl rfl
  | ok a => exact .inr ⟨a, rfl, h⟩

theorem exists_error_of_mapM {f : α → Except ε β} {xs : List α} {e : ε}
    (h : xs.mapM f = .error e) : ∃ x ∈ xs, f x = .error e := by
  induction xs with
  | nil =>
    rw [List.mapM_nil] at h
    cases h
  | cons x rest ih =>
    rw [List.mapM_cons] at h
    rcases error_of_bind h with hx | ⟨y, -, h⟩
    · exact ⟨x, List.mem_cons_self, hx⟩
    rcases error_of_bind h with hrest | ⟨ys, -, h⟩
    · obtain ⟨x', hx', hfail⟩ := ih hrest
      exact ⟨x', List.mem_cons_of_mem x hx', hfail⟩
    · cases h

/-! ## Names -/

/-- The columns that a rule names, with the names of their tables. -/
def Rule.named (ts : List TableSpec) (r : Rule) : List (String × String) :=
  match r.constraint with
  | .primaryKey columns | .unique columns => columns.map (r.table, ·)
  | .foreignKey key =>
    (key.links ts r.table).flatMap fun l => [(l.holder, l.column), (l.table, l.target)]

/-- The rule cannot be applied to the tables, for want of what the reference describes. -/
inductive Rule.Misses (ts : List TableSpec) (r : Rule) : Reference → Prop
  | named {table column : String} {reference : Reference} (h : (table, column) ∈ r.named ts)
      (hlacks : TableSpec.Lacks ts table column reference) : Misses ts r reference
  | target {key : ForeignKey} (h : r.constraint = .foreignKey key) (htargets : key.targets = [])
      (habsent : key.table ∉ ts.map (·.name)) : Misses ts r (.table key.table)
  | primaryKey {key : ForeignKey} (h : r.constraint = .foreignKey key)
      (htargets : key.targets = []) (htable : key.table ∈ ts.map (·.name))
      (hlength : (TableSpec.keyOf ts key.table).length ≠ key.columns.length) :
      Misses ts r (.primaryKey key.table)

theorem Rule.not_misses {ts : List TableSpec} (hnames : TableSpec.Distinct ts) {r : Rule}
    (hkey : r.KeyDeclared ts) (hpaired : r.Paired ts) (hlinks : ∀ l ∈ r.links ts, l.Declared ts)
    (reference : Reference) : ¬ r.Misses ts reference := by
  obtain ⟨table, constraint⟩ := r
  -- A foreign key without targets implies the primary key of a table that is there.
  have himplied : ∀ {key : ForeignKey}, constraint = .foreignKey key → key.targets = [] →
      key.table ∈ ts.map (·.name) ∧
        (TableSpec.keyOf ts key.table).length = key.columns.length := by
    rintro key rfl htargets
    obtain ⟨t, ht, hname, hlength⟩ := hpaired htargets
    rw [← hname, TableSpec.keyOf_eq hnames ht]
    exact ⟨List.mem_map_of_mem ht, hlength⟩
  intro hmisses
  cases hmisses with
  | @named table' column _ h hlacks =>
    refine hlacks.not_declare ?_
    cases constraint with
    | primaryKey columns | unique columns =>
      obtain ⟨column', hcolumn, heq⟩ := List.mem_map.mp h
      obtain ⟨rfl, rfl⟩ := Prod.mk.inj heq
      exact hkey column' hcolumn
    | foreignKey key =>
      obtain ⟨l, hl, hmem⟩ := List.mem_flatMap.mp h
      obtain ⟨hholder, htarget⟩ := hlinks l hl
      simp only [List.mem_cons, List.not_mem_nil, or_false, Prod.mk.injEq] at hmem
      rcases hmem with ⟨rfl, rfl⟩ | ⟨rfl, rfl⟩
      · exact hholder
      · exact htarget
  | target h htargets habsent => exact habsent (himplied h htargets).1
  | primaryKey h htargets _ hlength => exact hlength (himplied h htargets).2

/-- What a key names and misses does not depend on marks. -/
theorem Rule.misses_mapColumns_iff {g : String → ColumnSpec → ColumnSpec}
    (hg : TableSpec.KeepsNames g) {ts : List TableSpec} {r : Rule}
    (hr : r.constraint.isForeignKey = false) {reference : Reference} :
    r.Misses (ts.map (TableSpec.mapColumns g)) reference ↔ r.Misses ts reference := by
  have hnamed : r.named (ts.map (TableSpec.mapColumns g)) = r.named ts := by
    obtain ⟨table, constraint⟩ := r
    cases constraint with
    | primaryKey columns | unique columns => rfl
    | foreignKey key => cases hr
  constructor
  · rintro (⟨h, hlacks⟩ | ⟨h⟩ | ⟨h⟩)
    · exact .named (hnamed ▸ h) ((TableSpec.lacks_mapColumns_iff hg).mp hlacks)
    all_goals
      rw [h] at hr
      cases hr
  · rintro (⟨h, hlacks⟩ | ⟨h⟩ | ⟨h⟩)
    · exact .named (hnamed ▸ h) ((TableSpec.lacks_mapColumns_iff hg).mpr hlacks)
    all_goals
      rw [h] at hr
      cases hr

theorem Rule.not_misses_of_key {ts : List TableSpec} (hnames : TableSpec.Distinct ts) {r : Rule}
    (hr : r.constraint.isForeignKey = false) (hkey : r.KeyDeclared ts) (reference : Reference) :
    ¬ r.Misses ts reference := by
  obtain ⟨table, constraint⟩ := r
  cases constraint with
  | primaryKey columns | unique columns =>
    exact not_misses hnames hkey True.intro (by simp [links]) reference
  | foreignKey key => cases hr

/-! ## Looking up names -/

section

variable {s : Schema} {reference : Reference}

theorem findTable_eq_error {name : String} (h : findTable s name = .error reference) :
    reference = .table name ∧ name ∉ s.specs.map (·.name) := by
  unfold findTable at h
  split at h
  · cases h
  · next hnone =>
    cases h
    rw [← tableNamed?_isSome_iff, hnone]
    exact ⟨rfl, by simp⟩

theorem lacks_of_findColumn (hnames : TableSpec.Distinct s.specs) {table column : String}
    (h : findColumn s table column = .error reference) :
    TableSpec.Lacks s.specs table column reference := by
  have habsent : ¬ TableSpec.Declare s.specs table column := by
    rw [Schema.declare_specs_iff]
    rintro ⟨e, he⟩
    rw [(Schema.findColumn_eq_ok hnames).mpr he] at h
    cases h
  rcases error_of_bind h with ht | ⟨t, ht, h⟩
  · obtain ⟨rfl, hname⟩ := findTable_eq_error ht
    exact .table hname
  · obtain ⟨htmem, rfl⟩ := (Schema.findTable_eq_ok hnames).mp ht
    split at h
    · cases h
    · cases h
      exact .column (List.mem_map_of_mem (List.mem_map_of_mem htmem)) habsent

theorem lacks_of_markPrimaryKey (hids : s.UniqueIds) (hnames : TableSpec.Distinct s.specs)
    {table : String} {columns : List String}
    (h : markPrimaryKey s table columns = .error reference) :
    ∃ column ∈ columns, TableSpec.Lacks s.specs table column reference := by
  induction columns generalizing s with
  | nil => cases h
  | cons column rest ih =>
    rcases error_of_bind h with he | ⟨e, he, h⟩
    · exact ⟨column, List.mem_cons_self, lacks_of_findColumn hnames he⟩
    · rw [Schema.findColumn_eq_ok hnames] at he
      rw [modifyColumn_primaryKey hids hnames he] at h
      have hkeeps := keepsNames_mark [⟨table, .primaryKey [column]⟩]
      obtain ⟨column', hcolumn, hlacks⟩ := ih (hids.mapSpecs _)
        (by rw [Schema.specs_mapSpecs]; exact hnames.mapColumns hkeeps) h
      rw [Schema.specs_mapSpecs, TableSpec.lacks_mapColumns_iff hkeeps] at hlacks
      exact ⟨column', List.mem_cons_of_mem column hcolumn, hlacks⟩

theorem lacks_of_markUnique (hnames : TableSpec.Distinct s.specs) {table : String}
    {columns : List String} (h : markUnique s table columns = .error reference) :
    ∃ column ∈ columns, TableSpec.Lacks s.specs table column reference := by
  rcases error_of_bind h with hes | ⟨es, -, h⟩
  · obtain ⟨column, hcolumn, hfind⟩ := exists_error_of_mapM hes
    exact ⟨column, hcolumn, lacks_of_findColumn hnames hfind⟩
  · split at h <;> cases h

theorem misses_of_applyKey (hids : s.UniqueIds) (hnames : TableSpec.Distinct s.specs)
    {k : ConstraintDef} (h : applyKey s k = .error reference) :
    k.rule.Misses s.specs reference := by
  obtain ⟨table, constraint, site⟩ := k
  cases constraint with
  | primaryKey columns =>
    obtain ⟨column, hcolumn, hlacks⟩ := lacks_of_markPrimaryKey hids hnames h
    exact .named (List.mem_map_of_mem hcolumn) hlacks
  | unique columns =>
    obtain ⟨column, hcolumn, hlacks⟩ := lacks_of_markUnique hnames h
    exact .named (List.mem_map_of_mem hcolumn) hlacks
  | foreignKey key => cases h

theorem misses_of_findPairs (hnames : TableSpec.Distinct s.specs) {holder : String}
    {key : ForeignKey} (h : findPairs s holder key = .error reference) :
    (Rule.mk holder (.foreignKey key)).Misses s.specs reference := by
  rcases error_of_bind h with htargets | ⟨names, htargets, h⟩
  · unfold targetNames at htargets
    split at htargets
    · next hempty =>
      have hnil : key.targets = [] := List.isEmpty_iff.mp hempty
      rcases error_of_bind htargets with ht | ⟨t, ht, hlength⟩
      · obtain ⟨rfl, habsent⟩ := findTable_eq_error ht
        exact .target rfl hnil habsent
      · obtain ⟨htmem, htname⟩ := (Schema.findTable_eq_ok hnames).mp ht
        dsimp only at hlength
        split at hlength
        · cases hlength
        · next hne =>
          cases hlength
          refine .primaryKey rfl hnil ?_ ?_
          · rw [← htname]
            exact List.mem_map_of_mem (List.mem_map_of_mem htmem)
          · rwa [← htname, keyOf_specs hnames htmem]
    · cases htargets
  · obtain ⟨-, rfl⟩ := (targetNames_eq_ok hnames).mp htargets
    obtain ⟨⟨column, target⟩, hpair, h⟩ := exists_error_of_mapM h
    have hlink : (⟨holder, column, key.table, target⟩ : Link) ∈ key.links s.specs holder :=
      List.mem_map_of_mem hpair
    rcases error_of_bind h with hreferring | ⟨referring, -, h⟩
    · refine .named (List.mem_flatMap.mpr ⟨_, hlink, ?_⟩) (lacks_of_findColumn hnames hreferring)
      simp
    rcases error_of_bind h with hreferred | ⟨referred, -, h⟩
    · refine .named (List.mem_flatMap.mpr ⟨_, hlink, ?_⟩) (lacks_of_findColumn hnames hreferred)
      simp
    · cases h

theorem misses_of_applyForeignKey {ts : List TableSpec} (hnames : TableSpec.Distinct ts)
    {inferOneToOne : Bool} {js : List Join} {k : ConstraintDef}
    (h : applyForeignKey inferOneToOne (Schema.numbered ts js) k = .error reference) :
    k.rule.Misses ts reference := by
  have hspecs := Schema.specs_numbered ts js
  obtain ⟨table, constraint, site⟩ := k
  cases constraint with
  | primaryKey columns | unique columns => cases h
  | foreignKey key =>
    rcases error_of_bind h with hpairs | ⟨pairs, -, h⟩
    · have hmisses := misses_of_findPairs (by rwa [hspecs]) hpairs
      rwa [hspecs] at hmisses
    · cases h

end

/-! ## First failures -/

theorem applyAll_eq_error {step : Schema → ConstraintDef → Except Reference Schema} {s : Schema}
    {ds : List ConstraintDef} {e : ImportError} (h : applyAll step s ds = .error e) :
    ∃ front k back u reference, ds = front ++ k :: back ∧ applyAll step s front = .ok u ∧
      step u k = .error reference ∧ e = unresolved k reference := by
  induction ds generalizing s with
  | nil => cases h
  | cons d rest ih =>
    rw [applyAll] at h
    split at h
    · next reference hd =>
      cases h
      exact ⟨[], d, rest, s, reference, rfl, rfl, hd, rfl⟩
    · next v hd =>
      obtain ⟨front, k, back, u, reference, rfl, hfront, hk, he⟩ := ih h
      refine ⟨d :: front, k, back, u, reference, rfl, ?_, hk, he⟩
      rw [applyAll, hd]
      exact hfront

/-- The first table whose name is used is to blame. -/
theorem declareTables_numbered_eq_error {ts : List TableSpec} {ds : List TableDef}
    {e : ImportError} (h : declareTables (Schema.numbered ts []) ds = .error e)
    (hnodup : (ts.map (·.name)).Nodup) :
    ∃ front d back, ds = front ++ d :: back ∧
      ((ts ++ front.map TableDef.spec).map (·.name)).Nodup ∧
      d.name ∈ (ts ++ front.map TableDef.spec).map (·.name) ∧
      e = .rejected (.malformed (.duplicateTable d.name)) d.site := by
  induction ds generalizing ts with
  | nil => cases h
  | cons d rest ih =>
    rw [declareTables] at h
    by_cases hd : d.name ∈ ts.map (·.name)
    · rw [if_pos (tableNamed?_numbered_isSome_iff.mpr hd)] at h
      cases h
      exact ⟨[], d, rest, rfl, by simpa using hnodup, by simpa using hd, rfl⟩
    · rw [if_neg (mt tableNamed?_numbered_isSome_iff.mp hd), declareTable_numbered] at h
      have hnodup' : ((ts ++ [d.spec]).map (·.name)).Nodup := by
        rw [List.map_append, List.map_singleton, ← List.concat_eq_append]
        exact hnodup.concat hd
      obtain ⟨front, d', back, rfl, hfront, hd', he⟩ := ih h hnodup'
      rw [List.append_assoc, List.singleton_append, ← List.map_cons] at hfront hd'
      exact ⟨d :: front, d', back, rfl, hfront, hd', he⟩

namespace Document

/-- The constraints in the order in which they are applied. -/
def applied (d : Document) : List ConstraintDef :=
  d.constraints.filter (!·.constraint.isForeignKey) ++
    d.constraints.filter (·.constraint.isForeignKey)

/-- The table has the name of an earlier one, and no table before it has. -/
def RepeatsAt (d : Document) (front : List TableDef) (t : TableDef) : Prop :=
  (∃ back, d.tables = front ++ t :: back) ∧ (front.map (·.name)).Nodup ∧
    t.name ∈ front.map (·.name)

/-- The constraint misses what the reference describes, and none that is applied before it misses
anything. -/
def MissesAt (d : Document) (k : ConstraintDef) (reference : Reference) : Prop :=
  ∃ front back, d.applied = front ++ k :: back ∧
    (∀ c ∈ front, ∀ other, ¬ c.rule.Misses d.marked other) ∧ k.rule.Misses d.marked reference

theorem missesAt_of_keys {d : Document} (hnames : TableSpec.Distinct d.specs) {e : ImportError}
    (h : applyAll applyKey (Schema.numbered d.specs [])
      (d.constraints.filter (!·.constraint.isForeignKey)) = .error e) :
    ∃ k reference, d.MissesAt k reference ∧ e = unresolved k reference := by
  have hids := Schema.uniqueIds_numbered d.specs []
  have hspecs := Schema.specs_numbered d.specs []
  have hmark := keepsNames_mark d.rules
  obtain ⟨front, k, back, u, reference, hsplit, hfront, hk, he⟩ := applyAll_eq_error h
  have hkeys : ∀ c ∈ front ++ k :: back, c.constraint.isForeignKey = false := by
    intro c hc
    rw [← hsplit] at hc
    simpa using (List.mem_filter.mp hc).2
  obtain ⟨hdeclared, rfl⟩ := (applyKeys_eq_ok hids (by rwa [hspecs])).mp hfront
  refine ⟨k, reference, ⟨front, back ++ d.constraints.filter (·.constraint.isForeignKey), ?_,
    fun c hc => ?_, ?_⟩, he⟩
  · rw [applied, hsplit, List.append_assoc, List.cons_append]
  · have hc' := hdeclared c hc
    rw [hspecs] at hc'
    exact Rule.not_misses_of_key (distinct_marked hnames)
      (hkeys c (List.mem_append_left _ hc)) ((keyDeclared_mapColumns_iff hmark).mpr hc')
  · have hfronts := keepsNames_mark (front.map ConstraintDef.rule)
    have hkey := hkeys k (List.mem_append_right _ List.mem_cons_self)
    have hmisses := misses_of_applyKey (hids.mapSpecs _)
      (by rw [Schema.specs_mapSpecs, hspecs]; exact hnames.mapColumns hfronts) hk
    rw [Schema.specs_mapSpecs, hspecs, Rule.misses_mapColumns_iff hfronts hkey] at hmisses
    exact (Rule.misses_mapColumns_iff hmark hkey).mpr hmisses

theorem missesAt_of_foreignKeys {d : Document} (hnames : TableSpec.Distinct d.specs)
    (hdeclared : ∀ c ∈ d.constraints, c.rule.KeyDeclared d.specs) {inferOneToOne : Bool}
    {e : ImportError}
    (h : applyAll (applyForeignKey inferOneToOne) (Schema.numbered d.marked [])
      (d.constraints.filter (·.constraint.isForeignKey)) = .error e) :
    ∃ k reference, d.MissesAt k reference ∧ e = unresolved k reference := by
  have hmarked := distinct_marked hnames
  obtain ⟨front, k, back, u, reference, hsplit, hfront, hk, he⟩ := applyAll_eq_error h
  obtain ⟨hpaired, ks, hjoins, rfl⟩ := (applyForeignKeys_eq_ok hmarked).mp hfront
  have hlinks := exists_joins_iff.mp ⟨ks, hjoins⟩
  have hkeyDeclared : ∀ c ∈ d.constraints, c.rule.KeyDeclared d.marked := fun c hc =>
    (keyDeclared_mapColumns_iff (keepsNames_mark d.rules)).mpr (hdeclared c hc)
  refine ⟨k, reference, ⟨d.constraints.filter (!·.constraint.isForeignKey) ++ front, back, ?_,
    fun c hc => ?_, misses_of_applyForeignKey hmarked hk⟩, he⟩
  · rw [applied, hsplit, List.append_assoc]
  · rcases List.mem_append.mp hc with hc | hc
    · obtain ⟨hc, hkey⟩ := List.mem_filter.mp hc
      exact Rule.not_misses_of_key hmarked ((Bool.not_eq_true' _).mp hkey) (hkeyDeclared c hc)
    · have hmem : c ∈ d.constraints := List.mem_of_mem_filter (p := (·.constraint.isForeignKey))
        (by rw [hsplit]; exact List.mem_append_left _ hc)
      exact Rule.not_misses hmarked (hkeyDeclared c hmem) (hpaired c hc) fun l hl =>
        hlinks l (List.mem_flatMap.mpr ⟨c, hc, hl⟩)

/-- What a document fails to resolve for: a table that is there already, or a constraint that
misses something. -/
theorem toSchema_eq_error {d : Document}
    (hcolumns : ∀ t ∈ d.specs, (t.columns.map (·.name)).Nodup) {inferOneToOne : Bool}
    {e : ImportError} (h : d.toSchema inferOneToOne = .error e) :
    (∃ front t, d.RepeatsAt front t ∧
      e = .rejected (.malformed (.duplicateTable t.name)) t.site) ∨
    ∃ k reference, d.MissesAt k reference ∧ e = unresolved k reference := by
  rcases error_of_bind h with htables | ⟨s, htables, h⟩
  · rw [← Schema.numbered_nil_nil] at htables
    obtain ⟨front, t, back, hsplit, hfront, ht, he⟩ :=
      declareTables_numbered_eq_error htables List.nodup_nil
    rw [List.nil_append, List.map_map] at hfront ht
    exact .inl ⟨front, t, ⟨⟨back, hsplit⟩, hfront, ht⟩, he⟩
  obtain ⟨hnodup, rfl⟩ := declareTables_eq_ok.mp htables
  have hnames : TableSpec.Distinct d.specs := ⟨by rwa [names_specs], hcolumns⟩
  rcases error_of_bind h with hkeys | ⟨v, hkeys, h⟩
  · exact .inr (missesAt_of_keys hnames hkeys)
  · obtain ⟨hdeclared, rfl⟩ := (applyKeys_specs hnames).mp hkeys
    exact .inr (missesAt_of_foreignKeys hnames hdeclared h)

theorem mem_constraints_of_missesAt {d : Document} {k : ConstraintDef} {reference : Reference}
    (h : d.MissesAt k reference) : k ∈ d.constraints := by
  obtain ⟨front, back, happlied, -, -⟩ := h
  have hk : k ∈ d.applied := by simp [happlied]
  rcases List.mem_append.mp hk with hk | hk <;> exact List.mem_of_mem_filter hk

end Document

end Sql
end Schemata
