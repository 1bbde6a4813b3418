/-
The schema that a script defines.  The rules for primary keys mark the columns that were in a key
before, so the tables come back as they were written, and every link comes back as a relation.
-/
import Schemata.Proofs.Sql.ScriptDocument
import Schemata.Proofs.Sql.ScriptTokens
import Schemata.Sql.Import

namespace Schemata
namespace TableSpec

theorem mem_primaryKey_iff {t : TableSpec} (hnodup : (t.columns.map (·.name)).Nodup)
    {c : ColumnSpec} (hc : c ∈ t.columns) : c.name ∈ t.primaryKey ↔ c.isPrimaryKey = true := by
  rw [primaryKey, List.mem_map]
  constructor
  · rintro ⟨d, hd, hname⟩
    obtain ⟨hd, hkey⟩ := List.mem_filter.mp hd
    rwa [List.inj_on_of_nodup_map hnodup hd hc hname] at hkey
  · intro hkey
    exact ⟨c, List.mem_filter.mpr ⟨hc, hkey⟩, rfl⟩

end TableSpec

namespace Sql

/-! ## Keys -/

namespace TableReading

/-- Together with its keys, a table is what it was. -/
theorem mapColumns_mark (r : TableReading) (hnodup : (r.table.columns.map (·.name)).Nodup) :
    r.spec.mapColumns (mark r.rules) = r.table := by
  obtain ⟨t, columns, keys, hkeyed⟩ := r
  refine congrArg (TableSpec.mk t.name) ?_
  show columns.map (mark (keys.map (Rule.mk t.name)) t.name) = t.columns
  cases hkeyed with
  | inline =>
    refine (List.map_congr_left fun c _ => ?_).trans (List.map_id _)
    simp [mark]
  | @clause names hnames =>
    rw [List.map_map]
    refine (List.map_congr_left fun c hc => ?_).trans (List.map_id _)
    have hkey : decide (c.name ∈ names) = c.isPrimaryKey := by
      rw [Bool.eq_iff_iff, decide_eq_true_iff, hnames.mem_iff,
        TableSpec.mem_primaryKey_iff hnodup hc]
    simp [mark, ColumnSpec.unkeyed, Rule.marksKey, Rule.marksUnique, hkey]

theorem eq_of_mem_rules {r : TableReading} {rule : Rule} (h : rule ∈ r.rules) :
    ∃ names : List String, names ⊆ r.table.primaryKey ∧
      rule = ⟨r.table.name, .primaryKey names⟩ := by
  obtain ⟨t, columns, keys, hkeyed⟩ := r
  cases hkeyed with
  | inline => cases h
  | clause hnames => exact ⟨_, hnames.subset, List.mem_singleton.mp h⟩

end TableReading

namespace Rule

theorem table_of_marksKey {r : Rule} {table column : String} (h : r.marksKey table column = true) :
    r.table = table := by
  unfold marksKey at h
  split at h
  · exact eq_of_beq (Bool.and_eq_true_iff.mp h).1
  · cases h

theorem table_of_marksUnique {r : Rule} {table column : String}
    (h : r.marksUnique table column = true) : r.table = table := by
  unfold marksUnique at h
  split at h
  · exact eq_of_beq (Bool.and_eq_true_iff.mp h).1
  · cases h

end Rule

namespace Document
namespace Scripted

variable {ts : List TableSpec} {ls : List Link} {d : Document}

/-- The rules that concern a table are its own. -/
theorem any_rules {readings : List TableReading}
    (hnames : (readings.map fun r => r.table.name).Nodup) {r : TableReading} (hr : r ∈ readings)
    {p : Rule → Bool} (htable : ∀ rule, p rule = true → rule.table = r.table.name)
    (hlink : ∀ l : Link, p l.rule = false) :
    (readings.flatMap TableReading.rules ++ ls.map Link.rule).any p = r.rules.any p := by
  rw [Bool.eq_iff_iff, List.any_eq_true, List.any_eq_true]
  constructor
  · rintro ⟨rule, hrule, hp⟩
    rcases List.mem_append.mp hrule with hrule | hrule
    · obtain ⟨r', hr', hrule⟩ := List.mem_flatMap.mp hrule
      obtain ⟨names, -, rfl⟩ := TableReading.eq_of_mem_rules hrule
      obtain rfl := List.inj_on_of_nodup_map hnames hr' hr (htable _ hp)
      exact ⟨_, hrule, hp⟩
    · obtain ⟨l, -, rfl⟩ := List.mem_map.mp hrule
      rw [hlink l] at hp
      cases hp
  · rintro ⟨rule, hrule, hp⟩
    exact ⟨rule, List.mem_append_left _ (List.mem_flatMap.mpr ⟨r, hr, hrule⟩), hp⟩

theorem marked (h : Scripted ts ls d) (hnames : TableSpec.Distinct ts) : d.marked = ts := by
  obtain ⟨readings, rfl, hspecs, hrules⟩ := h
  have htables : (readings.map fun r => r.table.name).Nodup := by
    have hnodup := hnames.tables
    rwa [List.map_map] at hnodup
  rw [Document.marked, hspecs, hrules, List.map_map]
  refine List.map_congr_left fun r hr => ?_
  have hmark : mark (readings.flatMap TableReading.rules ++ ls.map Link.rule) r.table.name =
      mark r.rules r.table.name := by
    funext c
    simp only [mark]
    rw [any_rules htables hr (fun _ => Rule.table_of_marksKey) fun _ => rfl,
      any_rules htables hr (fun _ => Rule.table_of_marksUnique) fun _ => rfl]
  have hnodup := hnames.columns r.table (List.mem_map_of_mem hr)
  rw [← r.mapColumns_mark hnodup]
  exact congrArg (fun f => TableSpec.mk r.table.name (r.columns.map f)) hmark

theorem links (h : Scripted ts ls d) : d.links = ls := by
  obtain ⟨readings, -, -, hrules⟩ := h
  have hkeys : (readings.flatMap TableReading.rules).flatMap (Rule.links d.marked) = [] := by
    refine List.flatMap_eq_nil_iff.mpr fun rule hrule => ?_
    obtain ⟨r, -, hrule⟩ := List.mem_flatMap.mp hrule
    obtain ⟨names, -, rfl⟩ := TableReading.eq_of_mem_rules hrule
    rfl
  have hlink : ∀ l : Link, l.rule.links d.marked = [l] := fun _ => rfl
  rw [Document.links, hrules, List.flatMap_append, hkeys, List.nil_append, List.flatMap_map]
  simp [hlink]

theorem distinct_specs (h : Scripted ts ls d) (hnames : TableSpec.Distinct ts) :
    TableSpec.Distinct d.specs := by
  obtain ⟨readings, rfl, hspecs, -⟩ := h
  rw [hspecs]
  constructor
  · have hnodup := hnames.tables
    rwa [List.map_map] at hnodup ⊢
  · intro t ht
    obtain ⟨r, hr, rfl⟩ := List.mem_map.mp ht
    show (r.columns.map (·.name)).Nodup
    rw [r.keyed.names]
    exact hnames.columns r.table (List.mem_map_of_mem hr)

theorem keyDeclared_paired (h : Scripted ts ls d) :
    ∀ r ∈ d.rules, r.KeyDeclared d.specs ∧ r.Paired d.marked := by
  obtain ⟨readings, rfl, hspecs, hrules⟩ := h
  intro rule hrule
  rw [hrules] at hrule
  rcases List.mem_append.mp hrule with hrule | hrule
  · obtain ⟨r, hr, hrule⟩ := List.mem_flatMap.mp hrule
    obtain ⟨names, hnames, rfl⟩ := TableReading.eq_of_mem_rules hrule
    refine ⟨fun column hcolumn => ?_, True.intro⟩
    obtain ⟨c, hc, hname⟩ := List.mem_map.mp (hnames hcolumn)
    have hmem : column ∈ r.columns.map (·.name) := by
      rw [r.keyed.names, ← hname]
      exact List.mem_map_of_mem (List.mem_of_mem_filter hc)
    obtain ⟨c', hc', hname'⟩ := List.mem_map.mp hmem
    rw [hspecs]
    exact ⟨r.spec, List.mem_map_of_mem hr, rfl, c', hc', hname'⟩
  · obtain ⟨l, -, rfl⟩ := List.mem_map.mp hrule
    exact ⟨True.intro, fun htargets => by cases htargets⟩

/-- The tables of the script come back, and one relation for each link. -/
theorem toSchema (h : Scripted ts ls d) (hnames : TableSpec.Distinct ts) {inferOneToOne : Bool}
    {s : Schema} :
    d.toSchema inferOneToOne = .ok s ↔
      ∃ js, List.Forall₂ (Link.Joins inferOneToOne ts) ls js ∧ s = Schema.numbered ts js := by
  have hspecs := h.distinct_specs hnames
  rw [Document.toSchema_eq_ok hspecs.columns, h.marked hnames, h.links]
  constructor
  · rintro ⟨-, -, hjoins⟩
    exact hjoins
  · intro hjoins
    refine ⟨hspecs.tables, ?_, hjoins⟩
    rw [← h.marked hnames]
    exact h.keyDeclared_paired

end Scripted
end Document

/-! ## Scripts -/

/-- A text whose tokens state the tables and links defines these, and nothing else. -/
theorem schemaOf_of_tokens {ts : List TableSpec} {ls : List Link} (hnames : TableSpec.Distinct ts)
    {statements : List (List Token)} (hform : ScriptForm ts ls statements) {tokens : List Token}
    (hjoined : Joined statements tokens) {text : String} {lexemes : List Lexeme}
    (hlexemes : tokenize text = .ok lexemes) (htokens : lexemes.map (·.token) = tokens ++ [.eof])
    {options : ImportOptions} {s : Schema} :
    schemaOf options text = .ok s ↔
      ∃ js, List.Forall₂ (Link.Joins options.inferOneToOne ts) ls js ∧
        s = Schema.numbered ts js := by
  obtain ⟨ss, hss, rfl⟩ := splitStatements_of_joined hform.balanced hjoined htokens
  obtain ⟨d, hd, hscripted⟩ :=
    Document.ofStatements_form (options.dialect.resolve lexemes) hnames.columns hform
  have hread : Document.ofScript text options.dialect = .ok d := by
    simp only [Document.ofScript, hlexemes, hss, bind, Except.bind, hd]
  rw [schemaOf, hread]
  exact hscripted.toSchema hnames

/-! ## Exports -/

theorem columnForm_columnTokens (c : ColumnSpec) :
    ColumnForm c.exported.unkeyed (columnTokens c) := by
  obtain ⟨name, type, isPrimaryKey, isUnique, isNullable⟩ := c
  have htype : (Token.ident type.name).isWord type.word = true := by
    cases type <;> decide
  let c : ColumnSpec := ⟨name, type, isPrimaryKey, isUnique, isNullable⟩
  have hform : ColumnForm c.exported.unkeyed
      ([.quoted name, .ident type.name] ++
        (columnMarks c.exported.unkeyed).flatMap ColumnMark.tokens) :=
    .intro rfl htype (.refl _)
  have htokens : (columnMarks c.exported.unkeyed).flatMap ColumnMark.tokens =
      (if isNullable then [] else [.keyword .not, .keyword .null]) ++
        (if isUnique && !isPrimaryKey then [.keyword .unique] else []) := by
    cases isNullable <;> cases isUnique <;> cases isPrimaryKey <;> rfl
  rw [htokens, ← List.append_assoc] at hform
  exact hform

theorem columnListForm_listTokens (names : List String) :
    ColumnListForm names (listTokens names) := by
  have hnames : List.Forall₂ (fun column t => Token.ident? t = some column) names
      (names.map Token.quoted) := by
    rw [List.forall₂_map_right_iff, List.forall₂_same]
    exact fun _ _ => rfl
  have hform := ColumnListForm.intro hnames
  rw [List.map_map] at hform
  exact hform

theorem bodyForm_itemTokens (t : TableSpec) :
    BodyForm (t.mapColumns fun _ => ColumnSpec.exported) (itemTokens t) := by
  have hcolumns : List.Forall₂ ColumnForm
      ((t.columns.map ColumnSpec.exported).map ColumnSpec.unkeyed)
      (t.columns.map columnTokens) := by
    rw [List.map_map, List.forall₂_map_left_iff, List.forall₂_map_right_iff, List.forall₂_same]
    exact fun c _ => columnForm_columnTokens c
  rw [itemTokens]
  by_cases hempty : t.primaryKey = []
  · have hunkeyed : (t.columns.map ColumnSpec.exported).map ColumnSpec.unkeyed =
        t.columns.map ColumnSpec.exported := by
      have hnone := List.filter_eq_nil_iff.mp (List.map_eq_nil_iff.mp hempty)
      rw [List.map_map]
      refine List.map_congr_left fun c hc => ?_
      have hc : c.isPrimaryKey = false := Bool.of_not_eq_true (hnone c hc)
      simp [ColumnSpec.unkeyed, ColumnSpec.exported, hc]
    rw [hunkeyed] at hcolumns
    rw [if_pos (by rw [hempty]; rfl), List.append_nil]
    exact .inline hcolumns
  · have hkey : KeyForm t.primaryKey (keyTokens t.primaryKey) :=
      .intro hempty .unnamed (columnListForm_listTokens _)
    have hnames : (t.mapColumns fun _ => ColumnSpec.exported).primaryKey = t.primaryKey := by
      simp [TableSpec.primaryKey, TableSpec.mapColumns, List.filter_map, Function.comp_def,
        ColumnSpec.exported]
    rw [if_neg (by simpa using hempty)]
    rw [← List.append_nil (t.columns.map columnTokens)] at hcolumns
    have hform : BodyForm (t.mapColumns fun _ => ColumnSpec.exported) _ :=
      .clause hcolumns hkey (.of_eq hnames.symm)
    rwa [List.append_nil] at hform

theorem tableForm_tableTokens (t : TableSpec) :
    TableForm (t.mapColumns fun _ => ColumnSpec.exported) (tableTokens t) := by
  have hname : TableNameForm t.name [Token.quoted t.name] := .plain rfl
  have hform : TableForm (t.mapColumns fun _ => ColumnSpec.exported) _ :=
    .intro (.inl rfl) hname (bodyForm_itemTokens t)
  simpa [tableTokens] using hform

theorem linkForm_linkTokens (k : Nat) (l : Link) : LinkForm l (linkTokens k l) := by
  have hform := LinkForm.intro (l := l) (.inl rfl) (.inl rfl) (.plain (t := .quoted l.holder) rfl)
    (.named (t := .quoted (constraintName l.holder l.column k)) rfl)
    (columnListForm_listTokens [l.column]) (.plain (t := .quoted l.table) rfl)
    (columnListForm_listTokens [l.target]) .nil
  simpa [linkTokens] using hform

theorem scriptForm_scriptTokens (ts : List TableSpec) (ls : List Link) :
    ScriptForm (TableSpec.exported ts) ls (scriptTokens ts ls) := by
  refine ⟨_, _, rfl, ?_, ?_⟩
  · rw [TableSpec.exported, List.forall₂_map_left_iff, List.forall₂_map_right_iff,
      List.forall₂_same]
    exact fun t _ => tableForm_tableTokens t
  · generalize 0 = k
    induction ls generalizing k with
    | nil => exact .nil
    | cons l ls ih => exact .cons (linkForm_linkTokens (k + 1) l) (ih (k + 1))

/-- A script defines the tables that it was written from, and one relation for each link. -/
theorem schemaOf_scriptText {ts : List TableSpec} (hnames : TableSpec.Distinct ts)
    (ls : List Link) {options : ImportOptions} {s : Schema} :
    schemaOf options (scriptText ts ls) = .ok s ↔
      ∃ js, List.Forall₂ (Link.Joins options.inferOneToOne (TableSpec.exported ts)) ls js ∧
        s = Schema.numbered (TableSpec.exported ts) js := by
  obtain ⟨lexemes, hlexemes, htokens⟩ := tokenize_of_lexes (lexes_scriptText ts ls)
  exact schemaOf_of_tokens (hnames.mapColumns TableSpec.keepsNames_exported)
    (scriptForm_scriptTokens ts ls) .closed hlexemes htokens

end Sql
end Schemata
