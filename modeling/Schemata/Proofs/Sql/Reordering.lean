/-
The order of statements does not matter.  All tables are made before any key is marked, and all keys
are marked before any foreign key is looked at, so only the order of the tables shows in a schema.
A script whose statements change places, with its tables in the same order, gives the same tables
and the same relations in another order.
-/
import Schemata.Proofs.Sql.Detection
import Schemata.Proofs.Sql.ImportedNames
import Schemata.Proofs.Sql.TypeComments
import Schemata.Sql.Import

namespace Schemata

/-! ## Schemas -/

/-- What a relation says, without its id. -/
def Relation.join (r : Relation) : Join := ⟨r.source, r.target, r.cardinality⟩

/-- The same tables, and the same relations in any order and with any ids. -/
structure Schema.Reordered (s p : Schema) : Prop where
  tables : p.tables = s.tables
  relations : (p.relations.map Relation.join).Perm (s.relations.map Relation.join)
  counter : p.counter = s.counter

namespace Schema

theorem isForeignKey_unnoted (ts : List TableSpec) (js : List Join) (e : Endpoint) :
    (unnoted ts js).isForeignKey e = (js.map (·.target)).any (· == e) := by
  have htargets : (unnoted ts js).relations.map (·.target) = js.map (·.target) := by
    show (numberFrom Join.numbered (TableSpec.extent ts) js).map (·.target) = _
    rw [map_numberFrom]
    exact numberFrom_eq_map Join.target _ js
  rw [isForeignKey, ← htargets, List.any_map]
  rfl

/-- In another order, the same joins make the same notes. -/
theorem reordered_numbered (ts : List TableSpec) {js ks : List Join} (h : ks.Perm js) :
    (numbered ts js).Reordered (numbered ts ks) := by
  have hjoins : ∀ js, (numbered ts js).relations.map Relation.join = js := by
    intro js
    show (numberFrom Join.numbered (TableSpec.extent ts) js).map Relation.join = js
    rw [map_numberFrom]
    exact (numberFrom_eq_map id _ js).trans (List.map_id _)
  refine ⟨?_, ?_, ?_⟩
  · rw [numbered, numbered, reconcile_eq_mapColumns, reconcile_eq_mapColumns]
    have hnotes : (unnoted ts ks).isForeignKey = (unnoted ts js).isForeignKey := by
      funext e
      rw [isForeignKey_unnoted, isForeignKey_unnoted]
      exact (h.map _).any_eq
    rw [hnotes]
    rfl
  · rw [hjoins, hjoins]
    exact h
  · show TableSpec.extent ts + ks.length = TableSpec.extent ts + js.length
    rw [h.length_eq]

end Schema

namespace Sql

/-! ## Documents -/

theorem mark_perm {rs rs' : List Rule} (h : rs'.Perm rs) : mark rs' = mark rs := by
  funext table c
  rw [mark, h.any_eq, h.any_eq]
  rfl

/-- Keys of a document may be marks of its columns instead, and rules may change places. -/
theorem Document.toSchema_of_marks {d d' : Document} {rs : List Rule}
    (hspecs : d.specs = d'.specs.map (TableSpec.mapColumns (mark rs)))
    (hrules : d'.rules.Perm (rs ++ d.rules)) (hdeclared : ∀ r ∈ rs, r.KeyDeclared d'.specs)
    (hkeys : ∀ r ∈ rs, r.constraint.isForeignKey = false) (hd : d.ColumnsDistinct)
    {inferOneToOne : Bool} {s : Schema} (h : d.toSchema inferOneToOne = .ok s) :
    ∃ p, d'.toSchema inferOneToOne = .ok p ∧ s.Reordered p := by
  obtain ⟨hnodup, hvalid, js, hjs, rfl⟩ := (toSchema_eq_ok hd).mp h
  have hkeeps := keepsNames_mark rs
  have hmarked : d'.marked = d.marked := by
    rw [marked, marked, hspecs, mark_perm hrules, List.map_map]
    refine List.map_congr_left fun t _ => ?_
    simp [TableSpec.mapColumns, mark_append]
  have hnone : ∀ ts, rs.flatMap (Rule.links ts) = [] := by
    intro ts
    refine List.flatMap_eq_nil_iff.mpr fun r hr => ?_
    have hkey := hkeys r hr
    obtain ⟨table, constraint⟩ := r
    cases constraint with
    | foreignKey key => cases hkey
    | _ => rfl
  have hlinks : d'.links.Perm d.links := by
    rw [links, hmarked]
    have hperm := hrules.flatMap_right (Rule.links d.marked)
    rwa [List.flatMap_append, hnone, List.nil_append] at hperm
  have hcomp : Relation.Comp List.Perm
      (List.Forall₂ (Link.Joins inferOneToOne d.marked)) d'.links js := ⟨d.links, hlinks, hjs⟩
  rw [← List.forall₂_comp_perm_eq_perm_comp_forall₂] at hcomp
  obtain ⟨ks, hks, hperm⟩ := hcomp
  have hnames : d.specs.map (·.name) = d'.specs.map (·.name) := by
    rw [hspecs, TableSpec.map_name_mapColumns]
  have hcolumns : ∀ t ∈ d'.specs, (t.columns.map (·.name)).Nodup := by
    intro t ht
    have hmapped := hd (TableSpec.mapColumns (mark rs) t) (by
      rw [hspecs]
      exact List.mem_map_of_mem ht)
    rwa [TableSpec.mapColumns, List.map_map] at hmapped
  refine ⟨Schema.numbered d'.marked ks, ?_, ?_⟩
  · rw [toSchema_eq_ok hcolumns, ← hnames]
    refine ⟨hnodup, fun r hr => ?_, ks, by rwa [hmarked], rfl⟩
    rcases List.mem_append.mp (hrules.subset hr) with hr | hr
    · refine ⟨hdeclared r hr, ?_⟩
      have hkey := hkeys r hr
      obtain ⟨table, constraint⟩ := r
      cases constraint with
      | foreignKey key => cases hkey
      | _ => exact True.intro
    · rw [hmarked, ← keyDeclared_mapColumns_iff hkeeps, ← hspecs]
      exact hvalid r hr
  · rw [hmarked]
    exact Schema.reordered_numbered d.marked hperm

/-- Rules of a document may change places. -/
theorem Document.toSchema_of_perm {d d' : Document} (hspecs : d'.specs = d.specs)
    (hrules : d'.rules.Perm d.rules) (hd : d.ColumnsDistinct) {inferOneToOne : Bool} {s : Schema}
    (h : d.toSchema inferOneToOne = .ok s) :
    ∃ p, d'.toSchema inferOneToOne = .ok p ∧ s.Reordered p := by
  have hrules : d'.rules.Perm ([] ++ d.rules) := hrules
  refine toSchema_of_marks ?_ hrules (by simp) (by simp) hd h
  rw [hspecs]
  have hmark : mark [] = fun _ c => c := by
    funext table c
    simp [mark]
  refine (List.map_id'' (fun t => ?_) _).symm
  rw [TableSpec.mapColumns, hmark, List.map_id'']
  exact fun _ => rfl

/-! ## Statements -/

/-- Whether the statement creates a table, if it can be read at all. -/
def Statement.isCreate (s : Statement) : Bool := s.first.token = .keyword .create

/-- Statements that are alike say the same. -/
theorem exists_read_of_alike {dialect : Dialect} {s t : Statement} {part : Document}
    (halike : s.Alike t) (h : s.read dialect = .ok part) :
    ∃ part', t.read dialect = .ok part' ∧ part'.content = part.content := by
  have hothers : Similar dialect s.others t.others :=
    similar_of_squeezed dialect (map_squeezed_congr halike.others.symm)
  obtain ⟨part', hpart', hcontent⟩ :=
    (Statement.agrees_read halike.token.symm hothers).exists_ok h
  exact ⟨part', hpart', hcontent.symm⟩

theorem exists_parts_of_alike {dialect : Dialect} {part : Statement → Document}
    {order ts : List Statement} (halike : List.Forall₂ Statement.Alike order ts)
    (h : ∀ s ∈ order, s.read dialect = .ok (part s)) :
    ∃ parts, List.Forall₂ (fun t p => Statement.read dialect t = .ok p) ts parts ∧
      parts.map Document.content = order.map fun s => (part s).content := by
  induction halike with
  | nil => exact ⟨[], .nil, rfl⟩
  | cons hst _ ih =>
    obtain ⟨hs, horder⟩ := List.forall_mem_cons.mp h
    obtain ⟨p, hp, hcontent⟩ := exists_read_of_alike hst hs
    obtain ⟨parts, hparts, hcontents⟩ := ih horder
    exact ⟨p :: parts, .cons hp hparts, by rw [List.map_cons, hcontent, hcontents]; rfl⟩

/-- A statement that does not create a table adds none. -/
theorem specs_of_isCreate {dialect : Dialect} {s : Statement} {part : Document}
    (h : s.read dialect = .ok part) (hs : s.isCreate = false) : part.specs = [] := by
  unfold Statement.read at h
  split at h
  · next hcreate =>
    rw [Statement.isCreate, hcreate] at hs
    cases hs
  · obtain ⟨a, -, h⟩ := ok_of_bind h
    cases h
    rfl
  · exact absurd h fail_ne_ok

theorem flatMap_filter_of_nil {f : α → List β} {p : α → Bool} {xs : List α}
    (h : ∀ x ∈ xs, p x = false → f x = []) : (xs.filter p).flatMap f = xs.flatMap f := by
  induction xs with
  | nil => rfl
  | cons x xs ih =>
    obtain ⟨hx, hxs⟩ := List.forall_mem_cons.mp h
    rw [List.filter_cons, List.flatMap_cons, ← ih hxs]
    cases hp : p x with
    | true => rfl
    | false => rw [hx hp]; rfl

theorem specs_join (parts : List Document) :
    (Document.join parts).specs = (parts.map Document.content).flatMap (·.1) := by
  rw [Document.specs, Document.join, List.map_flatMap, List.flatMap_map]
  rfl

theorem rules_join (parts : List Document) :
    (Document.join parts).rules = (parts.map Document.content).flatMap (·.2) := by
  rw [Document.rules, Document.join, List.map_flatMap, List.flatMap_map]
  rfl

/-- The parts of a document by the statements that they come from. -/
theorem exists_map_of_read {dialect : Dialect} {ss : List Statement} {parts : List Document}
    (h : List.Forall₂ (fun s p => Statement.read dialect s = .ok p) ss parts) :
    ∃ part : Statement → Document,
      parts = ss.map part ∧ ∀ s ∈ ss, s.read dialect = .ok (part s) := by
  refine ⟨fun s => ((s.read dialect).toOption).getD .empty, ?_⟩
  induction h with
  | nil => exact ⟨rfl, by simp⟩
  | cons hs _ ih =>
    obtain ⟨hmap, hread⟩ := ih
    dsimp only at hmap hread ⊢
    refine ⟨?_, List.forall_mem_cons.mpr ⟨?_, hread⟩⟩
    · rw [List.map_cons, ← hmap, hs]
      rfl
    · rw [hs]
      rfl

/-- The order of statements does not matter for what they say, but for that of the tables. -/
theorem join_reordered {dialect : Dialect} {part : Statement → Document}
    {order statements : List Statement} {parts : List Document}
    (hread : ∀ s ∈ statements, s.read dialect = .ok (part s)) (horder : order.Perm statements)
    (hcreate : order.filter Statement.isCreate = statements.filter Statement.isCreate)
    (hparts : parts.map Document.content = order.map fun s => (part s).content) :
    (Document.join parts).specs = (Document.join (statements.map part)).specs ∧
      (Document.join parts).rules.Perm (Document.join (statements.map part)).rules := by
  rw [specs_join, specs_join, rules_join, rules_join, hparts, List.map_map, List.flatMap_map,
    List.flatMap_map, List.flatMap_map, List.flatMap_map]
  constructor
  · have hother : ∀ s ∈ statements, s.isCreate = false → (part s).content.1 = [] :=
      fun s hs => specs_of_isCreate (hread s hs)
    have hother' : ∀ s ∈ order, s.isCreate = false → (part s).content.1 = [] :=
      fun s hs => hother s (horder.subset hs)
    calc order.flatMap (fun s => (part s).content.1)
        = (order.filter Statement.isCreate).flatMap (fun s => (part s).content.1) :=
          (flatMap_filter_of_nil hother').symm
      _ = (statements.filter Statement.isCreate).flatMap (fun s => (part s).content.1) := by
          rw [hcreate]
      _ = statements.flatMap (fun s => (part s).content.1) := flatMap_filter_of_nil hother
  · exact horder.flatMap_right _

/-! ## Scripts -/

/-- If a script is imported, then so are its statements in another order, with semicolons between
them, as long as the tables keep theirs.  The tables are the same then, and so are the relations,
apart from their order and their ids. -/
theorem schemaOf_reordered {options : ImportOptions} {text : String} {s : Schema}
    {lexemes : List Lexeme} {statements order : List Statement}
    (h : schemaOf options text = .ok s) (hlexemes : tokenize text = .ok lexemes)
    (hstatements : splitStatements lexemes = .ok statements) (horder : order.Perm statements)
    (hcreate : order.filter Statement.isCreate = statements.filter Statement.isCreate) :
    ∃ p, schemaOf options (String.intercalate ";\n" (order.map (·.text))) = .ok p ∧
      s.Reordered p := by
  obtain ⟨d, hd, hs⟩ := ok_of_bind h
  have hdistinct := Document.columnsDistinct_ofScript hd
  obtain ⟨ls, ss, parts, hls, hss, hparts, rfl⟩ := Document.ofScript_eq_ok.mp hd
  obtain rfl : ls = lexemes := Except.ok.inj (hls.symm.trans hlexemes)
  obtain rfl : ss = statements := Except.ok.inj (hss.symm.trans hstatements)
  obtain ⟨part, rfl, hread⟩ := exists_map_of_read hparts
  obtain ⟨lexemes', ts, hlexemes', hts, halike⟩ := tokenize_join hlexemes hstatements horder.subset
  obtain ⟨parts', hparts', hcontent⟩ :=
    exists_parts_of_alike halike fun s hs => hread s (horder.subset hs)
  obtain ⟨hspecs, hrules⟩ := join_reordered hread horder hcreate hcontent
  obtain ⟨p, hp, hreordered⟩ := Document.toSchema_of_perm hspecs hrules hdistinct hs
  have hresolve := options.dialect.resolve_of_perm hlexemes hstatements hlexemes' hts horder halike
  have hscript : Document.ofScript (String.intercalate ";\n" (order.map (·.text)))
      options.dialect = .ok (Document.join parts') :=
    Document.ofScript_eq_ok.mpr
      ⟨lexemes', ts, parts', hlexemes', hts, by rwa [hresolve], rfl⟩
  refine ⟨p, ?_, hreordered⟩
  rw [schemaOf, hscript]
  exact hp

/-- A foreign key without a list of targets stands after the primary key that it refers to. -/
def keyLast : String :=
  "create table a (b int);alter table a add primary key (b);" ++
    "alter table a add foreign key (b) references a"

/-- The same statements the other way around. -/
def keyFirst : String :=
  "alter table a add foreign key (b) references a;\nalter table a add primary key (b);\n" ++
    "create table a (b int)"

def keySchema : Schema :=
  ⟨[⟨⟨"t1"⟩, "a", [⟨⟨"c2"⟩, "b", .integer, true, true, false, true⟩]⟩],
   [⟨⟨"r3"⟩, ⟨⟨"t1"⟩, ⟨"c2"⟩⟩, ⟨⟨"t1"⟩, ⟨"c2"⟩⟩, .oneToOne⟩], 3⟩

theorem schemaOf_reordered_keyFirst :
    schemaOf ⟨.auto, .standard, true⟩ keyLast = .ok keySchema ∧
      String.intercalate ";\n" ((statementsOf keyLast).reverse.map (·.text)) = keyFirst ∧
      ∃ p, schemaOf ⟨.auto, .standard, true⟩ keyFirst = .ok p ∧ keySchema.Reordered p := by
  have hread : schemaOf ⟨.auto, .standard, true⟩ keyLast = .ok keySchema := by decide +kernel
  have hcreate : (statementsOf keyLast).reverse.filter Statement.isCreate =
      (statementsOf keyLast).filter Statement.isCreate := by
    decide +kernel
  have hjoin : String.intercalate ";\n" ((statementsOf keyLast).reverse.map (·.text)) =
      keyFirst := by
    decide +kernel
  obtain ⟨d, hd, -⟩ := ok_of_bind hread
  obtain ⟨lexemes, ss, -, hlexemes, hss, -⟩ := Document.ofScript_eq_ok.mp hd
  refine ⟨hread, hjoin, ?_⟩
  rw [← hjoin]
  rw [statementsOf_eq hlexemes hss] at hcreate ⊢
  exact schemaOf_reordered hread hlexemes hss (List.reverse_perm ss) hcreate

end Sql
end Schemata
