/-
The document that a script is read as.  Every table comes with its columns, and with one rule for
its primary key if there is a clause for that, and every link comes as one rule.
-/
import Schemata.Proofs.Sql.Parts
import Schemata.Proofs.Sql.Reading

namespace Schemata
namespace Sql

/-! ## Tables -/

/-- What a table is read as: its columns, or its columns without their keys and the key apart. -/
inductive Keyed (t : TableSpec) : List ColumnSpec → List Constraint → Prop
  | inline : Keyed t t.columns []
  | clause {names : List String} (hnames : names.Perm t.primaryKey) :
      Keyed t (t.columns.map ColumnSpec.unkeyed) [.primaryKey names]

theorem Keyed.names {t : TableSpec} {cs : List ColumnSpec} {keys : List Constraint}
    (h : Keyed t cs keys) : cs.map (·.name) = t.columns.map (·.name) := by
  cases h with
  | inline => rfl
  | clause => rw [List.map_map]; rfl

/-- A table and what it is read as. -/
structure TableReading where
  table : TableSpec
  columns : List ColumnSpec
  keys : List Constraint
  keyed : Keyed table columns keys

namespace TableReading

def spec (r : TableReading) : TableSpec := ⟨r.table.name, r.columns⟩

def rules (r : TableReading) : List Rule := r.keys.map (Rule.mk r.table.name)

end TableReading

theorem exists_readings_columns (dialect : Dialect) {cs : List ColumnSpec}
    {items : List (List Token)} (h : List.Forall₂ ColumnForm cs items) :
    ∃ readings : List ItemReading, readings.map (·.tokens) = items ∧
      (∀ i ∈ readings, i.Holds dialect) ∧ readings.flatMap (·.columns) = cs ∧
      readings.flatMap (·.constraints) = [] := by
  induction h with
  | nil => exact ⟨[], rfl, by simp, rfl, rfl⟩
  | @cons c item cs items hc _ ih =>
    obtain ⟨readings, rfl, hholds, rfl, hnone⟩ := ih
    refine ⟨⟨item, [c], []⟩ :: readings, rfl, ?_, rfl, hnone⟩
    exact List.forall_mem_cons.mpr ⟨holds_column dialect hc, hholds⟩

theorem exists_readings_body (dialect : Dialect) {t : TableSpec} {items : List (List Token)}
    (h : BodyForm t items) :
    ∃ readings : List ItemReading, readings.map (·.tokens) = items ∧
      (∀ i ∈ readings, i.Holds dialect) ∧
      Keyed t (readings.flatMap (·.columns)) (readings.flatMap (·.constraints)) := by
  cases h with
  | inline hcolumns =>
    obtain ⟨readings, htokens, hholds, hcs, hnone⟩ := exists_readings_columns dialect hcolumns
    exact ⟨readings, htokens, hholds, by rw [hcs, hnone]; exact .inline⟩
  | @clause before after key names hcolumns hkey hnames =>
    obtain ⟨readings, htokens, hholds, hcs, hnone⟩ := exists_readings_columns dialect hcolumns
    obtain ⟨first, last, rfl, rfl, rfl⟩ := List.map_eq_append_iff.mp htokens
    rw [List.flatMap_append] at hcs hnone
    obtain ⟨hfirst, hlast⟩ := List.append_eq_nil_iff.mp hnone
    refine ⟨first ++ [⟨key, [], [.primaryKey names]⟩] ++ last, by simp, ?_, ?_⟩
    · intro i hi
      rw [List.append_assoc, List.mem_append, List.mem_append] at hi
      rcases hi with hi | hi | hi
      · exact hholds i (List.mem_append_left _ hi)
      · rw [List.mem_singleton.mp hi]
        exact holds_key dialect hkey
      · exact hholds i (List.mem_append_right _ hi)
    · have hkeyed := Keyed.clause hnames
      rw [← hcs] at hkeyed
      simpa [hfirst, hlast] using hkeyed

/-- A body with items does not begin with its closing parenthesis. -/
theorem exists_cons_items {parts : List (List Token)} (hne : parts ≠ [])
    (hparts : ∀ part ∈ parts, ∃ u us, part = u :: us ∧ u ≠ .rightParen) :
    ∃ u us, [Token.comma].intercalate parts = u :: us ∧ u ≠ .rightParen := by
  cases parts with
  | nil => exact absurd rfl hne
  | cons part rest =>
    obtain ⟨u, us, rfl, hu⟩ := hparts part List.mem_cons_self
    cases rest with
    | nil => exact ⟨u, us, List.intercalate_singleton .., hu⟩
    | cons =>
      rw [List.intercalate_cons_cons]
      exact ⟨u, _, rfl, hu⟩

theorem exists_cons_of_bodyForm {t : TableSpec} {items : List (List Token)} (h : BodyForm t items) :
    ∀ item ∈ items, ∃ u us, item = u :: us ∧ u ≠ Token.rightParen := by
  have hcolumn : ∀ {cs : List ColumnSpec} {columns : List (List Token)},
      List.Forall₂ ColumnForm cs columns →
      ∀ item ∈ columns, ∃ u us, item = u :: us ∧ u ≠ Token.rightParen := by
    intro cs columns hcolumns item hitem
    obtain ⟨c, -, hc⟩ := exists_left_of_forall₂ hcolumns item hitem
    obtain ⟨hname, -, -⟩ := hc
    exact ⟨_, _, rfl, ne_of_isName (isName_of_ident? hname) rfl⟩
  cases h with
  | inline hcolumns => exact hcolumn hcolumns
  | clause hcolumns hkey _ =>
    intro item hitem
    rw [List.append_assoc, List.mem_append, List.mem_append] at hitem
    rcases hitem with hitem | hitem | hitem
    · exact hcolumn hcolumns item (List.mem_append_left _ hitem)
    · rw [List.mem_singleton.mp hitem]
      obtain ⟨-, hlabel, -⟩ := hkey
      cases hlabel <;> exact ⟨_, _, rfl, by simp⟩
    · exact hcolumn hcolumns item (List.mem_append_right _ hitem)

/-- The body of a table is empty or is read item by item. -/
theorem readBody_form (dialect : Dialect) {t : TableSpec} {items : List (List Token)}
    (hform : BodyForm t items) (hnodup : (t.columns.map (·.name)).Nodup) {ls : List Lexeme}
    (h : tokensOf ls = [Token.comma].intercalate items ++ [.rightParen]) :
    ∃ body, (nextToken ls = .rightParen ∧ body = .empty ∨
        nextToken ls ≠ .rightParen ∧ ∃ rest, readItems dialect [] ls = .ok (body, rest)) ∧
      Keyed t (body.columns.map ColumnDef.spec) (body.constraints.map (·.1)) := by
  obtain ⟨readings, rfl, hholds, hkeyed⟩ := exists_readings_body dialect hform
  by_cases hempty : readings = []
  · rw [hempty] at h hkeyed
    exact ⟨.empty, .inl ⟨nextToken_of_tokens h, rfl⟩, hkeyed⟩
  · obtain ⟨u, us, hfirst, hu⟩ :=
      exists_cons_items (by simpa using hempty) (exists_cons_of_bodyForm hform)
    have hnext : nextToken ls ≠ .rightParen := by
      rw [hfirst] at h
      rwa [nextToken_of_tokens h]
    obtain ⟨body, rest, hread, hcolumns, hconstraints, -⟩ :=
      readItems_tokens hholds hempty (by rwa [hkeyed.names]) (fun _ _ => List.not_mem_nil) h
    exact ⟨body, .inr ⟨hnext, rest, hread⟩, by rwa [hcolumns, hconstraints]⟩

theorem skipIfNotExists_form {guard : List Token}
    (hguard : guard = [] ∨ guard = [.keyword .ifWord, .keyword .not, .keyword .existsWord])
    {ls : List Lexeme} {t : Token} {ts : List Token} (h : tokensOf ls = guard ++ t :: ts)
    (ht : t ≠ .keyword .ifWord) :
    ∃ rest, skipIfNotExists ls = .ok rest ∧ tokensOf rest = t :: ts := by
  rcases hguard with rfl | rfl
  · exact ⟨ls, by rw [skipIfNotExists, nextToken_of_tokens h, if_neg ht], h⟩
  · have hnext := nextToken_of_tokens h
    obtain ⟨l, mid, rfl, -, hmid⟩ := List.map_eq_cons_iff.mp h
    obtain ⟨mid', hnot, hmid'⟩ := expect_tokens "NOT" hmid
    obtain ⟨rest, hexists, hrest⟩ := expect_tokens "EXISTS" hmid'
    refine ⟨rest, ?_, hrest⟩
    rw [skipIfNotExists, hnext, if_pos rfl, List.tail_cons, hnot]
    exact hexists

theorem readCreate_form (dialect : Dialect) {t : TableSpec} {form : List Token}
    (hform : TableForm t form) (hnodup : (t.columns.map (·.name)).Nodup) {ls : List Lexeme}
    (h : .keyword .create :: tokensOf ls = form) :
    ∃ body, readCreate dialect ls = .ok (t.name, body) ∧
      Keyed t (body.columns.map ColumnDef.spec) (body.constraints.map (·.1)) := by
  obtain ⟨hguard, hname, hitems⟩ := hform
  simp only [List.append_assoc, List.cons_append, List.nil_append] at h
  have h' := (List.cons.inj h).2
  have hmodifiers : ls.dropWhile (isTableModifier ·.token) = ls := by
    obtain ⟨l, ls, rfl, hl, -⟩ := List.map_eq_cons_iff.mp h'
    rw [List.dropWhile_cons_of_neg]
    rw [hl]
    decide
  obtain ⟨u, us, hu, huname⟩ := exists_cons_tableName hname _
  obtain ⟨mid, htable, hmid⟩ := expect_tokens "TABLE after CREATE" h'
  rw [hu] at hmid
  obtain ⟨mid', hexists, hmid'⟩ := skipIfNotExists_form hguard hmid (ne_of_isName huname rfl)
  rw [← hu] at hmid'
  obtain ⟨mid'', hread, hmid''⟩ := readQualifiedName_form hname "table name" hmid' (by simp)
  obtain ⟨rest, hopen, hrest⟩ := expect_tokens "`(` to open the table body" hmid''
  obtain ⟨body, hbody, hkeyed⟩ := readBody_form dialect hitems hnodup hrest
  refine ⟨body, ?_, hkeyed⟩
  simp only [readCreate, hmodifiers, htable, hexists, hread, hopen, bind, Except.bind]
  rcases hbody with ⟨hnext, rfl⟩ | ⟨hnext, last, hlast⟩
  · rw [if_pos hnext]
    rfl
  · rw [if_neg hnext, hlast]
    rfl

/-! ## Statements -/

namespace Statement

theorem read_table {s : Statement} {t : TableSpec} (dialect : Dialect)
    (hnodup : (t.columns.map (·.name)).Nodup) (h : TableForm t s.tokens) :
    ∃ d, ∃ r : TableReading, s.read dialect = .ok d ∧ r.table = t ∧ d.specs = [r.spec] ∧
      d.rules = r.rules := by
  have hfirst : s.first.token = .keyword .create := by
    generalize htokens : s.tokens = form at h
    obtain ⟨-, -, -⟩ := h
    simp only [List.append_assoc] at htokens
    exact (List.cons.inj htokens).1
  have hothers : .keyword .create :: tokensOf s.others = s.tokens := by
    rw [← hfirst]
    rfl
  obtain ⟨body, hread, hkeyed⟩ := readCreate_form dialect h hnodup hothers
  refine ⟨⟨[⟨t.name, body.columns, ⟨s.text, s.position⟩⟩],
    s.constraintDefs t.name body.constraints⟩, ⟨t, _, _, hkeyed⟩, ?_, rfl, rfl,
    rules_constraintDefs ..⟩
  simp only [read, hfirst, hread, bind, Except.bind]
  rfl

theorem read_link {s : Statement} {l : Link} (dialect : Dialect) (h : LinkForm l s.tokens) :
    ∃ d, s.read dialect = .ok d ∧ d.specs = [] ∧ d.rules = [l.rule] := by
  have hfirst : s.first.token = .keyword .alter := by
    generalize htokens : s.tokens = form at h
    obtain ⟨-, -, -, -, -, -, -, -⟩ := h
    simp only [List.append_assoc] at htokens
    exact (List.cons.inj htokens).1
  have hothers : .keyword .alter :: tokensOf s.others = s.tokens := by
    rw [← hfirst]
    rfl
  obtain ⟨position, hread⟩ := readAlter_form h hothers
  refine ⟨⟨[], s.constraintDefs l.holder [(l.rule.constraint, position)]⟩, ?_, rfl, rfl⟩
  simp only [read, hfirst, hread, bind, Except.bind]
  rfl

end Statement

namespace Document

/-- The document has the tables as they were read, and the rules of the links come last. -/
def Scripted (ts : List TableSpec) (ls : List Link) (d : Document) : Prop :=
  ∃ readings : List TableReading, readings.map (·.table) = ts ∧
    d.specs = readings.map TableReading.spec ∧
    d.rules = readings.flatMap TableReading.rules ++ ls.map Link.rule

theorem ofStatements_cons {dialect : Dialect} {s : Statement} {ss : List Statement}
    {d more : Document} (hread : s.read dialect = .ok d)
    (hmore : ofStatements dialect ss = .ok more) :
    ofStatements dialect (s :: ss) = .ok (d ++ more) := by
  rw [ofStatements, hread]
  simp only [hmore, bind, Except.bind]
  rfl

theorem ofStatements_links {dialect : Dialect} {ls : List Link} {ss : List Statement}
    (h : List.Forall₂ (fun l s => LinkForm l s.tokens) ls ss) :
    ∃ d, ofStatements dialect ss = .ok d ∧ d.specs = [] ∧ d.rules = ls.map Link.rule := by
  induction h with
  | nil => exact ⟨.empty, rfl, rfl, rfl⟩
  | @cons l s ls ss hs _ ih =>
    obtain ⟨d, hread, hspecs, hrules⟩ := s.read_link dialect hs
    obtain ⟨more, hmore, hspecs', hrules'⟩ := ih
    refine ⟨d ++ more, ofStatements_cons hread hmore, ?_, ?_⟩
    · rw [specs_append, hspecs, hspecs']
      rfl
    · rw [rules_append, hrules, hrules']
      rfl

theorem ofStatements_tables {dialect : Dialect} {ts : List TableSpec} {ls : List Link}
    {tables links : List Statement}
    (htables : List.Forall₂ (fun t s => TableForm t s.tokens) ts tables)
    (hlinks : List.Forall₂ (fun l s => LinkForm l s.tokens) ls links)
    (hcolumns : ∀ t ∈ ts, (t.columns.map (·.name)).Nodup) :
    ∃ d, ofStatements dialect (tables ++ links) = .ok d ∧ d.Scripted ts ls := by
  induction htables with
  | nil =>
    obtain ⟨d, hread, hspecs, hrules⟩ := ofStatements_links hlinks
    exact ⟨d, hread, [], rfl, hspecs, hrules⟩
  | @cons t s ts tables hs _ ih =>
    obtain ⟨hnodup, hrest⟩ := List.forall_mem_cons.mp hcolumns
    obtain ⟨d, r, hread, rfl, hspecs, hrules⟩ := s.read_table dialect hnodup hs
    obtain ⟨more, hmore, readings, rfl, hspecs', hrules'⟩ := ih hrest
    refine ⟨d ++ more, ofStatements_cons hread hmore, r :: readings, rfl, ?_, ?_⟩
    · rw [specs_append, hspecs, hspecs']
      rfl
    · rw [rules_append, hrules, hrules', List.flatMap_cons, List.append_assoc]

/-- Statements in the forms of tables and links are read as these, whatever the dialect. -/
theorem ofStatements_form (dialect : Dialect) {ts : List TableSpec} {ls : List Link}
    (hcolumns : ∀ t ∈ ts, (t.columns.map (·.name)).Nodup) {ss : List Statement}
    (h : ScriptForm ts ls (ss.map Statement.tokens)) :
    ∃ d, ofStatements dialect ss = .ok d ∧ d.Scripted ts ls := by
  obtain ⟨_, _, hsplit, htables, hlinks⟩ := h
  obtain ⟨tables, links, rfl, rfl, rfl⟩ := List.map_eq_append_iff.mp hsplit
  rw [List.forall₂_map_right_iff] at htables hlinks
  exact ofStatements_tables htables hlinks hcolumns

end Document
end Sql
end Schemata
