/-
Taking back what was made.  What is new has an id that nothing else has, and relations lead only to
what is there, so its removal takes nothing else with it; and the notes that it makes afresh are
those that the schema had before.
-/
import Schemata.Proofs.Schema.Confluence
import Schemata.Proofs.Schema.TableIds

namespace Schemata
namespace Removal

/-- What the removal reports if what it names is there. -/
def report? (s : Schema) : Removal → Option Outcome
  | table id => (s.table? id).map .removedTable
  | column e => (s.column? e).map .removedColumn
  | relation id => (s.relation? id).map .removedRelation

/-- The removal names what the edit makes, by the id that the edit reports. -/
inductive TakesBack : Removal → Edit → Outcome → Prop
  | table (name : String) (first : Option ColumnSpec) (id : TableId) :
      TakesBack (.table id) (.addTable name first) (.newTable id)
  | column (table : TableId) (spec : ColumnSpec) (id : ColumnId) :
      TakesBack (.column ⟨table, id⟩) (.addColumn table spec) (.newColumn id)
  | relation (source target : Endpoint) (id : RelationId) :
      TakesBack (.relation id) (.connect source target) (.newRelation id)

end Removal

namespace Schema

open Removal (covers severs TakesBack)

/-! ## Removing what was added -/

theorem without_appendTable (s : Schema) (t : Table) :
    without { s with tables := s.tables ++ [t] } [.table t.id] = s.without [.table t.id] := by
  simp [without]

theorem without_appendRelation (s : Schema) (r : Relation) :
    without { s with relations := s.relations ++ [r] } [.relation r.id] =
      s.without [.relation r.id] := by
  simp [without, severs]

theorem without_withColumn (s : Schema) (table : TableId) (c : Column) :
    (s.withColumn table c).without [.column ⟨table, c.id⟩] =
      s.without [.column ⟨table, c.id⟩] := by
  have hnew : ∀ t : Table, (if t.id = table then [c] else []).filter
      (fun c' => .column ⟨t.id, c'.id⟩ ∉ [Removal.column ⟨table, c.id⟩]) = [] := by
    intro t
    split <;> simp [*]
  simp only [without, withColumn, List.filter_map, List.map_map, Function.comp_def,
    List.filter_append, hnew, List.append_nil]

/-- A removal that finds nothing to report has nothing to remove. -/
theorem Linked.without_of_report? {s : Schema} (h : s.Linked) {removal : Removal}
    (hnone : removal.report? s = none) : s.without [removal] = s := by
  cases removal with
  | table id => exact h.without_of_absent rfl (Option.map_eq_none_iff.mp hnone)
  | column e =>
    have hcolumn : s.column? e = none := Option.map_eq_none_iff.mp hnone
    cases ht : s.table? e.table with
    | none => exact h.without_of_absent (.inl rfl) ht
    | some t =>
      rw [column?, ht] at hcolumn
      exact h.without_of_absent (.inr rfl) ⟨t, ht, hcolumn⟩
  | relation id => exact h.without_of_absent rfl (Option.map_eq_none_iff.mp hnone)

theorem exists_perform_of_report? {s : Schema} {removal : Removal} {made : Outcome}
    (h : removal.report? s = some made) : ∃ u, s.perform removal.edit = .ok (u, made) := by
  cases removal with
  | table id =>
    obtain ⟨t, ht, rfl⟩ := Option.map_eq_some_iff.mp h
    exact ⟨_, by simp only [Removal.edit, perform, removeTable, requireTable, ht]; rfl⟩
  | column e =>
    obtain ⟨c, hc, rfl⟩ := Option.map_eq_some_iff.mp h
    obtain ⟨t, ht, hcolumn⟩ := Option.bind_eq_some_iff.mp hc
    exact ⟨_, by
      simp only [Removal.edit, perform, removeColumn, requireColumn, requireTable, ht, bind,
        Except.bind, hcolumn]
      rfl⟩
  | relation id =>
    obtain ⟨r, hr, rfl⟩ := Option.map_eq_some_iff.mp h
    exact ⟨_, by simp only [Removal.edit, perform, disconnect, requireRelation, hr]; rfl⟩

/-! ## What is made -/

/-- The second schema has something new that the removal names, and nothing else that is new. -/
structure Adds (s u : Schema) (removal : Removal) : Prop where
  absent : removal.report? s = none
  present : (removal.report? u).isSome
  rest : (u.without [removal]).reconcile.1 =
    (without { s with counter := u.counter } [removal]).reconcile.1
  counter : s.counter < u.counter

section

variable {s : Schema}

theorem adds_appendTable {t : Table} {n : Nat} (hid : t.id ∉ s.tableIds) (hn : s.counter < n) :
    s.Adds { s with tables := s.tables ++ [t], counter := n } (.table t.id) where
  absent := by
    refine Option.map_eq_none_iff.mpr (List.find?_eq_none.mpr fun t' ht' heq => hid ?_)
    rw [← beq_iff_eq.mp heq]
    exact List.mem_map_of_mem ht'
  present := by
    rw [Removal.report?, Option.isSome_map]
    exact List.find?_isSome.mpr ⟨t, List.mem_append_right _ List.mem_cons_self, beq_self_eq_true _⟩
  rest := congrArg (·.reconcile.1) (without_appendTable { s with counter := n } t)
  counter := hn

theorem adds_addTable (name : String) (first : Option ColumnSpec) :
    s.Adds (s.addTable name first).1 (.table (s.addTable name first).2) := by
  cases first with
  | none => exact adds_appendTable s.freshTable_not_mem s.counter_lt_freshTable
  | some spec =>
    let numbered : Schema := { s with counter := s.freshTable }
    exact adds_appendTable (t := ⟨.ofNumber s.freshTable, name, [(numbered.newColumn spec).1]⟩)
      s.freshTable_not_mem (Nat.lt_trans s.counter_lt_freshTable numbered.counter_lt_freshColumn)

theorem Consistent.adds_insertColumn (h : s.Consistent) {t : Table} (ht : t ∈ s.tables)
    (spec : ColumnSpec) :
    s.Adds (s.insertColumn t.id spec).1 (.column ⟨t.id, (s.insertColumn t.id spec).2⟩) where
  absent := by
    refine Option.map_eq_none_iff.mpr (Option.eq_none_iff_forall_ne_some.mpr fun c hc => ?_)
    obtain ⟨t', ht', hcolumn⟩ := Option.bind_eq_some_iff.mp hc
    have hid : c.id = (s.insertColumn t.id spec).2 := by simpa using List.find?_some hcolumn
    refine s.freshColumn_not_mem (List.mem_flatMap.mpr ⟨t', List.mem_of_find?_eq_some ht', ?_⟩)
    rw [show ColumnId.ofNumber s.freshColumn = c.id from hid.symm]
    exact List.mem_map_of_mem (List.mem_of_find?_eq_some hcolumn)
  present := by
    have hend : (s.insertColumn t.id spec).1.HasEndpoint ⟨t.id, (s.insertColumn t.id spec).2⟩ := by
      rw [insertColumn_eq_withColumn h.linked.toUniqueIds]
      refine ⟨_, List.mem_map_of_mem ht, rfl, (s.newColumn spec).1, ?_, rfl⟩
      rw [if_pos rfl]
      exact List.mem_append_right _ List.mem_cons_self
    obtain ⟨c, hc⟩ := hend.exists_requireColumn (h.insertColumn t.id spec).linked.toUniqueIds
    obtain ⟨t', ht', hcolumn⟩ := InPlace.column?_of_requireColumn hc
    rw [Removal.report?, Option.isSome_map, column?, ht', Option.bind_some, hcolumn]
    rfl
  rest := by
    rw [insertColumn_eq_withColumn h.linked.toUniqueIds]
    exact congrArg (·.reconcile.1)
      (without_withColumn { s with counter := s.freshColumn } t.id (s.newColumn spec).1)
  counter := by
    rw [insertColumn_eq_withColumn h.linked.toUniqueIds]
    exact s.counter_lt_freshColumn

theorem Consistent.adds_insertRelation (h : s.Consistent) (source target : Endpoint)
    (cardinality : Cardinality) :
    s.Adds (s.insertRelation source target cardinality).1
      (.relation (s.insertRelation source target cardinality).2) where
  absent := by
    refine Option.map_eq_none_iff.mpr (List.find?_eq_none.mpr fun r hr heq => ?_)
    refine s.freshRelation_not_mem ?_
    rw [show RelationId.ofNumber s.freshRelation = r.id from (beq_iff_eq.mp heq).symm]
    exact List.mem_map_of_mem hr
  present := by
    rw [Removal.report?, Option.isSome_map]
    exact List.find?_isSome.mpr ⟨_, List.mem_append_right _ List.mem_cons_self, beq_self_eq_true _⟩
  rest := by
    rw [insertRelation_eq_reconcile h, reconcile_without_reconcile]
    exact congrArg (·.reconcile.1)
      (without_appendRelation { s with counter := s.freshRelation }
        ⟨.ofNumber s.freshRelation, source, target, cardinality⟩)
  counter := s.counter_lt_freshRelation

/-- What an edit makes and reports is new. -/
theorem Consistent.adds_of_perform (h : s.Consistent) {removal : Removal} {edit : Edit}
    {outcome : Outcome} (hback : TakesBack removal edit outcome) {u : Schema}
    (hu : s.perform edit = .ok (u, outcome)) : s.Adds u removal := by
  have hperforms := performs_of_perform hu
  cases hback with
  | table name first id =>
    cases hperforms with
    | addTable => exact adds_addTable name first
  | column table spec id =>
    cases hperforms with
    | addColumn _ ht =>
      obtain ⟨hmem, rfl⟩ := requireTable_eq_ok ht
      exact h.adds_insertColumn hmem spec
  | relation source target id =>
    cases hperforms with
    | connect _ _ => exact h.adds_insertRelation source target .oneToMany

/-- What was added is found, and without it the schema is as it was. -/
theorem Adds.exists_removal {u : Schema} {removal : Removal} (hadds : s.Adds u removal)
    (h : s.Consistent) (hu : u.Consistent) :
    ∃ made, removal.report? u = some made ∧
      u.perform removal.edit = .ok ({ s with counter := u.counter }, made) := by
  obtain ⟨made, hmade⟩ := Option.isSome_iff_exists.mp hadds.present
  obtain ⟨v, hv⟩ := exists_perform_of_report? hmade
  have hcounted : Consistent { s with counter := u.counter } := h.withCounter u.counter
  have habsent : removal.report? { s with counter := u.counter } = none := by
    rw [← hadds.absent]
    cases removal <;> rfl
  have hback : v = { s with counter := u.counter } := by
    rw [hu.perform_removal hv, hadds.rest, hcounted.linked.without_of_report? habsent,
      hcounted.truthful.reconcile_eq_self]
  rw [hback] at hv
  exact ⟨made, hmade, hv⟩

end

/-- What was just made can be removed again, and then only the number of the last id is another
one.  The removal reports what it finds by the new id, by which nothing was found before. -/
theorem inPlace_undone {s u : Schema} (h : s.violation? = none) {removal : Removal} {edit : Edit}
    {outcome : Outcome} (hback : TakesBack removal edit outcome)
    (hu : edit.inPlace.run s = .ok outcome u) :
    ∃ made, removal.edit.inPlace.run u = .ok made { s with counter := u.counter } ∧
      removal.report? u = some made ∧ removal.report? s = none ∧ s.counter < u.counter := by
  have hconsistent := violation?_eq_none.mp h
  have hperform := Edit.run_inPlace_eq_ok.mp hu
  have hadds := hconsistent.adds_of_perform hback hperform
  obtain ⟨made, hmade, hremoval⟩ := hadds.exists_removal hconsistent (hconsistent.perform hperform)
  exact ⟨made, Edit.run_inPlace_eq_ok.mpr hremoval, hmade, hadds.absent, hadds.counter⟩

/-- The next two numbers belong to relations already, one of which leads to the same column. -/
def recounted : Schema := { chained with counter := 2 }

def recountedLinked : Schema where
  tables := chained.tables
  relations := chained.relations ++
    [⟨⟨"r5"⟩, ⟨⟨"t2"⟩, ⟨"c2"⟩⟩, ⟨⟨"t3"⟩, ⟨"c1"⟩⟩, .oneToMany⟩]
  counter := 5

theorem inPlace_undone_recounted :
    recounted.violation? = none ∧
      TakesBack (.relation ⟨"r5"⟩) (.connect ⟨⟨"t2"⟩, ⟨"c2"⟩⟩ ⟨⟨"t3"⟩, ⟨"c1"⟩⟩)
        (.newRelation ⟨"r5"⟩) ∧
      (Edit.connect ⟨⟨"t2"⟩, ⟨"c2"⟩⟩ ⟨⟨"t3"⟩, ⟨"c1"⟩⟩).inPlace.run recounted =
        .ok (.newRelation ⟨"r5"⟩) recountedLinked ∧
      (Removal.relation ⟨"r5"⟩).edit.inPlace.run recountedLinked =
        .ok (.removedRelation ⟨⟨"r5"⟩, ⟨⟨"t2"⟩, ⟨"c2"⟩⟩, ⟨⟨"t3"⟩, ⟨"c1"⟩⟩, .oneToMany⟩)
          { chained with counter := 5 } := by
  have hconsistent : recounted.violation? = none := by decide
  have hback := TakesBack.relation ⟨⟨"t2"⟩, ⟨"c2"⟩⟩ ⟨⟨"t3"⟩, ⟨"c1"⟩⟩ ⟨"r5"⟩
  have hrun : (Edit.connect ⟨⟨"t2"⟩, ⟨"c2"⟩⟩ ⟨⟨"t3"⟩, ⟨"c1"⟩⟩).inPlace.run recounted =
      .ok (.newRelation ⟨"r5"⟩) recountedLinked :=
    Edit.run_inPlace_eq_ok.mpr (by decide)
  obtain ⟨made, hremoval, hmade, -⟩ := inPlace_undone hconsistent hback hrun
  cases hmade
  exact ⟨hconsistent, hback, hrun, hremoval⟩

end Schema
end Schemata
