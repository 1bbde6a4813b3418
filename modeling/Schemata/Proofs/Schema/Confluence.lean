/-
Removals are confluent.  A removal may take with it what a later one names, so the later one fails,
or finds only a part of what it would have found.  Whatever the order, what is left is what no
removal names and no relation that led to or from something named, with notes that say what the
remaining relations say; this depends only on what is named.
-/
import Schemata.Proofs.Schema.Atomicity
import Schemata.Proofs.Schema.Edit

namespace Schemata

/-- A request to remove something, which need not be there. -/
inductive Removal
  | table (id : TableId)
  | column (e : Endpoint)
  | relation (id : RelationId)
  deriving DecidableEq, Repr

namespace Removal

def edit : Removal → Edit
  | table id => .removeTable id
  | column e => .removeColumn e
  | relation id => .disconnect id

/-- Whether the endpoint or its table is named. -/
def covers (removals : List Removal) (e : Endpoint) : Bool :=
  table e.table ∈ removals || column e ∈ removals

/-- Whether the relation is named, or leads to or from something that is. -/
def severs (removals : List Removal) (r : Relation) : Bool :=
  relation r.id ∈ removals || (covers removals r.source || covers removals r.target)

theorem covers_append (as bs : List Removal) (e : Endpoint) :
    covers (as ++ bs) e = (covers as e || covers bs e) := by
  simp only [covers, List.mem_append, Bool.decide_or]
  grind

theorem severs_append (as bs : List Removal) (r : Relation) :
    severs (as ++ bs) r = (severs as r || severs bs r) := by
  simp only [severs, List.mem_append, covers_append, Bool.decide_or]
  grind

end Removal

namespace Schema

open Removal (covers severs severs_append)

/-- The schema without what is named, with the notes it had. -/
def without (s : Schema) (removals : List Removal) : Schema where
  tables := (s.tables.filter fun t => .table t.id ∉ removals).map fun t =>
    { t with columns := t.columns.filter fun c => .column ⟨t.id, c.id⟩ ∉ removals }
  relations := s.relations.filter (!severs removals ·)
  counter := s.counter

/-- Only what is named matters, and neither how often nor in which order. -/
theorem without_congr {as bs : List Removal} (h : ∀ removal, removal ∈ as ↔ removal ∈ bs)
    (s : Schema) : s.without as = s.without bs := by
  simp only [without, severs, covers, h]

theorem without_without (s : Schema) (as bs : List Removal) :
    (s.without as).without bs = s.without (as ++ bs) := by
  simp only [without, List.filter_map, List.map_map, List.filter_filter, Function.comp_def,
    List.mem_append, severs_append, not_or, Bool.decide_and, Bool.not_or, Bool.and_comm]

/-- What is removed does not depend on the columns themselves, but only on their ids. -/
theorem without_mapColumns {g : Endpoint → Column → Column} (hg : KeepsIds g) (s : Schema)
    (removals : List Removal) :
    (s.mapColumns g).without removals = (s.without removals).mapColumns g := by
  have hid : ∀ e c, (g e c).id = c.id := hg
  simp only [without, mapColumns, List.filter_map, List.map_map, Function.comp_def, hid]

/-- Notes that are made afresh do not depend on the earlier ones. -/
theorem reconcile_without_reconcile (s : Schema) (removals : List Removal) :
    (s.reconcile.1.without removals).reconcile.1 = (s.without removals).reconcile.1 := by
  have hnote := keepsIds_note s.isForeignKey
  rw [reconcile_eq_mapColumns s, without_mapColumns hnote, reconcile_eq_mapColumns,
    mapColumns_mapColumns hnote]
  rfl

/-! ## One removal -/

section

variable {s : Schema}

theorem without_table (h : s.UniqueIds) (id : TableId) :
    s.without [.table id] = s.withoutTable id := by
  rw [withoutTable, eraseP_eq_filter h.tables]
  simp only [without, severs, covers, List.mem_singleton, Removal.table.injEq, reduceCtorEq,
    not_false_eq_true, decide_true, decide_false, List.filter_true, Bool.false_or, Bool.or_false,
    List.map_id', decide_not, Relation.touchesTable, beq_eq_decide, bne]

theorem without_column (h : s.UniqueIds) (e : Endpoint) :
    s.without [.column e] = s.withoutColumn e := by
  rw [withoutColumn_eq_map h]
  simp only [without, severs, covers, List.mem_singleton, Removal.column.injEq, reduceCtorEq,
    not_false_eq_true, decide_true, decide_false, List.filter_true, Bool.false_or, decide_not,
    Relation.touches, beq_eq_decide (α := Endpoint)]
  congr 1
  refine List.map_congr_left fun t ht => congrArg (Table.mk t.id t.name) ?_
  by_cases hid : t.id = e.table
  · rw [if_pos hid, eraseP_eq_filter (h.columns t ht)]
    refine List.filter_congr fun c _ => ?_
    have heq : (⟨t.id, c.id⟩ : Endpoint) = e ↔ c.id = e.column := by
      rw [hid]
      exact ⟨fun heq => heq ▸ rfl, fun heq => heq ▸ rfl⟩
    simp [heq, bne, beq_eq_decide]
  · rw [if_neg hid]
    refine List.filter_eq_self.mpr fun c _ => ?_
    have hne : (⟨t.id, c.id⟩ : Endpoint) ≠ e := fun heq => hid (heq ▸ rfl)
    simp [hne]

theorem without_relation (h : s.Linked) (id : RelationId) :
    s.without [.relation id] = s.withoutRelation id := by
  rw [withoutRelation, eraseP_eq_filter h.relations]
  simp only [without, severs, covers, List.mem_singleton, Removal.relation.injEq, reduceCtorEq,
    not_false_eq_true, decide_true, decide_false, List.filter_true, Bool.or_false,
    List.map_id', beq_eq_decide, bne]

/-- A removal that succeeds notes afresh all that it may have made wrong. -/
theorem Consistent.perform_removal (h : s.Consistent) {removal : Removal} {u : Schema}
    {outcome : Outcome} (hu : s.perform removal.edit = .ok (u, outcome)) :
    u = (s.without [removal]).reconcile.1 := by
  have hperforms := performs_of_perform hu
  cases removal with
  | table id =>
    cases hperforms with
    | removeTable _ => rw [h.refresh_withoutTable, without_table h.linked.toUniqueIds]
  | column e =>
    cases hperforms with
    | removeColumn _ => rw [h.refresh_withoutColumn, without_column h.linked.toUniqueIds]
  | relation id =>
    cases hperforms with
    | disconnect hr =>
      rw [h.refresh_withoutRelation (requireRelation_eq_ok hr), without_relation h.linked]

/-- If nothing that is named is there, nothing leads to or from it either. -/
theorem Linked.without_eq_self (h : s.Linked) {removals : List Removal}
    (htables : ∀ t ∈ s.tables, .table t.id ∉ removals)
    (hcolumns : ∀ e, s.HasEndpoint e → .column e ∉ removals)
    (hrelations : ∀ r ∈ s.relations, .relation r.id ∉ removals) : s.without removals = s := by
  have hcovers : ∀ e, s.HasEndpoint e → covers removals e = false := by
    intro e he
    have htable : .table e.table ∉ removals := by
      obtain ⟨t, ht, hid, -⟩ := he
      rw [← hid]
      exact htables t ht
    simp [covers, hcolumns e he, htable]
  have hkept : s.relations.filter (!severs removals ·) = s.relations := by
    refine List.filter_eq_self.mpr fun r hr => ?_
    obtain ⟨hsource, htarget⟩ := h.endpoints r hr
    simp [severs, hrelations r hr, hcovers _ hsource, hcovers _ htarget]
  have hall : s.tables.filter (fun t => .table t.id ∉ removals) = s.tables :=
    List.filter_eq_self.mpr fun t ht => by simp [htables t ht]
  rw [without, hkept, hall]
  refine congrArg (Schema.mk · s.relations s.counter) ?_
  refine (List.map_congr_left fun t ht => ?_).trans (List.map_id' _)
  refine congrArg (Table.mk t.id t.name) (List.filter_eq_self.mpr fun c hc => ?_)
  simpa using hcolumns ⟨t.id, c.id⟩ ⟨t, ht, rfl, c, hc, rfl⟩

theorem ne_of_absent_table {id : TableId} (h : (Missing.table id).Absent s) :
    ∀ t ∈ s.tables, t.id ≠ id := by
  intro t ht hid
  exact List.find?_eq_none.mp h t ht (by simp [hid])

theorem not_hasEndpoint_of_absent (h : s.UniqueIds) {e : Endpoint}
    (he : (Missing.table e.table).Absent s ∨ (Missing.column e).Absent s) :
    ¬s.HasEndpoint e := by
  rintro ⟨t, ht, hid, hc⟩
  cases he with
  | inl hnone => exact ne_of_absent_table hnone t ht hid
  | inr habsent =>
    obtain ⟨u, hu, hnone⟩ := habsent
    have htu : s.table? e.table = some t := (find?_eq_some_iff_mem h.tables).mpr ⟨ht, hid⟩
    rw [Option.some.inj (hu.symm.trans htu)] at hnone
    have hsome := column?_isSome_iff.mpr hc
    rw [hnone] at hsome
    cases hsome

/-- A removal that refers to something absent has nothing to remove. -/
theorem Linked.without_of_absent (h : s.Linked) {removal : Removal} {m : Missing}
    (hrefers : removal.edit.Refers m) (habsent : m.Absent s) : s.without [removal] = s := by
  cases removal with
  | table id =>
    cases hrefers
    exact h.without_eq_self (by simpa using ne_of_absent_table habsent) (by simp) (by simp)
  | column e =>
    have hend : ¬s.HasEndpoint e := by
      refine not_hasEndpoint_of_absent h.toUniqueIds ?_
      cases hrefers with
      | inl hm => exact .inl (hm ▸ habsent)
      | inr hm => exact .inr (hm ▸ habsent)
    exact h.without_eq_self (by simp) (fun e' he' => by
      simp only [List.mem_singleton, Removal.column.injEq]
      intro heq
      exact hend (heq ▸ he')) (by simp)
  | relation id =>
    cases hrefers
    have hne : ∀ r ∈ s.relations, r.id ≠ id := by
      intro r hr hid
      exact List.find?_eq_none.mp habsent r hr (by simp [hid])
    exact h.without_eq_self (by simp) (by simp) (by simpa using hne)

theorem Consistent.after_removal (h : s.Consistent) (removal : Removal) :
    s.after removal.edit = (s.without [removal]).reconcile.1 := by
  have hchecks := Checks.perform (s := s) removal.edit
  rw [Schema.after]
  cases hperform : s.perform removal.edit with
  | ok result => exact h.perform_removal hperform
  | error m =>
    rw [hperform] at hchecks
    rw [h.linked.without_of_absent hchecks.1 hchecks.2, h.truthful.reconcile_eq_self]

end

/-! ## Any number of removals -/

/-- The schema that a procedure leaves, whether it ends or fails. -/
def leftBy (s : Schema) (p : InPlace α) : Schema :=
  match p.run s with
  | .ok _ u => u
  | .error _ u => u

theorem leftBy_inPlace (s : Schema) (edit : Edit) : s.leftBy edit.inPlace = s.after edit := by
  rw [leftBy, Edit.run_inPlace, after]
  cases s.perform edit <;> rfl

/-- Each removal acts on what the earlier ones left. -/
theorem Consistent.foldl_removals {s : Schema} (h : s.Consistent) (removals : List Removal) :
    removals.foldl (fun u removal => u.leftBy removal.edit.inPlace) s =
      (s.without removals).reconcile.1 := by
  induction removals generalizing s with
  | nil =>
    rw [h.linked.without_eq_self (by simp) (by simp) (by simp), h.truthful.reconcile_eq_self]
    rfl
  | cons removal rest ih =>
    rw [List.foldl_cons, leftBy_inPlace, ih (h.after removal.edit), h.after_removal,
      reconcile_without_reconcile, without_without, List.singleton_append]

/-- Removals in any order, of which some may fail because of the others, leave the same. -/
theorem removals_confluent {s : Schema} (h : s.violation? = none) {removals order : List Removal}
    (horder : order.Perm removals) :
    order.foldl (fun u removal => u.leftBy removal.edit.inPlace) s =
      (s.without removals).reconcile.1 := by
  rw [(violation?_eq_none.mp h).foldl_removals, without_congr fun _ => horder.mem_iff]

/-- Relations lead from the first table through the second one to the third one, and within it. -/
def chained : Schema :=
  ⟨[⟨⟨"t1"⟩, "a", [⟨⟨"c1"⟩, "x", .uuid, true, false, false, false⟩]⟩,
    ⟨⟨"t2"⟩, "b", [⟨⟨"c1"⟩, "x", .uuid, false, true, false, true⟩,
      ⟨⟨"c2"⟩, "y", .text, false, false, true, true⟩]⟩,
    ⟨⟨"t3"⟩, "c", [⟨⟨"c1"⟩, "x", .uuid, false, true, false, true⟩,
      ⟨⟨"c2"⟩, "y", .uuid, false, true, false, true⟩]⟩],
   [⟨⟨"r1"⟩, ⟨⟨"t1"⟩, ⟨"c1"⟩⟩, ⟨⟨"t2"⟩, ⟨"c1"⟩⟩, .oneToMany⟩,
    ⟨⟨"r2"⟩, ⟨⟨"t2"⟩, ⟨"c1"⟩⟩, ⟨⟨"t3"⟩, ⟨"c1"⟩⟩, .manyToMany⟩,
    ⟨⟨"r3"⟩, ⟨⟨"t1"⟩, ⟨"c1"⟩⟩, ⟨⟨"t3"⟩, ⟨"c1"⟩⟩, .oneToOne⟩,
    ⟨⟨"r4"⟩, ⟨⟨"t3"⟩, ⟨"c1"⟩⟩, ⟨⟨"t3"⟩, ⟨"c2"⟩⟩, .oneToMany⟩], 9⟩

/-- The first removal takes two relations with it, and the others find less and less. -/
def chainedRemovals : List Removal :=
  [.column ⟨⟨"t2"⟩, ⟨"c1"⟩⟩, .relation ⟨"r2"⟩, .table ⟨"t2"⟩, .column ⟨⟨"t2"⟩, ⟨"c2"⟩⟩,
    .table ⟨"missing"⟩, .relation ⟨"r4"⟩, .table ⟨"t2"⟩]

theorem removals_confluent_chained :
    chained.violation? = none ∧ chainedRemovals.reverse.Perm chainedRemovals ∧
      chainedRemovals.reverse.foldl (fun u removal => u.leftBy removal.edit.inPlace) chained =
        ⟨[⟨⟨"t1"⟩, "a", [⟨⟨"c1"⟩, "x", .uuid, true, false, false, false⟩]⟩,
          ⟨⟨"t3"⟩, "c", [⟨⟨"c1"⟩, "x", .uuid, false, true, false, true⟩,
            ⟨⟨"c2"⟩, "y", .uuid, false, false, false, true⟩]⟩],
         [⟨⟨"r3"⟩, ⟨⟨"t1"⟩, ⟨"c1"⟩⟩, ⟨⟨"t3"⟩, ⟨"c1"⟩⟩, .oneToOne⟩], 9⟩ := by
  have hconsistent : chained.violation? = none := by decide
  have horder : chainedRemovals.reverse.Perm chainedRemovals := chainedRemovals.reverse_perm
  refine ⟨hconsistent, horder, ?_⟩
  rw [removals_confluent hconsistent horder]
  decide

end Schema
end Schemata
