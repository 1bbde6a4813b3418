/-
Adding to a consistent schema and changing parts of it.  A new id belongs to nothing, so no relation
leads to what is new, and a column keeps a true note as long as the relations stay.
-/
import Mathlib.Data.List.InsertIdx
import Schemata.Proofs.Schema.Consistency
import Schemata.Proofs.Schema.FreshId

namespace Schemata
namespace Schema

theorem Consistent.withCounter {s : Schema} (h : s.Consistent) (n : Nat) :
    Consistent { s with counter := n } :=
  ⟨h.tables_nodup, h.columns_nodup, h.relations_nodup, h.endpoints, h.foreignKeys⟩

/-! ## Tables -/

/-- No relation leads to a table that is not there. -/
theorem Consistent.isForeignKey_of_not_mem {s : Schema} (h : s.Consistent) {e : Endpoint}
    (he : ¬s.HasEndpoint e) : s.isForeignKey e = false := by
  rw [Bool.eq_false_iff]
  intro hkey
  obtain ⟨r, hr, htarget⟩ := isForeignKey_iff.mp hkey
  exact he (htarget ▸ (h.endpoints r hr).2)

theorem Consistent.appendTable {s : Schema} (h : s.Consistent) {t : Table}
    (hid : t.id ∉ s.tableIds) (hcolumns : (t.columns.map (·.id)).Nodup)
    (hnotes : ∀ c ∈ t.columns, c.isForeignKey = false) :
    Consistent { s with tables := s.tables ++ [t] } := by
  have hends : ∀ e, s.HasEndpoint e → HasEndpoint { s with tables := s.tables ++ [t] } e :=
    fun e he => he.mono fun u hu => ⟨u, List.mem_append_left _ hu, rfl, fun c hc => ⟨c, hc, rfl⟩⟩
  refine consistent_iff.mpr ⟨⟨⟨?_, ?_⟩, h.relations_nodup, ?_⟩, ?_⟩
  · simp only [List.map_append, List.map_cons, List.map_nil]
    refine List.nodup_append.mpr ⟨h.tables_nodup, by simp, ?_⟩
    intro id hmem id' hid' heq
    rw [List.mem_singleton.mp hid'] at heq
    exact hid (heq ▸ hmem)
  · intro u hu
    rcases List.mem_append.mp hu with hu | hu
    · exact h.columns_nodup u hu
    · rw [List.mem_singleton.mp hu]
      exact hcolumns
  · exact fun r hr => ⟨hends _ (h.endpoints r hr).1, hends _ (h.endpoints r hr).2⟩
  · intro u hu c hc
    rcases List.mem_append.mp hu with hu | hu
    · exact h.truthful u hu c hc
    · rw [List.mem_singleton.mp hu] at hc ⊢
      rw [hnotes c hc]
      refine (h.isForeignKey_of_not_mem ?_).symm
      rintro ⟨v, hv, hvid, -⟩
      have hmem : v.id ∈ s.tableIds := List.mem_map_of_mem hv
      rw [hvid] at hmem
      exact hid hmem

theorem Consistent.addTable {s : Schema} (h : s.Consistent) (name : String)
    (first : Option ColumnSpec) : (s.addTable name first).1.Consistent := by
  cases first with
  | none =>
    exact (h.withCounter s.freshTable).appendTable (t := ⟨.ofNumber s.freshTable, name, []⟩)
      s.freshTable_not_mem (by simp) (by simp)
  | some spec =>
    let numbered : Schema := { s with counter := s.freshTable }
    have hnumbered : numbered.Consistent := h.withCounter s.freshTable
    refine (hnumbered.withCounter numbered.freshColumn).appendTable
      (t := ⟨.ofNumber s.freshTable, name, [(numbered.newColumn spec).1]⟩)
      s.freshTable_not_mem (by simp) ?_
    intro c hc
    rw [List.mem_singleton.mp hc]
    rfl

/-- A table may get another name or its columns another order. -/
theorem Consistent.modifyTable {s : Schema} (h : s.Consistent) {id : TableId} {f : Table → Table}
    (hid : ∀ t, (f t).id = t.id)
    (hperm : ∀ t ∈ s.tables, t.id = id → (f t).columns.Perm t.columns) :
    (s.modifyTable id f).Consistent := by
  rw [modifyTable_eq_map h.linked.toUniqueIds]
  have hids : ∀ t, (if t.id = id then f t else t).id = t.id := by
    intro t
    split
    · exact hid t
    · rfl
  have hcolumns : ∀ t ∈ s.tables, (if t.id = id then f t else t).columns.Perm t.columns := by
    intro t ht
    split
    · next heq => exact hperm t ht heq
    · exact List.Perm.refl _
  have hends : ∀ e, s.HasEndpoint e →
      HasEndpoint { s with tables := s.tables.map fun t => if t.id = id then f t else t } e := by
    refine fun e he => he.mono fun t ht => ⟨_, List.mem_map_of_mem ht, hids t, fun c hc => ?_⟩
    exact ⟨c, (hcolumns t ht).mem_iff.mpr hc, rfl⟩
  refine consistent_iff.mpr ⟨⟨⟨?_, ?_⟩, h.relations_nodup, ?_⟩, ?_⟩
  · simpa only [List.map_map, Function.comp_def, hids] using h.tables_nodup
  · intro t ht
    obtain ⟨u, hu, rfl⟩ := List.mem_map.mp ht
    exact ((hcolumns u hu).map _).nodup_iff.mpr (h.columns_nodup u hu)
  · exact fun r hr => ⟨hends _ (h.endpoints r hr).1, hends _ (h.endpoints r hr).2⟩
  · intro t ht c hc
    obtain ⟨u, hu, rfl⟩ := List.mem_map.mp ht
    rw [hids u]
    exact h.truthful u hu c ((hcolumns u hu).mem_iff.mp hc)

/-! ## Columns -/

/-- The schema with a column at the end of the columns of a table. -/
def withColumn (s : Schema) (table : TableId) (c : Column) : Schema :=
  { s with
    tables := s.tables.map fun t =>
      { t with columns := t.columns ++ if t.id = table then [c] else [] } }

theorem insertColumn_eq_withColumn {s : Schema} (h : s.UniqueIds) (table : TableId)
    (spec : ColumnSpec) :
    (s.insertColumn table spec).1 =
      { s.withColumn table (s.newColumn spec).1 with counter := s.freshColumn } := by
  have hnew : UniqueIds (s.newColumn spec).2 := ⟨h.tables, h.columns⟩
  rw [show (s.insertColumn table spec).1 = (s.newColumn spec).2.modifyTable table
    fun t => { t with columns := t.columns ++ [(s.newColumn spec).1] } from rfl,
    modifyTable_eq_map hnew]
  show Schema.mk _ _ _ = Schema.mk _ _ _
  congr 1
  refine List.map_congr_left fun t _ => ?_
  split
  · rfl
  · rw [List.append_nil]

theorem HasEndpoint.withColumn {s : Schema} {e : Endpoint} (h : s.HasEndpoint e) (table : TableId)
    (c : Column) : (s.withColumn table c).HasEndpoint e :=
  h.mono fun _ ht => ⟨_, List.mem_map_of_mem ht, rfl, fun c' hc' =>
    ⟨c', List.mem_append_left _ hc', rfl⟩⟩

/-- The columns of a schema with one more column are the earlier ones and the new one. -/
theorem mem_columns_withColumn {t : Table} {table : TableId} {c c' : Column}
    (h : c' ∈ t.columns ++ if t.id = table then [c] else []) :
    c' ∈ t.columns ∨ c' = c ∧ t.id = table := by
  rcases List.mem_append.mp h with h | h
  · exact .inl h
  · split at h
    · next hid => exact .inr ⟨List.mem_singleton.mp h, hid⟩
    · cases h

theorem Consistent.withColumn {s : Schema} (h : s.Consistent) (table : TableId) {c : Column}
    (hid : c.id ∉ s.columnIds) (hnote : c.isForeignKey = false) :
    (s.withColumn table c).Consistent := by
  have hnew : ∀ t ∈ s.tables, ∀ c' ∈ t.columns, c'.id ≠ c.id := by
    intro t ht c' hc' heq
    exact hid (heq ▸ List.mem_flatMap.mpr ⟨t, ht, List.mem_map_of_mem hc'⟩)
  refine consistent_iff.mpr ⟨⟨⟨?_, ?_⟩, h.relations_nodup, ?_⟩, ?_⟩
  · simpa [Schema.withColumn, Function.comp_def] using h.tables_nodup
  · intro t ht
    obtain ⟨u, hu, rfl⟩ := List.mem_map.mp ht
    rw [List.map_append]
    refine List.nodup_append.mpr ⟨h.columns_nodup u hu, by split <;> simp, ?_⟩
    intro id hmem id' hmem' heq
    obtain ⟨c', hc', rfl⟩ := List.mem_map.mp hmem
    have hlast : id' = c.id := by
      split at hmem'
      · simpa using hmem'
      · cases hmem'
    exact hnew u hu c' hc' (heq.trans hlast)
  · exact fun r hr =>
      ⟨(h.endpoints r hr).1.withColumn table c, (h.endpoints r hr).2.withColumn table c⟩
  · intro t ht c' hc'
    obtain ⟨u, hu, rfl⟩ := List.mem_map.mp ht
    rcases mem_columns_withColumn hc' with hc' | ⟨rfl, -⟩
    · exact h.truthful u hu c' hc'
    · rw [hnote]
      refine (h.isForeignKey_of_not_mem ?_).symm
      rintro ⟨v, hv, -, c'', hc'', heq⟩
      exact hnew v hv c'' hc'' heq

theorem Consistent.insertColumn {s : Schema} (h : s.Consistent) (table : TableId)
    (spec : ColumnSpec) : (s.insertColumn table spec).1.Consistent := by
  rw [insertColumn_eq_withColumn h.linked.toUniqueIds]
  exact (h.withColumn table s.freshColumn_not_mem rfl).withCounter _

theorem addColumn_of_mem {s : Schema} (h : s.UniqueIds) {t : Table} (ht : t ∈ s.tables)
    (spec : ColumnSpec) : s.addColumn t.id spec = .ok (s.insertColumn t.id spec) := by
  rw [addColumn, requireTable_of_mem h ht]
  rfl

/-- Columns may change as long as they keep their ids and notes. -/
theorem Consistent.mapColumns {s : Schema} (h : s.Consistent) {g : Endpoint → Column → Column}
    (hg : KeepsIds g)
    (hnote : ∀ t ∈ s.tables, ∀ c ∈ t.columns,
      (g ⟨t.id, c.id⟩ c).isForeignKey = c.isForeignKey) : (s.mapColumns g).Consistent := by
  refine consistent_iff.mpr ⟨h.linked.mapColumns hg, ?_⟩
  refine (forall_mapColumns hg (p := fun e c => c.isForeignKey = s.isForeignKey e)).mpr ?_
  intro t ht c hc
  rw [hnote t ht c hc, h.truthful t ht c hc]

theorem Consistent.modifyColumn {s : Schema} (h : s.Consistent) {e : Endpoint}
    {f : Column → Column} (hid : ∀ c, (f c).id = c.id)
    (hnote : ∀ c, c.isForeignKey = s.isForeignKey e → (f c).isForeignKey = c.isForeignKey) :
    (s.modifyColumn e f).Consistent := by
  rw [modifyColumn_eq_mapColumns h.linked.toUniqueIds]
  refine h.mapColumns ?_ fun t ht c hc => ?_
  · intro e' c
    dsimp only
    split
    · exact hid c
    · rfl
  · split
    · next he => exact hnote c (he ▸ h.truthful t ht c hc)
    · rfl

theorem updateColumn_of_hasEndpoint {s : Schema} (h : s.Consistent) {e : Endpoint}
    (he : s.HasEndpoint e) {patch : ColumnPatch} {f : Column → Column}
    (hf : ∀ c, patch.apply c.isForeignKey c = f c) :
    s.updateColumn e patch = .ok (s.modifyColumn e f) := by
  have hids := h.linked.toUniqueIds
  obtain ⟨c, hc⟩ := he.exists_requireColumn hids
  rw [updateColumn, hc]
  show Except.ok (s.modifyColumn e _) = _
  rw [modifyColumn_eq_mapColumns hids, modifyColumn_eq_mapColumns hids]
  refine congrArg Except.ok (mapColumns_congr fun t ht c hc => ?_)
  by_cases hend : (⟨t.id, c.id⟩ : Endpoint) = e
  · rw [if_pos hend, if_pos hend, ← hend, ← h.truthful t ht c hc, hf]
  · rw [if_neg hend, if_neg hend]

/-! ## Relations -/

/-- A new relation changes nothing about the tables but the notes. -/
theorem insertRelation_eq_reconcile {s : Schema} (h : s.Consistent) (source target : Endpoint)
    (cardinality : Cardinality) :
    (s.insertRelation source target cardinality).1 =
      (reconcile { s with
        relations := s.relations ++ [⟨.ofNumber s.freshRelation, source, target, cardinality⟩]
        counter := s.freshRelation }).1 := by
  let related : Schema := { s with
    relations := s.relations ++ [⟨.ofNumber s.freshRelation, source, target, cardinality⟩]
    counter := s.freshRelation }
  have hids : related.UniqueIds := ⟨h.tables_nodup, h.columns_nodup⟩
  show related.refresh target = related.reconcile.1
  refine refresh_eq_reconcile hids fun t ht c hc hne => ?_
  rw [h.truthful t ht c hc]
  simp [isForeignKey, related, Ne.symm hne]

theorem Consistent.insertRelation {s : Schema} (h : s.Consistent) {source target : Endpoint}
    (hsource : s.HasEndpoint source) (htarget : s.HasEndpoint target)
    (cardinality : Cardinality) : (s.insertRelation source target cardinality).1.Consistent := by
  rw [insertRelation_eq_reconcile h]
  refine Linked.reconcile ⟨⟨h.tables_nodup, h.columns_nodup⟩, ?_, ?_⟩
  · rw [List.map_append]
    refine List.nodup_append.mpr ⟨h.relations_nodup, by simp, ?_⟩
    intro id hid id' hid' heq
    have hnew : id = .ofNumber s.freshRelation := heq.trans (List.mem_singleton.mp hid')
    rw [hnew] at hid
    exact s.freshRelation_not_mem hid
  · intro r hr
    rcases List.mem_append.mp hr with hr | hr
    · exact h.endpoints r hr
    · rw [List.mem_singleton.mp hr]
      exact ⟨hsource, htarget⟩

theorem HasEndpoint.insertRelation {s : Schema} (h : s.Consistent) {e : Endpoint}
    (he : s.HasEndpoint e) (source target : Endpoint) (cardinality : Cardinality) :
    (s.insertRelation source target cardinality).1.HasEndpoint e := by
  rw [insertRelation_eq_reconcile h]
  exact he.mapColumns (keepsIds_note _)

theorem connect_of_hasEndpoint {s : Schema} (h : s.UniqueIds) {source target : Endpoint}
    (hsource : s.HasEndpoint source) (htarget : s.HasEndpoint target) :
    s.connect source target = .ok (s.insertRelation source target .oneToMany) := by
  obtain ⟨c, hc⟩ := hsource.exists_requireColumn h
  obtain ⟨d, hd⟩ := htarget.exists_requireColumn h
  rw [connect, hc, hd]
  rfl

/-- A relation that was just made can be given another cardinality. -/
theorem setCardinality_insertRelation (s : Schema) (source target : Endpoint)
    (cardinality cardinality' : Cardinality) :
    (s.insertRelation source target cardinality).1.setCardinality
        (s.insertRelation source target cardinality).2 cardinality' =
      .ok (s.insertRelation source target cardinality').1 := by
  let made (cardinality : Cardinality) : Relation :=
    ⟨.ofNumber s.freshRelation, source, target, cardinality⟩
  have hother : ∀ r ∈ s.relations, (r.id == RelationId.ofNumber s.freshRelation) = false :=
    fun r hr => beq_false_of_ne fun heq => s.freshRelation_not_mem (heq ▸ List.mem_map_of_mem hr)
  have hfound : (s.insertRelation source target cardinality).1.relation?
      (.ofNumber s.freshRelation) = some (made cardinality) := by
    show (s.relations ++ [made cardinality]).find? _ = _
    have hnone := List.find?_eq_none.mpr fun r hr => Bool.eq_false_iff.mp (hother r hr)
    rw [List.find?_append, hnone, Option.none_or]
    exact List.find?_cons_of_pos (beq_self_eq_true _)
  have hkey : isForeignKey { s with
      relations := s.relations ++ [made cardinality], counter := s.freshRelation } target =
      isForeignKey { s with
        relations := s.relations ++ [made cardinality'], counter := s.freshRelation } target := by
    simp only [isForeignKey, List.any_append]
    rfl
  have htables : (s.insertRelation source target cardinality).1.tables =
      (s.insertRelation source target cardinality').1.tables := by
    show (modifyColumn _ target fun c => { c with isForeignKey := isForeignKey _ target }).tables =
      (modifyColumn _ target fun c => { c with isForeignKey := isForeignKey _ target }).tables
    rw [hkey]
    rfl
  have hid : (s.insertRelation source target cardinality).2 = .ofNumber s.freshRelation := rfl
  rw [setCardinality, requireRelation, hid, hfound]
  show Except.ok (Schema.mk (s.insertRelation source target cardinality).1.tables
    (modifyFirst _ _ (s.relations ++ [made cardinality])) s.freshRelation) = _
  rw [modifyFirst_append_cons _ hother (beq_self_eq_true _), htables]
  rfl

/-- Relations may change as long as they keep their ids and ends. -/
theorem Consistent.mapRelations {s : Schema} (h : s.Consistent) {f : Relation → Relation}
    (hid : ∀ r, (f r).id = r.id) (hsource : ∀ r, (f r).source = r.source)
    (htarget : ∀ r, (f r).target = r.target) :
    Consistent { s with relations := s.relations.map f } := by
  refine ⟨h.tables_nodup, h.columns_nodup, ?_, ?_, ?_⟩
  · simpa only [List.map_map, Function.comp_def, hid] using h.relations_nodup
  · intro r hr
    obtain ⟨r', hr', rfl⟩ := List.mem_map.mp hr
    rw [hsource, htarget]
    exact h.endpoints r' hr'
  · intro t ht c hc
    rw [h.foreignKeys t ht c hc]
    simp [htarget]

end Schema
end Schemata
