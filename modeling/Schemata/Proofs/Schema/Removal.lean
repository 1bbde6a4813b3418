/-
Removing tables, columns and relations from a consistent schema.  What is left is linked, and notes
can be wrong only where a removed relation led, so the notes that are made afresh make the schema
consistent again.
-/
import Schemata.Proofs.Schema.Consistency

namespace Schemata
namespace Schema

theorem requireTable_eq_ok {s : Schema} {id : TableId} {t : Table}
    (h : s.requireTable id = .ok t) : t ∈ s.tables ∧ t.id = id := by
  unfold requireTable table? at h
  split at h
  · next u hu =>
    cases h
    exact ⟨List.mem_of_find?_eq_some hu, by simpa using List.find?_some hu⟩
  · cases h

theorem requireRelation_eq_ok {s : Schema} {id : RelationId} {r : Relation}
    (h : s.requireRelation id = .ok r) : s.relations.find? (·.id == id) = some r := by
  unfold requireRelation relation? at h
  split at h
  · next u hu => cases h; exact hu
  · cases h

/-- The schema with relations taken out that do not lead to the endpoint. -/
theorem any_target_filter {rs : List Relation} {keeps : Relation → Bool} {e : Endpoint}
    (h : ∀ r ∈ rs, keeps r = false → r.target ≠ e) :
    (rs.filter keeps).any (·.target == e) = rs.any (·.target == e) := by
  rw [Bool.eq_iff_iff, List.any_eq_true, List.any_eq_true]
  constructor
  · rintro ⟨r, hr, htarget⟩
    exact ⟨r, (List.mem_filter.mp hr).1, htarget⟩
  · rintro ⟨r, hr, htarget⟩
    refine ⟨r, List.mem_filter.mpr ⟨hr, ?_⟩, htarget⟩
    by_contra hdrop
    exact h r hr (by simpa using hdrop) (by simpa using htarget)

/-! ## Tables -/

/-- The schema without a table and the relations that touch it, with the notes it had. -/
def withoutTable (s : Schema) (id : TableId) : Schema :=
  { s with tables := s.tables.eraseP (·.id == id),
           relations := s.relations.filter (!·.touchesTable id) }

theorem Linked.withoutTable {s : Schema} (h : s.Linked) (id : TableId) :
    (s.withoutTable id).Linked := by
  have hsub : (s.tables.eraseP (·.id == id)).Sublist s.tables := List.eraseP_sublist
  have hends : ∀ e, s.HasEndpoint e → e.table ≠ id → (s.withoutTable id).HasEndpoint e := by
    rintro e ⟨t, ht, hid, hc⟩ hne
    refine ⟨t, ?_, hid, hc⟩
    exact (List.mem_eraseP_of_neg (by simp [hid, hne])).mpr ht
  refine ⟨⟨h.tables.sublist (hsub.map _), ?_⟩, ?_, ?_⟩
  · exact fun t ht => h.columns t (hsub.subset ht)
  · exact h.relations.sublist (List.filter_sublist.map _)
  · intro r hr
    obtain ⟨hr, hkeep⟩ := List.mem_filter.mp hr
    simp only [Relation.touchesTable, Bool.not_or, Bool.and_eq_true, Bool.not_eq_true',
      beq_eq_false_iff_ne] at hkeep
    exact ⟨hends _ (h.endpoints r hr).1 hkeep.1, hends _ (h.endpoints r hr).2 hkeep.2⟩

theorem Consistent.refresh_withoutTable {s : Schema} (h : s.Consistent) (id : TableId) :
    ((s.relations.filter (·.touchesTable id)).map (·.target)).foldl refresh (s.withoutTable id) =
      (s.withoutTable id).reconcile.1 := by
  refine foldl_refresh_eq_reconcile (h.linked.withoutTable id).toUniqueIds fun t ht c hc he => ?_
  rw [h.truthful t (List.eraseP_sublist.subset ht) c hc]
  refine (any_target_filter fun r hr hdrop htarget => he ?_).symm
  refine List.mem_map.mpr ⟨r, List.mem_filter.mpr ⟨hr, ?_⟩, htarget⟩
  simpa using hdrop

/-! ## Columns -/

/-- The schema without a column and the relations that touch it, with the notes it had. -/
def withoutColumn (s : Schema) (e : Endpoint) : Schema :=
  { s with relations := s.relations.filter (!·.touches e) }.modifyTable e.table fun t =>
    { t with columns := t.columns.eraseP (·.id == e.column) }

theorem withoutColumn_eq_map {s : Schema} (h : s.UniqueIds) (e : Endpoint) :
    s.withoutColumn e =
      { s with
        tables := s.tables.map fun t =>
          { t with
            columns := if t.id = e.table then t.columns.eraseP (·.id == e.column) else t.columns }
        relations := s.relations.filter (!·.touches e) } := by
  have hrest : UniqueIds { s with relations := s.relations.filter (!·.touches e) } :=
    ⟨h.tables, h.columns⟩
  rw [withoutColumn, modifyTable_eq_map hrest]
  congr 1
  refine List.map_congr_left fun t _ => ?_
  by_cases hid : t.id = e.table
  · rw [if_pos hid, if_pos hid]
  · rw [if_neg hid, if_neg hid]

theorem Linked.withoutColumn {s : Schema} (h : s.Linked) (e : Endpoint) :
    (s.withoutColumn e).Linked := by
  rw [withoutColumn_eq_map h.toUniqueIds]
  refine ⟨⟨?_, ?_⟩, ?_, ?_⟩
  · simpa [Function.comp_def] using h.tables
  · intro t ht
    obtain ⟨u, hu, rfl⟩ := List.mem_map.mp ht
    have hsub : (if u.id = e.table then u.columns.eraseP (·.id == e.column)
        else u.columns).Sublist u.columns := by
      split
      · exact List.eraseP_sublist
      · exact List.Sublist.refl _
    exact (h.columns u hu).sublist (hsub.map _)
  · exact h.relations.sublist (List.filter_sublist.map _)
  · intro r hr
    obtain ⟨hr, hkeep⟩ := List.mem_filter.mp hr
    simp only [Relation.touches, Bool.not_or, Bool.and_eq_true, Bool.not_eq_true',
      beq_eq_false_iff_ne] at hkeep
    have hend : ∀ e', s.HasEndpoint e' → e' ≠ e → (s.withoutColumn e).HasEndpoint e' := by
      rintro e' ⟨t, ht, hid, c, hc, hcid⟩ hne
      rw [withoutColumn_eq_map h.toUniqueIds]
      refine ⟨_, List.mem_map_of_mem ht, hid, c, ?_, hcid⟩
      by_cases htable : t.id = e.table
      · have hcolumn : c.id ≠ e.column := by
          intro heq
          refine hne ?_
          cases e; cases e'
          simp only [Endpoint.mk.injEq]
          exact ⟨hid.symm.trans htable, hcid.symm.trans heq⟩
        rw [if_pos htable]
        exact (List.mem_eraseP_of_neg (by simp [hcolumn])).mpr hc
      · rw [if_neg htable]
        exact hc
    rw [withoutColumn_eq_map h.toUniqueIds] at hend
    exact ⟨hend _ (h.endpoints r hr).1 hkeep.1, hend _ (h.endpoints r hr).2 hkeep.2⟩

theorem Consistent.refresh_withoutColumn {s : Schema} (h : s.Consistent) (e : Endpoint) :
    ((s.relations.filter (·.touches e)).flatMap fun r => [r.source, r.target]).foldl refresh
        (s.withoutColumn e) =
      (s.withoutColumn e).reconcile.1 := by
  refine foldl_refresh_eq_reconcile (h.linked.withoutColumn e).toUniqueIds ?_
  rw [withoutColumn_eq_map h.linked.toUniqueIds]
  intro t ht c hc he
  obtain ⟨t', ht', rfl⟩ := List.mem_map.mp ht
  have hc' : c ∈ t'.columns := by
    dsimp only at hc
    split at hc
    · exact List.eraseP_sublist.subset hc
    · exact hc
  rw [h.truthful t' ht' c hc']
  refine (any_target_filter fun r hr hdrop htarget => he ?_).symm
  refine List.mem_flatMap.mpr ⟨r, List.mem_filter.mpr ⟨hr, ?_⟩, by simp [htarget]⟩
  simpa using hdrop

/-! ## Relations -/

/-- The schema without a relation, with the notes it had. -/
def withoutRelation (s : Schema) (id : RelationId) : Schema :=
  { s with relations := s.relations.eraseP (·.id == id) }

theorem Linked.withoutRelation {s : Schema} (h : s.Linked) (id : RelationId) :
    (s.withoutRelation id).Linked where
  toUniqueIds := ⟨h.tables, h.columns⟩
  relations := h.relations.sublist (List.eraseP_sublist.map _)
  endpoints r hr := h.endpoints r (List.eraseP_sublist.subset hr)

theorem Consistent.refresh_withoutRelation {s : Schema} {id : RelationId} {r : Relation}
    (h : s.Consistent) (hr : s.relations.find? (·.id == id) = some r) :
    (s.withoutRelation id).refresh r.target = (s.withoutRelation id).reconcile.1 := by
  refine refresh_eq_reconcile (h.linked.withoutRelation id).toUniqueIds fun t ht c hc hne => ?_
  rw [h.truthful t ht c hc]
  have hfilter : (s.withoutRelation id).relations = s.relations.filter (·.id != id) :=
    eraseP_eq_filter h.relations_nodup id
  rw [isForeignKey, isForeignKey, hfilter]
  refine (any_target_filter fun r' hr' hdrop htarget => hne ?_).symm
  have hid : r'.id = r.id := by
    have hfound : r.id = id := by simpa using List.find?_some hr
    rw [hfound]
    simpa using hdrop
  rw [← htarget, List.inj_on_of_nodup_map h.relations_nodup hr' (List.mem_of_find?_eq_some hr) hid]

end Schema
end Schemata
