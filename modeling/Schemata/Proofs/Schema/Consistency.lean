/-
Consistency in two parts: the ids and the ends of relations are in order, and the notes of foreign
keys are true.  The check for a breach finds none exactly in consistent schemas, and a schema whose
first part is in order becomes consistent by noting everything afresh.
-/
import Schemata.Proofs.Schema.Columns

namespace Schemata

theorem nodup_iff_firstRepeated? [DecidableEq α] {xs : List α} :
    xs.Nodup ↔ firstRepeated? [] xs = none := by
  simp [firstRepeated?_eq_none]

/-- What repeats an item further on, or one that was seen before it, repeats one from here on, or
one that was seen before. -/
theorem repeated_cons [DecidableEq α] {seen rest : List α} {x y : α} (hmem : x ∈ rest)
    (h : x ∈ y :: seen ∨ 2 ≤ rest.count x) : x ∈ seen ∨ 2 ≤ (y :: rest).count x := by
  rcases h with h | hcount
  · rcases List.mem_cons.mp h with rfl | hseen
    · have hpos := List.count_pos_iff.mpr hmem
      rw [List.count_cons_self]
      exact .inr (by omega)
    · exact .inl hseen
  · exact .inr (Nat.le_trans hcount List.count_le_count_cons)

theorem firstRepeated?_eq_some [DecidableEq α] {seen xs : List α} {x : α}
    (h : firstRepeated? seen xs = some x) : x ∈ xs ∧ (x ∈ seen ∨ 2 ≤ xs.count x) := by
  induction xs generalizing seen with
  | nil => cases h
  | cons y rest ih =>
    unfold firstRepeated? at h
    split at h
    · next hseen =>
      cases h
      exact ⟨List.mem_cons_self, .inl hseen⟩
    · obtain ⟨hmem, hx⟩ := ih h
      exact ⟨List.mem_cons_of_mem _ hmem, repeated_cons hmem hx⟩

/-- Keys that differ from each other and from those seen, with one more item in front. -/
theorem unseen_cons {key : α → κ} {seen : List κ} {x : α} {rest : List α} (hx : key x ∉ seen) :
    (((x :: rest).map key).Nodup ∧ ∀ y ∈ x :: rest, key y ∉ seen) ↔
      (rest.map key).Nodup ∧ ∀ y ∈ rest, key y ∉ key x :: seen := by
  rw [List.map_cons, List.nodup_cons, List.forall_mem_cons]
  constructor
  · rintro ⟨⟨hne, hn⟩, -, hmem⟩
    refine ⟨hn, fun y hy hin => ?_⟩
    rcases List.mem_cons.mp hin with heq | hin
    · exact hne (heq ▸ List.mem_map_of_mem hy)
    · exact hmem y hy hin
  · rintro ⟨hn, hmem⟩
    refine ⟨⟨fun hin => ?_, hn⟩, hx, fun y hy hin => hmem y hy (List.mem_cons_of_mem _ hin)⟩
    obtain ⟨y, hy, heq⟩ := List.mem_map.mp hin
    exact hmem y hy (by simp [heq])

/-! ## Keys of items and of their parts -/

section

variable [DecidableEq κ] [DecidableEq ι]

/-- What is said of the first item whose key was seen before, or whose parts repeat something. -/
def firstClash? (key : α → κ) (parts : α → List ι) (again : κ → ε) (within : κ → ι → ε)
    (seen : List κ) : List α → Option ε
  | [] => none
  | x :: rest =>
    if key x ∈ seen then some (again (key x))
    else match firstRepeated? [] (parts x) with
      | some i => some (within (key x) i)
      | none => firstClash? key parts again within (key x :: seen) rest

variable {key : α → κ} {parts : α → List ι} {again : κ → ε} {within : κ → ι → ε}
  {seen : List κ} {xs : List α}

theorem firstClash?_eq_none :
    firstClash? key parts again within seen xs = none ↔
      ((xs.map key).Nodup ∧ ∀ x ∈ xs, key x ∉ seen) ∧ ∀ x ∈ xs, (parts x).Nodup := by
  induction xs generalizing seen with
  | nil => simp [firstClash?]
  | cons x rest ih =>
    unfold firstClash?
    split
    · next hseen => simp [hseen]
    · next hseen =>
      split
      · next i hi =>
        have hparts : ¬(parts x).Nodup := by simp [nodup_iff_firstRepeated?, hi]
        simp [hparts]
      · next hi =>
        have hparts := nodup_iff_firstRepeated?.mpr hi
        rw [ih, unseen_cons hseen]
        simp only [List.forall_mem_cons, hparts, true_and]

theorem firstClash?_eq_some {e : ε} (h : firstClash? key parts again within seen xs = some e) :
    ∃ x ∈ xs, (e = again (key x) ∧ (key x ∈ seen ∨ 2 ≤ (xs.map key).count (key x))) ∨
      ∃ i, e = within (key x) i ∧ 2 ≤ (parts x).count i := by
  induction xs generalizing seen with
  | nil => cases h
  | cons x rest ih =>
    unfold firstClash? at h
    split at h
    · next hseen =>
      cases h
      exact ⟨x, List.mem_cons_self, .inl ⟨rfl, .inl hseen⟩⟩
    · split at h
      · next i hi =>
        cases h
        obtain ⟨-, hcount⟩ := firstRepeated?_eq_some hi
        exact ⟨x, List.mem_cons_self, .inr ⟨i, rfl, hcount.resolve_left List.not_mem_nil⟩⟩
      · obtain ⟨y, hy, ⟨rfl, hkey⟩ | hparts⟩ := ih h
        · refine ⟨y, List.mem_cons_of_mem _ hy, .inl ⟨rfl, ?_⟩⟩
          exact repeated_cons (List.mem_map_of_mem hy) hkey
        · exact ⟨y, List.mem_cons_of_mem _ hy, .inr hparts⟩

end

namespace Schema

/-- Ids are not used twice, and relations lead from columns to columns. -/
structure Linked (s : Schema) : Prop extends UniqueIds s where
  relations : (s.relations.map (·.id)).Nodup
  endpoints : ∀ r ∈ s.relations, s.HasEndpoint r.source ∧ s.HasEndpoint r.target

theorem isForeignKey_iff {s : Schema} {e : Endpoint} :
    s.isForeignKey e = true ↔ ∃ r ∈ s.relations, r.target = e := by
  simp [isForeignKey]

theorem consistent_iff {s : Schema} : s.Consistent ↔ s.Linked ∧ s.Truthful := by
  constructor
  · intro h
    refine ⟨⟨⟨h.tables_nodup, h.columns_nodup⟩, h.relations_nodup, h.endpoints⟩, ?_⟩
    intro t ht c hc
    rw [Bool.eq_iff_iff, h.foreignKeys t ht c hc, isForeignKey_iff]
  · rintro ⟨hlinked, htrue⟩
    refine ⟨hlinked.tables, hlinked.columns, hlinked.relations, hlinked.endpoints, ?_⟩
    intro t ht c hc
    rw [htrue t ht c hc, isForeignKey_iff]

theorem Consistent.linked {s : Schema} (h : s.Consistent) : s.Linked := (consistent_iff.mp h).1

theorem Consistent.truthful {s : Schema} (h : s.Consistent) : s.Truthful := (consistent_iff.mp h).2

theorem consistent_empty : empty.Consistent := by
  constructor <;> simp [empty]

/-! ## Endpoints -/

theorem column?_isSome_iff {t : Table} {id : ColumnId} :
    (t.column? id).isSome ↔ ∃ c ∈ t.columns, c.id = id := by
  simp [Table.column?]

theorem hasEndpoint_of_requireColumn {s : Schema} {e : Endpoint} {c : Column}
    (h : s.requireColumn e = .ok c) : s.HasEndpoint e := by
  unfold requireColumn requireTable table? at h
  cases ht : s.tables.find? (·.id == e.table) with
  | none => rw [ht] at h; cases h
  | some t =>
    rw [ht] at h
    cases hc : t.column? e.column with
    | none => simp [hc, bind, Except.bind] at h
    | some c' =>
      refine ⟨t, List.mem_of_find?_eq_some ht, by simpa using List.find?_some ht, ?_⟩
      exact column?_isSome_iff.mp (by rw [hc]; rfl)

theorem requireTable_of_mem {s : Schema} (h : s.UniqueIds) {t : Table} (ht : t ∈ s.tables) :
    s.requireTable t.id = .ok t := by
  have hfound : s.table? t.id = some t := (find?_eq_some_iff_mem h.tables).mpr ⟨ht, rfl⟩
  rw [requireTable, hfound]

theorem HasEndpoint.exists_requireColumn {s : Schema} {e : Endpoint} (h : s.HasEndpoint e)
    (hids : s.UniqueIds) : ∃ c, s.requireColumn e = .ok c := by
  obtain ⟨t, ht, htid, c, hc, hcid⟩ := h
  have hfound : t.column? e.column = some c :=
    (find?_eq_some_iff_mem (hids.columns t ht)).mpr ⟨hc, hcid⟩
  refine ⟨c, ?_⟩
  rw [requireColumn, ← htid, requireTable_of_mem hids ht]
  simp only [bind, Except.bind, hfound]

/-- Endpoints are there as long as no table and no column goes. -/
theorem HasEndpoint.mono {s u : Schema} {e : Endpoint} (h : s.HasEndpoint e)
    (hsu : ∀ t ∈ s.tables, ∃ t' ∈ u.tables, t'.id = t.id ∧
      ∀ c ∈ t.columns, ∃ c' ∈ t'.columns, c'.id = c.id) : u.HasEndpoint e := by
  obtain ⟨t, ht, hid, c, hc, hcid⟩ := h
  obtain ⟨t', ht', hid', hcolumns⟩ := hsu t ht
  obtain ⟨c', hc', hcid'⟩ := hcolumns c hc
  exact ⟨t', ht', hid'.trans hid, c', hc', hcid'.trans hcid⟩

theorem HasEndpoint.mapColumns {s : Schema} {g : Endpoint → Column → Column} {e : Endpoint}
    (h : s.HasEndpoint e) (hg : KeepsIds g) : (s.mapColumns g).HasEndpoint e := by
  refine h.mono fun t ht => ⟨_, List.mem_map_of_mem ht, rfl, fun c hc => ?_⟩
  exact ⟨_, List.mem_map_of_mem hc, hg _ _⟩

theorem Linked.mapColumns {s : Schema} {g : Endpoint → Column → Column} (h : s.Linked)
    (hg : KeepsIds g) : (s.mapColumns g).Linked where
  toUniqueIds := h.toUniqueIds.mapColumns hg
  relations := h.relations
  endpoints r hr := ⟨(h.endpoints r hr).1.mapColumns hg, (h.endpoints r hr).2.mapColumns hg⟩

/-- The columns of a schema with columns changed are changed columns. -/
theorem forall_mapColumns {s : Schema} {g : Endpoint → Column → Column} (hg : KeepsIds g)
    {p : Endpoint → Column → Prop} :
    (∀ t ∈ (s.mapColumns g).tables, ∀ c ∈ t.columns, p ⟨t.id, c.id⟩ c) ↔
      ∀ t ∈ s.tables, ∀ c ∈ t.columns, p ⟨t.id, c.id⟩ (g ⟨t.id, c.id⟩ c) := by
  have hid : ∀ e c, (g e c).id = c.id := hg
  simp [mapColumns, hid]

theorem truthful_reconcile (s : Schema) : s.reconcile.1.Truthful :=
  (forall_mapColumns (g := fun e c => note (s.isForeignKey e) c) (keepsIds_note _)
    (p := fun e c => c.isForeignKey = s.isForeignKey e)).mpr fun _ _ _ _ => rfl

theorem Linked.reconcile {s : Schema} (h : s.Linked) : s.reconcile.1.Consistent :=
  consistent_iff.mpr ⟨h.mapColumns (keepsIds_note _), truthful_reconcile s⟩

theorem Truthful.reconcile_eq_self {s : Schema} (h : s.Truthful) : s.reconcile.1 = s := by
  rw [reconcile_eq_mapColumns]
  refine mapColumns_self fun t ht c hc => ?_
  rw [← h t ht c hc, note]

/-! ## The check -/

theorem tableViolation?_eq (seen : List TableId) (ts : List Table) :
    tableViolation? seen ts =
      firstClash? (·.id) (fun t => t.columns.map (·.id)) .duplicateTable
        (fun t c => .duplicateColumn ⟨t, c⟩) seen ts := by
  induction ts generalizing seen with
  | nil => rfl
  | cons t rest ih =>
    rw [tableViolation?, firstClash?, ih]
    cases firstRepeated? [] (t.columns.map (·.id)) <;> rfl

theorem tableViolation?_eq_none {seen : List TableId} {ts : List Table} :
    tableViolation? seen ts = none ↔
      ((ts.map (·.id)).Nodup ∧ ∀ t ∈ ts, t.id ∉ seen) ∧
        ∀ t ∈ ts, (t.columns.map (·.id)).Nodup := by
  rw [tableViolation?_eq, firstClash?_eq_none]

theorem endpointViolation?_eq_none {s : Schema} (h : s.UniqueIds) {id : RelationId}
    {e : Endpoint} : s.endpointViolation? id e = none ↔ s.HasEndpoint e := by
  unfold endpointViolation? table?
  cases ht : s.tables.find? (·.id == e.table) with
  | none =>
    have hnone := List.find?_eq_none.mp ht
    constructor
    · intro hbad
      cases hbad
    · rintro ⟨t, hmem, hid, -⟩
      exact absurd (by simp [hid]) (hnone t hmem)
  | some t =>
    have hmem := List.mem_of_find?_eq_some ht
    have hid : t.id = e.table := by simpa using List.find?_some ht
    constructor
    · intro hok
      by_cases hc : (t.column? e.column).isSome
      · exact ⟨t, hmem, hid, column?_isSome_iff.mp hc⟩
      · simp [hc] at hok
    · rintro ⟨u, hu, huid, hc⟩
      have htu : u = t := List.inj_on_of_nodup_map h.tables hu hmem (huid.trans hid.symm)
      subst htu
      simp [column?_isSome_iff.mpr hc]

theorem relationViolation?_eq_none {s : Schema} (h : s.UniqueIds) {seen : List RelationId}
    {rs : List Relation} :
    s.relationViolation? seen rs = none ↔
      ((rs.map (·.id)).Nodup ∧ ∀ r ∈ rs, r.id ∉ seen) ∧
        ∀ r ∈ rs, s.HasEndpoint r.source ∧ s.HasEndpoint r.target := by
  induction rs generalizing seen with
  | nil => simp [relationViolation?]
  | cons r rest ih =>
    unfold relationViolation?
    split
    · next hseen => simp [hseen]
    · next hseen =>
      split
      · next v hv =>
        have hends : ¬(s.HasEndpoint r.source ∧ s.HasEndpoint r.target) := by
          rintro ⟨hsource, htarget⟩
          rw [(endpointViolation?_eq_none h).mpr hsource,
            (endpointViolation?_eq_none h).mpr htarget] at hv
          cases hv
        simp only [List.forall_mem_cons, hends, false_and, and_false, reduceCtorEq]
      · next hv =>
        rw [Option.or_eq_none_iff, endpointViolation?_eq_none h,
          endpointViolation?_eq_none h] at hv
        rw [ih, unseen_cons hseen]
        simp only [List.forall_mem_cons, hv, and_self, true_and]

theorem violation?_eq_none {s : Schema} : s.violation? = none ↔ s.Consistent := by
  rw [consistent_iff]
  unfold violation?
  rw [Option.or_eq_none_iff, Option.or_eq_none_iff, tableViolation?_eq_none]
  have hflags : (s.tables.findSome? fun t =>
      t.columns.findSome? fun c => s.flagViolation? ⟨t.id, c.id⟩ c.isForeignKey) = none ↔
        s.Truthful := by
    simp [List.findSome?_eq_none_iff, flagViolation?, Truthful]
  rw [hflags]
  constructor
  · rintro ⟨⟨⟨htables, -⟩, hcolumns⟩, hrelations, htrue⟩
    have hunique : s.UniqueIds := ⟨htables, hcolumns⟩
    obtain ⟨⟨hnodup, -⟩, hends⟩ := (relationViolation?_eq_none hunique).mp hrelations
    exact ⟨⟨hunique, hnodup, hends⟩, htrue⟩
  · rintro ⟨hlinked, htrue⟩
    refine ⟨⟨⟨hlinked.tables, by simp⟩, hlinked.columns⟩, ?_, htrue⟩
    exact (relationViolation?_eq_none hlinked.toUniqueIds).mpr
      ⟨⟨hlinked.relations, by simp⟩, hlinked.endpoints⟩

end Schema
end Schemata
