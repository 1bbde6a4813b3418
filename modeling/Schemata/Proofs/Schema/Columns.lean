/-
Changes to columns.  Where no id is used twice, a change to the first column at an endpoint is a
change to every column by its endpoint, so changes to single columns compose.  Noting afresh at some
endpoints is then noting afresh everywhere, as long as all other columns note the truth already.
-/
import Mathlib.Data.List.Nodup
import Schemata.Schema.Consistency
import Schemata.Schema.Operations

namespace Schemata

/-- Where keys are distinct, the first item with a key is the only one. -/
theorem modifyFirst_eq_map [DecidableEq κ] {key : α → κ} {xs : List α} (h : (xs.map key).Nodup)
    (k : κ) (f : α → α) :
    modifyFirst (key · == k) f xs = xs.map fun x => if key x = k then f x else x := by
  induction xs with
  | nil => rfl
  | cons x rest ih =>
    rw [List.map_cons, List.nodup_cons] at h
    by_cases hx : key x = k
    · have hrest : ∀ y ∈ rest, (if key y = k then f y else y) = y := by
        intro y hy
        refine if_neg fun hy' => h.1 ?_
        rw [hx, ← hy']
        exact List.mem_map_of_mem hy
      simp only [modifyFirst, hx, beq_self_eq_true, if_true, List.map_cons]
      rw [List.map_congr_left hrest, List.map_id']
    · simp only [modifyFirst, List.map_cons, hx, beq_iff_eq, if_false]
      rw [ih h.2]

theorem modifyFirst_append_cons {p : α → Bool} {xs : List α} {x : α} (f : α → α)
    (hxs : ∀ y ∈ xs, p y = false) (hx : p x = true) (rest : List α) :
    modifyFirst p f (xs ++ x :: rest) = xs ++ f x :: rest := by
  induction xs with
  | nil => simp [modifyFirst, hx]
  | cons y ys ih =>
    rw [List.cons_append, modifyFirst, hxs y List.mem_cons_self, if_neg Bool.false_ne_true,
      ih fun z hz => hxs z (List.mem_cons_of_mem _ hz), List.cons_append]

theorem find?_eq_some_iff_mem [DecidableEq κ] {key : α → κ} {xs : List α}
    (h : (xs.map key).Nodup) {k : κ} {x : α} :
    xs.find? (key · == k) = some x ↔ x ∈ xs ∧ key x = k := by
  constructor
  · intro hx
    exact ⟨List.mem_of_find?_eq_some hx, by simpa using List.find?_some hx⟩
  · rintro ⟨hx, hk⟩
    cases hfound : xs.find? (key · == k) with
    | none => exact absurd (by simpa using hk) (List.find?_eq_none.mp hfound x hx)
    | some y =>
      have hy : key y = k := by simpa using List.find?_some hfound
      rw [List.inj_on_of_nodup_map h (List.mem_of_find?_eq_some hfound) hx (hy.trans hk.symm)]

theorem eraseP_eq_filter [DecidableEq κ] {key : α → κ} {xs : List α} (h : (xs.map key).Nodup)
    (k : κ) : xs.eraseP (key · == k) = xs.filter (key · != k) := by
  induction xs with
  | nil => rfl
  | cons x rest ih =>
    rw [List.map_cons, List.nodup_cons] at h
    by_cases hx : key x = k
    · have hrest : ∀ y ∈ rest, (key y != k) = true := by
        intro y hy
        refine bne_iff_ne.mpr fun hy' => h.1 ?_
        rw [hx, ← hy']
        exact List.mem_map_of_mem hy
      rw [List.eraseP_cons_of_pos (by simp [hx]), List.filter_cons_of_neg (by simp [hx]),
        List.filter_eq_self.mpr hrest]
    · rw [List.eraseP_cons_of_neg (by simp [hx]), List.filter_cons_of_pos (by simp [hx]), ih h.2]

namespace Schema

/-- No table id is used twice, and no column id twice in one table. -/
structure UniqueIds (s : Schema) : Prop where
  tables : (s.tables.map (·.id)).Nodup
  columns : ∀ t ∈ s.tables, (t.columns.map (·.id)).Nodup

/-- Every column notes whether some relation targets it. -/
def Truthful (s : Schema) : Prop :=
  ∀ t ∈ s.tables, ∀ c ∈ t.columns, c.isForeignKey = s.isForeignKey ⟨t.id, c.id⟩

/-- The schema with every column changed, with regard to its endpoint. -/
def mapColumns (s : Schema) (g : Endpoint → Column → Column) : Schema :=
  { s with
    tables := s.tables.map fun t => { t with columns := t.columns.map fun c => g ⟨t.id, c.id⟩ c } }

/-- A change to columns that leaves their ids alone. -/
def KeepsIds (g : Endpoint → Column → Column) : Prop := ∀ e c, (g e c).id = c.id

theorem mapColumns_congr {s : Schema} {g h : Endpoint → Column → Column}
    (hgh : ∀ t ∈ s.tables, ∀ c ∈ t.columns, g ⟨t.id, c.id⟩ c = h ⟨t.id, c.id⟩ c) :
    s.mapColumns g = s.mapColumns h := by
  rw [mapColumns, mapColumns]
  congr 1
  exact List.map_congr_left fun t ht =>
    congrArg (Table.mk t.id t.name) (List.map_congr_left (hgh t ht))

theorem mapColumns_mapColumns {g h : Endpoint → Column → Column} (hh : KeepsIds h) (s : Schema) :
    (s.mapColumns h).mapColumns g = s.mapColumns fun e c => g e (h e c) := by
  have hid : ∀ e c, (h e c).id = c.id := hh
  simp [mapColumns, List.map_map, Function.comp_def, hid]

theorem mapColumns_self {s : Schema} {g : Endpoint → Column → Column}
    (hg : ∀ t ∈ s.tables, ∀ c ∈ t.columns, g ⟨t.id, c.id⟩ c = c) : s.mapColumns g = s := by
  rw [mapColumns_congr (h := fun _ c => c) hg]
  simp [mapColumns]

theorem tables_mapColumns_ids (s : Schema) (g : Endpoint → Column → Column) :
    (s.mapColumns g).tables.map (·.id) = s.tables.map (·.id) := by
  simp [mapColumns, Function.comp_def]

theorem UniqueIds.mapColumns {s : Schema} {g : Endpoint → Column → Column} (h : s.UniqueIds)
    (hg : KeepsIds g) : (s.mapColumns g).UniqueIds := by
  refine ⟨by rw [tables_mapColumns_ids]; exact h.tables, ?_⟩
  intro t ht
  obtain ⟨u, hu, rfl⟩ := List.mem_map.mp ht
  have hid : ∀ e c, (g e c).id = c.id := hg
  simpa [Function.comp_def, hid] using h.columns u hu

theorem modifyTable_eq_map {s : Schema} (h : s.UniqueIds) (id : TableId) (f : Table → Table) :
    s.modifyTable id f =
      { s with tables := s.tables.map fun t => if t.id = id then f t else t } := by
  rw [modifyTable, modifyFirst_eq_map h.tables]

theorem modifyColumn_eq_mapColumns {s : Schema} (h : s.UniqueIds) (e : Endpoint)
    (f : Column → Column) :
    s.modifyColumn e f = s.mapColumns fun e' c => if e' = e then f c else c := by
  rw [modifyColumn, modifyTable_eq_map h, mapColumns]
  congr 1
  refine List.map_congr_left fun t ht => ?_
  by_cases hid : t.id = e.table
  · rw [if_pos hid, modifyFirst_eq_map (h.columns t ht)]
    refine congrArg (Table.mk t.id t.name) (List.map_congr_left fun c _ => ?_)
    by_cases hc : c.id = e.column
    · rw [if_pos hc, if_pos (by rw [hid, hc])]
    · rw [if_neg hc, if_neg fun he => hc (by rw [← he])]
  · rw [if_neg hid]
    have hcolumns : t.columns.map (fun c => if (⟨t.id, c.id⟩ : Endpoint) = e then f c else c) =
        t.columns := by
      refine (List.map_congr_left fun c _ => if_neg fun he => hid ?_).trans (List.map_id' _)
      rw [← he]
    rw [hcolumns]

/-! ## Notes of foreign keys -/

/-- The column with a note that it is a foreign key, or that it is none. -/
def note (isForeignKey : Bool) (c : Column) : Column := { c with isForeignKey := isForeignKey }

theorem keepsIds_note (p : Endpoint → Bool) : KeepsIds fun e c => note (p e) c := fun _ _ => rfl

theorem reconcile_eq_mapColumns (s : Schema) :
    s.reconcile.1 = s.mapColumns fun e c => note (s.isForeignKey e) c := rfl

theorem foldl_refresh_eq_mapColumns {s : Schema} (h : s.UniqueIds) (es : List Endpoint) :
    es.foldl refresh s =
      s.mapColumns fun e c => if e ∈ es then note (s.isForeignKey e) c else c := by
  induction es generalizing s with
  | nil => simp [mapColumns_self]
  | cons e rest ih =>
    have hstep : s.refresh e =
        s.mapColumns fun e' c => if e' = e then note (s.isForeignKey e') c else c := by
      rw [refresh, modifyColumn_eq_mapColumns h]
      refine mapColumns_congr fun t _ c _ => ?_
      by_cases he : (⟨t.id, c.id⟩ : Endpoint) = e
      · rw [if_pos he, if_pos he, he, note]
      · rw [if_neg he, if_neg he]
    have hids : KeepsIds fun e' c => if e' = e then note (s.isForeignKey e') c else c := by
      intro e' c
      dsimp only
      split <;> rfl
    rw [List.foldl_cons, hstep, ih (h.mapColumns hids), mapColumns_mapColumns hids]
    refine mapColumns_congr fun t _ c _ => ?_
    have hkey : ∀ e', isForeignKey (s.mapColumns fun e' c =>
        if e' = e then note (s.isForeignKey e') c else c) e' = s.isForeignKey e' := fun _ => rfl
    rw [hkey]
    by_cases he : (⟨t.id, c.id⟩ : Endpoint) = e
    · simp [he, note]
    · simp [he]

/-- Noting afresh where notes may be wrong is noting afresh everywhere. -/
theorem foldl_refresh_eq_reconcile {s : Schema} (h : s.UniqueIds) {es : List Endpoint}
    (hes : ∀ t ∈ s.tables, ∀ c ∈ t.columns, (⟨t.id, c.id⟩ : Endpoint) ∉ es →
      c.isForeignKey = s.isForeignKey ⟨t.id, c.id⟩) :
    es.foldl refresh s = s.reconcile.1 := by
  rw [foldl_refresh_eq_mapColumns h, reconcile_eq_mapColumns]
  refine mapColumns_congr fun t ht c hc => ?_
  by_cases he : (⟨t.id, c.id⟩ : Endpoint) ∈ es
  · rw [if_pos he]
  · rw [if_neg he, ← hes t ht c hc he, note]

theorem refresh_eq_reconcile {s : Schema} (h : s.UniqueIds) {e : Endpoint}
    (he : ∀ t ∈ s.tables, ∀ c ∈ t.columns, (⟨t.id, c.id⟩ : Endpoint) ≠ e →
      c.isForeignKey = s.isForeignKey ⟨t.id, c.id⟩) :
    s.refresh e = s.reconcile.1 := by
  show [e].foldl refresh s = s.reconcile.1
  refine foldl_refresh_eq_reconcile h fun t ht c hc hne => ?_
  exact he t ht c hc fun heq => hne (by simp [heq])

end Schema
end Schemata
