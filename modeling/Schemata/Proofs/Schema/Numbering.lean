/-
Schemas whose ids are numbered in order: every table comes before its columns, the columns before
the next table, and the relations after all tables.  What such a schema says by names determines it.
New tables, columns and relations are numbered on, so they end up where they would be numbered if
they had been there from the start.
-/
import Schemata.Proofs.Forall2
import Schemata.Proofs.Schema.FreshId
import Schemata.Proofs.Schema.Insertion
import Schemata.Proofs.Schema.Names

namespace Schemata

/-! ## Lists -/

/-- The items of the list, each with its number.  The first number is the one after `n`. -/
def numberFrom (f : Nat → α → β) (n : Nat) : List α → List β
  | [] => []
  | x :: rest => f (n + 1) x :: numberFrom f (n + 1) rest

theorem numberFrom_append (f : Nat → α → β) (n : Nat) (xs ys : List α) :
    numberFrom f n (xs ++ ys) = numberFrom f n xs ++ numberFrom f (n + xs.length) ys := by
  induction xs generalizing n with
  | nil => rfl
  | cons x rest ih =>
    simp only [List.cons_append, numberFrom, ih, List.length_cons]
    rw [Nat.add_assoc n 1, Nat.add_comm 1]

theorem numberFrom_concat (f : Nat → α → β) (n : Nat) (xs : List α) (x : α) :
    numberFrom f n (xs ++ [x]) = numberFrom f n xs ++ [f (n + xs.length + 1) x] := by
  rw [numberFrom_append]
  rfl

theorem map_numberFrom (g : β → γ) (f : Nat → α → β) (n : Nat) (xs : List α) :
    (numberFrom f n xs).map g = numberFrom (fun k x => g (f k x)) n xs := by
  induction xs generalizing n with
  | nil => rfl
  | cons x rest ih => simp only [numberFrom, List.map_cons, ih]

theorem numberFrom_map (f : Nat → β → γ) (h : α → β) (n : Nat) (xs : List α) :
    numberFrom f n (xs.map h) = numberFrom (fun k x => f k (h x)) n xs := by
  induction xs generalizing n with
  | nil => rfl
  | cons x rest ih => simp only [numberFrom, List.map_cons, ih]

/-- Where the number does not matter, numbering is mapping. -/
theorem numberFrom_eq_map (h : α → β) (n : Nat) (xs : List α) :
    numberFrom (fun _ => h) n xs = xs.map h := by
  induction xs generalizing n with
  | nil => rfl
  | cons x rest ih => simp only [numberFrom, List.map_cons, ih]

theorem mem_numberFrom {f : Nat → α → β} {n : Nat} {xs : List α} {y : β}
    (h : y ∈ numberFrom f n xs) : ∃ k x, n < k ∧ k ≤ n + xs.length ∧ x ∈ xs ∧ y = f k x := by
  induction xs generalizing n with
  | nil => cases h
  | cons x rest ih =>
    rcases List.mem_cons.mp h with rfl | h
    · exact ⟨n + 1, x, by omega, by simp, by simp, rfl⟩
    · obtain ⟨k, x', hlo, hhi, hx', rfl⟩ := ih h
      rw [List.length_cons]
      exact ⟨k, x', by omega, by omega, List.mem_cons_of_mem _ hx', rfl⟩

theorem length_numberFrom (f : Nat → α → β) (n : Nat) (xs : List α) :
    (numberFrom f n xs).length = xs.length := by
  induction xs generalizing n with
  | nil => rfl
  | cons x rest ih => rw [numberFrom, List.length_cons, List.length_cons, ih]

theorem getElem?_numberFrom (f : Nat → α → β) (n : Nat) (xs : List α) (i : Nat) :
    (numberFrom f n xs)[i]? = xs[i]?.map (f (n + i + 1)) := by
  induction xs generalizing n i with
  | nil => rfl
  | cons x rest ih =>
    cases i with
    | zero => rfl
    | succ i =>
      rw [numberFrom, List.getElem?_cons_succ, List.getElem?_cons_succ, ih,
        show n + 1 + i + 1 = n + (i + 1) + 1 by omega]

theorem nodup_numberFrom {f : Nat → α → β} (hf : ∀ k x l y, f k x = f l y → k = l) (n : Nat)
    (xs : List α) : (numberFrom f n xs).Nodup := by
  induction xs generalizing n with
  | nil => exact List.nodup_nil
  | cons x rest ih =>
    refine List.nodup_cons.mpr ⟨fun hmem => ?_, ih (n + 1)⟩
    obtain ⟨k, y, hlo, -, -, heq⟩ := mem_numberFrom hmem
    have := hf _ _ _ _ heq
    omega

theorem forall₂_numberFrom {R : α → β → Prop} {S : α → γ → Prop} {f : Nat → β → γ}
    (hf : ∀ k x y, R x y → S x (f k y)) {xs : List α} {ys : List β} (h : List.Forall₂ R xs ys)
    (n : Nat) : List.Forall₂ S xs (numberFrom f n ys) := by
  induction h generalizing n with
  | nil => exact .nil
  | cons hxy _ ih => exact .cons (hf _ _ _ hxy) (ih (n + 1))

/-! ## Tables -/

def ColumnSpec.numbered (n : Nat) (c : ColumnSpec) : Column :=
  ⟨.ofNumber n, c.name, c.type, c.isPrimaryKey, false, c.isUnique, c.isNullable⟩

namespace TableSpec

def numbered (n : Nat) (t : TableSpec) : Table :=
  ⟨.ofNumber n, t.name, numberFrom ColumnSpec.numbered n t.columns⟩

/-- How many ids the tables and their columns take. -/
def extent : List TableSpec → Nat
  | [] => 0
  | t :: rest => 1 + t.columns.length + extent rest

def numberTables (n : Nat) : List TableSpec → List Table
  | [] => []
  | t :: rest => t.numbered (n + 1) :: numberTables (n + 1 + t.columns.length) rest

theorem spec_numbered (n : Nat) (t : TableSpec) : (t.numbered n).spec = t := by
  have hcolumns : (numberFrom ColumnSpec.numbered n t.columns).map Column.spec = t.columns := by
    rw [map_numberFrom]
    exact (numberFrom_eq_map id n t.columns).trans (List.map_id _)
  rw [Table.spec, numbered, hcolumns]

theorem extent_append (ts us : List TableSpec) : extent (ts ++ us) = extent ts + extent us := by
  induction ts with
  | nil => simp [extent]
  | cons t rest ih =>
    simp only [List.cons_append, extent, ih]
    omega

theorem numberTables_append (n : Nat) (ts us : List TableSpec) :
    numberTables n (ts ++ us) = numberTables n ts ++ numberTables (n + extent ts) us := by
  induction ts generalizing n with
  | nil => rfl
  | cons t rest ih =>
    simp only [List.cons_append, numberTables, ih, extent]
    rw [show n + 1 + t.columns.length + extent rest = n + (1 + t.columns.length + extent rest) by
      omega]

theorem map_spec_numberTables (n : Nat) (ts : List TableSpec) :
    (numberTables n ts).map Table.spec = ts := by
  induction ts generalizing n with
  | nil => rfl
  | cons t rest ih => simp only [numberTables, List.map_cons, spec_numbered, ih]

/-- A table and its columns have numbers in the extent of all tables. -/
theorem mem_numberTables {n : Nat} {ts : List TableSpec} {t : Table} (h : t ∈ numberTables n ts) :
    ∃ k, ∃ u ∈ ts, n < k ∧ k + u.columns.length ≤ n + extent ts ∧ t = u.numbered k := by
  induction ts generalizing n with
  | nil => cases h
  | cons u rest ih =>
    rw [extent]
    rcases List.mem_cons.mp h with rfl | h
    · exact ⟨n + 1, u, by simp, by omega, by omega, rfl⟩
    · obtain ⟨k, u', hu', hlo, hhi, rfl⟩ := ih h
      exact ⟨k, u', List.mem_cons_of_mem _ hu', by omega, by omega, rfl⟩

theorem nodup_numberTables (n : Nat) (ts : List TableSpec) :
    ((numberTables n ts).map (·.id)).Nodup := by
  induction ts generalizing n with
  | nil => exact List.nodup_nil
  | cons t rest ih =>
    refine List.nodup_cons.mpr ⟨fun hmem => ?_, ih _⟩
    obtain ⟨u, hu, heq⟩ := List.mem_map.mp hmem
    obtain ⟨k, u', -, hlo, -, rfl⟩ := mem_numberTables hu
    have hk : numberedId "t" k = numberedId "t" (n + 1) := congrArg TableId.text heq
    have := numberedId_injective hk
    omega

theorem nodup_columns_numbered (n : Nat) (t : TableSpec) :
    ((t.numbered n).columns.map (·.id)).Nodup := by
  show ((numberFrom ColumnSpec.numbered n t.columns).map (·.id)).Nodup
  rw [map_numberFrom]
  refine nodup_numberFrom (fun k c l d heq => ?_) n t.columns
  exact numberedId_injective (congrArg ColumnId.text heq)

end TableSpec

/-! ## Relations -/

/-- The ends of a relation that is to be made, and its cardinality. -/
structure Join where
  source : Endpoint
  target : Endpoint
  cardinality : Cardinality
  deriving DecidableEq, Repr

def Join.numbered (n : Nat) (j : Join) : Relation :=
  ⟨.ofNumber n, j.source, j.target, j.cardinality⟩

namespace Schema

/-- The tables and relations, numbered in order. -/
def unnoted (ts : List TableSpec) (js : List Join) : Schema :=
  ⟨TableSpec.numberTables 0 ts, numberFrom Join.numbered (TableSpec.extent ts) js,
    TableSpec.extent ts + js.length⟩

/-- The tables and relations, numbered in order, with true notes of foreign keys. -/
def numbered (ts : List TableSpec) (js : List Join) : Schema := (unnoted ts js).reconcile.1

theorem specs_mapColumns_note (s : Schema) (p : Endpoint → Bool) :
    (s.mapColumns fun e c => note (p e) c).specs = s.specs := by
  simp [mapColumns, specs, Table.spec, Function.comp_def, note, Column.spec]

theorem specs_numbered (ts : List TableSpec) (js : List Join) : (numbered ts js).specs = ts := by
  rw [numbered, reconcile_eq_mapColumns, specs_mapColumns_note]
  exact TableSpec.map_spec_numberTables 0 ts

theorem uniqueIds_unnoted (ts : List TableSpec) (js : List Join) : (unnoted ts js).UniqueIds := by
  refine ⟨TableSpec.nodup_numberTables 0 ts, fun t ht => ?_⟩
  obtain ⟨k, u, -, -, -, rfl⟩ := TableSpec.mem_numberTables ht
  exact TableSpec.nodup_columns_numbered k u

theorem uniqueIds_numbered (ts : List TableSpec) (js : List Join) : (numbered ts js).UniqueIds :=
  (uniqueIds_unnoted ts js).mapColumns (keepsIds_note _)

theorem named_mapColumns_note (s : Schema) (p : Endpoint → Bool) {table column : String}
    {e : Endpoint} :
    (s.mapColumns fun e c => note (p e) c).Named table column e ↔ s.Named table column e := by
  simp [mapColumns, Named, note]

theorem at_mapColumns_note (s : Schema) (p : Endpoint → Bool) {i j : Nat} {e : Endpoint} :
    (s.mapColumns fun e c => note (p e) c).At i j e ↔ s.At i j e := by
  simp [mapColumns, At, note]

theorem hasEndpoint_mapColumns_note (s : Schema) (p : Endpoint → Bool) {e : Endpoint} :
    (s.mapColumns fun e c => note (p e) c).HasEndpoint e ↔ s.HasEndpoint e := by
  simp [mapColumns, HasEndpoint, note]

/-- Relations do not matter for which columns there are. -/
theorem hasEndpoint_numbered_iff {ts : List TableSpec} {js : List Join} {e : Endpoint} :
    (numbered ts js).HasEndpoint e ↔ (unnoted ts []).HasEndpoint e := by
  rw [numbered, reconcile_eq_mapColumns, hasEndpoint_mapColumns_note]
  rfl

/-- Relations do not matter for where a column is. -/
theorem at_numbered_iff {ts : List TableSpec} {js ks : List Join} {i j : Nat} {e : Endpoint} :
    (numbered ts js).At i j e ↔ (numbered ts ks).At i j e := by
  rw [numbered, reconcile_eq_mapColumns, at_mapColumns_note,
    numbered, reconcile_eq_mapColumns, at_mapColumns_note]
  rfl

/-- Relations do not matter for what names stand for. -/
theorem named_numbered_iff {ts : List TableSpec} {js ks : List Join} {table column : String}
    {e : Endpoint} :
    (numbered ts js).Named table column e ↔ (numbered ts ks).Named table column e := by
  rw [numbered, reconcile_eq_mapColumns, named_mapColumns_note,
    numbered, reconcile_eq_mapColumns, named_mapColumns_note]
  rfl

theorem nodup_numberJoins (n : Nat) (js : List Join) :
    ((numberFrom Join.numbered n js).map (·.id)).Nodup := by
  rw [map_numberFrom]
  refine nodup_numberFrom (fun k j l j' heq => ?_) n js
  exact numberedId_injective (congrArg RelationId.text heq)

theorem consistent_numbered {ts : List TableSpec} {js : List Join}
    (h : ∀ j ∈ js, (numbered ts []).HasEndpoint j.source ∧ (numbered ts []).HasEndpoint j.target) :
    (numbered ts js).Consistent := by
  refine Linked.reconcile ⟨uniqueIds_unnoted ts js, nodup_numberJoins _ js, fun r hr => ?_⟩
  obtain ⟨k, j, -, -, hj, rfl⟩ := mem_numberFrom hr
  exact ⟨hasEndpoint_numbered_iff.mp (h j hj).1, hasEndpoint_numbered_iff.mp (h j hj).2⟩

/-- Without relations no column is a foreign key. -/
theorem numbered_nil (ts : List TableSpec) :
    numbered ts [] = ⟨TableSpec.numberTables 0 ts, [], TableSpec.extent ts⟩ := by
  rw [numbered, reconcile_eq_mapColumns]
  show (unnoted ts []).mapColumns _ = unnoted ts []
  refine mapColumns_self fun t ht c hc => ?_
  obtain ⟨k, u, -, -, -, rfl⟩ := TableSpec.mem_numberTables ht
  obtain ⟨l, d, -, -, -, rfl⟩ := mem_numberFrom hc
  rfl

theorem numbered_nil_nil : numbered [] [] = empty := numbered_nil []

/-! ## Numbering on -/

theorem freshTable_numbered (ts : List TableSpec) :
    (numbered ts []).freshTable = TableSpec.extent ts + 1 := by
  rw [numbered_nil]
  refine freshNumber_eq_succ fun hmem => ?_
  simp only [tableIds, List.map_map, List.mem_map, Function.comp_apply] at hmem
  obtain ⟨t, ht, heq⟩ := hmem
  obtain ⟨k, u, -, -, hhi, rfl⟩ := TableSpec.mem_numberTables ht
  have hk : numberedId "t" k = numberedId "t" (TableSpec.extent ts + 1) := heq
  have := numberedId_injective hk
  omega

theorem freshColumn_numbered (ts : List TableSpec) :
    (numbered ts []).freshColumn = TableSpec.extent ts + 1 := by
  rw [numbered_nil]
  refine freshNumber_eq_succ fun hmem => ?_
  simp only [columnIds, List.mem_map, List.mem_flatMap] at hmem
  obtain ⟨id, ⟨t, ht, c, hc, rfl⟩, heq⟩ := hmem
  obtain ⟨k, u, -, -, hhi, rfl⟩ := TableSpec.mem_numberTables ht
  obtain ⟨l, d, -, hhi', -, rfl⟩ := mem_numberFrom hc
  have hl : numberedId "c" l = numberedId "c" (TableSpec.extent ts + 1) := heq
  have := numberedId_injective hl
  omega

theorem freshRelation_numbered (ts : List TableSpec) (js : List Join) :
    (numbered ts js).freshRelation = TableSpec.extent ts + js.length + 1 := by
  refine freshNumber_eq_succ fun hmem => ?_
  simp only [relationIds, List.map_map, List.mem_map, Function.comp_apply] at hmem
  obtain ⟨r, hr, heq⟩ := hmem
  obtain ⟨k, j, -, hhi, -, rfl⟩ := mem_numberFrom hr
  have hk : numberedId "r" k = numberedId "r" (TableSpec.extent ts + js.length + 1) := heq
  have := numberedId_injective hk
  omega

theorem addTable_numbered (ts : List TableSpec) (name : String) :
    (numbered ts []).addTable name none =
      (numbered (ts ++ [⟨name, []⟩]) [], .ofNumber (TableSpec.extent ts + 1)) := by
  rw [addTable, freshTable_numbered, numbered_nil, numbered_nil, TableSpec.numberTables_append,
    TableSpec.extent_append, Nat.zero_add]
  rfl

/-- A new column at the end of the last table is numbered on. -/
theorem insertColumn_numbered (ts : List TableSpec) (name : String) (cs : List ColumnSpec)
    (c : ColumnSpec) :
    ((numbered (ts ++ [⟨name, cs⟩]) []).insertColumn (.ofNumber (TableSpec.extent ts + 1)) c).1 =
      numbered (ts ++ [⟨name, cs ++ [c]⟩]) [] := by
  have hextent : ∀ ds : List ColumnSpec,
      TableSpec.extent (ts ++ [⟨name, ds⟩]) = TableSpec.extent ts + 1 + ds.length := by
    intro ds
    rw [TableSpec.extent_append]
    show TableSpec.extent ts + (1 + ds.length + 0) = _
    omega
  have htables : ∀ ds : List ColumnSpec, TableSpec.numberTables 0 (ts ++ [⟨name, ds⟩]) =
      TableSpec.numberTables 0 ts ++ [TableSpec.numbered (TableSpec.extent ts + 1) ⟨name, ds⟩] := by
    intro ds
    rw [TableSpec.numberTables_append, Nat.zero_add]
    rfl
  have hother : ∀ t ∈ TableSpec.numberTables 0 ts,
      (t.id == TableId.ofNumber (TableSpec.extent ts + 1)) = false := by
    intro t ht
    obtain ⟨k, u, -, -, hhi, rfl⟩ := TableSpec.mem_numberTables ht
    refine beq_false_of_ne fun heq => ?_
    have hk : numberedId "t" k = numberedId "t" (TableSpec.extent ts + 1) :=
      congrArg TableId.text heq
    have := numberedId_injective hk
    omega
  rw [insertColumn, newColumn, freshColumn_numbered, numbered_nil, numbered_nil, htables, htables,
    hextent, hextent]
  simp only [modifyTable]
  rw [modifyFirst_append_cons _ hother (beq_self_eq_true _), TableSpec.numbered, TableSpec.numbered,
    numberFrom_concat, List.length_append]
  rfl

theorem addColumn_numbered (ts : List TableSpec) (name : String) (cs : List ColumnSpec)
    (c : ColumnSpec) :
    (numbered (ts ++ [⟨name, cs⟩]) []).addColumn (.ofNumber (TableSpec.extent ts + 1)) c =
      .ok (numbered (ts ++ [⟨name, cs ++ [c]⟩]) [],
        .ofNumber (TableSpec.extent ts + 1 + cs.length + 1)) := by
  have hmem : TableSpec.numbered (TableSpec.extent ts + 1) ⟨name, cs⟩ ∈
      (numbered (ts ++ [⟨name, cs⟩]) []).tables := by
    rw [numbered_nil, TableSpec.numberTables_append, Nat.zero_add]
    exact List.mem_append_right _ List.mem_cons_self
  have hfresh : (numbered (ts ++ [⟨name, cs⟩]) []).freshColumn =
      TableSpec.extent ts + 1 + cs.length + 1 := by
    rw [freshColumn_numbered, TableSpec.extent_append]
    show TableSpec.extent ts + (1 + cs.length + 0) + 1 = _
    omega
  rw [← hfresh]
  refine (addColumn_of_mem (uniqueIds_numbered _ _) hmem c).trans (congrArg Except.ok ?_)
  exact Prod.ext (insertColumn_numbered ts name cs c) rfl

/-- A new relation is numbered on. -/
theorem insertRelation_numbered (ts : List TableSpec) (js : List Join) (j : Join) :
    ((numbered ts js).insertRelation j.source j.target j.cardinality).1 =
      numbered ts (js ++ [j]) := by
  have hinsert : ((numbered ts js).insertRelation j.source j.target j.cardinality).1 =
      Schema.refresh ((unnoted ts (js ++ [j])).mapColumns fun e c =>
        note ((unnoted ts js).isForeignKey e) c) j.target := by
    rw [insertRelation, freshRelation_numbered, unnoted, numberFrom_concat, List.length_append]
    rfl
  have hids := (uniqueIds_unnoted ts (js ++ [j])).mapColumns
    (keepsIds_note (unnoted ts js).isForeignKey)
  rw [hinsert, refresh_eq_reconcile hids]
  · -- What was noted before is noted afresh.
    rw [reconcile_eq_mapColumns, mapColumns_mapColumns (keepsIds_note _)]
    rfl
  · refine (forall_mapColumns (keepsIds_note (unnoted ts js).isForeignKey)
      (p := fun e c => e ≠ j.target → c.isForeignKey = isForeignKey _ e)).mpr ?_
    intro t _ c _ hne
    show (unnoted ts js).isForeignKey _ = (unnoted ts (js ++ [j])).isForeignKey _
    rw [isForeignKey, isForeignKey, unnoted, unnoted, numberFrom_concat, List.any_append]
    simp [Join.numbered, Ne.symm hne]

theorem connect_numbered {ts : List TableSpec} {source target : Endpoint}
    (hsource : (numbered ts []).HasEndpoint source) (htarget : (numbered ts []).HasEndpoint target)
    (js : List Join) :
    (numbered ts js).connect source target =
      .ok (numbered ts (js ++ [⟨source, target, .oneToMany⟩]),
        .ofNumber (TableSpec.extent ts + js.length + 1)) := by
  have hend : ∀ {e}, (numbered ts []).HasEndpoint e → (numbered ts js).HasEndpoint e :=
    fun he => hasEndpoint_numbered_iff.mpr (hasEndpoint_numbered_iff.mp he)
  rw [connect_of_hasEndpoint (uniqueIds_numbered ts js) (hend hsource) (hend htarget),
    ← freshRelation_numbered ts js]
  exact congrArg Except.ok
    (Prod.ext (insertRelation_numbered ts js ⟨source, target, .oneToMany⟩) rfl)

theorem setCardinality_numbered (ts : List TableSpec) (js : List Join) (j : Join)
    (cardinality : Cardinality) :
    (numbered ts (js ++ [j])).setCardinality (.ofNumber (TableSpec.extent ts + js.length + 1))
        cardinality =
      .ok (numbered ts (js ++ [{ j with cardinality := cardinality }])) := by
  rw [← insertRelation_numbered, ← insertRelation_numbered, ← freshRelation_numbered]
  exact setCardinality_insertRelation _ _ _ _ _

/-! ## Changing columns -/

theorem extent_mapColumns (g : String → ColumnSpec → ColumnSpec) (ts : List TableSpec) :
    TableSpec.extent (ts.map (TableSpec.mapColumns g)) = TableSpec.extent ts := by
  induction ts with
  | nil => rfl
  | cons t rest ih =>
    simp only [List.map_cons, TableSpec.extent, ih, TableSpec.mapColumns, List.length_map]

theorem numberTables_mapColumns (g : String → ColumnSpec → ColumnSpec) (n : Nat)
    (ts : List TableSpec) :
    TableSpec.numberTables n (ts.map (TableSpec.mapColumns g)) =
      (TableSpec.numberTables n ts).map fun t =>
        { t with columns := t.columns.map fun c => c.withSpec (g t.name c.spec) } := by
  induction ts generalizing n with
  | nil => rfl
  | cons t rest ih =>
    have hcolumns : ∀ k, numberFrom ColumnSpec.numbered k (t.columns.map (g t.name)) =
        (numberFrom ColumnSpec.numbered k t.columns).map fun c =>
          c.withSpec (g t.name c.spec) := by
      intro k
      rw [numberFrom_map, map_numberFrom]
      rfl
    simp only [List.map_cons, TableSpec.numberTables, ih, TableSpec.mapColumns, List.length_map]
    rw [TableSpec.numbered, hcolumns]
    rfl

/-- Numbers do not depend on what columns are like. -/
theorem mapSpecs_numbered (g : String → ColumnSpec → ColumnSpec) (ts : List TableSpec)
    (js : List Join) :
    (numbered ts js).mapSpecs g = numbered (ts.map (TableSpec.mapColumns g)) js := by
  rw [numbered, numbered, reconcile_eq_mapColumns, reconcile_eq_mapColumns, unnoted, unnoted,
    extent_mapColumns, numberTables_mapColumns]
  simp [mapSpecs, mapColumns, isForeignKey, Column.withSpec, Column.spec, note]

theorem named_numbered_mapColumns {g : String → ColumnSpec → ColumnSpec}
    (hg : TableSpec.KeepsNames g) {ts : List TableSpec} {js : List Join} {table column : String}
    {e : Endpoint} :
    (numbered (ts.map (TableSpec.mapColumns g)) js).Named table column e ↔
      (numbered ts js).Named table column e := by
  rw [← mapSpecs_numbered, named_mapSpecs_iff hg]

end Schema
end Schemata
