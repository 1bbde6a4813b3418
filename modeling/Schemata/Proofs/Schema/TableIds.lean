/-
The ids of tables under edits.  A new table stands last and has a number above all that were given
before, a removed table takes its id away, and no other edit changes which tables there are.
-/
import Schemata.Proofs.Schema.Edit
import Schemata.Proofs.Schema.Numbering

namespace Schemata

/-- A change to one item that leaves its key alone leaves all keys alone. -/
theorem map_modifyFirst {key : α → κ} {f : α → α} (hf : ∀ x, key (f x) = key x) (p : α → Bool)
    (xs : List α) : (modifyFirst p f xs).map key = xs.map key := by
  induction xs with
  | nil => rfl
  | cons x rest ih =>
    unfold modifyFirst
    split
    · rw [List.map_cons, List.map_cons, hf]
    · rw [List.map_cons, List.map_cons, ih]

namespace Outcome

/-- The ids of the tables that are reported as new. -/
def newTables : Outcome → List TableId
  | .newTable id => [id]
  | _ => []

/-- The ids of the tables that are reported as removed. -/
def removedTables : Outcome → List TableId
  | .removedTable t => [t.id]
  | _ => []

end Outcome

namespace Schema


/-! ## Numbers that were given -/

/-- The id has a number that was given to something already. -/
def Gave (s : Schema) (id : TableId) : Prop := ∃ k, k ≤ s.counter ∧ id = .ofNumber k

theorem Gave.mono {s u : Schema} {id : TableId} (h : s.Gave id) (hcounter : s.counter ≤ u.counter) :
    u.Gave id := by
  obtain ⟨k, hk, rfl⟩ := h
  exact ⟨k, Nat.le_trans hk hcounter, rfl⟩

theorem gave_numbered (ts : List TableSpec) (js : List Join) :
    ∀ id ∈ (numbered ts js).tableIds, (numbered ts js).Gave id := by
  intro id hid
  rw [tableIds, numbered, reconcile_eq_mapColumns, tables_mapColumns_ids] at hid
  obtain ⟨t, ht, rfl⟩ := List.mem_map.mp hid
  obtain ⟨k, u, -, -, hhi, rfl⟩ := TableSpec.mem_numberTables ht
  refine ⟨k, ?_, rfl⟩
  show k ≤ TableSpec.extent ts + js.length
  omega

theorem counter_lt_freshTable (s : Schema) : s.counter < s.freshTable :=
  (freshNumber_spec "t" _ s.counter).1

theorem counter_lt_freshColumn (s : Schema) : s.counter < s.freshColumn :=
  (freshNumber_spec "c" _ s.counter).1

theorem counter_lt_freshRelation (s : Schema) : s.counter < s.freshRelation :=
  (freshNumber_spec "r" _ s.counter).1

theorem not_gave_freshTable (s : Schema) : ¬s.Gave (.ofNumber s.freshTable) := by
  rintro ⟨k, hk, heq⟩
  have hnumber : s.freshTable = k := numberedId_injective (congrArg TableId.text heq)
  have hlt := s.counter_lt_freshTable
  omega

/-! ## Edits -/

/-- What an edit does to the ids of tables, by what it reports. -/
structure Registers (s u : Schema) (outcome : Outcome) : Prop where
  tableIds : u.tableIds = s.tableIds.filter (· ∉ outcome.removedTables) ++ outcome.newTables
  counter : s.counter ≤ u.counter
  new : ∀ id ∈ outcome.newTables, u.Gave id
  removed : ∀ id ∈ outcome.removedTables, id ∈ s.tableIds

/-- An edit that neither makes nor removes a table. -/
theorem Registers.of_same {s u : Schema} {outcome : Outcome} (hnew : outcome.newTables = [])
    (hremoved : outcome.removedTables = []) (hids : u.tableIds = s.tableIds)
    (hcounter : s.counter ≤ u.counter) : Registers s u outcome := by
  refine ⟨?_, hcounter, ?_, ?_⟩
  · simp [hnew, hremoved, hids]
  · simp [hnew]
  · simp [hremoved]

namespace Registers

variable {s u : Schema} {outcome : Outcome} {id : TableId}

/-- A table that is there or was removed just now is new, or was there before. -/
theorem new_or_old (h : Registers s u outcome)
    (hid : id ∈ u.tableIds ∨ id ∈ outcome.removedTables) :
    id ∈ outcome.newTables ∨ id ∈ s.tableIds := by
  rw [h.tableIds] at hid
  rcases hid with hid | hid
  · rcases List.mem_append.mp hid with hid | hid
    · exact .inr (List.mem_of_mem_filter hid)
    · exact .inl hid
  · exact .inr (h.removed id hid)

/-- A table that was there before is still there, or was removed just now. -/
theorem kept_or_removed (h : Registers s u outcome) (hid : id ∈ s.tableIds) :
    id ∈ u.tableIds ∨ id ∈ outcome.removedTables := by
  rw [h.tableIds]
  by_cases hremoved : id ∈ outcome.removedTables
  · exact .inr hremoved
  · refine .inl (List.mem_append_left _ (List.mem_filter.mpr ⟨hid, ?_⟩))
    simpa using hremoved

end Registers

theorem tableIds_modifyTable {s : Schema} {f : Table → Table} (hf : ∀ t, (f t).id = t.id)
    (id : TableId) : (s.modifyTable id f).tableIds = s.tableIds :=
  map_modifyFirst hf _ s.tables

theorem tableIds_foldl_refresh (s : Schema) (es : List Endpoint) :
    (es.foldl refresh s).tableIds = s.tableIds ∧ (es.foldl refresh s).counter = s.counter := by
  induction es generalizing s with
  | nil => exact ⟨rfl, rfl⟩
  | cons e rest ih =>
    obtain ⟨hids, hcounter⟩ := ih (s.refresh e)
    exact ⟨hids.trans (tableIds_modifyTable (fun _ => by rfl) e.table), hcounter⟩

theorem registers_addTable (s : Schema) (name : String) (first : Option ColumnSpec) :
    Registers s (s.addTable name first).1 (.newTable (s.addTable name first).2) := by
  have hlt := s.counter_lt_freshTable
  cases first with
  | none =>
    refine ⟨by simp [Outcome.newTables, Outcome.removedTables, addTable, Schema.tableIds],
      Nat.le_of_lt hlt, ?_, by simp [Outcome.removedTables]⟩
    intro id hid
    exact ⟨s.freshTable, Nat.le_refl _, List.mem_singleton.mp hid⟩
  | some spec =>
    let numbered : Schema := { s with counter := s.freshTable }
    have hlt' : s.freshTable < numbered.freshColumn := numbered.counter_lt_freshColumn
    refine ⟨by simp [Outcome.newTables, Outcome.removedTables, addTable, newColumn,
      Schema.tableIds], Nat.le_of_lt (Nat.lt_trans hlt hlt'), ?_, by simp [Outcome.removedTables]⟩
    intro id hid
    exact ⟨s.freshTable, Nat.le_of_lt hlt', List.mem_singleton.mp hid⟩

theorem registers_removeTable {s : Schema} (hids : s.UniqueIds) {t : Table} (ht : t ∈ s.tables)
    (es : List Endpoint) :
    Registers s (es.foldl refresh (s.withoutTable t.id)) (.removedTable t) := by
  obtain ⟨htables, hcounter⟩ := tableIds_foldl_refresh (s.withoutTable t.id) es
  refine ⟨?_, (Nat.le_of_eq hcounter.symm), by simp [Outcome.newTables], ?_⟩
  · rw [htables, Schema.tableIds, withoutTable, eraseP_eq_filter hids.tables]
    simp [Outcome.newTables, Outcome.removedTables, Schema.tableIds, List.filter_map,
      Function.comp_def, bne, beq_eq_decide]
  · intro id hid
    rw [List.mem_singleton.mp hid]
    exact List.mem_map_of_mem ht

theorem registers_of_perform {s u : Schema} (hids : s.UniqueIds) {edit : Edit} {outcome : Outcome}
    (hu : s.perform edit = .ok (u, outcome)) : Registers s u outcome := by
  cases performs_of_perform hu with
  | addTable name first => exact registers_addTable s name first
  | @renameTable table _ name _ =>
    exact .of_same rfl rfl (tableIds_modifyTable (fun _ => by rfl) table) (Nat.le_refl _)
  | removeTable ht =>
    obtain ⟨hmem, rfl⟩ := requireTable_eq_ok ht
    exact registers_removeTable hids hmem _
  | @addColumn table _ spec _ =>
    exact .of_same rfl rfl (tableIds_modifyTable (fun _ => by rfl) table)
      (Nat.le_of_lt s.counter_lt_freshColumn)
  | @updateColumn e _ patch _ =>
    exact .of_same rfl rfl (tableIds_modifyTable (fun _ => by rfl) e.table) (Nat.le_refl _)
  | @removeColumn e _ _ =>
    obtain ⟨htables, hcounter⟩ := tableIds_foldl_refresh (s.withoutColumn e) _
    exact .of_same rfl rfl (htables.trans (tableIds_modifyTable (fun _ => by rfl) e.table))
      (Nat.le_of_eq hcounter.symm)
  | @reorderColumn table source destination _ hmoved =>
    obtain ⟨-, rfl⟩ := reorderColumn_eq_ok hmoved
    exact .of_same rfl rfl (tableIds_modifyTable (fun _ => by split <;> rfl) table) (Nat.le_refl _)
  | @connect source target _ _ _ _ =>
    exact .of_same rfl rfl (tableIds_modifyTable (fun _ => by rfl) target.table)
      (Nat.le_of_lt s.counter_lt_freshRelation)
  | setCardinality cardinality _ => exact .of_same rfl rfl rfl (Nat.le_refl _)
  | @disconnect relation r _ =>
    exact .of_same rfl rfl (tableIds_modifyTable (fun _ => by rfl) r.target.table) (Nat.le_refl _)
  | reconcile =>
    refine .of_same rfl rfl ?_ (Nat.le_refl _)
    rw [reconcile_eq_mapColumns]
    exact tables_mapColumns_ids _ _

end Schema
end Schemata
