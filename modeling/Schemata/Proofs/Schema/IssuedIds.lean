/-
The ids that are given in the history of a schema.  Every new id has a number above all that were
given before, to things of any sort, so the id of what was removed is not given again.
-/
import Schemata.Proofs.Schema.TableIds

namespace Schemata

/-! ## Ids of any sort -/

/-- The id of a table, of a column or of a relation. -/
inductive AnyId
  | table (id : TableId)
  | column (id : ColumnId)
  | relation (id : RelationId)
  deriving DecidableEq, Repr

namespace AnyId

/-- What the ids of a sort begin with. -/
def letter : AnyId → String
  | table _ => "t"
  | column _ => "c"
  | relation _ => "r"

def text : AnyId → String
  | table id => id.text
  | column id => id.text
  | relation id => id.text

/-- The id is the letter of its sort with the number behind it. -/
def HasNumber (id : AnyId) (n : Nat) : Prop := id.text = numberedId id.letter n

instance (id : AnyId) (n : Nat) : Decidable (id.HasNumber n) := inferInstanceAs (Decidable (_ = _))

theorem HasNumber.unique {id : AnyId} {m n : Nat} (hm : id.HasNumber m) (hn : id.HasNumber n) :
    m = n := numberedId_injective (hm.symm.trans hn)

end AnyId

def Table.ids (t : Table) : List AnyId := .table t.id :: t.columns.map fun c => .column c.id

/-- The ids in a schema, each table with its columns and then the relations. -/
def Schema.ids (s : Schema) : List AnyId :=
  s.tables.flatMap Table.ids ++ s.relations.map fun r => .relation r.id

/-- The ids that an edit has given in the schema that it leaves: the one that it reports, and those
of the columns that a new table begins with. -/
def Outcome.givenIds (u : Schema) : Outcome → List AnyId
  | .newTable id =>
    .table id :: (u.table? id).toList.flatMap fun t => t.columns.map fun c => .column c.id
  | .newColumn id => [.column id]
  | .newRelation id => [.relation id]
  | _ => []

namespace Schema

open AnyId (HasNumber)

/-! ## Numbered schemas -/

theorem forall₂_numberFrom_range' {f : Nat → α → AnyId} (hf : ∀ k x, (f k x).HasNumber k) (n : Nat)
    (xs : List α) :
    List.Forall₂ HasNumber (numberFrom f n xs) (List.range' (n + 1) xs.length) := by
  induction xs generalizing n with
  | nil => exact .nil
  | cons x rest ih => exact .cons (hf _ _) (ih (n + 1))

theorem forall₂_ids_numberTables (n : Nat) (ts : List TableSpec) :
    List.Forall₂ HasNumber ((TableSpec.numberTables n ts).flatMap Table.ids)
      (List.range' (n + 1) (TableSpec.extent ts)) := by
  induction ts generalizing n with
  | nil => exact .nil
  | cons t rest ih =>
    have hcolumns : List.Forall₂ HasNumber (t.numbered (n + 1)).ids
        (List.range' (n + 1) (1 + t.columns.length)) := by
      rw [Nat.add_comm 1]
      refine .cons rfl ?_
      show List.Forall₂ HasNumber ((numberFrom ColumnSpec.numbered (n + 1) t.columns).map _) _
      rw [map_numberFrom]
      refine forall₂_numberFrom_range' (fun k c => ?_) _ _
      exact (rfl : (AnyId.column (.ofNumber k)).HasNumber k)
    have hsum : n + 1 + (1 + t.columns.length) = n + 1 + t.columns.length + 1 := by omega
    rw [TableSpec.extent, TableSpec.numberTables, List.flatMap_cons, ← List.range'_append_1, hsum]
    exact List.rel_append hcolumns (ih _)

theorem ids_mapColumns {s : Schema} {g : Endpoint → Column → Column} (hg : KeepsIds g) :
    (s.mapColumns g).ids = s.ids := by
  have htables : ∀ t : Table,
      Table.ids { t with columns := t.columns.map fun c => g ⟨t.id, c.id⟩ c } = t.ids := by
    intro t
    simp [Table.ids, Function.comp_def, hg _ _]
  rw [ids, ids, mapColumns, List.flatMap_map]
  simp only [htables]

/-- The ids in a schema that is numbered in order have the numbers from one to its counter. -/
theorem forall₂_ids_numbered (ts : List TableSpec) (js : List Join) :
    List.Forall₂ HasNumber (numbered ts js).ids (List.range' 1 (numbered ts js).counter) := by
  rw [numbered, reconcile_eq_mapColumns, ids_mapColumns (keepsIds_note _)]
  show List.Forall₂ HasNumber (unnoted ts js).ids
    (List.range' 1 (TableSpec.extent ts + js.length))
  rw [← List.range'_append_1]
  refine List.rel_append (forall₂_ids_numberTables 0 ts) ?_
  show List.Forall₂ HasNumber ((numberFrom Join.numbered _ js).map _) _
  rw [map_numberFrom, Nat.add_comm 1]
  refine forall₂_numberFrom_range' (fun k j => ?_) _ _
  exact (rfl : (AnyId.relation (.ofNumber k)).HasNumber k)

/-! ## One edit -/

/-- What comes of a schema when the new ids are given: it has no others, and their numbers go up
from the counter of the one to that of the other. -/
structure Draws (s u : Schema) (new : List AnyId) : Prop where
  ids : u.ids ⊆ s.ids ++ new
  counter : s.counter ≤ u.counter
  numbers : ∃ ns, List.Forall₂ HasNumber new ns ∧ ns.Pairwise (· < ·) ∧
    ∀ n ∈ ns, s.counter < n ∧ n ≤ u.counter

namespace Draws

variable {s u v : Schema} {new more : List AnyId} {id : AnyId}

theorem of_subset (hids : u.ids ⊆ s.ids) (hcounter : s.counter ≤ u.counter) : Draws s u [] :=
  ⟨by rwa [List.append_nil], hcounter, [], .nil, .nil, by simp⟩

theorem single (hids : u.ids ⊆ s.ids ++ [id]) (hnumber : id.HasNumber u.counter)
    (hcounter : s.counter < u.counter) : Draws s u [id] :=
  ⟨hids, Nat.le_of_lt hcounter, [u.counter], .cons hnumber .nil, List.pairwise_singleton _ _,
    List.forall_mem_singleton.mpr ⟨hcounter, Nat.le_refl _⟩⟩

theorem trans (h : Draws s u new) (h' : Draws u v more) : Draws s v (new ++ more) := by
  obtain ⟨ns, hns, hup, hbound⟩ := h.numbers
  obtain ⟨ms, hms, hup', hbound'⟩ := h'.numbers
  refine ⟨fun id hid => ?_, Nat.le_trans h.counter h'.counter, ns ++ ms, List.rel_append hns hms,
    List.pairwise_append.mpr ⟨hup, hup', fun n hn m hm => ?_⟩, fun n hn => ?_⟩
  · rw [← List.append_assoc]
    rcases List.mem_append.mp (h'.ids hid) with hid | hid
    · exact List.mem_append_left _ (h.ids hid)
    · exact List.mem_append_right _ hid
  · have hn := hbound n hn
    have hm := hbound' m hm
    omega
  · have := h.counter
    have := h'.counter
    rcases List.mem_append.mp hn with hn | hn
    · have hn := hbound n hn
      omega
    · have hn := hbound' n hn
      omega

end Draws

section

variable {s u : Schema} {extra : List AnyId}

theorem mem_flatMap_modifyFirst {p : α → Bool} {f : α → α} {g : α → List β} {extra : List β}
    (hf : ∀ x, g (f x) ⊆ g x ++ extra) (xs : List α) :
    (modifyFirst p f xs).flatMap g ⊆ xs.flatMap g ++ extra := by
  induction xs with
  | nil => exact List.nil_subset _
  | cons x rest ih =>
    unfold modifyFirst
    intro y hy
    split at hy
    · simp only [List.flatMap_cons, List.mem_append] at hy ⊢
      rcases hy with hy | hy
      · have := List.mem_append.mp (hf x hy)
        tauto
      · exact .inl (.inr hy)
    · simp only [List.flatMap_cons, List.mem_append] at hy ⊢
      rcases hy with hy | hy
      · exact .inl (.inl hy)
      · have := List.mem_append.mp (ih hy)
        tauto

/-- A change to one table gives the schema no ids but those that the table gets. -/
theorem ids_modifyTable {f : Table → Table} (hf : ∀ t, (f t).ids ⊆ t.ids ++ extra)
    (id : TableId) : (s.modifyTable id f).ids ⊆ s.ids ++ extra := by
  intro i hi
  rcases List.mem_append.mp hi with hi | hi
  · have := List.mem_append.mp (mem_flatMap_modifyFirst hf s.tables hi)
    simp only [ids, List.mem_append]
    tauto
  · exact List.mem_append_left _ (List.mem_append_right _ hi)

theorem ids_modifyTable_same {f : Table → Table} (hf : ∀ t, (f t).ids ⊆ t.ids) (id : TableId) :
    (s.modifyTable id f).ids ⊆ s.ids := by
  have hsame : (s.modifyTable id f).ids ⊆ s.ids ++ [] :=
    ids_modifyTable (fun t => by rw [List.append_nil]; exact hf t) id
  rwa [List.append_nil] at hsame

theorem ids_modifyColumn {f : Column → Column} (hf : ∀ c, (f c).id = c.id) (e : Endpoint) :
    (s.modifyColumn e f).ids ⊆ s.ids := by
  refine ids_modifyTable_same (fun t => ?_) e.table
  have hcolumn : ∀ c, AnyId.column (f c).id = .column c.id := fun c => congrArg _ (hf c)
  have hids : Table.ids { t with columns := modifyFirst (·.id == e.column) f t.columns } = t.ids :=
    congrArg (AnyId.table t.id :: ·) (map_modifyFirst hcolumn _ _)
  exact fun id hid => hids ▸ hid

theorem ids_foldl_refresh (s : Schema) (es : List Endpoint) :
    (es.foldl refresh s).ids ⊆ s.ids := by
  induction es generalizing s with
  | nil => exact List.Subset.refl _
  | cons e rest ih =>
    exact List.Subset.trans (ih (s.refresh e)) (ids_modifyColumn (fun _ => by rfl) e)

theorem ids_of_parts {ts : List Table} {rs : List Relation} {n : Nat}
    (hts : ts.flatMap Table.ids ⊆ s.tables.flatMap Table.ids ++ extra)
    (hrs : rs.map (·.id) ⊆ s.relations.map (·.id)) : Schema.ids ⟨ts, rs, n⟩ ⊆ s.ids ++ extra := by
  intro id hid
  rcases List.mem_append.mp hid with hid | hid
  · have := List.mem_append.mp (hts hid)
    simp only [ids, List.mem_append]
    tauto
  · obtain ⟨r, hr, rfl⟩ := List.mem_map.mp hid
    obtain ⟨r', hr', hid⟩ := List.mem_map.mp (hrs (List.mem_map_of_mem hr))
    refine List.mem_append_left _ (List.mem_append_right _ (List.mem_map.mpr ⟨r', hr', ?_⟩))
    rw [hid]

/-- Fewer tables and relations have fewer ids. -/
theorem ids_of_subset {ts : List Table} {rs : List Relation} {n : Nat} (hts : ts ⊆ s.tables)
    (hrs : rs.map (·.id) ⊆ s.relations.map (·.id)) : Schema.ids ⟨ts, rs, n⟩ ⊆ s.ids := by
  have htables : ts.flatMap Table.ids ⊆ s.tables.flatMap Table.ids ++ [] := by
    intro id hid
    obtain ⟨t, ht, hid⟩ := List.mem_flatMap.mp hid
    rw [List.append_nil]
    exact List.mem_flatMap.mpr ⟨t, hts ht, hid⟩
  have hids := ids_of_parts (n := n) htables hrs
  rwa [List.append_nil] at hids

theorem ids_withoutTable (s : Schema) (id : TableId) : (s.withoutTable id).ids ⊆ s.ids :=
  ids_of_subset List.eraseP_subset (List.map_subset _ (List.filter_subset_self _))

theorem ids_withoutColumn (s : Schema) (e : Endpoint) : (s.withoutColumn e).ids ⊆ s.ids := by
  refine List.Subset.trans (ids_modifyTable_same (fun t => ?_) e.table) (ids_of_subset
    (List.Subset.refl _) (List.map_subset _ (List.filter_subset_self _)))
  exact List.cons_subset_cons _ (List.map_subset _ List.eraseP_subset)

theorem ids_withoutRelation (s : Schema) (id : RelationId) : (s.withoutRelation id).ids ⊆ s.ids :=
  ids_of_subset (List.Subset.refl _) (List.map_subset _ List.eraseP_subset)

/-- A new table is found by its id. -/
theorem find?_freshTable (s : Schema) (name : String) (cs : List Column) :
    (s.tables ++ [Table.mk (.ofNumber s.freshTable) name cs]).find?
        (·.id == TableId.ofNumber s.freshTable) = some ⟨.ofNumber s.freshTable, name, cs⟩ := by
  have hnone : s.tables.find? (·.id == TableId.ofNumber s.freshTable) = none := by
    refine List.find?_eq_none.mpr fun t ht heq => s.freshTable_not_mem ?_
    rw [← eq_of_beq heq]
    exact List.mem_map_of_mem ht
  rw [List.find?_append, hnone, Option.none_or]
  exact List.find?_cons_of_pos (beq_self_eq_true _)

theorem draws_addTable (s : Schema) (name : String) (first : Option ColumnSpec) :
    Draws s (s.addTable name first).1
      (Outcome.givenIds (s.addTable name first).1 (.newTable (s.addTable name first).2)) := by
  have hlt := s.counter_lt_freshTable
  cases first with
  | none =>
    have hgiven : Outcome.givenIds (s.addTable name none).1 (.newTable (s.addTable name none).2) =
        [.table (.ofNumber s.freshTable)] := by
      simp only [Outcome.givenIds, addTable, table?, find?_freshTable]
      rfl
    rw [hgiven]
    refine .single (ids_of_parts ?_ (List.Subset.refl _)) rfl hlt
    rw [List.flatMap_append]
    exact List.Subset.refl _
  | some spec =>
    let numbered : Schema := { s with counter := s.freshTable }
    have hlt' : s.freshTable < numbered.freshColumn := numbered.counter_lt_freshColumn
    have hgiven : Outcome.givenIds (s.addTable name (some spec)).1
        (.newTable (s.addTable name (some spec)).2) =
          [.table (.ofNumber s.freshTable), .column (.ofNumber numbered.freshColumn)] := by
      simp only [Outcome.givenIds, addTable, newColumn, table?, find?_freshTable]
      rfl
    rw [hgiven]
    refine ⟨ids_of_parts ?_ (List.Subset.refl _), Nat.le_of_lt (Nat.lt_trans hlt hlt'),
      [s.freshTable, numbered.freshColumn], .cons rfl (.cons rfl .nil), by simpa using hlt', ?_⟩
    · rw [List.flatMap_append]
      exact List.Subset.refl _
    · have hcounter : (s.addTable name (some spec)).1.counter = numbered.freshColumn := rfl
      rw [hcounter]
      intro n hn
      rcases List.mem_pair.mp hn with rfl | rfl <;> omega

/-- An edit that succeeds gives new numbers, and only to what it says. -/
theorem draws_of_perform {edit : Edit} {outcome : Outcome}
    (hu : s.perform edit = .ok (u, outcome)) : Draws s u (outcome.givenIds u) := by
  cases performs_of_perform hu with
  | addTable name first => exact draws_addTable s name first
  | @renameTable table _ name _ =>
    refine .of_subset (ids_modifyTable_same (fun t => ?_) table) (Nat.le_refl _)
    exact List.Subset.refl t.ids
  | @removeTable table _ _ =>
    exact .of_subset (List.Subset.trans (ids_foldl_refresh _ _) (ids_withoutTable s table))
      (Nat.le_of_eq (tableIds_foldl_refresh (s.withoutTable table) _).2.symm)
  | @addColumn table _ spec _ =>
    refine .single (ids_modifyTable (fun t => ?_) table) rfl s.counter_lt_freshColumn
    simp [Table.ids, insertColumn, newColumn]
  | @updateColumn e _ patch _ =>
    exact .of_subset (ids_modifyColumn (fun _ => by rfl) e) (Nat.le_refl _)
  | @removeColumn e _ _ =>
    exact .of_subset (List.Subset.trans (ids_foldl_refresh _ _) (ids_withoutColumn s e))
      (Nat.le_of_eq (tableIds_foldl_refresh (s.withoutColumn e) _).2.symm)
  | @reorderColumn table source destination _ hmoved =>
    obtain ⟨-, rfl⟩ := reorderColumn_eq_ok hmoved
    refine .of_subset (ids_modifyTable_same (fun t => ?_) table) (Nat.le_refl _)
    split
    · next c hc =>
      refine List.cons_subset_cons _ (List.map_subset _ fun d hd => ?_)
      rcases List.eq_or_mem_of_mem_insertIdx hd with rfl | hd
      · exact List.mem_of_getElem? hc
      · exact List.mem_of_mem_eraseIdx hd
    · exact List.Subset.refl _
  | @connect source target _ _ _ _ =>
    refine .single (List.Subset.trans (ids_modifyColumn (fun _ => by rfl) target) ?_) rfl
      s.counter_lt_freshRelation
    simp [ids, insertRelation]
  | setCardinality cardinality _ =>
    refine .of_subset (ids_of_subset (List.Subset.refl _) ?_) (Nat.le_refl _)
    rw [map_modifyFirst fun _ => by rfl]
    exact List.Subset.refl _
  | @disconnect relation r _ =>
    exact .of_subset (List.Subset.trans (ids_modifyColumn (fun _ => by rfl) r.target)
      (ids_withoutRelation s relation)) (Nat.le_refl _)
  | reconcile =>
    refine .of_subset ?_ (Nat.le_refl _)
    rw [reconcile_eq_mapColumns, ids_mapColumns (keepsIds_note _)]
    exact List.Subset.refl _

end

/-! ## Histories -/

/-- The ids that an edit gives.  An edit that fails gives none. -/
def givenIds (s : Schema) (edit : Edit) : List AnyId :=
  match s.perform edit with
  | .ok (u, outcome) => outcome.givenIds u
  | .error _ => []

/-- The ids that the edits give one after the other. -/
def allGivenIds (s : Schema) : List Edit → List AnyId
  | [] => []
  | edit :: rest => s.givenIds edit ++ (s.after edit).allGivenIds rest

/-- The schemas in a history, from the first to that after the last edit. -/
def states (s : Schema) : List Edit → List Schema
  | [] => [s]
  | edit :: rest => s :: (s.after edit).states rest

/-- The ids of all that there ever was in a history. -/
def everIds (s : Schema) (edits : List Edit) : List AnyId := (s.states edits).flatMap ids

theorem draws_after (s : Schema) (edit : Edit) : Draws s (s.after edit) (s.givenIds edit) := by
  cases hu : s.perform edit with
  | ok u =>
    have hafter : s.after edit = u.1 := by rw [after, hu]
    have hgiven : s.givenIds edit = u.2.givenIds u.1 := by rw [givenIds, hu]
    rw [hafter, hgiven]
    exact draws_of_perform hu
  | error missing =>
    have hafter : s.after edit = s := by rw [after, hu]
    have hgiven : s.givenIds edit = [] := by rw [givenIds, hu]
    rw [hafter, hgiven]
    exact .of_subset (List.Subset.refl _) (Nat.le_refl _)

theorem draws_afterAll (s : Schema) (edits : List Edit) :
    Draws s (s.afterAll edits) (s.allGivenIds edits) := by
  induction edits generalizing s with
  | nil => exact .of_subset (List.Subset.refl _) (Nat.le_refl _)
  | cons edit rest ih => exact (s.draws_after edit).trans (ih _)

/-- All that there ever was had its id from the start, or an edit gave it. -/
theorem everIds_subset (s : Schema) (edits : List Edit) :
    s.everIds edits ⊆ s.ids ++ s.allGivenIds edits := by
  induction edits generalizing s with
  | nil => simp [everIds, states, allGivenIds]
  | cons edit rest ih =>
    intro id hid
    rw [everIds, states, List.flatMap_cons] at hid
    rw [allGivenIds, ← List.append_assoc]
    rcases List.mem_append.mp hid with hid | hid
    · exact List.mem_append_left _ (List.mem_append_left _ hid)
    · rcases List.mem_append.mp (ih (s.after edit) hid) with hid | hid
      · exact List.mem_append_left _ ((s.draws_after edit).ids hid)
      · exact List.mem_append_right _ hid

/-- In a history that begins with the numbers from one to the counter, all numbers are different. -/
theorem exists_numbers {s : Schema}
    (h : ∃ ns, List.Forall₂ HasNumber s.ids ns ∧ ns.Nodup ∧ ∀ n ∈ ns, 1 ≤ n ∧ n ≤ s.counter)
    (edits : List Edit) :
    ∃ ns, List.Forall₂ HasNumber (s.ids ++ s.allGivenIds edits) ns ∧ ns.Nodup ∧
      ∀ n ∈ ns, 1 ≤ n ∧ n ≤ (s.afterAll edits).counter := by
  obtain ⟨ns, hns, hnodup, hbound⟩ := h
  have hdraws := s.draws_afterAll edits
  obtain ⟨ms, hms, hup, hbound'⟩ := hdraws.numbers
  refine ⟨ns ++ ms, List.rel_append hns hms, List.nodup_append.mpr ⟨hnodup, ?_, ?_⟩, ?_⟩
  · exact hup.imp fun hlt => Nat.ne_of_lt hlt
  · intro n hn m hm
    have hn := hbound n hn
    have hm := hbound' m hm
    omega
  · intro n hn
    have := hdraws.counter
    rcases List.mem_append.mp hn with hn | hn
    · have hn := hbound n hn
      omega
    · have hn := hbound' n hn
      omega

/-- An id that is given has a number above the counter. -/
theorem exists_number_of_given {s : Schema} {edit : Edit} {id : AnyId}
    (h : id ∈ s.givenIds edit) : ∃ n, id.HasNumber n ∧ s.counter < n := by
  obtain ⟨ns, hns, -, hbound⟩ := (s.draws_after edit).numbers
  obtain ⟨n, hn, hnumber⟩ := exists_right_of_forall₂ hns id h
  exact ⟨n, hnumber, (hbound n hn).1⟩

end Schema
end Schemata
