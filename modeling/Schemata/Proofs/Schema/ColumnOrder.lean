/-
Moving a column within its table.  Taking the column out shifts the places behind it, and the place
where it is put back is counted after that.  So it stands at the place that was asked for, and there
is only one table in which it does and the others keep their order; hence the move in the other
direction takes it back.
-/
import Mathlib.Data.List.InsertIdx
import Schemata.Proofs.Schema.Atomicity
import Schemata.Proofs.Schema.Edit

namespace Schemata

namespace Table

/-- The column at `source` of the first table stands at `destination` of the second one.  The other
columns are in the same order in both, and nothing else is different. -/
structure Moves (t : Table) (source destination : Nat) (u : Table) : Prop where
  same : u = { t with columns := u.columns }
  placed : u.columns[destination]? = t.columns[source]?
  others : u.columns.eraseIdx destination = t.columns.eraseIdx source

/-- The table with the column `c`, which is at `source`, put at `destination`. -/
def withMoved (t : Table) (source destination : Nat) (c : Column) : Table :=
  { t with columns := (t.columns.eraseIdx source).insertIdx destination c }

section

variable {t u : Table} {source destination : Nat} {c : Column}

theorem moves_withMoved (hc : t.columns[source]? = some c)
    (hdestination : destination < t.columns.length) :
    t.Moves source destination (t.withMoved source destination c) where
  same := rfl
  placed := by
    obtain ⟨hsource, -⟩ := List.getElem?_eq_some_iff.mp hc
    have hlength : (t.columns.eraseIdx source).length = t.columns.length - 1 :=
      List.length_eraseIdx_of_lt hsource
    rw [hc, withMoved, List.getElem?_insertIdx_self, if_pos (by omega)]
  others := List.eraseIdx_insertIdx_self _

namespace Moves

variable (h : t.Moves source destination u)

include h

theorem symm : u.Moves destination source t where
  same := by rw [h.same]
  placed := h.placed.symm
  others := h.others.symm

theorem id_eq : u.id = t.id := by rw [h.same]

/-- There is only one table in which the column has moved. -/
theorem eq_withMoved (hc : t.columns[source]? = some c) :
    u = t.withMoved source destination c := by
  obtain ⟨hlt, rfl⟩ := List.getElem?_eq_some_iff.mp (h.placed.trans hc)
  rw [withMoved, ← h.others, List.insertIdx_eraseIdx_getElem hlt]
  exact h.same

theorem perm (hsource : source < t.columns.length) (hdestination : destination < t.columns.length) :
    u.columns.Perm t.columns := by
  have hc := List.getElem?_eq_getElem hsource
  rw [h.eq_withMoved hc]
  exact Schema.perm_insertIdx_eraseIdx hc hdestination

end Moves

/-- A column is found by its id wherever it stands, if no other one has that id. -/
theorem column?_eq_of_perm (h : u.columns.Perm t.columns) (hids : (t.columns.map (·.id)).Nodup)
    (id : ColumnId) : u.column? id = t.column? id := by
  have hids' : (u.columns.map (·.id)).Nodup := (h.map _).nodup_iff.mpr hids
  refine Option.ext fun c => ?_
  rw [column?, column?, find?_eq_some_iff_mem hids', find?_eq_some_iff_mem hids, h.mem_iff]

end
end Table

namespace Schema

section

variable {s : Schema} {before after : List Table} {t u : Table}

/-- The table `t` is found by its id, since none of those before it has the same id. -/
theorem table?_of_tables_eq (hs : s.tables = before ++ t :: after)
    (hbefore : ∀ b ∈ before, b.id ≠ t.id) : s.table? t.id = some t := by
  rw [table?, hs]
  exact List.find?_eq_some_iff_append.mpr
    ⟨beq_self_eq_true _, before, after, rfl, by simpa using hbefore⟩

theorem modifyTable_of_tables_eq (hs : s.tables = before ++ t :: after)
    (hbefore : ∀ b ∈ before, b.id ≠ t.id) {f : Table → Table} (hf : f t = u) :
    s.modifyTable t.id f = { s with tables := before ++ u :: after } := by
  have hother : ∀ b ∈ before, (b.id == t.id) = false := by simpa using hbefore
  rw [modifyTable, hs, modifyFirst_append_cons _ hother (beq_self_eq_true _), hf]

theorem perform_reorderColumn (hs : s.tables = before ++ t :: after)
    (hbefore : ∀ b ∈ before, b.id ≠ t.id) {source destination : Nat}
    (hmoves : t.Moves source destination u) (hsource : source < t.columns.length)
    (hdestination : destination < t.columns.length) :
    s.perform (.reorderColumn t.id source destination) =
      .ok ({ s with tables := before ++ u :: after }, .done) := by
  have hc := List.getElem?_eq_getElem hsource
  simp only [perform, Schema.reorderColumn, requireTable, table?_of_tables_eq hs hbefore,
    ge_iff_le, Nat.not_le.mpr hsource, Nat.not_le.mpr hdestination, bind, Except.bind, if_false]
  refine congrArg (fun u => Except.ok (u, Outcome.done)) (modifyTable_of_tables_eq hs hbefore ?_)
  rw [hc, hmoves.eq_withMoved hc]
  rfl

/-- If another table stands in the place of `t`, columns are found as before if they are found as
before in that table. -/
theorem column?_of_tables_eq (hs : s.tables = before ++ t :: after) (hid : u.id = t.id)
    (hcolumn : ∀ id, u.column? id = t.column? id) (e : Endpoint) :
    column? { s with tables := before ++ u :: after } e = s.column? e := by
  simp only [column?, table?, hs, List.find?_append, List.find?_cons, hid]
  cases before.find? (·.id == e.table) with
  | some b => rfl
  | none =>
    cases t.id == e.table with
    | true => exact hcolumn e.column
    | false => rfl

end

/-- A column that is moved within the first table with the id stands at the place asked for, with
all others in their order.  Everything else in the schema is as it was, and moving the column back
restores all of it. -/
theorem inPlace_reorderColumn {s : Schema} {id : TableId} {t : Table} {source destination : Nat}
    (ht : s.table? id = some t) (hsource : source < t.columns.length)
    (hdestination : destination < t.columns.length) :
    ∃ before after u, s.tables = before ++ t :: after ∧ (∀ b ∈ before, b.id ≠ id) ∧
      t.Moves source destination u ∧ u.columns.Perm t.columns ∧
      (Edit.reorderColumn id source destination).inPlace.run s =
        .ok .done { s with tables := before ++ u :: after } ∧
      ((t.columns.map (·.id)).Nodup →
        ∀ e, column? { s with tables := before ++ u :: after } e = s.column? e) ∧
      (Edit.reorderColumn id destination source).inPlace.run
        { s with tables := before ++ u :: after } = .ok .done s := by
  obtain ⟨hid, before, after, hs, hbefore⟩ := List.find?_eq_some_iff_append.mp ht
  obtain rfl : t.id = id := by simpa using hid
  have hbefore' : ∀ b ∈ before, b.id ≠ t.id := by simpa using hbefore
  obtain ⟨u, hmoves⟩ : ∃ u, t.Moves source destination u :=
    ⟨_, Table.moves_withMoved (List.getElem?_eq_getElem hsource) hdestination⟩
  have hperm := hmoves.perm hsource hdestination
  refine ⟨before, after, u, hs, hbefore', hmoves, hperm, ?_, fun hids e => ?_, ?_⟩
  · exact Edit.run_inPlace_eq_ok.mpr
      (perform_reorderColumn hs hbefore' hmoves hsource hdestination)
  · exact column?_of_tables_eq hs hmoves.id_eq (Table.column?_eq_of_perm hperm hids) e
  · rw [← hperm.length_eq] at hsource hdestination
    rw [← hmoves.id_eq] at hbefore' ⊢
    rw [Edit.run_inPlace_eq_ok,
      perform_reorderColumn rfl hbefore' hmoves.symm hdestination hsource, ← hs]

/-- Two tables have the same id; only the first one is changed. -/
def twins : Schema where
  tables := [
    ⟨⟨"t2"⟩, "other", [⟨⟨"c1"⟩, "a", .integer, false, false, false, false⟩]⟩,
    ⟨⟨"t1"⟩, "first", [
      ⟨⟨"c1"⟩, "a", .integer, true, false, true, false⟩,
      ⟨⟨"c2"⟩, "b", .text, false, true, false, true⟩,
      ⟨⟨"c3"⟩, "c", .boolean, false, false, false, true⟩]⟩,
    ⟨⟨"t1"⟩, "second", [⟨⟨"c1"⟩, "a", .integer, false, false, false, false⟩]⟩]
  relations := []
  counter := 3

/-- The first column of the first of them is behind the others. -/
def turned : Schema :=
  { twins with tables := twins.tables.modify 1 fun t => { t with columns := t.columns.rotate 1 } }

theorem inPlace_reorderColumn_twins :
    (Edit.reorderColumn ⟨"t1"⟩ 0 2).inPlace.run twins = .ok .done turned ∧
      (Edit.reorderColumn ⟨"t1"⟩ 2 0).inPlace.run turned = .ok .done twins := by
  have hturned : (Edit.reorderColumn ⟨"t1"⟩ 0 2).inPlace.run twins = .ok .done turned :=
    Edit.run_inPlace_eq_ok.mpr (by decide)
  obtain ⟨before, after, u, -, -, -, -, hrun, -, hback⟩ :=
    @inPlace_reorderColumn twins ⟨"t1"⟩ _ 0 2 rfl (by decide) (by decide)
  injection hrun.symm.trans hturned with _ hsame
  rw [hsame] at hback
  exact ⟨hturned, hback⟩

end Schema
end Schemata
