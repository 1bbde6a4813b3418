/-
Noting afresh which columns are foreign keys.  The procedure goes through the columns by their
places and writes notes while it reads relations.  Behind it every column notes the truth, and in
front of it nothing has changed; so it makes every note true in the end and counts those that were
wrong, on any schema whatsoever.
-/
import Mathlib.Data.List.Forall2
import Schemata.Proofs.Schema.Consistency
import Schemata.Schema.InPlace

namespace Schemata
namespace Schema

/-- Whether the column of the table notes something else than the relations say. -/
def misnotes (s : Schema) (table : TableId) (c : Column) : Bool :=
  c.isForeignKey != s.isForeignKey ⟨table, c.id⟩

/-- The column of the table as it should be. -/
def noted (s : Schema) (table : TableId) (c : Column) : Column :=
  note (s.isForeignKey ⟨table, c.id⟩) c

/-- The columns of all tables. -/
def columns (s : Schema) : List Column := s.tables.flatMap (·.columns)

/-- Nothing is different but notes. -/
structure SameButNotes (s u : Schema) : Prop where
  tables : List.Forall₂ (fun t t' => t'.id = t.id ∧ t'.name = t.name ∧
    List.Forall₂ (fun c c' => note c.isForeignKey c' = c) t.columns t'.columns) s.tables u.tables
  relations : u.relations = s.relations
  counter : u.counter = s.counter

theorem noted_of_not_misnotes {s : Schema} {table : TableId} {c : Column}
    (h : s.misnotes table c = false) : s.noted table c = c := by
  have hsame : c.isForeignKey = s.isForeignKey ⟨table, c.id⟩ := by
    simpa only [misnotes, bne_eq_false_iff_eq] using h
  rw [noted, note, ← hsame]

/-! ## Columns and tables in turn -/

end Schema

namespace InPlace

open Schema (misnotes noted)

theorem run_reconcileColumn (s : Schema) (done rest : List Table) (t : Table)
    (before after : List Column) (c : Column) (n : Nat) :
    (reconcileColumn done.length n before.length).run
        { s with tables := done ++ { t with columns := before ++ c :: after } :: rest } =
      .ok (n + if s.misnotes t.id c then 1 else 0)
        { s with
          tables := done ++ { t with columns := before ++ s.noted t.id c :: after } :: rest } := by
  have htable : (done ++ { t with columns := before ++ c :: after } :: rest)[done.length]? =
      some { t with columns := before ++ c :: after } := by simp
  have hcolumn : (before ++ c :: after)[before.length]? = some c := by simp
  -- The notes that were written so far are nothing that the relations say.
  have hkey : ∀ ts : List Table, Schema.isForeignKey { s with tables := ts } = s.isForeignKey :=
    fun _ => rfl
  simp only [reconcileColumn, EStateM.run_bind, EStateM.run_get, htable, hcolumn, hkey]
  by_cases hsame : c.isForeignKey = s.isForeignKey ⟨t.id, c.id⟩
  · have hright : s.misnotes t.id c = false := by rw [misnotes, hsame, bne_self_eq_false]
    rw [if_pos hsame, Schema.noted_of_not_misnotes hright, hright]
    rfl
  · have hwrong : s.misnotes t.id c = true := bne_iff_ne.mpr hsame
    rw [if_neg hsame, hwrong]
    simp only [EStateM.run_bind, EStateM.run_set, EStateM.run_pure, List.set_append_right,
      Nat.le_refl, Nat.sub_self, List.set_cons_zero]
    rfl

/-- The columns before the next one are as they should be, and the others are as they were. -/
theorem run_columns (s : Schema) (done rest : List Table) (t : Table) (before after : List Column)
    (n : Nat) :
    ((List.range' before.length after.length).foldlM (reconcileColumn done.length) n).run
        { s with tables := done ++ { t with columns := before ++ after } :: rest } =
      .ok (n + after.countP (s.misnotes t.id))
        { s with
          tables := done ++ { t with columns := before ++ after.map (s.noted t.id) } :: rest } := by
  induction after generalizing before n with
  | nil => rfl
  | cons c after ih =>
    have hnext := ih (before ++ [s.noted t.id c]) (n + if s.misnotes t.id c then 1 else 0)
    simp only [List.length_append, List.length_singleton, List.append_assoc,
      List.singleton_append] at hnext
    rw [List.length_cons, List.range'_succ, List.foldlM_cons, EStateM.run_bind,
      run_reconcileColumn, List.countP_cons, List.map_cons, Nat.add_comm (after.countP _),
      ← Nat.add_assoc]
    exact hnext

theorem run_reconcileTable (s : Schema) (done rest : List Table) (t : Table) (n : Nat) :
    (reconcileTable n done.length).run { s with tables := done ++ t :: rest } =
      .ok (n + t.columns.countP (s.misnotes t.id))
        { s with tables := done ++ s.reconciledTable t :: rest } := by
  have htable : (done ++ t :: rest)[done.length]? = some t := by simp
  simp only [reconcileTable, EStateM.run_bind, EStateM.run_get, htable, List.range_eq_range']
  exact run_columns s done rest t [] t.columns n

/-- The tables before the next one are as they should be, and the others are as they were. -/
theorem run_tables (s : Schema) (done rest : List Table) (n : Nat) :
    ((List.range' done.length rest.length).foldlM reconcileTable n).run
        { s with tables := done ++ rest } =
      .ok (n + (rest.flatMap fun t => t.columns.filter (s.misnotes t.id)).length)
        { s with tables := done ++ rest.map s.reconciledTable } := by
  induction rest generalizing done n with
  | nil => rfl
  | cons t rest ih =>
    have hnext := ih (done ++ [s.reconciledTable t]) (n + t.columns.countP (s.misnotes t.id))
    simp only [List.length_append, List.length_singleton, List.append_assoc,
      List.singleton_append] at hnext
    rw [List.length_cons, List.range'_succ, List.foldlM_cons, EStateM.run_bind,
      run_reconcileTable, List.flatMap_cons, List.length_append, ← List.countP_eq_length_filter,
      ← Nat.add_assoc, List.map_cons]
    exact hnext

/-- In place, column by column, is the same as all at once. -/
theorem run_reconcile (s : Schema) : reconcile.run s = .ok s.reconcile.2 s.reconcile.1 := by
  have htables := run_tables s [] s.tables 0
  rw [Nat.zero_add, List.length_nil] at htables
  simp only [reconcile, EStateM.run_bind, EStateM.run_get, List.range_eq_range']
  exact htables

end InPlace

namespace Schema

/-! ## All at once -/

theorem sameButNotes_reconcile (s : Schema) : s.SameButNotes s.reconcile.1 := by
  refine ⟨?_, rfl, rfl⟩
  show List.Forall₂ _ s.tables (s.tables.map s.reconciledTable)
  rw [List.forall₂_map_right_iff, List.forall₂_same]
  intro t _
  refine ⟨rfl, rfl, ?_⟩
  show List.Forall₂ _ t.columns (t.columns.map (s.noted t.id))
  rw [List.forall₂_map_right_iff, List.forall₂_same]
  exact fun _ _ => rfl

/-- Where all notes are true, nothing is left to do. -/
theorem Truthful.reconcile_eq {s : Schema} (h : s.Truthful) : s.reconcile = (s, 0) := by
  have hnone : s.misflagged = [] := by
    refine List.flatMap_eq_nil_iff.mpr fun t ht => List.filter_eq_nil_iff.mpr fun c hc => ?_
    rw [h t ht c hc, bne_self_eq_false]
    exact Bool.false_ne_true
  rw [Prod.ext_iff]
  exact ⟨h.reconcile_eq_self, congrArg List.length hnone⟩

/-- The notes that were wrong are those that are different now. -/
theorem length_misflagged (s : Schema) :
    s.misflagged.length =
      (s.columns.zip s.reconcile.1.columns).countP fun (c, d) =>
        c.isForeignKey != d.isForeignKey := by
  have hcolumns : ∀ (table : TableId) (cs : List Column),
      (cs.zip (cs.map (s.noted table))).countP (fun (c, d) => c.isForeignKey != d.isForeignKey) =
        (cs.filter (s.misnotes table)).length := by
    intro table cs
    rw [← List.countP_eq_length_filter]
    induction cs with
    | nil => rfl
    | cons c cs ih =>
      rw [List.map_cons, List.zip_cons_cons, List.countP_cons, List.countP_cons, ih]
      rfl
  show (s.tables.flatMap fun t => t.columns.filter (s.misnotes t.id)).length =
    ((s.tables.flatMap (·.columns)).zip
      ((s.tables.map s.reconciledTable).flatMap (·.columns))).countP _
  induction s.tables with
  | nil => rfl
  | cons t rest ih =>
    have hlength : t.columns.length = (t.columns.map (s.noted t.id)).length := by
      rw [List.length_map]
    rw [List.flatMap_cons, List.length_append, ih, List.map_cons, List.flatMap_cons,
      List.flatMap_cons]
    show _ = ((t.columns ++ _).zip (t.columns.map (s.noted t.id) ++ _)).countP _
    rw [List.zip_append hlength, List.countP_append, hcolumns]

end Schema

/-- Reconciling makes all notes true and changes nothing else, it counts the notes that it changes,
and a second time it finds nothing to do.  If nothing but notes was wrong, nothing is. -/
theorem InPlace.reconcile_repairs (s : Schema) :
    ∃ n u, InPlace.reconcile.run s = .ok n u ∧
      s.SameButNotes u ∧
      (∀ t ∈ u.tables, ∀ c ∈ t.columns,
        (c.isForeignKey = true ↔ ∃ r ∈ u.relations, r.target = ⟨t.id, c.id⟩)) ∧
      (n = (s.columns.zip u.columns).countP fun (c, d) => c.isForeignKey != d.isForeignKey) ∧
      InPlace.reconcile.run u = .ok 0 u ∧
      (s.Linked → u.violation? = none) := by
  have htrue := s.truthful_reconcile
  refine ⟨_, _, run_reconcile s, s.sameButNotes_reconcile, fun t ht c hc => ?_,
    s.length_misflagged, ?_, fun hlinked => ?_⟩
  · rw [htrue t ht c hc, Schema.isForeignKey_iff]
  · rw [run_reconcile, htrue.reconcile_eq]
  · exact Schema.violation?_eq_none.mpr hlinked.reconcile

/-- The key of `a` notes wrongly that it refers to something, and of the two columns of `b` that do,
one notes that it does not. -/
def misnoted : Schema :=
  ⟨[⟨⟨"t1"⟩, "a", [⟨⟨"c1"⟩, "id", .integer, true, true, false, false⟩]⟩,
    ⟨⟨"t2"⟩, "b", [⟨⟨"c1"⟩, "x", .integer, false, false, false, true⟩,
      ⟨⟨"c2"⟩, "y", .integer, false, true, false, true⟩]⟩],
   [⟨⟨"r1"⟩, ⟨⟨"t1"⟩, ⟨"c1"⟩⟩, ⟨⟨"t2"⟩, ⟨"c1"⟩⟩, .oneToMany⟩,
    ⟨⟨"r2"⟩, ⟨⟨"t1"⟩, ⟨"c1"⟩⟩, ⟨⟨"t2"⟩, ⟨"c2"⟩⟩, .oneToOne⟩], 0⟩

theorem reconcile_repairs_misnoted :
    misnoted.Linked ∧ ∃ n u, InPlace.reconcile.run misnoted = .ok n u ∧ n = 2 ∧
      misnoted.SameButNotes u ∧ InPlace.reconcile.run u = .ok 0 u ∧ u.violation? = none := by
  have hlinked : misnoted.Linked := by
    refine ⟨⟨by decide, by decide⟩, by decide, ?_⟩
    simp [misnoted, Schema.HasEndpoint]
  obtain ⟨n, u, hrun, hsame, -, hcount, hagain, hconsistent⟩ :=
    InPlace.reconcile_repairs misnoted
  have hu : u = misnoted.reconcile.1 := by
    rw [InPlace.run_reconcile] at hrun
    cases hrun
    rfl
  have hn : n = 2 := by
    rw [hcount, hu]
    decide
  exact ⟨hlinked, n, u, hrun, hn, hsame, hagain, hconsistent hlinked⟩

end Schemata
