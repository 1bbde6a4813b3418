/-
Edits keep a schema consistent, whether they succeed or fail, and so does every history of edits.
-/
import Schemata.Proofs.Schema.Insertion
import Schemata.Proofs.Schema.Removal
import Schemata.Schema.Edit
import Schemata.Sql.Clause

namespace Schemata
namespace Schema

open Sql (ok_of_bind)

/-- Moving a column leaves the same columns. -/
theorem perm_insertIdx_eraseIdx {cs : List α} {c : α} {source destination : Nat}
    (hsource : cs[source]? = some c) (hdestination : destination < cs.length) :
    ((cs.eraseIdx source).insertIdx destination c).Perm cs := by
  obtain ⟨hlt, rfl⟩ := List.getElem?_eq_some_iff.mp hsource
  have hlen : (cs.eraseIdx source).length = cs.length - 1 := List.length_eraseIdx_of_lt hlt
  exact (List.perm_insertIdx _ _ (by omega)).trans (List.getElem_cons_eraseIdx_perm hlt)

theorem reorderColumn_eq_ok {s u : Schema} {table : TableId} {source destination : Nat}
    (h : s.reorderColumn table source destination = .ok u) :
    (∃ t, s.requireTable table = .ok t ∧ destination < t.columns.length) ∧
      u = s.modifyTable table fun t =>
        match t.columns[source]? with
        | some c => { t with columns := (t.columns.eraseIdx source).insertIdx destination c }
        | none => t := by
  obtain ⟨t, ht, h⟩ := ok_of_bind h
  by_cases hsource : source ≥ t.columns.length
  · simp [hsource, throw, throwThe, MonadExceptOf.throw, bind, Except.bind] at h
  by_cases hdestination : destination ≥ t.columns.length
  · simp [hsource, hdestination, throw, throwThe, MonadExceptOf.throw, bind, Except.bind] at h
  simp only [hsource, hdestination, bind, Except.bind, pure, Except.pure, if_false,
    Except.ok.injEq] at h
  exact ⟨⟨t, ht, by omega⟩, h.symm⟩

theorem Consistent.reorderColumn {s u : Schema} {table : TableId} {source destination : Nat}
    (h : s.Consistent) (hu : s.reorderColumn table source destination = .ok u) :
    u.Consistent := by
  obtain ⟨⟨t, ht, hdestination⟩, rfl⟩ := reorderColumn_eq_ok hu
  obtain ⟨hmem, hid⟩ := requireTable_eq_ok ht
  refine h.modifyTable (fun u => by split <;> rfl) fun u hu' huid => ?_
  have hsame : u = t :=
    List.inj_on_of_nodup_map h.tables_nodup hu' hmem (huid.trans hid.symm)
  split
  · next c hc => exact perm_insertIdx_eraseIdx hc (by rwa [hsame])
  · exact List.Perm.refl _

/-! ## What an edit does -/

/-- What an edit that succeeds finds, what it makes of the schema and what it reports. -/
inductive Performs (s : Schema) : Edit → Schema → Outcome → Prop
  | addTable (name : String) (first : Option ColumnSpec) :
      Performs s (.addTable name first) (s.addTable name first).1
        (.newTable (s.addTable name first).2)
  | renameTable {table : TableId} {t : Table} (name : String)
      (ht : s.requireTable table = .ok t) :
      Performs s (.renameTable table name)
        (s.modifyTable table fun t => { t with name := name }) .done
  | removeTable {table : TableId} {t : Table} (ht : s.requireTable table = .ok t) :
      Performs s (.removeTable table)
        (((s.relations.filter (·.touchesTable table)).map (·.target)).foldl refresh
          (s.withoutTable table)) (.removedTable t)
  | addColumn {table : TableId} {t : Table} (spec : ColumnSpec)
      (ht : s.requireTable table = .ok t) :
      Performs s (.addColumn table spec) (s.insertColumn table spec).1
        (.newColumn (s.insertColumn table spec).2)
  | updateColumn {e : Endpoint} {c : Column} (patch : ColumnPatch)
      (hc : s.requireColumn e = .ok c) :
      Performs s (.updateColumn e patch)
        (s.modifyColumn e (patch.apply (s.isForeignKey e))) .done
  | removeColumn {e : Endpoint} {c : Column} (hc : s.requireColumn e = .ok c) :
      Performs s (.removeColumn e)
        (((s.relations.filter (·.touches e)).flatMap fun r => [r.source, r.target]).foldl refresh
          (s.withoutColumn e)) (.removedColumn c)
  | reorderColumn {table : TableId} {source destination : Nat} {u : Schema}
      (hmoved : s.reorderColumn table source destination = .ok u) :
      Performs s (.reorderColumn table source destination) u .done
  | connect {source target : Endpoint} {c d : Column} (hsource : s.requireColumn source = .ok c)
      (htarget : s.requireColumn target = .ok d) :
      Performs s (.connect source target) (s.insertRelation source target .oneToMany).1
        (.newRelation (s.insertRelation source target .oneToMany).2)
  | setCardinality {relation : RelationId} {r : Relation} (cardinality : Cardinality)
      (hr : s.requireRelation relation = .ok r) :
      Performs s (.setCardinality relation cardinality)
        { s with
          relations := modifyFirst (·.id == relation)
            (fun r => { r with cardinality := cardinality }) s.relations } .done
  | disconnect {relation : RelationId} {r : Relation} (hr : s.requireRelation relation = .ok r) :
      Performs s (.disconnect relation) ((s.withoutRelation relation).refresh r.target)
        (.removedRelation r)
  | reconcile : Performs s .reconcile s.reconcile.1 (.changed s.reconcile.2)

theorem performs_of_perform {s u : Schema} {edit : Edit} {outcome : Outcome}
    (hu : s.perform edit = .ok (u, outcome)) : s.Performs edit u outcome := by
  cases edit with
  | addTable name first =>
    cases hu
    exact .addTable name first
  | renameTable table name =>
    obtain ⟨v, hv, hu⟩ := ok_of_bind hu
    obtain ⟨t, ht, hv⟩ := ok_of_bind hv
    cases hu
    cases hv
    exact .renameTable name ht
  | removeTable table =>
    obtain ⟨⟨v, t'⟩, hv, hu⟩ := ok_of_bind hu
    obtain ⟨t, ht, hv⟩ := ok_of_bind hv
    cases hu
    cases hv
    rw [← List.foldl_map]
    exact .removeTable ht
  | addColumn table spec =>
    obtain ⟨⟨v, id⟩, hv, hu⟩ := ok_of_bind hu
    obtain ⟨t, ht, hv⟩ := ok_of_bind hv
    cases hu
    cases hv
    exact .addColumn spec ht
  | updateColumn e patch =>
    obtain ⟨v, hv, hu⟩ := ok_of_bind hu
    obtain ⟨c, hc, hv⟩ := ok_of_bind hv
    cases hu
    cases hv
    exact .updateColumn patch hc
  | removeColumn e =>
    obtain ⟨⟨v, c'⟩, hv, hu⟩ := ok_of_bind hu
    obtain ⟨c, hc, hv⟩ := ok_of_bind hv
    cases hu
    cases hv
    have hremoved := Performs.removeColumn hc
    rwa [List.foldl_flatMap] at hremoved
  | reorderColumn table source destination =>
    obtain ⟨v, hv, hu⟩ := ok_of_bind hu
    cases hu
    exact .reorderColumn hv
  | connect source target =>
    obtain ⟨⟨v, id⟩, hv, hu⟩ := ok_of_bind hu
    obtain ⟨c, hsource, hv⟩ := ok_of_bind hv
    obtain ⟨d, htarget, hv⟩ := ok_of_bind hv
    cases hu
    cases hv
    exact .connect hsource htarget
  | setCardinality relation cardinality =>
    obtain ⟨v, hv, hu⟩ := ok_of_bind hu
    obtain ⟨r, hr, hv⟩ := ok_of_bind hv
    cases hu
    cases hv
    exact .setCardinality cardinality hr
  | disconnect relation =>
    obtain ⟨⟨v, r'⟩, hv, hu⟩ := ok_of_bind hu
    obtain ⟨r, hr, hv⟩ := ok_of_bind hv
    cases hu
    cases hv
    exact .disconnect hr
  | reconcile =>
    cases hu
    exact .reconcile

/-! ## What an edit keeps -/

/-- An edit that succeeds keeps a schema consistent. -/
theorem Consistent.perform {s u : Schema} {edit : Edit} {outcome : Outcome} (h : s.Consistent)
    (hu : s.perform edit = .ok (u, outcome)) : u.Consistent := by
  cases performs_of_perform hu with
  | addTable name first => exact h.addTable name first
  | renameTable name _ => exact h.modifyTable (fun _ => rfl) fun _ _ _ => List.Perm.refl _
  | @removeTable table _ _ =>
    rw [h.refresh_withoutTable]
    exact (h.linked.withoutTable table).reconcile
  | @addColumn table _ spec _ => exact h.insertColumn table spec
  | updateColumn patch _ => exact h.modifyColumn (fun _ => rfl) fun _ hnote => hnote.symm
  | @removeColumn e _ _ =>
    rw [h.refresh_withoutColumn]
    exact (h.linked.withoutColumn e).reconcile
  | reorderColumn hmoved => exact h.reorderColumn hmoved
  | connect hsource htarget =>
    exact h.insertRelation (hasEndpoint_of_requireColumn hsource)
      (hasEndpoint_of_requireColumn htarget) .oneToMany
  | setCardinality cardinality _ =>
    rw [modifyFirst_eq_map h.relations_nodup]
    exact h.mapRelations (fun r => by split <;> rfl) (fun r => by split <;> rfl)
      fun r => by split <;> rfl
  | @disconnect relation r hr =>
    rw [h.refresh_withoutRelation (requireRelation_eq_ok hr)]
    exact (h.linked.withoutRelation relation).reconcile
  | reconcile => exact h.linked.reconcile

/-- An edit that fails changes nothing. -/
theorem Consistent.after {s : Schema} (h : s.Consistent) (edit : Edit) :
    (s.after edit).Consistent := by
  unfold Schema.after
  split
  · next u outcome hu => exact h.perform hu
  · exact h

theorem Consistent.afterAll {s : Schema} (h : s.Consistent) (edits : List Edit) :
    (s.afterAll edits).Consistent := by
  induction edits generalizing s with
  | nil => exact h
  | cons edit rest ih => exact ih (h.after edit)

end Schema
end Schemata
