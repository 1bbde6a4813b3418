/-
How far a removal reaches.  The relations that go are those that are named or that lead to or from
what is named, and all others stay as they are; so do all tables and columns that are not named,
except that a column stops being a foreign key when the last relation that led to it goes.
-/
import Mathlib.Data.List.Forall2
import Schemata.Proofs.Schema.Confluence

namespace Schemata
namespace Schema

open Removal (severs)

/-- What may become of a column that is not removed itself. -/
inductive Outlasts (s : Schema) (removal : Removal) (e : Endpoint) (c : Column) : Column → Prop
  /-- If it is a foreign key, then some relation that leads to it stays. -/
  | unchanged (hkept : c.isForeignKey = true →
      ∃ r ∈ s.relations, r.target = e ∧ severs [removal] r = false) : Outlasts s removal e c c
  /-- It was a foreign key, and every relation that led to it goes. -/
  | unlinked (hkey : c.isForeignKey = true)
      (hgone : ∀ r ∈ s.relations, r.target = e → severs [removal] r = true) :
      Outlasts s removal e c { c with isForeignKey := false }

/-- A schema in which only what is named is removed, and with it only what refers to that. -/
structure SparedBy (s : Schema) (removal : Removal) (u : Schema) : Prop where
  relations : u.relations = s.relations.filter (!severs [removal] ·)
  tables : List.Forall₂ (fun t t' => t'.id = t.id ∧ t'.name = t.name ∧
    List.Forall₂ (fun c c' => Outlasts s removal ⟨t.id, c.id⟩ c c') t.columns t'.columns)
    (s.without [removal]).tables u.tables
  counter : u.counter = s.counter

section

variable {s : Schema} {removal : Removal}

/-- A column that is left has an endpoint in the earlier schema and notes what was so there. -/
theorem Truthful.of_without (h : s.Truthful) {t : Table} (ht : t ∈ (s.without [removal]).tables)
    {c : Column} (hc : c ∈ t.columns) : c.isForeignKey = s.isForeignKey ⟨t.id, c.id⟩ := by
  obtain ⟨t', ht', rfl⟩ := List.mem_map.mp ht
  exact h t' (List.mem_filter.mp ht').1 c (List.mem_filter.mp hc).1

/-- To a column that noted the truth, a note of what is left does nothing, or ends a foreign key. -/
theorem outlasts_note {e : Endpoint} {c : Column} (hc : c.isForeignKey = s.isForeignKey e) :
    Outlasts s removal e c (note ((s.without [removal]).isForeignKey e) c) := by
  by_cases hkept : (s.without [removal]).isForeignKey e = true
  · obtain ⟨r, hr, htarget⟩ := isForeignKey_iff.mp hkept
    obtain ⟨hr, hsevers⟩ := List.mem_filter.mp hr
    have hkey : c.isForeignKey = true := by rw [hc, isForeignKey_iff]; exact ⟨r, hr, htarget⟩
    rw [hkept, ← hkey]
    exact .unchanged fun _ => ⟨r, hr, htarget, by simpa using hsevers⟩
  · have hgone : ∀ r ∈ s.relations, r.target = e → severs [removal] r = true := by
      intro r hr htarget
      by_contra hsevers
      refine hkept (isForeignKey_iff.mpr ⟨r, List.mem_filter.mpr ⟨hr, ?_⟩, htarget⟩)
      simpa using hsevers
    rw [Bool.not_eq_true] at hkept
    rw [hkept]
    cases hkey : c.isForeignKey with
    | true => exact .unlinked hkey hgone
    | false =>
      rw [← hkey]
      exact .unchanged fun htrue => absurd (htrue.symm.trans hkey) (by decide)

/-- What is left, with notes that are made afresh. -/
theorem Truthful.sparedBy_reconcile (h : s.Truthful) (removal : Removal) :
    s.SparedBy removal (s.without [removal]).reconcile.1 where
  relations := rfl
  tables := by
    rw [reconcile_eq_mapColumns, mapColumns, List.forall₂_map_right_iff, List.forall₂_same]
    intro t ht
    refine ⟨rfl, rfl, ?_⟩
    rw [List.forall₂_map_right_iff, List.forall₂_same]
    exact fun c hc => outlasts_note (h.of_without ht hc)
  counter := rfl

end

/-- A removal that succeeds removes what is named and no more than refers to it. -/
theorem inPlace_cascade {s u : Schema} (h : s.violation? = none) {removal : Removal}
    {outcome : Outcome} (hu : removal.edit.inPlace.run s = .ok outcome u) :
    s.SparedBy removal u := by
  have hconsistent := violation?_eq_none.mp h
  rw [hconsistent.perform_removal (Edit.run_inPlace_eq_ok.mp hu)]
  exact hconsistent.truthful.sparedBy_reconcile removal

/-- Of the relations from the first table, one was the only one that led to its target. -/
def chainedRest : Schema :=
  ⟨[⟨⟨"t2"⟩, "b", [⟨⟨"c1"⟩, "x", .uuid, false, false, false, true⟩,
      ⟨⟨"c2"⟩, "y", .text, false, false, true, true⟩]⟩,
    ⟨⟨"t3"⟩, "c", [⟨⟨"c1"⟩, "x", .uuid, false, true, false, true⟩,
      ⟨⟨"c2"⟩, "y", .uuid, false, true, false, true⟩]⟩],
   [⟨⟨"r2"⟩, ⟨⟨"t2"⟩, ⟨"c1"⟩⟩, ⟨⟨"t3"⟩, ⟨"c1"⟩⟩, .manyToMany⟩,
    ⟨⟨"r4"⟩, ⟨⟨"t3"⟩, ⟨"c1"⟩⟩, ⟨⟨"t3"⟩, ⟨"c2"⟩⟩, .oneToMany⟩], 9⟩

theorem inPlace_cascade_chained :
    chained.violation? = none ∧
      (Removal.table ⟨"t1"⟩).edit.inPlace.run chained =
        .ok (.removedTable ⟨⟨"t1"⟩, "a", [⟨⟨"c1"⟩, "x", .uuid, true, false, false, false⟩]⟩)
          chainedRest ∧
      chained.SparedBy (.table ⟨"t1"⟩) chainedRest := by
  have hconsistent : chained.violation? = none := by decide
  have hrun : (Removal.table ⟨"t1"⟩).edit.inPlace.run chained =
      .ok (.removedTable ⟨⟨"t1"⟩, "a", [⟨⟨"c1"⟩, "x", .uuid, true, false, false, false⟩]⟩)
        chainedRest := by rfl
  exact ⟨hconsistent, hrun, inPlace_cascade hconsistent hrun⟩

end Schema
end Schemata
