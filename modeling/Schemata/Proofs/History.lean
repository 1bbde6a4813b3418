/-
Histories of schemas.  A history begins with the empty schema, the starter schema, an import, a
suggestion, or any schema without a breach of consistency, such as one that was saved before; its
ids can be any texts and its counter can be behind them.  No edit breaks consistency, so none of
the schemas in the history has a breach.  If nothing was saved before, no id is given twice.
-/
import Schemata.Proofs.Schema.Edit
import Schemata.Proofs.Schema.IssuedIds
import Schemata.Proofs.Sql.ImportedNames
import Schemata.Proofs.Suggestion.Building
import Schemata.Schema.Starter

namespace Schemata
namespace Schema

/-- What a history can begin with. -/
inductive Origin : Schema → Prop
  | empty : Origin .empty
  | starter : Origin .starter
  | imported {options : Sql.ImportOptions} {text : String} {s : Schema}
      (h : Sql.schemaOf options text = .ok s) : Origin s
  | suggested {suggestion : Suggestion} {s : Schema}
      (h : suggestion.toSchema = .ok s) : Origin s
  | loaded {s : Schema} (h : s.violation? = none) : Origin s

theorem starter_consistent : starter.Consistent := by
  refine violation?_eq_none.mp ?_
  decide +kernel

theorem Origin.consistent {s : Schema} (h : Origin s) : s.Consistent := by
  cases h with
  | empty => exact consistent_empty
  | starter => exact starter_consistent
  | imported h => exact Sql.schemaOf_consistent h
  | suggested h => exact Suggestion.toSchema_consistent h
  | loaded h => exact violation?_eq_none.mp h

/-- No schema in a history has a breach of consistency, whether its edits succeed or fail. -/
theorem Origin.violation?_afterAll {s : Schema} (h : Origin s) (edits : List Edit) :
    (s.afterAll edits).violation? = none ∧ (s.afterAll edits).Consistent := by
  have hafter : (s.afterAll edits).Consistent := h.consistent.afterAll edits
  exact ⟨violation?_eq_none.mpr hafter, hafter⟩

/-- The ids are those that would be given next. -/
def colliding : Schema :=
  ⟨[⟨⟨"t1"⟩, "a", [⟨⟨"c2"⟩, "x", .uuid, false, true, false, true⟩]⟩,
    ⟨⟨"t2"⟩, "a", [⟨⟨"c2"⟩, "x", .uuid, false, false, false, true⟩]⟩],
   [⟨⟨"r1"⟩, ⟨⟨"t2"⟩, ⟨"c2"⟩⟩, ⟨⟨"t1"⟩, ⟨"c2"⟩⟩, .oneToMany⟩], 0⟩

def collidingEdits : List Edit :=
  [.addDefaultTable, .addColumn ⟨"t1"⟩ {}, .connect ⟨⟨"t1"⟩, ⟨"c2"⟩⟩ ⟨⟨"t1"⟩, ⟨"c2"⟩⟩,
    .updateColumn ⟨⟨"t1"⟩, ⟨"c2"⟩⟩ { isForeignKey := some false }, .removeTable ⟨"missing"⟩,
    .removeTable ⟨"t2"⟩, .removeColumn ⟨⟨"t1"⟩, ⟨"c2"⟩⟩]

theorem violation?_afterAll_colliding :
    colliding.violation? = none ∧
      (colliding.afterAll collidingEdits).violation? = none ∧
        (colliding.afterAll collidingEdits).Consistent := by
  have hloaded : colliding.violation? = none := by decide
  exact ⟨hloaded, (Origin.loaded hloaded).violation?_afterAll collidingEdits⟩

/-! ## Ids -/

/-- What a history can begin with if nothing was saved before. -/
inductive Made : Schema → Prop
  | empty : Made .empty
  | starter : Made .starter
  | imported {options : Sql.ImportOptions} {text : String} {s : Schema}
      (h : Sql.schemaOf options text = .ok s) : Made s
  | suggested {suggestion : Suggestion} {s : Schema}
      (h : suggestion.toSchema = .ok s) : Made s

theorem starter_eq_numbered : starter = numbered
    [⟨"users", [⟨"id", .uuid, true, false, false⟩, ⟨"email", .varchar, false, true, false⟩,
      ⟨"created_at", .timestamp, false, false, true⟩]⟩,
     ⟨"posts", [⟨"id", .uuid, true, false, false⟩, ⟨"user_id", .uuid, false, false, false⟩,
      ⟨"content", .text, false, false, true⟩]⟩]
    [⟨⟨.ofNumber 1, .ofNumber 2⟩, ⟨.ofNumber 5, .ofNumber 7⟩, .oneToMany⟩] := by
  decide +kernel

theorem Made.exists_numbered {s : Schema} (h : Made s) : ∃ ts js, s = numbered ts js := by
  cases h with
  | empty => exact ⟨[], [], numbered_nil_nil.symm⟩
  | starter => exact ⟨_, _, starter_eq_numbered⟩
  | imported h =>
    obtain ⟨ts, -, js, -, -, rfl⟩ := Sql.schemaOf_eq_ok h
    exact ⟨ts, js, rfl⟩
  | suggested h =>
    obtain ⟨-, js, -, rfl⟩ := Suggestion.toSchema_eq_ok.mp h
    exact ⟨_, js, rfl⟩

/-- All ids that there ever were in a history have numbers up to the counter, every one another
number, and an edit gives none of them again. -/
theorem Made.ids_given_once {s : Schema} (h : Made s) (edits : List Edit) :
    (∀ id ∈ s.everIds edits, ∃ n, 1 ≤ n ∧ n ≤ (s.afterAll edits).counter ∧ id.HasNumber n) ∧
      (s.everIds edits ⊆ s.ids ++ s.allGivenIds edits ∧
        ∃ ns, List.Forall₂ AnyId.HasNumber (s.ids ++ s.allGivenIds edits) ns ∧ ns.Nodup) ∧
      ∀ edit, ∀ id ∈ (s.afterAll edits).givenIds edit, id ∉ s.everIds edits := by
  have hstart : ∃ ns, List.Forall₂ AnyId.HasNumber s.ids ns ∧ ns.Nodup ∧
      ∀ n ∈ ns, 1 ≤ n ∧ n ≤ s.counter := by
    obtain ⟨ts, js, rfl⟩ := h.exists_numbered
    refine ⟨_, forall₂_ids_numbered ts js, List.nodup_range', fun n hn => ?_⟩
    have hrange := List.mem_range'_1.mp hn
    omega
  obtain ⟨ns, hns, hnodup, hbound⟩ := exists_numbers hstart edits
  have hever : ∀ id ∈ s.everIds edits,
      ∃ n, 1 ≤ n ∧ n ≤ (s.afterAll edits).counter ∧ id.HasNumber n := by
    intro id hid
    obtain ⟨n, hn, hnumber⟩ := exists_right_of_forall₂ hns id (s.everIds_subset edits hid)
    exact ⟨n, (hbound n hn).1, (hbound n hn).2, hnumber⟩
  refine ⟨hever, ⟨s.everIds_subset edits, ns, hns, hnodup⟩, fun edit id hid hold => ?_⟩
  obtain ⟨n, -, hle, hnumber⟩ := hever id hold
  obtain ⟨m, hnumber', hlt⟩ := exists_number_of_given hid
  have hsame := hnumber.unique hnumber'
  omega

/-- Tables and columns are removed and others are made. -/
def replacingEdits : List Edit :=
  [.removeTable ⟨"t5"⟩, .addDefaultTable, .removeColumn ⟨⟨"t10"⟩, ⟨"c11"⟩⟩,
    .addColumn ⟨"t5"⟩ {}, .addColumn ⟨"t10"⟩ {}]

theorem ids_given_once_replacing :
    starter.allGivenIds replacingEdits =
        [.table ⟨"t10"⟩, .column ⟨"c11"⟩, .column ⟨"c12"⟩] ∧
      (∀ id ∈ starter.everIds replacingEdits,
        ∃ n, 1 ≤ n ∧ n ≤ (starter.afterAll replacingEdits).counter ∧ id.HasNumber n) ∧
      ∀ edit, ∀ id ∈ (starter.afterAll replacingEdits).givenIds edit,
        id ∉ starter.everIds replacingEdits := by
  obtain ⟨hever, -, hnew⟩ := Made.starter.ids_given_once replacingEdits
  exact ⟨by decide +kernel, hever, hnew⟩

end Schema
end Schemata
