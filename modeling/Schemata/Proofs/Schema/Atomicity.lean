/-
Edits in place are atomic.  A procedure looks up what it refers to before it changes anything, and
what it looks up again later is still there; so it ends either as the edit that makes the whole
change at once, or with the schema as it was, on any schema whatsoever.
-/
import Schemata.Proofs.Schema.Reconciling
import Schemata.Sql.Clause

namespace Schemata
namespace InPlace

/-! ## Results -/

/-- The result of a procedure that looks something up. -/
def found (s : Schema) : Except Missing α → EStateM.Result Missing Schema α
  | .ok a => .ok a s
  | .error m => .error m s

/-- The result of a procedure that makes its whole change, or none. -/
def settled (s : Schema) : Except Missing (Schema × α) → EStateM.Result Missing Schema α
  | .ok (u, a) => .ok a u
  | .error m => .error m s

section

variable {s : Schema}

/-- A procedure that looks something up and goes on with it only if it is there. -/
theorem run_bind_of_found {p : InPlace α} {x : Except Missing α} (hp : p.run s = found s x)
    {f : α → InPlace β} {g : α → Except Missing (Schema × β)}
    (hf : ∀ a, x = .ok a → (f a).run s = settled s (g a)) :
    (p >>= f).run s = settled s (x >>= g) := by
  rw [EStateM.run_bind, hp]
  cases x with
  | error m => rfl
  | ok a => exact hf a rfl

theorem run_map_of_settled {p : InPlace α} {x : Except Missing (Schema × α)}
    (hp : p.run s = settled s x) (f : α → β) :
    (f <$> p).run s = settled s (do
      let (u, a) ← x
      return (u, f a)) := by
  have hp' : p s = settled s x := hp
  show EStateM.map f p s = _
  rw [EStateM.map, hp']
  cases x <;> rfl

/-- A procedure that reports nothing beside the change. -/
theorem run_bind_pure_of_settled {p : InPlace Unit} {x : Except Missing Schema}
    (hp : p.run s = settled s (do
      let u ← x
      return (u, ()))) (a : α) :
    (do p; return a : InPlace α).run s = settled s (do
      let u ← x
      return (u, a)) := by
  rw [EStateM.run_bind, hp]
  cases x <;> rfl

/-! ## Looking up -/

theorem run_requireTable (id : TableId) :
    (requireTable id).run s = found s (s.requireTable id) := by
  simp only [requireTable, Schema.requireTable, EStateM.run_bind, EStateM.run_get]
  cases s.table? id <;> rfl

theorem run_requireColumn (e : Endpoint) :
    (requireColumn e).run s = found s (s.requireColumn e) := by
  rw [requireColumn, Schema.requireColumn, EStateM.run_bind, run_requireTable]
  cases s.requireTable e.table with
  | error m => rfl
  | ok t =>
    simp only [found, bind, Except.bind]
    cases t.column? e.column <;> rfl

theorem run_requireRelation (id : RelationId) :
    (requireRelation id).run s = found s (s.requireRelation id) := by
  simp only [requireRelation, Schema.requireRelation, EStateM.run_bind, EStateM.run_get]
  cases s.relation? id <;> rfl

theorem run_requirePosition (table : TableId) (index length : Nat) :
    (requirePosition table index length).run s =
      found s (if index < length then .ok () else .error (.position table index length)) := by
  rw [requirePosition]
  split <;> rfl

theorem run_takeRelations (p : Relation → Bool) :
    (takeRelations p).run s =
      .ok (s.relations.filter p) { s with relations := s.relations.filter (!p ·) } := by
  simp only [takeRelations, EStateM.run_bind, EStateM.run_get, List.partition_eq_filter_filter]
  rfl

/-- The place of the first item that satisfies `p` says which item is found and which is erased. -/
theorem find?_and_eraseP (p : α → Bool) (xs : List α) :
    match xs.findFinIdx? p with
    | some i => xs.find? p = some xs[i] ∧ xs.eraseP p = xs.eraseIdx i
    | none => xs.find? p = none := by
  have hfind : xs.find? p = (xs.findFinIdx? p).map (xs[·]) :=
    List.find?_eq_map_findFinIdx?_getElem
  have herase : xs.eraseP p = _ := List.eraseP_eq_eraseIdx
  rw [List.findIdx?_eq_map_findFinIdx?_val] at herase
  cases hi : xs.findFinIdx? p with
  | none => rw [hfind, hi]; rfl
  | some i =>
    rw [hi] at hfind herase
    exact ⟨hfind, herase⟩

/-! ## Tables -/

theorem run_addTable (name : String) (first : Option ColumnSpec) :
    (addTable name first).run s = settled s (.ok (s.addTable name first)) := by
  cases first <;> rfl

theorem run_renameTable (id : TableId) (name : String) :
    (renameTable id name).run s = settled s (do
      let u ← s.renameTable id name
      return (u, ())) := by
  rw [Schema.renameTable, bind_assoc]
  exact run_bind_of_found (run_requireTable id) fun _ _ => rfl

/-- The relations are taken away in between, but the tables stay where they are. -/
theorem run_removeTable (id : TableId) :
    (removeTable id).run s = settled s (s.removeTable id) := by
  have hplace := find?_and_eraseP (·.id == id) s.tables
  simp only [removeTable, EStateM.run_bind, EStateM.run_get]
  rw [Schema.removeTable, Schema.requireTable, Schema.table?]
  cases hi : s.tables.findFinIdx? (·.id == id) with
  | none =>
    rw [hi] at hplace
    rw [hplace]
    rfl
  | some i =>
    rw [hi] at hplace
    rw [hplace.1, hplace.2]
    simp only [EStateM.run_bind, run_takeRelations]
    rw [← List.foldl_map]
    rfl

/-! ## Columns -/

/-- Only the first item that satisfies `p` is changed. -/
theorem modifyFirst_congr {p : α → Bool} {f g : α → α} {xs : List α}
    (h : ∀ x, xs.find? p = some x → f x = g x) : modifyFirst p f xs = modifyFirst p g xs := by
  induction xs with
  | nil => rfl
  | cons x rest ih =>
    rw [modifyFirst, modifyFirst]
    by_cases hx : p x = true
    · rw [if_pos hx, if_pos hx, h x (List.find?_cons_of_pos hx)]
    · rw [if_neg hx, if_neg hx, ih fun y hy => h y (by rwa [List.find?_cons_of_neg hx])]

theorem table?_of_requireTable {id : TableId} {t : Table} (h : s.requireTable id = .ok t) :
    s.table? id = some t := by
  unfold Schema.requireTable at h
  split at h
  · next u hu => cases h; exact hu
  · cases h

theorem column?_of_requireColumn {e : Endpoint} {c : Column} (h : s.requireColumn e = .ok c) :
    ∃ t, s.table? e.table = some t ∧ t.column? e.column = some c := by
  obtain ⟨t, ht, hc⟩ := Sql.ok_of_bind h
  refine ⟨t, table?_of_requireTable ht, ?_⟩
  split at hc
  · next d hd => cases hc; exact hd
  · cases hc

theorem run_addColumn (table : TableId) (spec : ColumnSpec) :
    (addColumn table spec).run s = settled s (s.addColumn table spec) :=
  run_bind_of_found (run_requireTable table) fun _ _ => rfl

theorem run_updateColumn (e : Endpoint) (patch : ColumnPatch) :
    (updateColumn e patch).run s = settled s (do
      let u ← s.updateColumn e patch
      return (u, ())) := by
  rw [Schema.updateColumn, bind_assoc]
  exact run_bind_of_found (run_requireColumn e) fun _ _ => rfl

/-- The column is still there after its relations were taken away. -/
theorem run_removeColumn (e : Endpoint) :
    (removeColumn e).run s = settled s (s.removeColumn e) := by
  refine run_bind_of_found (run_requireColumn e) fun c hc => ?_
  obtain ⟨t, ht, hcolumn⟩ := column?_of_requireColumn hc
  have hplace := find?_and_eraseP (·.id == e.column) t.columns
  have hagain : ∀ rs, Schema.requireTable { s with relations := rs } e.table = .ok t := by
    intro rs
    have ht' : Schema.table? { s with relations := rs } e.table = some t := ht
    rw [Schema.requireTable, ht']
  simp only [EStateM.run_bind, run_takeRelations, run_requireTable, hagain, found]
  cases hi : t.columns.findFinIdx? (·.id == e.column) with
  | none =>
    rw [hi] at hplace
    exact absurd (hcolumn.symm.trans hplace) (by simp)
  | some i =>
    rw [hi] at hplace
    obtain ⟨hfirst, herase⟩ := hplace
    have hc' : t.columns[i] = c := Option.some.inj (hfirst.symm.trans hcolumn)
    have hmodify : modifyFirst (·.id == e.table)
        (fun t => { t with columns := t.columns.eraseIdx i }) s.tables =
        modifyFirst (·.id == e.table)
          (fun t => { t with columns := t.columns.eraseP (·.id == e.column) }) s.tables := by
      refine modifyFirst_congr fun u hu => ?_
      rw [Option.some.inj (hu.symm.trans ht), herase]
    simp only [EStateM.run_bind, EStateM.run_modify, refreshAll, Schema.modifyTable, hmodify, hc',
      List.foldl_flatMap]
    rfl

/-- The places are checked one after the other, before the column is moved. -/
theorem run_reorderColumn (table : TableId) (source destination : Nat) :
    (reorderColumn table source destination).run s = settled s (do
      let u ← s.reorderColumn table source destination
      return (u, ())) := by
  rw [Schema.reorderColumn, bind_assoc]
  refine run_bind_of_found (run_requireTable table) fun t _ => ?_
  simp only [EStateM.run_bind, run_requirePosition, ge_iff_le, ← Nat.not_lt]
  by_cases hsource : source < t.columns.length
  · by_cases hdestination : destination < t.columns.length
    · simp only [hsource, hdestination, if_true, not_true_eq_false, if_false]
      rfl
    · simp only [hsource, hdestination, if_true, not_true_eq_false, not_false_eq_true, if_false]
      rfl
  · simp only [hsource, not_false_eq_true, if_true, if_false]
    rfl

/-! ## Relations -/

/-- Both ends are looked up before the relation gets its id. -/
theorem run_connect (source target : Endpoint) :
    (connect source target).run s = settled s (s.connect source target) :=
  run_bind_of_found (run_requireColumn source) fun _ _ =>
    run_bind_of_found (run_requireColumn target) fun _ _ => rfl

theorem run_setCardinality (id : RelationId) (cardinality : Cardinality) :
    (setCardinality id cardinality).run s = settled s (do
      let u ← s.setCardinality id cardinality
      return (u, ())) := by
  rw [Schema.setCardinality, bind_assoc]
  exact run_bind_of_found (run_requireRelation id) fun _ _ => rfl

theorem run_disconnect (id : RelationId) :
    (disconnect id).run s = settled s (s.disconnect id) := by
  have hplace := find?_and_eraseP (·.id == id) s.relations
  simp only [disconnect, EStateM.run_bind, EStateM.run_get]
  rw [Schema.disconnect, Schema.requireRelation, Schema.relation?]
  cases hi : s.relations.findFinIdx? (·.id == id) with
  | none =>
    rw [hi] at hplace
    rw [hplace]
    rfl
  | some i =>
    rw [hi] at hplace
    rw [hplace.1, hplace.2]
    rfl

end
end InPlace

namespace Edit

open InPlace

/-- An edit in place makes the whole change of the edit, or none. -/
theorem run_inPlace (s : Schema) (edit : Edit) :
    edit.inPlace.run s = settled s (s.perform edit) := by
  cases edit with
  | addTable name first => exact run_map_of_settled (run_addTable name first) _
  | renameTable table name => exact run_bind_pure_of_settled (run_renameTable table name) _
  | removeTable table => exact run_map_of_settled (run_removeTable table) _
  | addColumn table spec => exact run_map_of_settled (run_addColumn table spec) _
  | updateColumn e patch => exact run_bind_pure_of_settled (run_updateColumn e patch) _
  | removeColumn e => exact run_map_of_settled (run_removeColumn e) _
  | reorderColumn table source destination =>
    exact run_bind_pure_of_settled (run_reorderColumn table source destination) _
  | connect source target => exact run_map_of_settled (run_connect source target) _
  | setCardinality relation cardinality =>
    exact run_bind_pure_of_settled (run_setCardinality relation cardinality) _
  | disconnect relation => exact run_map_of_settled (run_disconnect relation) _
  | reconcile => exact run_map_of_settled (x := .ok s.reconcile) (run_reconcile s) _

theorem run_inPlace_eq_ok {s u : Schema} {edit : Edit} {outcome : Outcome} :
    edit.inPlace.run s = .ok outcome u ↔ s.perform edit = .ok (u, outcome) := by
  rw [run_inPlace]
  constructor
  · intro h
    cases hperform : s.perform edit with
    | error m =>
      rw [hperform] at h
      cases h
    | ok result =>
      rw [hperform] at h
      cases h
      rfl
  · intro h
    rw [h]
    rfl

end Edit

/-! ## What is missing -/

/-- What is named is not in the schema.  Tables, columns and relations are the first ones that have
the id. -/
def Missing.Absent (s : Schema) : Missing → Prop
  | .table id => s.table? id = none
  | .column e => ∃ t, s.table? e.table = some t ∧ t.column? e.column = none
  | .relation id => s.relation? id = none
  | .position id index length =>
    ∃ t, s.table? id = some t ∧ t.columns.length = length ∧ length ≤ index

/-- The edit refers to what is named. -/
def Edit.Refers : Edit → Missing → Prop
  | .addTable _ _, _ => False
  | .renameTable table _, m => m = .table table
  | .removeTable table, m => m = .table table
  | .addColumn table _, m => m = .table table
  | .updateColumn e _, m => m = .table e.table ∨ m = .column e
  | .removeColumn e, m => m = .table e.table ∨ m = .column e
  | .reorderColumn table source destination, m => m = .table table ∨
    (∃ length, m = .position table source length) ∨ ∃ length, m = .position table destination length
  | .connect source target, m =>
    (m = .table source.table ∨ m = .column source) ∨ (m = .table target.table ∨ m = .column target)
  | .setCardinality relation _, m => m = .relation relation
  | .disconnect relation, m => m = .relation relation
  | .reconcile, _ => False

/-- The result is an error about something absent, or else nothing that is referred to is absent. -/
def Checks (s : Schema) (refers : Missing → Prop) : Except Missing α → Prop
  | .error m => refers m ∧ m.Absent s
  | .ok _ => ∀ m, refers m → ¬m.Absent s

namespace Checks

variable {s : Schema}

theorem ok (a : α) : Checks s (fun _ => False) (.ok a : Except Missing α) :=
  fun _ hm => hm.elim

/-- What is referred to in two steps is checked in two steps. -/
theorem bind {refers refers' : Missing → Prop} {x : Except Missing α} {f : α → Except Missing β}
    (hx : Checks s refers x) (hf : ∀ a, x = .ok a → Checks s refers' (f a)) :
    Checks s (fun m => refers m ∨ refers' m) (x >>= f) := by
  cases x with
  | error m => exact ⟨.inl hx.1, hx.2⟩
  | ok a =>
    have hfa := hf a rfl
    show Checks s _ (f a)
    cases hy : f a with
    | error m =>
      rw [hy] at hfa
      exact ⟨.inr hfa.1, hfa.2⟩
    | ok b =>
      rw [hy] at hfa
      exact fun m hm => hm.elim (hx m) (hfa m)

/-- After the checks an edit does not fail any more. -/
theorem bind_ok {refers : Missing → Prop} {x : Except Missing α} (hx : Checks s refers x)
    (f : α → β) : Checks s refers (x >>= fun a => .ok (f a)) := by
  cases x with
  | error m => exact hx
  | ok a => exact hx

theorem requireTable (id : TableId) : Checks s (· = .table id) (s.requireTable id) := by
  rw [Schema.requireTable]
  cases ht : s.table? id with
  | none => exact ⟨rfl, ht⟩
  | some t =>
    rintro m rfl hnone
    rw [show s.table? id = none from hnone] at ht
    cases ht

theorem requireColumn (e : Endpoint) :
    Checks s (fun m => m = .table e.table ∨ m = .column e) (s.requireColumn e) := by
  refine (requireTable e.table).bind fun t ht => ?_
  have htable := InPlace.table?_of_requireTable ht
  cases hc : t.column? e.column with
  | none => exact ⟨rfl, t, htable, hc⟩
  | some c =>
    rintro m rfl ⟨u, hu, hnone⟩
    rw [Option.some.inj (hu.symm.trans htable), hc] at hnone
    cases hnone

theorem requireRelation (id : RelationId) :
    Checks s (· = .relation id) (s.requireRelation id) := by
  rw [Schema.requireRelation]
  cases hr : s.relation? id with
  | none => exact ⟨rfl, hr⟩
  | some r =>
    rintro m rfl hnone
    rw [show s.relation? id = none from hnone] at hr
    cases hr

/-- A place in a table is checked before the procedure goes on with `x`. -/
theorem requirePosition {table : TableId} {t : Table} (ht : s.table? table = some t) (index : Nat)
    {refers : Missing → Prop} {x : Except Missing α} (hx : Checks s refers x) :
    Checks s (fun m => (∃ length, m = .position table index length) ∨ refers m)
      (if index ≥ t.columns.length then .error (.position table index t.columns.length)
        else x) := by
  by_cases hindex : index ≥ t.columns.length
  · rw [if_pos hindex]
    exact ⟨.inl ⟨_, rfl⟩, t, ht, rfl, hindex⟩
  · rw [if_neg hindex]
    cases x with
    | error m => exact ⟨.inr hx.1, hx.2⟩
    | ok a =>
      rintro m (⟨length, rfl⟩ | hm)
      · rintro ⟨u, hu, hlength, hle⟩
        rw [Option.some.inj (hu.symm.trans ht)] at hlength
        omega
      · exact hx m hm

theorem reorderColumn (table : TableId) (source destination : Nat) :
    Checks s (fun m => m = .table table ∨
        (∃ length, m = .position table source length) ∨
          ∃ length, m = .position table destination length)
      (s.reorderColumn table source destination) := by
  refine (requireTable table).bind fun t ht => ?_
  have htable := InPlace.table?_of_requireTable ht
  have hmove : ∀ u : Schema, _ := fun u =>
    requirePosition htable source (requirePosition htable destination (ok (s := s) u))
  simp only [or_false] at hmove
  exact hmove _

/-- An edit checks all that it refers to. -/
theorem perform (edit : Edit) : Checks s edit.Refers (s.perform edit) := by
  cases edit with
  | addTable name first => exact ok _
  | renameTable table name => exact ((requireTable table).bind_ok _).bind_ok _
  | removeTable table => exact ((requireTable table).bind_ok _).bind_ok _
  | addColumn table spec => exact ((requireTable table).bind_ok _).bind_ok _
  | updateColumn e patch => exact ((requireColumn e).bind_ok _).bind_ok _
  | removeColumn e => exact ((requireColumn e).bind_ok _).bind_ok _
  | reorderColumn table source destination =>
    exact (reorderColumn table source destination).bind_ok _
  | connect source target =>
    exact ((requireColumn source).bind fun _ _ => (requireColumn target).bind_ok _).bind_ok _
  | setCardinality relation cardinality => exact ((requireRelation relation).bind_ok _).bind_ok _
  | disconnect relation => exact ((requireRelation relation).bind_ok _).bind_ok _
  | reconcile => exact ok _

end Checks

/-! ## Main result -/

/-- An edit in place fails exactly if something that it refers to is absent, which it reports, and
then the schema is as it was.  The schema need not be consistent. -/
theorem Edit.inPlace_atomic (s : Schema) (edit : Edit) :
    ((∃ m u, edit.inPlace.run s = .error m u) ↔ ∃ m, edit.Refers m ∧ m.Absent s) ∧
      ∀ m u, edit.inPlace.run s = .error m u → u = s ∧ edit.Refers m ∧ m.Absent s := by
  have hchecks := Checks.perform (s := s) edit
  rw [run_inPlace]
  cases hperform : s.perform edit with
  | error m =>
    rw [hperform] at hchecks
    refine ⟨⟨fun _ => ⟨m, hchecks⟩, fun _ => ⟨m, s, rfl⟩⟩, ?_⟩
    intro m' u hu
    cases hu
    exact ⟨rfl, hchecks⟩
  | ok result =>
    rw [hperform] at hchecks
    have hok : ∀ m u, InPlace.settled s (.ok result) ≠ .error m u := by
      intro m u hu
      cases hu
    refine ⟨⟨?_, ?_⟩, fun m u hu => absurd hu (hok m u)⟩
    · rintro ⟨m, u, hu⟩
      exact absurd hu (hok m u)
    · rintro ⟨m, hrefers, habsent⟩
      exact absurd habsent (hchecks m hrefers)

end Schemata
