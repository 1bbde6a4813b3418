/-
Places over the life of a session.  The schema is edited without regard to the places, and replaced
by schemas that count from the start again; but every id of a table has a number that the counter of
the present schema has passed, so a new table never takes the id of a place that is there already.
-/
import Schemata.Proofs.History
import Schemata.Proofs.Schema.Atomicity
import Schemata.Proofs.Schema.TableIds
import Schemata.Proofs.Session.Replacement

namespace Schemata

/-! ## Steps -/

/-- What can be done to a session. -/
inductive Step
  | replace (r : Replacement)
  | relayout
  | place (table : TableId) (x y : Float)
  | resize (table : TableId) (width height : Float)
  | prunePlacements
  | edit (e : Edit)

namespace Step

/-- A procedure that has nothing to report. -/
def quiet (p : InSession Unit) : InSession Outcome := do
  p
  return .done

def inPlace : Step → InSession Outcome
  | .replace r => quiet r.inPlace
  | .relayout => quiet (modify Session.relayout)
  | .place table x y => quiet (InSession.place table x y)
  | .resize table width height => quiet (InSession.resize table width height)
  | .prunePlacements => quiet (modify Session.prunePlacements)
  | .edit e => InSession.edit e

/-- The step places all tables afresh. -/
def Fills : Step → Prop
  | .replace _ | .relayout => True
  | _ => False

/-- The tables that were removed since the schema was last replaced, after a step that reports the
outcome. -/
def removed (before : List TableId) : Step → Outcome → List TableId
  | .replace _, _ => []
  | _, outcome => outcome.removedTables ++ before

end Step

/-- A session, and the tables that were removed since its schema was last replaced. -/
structure Trace where
  session : Session
  removed : List TableId

namespace Trace

/-- A session that is opened on nothing or on the starter schema. -/
def opened (options : Sql.ImportOptions) (sample : Bool) : Trace :=
  ⟨if sample then .withSample options else .new options, []⟩

/-- What a step leaves, also if it fails. -/
def after (tr : Trace) (step : Step) : Trace :=
  match step.inPlace.run tr.session with
  | .ok outcome s => ⟨s, step.removed tr.removed outcome⟩
  | .error _ s => ⟨s, tr.removed⟩

def afterAll (tr : Trace) (steps : List Step) : Trace := steps.foldl after tr

end Trace

/-- The tables that have places, in the order of the places. -/
def Session.placed (s : Session) : List TableId := s.placements.map (·.table)

theorem Grid.map_table_layout (g : Grid) (s : Schema) :
    (g.layout s).map (·.table) = s.tableIds := by
  refine List.ext_getElem? fun i => ?_
  simp [layout, Schema.tableIds, box, Function.comp_def]

theorem Replacement.Fresh.placed {options : Sql.ImportOptions} {d : Diagram}
    (h : Replacement.Fresh options d) : d.placements.map (·.table) = d.schema.tableIds := by
  rw [h.placements, Grid.map_table_layout]

/-! ## What a step can do -/

/-- The places of a session may become places of these tables. -/
structure Session.Rearranges (s : Session) (ids : List TableId) : Prop where
  nodup : s.placed.Nodup → s.schema.tableIds.Nodup → ids.Nodup
  known : ∀ id ∈ ids, id ∈ s.placed ∨ id ∈ s.schema.tableIds

namespace Session.Rearranges

variable {s : Session}

theorem of_sublist {ids : List TableId} (h : ids.Sublist s.placed) : s.Rearranges ids :=
  ⟨fun hplaced _ => hplaced.sublist h, fun _ hid => .inl (h.subset hid)⟩

theorem of_modifyFirst {f : Placement → Placement} (hf : ∀ p, (f p).table = p.table)
    (q : Placement → Bool) : s.Rearranges ((modifyFirst q f s.placements).map (·.table)) := by
  rw [map_modifyFirst hf]
  exact of_sublist (List.Sublist.refl _)

theorem all (s : Session) : s.Rearranges s.schema.tableIds := ⟨fun _ h => h, fun _ hid => .inr hid⟩

theorem concat {table : TableId} (htable : table ∈ s.schema.tableIds) (hnew : table ∉ s.placed) :
    s.Rearranges (s.placed ++ [table]) := by
  refine ⟨fun h _ => ?_, fun id hid => ?_⟩
  · refine List.nodup_append.mpr ⟨h, by simp, fun id hid id' hid' heq => hnew ?_⟩
    rwa [← List.mem_singleton.mp hid', ← heq]
  · rcases List.mem_append.mp hid with hid | hid
    · exact .inl hid
    · exact .inr (List.mem_singleton.mp hid ▸ htable)

end Session.Rearranges

/-- What a step can make of a session. -/
inductive Trace.Goes (tr : Trace) : Trace → Prop
  | failed : Goes tr tr
  | replaced {r : Replacement} {d : Diagram} (h : r.diagram tr.session.options = .ok d) :
      Goes tr ⟨⟨d.schema, d.placements, tr.session.options⟩, []⟩
  | rearranged {ps : List Placement} (h : tr.session.Rearranges (ps.map (·.table))) :
      Goes tr ⟨{ tr.session with placements := ps }, tr.removed⟩
  | edited {e : Edit} {u : Schema} {outcome : Outcome}
      (h : tr.session.schema.perform e = .ok (u, outcome)) :
      Goes tr ⟨tr.session.load u, outcome.removedTables ++ tr.removed⟩

namespace Trace

variable {tr : Trace}

theorem run_quiet (p : InSession Unit) (s : Session) :
    (Step.quiet p).run s = match p.run s with
      | .ok _ u => .ok .done u
      | .error f u => .error f u := by
  rw [Step.quiet, EStateM.run_bind]
  cases p.run s <;> rfl

theorem run_edit (e : Edit) (s : Session) :
    (InSession.edit e).run s = match s.schema.perform e with
      | .ok (u, outcome) => .ok outcome (s.load u)
      | .error m => .error (.missing m) s := by
  show InSession.edit e s = _
  rw [InSession.edit, Edit.run_inPlace]
  cases s.schema.perform e <;> rfl

theorem goes_replace (r : Replacement) : tr.Goes (tr.after (.replace r)) := by
  rw [after, Step.inPlace, run_quiet, Replacement.run_inPlace]
  cases hdiagram : r.diagram tr.session.options with
  | error f => exact .failed
  | ok d => exact .replaced hdiagram

theorem goes_relayout : tr.Goes (tr.after .relayout) := by
  have hids : tr.session.Rearranges
      ((tr.session.options.grid.layout tr.session.schema).map (·.table)) := by
    rw [Grid.map_table_layout]
    exact .all _
  exact .rearranged hids

theorem goes_place (table : TableId) (x y : Float) : tr.Goes (tr.after (.place table x y)) := by
  rw [after, Step.inPlace, run_quiet, InSession.place, EStateM.run_bind, EStateM.run_get]
  dsimp only
  cases htable : tr.session.schema.table? table with
  | none => exact .failed
  | some t =>
    simp only [EStateM.run_modify]
    cases hplace : tr.session.placement? table with
    | some p =>
      exact .rearranged (.of_modifyFirst (fun _ => by rfl) _)
    | none =>
      refine .rearranged ?_
      rw [List.map_append]
      have hid : t.id = table := by simpa using List.find?_some htable
      refine .concat ?_ ?_
      · rw [← hid]
        exact List.mem_map_of_mem (List.mem_of_find?_eq_some htable)
      · intro hmem
        obtain ⟨p, hp, heq⟩ := List.mem_map.mp hmem
        exact List.find?_eq_none.mp hplace p hp (beq_iff_eq.mpr heq)

theorem goes_resize (table : TableId) (width height : Float) :
    tr.Goes (tr.after (.resize table width height)) := by
  rw [after, Step.inPlace, run_quiet, InSession.resize, EStateM.run_bind, EStateM.run_get]
  dsimp only
  cases tr.session.placement? table with
  | none => exact .failed
  | some p =>
    exact .rearranged (.of_modifyFirst (fun _ => by rfl) _)

theorem goes_prunePlacements : tr.Goes (tr.after .prunePlacements) := by
  exact .rearranged (.of_sublist (List.filter_sublist.map _))

theorem goes_edit (e : Edit) : tr.Goes (tr.after (.edit e)) := by
  rw [after, Step.inPlace, run_edit]
  cases hperform : tr.session.schema.perform e with
  | error m => exact .failed
  | ok result => exact .edited hperform

theorem goes_after (step : Step) : tr.Goes (tr.after step) := by
  cases step with
  | replace r => exact goes_replace r
  | relayout => exact goes_relayout
  | place table x y => exact goes_place table x y
  | resize table width height => exact goes_resize table width height
  | prunePlacements => exact goes_prunePlacements
  | edit e => exact goes_edit e

/-! ## What all steps preserve -/

/-- The schema is consistent, all ids of tables that matter have numbers that were given, and the
places belong to different tables, of which each is there or was removed. -/
structure Sound (tr : Trace) : Prop where
  consistent : tr.session.schema.Consistent
  gave : ∀ id, id ∈ tr.session.schema.tableIds ∨ id ∈ tr.removed → tr.session.schema.Gave id
  nodup : tr.session.placed.Nodup
  known : ∀ id ∈ tr.session.placed, id ∈ tr.session.schema.tableIds ∨ id ∈ tr.removed

/-- A schema that is placed on the grid as a whole. -/
theorem Sound.of_layout {s : Session} (hconsistent : s.schema.Consistent)
    (hgave : ∀ id ∈ s.schema.tableIds, s.schema.Gave id) (hplaced : s.placed = s.schema.tableIds) :
    Sound ⟨s, []⟩ := by
  refine ⟨hconsistent, fun id hid => ?_, ?_, fun id hid => ?_⟩
  · exact hgave id (hid.resolve_right List.not_mem_nil)
  · rw [hplaced]
    exact hconsistent.tables_nodup
  · rw [hplaced] at hid
    exact .inl hid

theorem Sound.goes {tr' : Trace} (h : tr.Sound) (hgoes : tr.Goes tr') : tr'.Sound := by
  cases hgoes with
  | failed => exact h
  | replaced hdiagram =>
    have hfresh := Replacement.fresh_of_diagram hdiagram
    exact .of_layout hfresh.consistent hfresh.gave hfresh.placed
  | rearranged hids =>
    refine ⟨h.consistent, h.gave, hids.nodup h.nodup h.consistent.tables_nodup, fun id hid => ?_⟩
    rcases hids.known id hid with hid | hid
    · exact h.known id hid
    · exact .inl hid
  | @edited e u outcome hu =>
    have hregisters := Schema.registers_of_perform h.consistent.linked.toUniqueIds hu
    have hgave : ∀ id, id ∈ u.tableIds ∨ id ∈ outcome.removedTables → u.Gave id := by
      intro id hid
      rcases hregisters.new_or_old hid with hid | hid
      · exact hregisters.new id hid
      · exact (h.gave id (.inl hid)).mono hregisters.counter
    refine ⟨h.consistent.perform hu, fun id hid => ?_, h.nodup, fun id hid => ?_⟩
    · rcases hid with hid | hid
      · exact hgave id (.inl hid)
      · rcases List.mem_append.mp hid with hid | hid
        · exact hgave id (.inr hid)
        · exact (h.gave id (.inr hid)).mono hregisters.counter
    · rcases h.known id hid with hid | hid
      · exact (hregisters.kept_or_removed hid).imp_right (List.mem_append_left _)
      · exact .inr (List.mem_append_right _ hid)

theorem gave_starter : ∀ id ∈ Schema.starter.tableIds, Schema.starter.Gave id := by
  have hids : Schema.starter.tableIds = [.ofNumber 1, .ofNumber 5] := by decide +kernel
  have hcounter : 5 ≤ Schema.starter.counter := by decide +kernel
  intro id hid
  rw [hids, List.mem_cons, List.mem_singleton] at hid
  rcases hid with rfl | rfl
  · exact ⟨1, by omega, rfl⟩
  · exact ⟨5, hcounter, rfl⟩

theorem sound_opened (options : Sql.ImportOptions) (sample : Bool) :
    (opened options sample).Sound := by
  cases sample with
  | false =>
    refine .of_layout (s := .new options) Schema.consistent_empty (fun id hid => ?_) rfl
    cases hid
  | true =>
    exact .of_layout (s := .withSample options) Schema.starter_consistent gave_starter
      (Grid.map_table_layout _ _)

theorem Sound.afterAll (h : tr.Sound) (steps : List Step) : (tr.afterAll steps).Sound := by
  induction steps generalizing tr with
  | nil => exact h
  | cons step rest ih => exact ih (h.goes (goes_after step))

/-! ## Main result -/

/-- Places and tables fit together. -/
structure Coherent (tr : Trace) : Prop where
  /-- No table has two places. -/
  nodup : tr.session.placed.Nodup
  /-- A place belongs to a table that is there, or was removed since the last replacement. -/
  known : ∀ id ∈ tr.session.placed, id ∈ tr.session.schema.tableIds ∨ id ∈ tr.removed
  /-- A new table has no place yet, and is none of the removed ones. -/
  unplaced : ∀ name first, ∃ id s,
    (Step.edit (.addTable name first)).inPlace.run tr.session = .ok (.newTable id) s ∧
      s.placements = tr.session.placements ∧ id ∉ s.placed ∧ id ∉ tr.removed
  /-- A step that places all tables afresh gives each its place, in order. -/
  filled : ∀ step : Step, step.Fills → ∀ outcome s,
    step.inPlace.run tr.session = .ok outcome s → s.placed = s.schema.tableIds
  /-- Pruning keeps the places of the tables that are there, and changes nothing else. -/
  pruned : ∃ s, Step.prunePlacements.inPlace.run tr.session = .ok .done s ∧
    s.schema = tr.session.schema ∧
      s.placements = tr.session.placements.filter (·.table ∈ tr.session.schema.tableIds)

theorem filled_of_run {s u : Session} {step : Step} (hstep : step.Fills) {outcome : Outcome}
    (h : step.inPlace.run s = .ok outcome u) : u.placed = u.schema.tableIds := by
  cases step with
  | replace r =>
    rw [Step.inPlace, run_quiet, Replacement.run_inPlace] at h
    cases hdiagram : r.diagram s.options with
    | error f => rw [hdiagram] at h; cases h
    | ok d =>
      rw [hdiagram] at h
      cases h
      exact (Replacement.fresh_of_diagram hdiagram).placed
  | relayout =>
    cases h
    exact Grid.map_table_layout _ _
  | place table x y => cases hstep
  | resize table width height => cases hstep
  | prunePlacements => cases hstep
  | edit e => cases hstep

theorem isSome_table? {s : Schema} {id : TableId} :
    (s.table? id).isSome = decide (id ∈ s.tableIds) := by
  rw [Bool.eq_iff_iff]
  simp [Schema.table?, Schema.tableIds]

theorem Sound.coherent (h : tr.Sound) : tr.Coherent where
  nodup := h.nodup
  known := h.known
  unplaced name first := by
    have hnew := tr.session.schema.not_gave_freshTable
    refine ⟨.ofNumber tr.session.schema.freshTable,
      tr.session.load (tr.session.schema.addTable name first).1, ?_, rfl, ?_, ?_⟩
    · cases first <;> rfl
    · exact fun hid => hnew (h.gave _ (h.known _ hid))
    · exact fun hid => hnew (h.gave _ (.inr hid))
  filled step hstep outcome s := filled_of_run hstep
  pruned := by
    refine ⟨tr.session.prunePlacements, rfl, rfl, ?_⟩
    simp only [Session.prunePlacements, isSome_table?]

/-- Places and tables fit together whatever is done to a session. -/
theorem coherent_afterAll (options : Sql.ImportOptions) (sample : Bool) (steps : List Step) :
    ((opened options sample).afterAll steps).Coherent :=
  ((sound_opened options sample).afterAll steps).coherent

/-- The place of a table that was removed stays, and the new table does not take it. -/
example :
    let tr := (opened {} true).afterAll [.edit (.removeTable ⟨"t1"⟩), .edit .addDefaultTable]
    tr.session.placed = [⟨"t1"⟩, ⟨"t5"⟩] ∧ tr.session.schema.tableIds = [⟨"t5"⟩, ⟨"t10"⟩] ∧
      tr.removed = [⟨"t1"⟩] := by
  decide +kernel

end Trace
end Schemata
