/-
Building a suggested schema.  The schema of a valid suggestion has the suggested tables and columns,
numbered in order, and a relation for every suggested one, between the columns that stand where the
suggested ends stand in the suggestion.  Nothing that the check lets pass makes the building fail.
-/
import Schemata.Proofs.Schema.Numbering
import Schemata.Proofs.Suggestion.Checking

namespace Schemata

open Schema (numbered)
open TableSpec (extent numberTables)

def SuggestedTable.spec (t : SuggestedTable) : TableSpec :=
  ⟨t.name, t.columns.map SuggestedColumn.spec⟩

def SuggestedTable.ends (t : SuggestedTable) : List SuggestedEnd :=
  t.columns.map fun c => ⟨t.id, c.id⟩

namespace Suggestion

def specs (s : Suggestion) : List TableSpec := s.tables.map SuggestedTable.spec

/-- The end is that of the `j`-th column of the `i`-th table. -/
def At (s : Suggestion) (i j : Nat) (e : SuggestedEnd) : Prop :=
  ∃ t c, s.tables[i]? = some t ∧ t.columns[j]? = some c ∧ e = ⟨t.id, c.id⟩

/-! ## Names -/

/-- What becomes of the columns of a table with the number `n`, which are numbered on from `k`. -/
def columnNames (id : String) (n k : Nat) (cs : List SuggestedColumn) : Renaming :=
  numberFrom (fun l c => (⟨id, c.id⟩, ⟨.ofNumber n, .ofNumber l⟩)) k cs

/-- What becomes of the columns of tables that are numbered on from `n`. -/
def tableNames (n : Nat) : List SuggestedTable → Renaming
  | [] => []
  | t :: rest =>
    columnNames t.id (n + 1) (n + 1) t.columns ++ tableNames (n + 1 + t.columns.length) rest

/-- The named ends are the columns of the tables in order. -/
theorem map_fst_tableNames (n : Nat) (ts : List SuggestedTable) :
    (tableNames n ts).map Prod.fst = ts.flatMap SuggestedTable.ends := by
  induction ts generalizing n with
  | nil => rfl
  | cons t rest ih =>
    have hends : (columnNames t.id (n + 1) (n + 1) t.columns).map Prod.fst = t.ends := by
      rw [columnNames, map_numberFrom]
      exact numberFrom_eq_map (fun c : SuggestedColumn => SuggestedEnd.mk t.id c.id) _ _
    rw [tableNames, List.map_append, ih, hends, List.flatMap_cons]

theorem exists_lookup {s : Suggestion} {e : SuggestedEnd} (h : s.Declares e) :
    ∃ e', (tableNames 0 s.tables).lookup e = some e' := by
  obtain ⟨t, ht, hid, c, hc, hcid⟩ := h
  have hmem : e ∈ (tableNames 0 s.tables).map Prod.fst := by
    rw [map_fst_tableNames, List.mem_flatMap]
    refine ⟨t, ht, List.mem_map.mpr ⟨c, hc, ?_⟩⟩
    rw [hid, hcid]
  obtain ⟨p, hp, rfl⟩ := List.mem_map.mp hmem
  exact Option.isSome_iff_exists.mp (List.lookup_isSome_iff.mpr ⟨p, hp, beq_self_eq_true _⟩)

/-- What became of an end stands where the end stood. -/
theorem at_of_mem_tableNames {n : Nat} {ts : List SuggestedTable} {e : SuggestedEnd} {e' : Endpoint}
    (h : (e, e') ∈ tableNames n ts) :
    ∃ i j, (Suggestion.mk ts []).At i j e ∧
      (Schema.mk (numberTables n (ts.map SuggestedTable.spec)) [] 0).At i j e' := by
  induction ts generalizing n with
  | nil => cases h
  | cons t rest ih =>
    rcases List.mem_append.mp h with h | h
    · obtain ⟨j, hj⟩ := List.getElem?_of_mem h
      rw [columnNames, getElem?_numberFrom] at hj
      obtain ⟨c, hc, heq⟩ := Option.map_eq_some_iff.mp hj
      cases heq
      have hcolumn : (t.spec.numbered (n + 1)).columns[j]? =
          some (c.spec.numbered (n + 1 + j + 1)) := by
        show (numberFrom ColumnSpec.numbered (n + 1) (t.columns.map SuggestedColumn.spec))[j]? = _
        rw [getElem?_numberFrom, List.getElem?_map, hc]
        rfl
      exact ⟨0, j, ⟨t, c, rfl, hc, rfl⟩, _, _, rfl, hcolumn, rfl⟩
    · obtain ⟨i, j, hold, u, d, hu, hd, rfl⟩ := ih h
      refine ⟨i + 1, j, hold, u, d, ?_, hd, rfl⟩
      rw [← hu, List.map_cons]
      show (numberTables (n + 1 + (t.columns.map SuggestedColumn.spec).length) _)[i]? = _
      rw [List.length_map]

theorem at_of_lookup {s : Suggestion} {e : SuggestedEnd} {e' : Endpoint}
    (h : (tableNames 0 s.tables).lookup e = some e') :
    ∃ i j, s.At i j e ∧ (numbered s.specs []).At i j e' := by
  obtain ⟨front, back, heq, -⟩ := List.lookup_eq_some_iff.mp h
  have hmem : (e, e') ∈ tableNames 0 s.tables := by simp [heq]
  obtain ⟨i, j, hold, hnew⟩ := at_of_mem_tableNames hmem
  rw [Schema.numbered_nil]
  exact ⟨i, j, hold, hnew⟩

/-! ## Tables -/

theorem addColumns_numbered (ts : List TableSpec) (name id : String) (ds : List ColumnSpec)
    (names : Renaming) (cs : List SuggestedColumn) :
    addColumns (.ofNumber (extent ts + 1)) id (numbered (ts ++ [⟨name, ds⟩]) []) names cs =
      .ok (numbered (ts ++ [⟨name, ds ++ cs.map SuggestedColumn.spec⟩]) [],
        names ++ columnNames id (extent ts + 1) (extent ts + 1 + ds.length) cs) := by
  induction cs generalizing ds names with
  | nil => simp [addColumns, columnNames, numberFrom]
  | cons c rest ih =>
    rw [addColumns, Schema.addColumn_numbered]
    refine (ih (ds ++ [c.spec]) _).trans ?_
    simp only [columnNames, numberFrom, List.map_cons, List.append_assoc, List.cons_append,
      List.nil_append, List.length_append, List.length_singleton, Nat.add_assoc]

theorem addTables_numbered (ts : List TableSpec) (names : Renaming) (us : List SuggestedTable) :
    addTables (numbered ts []) names us =
      .ok (numbered (ts ++ us.map SuggestedTable.spec) [], names ++ tableNames (extent ts) us) := by
  induction us generalizing ts names with
  | nil => simp [addTables, tableNames]
  | cons t rest ih =>
    rw [addTables, Schema.addTable_numbered]
    simp only [addColumns_numbered, List.nil_append]
    refine (ih (ts ++ [t.spec]) _).trans ?_
    have hextent : extent (ts ++ [t.spec]) = extent ts + 1 + t.columns.length := by
      rw [TableSpec.extent_append]
      simp only [extent, SuggestedTable.spec, List.length_map]
      omega
    rw [hextent, tableNames, List.append_assoc, List.append_assoc]
    rfl

/-! ## Relations -/

/-- The join is that of the relation, by what became of its ends. -/
structure Joins (names : Renaming) (r : SuggestedRelation) (j : Join) : Prop where
  source : names.lookup r.source = some j.source
  target : names.lookup r.target = some j.target
  cardinality : j.cardinality = r.cardinality

theorem addRelations_numbered {ts : List TableSpec} {names : Renaming}
    (hnames : ∀ e e', names.lookup e = some e' → (numbered ts []).HasEndpoint e')
    {rs : List SuggestedRelation} {ks : List Join} (h : List.Forall₂ (Joins names) rs ks)
    (js : List Join) (index : Nat) :
    addRelations names (numbered ts js) index rs = .ok (numbered ts (js ++ ks)) := by
  induction h generalizing js index with
  | nil => rw [List.append_nil, addRelations]
  | @cons r j rest ks hr _ ih =>
    obtain ⟨source, target, cardinality⟩ := j
    obtain ⟨hsource, htarget, rfl⟩ := hr
    rw [addRelations, hsource, htarget]
    simp only [Schema.connect_numbered (hnames _ _ hsource) (hnames _ _ htarget)]
    refine Eq.trans ?_ ((ih (js ++ [⟨source, target, r.cardinality⟩]) (index + 1)).trans ?_)
    · simp only [Except.mapError, bind, Except.bind, Schema.setCardinality_numbered]
    · rw [List.append_assoc]
      rfl

/-! ## The whole schema -/

/-- The schema says what the suggestion says: the same tables and columns, and one relation for
each suggested one, between columns in the same places. -/
structure Becomes (s : Suggestion) (g : Schema) : Prop where
  specs : g.specs = s.specs
  relations : List.Forall₂ (fun r q =>
      (∃ i j, s.At i j r.source ∧ g.At i j q.source) ∧
        (∃ i j, s.At i j r.target ∧ g.At i j q.target) ∧ q.cardinality = r.cardinality)
    s.relations g.relations
  foreignKeys : ∀ t ∈ g.tables, ∀ c ∈ t.columns,
    (c.isForeignKey = true ↔ ∃ q ∈ g.relations, q.target = ⟨t.id, c.id⟩)

variable {s : Suggestion}

theorem hasEndpoint_of_lookup {e : SuggestedEnd} {e' : Endpoint}
    (h : (tableNames 0 s.tables).lookup e = some e') :
    (numbered s.specs []).HasEndpoint e' := by
  obtain ⟨i, j, -, hat⟩ := at_of_lookup h
  exact hat.hasEndpoint

theorem toSchema_of_joins (hs : s.Valid) {ks : List Join}
    (h : List.Forall₂ (Joins (tableNames 0 s.tables)) s.relations ks) :
    s.toSchema = .ok (numbered s.specs ks) := by
  rw [toSchema, fault?_eq_none.mpr hs, ← Schema.numbered_nil_nil]
  simp only [addTables_numbered, List.nil_append]
  exact addRelations_numbered (fun _ _ => hasEndpoint_of_lookup) h [] 0

/-- A valid suggestion makes a schema that is numbered in order. -/
theorem Valid.exists_joins (hs : s.Valid) :
    ∃ ks, List.Forall₂ (Joins (tableNames 0 s.tables)) s.relations ks := by
  refine exists_forall₂_iff.mpr fun r hr => ?_
  obtain ⟨source, hsource⟩ := exists_lookup (hs.ends r hr).1
  obtain ⟨target, htarget⟩ := exists_lookup (hs.ends r hr).2
  exact ⟨⟨source, target, r.cardinality⟩, hsource, htarget, rfl⟩

theorem toSchema_eq_ok {g : Schema} :
    s.toSchema = .ok g ↔ s.Valid ∧
      ∃ ks, List.Forall₂ (Joins (tableNames 0 s.tables)) s.relations ks ∧
        g = numbered s.specs ks := by
  constructor
  · intro h
    have hs : s.Valid := by
      refine fault?_eq_none.mp ?_
      unfold toSchema at h
      split at h
      · cases h
      · next hnone => exact hnone
    obtain ⟨ks, hks⟩ := hs.exists_joins
    rw [toSchema_of_joins hs hks] at h
    cases h
    exact ⟨hs, ks, hks, rfl⟩
  · rintro ⟨hs, ks, hks, rfl⟩
    exact toSchema_of_joins hs hks

theorem toSchema_consistent {suggestion : Suggestion} {s : Schema}
    (h : suggestion.toSchema = .ok s) : s.Consistent := by
  obtain ⟨-, ks, hks, rfl⟩ := toSchema_eq_ok.mp h
  refine Schema.consistent_numbered fun j hj => ?_
  obtain ⟨r, -, hr⟩ := exists_left_of_forall₂ hks j hj
  exact ⟨hasEndpoint_of_lookup hr.source, hasEndpoint_of_lookup hr.target⟩

theorem becomes_of_toSchema {g : Schema} (h : s.toSchema = .ok g) : s.Becomes g := by
  have hconsistent := toSchema_consistent h
  obtain ⟨-, ks, hks, rfl⟩ := toSchema_eq_ok.mp h
  refine ⟨Schema.specs_numbered _ _, ?_, hconsistent.foreignKeys⟩
  refine forall₂_numberFrom (f := Join.numbered) (fun k r j hj => ?_) hks _
  obtain ⟨i, j', hsource, hsource'⟩ := at_of_lookup hj.source
  obtain ⟨k, l, htarget, htarget'⟩ := at_of_lookup hj.target
  exact ⟨⟨i, j', hsource, Schema.at_numbered_iff.mp hsource'⟩,
    ⟨k, l, htarget, Schema.at_numbered_iff.mp htarget'⟩, hj.cardinality⟩

/-- The checks leave nothing to fail at afterwards. -/
theorem fault?_of_toSchema {err : SuggestionError} (h : s.toSchema = .error err) :
    s.fault? = some err := by
  cases hfault : s.fault? with
  | none =>
    have hs := fault?_eq_none.mp hfault
    obtain ⟨ks, hks⟩ := hs.exists_joins
    rw [toSchema_of_joins hs hks] at h
    cases h
  | some err' =>
    rw [toSchema, hfault] at h
    cases h
    rfl

end Suggestion
end Schemata
