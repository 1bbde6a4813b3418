/-
What becomes of a suggestion.  It is accepted exactly if it is valid, and then the schema says what
it says, except that the relations alone decide which columns are foreign keys.  If it is refused,
the reason given is so.
-/
import Schemata.Proofs.Suggestion.Building

namespace Schemata

/-! ## Suggested foreign keys -/

/-- The column without what it says about being a foreign key. -/
def SuggestedColumn.unnoted (c : SuggestedColumn) : SuggestedColumn :=
  { c with isForeignKey := false }

def SuggestedTable.unnoted (t : SuggestedTable) : SuggestedTable :=
  { t with columns := t.columns.map SuggestedColumn.unnoted }

theorem SuggestedTable.map_id_unnoted (t : SuggestedTable) :
    t.unnoted.columns.map (·.id) = t.columns.map (·.id) := by
  simp [unnoted, SuggestedColumn.unnoted, Function.comp_def]

namespace Suggestion

/-- The suggestion without what its columns say about being foreign keys. -/
def unnoted (s : Suggestion) : Suggestion :=
  { s with tables := s.tables.map SuggestedTable.unnoted }

theorem repeatedId?_unnoted (seen : List String) (ts : List SuggestedTable) :
    repeatedId? seen (ts.map SuggestedTable.unnoted) = repeatedId? seen ts := by
  induction ts generalizing seen with
  | nil => rfl
  | cons t rest ih =>
    rw [List.map_cons, repeatedId?, repeatedId?, SuggestedTable.map_id_unnoted, ih]
    rfl

theorem unknownEnd?_unnoted (s : Suggestion) (index : Nat) (e : SuggestedEnd) :
    s.unnoted.unknownEnd? index e = s.unknownEnd? index e := by
  have hfind : s.unnoted.tables.find? (·.id == e.table) =
      (s.tables.find? (·.id == e.table)).map SuggestedTable.unnoted := List.find?_map ..
  rw [unknownEnd?, unknownEnd?, hfind]
  cases s.tables.find? (·.id == e.table) with
  | none => rfl
  | some t =>
    have hany : t.unnoted.columns.any (·.id == e.column) = t.columns.any (·.id == e.column) :=
      List.any_map ..
    simp only [Option.map_some, hany]

theorem badRelation?_unnoted (s : Suggestion) (index : Nat) (rs : List SuggestedRelation) :
    s.unnoted.badRelation? index rs = s.badRelation? index rs := by
  induction rs generalizing index with
  | nil => rfl
  | cons r rest ih =>
    rw [badRelation?, badRelation?, unknownEnd?_unnoted, unknownEnd?_unnoted, ih]

theorem addColumns_unnoted (table : TableId) (id : String) (s : Schema) (names : Renaming)
    (cs : List SuggestedColumn) :
    addColumns table id s names (cs.map SuggestedColumn.unnoted) =
      addColumns table id s names cs := by
  induction cs generalizing s names with
  | nil => rfl
  | cons c rest ih =>
    rw [List.map_cons, addColumns, addColumns]
    simp only [ih]
    rfl

theorem addTables_unnoted (s : Schema) (names : Renaming) (ts : List SuggestedTable) :
    addTables s names (ts.map SuggestedTable.unnoted) = addTables s names ts := by
  induction ts generalizing s names with
  | nil => rfl
  | cons t rest ih =>
    rw [List.map_cons, addTables, addTables]
    simp only [ih, SuggestedTable.unnoted, addColumns_unnoted]

theorem toSchema_unnoted (s : Suggestion) : s.unnoted.toSchema = s.toSchema := by
  have hfault : s.unnoted.fault? = s.fault? := by
    rw [fault?, fault?, badRelation?_unnoted, ← repeatedId?_unnoted [] s.tables]
    rfl
  rw [toSchema, toSchema, hfault, ← addTables_unnoted .empty [] s.tables]
  rfl

/-! ## Main result -/

/-- Which suggestions are accepted, what becomes of them, and what is said of the others. -/
theorem toSchema_specification (s : Suggestion) :
    ((∃ g, s.toSchema = .ok g) ↔ s.Valid) ∧
      (∀ g, s.toSchema = .ok g → s.Becomes g ∧ g.violation? = none) ∧
      (∀ s' : Suggestion, s'.unnoted = s.unnoted → s'.toSchema = s.toSchema) ∧
      ∀ e, s.toSchema = .error e → s.Explains e := by
  refine ⟨⟨?_, ?_⟩, fun g h => ⟨becomes_of_toSchema h, ?_⟩, fun s' h => ?_, fun e h => ?_⟩
  · rintro ⟨g, h⟩
    exact (toSchema_eq_ok.mp h).1
  · intro h
    obtain ⟨ks, hks⟩ := h.exists_joins
    exact ⟨_, toSchema_of_joins h hks⟩
  · exact Schema.violation?_eq_none.mpr (toSchema_consistent h)
  · rw [← toSchema_unnoted s', h, toSchema_unnoted]
  · exact explains_of_fault? (fault?_of_toSchema h)

/-- The columns of different tables have the same id, and what they say about foreign keys is
wrong. -/
def sharedColumnId : Suggestion where
  tables := [
    ⟨"users", "user", [⟨"k", "id", .uuid, true, true, false, false⟩]⟩,
    ⟨"posts", "post", [⟨"k", "id", .uuid, true, false, false, false⟩,
      ⟨"u", "user_id", .uuid, false, false, true, true⟩]⟩]
  relations := [⟨⟨"users", "k"⟩, ⟨"posts", "u"⟩, .oneToOne⟩]

example : sharedColumnId.toSchema = .ok
    ⟨[⟨⟨"t1"⟩, "user", [⟨⟨"c2"⟩, "id", .uuid, true, false, false, false⟩]⟩,
      ⟨⟨"t3"⟩, "post", [⟨⟨"c4"⟩, "id", .uuid, true, false, false, false⟩,
        ⟨⟨"c5"⟩, "user_id", .uuid, false, true, true, true⟩]⟩],
     [⟨⟨"r6"⟩, ⟨⟨"t1"⟩, ⟨"c2"⟩⟩, ⟨⟨"t3"⟩, ⟨"c5"⟩⟩, .oneToOne⟩], 6⟩ := by
  decide +kernel

end Suggestion
end Schemata
