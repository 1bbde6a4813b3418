/-
What the check of a schema reports.  It reports nothing exactly for consistent schemas, and what it
reports of another one is so.  An end of a relation is looked up in the first table with an id; that
this is the only one is known by then, because the tables are checked before.
-/
import Schemata.Proofs.Schema.Consistency

namespace Schemata

/-- What the violation says is so in the schema. -/
def Violation.Occurs (s : Schema) : Violation → Prop
  | .duplicateTable table => 2 ≤ (s.tables.map (·.id)).count table
  | .duplicateColumn e =>
    ∃ t ∈ s.tables, t.id = e.table ∧ 2 ≤ (t.columns.map (·.id)).count e.column
  | .duplicateRelation relation => 2 ≤ (s.relations.map (·.id)).count relation
  | .danglingTable relation table =>
    ∃ r ∈ s.relations, r.id = relation ∧ (r.source.table = table ∨ r.target.table = table) ∧
      ∀ t ∈ s.tables, t.id ≠ table
  | .danglingColumn relation e =>
    ∃ r ∈ s.relations, r.id = relation ∧ (r.source = e ∨ r.target = e) ∧
      (∃ t ∈ s.tables, t.id = e.table) ∧ ¬s.HasEndpoint e
  | .foreignKeyFlag e stored derived =>
    (∃ t ∈ s.tables, t.id = e.table ∧ ∃ c ∈ t.columns, c.id = e.column ∧ c.isForeignKey = stored) ∧
      (derived = true ↔ ∃ r ∈ s.relations, r.target = e) ∧ stored ≠ derived

namespace Schema

variable {s : Schema}

/-! ## Tables and columns -/

theorem occurs_of_tableViolation? {v : Violation} (h : tableViolation? [] s.tables = some v) :
    v.Occurs s := by
  rw [tableViolation?_eq] at h
  obtain ⟨t, ht, ⟨rfl, htable⟩ | ⟨c, rfl, hcount⟩⟩ := firstClash?_eq_some h
  · exact htable.resolve_left List.not_mem_nil
  · exact ⟨t, ht, rfl, hcount⟩

/-! ## Relations -/

theorem endpointViolation?_eq_some (h : s.UniqueIds) {id : RelationId} {e : Endpoint}
    {v : Violation} (hv : s.endpointViolation? id e = some v) :
    (v = .danglingTable id e.table ∧ ∀ t ∈ s.tables, t.id ≠ e.table) ∨
      v = .danglingColumn id e ∧ (∃ t ∈ s.tables, t.id = e.table) ∧ ¬s.HasEndpoint e := by
  have hend : ¬s.HasEndpoint e := fun hend => by
    rw [(endpointViolation?_eq_none h).mpr hend] at hv
    cases hv
  unfold endpointViolation? table? at hv
  cases ht : s.tables.find? (·.id == e.table) with
  | none =>
    rw [ht] at hv
    cases hv
    exact .inl ⟨rfl, fun t hmem hid => List.find?_eq_none.mp ht t hmem (by simp [hid])⟩
  | some t =>
    simp only [ht] at hv
    split at hv
    · cases hv
    · cases hv
      have hid : t.id = e.table := by simpa using List.find?_some ht
      exact .inr ⟨rfl, ⟨t, List.mem_of_find?_eq_some ht, hid⟩, hend⟩

theorem relationViolation?_eq_some {seen : List RelationId} {rs : List Relation} {v : Violation}
    (h : s.relationViolation? seen rs = some v) : ∃ r ∈ rs,
      (v = .duplicateRelation r.id ∧ (r.id ∈ seen ∨ 2 ≤ (rs.map (·.id)).count r.id)) ∨
        ∃ e, (r.source = e ∨ r.target = e) ∧ s.endpointViolation? r.id e = some v := by
  induction rs generalizing seen with
  | nil => cases h
  | cons r rest ih =>
    unfold relationViolation? at h
    split at h
    · next hseen =>
      cases h
      exact ⟨r, List.mem_cons_self, .inl ⟨rfl, .inl hseen⟩⟩
    · split at h
      · next v' hv =>
        cases h
        refine ⟨r, List.mem_cons_self, .inr ?_⟩
        rcases Option.or_eq_some_iff.mp hv with hsource | ⟨-, htarget⟩
        · exact ⟨r.source, .inl rfl, hsource⟩
        · exact ⟨r.target, .inr rfl, htarget⟩
      · obtain ⟨r', hr', ⟨rfl, hid⟩ | hend⟩ := ih h
        · refine ⟨r', List.mem_cons_of_mem _ hr', .inl ⟨rfl, ?_⟩⟩
          exact repeated_cons (List.mem_map_of_mem hr') hid
        · exact ⟨r', List.mem_cons_of_mem _ hr', .inr hend⟩

theorem occurs_of_relationViolation? (h : s.UniqueIds) {v : Violation}
    (hv : s.relationViolation? [] s.relations = some v) : v.Occurs s := by
  obtain ⟨r, hr, ⟨rfl, hid⟩ | ⟨e, he, hend⟩⟩ := relationViolation?_eq_some hv
  · exact hid.resolve_left List.not_mem_nil
  · obtain ⟨rfl, hnone⟩ | ⟨rfl, htable, hcolumn⟩ := endpointViolation?_eq_some h hend
    · exact ⟨r, hr, rfl, he.imp (congrArg _) (congrArg _), hnone⟩
    · exact ⟨r, hr, rfl, he, htable, hcolumn⟩

/-! ## Notes of foreign keys -/

theorem occurs_of_flagViolation? {t : Table} {c : Column} (ht : t ∈ s.tables) (hc : c ∈ t.columns)
    {v : Violation} (h : s.flagViolation? ⟨t.id, c.id⟩ c.isForeignKey = some v) : v.Occurs s := by
  unfold flagViolation? at h
  split at h
  · cases h
  · next hne =>
    cases h
    exact ⟨⟨t, ht, rfl, c, hc, rfl, rfl⟩, isForeignKey_iff, hne⟩

/-! ## The whole check -/

theorem occurs_of_violation? {v : Violation} (h : s.violation? = some v) : v.Occurs s := by
  rcases Option.or_eq_some_iff.mp h with htables | ⟨htables, h⟩
  · exact occurs_of_tableViolation? htables
  obtain ⟨⟨hnodup, -⟩, hcolumns⟩ := tableViolation?_eq_none.mp htables
  rcases Option.or_eq_some_iff.mp h with hrelations | ⟨-, hflags⟩
  · exact occurs_of_relationViolation? ⟨hnodup, hcolumns⟩ hrelations
  · obtain ⟨t, ht, hcolumn⟩ := List.exists_of_findSome?_eq_some hflags
    obtain ⟨c, hc, hflag⟩ := List.exists_of_findSome?_eq_some hcolumn
    exact occurs_of_flagViolation? ht hc hflag

/-- The check finds a breach exactly in schemas that are not consistent, and the breach is there. -/
theorem violation?_decides (s : Schema) :
    (s.violation? = none ↔ s.Consistent) ∧ ∀ v, s.violation? = some v → v.Occurs s :=
  ⟨violation?_eq_none, fun _ => occurs_of_violation?⟩

/-- The second relation leads to a missing column.  The third one repeats an id and leads from a
missing table, and both columns note the wrong thing. -/
def disordered : Schema :=
  ⟨[⟨⟨"t1"⟩, "a", [⟨⟨"c1"⟩, "x", .uuid, true, true, false, false⟩]⟩,
    ⟨⟨"t2"⟩, "b", [⟨⟨"c1"⟩, "x", .uuid, false, false, false, true⟩]⟩],
   [⟨⟨"r1"⟩, ⟨⟨"t1"⟩, ⟨"c1"⟩⟩, ⟨⟨"t2"⟩, ⟨"c1"⟩⟩, .oneToMany⟩,
    ⟨⟨"r2"⟩, ⟨⟨"t2"⟩, ⟨"c1"⟩⟩, ⟨⟨"t1"⟩, ⟨"c2"⟩⟩, .oneToOne⟩,
    ⟨⟨"r1"⟩, ⟨⟨"t3"⟩, ⟨"c1"⟩⟩, ⟨⟨"t1"⟩, ⟨"c2"⟩⟩, .oneToOne⟩], 4⟩

theorem violation?_disordered :
    disordered.violation? = some (.danglingColumn ⟨"r2"⟩ ⟨⟨"t1"⟩, ⟨"c2"⟩⟩) ∧
      (Violation.danglingColumn ⟨"r2"⟩ ⟨⟨"t1"⟩, ⟨"c2"⟩⟩).Occurs disordered := by
  have hfound : disordered.violation? = some (.danglingColumn ⟨"r2"⟩ ⟨⟨"t1"⟩, ⟨"c2"⟩⟩) := by
    decide
  exact ⟨hfound, (violation?_decides disordered).2 _ hfound⟩

end Schema
end Schemata
