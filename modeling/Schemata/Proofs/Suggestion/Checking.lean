/-
Checking a suggestion.  The check finds no fault exactly in the suggestions that use no id twice and
relate declared columns only, and if it finds one then what it reports is so.
-/
import Schemata.Proofs.Schema.Consistency
import Schemata.Suggestion

namespace Schemata

namespace Suggestion

/-- Some table has the id of the end's table, and one of its columns that of the end's column. -/
def Declares (s : Suggestion) (e : SuggestedEnd) : Prop :=
  ∃ t ∈ s.tables, t.id = e.table ∧ ∃ c ∈ t.columns, c.id = e.column

/-- No id is used twice for tables, or twice for columns of one table, and relations lead from
declared columns to declared columns. -/
structure Valid (s : Suggestion) : Prop where
  tables : (s.tables.map (·.id)).Nodup
  columns : ∀ t ∈ s.tables, (t.columns.map (·.id)).Nodup
  ends : ∀ r ∈ s.relations, s.Declares r.source ∧ s.Declares r.target

/-- What the error says of the suggestion is so. -/
def Explains (s : Suggestion) : SuggestionError → Prop
  | .duplicateTable table => 2 ≤ (s.tables.map (·.id)).count table
  | .duplicateColumn table column =>
    ∃ t ∈ s.tables, t.id = table ∧ 2 ≤ (t.columns.map (·.id)).count column
  | .unknownTable relation table =>
    ∃ r, s.relations[relation]? = some r ∧ (r.source.table = table ∨ r.target.table = table) ∧
      ∀ t ∈ s.tables, t.id ≠ table
  | .unknownColumn relation table column =>
    ∃ r, s.relations[relation]? = some r ∧
      (r.source = ⟨table, column⟩ ∨ r.target = ⟨table, column⟩) ∧
      (∃ t ∈ s.tables, t.id = table) ∧ ¬s.Declares ⟨table, column⟩
  -- A check neither asks a service nor changes a schema.
  | .service _ | .malformed | .missing _ => False

/-! ## Ids -/

theorem repeatedId?_eq_none {seen : List String} {ts : List SuggestedTable} :
    repeatedId? seen ts = none ↔
      ((ts.map (·.id)).Nodup ∧ ∀ t ∈ ts, t.id ∉ seen) ∧
        ∀ t ∈ ts, (t.columns.map (·.id)).Nodup := by
  induction ts generalizing seen with
  | nil => simp [repeatedId?]
  | cons t rest ih =>
    unfold repeatedId?
    split
    · next column hcolumn =>
      have hcolumns : ¬(t.columns.map (·.id)).Nodup := by
        simp [nodup_iff_firstRepeated?, hcolumn]
      simp [hcolumns]
    · next hnone =>
      have hcolumns := nodup_iff_firstRepeated?.mpr hnone
      split
      · next hseen => simp [hseen]
      · next hseen =>
        rw [ih, unseen_cons hseen]
        simp only [List.forall_mem_cons, hcolumns, true_and]

theorem repeatedId?_eq_some {seen : List String} {ts : List SuggestedTable} {e : SuggestionError}
    (h : repeatedId? seen ts = some e) : ∃ t ∈ ts,
      (∃ column, e = .duplicateColumn t.id column ∧ 2 ≤ (t.columns.map (·.id)).count column) ∨
        e = .duplicateTable t.id ∧ (t.id ∈ seen ∨ 2 ≤ (ts.map (·.id)).count t.id) := by
  induction ts generalizing seen with
  | nil => cases h
  | cons t rest ih =>
    unfold repeatedId? at h
    split at h
    · next column hcolumn =>
      cases h
      obtain ⟨-, hcount⟩ := firstRepeated?_eq_some hcolumn
      exact ⟨t, List.mem_cons_self, .inl ⟨column, rfl, hcount.resolve_left List.not_mem_nil⟩⟩
    · split at h
      · next hseen =>
        cases h
        exact ⟨t, List.mem_cons_self, .inr ⟨rfl, .inl hseen⟩⟩
      · obtain ⟨u, hu, hcolumn | ⟨rfl, htable⟩⟩ := ih h
        · exact ⟨u, List.mem_cons_of_mem _ hu, .inl hcolumn⟩
        · refine ⟨u, List.mem_cons_of_mem _ hu, .inr ⟨rfl, ?_⟩⟩
          exact repeated_cons (List.mem_map_of_mem hu) htable

/-! ## Relations -/

variable {s : Suggestion}

theorem unknownEnd?_eq_none (h : (s.tables.map (·.id)).Nodup) {index : Nat} {e : SuggestedEnd} :
    s.unknownEnd? index e = none ↔ s.Declares e := by
  have hfind : ∀ t, s.tables.find? (·.id == e.table) = some t ↔ t ∈ s.tables ∧ t.id = e.table :=
    fun t => find?_eq_some_iff_mem h
  unfold unknownEnd?
  constructor
  · intro hnone
    split at hnone
    · cases hnone
    · next t ht =>
      obtain ⟨hmem, hid⟩ := (hfind t).mp ht
      split at hnone
      · next hany => exact ⟨t, hmem, hid, by simpa using hany⟩
      · cases hnone
  · rintro ⟨t, ht, hid, c, hc, hcid⟩
    have hany : t.columns.any (·.id == e.column) = true :=
      List.any_eq_true.mpr ⟨c, hc, beq_iff_eq.mpr hcid⟩
    simp only [(hfind t).mpr ⟨ht, hid⟩, hany, if_true]

theorem unknownEnd?_eq_some (h : (s.tables.map (·.id)).Nodup) {index : Nat} {e : SuggestedEnd}
    {err : SuggestionError} (herr : s.unknownEnd? index e = some err) :
    (err = .unknownTable index e.table ∧ ∀ t ∈ s.tables, t.id ≠ e.table) ∨
      err = .unknownColumn index e.table e.column ∧ (∃ t ∈ s.tables, t.id = e.table) ∧
        ¬s.Declares e := by
  have hundeclared : ¬s.Declares e := by
    intro hdeclares
    rw [(unknownEnd?_eq_none h).mpr hdeclares] at herr
    cases herr
  unfold unknownEnd? at herr
  split at herr
  · next hnone =>
    cases herr
    exact .inl ⟨rfl, fun t ht hid => List.find?_eq_none.mp hnone t ht (beq_iff_eq.mpr hid)⟩
  · next t ht =>
    split at herr
    · cases herr
    · cases herr
      have hid : t.id = e.table := by simpa using List.find?_some ht
      exact .inr ⟨rfl, ⟨t, List.mem_of_find?_eq_some ht, hid⟩, hundeclared⟩

theorem badRelation?_eq_none (h : (s.tables.map (·.id)).Nodup) {index : Nat}
    {rs : List SuggestedRelation} :
    s.badRelation? index rs = none ↔ ∀ r ∈ rs, s.Declares r.source ∧ s.Declares r.target := by
  induction rs generalizing index with
  | nil => simp [badRelation?]
  | cons r rest ih =>
    have hends : (s.unknownEnd? index r.source).or (s.unknownEnd? index r.target) = none ↔
        s.Declares r.source ∧ s.Declares r.target := by
      rw [Option.or_eq_none_iff, unknownEnd?_eq_none h, unknownEnd?_eq_none h]
    rw [List.forall_mem_cons, ← hends, badRelation?]
    split
    · next err herr => simp [herr]
    · next hnone => rw [ih]; simp [hnone]

/-- A fault in a relation is one in an end of it, under the index of the relation. -/
theorem badRelation?_eq_some {index : Nat} {rs : List SuggestedRelation} {err : SuggestionError}
    (h : s.badRelation? index rs = some err) : ∃ i r e, rs[i]? = some r ∧
      (r.source = e ∨ r.target = e) ∧ s.unknownEnd? (index + i) e = some err := by
  induction rs generalizing index with
  | nil => cases h
  | cons r rest ih =>
    unfold badRelation? at h
    split at h
    · next err' herr =>
      cases h
      rcases Option.or_eq_some_iff.mp herr with hsource | ⟨-, htarget⟩
      · exact ⟨0, r, r.source, rfl, .inl rfl, hsource⟩
      · exact ⟨0, r, r.target, rfl, .inr rfl, htarget⟩
    · obtain ⟨i, r', e, hr', he, hend⟩ := ih h
      rw [Nat.add_assoc, Nat.add_comm 1] at hend
      exact ⟨i + 1, r', e, hr', he, hend⟩

/-! ## The whole check -/

theorem fault?_eq_none : s.fault? = none ↔ s.Valid := by
  rw [fault?, Option.or_eq_none_iff, repeatedId?_eq_none]
  constructor
  · rintro ⟨⟨⟨htables, -⟩, hcolumns⟩, hrelations⟩
    exact ⟨htables, hcolumns, (badRelation?_eq_none htables).mp hrelations⟩
  · intro h
    exact ⟨⟨⟨h.tables, by simp⟩, h.columns⟩, (badRelation?_eq_none h.tables).mpr h.ends⟩

theorem explains_of_fault? {err : SuggestionError} (h : s.fault? = some err) : s.Explains err := by
  rcases Option.or_eq_some_iff.mp h with hids | ⟨hids, hrelations⟩
  · obtain ⟨t, ht, ⟨column, rfl, hcount⟩ | ⟨rfl, hcount⟩⟩ := repeatedId?_eq_some hids
    · exact ⟨t, ht, rfl, hcount⟩
    · exact hcount.resolve_left List.not_mem_nil
  · have htables := (repeatedId?_eq_none.mp hids).1.1
    obtain ⟨i, r, e, hr, he, hend⟩ := badRelation?_eq_some hrelations
    rw [Nat.zero_add] at hend
    obtain ⟨rfl, hunknown⟩ | ⟨rfl, hknown, hundeclared⟩ := unknownEnd?_eq_some htables hend
    · have htable := he.imp (congrArg SuggestedEnd.table) (congrArg SuggestedEnd.table)
      exact ⟨r, hr, htable, hunknown⟩
    · exact ⟨r, hr, he, hknown, hundeclared⟩

end Suggestion
end Schemata
