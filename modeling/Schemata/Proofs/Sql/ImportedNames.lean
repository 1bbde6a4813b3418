/-
Scripts that are read.  The body of a table is read with the names of its columns so far at hand, so
the columns of every table differ in name.  A schema that comes of a script is therefore numbered in
order, no name in it is used twice, and its relations are those of the links of the document.
-/
import Schemata.Proofs.Sql.Resolution
import Schemata.Sql.Import

namespace Schemata
namespace Sql

/-! ## Columns of one table -/

theorem length_columns_readItem {dialect : Dialect} {ts rest : List Lexeme} {body : Body}
    (h : readItem dialect ts = .ok (body, rest)) : body.columns.length ≤ 1 := by
  unfold readItem at h
  split at h
  · exact absurd h fail_ne_ok
  · split at h
    iterate 5
      focus
        obtain ⟨⟨constraint, mid⟩, -, h⟩ := ok_of_bind h
        cases h
        exact Nat.zero_le 1
    split at h
    · obtain ⟨mid, -, h⟩ := ok_of_bind h
      cases h
      exact Nat.zero_le 1
    · split at h
      · obtain ⟨⟨⟨column, constraints⟩, mid⟩, -, h⟩ := ok_of_bind h
        cases h
        exact Nat.le_refl 1
      · exact absurd h fail_ne_ok

theorem repeatedColumn?_eq_none_iff {taken : List String} {cs : List ColumnDef} :
    repeatedColumn? taken cs = none ↔ ∀ c ∈ cs, c.name ∉ taken := by
  simp [repeatedColumn?]

/-- The columns of a body differ in name from each other and from the names that were taken. -/
theorem names_readItems {dialect : Dialect} {taken : List String} {ts rest : List Lexeme}
    {body : Body} (h : readItems dialect taken ts = .ok (body, rest)) :
    (body.columns.map (·.name)).Nodup ∧ ∀ c ∈ body.columns, c.name ∉ taken := by
  have hitem : ∀ {ts mid : List Lexeme} {body : Body}, readItem dialect ts = .ok (body, mid) →
      (body.columns.map (·.name)).Nodup := by
    intro ts mid body hread
    have hlen := length_columns_readItem hread
    match body.columns, hlen with
    | [], _ => exact List.nodup_nil
    | [c], _ => exact List.nodup_singleton c.name
  fun_induction readItems dialect taken ts generalizing body rest with
  | case1 => cases h
  | case2 => cases h
  | case3 => cases h
  | case4 taken ts body' mid hread hnew last hseparator =>
    cases h
    exact ⟨hitem hread, repeatedColumn?_eq_none_iff.mp hnew⟩
  | case5 taken ts body' mid hread hnew last hseparator ih =>
    obtain ⟨⟨more, end'⟩, hmore, h⟩ := ok_of_bind h
    cases h
    obtain ⟨hnodup, hfresh⟩ := ih hmore
    have hnew' := repeatedColumn?_eq_none_iff.mp hnew
    show ((body'.columns ++ more.columns).map (·.name)).Nodup ∧
      ∀ c ∈ body'.columns ++ more.columns, c.name ∉ taken
    rw [List.map_append, List.nodup_append, List.forall_mem_append]
    refine ⟨⟨hitem hread, hnodup, ?_⟩, hnew', fun c hc hmem => ?_⟩
    · rintro name hname _ hname' rfl
      obtain ⟨c, hc, rfl⟩ := List.mem_map.mp hname'
      exact hfresh c hc (List.mem_append_right _ hname)
    · exact hfresh c hc (List.mem_append_left _ hmem)

theorem names_readCreate {dialect : Dialect} {ts : List Lexeme} {name : String} {body : Body}
    (h : readCreate dialect ts = .ok (name, body)) : (body.columns.map (·.name)).Nodup := by
  unfold readCreate at h
  obtain ⟨ts₁, -, h⟩ := ok_of_bind h
  obtain ⟨ts₂, -, h⟩ := ok_of_bind h
  obtain ⟨⟨name', ts₃⟩, -, h⟩ := ok_of_bind h
  obtain ⟨ts₄, -, h⟩ := ok_of_bind h
  dsimp only at h
  split at h
  · cases h
    exact List.nodup_nil
  · obtain ⟨⟨body', ts₅⟩, hread, h⟩ := ok_of_bind h
    cases h
    exact (names_readItems hread).1

/-! ## Documents -/

namespace Document

/-- The columns of every table differ in name. -/
def ColumnsDistinct (d : Document) : Prop := ∀ t ∈ d.specs, (t.columns.map (·.name)).Nodup

theorem columnsDistinct_read {dialect : Dialect} {s : Statement} {d : Document}
    (h : s.read dialect = .ok d) : d.ColumnsDistinct := by
  unfold Statement.read at h
  split at h
  · obtain ⟨⟨name, body⟩, hread, h⟩ := ok_of_bind h
    cases h
    intro t ht
    rw [List.mem_singleton.mp ht]
    show ((body.columns.map ColumnDef.spec).map (·.name)).Nodup
    rw [List.map_map]
    exact names_readCreate hread
  · obtain ⟨⟨name, constraints⟩, -, h⟩ := ok_of_bind h
    cases h
    exact fun t ht => by cases ht
  · exact absurd h fail_ne_ok

theorem columnsDistinct_ofStatements {dialect : Dialect} {ss : List Statement} {d : Document}
    (h : ofStatements dialect ss = .ok d) : d.ColumnsDistinct := by
  induction ss generalizing d with
  | nil =>
    cases h
    exact fun t ht => by cases ht
  | cons s ss ih =>
    rw [ofStatements] at h
    split at h
    · cases h
    · next first hread =>
      obtain ⟨more, hmore, h⟩ := ok_of_bind h
      cases h
      intro t ht
      have ht' : t ∈ (first ++ more).specs := ht
      rw [specs_append] at ht'
      rcases List.mem_append.mp ht' with ht' | ht'
      · exact columnsDistinct_read hread t ht'
      · exact ih hmore t ht'

theorem columnsDistinct_ofScript {text : String} {choice : DialectChoice} {d : Document}
    (h : ofScript text choice = .ok d) : d.ColumnsDistinct := by
  unfold ofScript at h
  split at h
  · cases h
  · obtain ⟨ss, -, h⟩ := ok_of_bind h
    exact columnsDistinct_ofStatements h

end Document

/-! ## Schemas -/

/-- What a schema that comes of a script is like, in terms of tables and links. -/
theorem schemaOf_eq_ok {options : ImportOptions} {text : String} {s : Schema}
    (h : schemaOf options text = .ok s) :
    ∃ ts ls js, TableSpec.Distinct ts ∧
      List.Forall₂ (Link.Joins options.inferOneToOne ts) ls js ∧ s = Schema.numbered ts js := by
  obtain ⟨d, hd, h⟩ := ok_of_bind h
  have hcolumns := Document.columnsDistinct_ofScript hd
  obtain ⟨hnodup, -, js, hjs, rfl⟩ := (Document.toSchema_eq_ok hcolumns).mp h
  exact ⟨d.marked, d.links, js, Document.distinct_marked ⟨hnodup, hcolumns⟩, hjs, rfl⟩

/-- Schemas that come of scripts are consistent. -/
theorem schemaOf_consistent {options : ImportOptions} {text : String} {s : Schema}
    (h : schemaOf options text = .ok s) : s.Consistent := by
  obtain ⟨ts, ls, js, -, hjs, rfl⟩ := schemaOf_eq_ok h
  exact consistent_of_joins hjs

end Sql
end Schemata
