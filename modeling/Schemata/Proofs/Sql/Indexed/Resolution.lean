/-
Looking up names in an index of ids.  The index is filled while the tables are made, and whatever
changes the schema after that leaves ids and names alone, so what is filed under a name is always
what looking through the schema finds.  The ids in the index are those of tables and columns that
are there, so the operations find what they look up before they change anything.
-/
import Schemata.Proofs.Sql.ImportedNames
import Schemata.Proofs.Sql.Indexed.Splitting

namespace Schemata
namespace Sql

open Schema (KeepsIds)

/-! ## Files -/

/-- What is filed under each name goes with the first item of that name. -/
def Files (R : β → α → Prop) (name : α → String) (filed : List (String × β)) (xs : List α) :
    Prop :=
  ∀ key, Option.Rel R (filed.lookup key) (xs.find? (name · == key))

namespace Files

variable {R : β → α → Prop} {name : α → String} {filed : List (String × β)} {xs : List α}

theorem nil : Files R name [] [] := fun _ => .none

/-- An item of a new name comes last among the items and first in the file. -/
theorem concat (h : Files R name filed xs) {x : α} {b : β} (hb : R b x)
    (hx : ∀ y ∈ xs, name y ≠ name x) : Files R name ((name x, b) :: filed) (xs ++ [x]) := by
  intro key
  rw [List.find?_append]
  by_cases hkey : name x = key
  · subst hkey
    have hnone : xs.find? (name · == name x) = none :=
      List.find?_eq_none.mpr fun y hy => by simpa using hx y hy
    have hlast : [x].find? (name · == name x) = some x :=
      List.find?_cons_of_pos (beq_self_eq_true _)
    rw [hnone, Option.none_or, List.lookup_cons_self, hlast]
    exact .some hb
  · rw [List.lookup_cons, beq_false_of_ne (Ne.symm hkey),
      List.find?_cons_of_neg (by simpa using hkey), List.find?_nil, Option.or_none]
    exact h key

theorem map (h : Files R name filed xs) {f : α → α} (hname : ∀ x, name (f x) = name x)
    (hf : ∀ b x, R b x → R b (f x)) : Files R name filed (xs.map f) := by
  intro key
  have hkey : (fun x => name (f x) == key) = (name · == key) := funext fun x => by rw [hname]
  have hrel := h key
  rw [List.find?_map, Function.comp_def, hkey]
  generalize filed.lookup key = b?, xs.find? (name · == key) = x? at hrel ⊢
  cases hrel with
  | none => exact .none
  | some hb => exact .some (hf _ _ hb)

/-- Either nothing is filed under a name and no item has it, or what is filed goes with an item. -/
theorem lookup (h : Files R name filed xs) (key : String) :
    (filed.lookup key = none ∧ xs.find? (name · == key) = none) ∨
      ∃ b x, filed.lookup key = some b ∧ xs.find? (name · == key) = some x ∧ R b x ∧ x ∈ xs := by
  have hrel := h key
  generalize hfiled : filed.lookup key = b?, hfound : xs.find? (name · == key) = x? at hrel ⊢
  cases hrel with
  | none => exact .inl ⟨rfl, rfl⟩
  | some hb => exact .inr ⟨_, _, rfl, rfl, hb, List.mem_of_find?_eq_some hfound⟩

end Files

/-! ## Indices -/

/-- The ids of the columns are filed under their names. -/
abbrev FilesColumns : List (String × ColumnId) → List Column → Prop :=
  Files (fun id c => id = c.id) (·.name)

/-- The entry holds the ids of the table and of its columns. -/
structure IndexEntry.Names (entry : IndexEntry) (t : Table) : Prop where
  table : entry.table = t.id
  columns : FilesColumns entry.columns t.columns

/-- The index holds the ids of the tables and columns of a consistent schema. -/
structure NameIndex.Knows (index : NameIndex) (s : Schema) : Prop where
  consistent : s.Consistent
  tables : Files IndexEntry.Names (·.name) index s.tables

/-- Both are the same, and have a property. -/
def Same (P : α → Prop) (a b : α) : Prop := a = b ∧ P b

theorem Mirrors.mapM {reject : ε → ImportError} {P : β → Prop} {f : α → Except Halt β}
    {g : α → Except ε β} (h : ∀ x, Mirrors reject (Same P) (f x) (g x)) (xs : List α) :
    Mirrors reject (Same fun bs => ∀ b ∈ bs, P b) (xs.mapM f) (xs.mapM g) := by
  induction xs with
  | nil => exact .ok ⟨rfl, by simp⟩
  | cons x xs ih =>
    rw [List.mapM_cons, List.mapM_cons]
    refine (h x).bind ?_
    rintro _ b - ⟨rfl, hb⟩
    refine ih.bind ?_
    rintro _ bs - ⟨rfl, hbs⟩
    exact .ok ⟨rfl, List.forall_mem_cons.mpr ⟨hb, hbs⟩⟩

namespace NameIndex.Knows

variable {index : NameIndex} {s : Schema} {e : Endpoint}

/-! ## Changes -/

theorem files_mapColumns (h : index.Knows s) {g : Endpoint → Column → Column} (hid : KeepsIds g)
    (hname : ∀ e c, (g e c).name = c.name) :
    Files IndexEntry.Names (·.name) index (s.mapColumns g).tables := by
  refine h.tables.map (fun _ => rfl) fun entry t hentry => ⟨hentry.table, ?_⟩
  refine hentry.columns.map (fun c => hname _ c) ?_
  rintro id c rfl
  exact (hid _ c).symm

theorem modifyColumn (h : index.Knows s) {f : Column → Column} (hid : ∀ c, (f c).id = c.id)
    (hname : ∀ c, (f c).name = c.name) (hnote : ∀ c, (f c).isForeignKey = c.isForeignKey) :
    index.Knows (s.modifyColumn e f) := by
  refine ⟨h.consistent.modifyColumn hid fun c _ => hnote c, ?_⟩
  rw [Schema.modifyColumn_eq_mapColumns h.consistent.linked.toUniqueIds]
  refine h.files_mapColumns (fun e' c => ?_) fun e' c => ?_
  · split
    · exact hid c
    · rfl
  · split
    · exact hname c
    · rfl

theorem insertRelation (h : index.Knows s) {source target : Endpoint}
    (hsource : s.HasEndpoint source) (htarget : s.HasEndpoint target)
    (cardinality : Cardinality) :
    index.Knows (s.insertRelation source target cardinality).1 := by
  refine ⟨h.consistent.insertRelation hsource htarget cardinality, ?_⟩
  rw [Schema.insertRelation_eq_reconcile h.consistent]
  exact h.files_mapColumns (Schema.keepsIds_note _) fun _ _ => rfl

/-! ## Looking up -/

variable (d : ConstraintDef)

theorem table (h : index.Knows s) (name : String) :
    Mirrors (unresolved d) (fun entry t => IndexEntry.Names entry t ∧ t ∈ s.tables)
      (index.table d name) (findTable s name) := by
  rw [NameIndex.table, findTable, Schema.tableNamed?]
  rcases h.tables.lookup name with ⟨hfiled, hfound⟩ | ⟨entry, t, hfiled, hfound, hentry, ht⟩
  · rw [hfiled, hfound]
    exact .error (Reference.table name)
  · rw [hfiled, hfound]
    exact .ok ⟨hentry, ht⟩

theorem column (h : index.Knows s) (table column : String) :
    Mirrors (unresolved d) (Same s.HasEndpoint) (index.column d table column)
      (findColumn s table column) := by
  refine (h.table d table).bind fun entry t _ ⟨hentry, ht⟩ => ?_
  rw [Table.columnNamed?]
  rcases hentry.columns.lookup column with ⟨hfiled, hfound⟩ | ⟨id, c, hfiled, hfound, hid, hc⟩
  · rw [hfiled, hfound]
    exact .error (Reference.column table column)
  · rw [hfiled, hfound]
    refine .ok ⟨?_, t, ht, rfl, c, hc, rfl⟩
    rw [hentry.table, hid]

/-! ## Keys -/

theorem markPrimaryKey (h : index.Knows s) (columns : List String) :
    Mirrors (unresolved d) (Same index.Knows) (index.markPrimaryKey d s columns)
      (Sql.markPrimaryKey s d.table columns) := by
  induction columns generalizing s with
  | nil => exact .ok ⟨rfl, h⟩
  | cons column columns ih =>
    refine (h.column d d.table column).bind ?_
    rintro _ e - ⟨rfl, he⟩
    rw [Schema.updateColumn_of_hasEndpoint h.consistent he fun c => rfl]
    exact ih (h.modifyColumn (fun _ => rfl) (fun _ => rfl) fun _ => rfl)

theorem markUnique (h : index.Knows s) (columns : List String) :
    Mirrors (unresolved d) (Same index.Knows) (index.markUnique d s columns)
      (Sql.markUnique s d.table columns) := by
  refine (Mirrors.mapM (h.column d d.table) columns).bind ?_
  rintro es _ - ⟨rfl, hes⟩
  match es with
  | [] => exact .ok ⟨rfl, h⟩
  | [e] =>
    dsimp only
    rw [Schema.updateColumn_of_hasEndpoint h.consistent (hes e List.mem_cons_self) fun c => rfl]
    exact .ok ⟨rfl, h.modifyColumn (fun _ => rfl) (fun _ => rfl) fun _ => rfl⟩
  | _ :: _ :: _ => exact .ok ⟨rfl, h⟩

theorem applyKey (h : index.Knows s) :
    Mirrors (unresolved d) (Same index.Knows) (index.applyKey s d) (Sql.applyKey s d) := by
  rw [NameIndex.applyKey, Sql.applyKey]
  cases d.constraint with
  | primaryKey columns => exact h.markPrimaryKey d columns
  | unique columns => exact h.markUnique d columns
  | foreignKey key => exact .ok ⟨rfl, h⟩

/-! ## Foreign keys -/

theorem targetNames (h : index.Knows s) (key : ForeignKey) :
    Mirrors (unresolved d) Eq (index.targetNames s d key) (Sql.targetNames s key) := by
  refine .ite ((h.table d key.table).bind fun entry t _ ⟨hentry, ht⟩ => ?_) (.ok rfl)
  have hfound : s.table? entry.table = some t := by
    rw [hentry.table]
    exact (find?_eq_some_iff_mem h.consistent.tables_nodup).mpr ⟨ht, rfl⟩
  rw [hfound]
  exact .ite (.ok rfl) (.error (Reference.primaryKey key.table))

/-- A relation is made before its column is asked about and it gets its cardinality. -/
theorem relate_cons (h : s.Consistent) {referring referred : Endpoint}
    (hreferring : s.HasEndpoint referring) (hreferred : s.HasEndpoint referred)
    (inferOneToOne : Bool) (pairs : List (Endpoint × Endpoint)) :
    NameIndex.relate inferOneToOne s ((referring, referred) :: pairs) =
      NameIndex.relate inferOneToOne (s.insertRelation referred referring
        (inferredCardinality inferOneToOne s referring)).1 pairs := by
  rw [NameIndex.relate, Schema.connect_of_hasEndpoint h.linked.toUniqueIds hreferred hreferring]
  show (if inferOneToOne && isUniqueAlone (s.insertRelation referred referring .oneToMany).1
    referring then _ else _) = NameIndex.relate _ (s.insertRelation _ _ _).1 _
  rw [isUniqueAlone_insertRelation h hreferring, inferredCardinality]
  split
  · exact congrArg (operate · >>= fun s => NameIndex.relate inferOneToOne s pairs)
      (Schema.setCardinality_insertRelation s referred referring .oneToMany .oneToOne)
  · rfl

theorem relate (h : index.Knows s) (inferOneToOne : Bool) {pairs : List (Endpoint × Endpoint)}
    (hpairs : ∀ p ∈ pairs, s.HasEndpoint p.1 ∧ s.HasEndpoint p.2) :
    NameIndex.relate inferOneToOne s pairs = .ok (Sql.relate inferOneToOne s pairs) ∧
      index.Knows (Sql.relate inferOneToOne s pairs) := by
  induction pairs generalizing s with
  | nil => exact ⟨rfl, h⟩
  | cons p pairs ih =>
    obtain ⟨⟨hreferring, hreferred⟩, hrest⟩ := List.forall_mem_cons.mp hpairs
    rw [relate_cons h.consistent hreferring hreferred]
    refine ih (h.insertRelation hreferred hreferring _) fun p hp => ?_
    exact (hrest p hp).imp (·.insertRelation h.consistent _ _ _) (·.insertRelation h.consistent _ _ _)

theorem applyForeignKey (h : index.Knows s) (inferOneToOne : Bool) :
    Mirrors (unresolved d) (Same index.Knows) (index.applyForeignKey inferOneToOne s d)
      (Sql.applyForeignKey inferOneToOne s d) := by
  rw [NameIndex.applyForeignKey, Sql.applyForeignKey]
  cases d.constraint with
  | primaryKey columns => exact .ok ⟨rfl, h⟩
  | unique columns => exact .ok ⟨rfl, h⟩
  | foreignKey key =>
    have hpair : ∀ p : String × String, Mirrors (unresolved d)
        (Same fun p : Endpoint × Endpoint => s.HasEndpoint p.1 ∧ s.HasEndpoint p.2)
        (do
          let referring ← index.column d d.table p.1
          let referred ← index.column d key.table p.2
          return (referring, referred))
        (do
          let referring ← findColumn s d.table p.1
          let referred ← findColumn s key.table p.2
          return (referring, referred)) := by
      rintro ⟨column, target⟩
      refine (h.column d d.table column).bind ?_
      rintro _ referring - ⟨rfl, hreferring⟩
      refine (h.column d key.table target).bind ?_
      rintro _ referred - ⟨rfl, hreferred⟩
      exact .ok ⟨rfl, hreferring, hreferred⟩
    dsimp only
    rw [findPairs, bind_assoc]
    refine (h.targetNames d key).bind ?_
    rintro targets _ - rfl
    refine (Mirrors.mapM hpair _).bind ?_
    rintro pairs _ - ⟨rfl, hpairs⟩
    obtain ⟨hrelate, hknows⟩ := h.relate inferOneToOne hpairs
    rw [hrelate]
    exact .ok ⟨rfl, hknows⟩

/-! ## Tables -/

/-- The index knows the name of a table if and only if the schema has a table of that name. -/
theorem isSome_lookup (h : index.Knows s) (name : String) :
    (index.lookup name).isSome = (s.tableNamed? name).isSome := by
  rw [Schema.tableNamed?]
  rcases h.tables.lookup name with ⟨hfiled, hfound⟩ | ⟨entry, t, hfiled, hfound, -, -⟩
  · rw [hfiled, hfound]
    rfl
  · rw [hfiled, hfound]
    rfl

end NameIndex.Knows

namespace NameIndex

theorem knows_nil : Knows [] (Schema.numbered [] []) := by
  rw [Schema.numbered_nil_nil]
  exact ⟨Schema.consistent_empty, .nil⟩

/-- Columns are filed as they are numbered on. -/
theorem addColumns_numbered {ts : List TableSpec} {name : String} {cs : List ColumnSpec}
    {filed : List (String × ColumnId)} {ds : List ColumnDef}
    (hfiled : FilesColumns filed (numberFrom ColumnSpec.numbered (TableSpec.extent ts + 1) cs))
    (hnodup : ((cs ++ ds.map ColumnDef.spec).map (·.name)).Nodup) :
    ∃ filed', addColumns (.ofNumber (TableSpec.extent ts + 1))
        (Schema.numbered (ts ++ [⟨name, cs⟩]) []) filed ds =
          .ok (Schema.numbered (ts ++ [⟨name, cs ++ ds.map ColumnDef.spec⟩]) [], filed') ∧
      FilesColumns filed'
        (numberFrom ColumnSpec.numbered (TableSpec.extent ts + 1) (cs ++ ds.map ColumnDef.spec)) := by
  induction ds generalizing cs filed with
  | nil =>
    rw [List.map_nil, List.append_nil]
    exact ⟨filed, rfl, hfiled⟩
  | cons d ds ih =>
    have hcons : cs ++ (d :: ds).map ColumnDef.spec = cs ++ [d.spec] ++ ds.map ColumnDef.spec := by
      rw [List.map_cons, List.append_assoc, List.singleton_append]
    rw [hcons] at hnodup ⊢
    have hnew : ∀ c ∈ numberFrom ColumnSpec.numbered (TableSpec.extent ts + 1) cs,
        c.name ≠ d.name := by
      intro c hc heq
      obtain ⟨k, x, -, -, hx, rfl⟩ := mem_numberFrom hc
      rw [List.map_append, List.map_append] at hnodup
      have hdisjoint := (List.nodup_append.mp (List.nodup_append.mp hnodup).1).2.2
      exact hdisjoint x.name (List.mem_map_of_mem hx) d.name (by simp [ColumnDef.spec]) heq
    have hfiled' := hfiled.concat (x := d.spec.numbered (TableSpec.extent ts + 1 + cs.length + 1))
      rfl hnew
    rw [← numberFrom_concat] at hfiled'
    rw [addColumns, Schema.addColumn_numbered]
    exact ih hfiled' hnodup

/-- Tables are filed as they are numbered on. -/
theorem addTables_numbered {index : NameIndex} {ts : List TableSpec}
    (h : index.Knows (Schema.numbered ts [])) {ds : List TableDef}
    (hcolumns : ∀ d ∈ ds, (d.spec.columns.map (·.name)).Nodup) :
    Mirrors id (fun made s => made.1 = s ∧ made.2.Knows s)
      (addTables (Schema.numbered ts []) index ds) (declareTables (Schema.numbered ts []) ds) := by
  induction ds generalizing index ts with
  | nil => exact .ok ⟨rfl, h⟩
  | cons d ds ih =>
    obtain ⟨hd, hds⟩ := List.forall_mem_cons.mp hcolumns
    rw [addTables, declareTables, h.isSome_lookup]
    split
    · exact .error (ImportError.rejected (.malformed (.duplicateTable d.name)) d.site)
    · next hfound =>
      have hnodup : (([] ++ d.columns.map ColumnDef.spec).map ColumnSpec.name).Nodup := hd
      obtain ⟨filed, hadd, hfiled⟩ : ∃ filed, addColumns (.ofNumber (TableSpec.extent ts + 1))
          (Schema.numbered (ts ++ [⟨d.name, []⟩]) []) [] d.columns =
            .ok (Schema.numbered (ts ++ [d.spec]) [], filed) ∧
          FilesColumns filed (d.spec.numbered (TableSpec.extent ts + 1)).columns :=
        addColumns_numbered .nil hnodup
      rw [Schema.addTable_numbered, declareTable_numbered]
      dsimp only
      rw [hadd]
      have hnumbered : (Schema.numbered (ts ++ [d.spec]) []).tables =
          (Schema.numbered ts []).tables ++ [d.spec.numbered (TableSpec.extent ts + 1)] := by
        rw [Schema.numbered_nil, Schema.numbered_nil, TableSpec.numberTables_append, Nat.zero_add]
        rfl
      have hnew : ∀ t ∈ (Schema.numbered ts []).tables, t.name ≠ d.name := by
        have hnone := List.find?_eq_none.mp (Option.not_isSome_iff_eq_none.mp hfound)
        exact fun t ht heq => hnone t ht (by simpa using heq)
      refine ih ⟨Schema.consistent_numbered (by simp), ?_⟩ hds
      rw [hnumbered]
      exact h.tables.concat (x := d.spec.numbered (TableSpec.extent ts + 1)) ⟨rfl, hfiled⟩ hnew

end NameIndex

/-! ## Documents -/

theorem Mirrors.applyAll {step : Schema → ConstraintDef → Except Halt Schema}
    {step' : Schema → ConstraintDef → Except Reference Schema} {P : Schema → Prop}
    (h : ∀ s d, P s → Mirrors (unresolved d) (Same P) (step s d) (step' s d)) {s : Schema}
    (hs : P s) (ds : List ConstraintDef) :
    Mirrors id (Same P) (ds.foldlM step s) (Sql.applyAll step' s ds) := by
  induction ds generalizing s with
  | nil => exact .ok ⟨rfl, hs⟩
  | cons d ds ih =>
    have hd := h s d hs
    rw [List.foldlM_cons, Sql.applyAll]
    generalize step s d = x, step' s d = y at hd ⊢
    cases hd with
    | ok hsame =>
      obtain ⟨rfl, hs'⟩ := hsame
      exact ih hs'
    | error reference => exact .error (unresolved d reference)

/-- A document is resolved by ids as it is resolved by names, and no breach is run into. -/
theorem Document.indexedSchema_eq {d : Document} (h : d.ColumnsDistinct) (inferOneToOne : Bool) :
    d.indexedSchema inferOneToOne = (d.toSchema inferOneToOne).mapError Halt.rejected := by
  have htables : Mirrors id (fun made s => made.1 = s ∧ made.2.Knows s)
      (NameIndex.addTables .empty [] d.tables) (declareTables .empty d.tables) := by
    rw [← Schema.numbered_nil_nil]
    exact NameIndex.addTables_numbered NameIndex.knows_nil fun t ht => h _ (List.mem_map_of_mem ht)
  have hmirrors : Mirrors id Eq (d.indexedSchema inferOneToOne) (d.toSchema inferOneToOne) := by
    refine htables.bind ?_
    rintro ⟨s, index⟩ _ - ⟨rfl, hknows⟩
    refine (Mirrors.applyAll (fun s d hs => hs.applyKey d) hknows _).bind ?_
    rintro s _ - ⟨rfl, hknows⟩
    exact (Mirrors.applyAll (fun s d hs => hs.applyForeignKey d inferOneToOne) hknows _).mono
      fun _ _ hsame => hsame.1
  exact hmirrors.eq_mapError

/-! ## Scripts -/

/-- An import by indices, offsets and ids comes to what an import by lists and names comes to.  It
never runs into a breach: whatever stops it is wrong with the script. -/
theorem indexedSchemaOf_eq_schemaOf (options : ImportOptions) (text : String) :
    indexedSchemaOf options text = (schemaOf options text).mapError Halt.rejected ∧
      ∀ halt, indexedSchemaOf options text = .error halt →
        (∃ e, halt = .rejected (.lexical e)) ∨
          ∃ cause site, halt = .rejected (.rejected cause site) ∧
            ((∃ fault, cause = .malformed fault) ∨
              (∃ typeName column, cause = .unsupportedType typeName column) ∨
                ∃ reference, cause = .unresolved reference) := by
  have heq : indexedSchemaOf options text = (schemaOf options text).mapError Halt.rejected := by
    rw [indexedSchemaOf, schemaOf, Document.indexed_eq]
    cases hdocument : Document.ofScript text options.dialect with
    | error e => rfl
    | ok d => exact Document.indexedSchema_eq (Document.columnsDistinct_ofScript hdocument) _
  refine ⟨heq, fun halt hhalt => ?_⟩
  rw [heq] at hhalt
  cases hschema : schemaOf options text with
  | ok s =>
    rw [hschema] at hhalt
    cases hhalt
  | error e =>
    rw [hschema] at hhalt
    cases hhalt
    cases e with
    | lexical e => exact .inl ⟨e, rfl⟩
    | rejected cause site =>
      refine .inr ⟨cause, site, rfl, ?_⟩
      cases cause with
      | malformed fault => exact .inl ⟨fault, rfl⟩
      | unsupportedType typeName column => exact .inr (.inl ⟨typeName, column, rfl⟩)
      | unresolved reference => exact .inr (.inr ⟨reference, rfl⟩)

end Sql
end Schemata
