/-
How many columns the foreign keys of a script list.  A foreign key makes a relation for each of its
columns.  Where it stands as a constraint of its own, it lists as many targets as columns or none;
where it stands at its column, it may list more targets, of which those after the first are ignored.
-/
import Schemata.Proofs.Sql.ImportedNames
import Schemata.Proofs.Sql.Parts
import Schemata.Proofs.Sql.Passing
import Schemata.Proofs.Sql.Splitting

namespace Schemata
namespace Sql

open Text (Position)

/-- The foreign key lists as many targets as columns or none, unless it stands at its only column,
with the word `REFERENCES` among the lexemes at the position. -/
def ForeignKey.ListedAt (key : ForeignKey) (ls : List Lexeme) (position : Position) : Prop :=
  key.targets = [] ∨ key.targets.length = key.columns.length ∨
    key.columns.length = 1 ∧ ∃ l ∈ ls, l.token = .keyword .references ∧ l.position = position

/-- If the constraint is a foreign key, it is one that can stand at the position. -/
def Constraint.ListedAt (c : Constraint) (ls : List Lexeme) (position : Position) : Prop :=
  ∀ key, c = .foreignKey key → key.ListedAt ls position

/-- All the constraints can stand where they do. -/
def AllListed (cs : List PlacedConstraint) (ls : List Lexeme) : Prop :=
  ∀ c ∈ cs, c.1.ListedAt ls c.2

theorem Constraint.ListedAt.mono {c : Constraint} {ls ks : List Lexeme} {position : Position}
    (h : c.ListedAt ls position) (hsub : ls ⊆ ks) : c.ListedAt ks position := by
  intro key hkey
  rcases h key hkey with hnil | hlen | ⟨hone, l, hl, hword⟩
  · exact .inl hnil
  · exact .inr (.inl hlen)
  · exact .inr (.inr ⟨hone, l, hsub hl, hword⟩)

theorem AllListed.mono {cs : List PlacedConstraint} {ls ks : List Lexeme} (h : AllListed cs ls)
    (hsub : ls ⊆ ks) : AllListed cs ks := fun c hc => (h c hc).mono hsub

theorem AllListed.append {cs ds : List PlacedConstraint} {ls : List Lexeme}
    (hcs : AllListed cs ls) (hds : AllListed ds ls) : AllListed (cs ++ ds) ls :=
  List.forall_mem_append.mpr ⟨hcs, hds⟩

variable {ts rest : List Lexeme}

/-! ## Constraints of their own -/

theorem listedAt_readConstraint {c : Constraint} (h : readConstraint ts = .ok (some c, rest))
    (ls : List Lexeme) (position : Position) : c.ListedAt ls position := by
  intro key hkey
  subst hkey
  unfold readConstraint at h
  split at h
  · exact absurd h fail_ne_ok
  · split at h
    · obtain ⟨mid, -, h⟩ := ok_of_bind h
      obtain ⟨columns, -, h⟩ := ok_of_bind h
      cases h
    · obtain ⟨columns, -, h⟩ := ok_of_bind h
      cases h
    · obtain ⟨⟨key', mid⟩, hkey, h⟩ := ok_of_bind h
      cases h
      obtain ⟨mid₁, -, hkey⟩ := ok_of_bind hkey
      obtain ⟨⟨columns, mid₂⟩, -, hkey⟩ := ok_of_bind hkey
      obtain ⟨mid₃, -, hkey⟩ := ok_of_bind hkey
      obtain ⟨⟨target, mid₄⟩, -, hkey⟩ := ok_of_bind hkey
      dsimp only at hkey
      split at hkey
      · next hlisted =>
        cases hkey
        rw [Bool.or_eq_true, List.isEmpty_iff, decide_eq_true_iff] at hlisted
        rcases hlisted with hnil | hlen
        · exact .inl hnil
        · exact .inr (.inl hlen)
      · exact absurd hkey fail_ne_ok
    · obtain ⟨group, -, h⟩ := ok_of_bind h
      cases h
    · exact absurd h fail_ne_ok

theorem allListed_of_readConstraint {c : Option Constraint}
    (h : readConstraint ts = .ok (c, rest)) (position : Position) (ls : List Lexeme) :
    AllListed (c.toList.map (·, position)) ls := by
  cases c with
  | none => exact fun _ hc => by cases hc
  | some c =>
    intro d hd
    rw [List.mem_singleton.mp hd]
    exact listedAt_readConstraint h ls position

theorem allListed_readAdditions {cs : List PlacedConstraint} (h : readAdditions ts = .ok cs)
    (ls : List Lexeme) : AllListed cs ls := by
  have haddition : ∀ {ts rest : List Lexeme} {cs : List PlacedConstraint},
      readAddition ts = .ok (cs, rest) → AllListed cs ls := by
    intro ts rest cs h
    unfold readAddition at h
    split at h
    · exact absurd h fail_ne_ok
    · obtain ⟨mid, -, h⟩ := ok_of_bind h
      split at h
      · obtain ⟨⟨constraint, mid'⟩, hconstraint, h⟩ := ok_of_bind h
        obtain ⟨mid'', -, h⟩ := ok_of_bind h
        cases h
        exact allListed_of_readConstraint hconstraint _ ls
      · exact absurd h fail_ne_ok
  fun_induction readAdditions ts generalizing cs with
  | case1 => cases h
  | case2 ts cs' hread =>
    cases h
    exact haddition hread
  | case3 ts cs' comma rest hread ih =>
    obtain ⟨more, hmore, h⟩ := ok_of_bind h
    cases h
    exact (haddition hread).append (ih hmore)

/-! ## References at their columns -/

/-- A reference at a column has the position of its first word. -/
theorem position_readColumnClause {l : Lexeme} {target : Target} {position : Position}
    (h : readColumnClause l ts = .ok (.references target position, rest)) :
    l.token = .keyword .references ∧ l.position = position := by
  unfold readColumnClause at h
  split at h
  all_goals try cases h
  iterate 2
    focus
      obtain ⟨mid, -, h⟩ := ok_of_bind h
      cases h
  · obtain ⟨mid, -, h⟩ := ok_of_bind h
    cases h
  · next hl =>
    obtain ⟨mid, -, h⟩ := ok_of_bind h
    cases h
    exact ⟨hl, rfl⟩
  iterate 2
    focus
      obtain ⟨mid, -, h⟩ := ok_of_bind h
      cases h
  · obtain ⟨mid, -, h⟩ := ok_of_bind h
    obtain ⟨mid', -, h⟩ := ok_of_bind h
    cases h
  · split at h
    · cases h
    · exact absurd h fail_ne_ok

theorem position_readColumnClauses {cs : List ColumnClause}
    (h : readColumnClauses ts = .ok (cs, rest)) {target : Target} {position : Position}
    (hmem : .references target position ∈ cs) :
    ∃ l ∈ ts, l.token = .keyword .references ∧ l.position = position := by
  fun_induction readColumnClauses ts generalizing cs with
  | case1 =>
    cases h
    cases hmem
  | case2 =>
    cases h
    cases hmem
  | case3 => cases h
  | case4 l tail _ clause mid hclause ih =>
    obtain ⟨⟨cs', r⟩, h₁, h₂⟩ := ok_of_bind h
    cases h₂
    rcases List.mem_cons.mp hmem with heq | hmem
    · rw [← heq] at hclause
      exact ⟨l, List.mem_cons_self, position_readColumnClause hclause⟩
    · obtain ⟨k, hk, hword⟩ := ih h₁ hmem
      have hpasses : Passes isComma 0 0 _ _ := passes_readColumnClause hclause
      exact ⟨k, hpasses.suffix.subset hk, hword⟩

theorem allListed_readColumn {dialect : Dialect} {c : ColumnDef} {cs : List PlacedConstraint}
    (h : readColumn dialect ts = .ok ((c, cs), rest)) : AllListed cs ts := by
  unfold readColumn at h
  split at h
  · exact absurd h fail_ne_ok
  · obtain ⟨⟨name, mid⟩, hname, h⟩ := ok_of_bind h
    obtain ⟨⟨raw, mid'⟩, htype, h⟩ := ok_of_bind h
    dsimp only at h
    split at h
    · exact absurd h fail_ne_ok
    · split at h
      · cases h
      · obtain ⟨⟨clauses, mid''⟩, hclauses, h⟩ := ok_of_bind h
        cases h
        intro d hd key hkey
        obtain ⟨clause, hclause, hconstraint⟩ := List.mem_filterMap.mp hd
        cases clause with
        | references target position =>
          cases hconstraint
          cases hkey
          obtain ⟨k, hk, hword⟩ := position_readColumnClauses hclauses hclause
          have hpasses : Passes isComma 0 0 _ _ := passes_readTypeName htype
          have hsuffix := hpasses.suffix.trans (plain_readName hname).suffix
          exact .inr (.inr ⟨rfl, k, hsuffix.subset hk, hword⟩)
        | _ => cases hconstraint

/-! ## Scripts -/

theorem allListed_readItem {dialect : Dialect} {b : Body}
    (h : readItem dialect ts = .ok (b, rest)) : AllListed b.constraints ts := by
  unfold readItem at h
  split at h
  · exact absurd h fail_ne_ok
  · split at h
    iterate 5
      focus
        obtain ⟨⟨constraint, mid⟩, hconstraint, h⟩ := ok_of_bind h
        cases h
        exact allListed_of_readConstraint hconstraint _ _
    split at h
    · obtain ⟨mid, -, h⟩ := ok_of_bind h
      cases h
      exact fun _ hc => by cases hc
    · split at h
      · obtain ⟨⟨⟨column, constraints⟩, mid⟩, hcolumn, h⟩ := ok_of_bind h
        cases h
        exact allListed_readColumn hcolumn
      · exact absurd h fail_ne_ok

theorem allListed_readItems {dialect : Dialect} {taken : List String} {b : Body}
    (h : readItems dialect taken ts = .ok (b, rest)) : AllListed b.constraints ts := by
  fun_induction readItems dialect taken ts generalizing b rest with
  | case1 => cases h
  | case2 => cases h
  | case3 => cases h
  | case4 taken ts body mid hitem _ last _ =>
    cases h
    exact allListed_readItem hitem
  | case5 taken ts body mid hitem _ last hseparator ih =>
    obtain ⟨⟨more, last'⟩, hmore, h⟩ := ok_of_bind h
    cases h
    obtain ⟨l, rfl, -⟩ := ok_readSeparator hseparator
    have hsuffix := (List.suffix_cons l last).trans (passes_readItem hitem).suffix
    exact (allListed_readItem hitem).append ((ih hmore).mono hsuffix.subset)

theorem allListed_readCreate {dialect : Dialect} {name : String} {b : Body}
    (h : readCreate dialect ts = .ok (name, b)) : AllListed b.constraints ts := by
  unfold readCreate at h
  obtain ⟨ts₁, htable, h⟩ := ok_of_bind h
  obtain ⟨ts₂, hexists, h⟩ := ok_of_bind h
  obtain ⟨⟨name', ts₃⟩, hname, h⟩ := ok_of_bind h
  obtain ⟨ts₄, hopen, h⟩ := ok_of_bind h
  dsimp only at h
  split at h
  · cases h
    exact fun _ hc => by cases hc
  · obtain ⟨⟨body, tail⟩, hitems, h⟩ := ok_of_bind h
    cases h
    obtain ⟨l, rfl, -⟩ := ok_expect hopen
    have hsuffix := (List.suffix_cons l _).trans (plain_createHead htable hexists hname).suffix
    exact (allListed_readItems hitems).mono hsuffix.subset

theorem listedAt_read {dialect : Dialect} {s : Statement} {part : Document}
    (h : s.read dialect = .ok part) :
    ∀ k ∈ part.constraints, k.constraint.ListedAt s.lexemes k.site.position := by
  have hdefs : ∀ {table : String} {cs : List PlacedConstraint}, AllListed cs s.lexemes →
      ∀ k ∈ s.constraintDefs table cs, k.constraint.ListedAt s.lexemes k.site.position := by
    intro table cs hcs k hk
    obtain ⟨c, hc, rfl⟩ := List.mem_map.mp hk
    exact hcs c hc
  unfold Statement.read at h
  split at h
  · obtain ⟨⟨name, body⟩, hcreate, h⟩ := ok_of_bind h
    cases h
    exact hdefs ((allListed_readCreate hcreate).mono (List.subset_cons_self _ _))
  · obtain ⟨⟨name, constraints⟩, halter, h⟩ := ok_of_bind h
    cases h
    obtain ⟨ts₁, -, halter⟩ := ok_of_bind halter
    obtain ⟨ts₂, -, halter⟩ := ok_of_bind halter
    obtain ⟨⟨name', ts₃⟩, -, halter⟩ := ok_of_bind halter
    obtain ⟨cs, hcs, halter⟩ := ok_of_bind halter
    cases halter
    exact hdefs (allListed_readAdditions hcs _)
  · exact absurd h fail_ne_ok

theorem Document.listedAt_ofScript {script : String} {choice : DialectChoice} {d : Document}
    (h : ofScript script choice = .ok d) :
    ∃ lexemes, tokenize script = .ok lexemes ∧
      ∀ k ∈ d.constraints, k.constraint.ListedAt lexemes k.site.position := by
  obtain ⟨lexemes, ss, parts, hlexemes, hss, hparts, rfl⟩ := ofScript_eq_ok.mp h
  refine ⟨lexemes, hlexemes, fun k hk => ?_⟩
  obtain ⟨part, hpart, hk⟩ := List.mem_flatMap.mp hk
  obtain ⟨s, hs, hread⟩ := exists_left_of_forall₂ hparts part hpart
  exact (listedAt_read hread k hk).mono (isInfix_of_splitStatements hss s hs).subset

/-! ## Relations -/

/-- The relations lead to the columns that the foreign key lists, one for each, and come from the
first of the targets that it lists, if it lists any. -/
def Rule.Makes (r : Rule) (s : Schema) (block : List Relation) : Prop :=
  match r.constraint with
  | .foreignKey key =>
    List.Forall₂ (fun column relation => s.Named r.table column relation.target) key.columns block ∧
      (key.targets ≠ [] →
        List.Forall₂ (fun target relation => s.Named key.table target relation.source)
          (key.targets.take key.columns.length) block)
  | _ => block = []

/-- There is a target for every column. -/
theorem length_columns_le {ts : List TableSpec} (hnames : TableSpec.Distinct ts)
    {key : ForeignKey} (hpaired : key.Paired ts) {ls : List Lexeme} {position : Position}
    (hlisted : key.ListedAt ls position) : key.columns.length ≤ (key.targetsIn ts).length := by
  unfold ForeignKey.targetsIn
  by_cases hempty : key.targets.isEmpty
  · obtain ⟨t, ht, hname, hlen⟩ := hpaired (List.isEmpty_iff.mp hempty)
    rw [if_pos hempty, ← hname, TableSpec.keyOf_eq hnames ht, hlen]
  · rw [if_neg hempty]
    have hpos : 0 < key.targets.length :=
      List.length_pos_iff.mpr (fun hnil => hempty (List.isEmpty_iff.mpr hnil))
    rcases hlisted with hnil | hlen | ⟨hone, -⟩
    · exact absurd (List.isEmpty_iff.mpr hnil) hempty
    · omega
    · omega

theorem makes_of_ends {s : Schema} {ts : List TableSpec} {r : Rule} {block : List Relation}
    (hlen : ∀ key, r.constraint = .foreignKey key →
      key.columns.length ≤ (key.targetsIn ts).length)
    (h : List.Forall₂ (fun l relation => Link.Ends s l relation.source relation.target)
      (r.links ts) block) : r.Makes s block := by
  obtain ⟨table, constraint⟩ := r
  cases constraint with
  | primaryKey columns => exact List.forall₂_nil_left_iff.mp h
  | unique columns => exact List.forall₂_nil_left_iff.mp h
  | foreignKey key =>
    have hlen' := hlen key rfl
    have hpairs := List.forall₂_map_left_iff.mp
      (show List.Forall₂ _ (key.links ts table) block from h)
    constructor
    · have hcolumns : (key.columns.zip (key.targetsIn ts)).map Prod.fst = key.columns :=
        List.map_fst_zip hlen'
      rw [← hcolumns]
      exact List.forall₂_map_left_iff.mpr (hpairs.imp fun _ _ hends => hends.2)
    · intro hne
      have hin : key.targetsIn ts = key.targets := by
        rw [ForeignKey.targetsIn, if_neg (by simpa using hne)]
      have htargets : (key.columns.zip (key.targetsIn ts)).map Prod.snd =
          key.targets.take key.columns.length := by
        rw [← hin, List.zip_eq_zip_take_min, Nat.min_eq_left hlen', List.take_length]
        exact List.map_snd_zip (List.length_take_le _ _)
      rw [← htargets]
      exact List.forall₂_map_left_iff.mpr (hpairs.imp fun _ _ hends => hends.1)

/-- The relations of an import fall into blocks, one for each constraint.  A foreign key makes one
for every column that it lists, and no target that it lists is ignored but after the first one of a
reference at a column. -/
theorem schemaOf_foreignKeys {options : ImportOptions} {text : String} {s : Schema}
    (h : schemaOf options text = .ok s) :
    ∃ d lexemes blocks, Document.ofScript text options.dialect = .ok d ∧
      tokenize text = .ok lexemes ∧ s.relations = blocks.flatten ∧
      List.Forall₂ (fun k block => k.rule.Makes s block) d.constraints blocks ∧
      ∀ k ∈ d.constraints, k.constraint.ListedAt lexemes k.site.position := by
  obtain ⟨d, hd, h⟩ := ok_of_bind h
  obtain ⟨lexemes, hlexemes, hlisted⟩ := Document.listedAt_ofScript hd
  have hcolumns := Document.columnsDistinct_ofScript hd
  obtain ⟨hnodup, hrules, js, hjs, rfl⟩ := (Document.toSchema_eq_ok hcolumns).mp h
  have hnames := Document.distinct_marked ⟨hnodup, hcolumns⟩
  have hlinked : LinkedBy (Schema.numbered d.marked js) d.links := linkedBy_numbered hjs
  unfold LinkedBy Document.links Document.rules at hlinked
  rw [List.flatMap_map] at hlinked
  obtain ⟨blocks, hblocks, hmakes⟩ := exists_flatten_of_forall₂ hlinked
  refine ⟨d, lexemes, blocks, hd, hlexemes, hblocks, ?_, hlisted⟩
  refine List.forall₂_iff_zip.mpr ⟨hmakes.length_eq, fun {k block} hmem => ?_⟩
  have hk : k ∈ d.constraints := (List.of_mem_zip hmem).1
  refine makes_of_ends (fun key hkey => ?_) (List.forall₂_zip hmakes hmem)
  have hpaired := (hrules _ (List.mem_map_of_mem hk)).2
  unfold Rule.Paired at hpaired
  rw [hkey] at hpaired
  exact length_columns_le hnames hpaired (hlisted k hk key hkey)

/-- The column refers to itself, and then it does so once more. -/
def twoKeys : String :=
  "create table a (b int primary key references a (b));" ++
    "alter table a add foreign key (b) references a"

def twoKeysSchema : Schema :=
  ⟨[⟨⟨"t1"⟩, "a", [⟨⟨"c2"⟩, "b", .integer, true, true, false, true⟩]⟩],
   [⟨⟨"r3"⟩, ⟨⟨"t1"⟩, ⟨"c2"⟩⟩, ⟨⟨"t1"⟩, ⟨"c2"⟩⟩, .oneToMany⟩,
    ⟨⟨"r4"⟩, ⟨⟨"t1"⟩, ⟨"c2"⟩⟩, ⟨⟨"t1"⟩, ⟨"c2"⟩⟩, .oneToMany⟩], 4⟩

theorem schemaOf_foreignKeys_twoKeys :
    schemaOf {} twoKeys = .ok twoKeysSchema ∧
      ∃ d lexemes blocks, Document.ofScript twoKeys .auto = .ok d ∧
        tokenize twoKeys = .ok lexemes ∧ twoKeysSchema.relations = blocks.flatten ∧
        List.Forall₂ (fun k block => k.rule.Makes twoKeysSchema block) d.constraints blocks ∧
        ∀ k ∈ d.constraints, k.constraint.ListedAt lexemes k.site.position := by
  have hread : schemaOf {} twoKeys = .ok twoKeysSchema := by decide +kernel
  exact ⟨hread, schemaOf_foreignKeys hread⟩

/-- The second target is no column of the table. -/
def surplusTarget : String := "CREATE TABLE a (id INT REFERENCES a (id, nosuch))"

/-- A surplus target is read, and then ignored. -/
theorem schemaOf_surplusTarget :
    Document.ofScript surplusTarget .auto =
      .ok ⟨[⟨"a", [⟨"id", .integer, false, false, true, ⟨1, 17⟩⟩], ⟨surplusTarget, ⟨1, 1⟩⟩⟩],
        [⟨"a", .foreignKey ⟨["id"], "a", ["id", "nosuch"]⟩, ⟨surplusTarget, ⟨1, 24⟩⟩⟩]⟩ ∧
    schemaOf {} surplusTarget =
      .ok ⟨[⟨⟨"t1"⟩, "a", [⟨⟨"c2"⟩, "id", .integer, false, true, false, true⟩]⟩],
        [⟨⟨"r3"⟩, ⟨⟨"t1"⟩, ⟨"c2"⟩⟩, ⟨⟨"t1"⟩, ⟨"c2"⟩⟩, .oneToMany⟩], 3⟩ := by
  constructor
  · decide +kernel
  · decide +kernel

end Sql
end Schemata
