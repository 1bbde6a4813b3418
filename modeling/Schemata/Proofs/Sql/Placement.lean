/-
The place of a constraint does not matter.  A key in the body of a table may be added to the table
by a statement of its own instead, and a key or a reference at a column may be a constraint on the
whole table.
-/
import Schemata.Proofs.Sql.Reordering
import Schemata.Proofs.Sql.Respelling

namespace Schemata
namespace Sql

/-! ## Named actions -/

/-- The tokens that may stand after `MATCH`, or after `SET` or `NO` of an action: names, `NULL` and
`DEFAULT`. -/
def isActionWord : Token → Bool
  | .ident _ | .quoted _ | .keyword .null | .keyword .default => true
  | _ => false

/-- All clauses of references that take a further word have one. -/
def ActionsNamed (ls : List Lexeme) : Prop :=
  ∀ ts ∈ ls.tails, ∀ t ∈ unseen? ts, isActionWord t = true

theorem isDivider_of_isActionWord {t : Token} (h : isActionWord t = true) :
    isDivider t = false := by
  unfold isActionWord at h
  split at h <;> first | rfl | cases h

namespace ActionsNamed

variable {ls ks : List Lexeme}

theorem of_isInfix (h : ActionsNamed ls) (hks : ks <:+: ls) : ActionsNamed ks := by
  intro ts hts t ht
  obtain ⟨before, after, rfl⟩ := hks
  have hsuffix : ts ++ after <:+ before ++ ks ++ after := by
    obtain ⟨used, rfl⟩ := (List.mem_tails _ _).mp hts
    exact ⟨before ++ used, by simp⟩
  exact h _ ((List.mem_tails _ _).mpr hsuffix) t (unseen?_append ht after)

theorem marksSeen (h : ActionsNamed ls) : MarksSeen ls := by
  intro ts hts t ht
  exact (Bool.or_eq_false_iff.mp (isDivider_of_isActionWord (h ts hts t ht))).1

theorem breaksSeen (h : ActionsNamed ls) {breaks : Token → Bool}
    (hbreaks : ∀ t, breaks t = true → isDivider t = true) : BreaksSeen breaks ls := by
  refine ⟨hbreaks, fun ts hts t ht => ⟨h.marksSeen ts hts t ht, ?_⟩⟩
  apply Bool.of_not_eq_true
  intro hbreak
  have hdivider := hbreaks t hbreak
  rw [isDivider_of_isActionWord (h ts hts t ht)] at hdivider
  cases hdivider

end ActionsNamed

/-! ## Bodies of tables in a script -/

section

variable {text : String} {choice : DialectChoice} {d : Document} {table : String}
  {opened ls : List Lexeme}

/-- Behind a token of a script comes the mark of its end, and there is no such mark before. -/
theorem exists_tail_of_tokenize {l : Lexeme} {rest : List Lexeme}
    (h : tokenize text = .ok (ls ++ l :: rest)) (hl : l.token ≠ .eof) :
    ∃ tail e, rest = tail ++ [e] ∧ e.token = .eof ∧ ∀ k ∈ ls ++ l :: tail, k.token ≠ .eof := by
  have hinside := token_ne_eof_of_tokenize h
  obtain ⟨init, e, hinit, he⟩ : ∃ init e, ls ++ l :: rest = init ++ [e] ∧ e.token = .eof := by
    obtain ⟨ps, gap, -, -, -, hls⟩ := tokenize_eq_ok.mp h
    rw [locate_append, locate, locate] at hls
    exact ⟨_, _, hls, rfl⟩
  rcases List.eq_nil_or_concat rest with rfl | ⟨tail, k, rfl⟩
  · obtain ⟨-, hlast⟩ := List.append_inj' hinit rfl
    rw [(List.cons.inj hlast).1] at hl
    exact absurd he hl
  · rw [List.concat_eq_append, ← List.cons_append, ← List.append_assoc] at hinit hinside
    obtain ⟨rfl, hlast⟩ := List.append_inj' hinit rfl
    rw [List.dropLast_concat] at hinside
    exact ⟨tail, k, List.concat_eq_append, (List.cons.inj hlast).1 ▸ he, hinside⟩

/-- The body of a table in a script, and what the script says with another body in its place. -/
theorem Document.exists_body (hd : ofScript text choice = .ok d)
    (hls : tokenize text = .ok (opened ++ ls)) (hnamed : ActionsNamed (opened ++ ls))
    (hopened : OpensBody table opened ls) (hnil : ls ≠ []) (hne : nextToken ls ≠ .rightParen) :
    ∃ inner close rest b before after, ls = inner ++ close :: rest ∧ close.token = .rightParen ∧
      ReadsItems (choice.resolve (opened ++ ls)) [] inner b ∧
      d.content = joinContents (before ++ createContent (table, b) :: after) ∧
      ∀ inner' b', ReadsBody (choice.resolve (opened ++ ls)) inner' b' →
        (∀ l ∈ inner', l.token ≠ .eof) →
        ∃ qs, Splits (opened ++ (inner' ++ close :: rest)) qs ∧
          List.Forall₂ (fun run c => runContent (choice.resolve (opened ++ ls)) run = .ok c) qs
            (before ++ createContent (table, b') :: after) := by
  obtain ⟨ks, rs, cs, hks, hrs, hcs, hjoin⟩ := exists_ofScript_iff.mp ⟨d, hd, rfl⟩
  obtain rfl : ks = opened ++ ls := Except.ok.inj (hks.symm.trans hls)
  have hinside : ∀ l ∈ opened, l.token ≠ .eof := by
    intro l hl
    refine token_ne_eof_of_tokenize hls l ?_
    rw [List.dropLast_append_of_ne_nil hnil]
    exact List.mem_append_left _ hl
  have hseen : ∀ run ∈ rs, MarksSeen run := fun run hrun =>
    (hnamed.of_isInfix (hrs.isInfix run hrun)).marksSeen
  obtain ⟨inner, close, rest, b, before, after, rfl, hclose, hitems, rfl, hother⟩ :=
    Sql.exists_body hopened hne hinside hrs hseen hcs
  exact ⟨inner, close, rest, b, before, after, rfl, hclose, hitems, hjoin.symm, hother⟩

end

/-! ## The schema of a restated document -/

section

variable {before others : List (List TableSpec × List Rule)} {table name : String} {b₁ b₂ : Body}
  {column : ColumnDef} {constraints : List PlacedConstraint} {rest clause item : List Lexeme}
  {c : ColumnClause} {k : Constraint} {position : Text.Position}

/-- A constraint that is added to its table later is the same rule. -/
theorem Document.rules_perm_of_added {d d' : Document}
    (hd : d.content = joinContents (before ++ createContent (table,
      b₁ ++ (⟨[], [(k, position)]⟩ ++ b₂)) :: others))
    (hd' : d'.content = joinContents (before ++ createContent (table, b₁ ++ b₂) :: others ++
      [([], [⟨table, k⟩])])) :
    d'.specs = d.specs ∧ d'.rules.Perm d.rules := by
  rw [show d.specs = d.content.1 from rfl, show d'.specs = d'.content.1 from rfl,
    show d.rules = d.content.2 from rfl, show d'.rules = d'.content.2 from rfl, hd, hd']
  constructor
  · simp [joinContents, createContent, Body.columns_append]
  · simp only [joinContents, List.flatMap_append, List.flatMap_cons, List.flatMap_nil,
      createContent, Body.constraints_append, List.map_append, List.append_nil, List.append_assoc,
      List.map_cons, List.singleton_append]
    refine (((List.Perm.append_left _ ?_)).append_left _)
    rw [← List.append_assoc]
    exact List.perm_append_singleton _ _

/-- Whether a rule may mark nothing but the one column. -/
def Rule.MarksOnly (r : Rule) (table name : String) : Prop :=
  ∀ table' name', (table', name') ≠ (table, name) →
    r.marksKey table' name' = false ∧ r.marksUnique table' name' = false

theorem mark_eq_self {r : Rule} {table' : String} {s : ColumnSpec}
    (h : r.marksKey table' s.name = false ∧ r.marksUnique table' s.name = false) :
    mark [r] table' s = s := by
  simp [mark, h.1, h.2]

/-- Among tables and columns of different names, one column is marked. -/
theorem map_mark_of_marksOnly {r : Rule} {ts us : List TableSpec} {cs ds : List ColumnSpec}
    {s : ColumnSpec} (h : r.MarksOnly table s.name)
    (htables : ((ts ++ ⟨table, cs ++ s :: ds⟩ :: us).map (·.name)).Nodup)
    (hcolumns : ((cs ++ s :: ds).map (·.name)).Nodup) :
    (ts ++ ⟨table, cs ++ s :: ds⟩ :: us).map (TableSpec.mapColumns (mark [r])) =
      ts ++ ⟨table, cs ++ mark [r] table s :: ds⟩ :: us := by
  rw [List.map_append, List.map_cons, List.nodup_middle, ← List.map_append] at htables hcolumns
  have htable : ∀ t ∈ ts ++ us, TableSpec.mapColumns (mark [r]) t = t := by
    intro t ht
    have hne : t.name ≠ table := fun heq =>
      (List.nodup_cons.mp htables).1 (List.mem_map.mpr ⟨t, ht, heq⟩)
    rw [TableSpec.mapColumns, List.map_id'']
    exact fun d => mark_eq_self (h _ _ fun heq => hne (Prod.mk.inj heq).1)
  have hcolumn : ∀ d ∈ cs ++ ds, mark [r] table d = d := by
    intro d hd
    have hne : d.name ≠ s.name := fun heq =>
      (List.nodup_cons.mp hcolumns).1 (List.mem_map.mpr ⟨d, hd, heq⟩)
    exact mark_eq_self (h _ _ fun heq => hne (Prod.mk.inj heq).2)
  obtain ⟨hts, hus⟩ := List.forall_mem_append.mp htable
  obtain ⟨hcs, hds⟩ := List.forall_mem_append.mp hcolumn
  rw [List.map_append, List.map_cons, List.map_congr_left hts, List.map_congr_left hus,
    TableSpec.mapColumns, List.map_append, List.map_cons, List.map_congr_left hcs,
    List.map_congr_left hds]
  simp only [List.map_id']

/-- What the clause says of its column, the constraint says of it and of no other. -/
theorem Restated.marks (table : String) (h : Restated rest name clause c k item)
    (hname : column.name = name) :
    (column.apply c).spec = mark [⟨table, k⟩] table column.spec ∧
      Rule.MarksOnly ⟨table, k⟩ table column.spec.name ∧
      (c.constraint? name).toList.map (·.1) = if k.isForeignKey then [k] else [] := by
  subst hname
  cases h with
  | primaryKey _ =>
    refine ⟨?_, fun table' name' hne => ⟨?_, rfl⟩, rfl⟩
    · simp [mark, Rule.marksKey, Rule.marksUnique, ColumnDef.apply, ColumnDef.spec]
    · have hoff : (table == table' && name' == column.name) = false := by
        rw [Bool.eq_false_iff, ne_eq, Bool.and_eq_true, beq_iff_eq, beq_iff_eq]
        exact fun heq => hne (Prod.ext heq.1.symm heq.2)
      simpa [Rule.marksKey] using hoff
  | unique _ =>
    refine ⟨?_, fun table' name' hne => ⟨rfl, ?_⟩, rfl⟩
    · simp [mark, Rule.marksKey, Rule.marksUnique, ColumnDef.apply, ColumnDef.spec]
    · have hoff : (table == table' && column.name == name') = false := by
        rw [Bool.eq_false_iff, ne_eq, Bool.and_eq_true, beq_iff_eq, beq_iff_eq]
        exact fun heq => hne (Prod.ext heq.1.symm heq.2.symm)
      exact hoff
  | references _ _ =>
    exact ⟨(mark_eq_self ⟨rfl, rfl⟩).symm, fun _ _ _ => ⟨rfl, rfl⟩, rfl⟩

theorem Restated.keyDeclared (h : Restated rest name clause c k item) {ts : List TableSpec}
    (hname : TableSpec.Declare ts table name) : Rule.KeyDeclared ts ⟨table, k⟩ := by
  cases h with
  | primaryKey _ => exact fun column hcolumn => List.mem_singleton.mp hcolumn ▸ hname
  | unique _ => exact fun column hcolumn => List.mem_singleton.mp hcolumn ▸ hname
  | references _ _ => exact True.intro

theorem mark_foreignKey (h : k.isForeignKey = true) (s : ColumnSpec) :
    mark [⟨table, k⟩] table s = s := by
  cases k with
  | foreignKey key => exact mark_eq_self ⟨rfl, rfl⟩
  | _ => cases h

/-- The specifications and the rules around a column of a document. -/
theorem joinContents_column :
    joinContents (before ++ createContent (table, b₁ ++ (⟨[column], constraints⟩ ++ b₂)) ::
        others) =
      (before.flatMap (·.1) ++ ⟨table, b₁.columns.map ColumnDef.spec ++
          column.spec :: b₂.columns.map ColumnDef.spec⟩ :: others.flatMap (·.1),
        before.flatMap (·.2) ++ (createContent (table, b₁)).2 ++
          ((constraints.map (·.1)).map (Rule.mk table) ++
            ((createContent (table, b₂)).2 ++ others.flatMap (·.2)))) := by
  simp [joinContents, createContent, Body.columns_append, Body.constraints_append]

/-- A document in which a constraint on the table stands for a clause of a column. -/
theorem Document.toSchema_of_restated {d d' : Document} (h : Restated rest name clause c k item)
    (hname : column.name = name)
    (hd : d.content = joinContents (before ++ createContent (table,
      b₁ ++ (⟨[column.apply c], constraints ++ (c.constraint? name).toList⟩ ++ b₂)) :: others))
    (hd' : d'.content = joinContents (before ++ createContent (table,
      b₁ ++ (⟨[column], constraints⟩ ++ b₂) ++ ⟨[], [(k, position)]⟩) :: others))
    (hdistinct : d.ColumnsDistinct) {inferOneToOne : Bool} {s : Schema}
    (hs : d.toSchema inferOneToOne = .ok s) :
    ∃ p, d'.toSchema inferOneToOne = .ok p ∧ s.Reordered p := by
  obtain ⟨hmark, honly, hrule⟩ := h.marks table hname
  rw [joinContents_column, List.map_append, hrule] at hd
  rw [Body.append_assoc, Body.append_assoc, joinContents_column] at hd'
  obtain ⟨ts, us, cs, ds, hspecs, hspecs'⟩ : ∃ ts us cs ds,
      d.specs = ts ++ ⟨table, cs ++ (column.apply c).spec :: ds⟩ :: us ∧
      d'.specs = ts ++ ⟨table, cs ++ column.spec :: ds⟩ :: us := by
    refine ⟨_, _, _, _, congrArg Prod.fst hd, (congrArg Prod.fst hd').trans ?_⟩
    rw [Body.columns_append, List.append_nil]
  obtain ⟨qs, rs, rs', hrules, hrules'⟩ : ∃ qs rs rs',
      d.rules = qs ++ ((if k.isForeignKey then [⟨table, k⟩] else []) ++ (rs ++ rs')) ∧
      d'.rules = qs ++ (rs ++ ⟨table, k⟩ :: rs') := by
    refine ⟨before.flatMap (·.2) ++ (createContent (table, b₁)).2 ++
      (constraints.map (·.1)).map (Rule.mk table), (createContent (table, b₂)).2,
      others.flatMap (·.2), (congrArg Prod.snd hd).trans ?_, (congrArg Prod.snd hd').trans ?_⟩
    · simp only [List.map_append, apply_ite (List.map (Rule.mk table)), List.map_singleton,
        List.map_nil, List.append_assoc]
    · simp [createContent, Body.constraints_append]
  have hmarked : d.specs = d'.specs.map (TableSpec.mapColumns (mark [⟨table, k⟩])) := by
    have hnodup := ((Document.toSchema_eq_ok hdistinct).mp hs).1
    have hcolumns := hdistinct _ (hspecs ▸ List.mem_append_right ts List.mem_cons_self)
    rw [hspecs] at hnodup
    rw [hspecs, hspecs', map_mark_of_marksOnly honly, hmark]
    · simpa using hnodup
    · rw [hmark] at hcolumns
      simpa [mark] using hcolumns
  cases hkey : k.isForeignKey with
  | true =>
    rw [if_pos hkey] at hrules
    refine Document.toSchema_of_perm ?_ ?_ hdistinct hs
    · rw [hspecs, hspecs', hmark, mark_foreignKey hkey]
    · rw [hrules, hrules']
      exact List.perm_middle.append_left qs
  | false =>
    rw [if_neg (by simp [hkey])] at hrules
    have hperm : d'.rules.Perm ([⟨table, k⟩] ++ d.rules) := by
      rw [hrules, hrules', List.nil_append, ← List.append_assoc qs, ← List.append_assoc qs]
      exact List.perm_middle
    refine Document.toSchema_of_marks hmarked hperm ?_ ?_ hdistinct hs
    · intro r hr
      rw [List.mem_singleton.mp hr, hspecs']
      exact h.keyDeclared ⟨_, List.mem_append_right _ List.mem_cons_self, rfl, column.spec,
        List.mem_append_right _ List.mem_cons_self, hname⟩
    · simpa using hkey

end

/-! ## Statements instead of items -/

section

variable {item rest whole left opened : List Lexeme} {table : String}

theorem Detached.exists_append (h : Detached item rest whole left) :
    ∃ before after, whole = before ++ (item ++ after) ∧ left <+: before := by
  cases h with
  | only _ => exact ⟨[], [], by simp, List.prefix_rfl⟩
  | @behind _ l _ _ _ => exact ⟨left ++ [l], [], by simp, List.prefix_append _ _⟩
  | @before _ l _ _ => exact ⟨left, [l], rfl, List.prefix_rfl⟩

theorem OpensBody.exists_concat {ls : List Lexeme} (h : OpensBody table opened ls) :
    ∃ init opening, opened = init ++ [opening] ∧ opening.token = .leftParen := by
  obtain ⟨lead, create, head, rfl, -, -, hhead⟩ := h
  obtain ⟨⟨plain, opening, rfl, hopening, -⟩, -⟩ := readHead_append hhead
  exact ⟨lead ++ create :: plain, opening, by simp, hopening⟩

theorem content?_of_opensConstraint {t : Token} (h : opensConstraint t = true) :
    t.content? = none := by
  cases t <;> first | rfl | cases h

theorem nextToken_ne_symbol {ls : List Lexeme} {t : Token} (h : nextToken ls = t)
    (ht : t.content? = none) : ∀ c, nextToken ls ≠ .symbol c := by
  intro c hc
  rw [← h, hc] at ht
  cases ht

/-- The cues of an item are those that are missing without it. -/
theorem Detached.cues_perm (h : Detached item rest whole left)
    (hopened : OpensBody table opened (whole ++ rest))
    (hitem : opensConstraint (nextToken item) = true) :
    (Dialect.cues (opened ++ left ++ rest) ++ Dialect.cues item).Perm
      (Dialect.cues (opened ++ (whole ++ rest))) := by
  obtain ⟨l, more, rfl⟩ : ∃ l more, item = l :: more := by
    cases item with
    | nil => cases hitem
    | cons l more => exact ⟨l, more, rfl⟩
  have hfirst : ∀ ks, ∀ c, nextToken (l :: more ++ ks) ≠ .symbol c := fun ks =>
    nextToken_ne_symbol rfl (content?_of_opensConstraint hitem)
  have hperm : ∀ xs ys zs : List Dialect, (xs ++ ys ++ zs).Perm (xs ++ (zs ++ ys)) := by
    intro xs ys zs
    rw [List.append_assoc]
    exact List.perm_append_comm.append_left xs
  cases h with
  | only hrest =>
    have hnext := nextToken_ne_symbol hrest rfl
    rw [List.append_nil, Dialect.cues_append opened hnext, Dialect.cues_append opened (hfirst rest),
      Dialect.cues_append (l :: more) hnext]
    exact hperm _ _ _
  | @behind _ comma _ hcomma hrest =>
    have hnext : ∀ c, nextToken rest ≠ .symbol c := by
      rcases hrest with hrest | hrest
      · exact nextToken_ne_symbol hrest rfl
      · exact nextToken_ne_symbol hrest rfl
    rw [List.append_assoc left, List.cons_append, ← List.append_assoc opened,
      Dialect.cues_append_cons _ (by rw [hcomma]; rfl), Dialect.cues_append _ hnext,
      Dialect.cues_append (l :: more) hnext]
    exact hperm _ _ _
  | @before _ comma hbefore hcomma =>
    obtain ⟨init, last, hlast, hdivides⟩ : ∃ init last, opened ++ left = init ++ [last] ∧
        last.token.content? = none := by
      rcases hbefore with rfl | ⟨init, k, rfl, hk, -⟩
      · obtain ⟨init, opening, rfl, hopening⟩ := hopened.exists_concat
        exact ⟨init, opening, by rw [List.append_nil], by rw [hopening]; rfl⟩
      · exact ⟨opened ++ init, k, (List.append_assoc _ _ _).symm, by rw [hk]; rfl⟩
    rw [List.append_assoc left, ← List.append_assoc opened, hlast, List.append_assoc init,
      List.append_assoc init, List.singleton_append, List.singleton_append,
      Dialect.cues_append_cons _ hdivides, Dialect.cues_append_cons _ hdivides,
      List.append_assoc (l :: more), List.singleton_append,
      Dialect.cues_append_cons _ (by rw [hcomma]; rfl)]
    exact hperm _ _ _

/-- A statement that adds a constraint is a run of its own. -/
theorem isRun_alterLexemes (hclosed : Closed isSemicolon item)
    (hinside : ∀ l ∈ item, l.token ≠ .eof) : IsRun (alterLexemes table item) := by
  have hpieces : Closed isSemicolon ((alterPieces table).map Piece.lexeme) := rfl
  refine ⟨hpieces.append hclosed, fun l hl => ?_⟩
  rcases List.mem_append.mp hl with hl | hl
  · obtain ⟨p, hp, rfl⟩ := List.mem_map.mp hl
    exact (cutsAll_alterPieces table []).token_ne_eof p hp
  · exact hinside l hl

theorem runContent_alterLexemes {dialect : Dialect} {k : Constraint}
    (hkey : opensKey (nextToken (skipConstraintName item)) = true)
    (h : readConstraint item = .ok (some k, [])) :
    runContent dialect (alterLexemes table item) = .ok ([], [⟨table, k⟩]) := by
  let first : Lexeme := Piece.lexeme ⟨[], Keyword.spelling .alter, .keyword .alter⟩
  have hread : Statement.read dialect ⟨first, (alterLexemes table item).tail⟩ = .ok ⟨[],
      Statement.constraintDefs ⟨first, (alterLexemes table item).tail⟩ table [(k, .start)]⟩ := by
    show readAlter (alterLexemes table item).tail >>= _ = _
    rw [readAlter_add hkey h]
    rfl
  exact runContent_of_read hread

/-- A constraint that is read to the end of the lexemes has no semicolon outside of parentheses. -/
theorem closed_of_readConstraint {k : Option Constraint} (h : readConstraint item = .ok (k, []))
    (hseen : BreaksSeen isSemicolon item) : Closed isSemicolon item := by
  have hpasses : Passes isSemicolon 0 0 item [] := passes_readConstraint h
  obtain ⟨used, hused, hdepth⟩ := hpasses
  obtain rfl : item = used := by rw [hused, List.append_nil]
  exact hdepth hseen

/-- Behind the runs of a script there is one more. -/
theorem Splits.added {ls run : List Lexeme} {e : Lexeme} {qs : List (List Lexeme)}
    (h : Splits (ls ++ [e]) qs) (he : e.token = .eof) (hls : ∀ l ∈ ls, l.token ≠ .eof)
    (hrun : IsRun run) (gap : List Char) :
    Splits (ls ++ (semicolonLine gap).lexeme :: (run ++ [endPiece.lexeme])) (qs ++ [run]) := by
  refine h.append he hls rfl (.last hrun fun l hl => ?_)
  cases hl
  rfl

/-- The statement that adds an item has all the cues that are missing without it. -/
theorem Detached.cues_added_perm {back item' : List Lexeme} {e : Lexeme}
    (h : Detached item (back ++ [e]) whole left)
    (hopened : OpensBody table opened (whole ++ (back ++ [e])))
    (hitem : opensConstraint (nextToken item) = true) (he : e.token = .eof)
    (hcues : Dialect.cues item' = Dialect.cues item) (gap : List Char) :
    (Dialect.cues (opened ++ left ++ back ++ (semicolonLine gap).lexeme ::
        (alterLexemes table item' ++ [endPiece.lexeme]))).Perm
      (Dialect.cues (opened ++ (whole ++ (back ++ [e])))) := by
  have hperm := h.cues_perm hopened hitem
  have hnil : Dialect.cues [] = [] := rfl
  rw [← List.append_assoc (opened ++ left), Dialect.cues_append_cons _ (by rw [he]; rfl), hnil,
    List.append_nil] at hperm
  rwa [Dialect.cues_append_cons _ rfl, Dialect.cues_append_cons _ rfl, cues_alterLexemes, hnil,
    List.append_nil, hcues]

variable {text : String} {choice : DialectChoice} {d : Document}

/-- What a script says without a key that is an item of a body. -/
theorem Document.exists_withoutKey (hd : ofScript text choice = .ok d)
    (hls : tokenize text = .ok (opened ++ (whole ++ rest)))
    (hnamed : ActionsNamed (opened ++ (whole ++ rest)))
    (hopened : OpensBody table opened (whole ++ rest)) (hdetached : Detached item rest whole left)
    (hclosed : Closed isComma item)
    (hkey : opensKey (nextToken (skipConstraintName item)) = true) :
    ∃ back e k position b₁ b₂ before others qs, rest = back ++ [e] ∧ e.token = .eof ∧
      (∀ l ∈ opened ++ (whole ++ back), l.token ≠ .eof) ∧
      readConstraint item = .ok (some k, []) ∧
      d.content = joinContents (before ++ createContent (table,
        b₁ ++ (⟨[], [(k, position)]⟩ ++ b₂)) :: others) ∧
      Splits (opened ++ left ++ back ++ [e]) qs ∧
      List.Forall₂ (fun run c =>
          runContent (choice.resolve (opened ++ (whole ++ rest))) run = .ok c) qs
        (before ++ createContent (table, b₁ ++ b₂) :: others) := by
  have hwhole : whole ≠ [] := by
    obtain ⟨lead, after, rfl, -⟩ := hdetached.exists_append
    have hitem : item ≠ [] := by
      rintro rfl
      cases (opensConstraint_of_opensKey hkey).1
    simp [hitem]
  have hne := nextToken_ne_of_closed (hdetached.closed hclosed).1 hwhole rest
  obtain ⟨inner, close, behind, b, before, others, heq, hclose, hitems, hcontent, hother⟩ :=
    exists_body hd hls hnamed hopened (by simp [hwhole]) hne
  obtain ⟨b₁, c, b₂, w, rfl, rfl, hitem, hbody⟩ := hitems.exists_detached hdetached hclosed
    (fun c hc => by
      obtain ⟨k, position, rfl, -⟩ := hc.exists_readConstraint hkey
      rfl) heq hclose
  obtain ⟨k, position, rfl, hk⟩ := hitem.exists_readConstraint hkey
  have happend : opened ++ (whole ++ (w ++ close :: behind)) =
      opened ++ (whole ++ w) ++ close :: behind := by simp
  obtain ⟨tail, e, rfl, he, hinside⟩ :=
    exists_tail_of_tokenize (happend ▸ hls) (by rw [hclose]; exact nofun)
  -- Without the key, the lexemes are still among those of the script.
  obtain ⟨qs, hqs, hcontents⟩ := hother (left ++ w) (b₁ ++ b₂) hbody fun l hl => by
    obtain ⟨lead, after, rfl, u, rfl⟩ := hdetached.exists_append
    refine hinside l ?_
    simp only [List.mem_append] at hl ⊢
    tauto
  refine ⟨w ++ close :: tail, e, k, position, b₁, b₂, before, others, qs, by simp, he, ?_, hk,
    hcontent, ?_, hcontents⟩
  · simpa using hinside
  · simpa using hqs

/-- A key that is an item of a body is added to the table by a statement behind the script. -/
theorem Document.exists_ofScript_statement (hd : ofScript text choice = .ok d)
    (hls : tokenize text = .ok (opened ++ (whole ++ rest)))
    (hnamed : ActionsNamed (opened ++ (whole ++ rest)))
    (hopened : OpensBody table opened (whole ++ rest)) (hdetached : Detached item rest whole left)
    (hclosed : Closed isComma item)
    (hkey : opensKey (nextToken (skipConstraintName item)) = true) :
    ∃ d', ofScript (textOf (opened ++ left) ++ " " ++ textOf rest ++ "\n;ALTER TABLE " ++
        quoteName table ++ " ADD " ++ String.ofList (spell item)) choice = .ok d' ∧
      d'.specs = d.specs ∧ d'.rules.Perm d.rules := by
  have hopens := (opensConstraint_of_opensKey hkey).1
  obtain ⟨l, more, rfl⟩ : ∃ l more, item = l :: more := by
    cases item with
    | nil => cases hopens
    | cons l more => exact ⟨l, more, rfl⟩
  obtain ⟨back, e, k, position, b₁, b₂, before, others, qs, rfl, he, hinside, hk, hcontent, hqs,
    hcontents⟩ := exists_withoutKey hd hls hnamed hopened hdetached hclosed hkey
  obtain ⟨lead, after, hwhole, u, hlead⟩ := hdetached.exists_append
  have hfront : opened ++ left <+: opened ++ (whole ++ back) :=
    ⟨u ++ (l :: more ++ after) ++ back, by rw [hwhole, ← hlead]; simp⟩
  have hback : back <:+ opened ++ (whole ++ back) := ⟨opened ++ whole, by simp⟩
  have hitem : l :: more <:+: opened ++ (whole ++ back) :=
    ⟨opened ++ lead, after ++ back, by rw [hwhole]; simp⟩
  have hconcat : opened ++ (whole ++ (back ++ [e])) = opened ++ (whole ++ back) ++ [e] := by simp
  obtain ⟨ks, hks, hsqueezed⟩ :=
    exists_tokenize_statement (hconcat ▸ hls) hfront hback hitem table
  -- The runs are those without the key, and behind them the one that adds it.
  have hadded : IsRun (alterLexemes table (l.withGap [' '] :: more)) := by
    have hseen : BreaksSeen isSemicolon (l :: more) := by
      refine (hnamed.of_isInfix ?_).breaksSeen isDivider_of_isSemicolon
      rw [hconcat]
      exact hitem.trans (List.prefix_append _ _).isInfix
    have hsemicolon : Closed isSemicolon (l :: more) := closed_of_readConstraint hk hseen
    refine isRun_alterLexemes hsemicolon fun j hj => ?_
    rcases List.mem_cons.mp hj with rfl | hj
    · exact hinside l (hitem.subset List.mem_cons_self)
    · exact hinside j (hitem.subset (List.mem_cons_of_mem _ hj))
  have hsplits := hqs.added he (fun j hj => by
    rcases List.mem_append.mp hj with hj | hj
    · exact hinside j (hfront.subset hj)
    · exact hinside j (hback.subset hj)) hadded e.gap
  have hcues : Dialect.cues (l.withGap [' '] :: more) = Dialect.cues (l :: more) := rfl
  have hresolve := choice.resolve_of_cues (hdetached.cues_added_perm hopened hopens he hcues e.gap)
  rw [← hresolve] at hcontents
  obtain ⟨d', hd', hcontent'⟩ := exists_ofScript_squeezed hks hsqueezed hsplits
    (List.rel_append hcontents (.cons (runContent_alterLexemes (by rwa [nextToken_withGap])
      (by rwa [readConstraint_withGap])) .nil))
  exact ⟨d', hd', rules_perm_of_added hcontent hcontent'⟩

end

/-! ## Constraints instead of clauses -/

section

variable {before column clause after tail opened inner : List Lexeme} {close : Lexeme}
  {text table name constraint : String} {choice : DialectChoice} {d : Document} {c : ColumnClause}

/-- The items of a body are all that stands between its parentheses. -/
theorem Document.exists_items (hd : ofScript text choice = .ok d)
    (hls : tokenize text = .ok (opened ++ (inner ++ close :: tail)))
    (hnamed : ActionsNamed (opened ++ (inner ++ close :: tail)))
    (hopened : OpensBody table opened (inner ++ close :: tail))
    (hinner : Closed (fun _ => false) inner) (hne : inner ≠ [])
    (hclose : close.token = .rightParen) :
    ∃ b others more,
      ReadsItems (choice.resolve (opened ++ (inner ++ close :: tail))) [] inner b ∧
      d.content = joinContents (others ++ createContent (table, b) :: more) ∧
      ∀ inner' b', ReadsBody (choice.resolve (opened ++ (inner ++ close :: tail))) inner' b' →
        (∀ l ∈ inner', l.token ≠ .eof) →
        ∃ qs, Splits (opened ++ (inner' ++ close :: tail)) qs ∧
          List.Forall₂ (fun run c =>
              runContent (choice.resolve (opened ++ (inner ++ close :: tail))) run = .ok c) qs
            (others ++ createContent (table, b') :: more) := by
  obtain ⟨inner', close', rest, b, others, more, heq, hclose', hreads, hcontent, hother⟩ :=
    exists_body hd hls hnamed hopened (by simp) (nextToken_ne_of_closed hinner hne _)
  obtain ⟨w, rfl, hw⟩ := exists_append_of_closed heq hinner hreads.closed (by rw [hclose']; rfl)
  have hclosed : Closed (fun _ => false) w := (depthOver_of_closed hinner hreads.closed).2
  cases w with
  | cons k w =>
    refine absurd ?_ (nextToken_ne_of_closed hclosed (by simp) (close' :: rest))
    rw [← hw]
    exact hclose
  | nil =>
    obtain ⟨rfl, rfl⟩ := List.cons.inj hw
    rw [List.append_nil] at hreads
    exact ⟨b, others, more, hreads, hcontent, hother⟩

theorem content?_of_isBreak {t : Token} (h : isBreak t = true) : t.content? = none := by
  cases t <;> first | rfl | cases h

theorem LastClause.exists_cons {rest : List Lexeme} (h : LastClause rest name c column clause) :
    column ≠ [] ∧
      ∃ l more, clause = l :: more ∧ readColumnClause l (more ++ rest) = .ok (c, rest) := by
  cases h with
  | intro _ _ _ _ _ hclause => exact ⟨List.cons_ne_nil _ _, _, _, rfl, hclause⟩

theorem endsItem_append (hafter : ∀ l ∈ after.head?, l.token = .comma)
    (hclose : close.token = .rightParen) :
    endsItem (nextToken (after ++ close :: tail)) = true := by
  cases after with
  | nil =>
    rw [List.nil_append, show nextToken (close :: tail) = close.token from rfl, hclose]
    rfl
  | cons l after =>
    rw [List.cons_append, show nextToken (l :: (after ++ close :: tail)) = l.token from rfl,
      hafter l rfl]
    rfl

/-- A clause that stands behind all other items gives the same cues. -/
theorem cues_moved_perm (opened tail : List Lexeme) {l : Lexeme} {item : List Lexeme}
    (hclause : isBreak (nextToken clause) = true) (hafter : ∀ l ∈ after.head?, l.token = .comma)
    (hclose : close.token = .rightParen) (hl : l.token = .comma)
    (hitem : Dialect.cues item = Dialect.cues clause) :
    (Dialect.cues (opened ++ (after ++ l :: (item ++ close :: tail)))).Perm
      (Dialect.cues (opened ++ (clause ++ (after ++ close :: tail)))) := by
  have hnext : ∀ ks, isBreak (nextToken ks) = true →
      ∀ c, nextToken (after ++ ks) ≠ .symbol c := by
    intro ks hks
    cases after with
    | nil => exact nextToken_ne_symbol rfl (content?_of_isBreak hks)
    | cons k after => exact nextToken_ne_symbol (hafter k rfl) rfl
  have hcomma := hnext (l :: (item ++ close :: tail))
    (by rw [show nextToken (l :: (item ++ close :: tail)) = l.token from rfl, hl]; rfl)
  have hparen := hnext (close :: tail)
    (by rw [show nextToken (close :: tail) = close.token from rfl, hclose]; rfl)
  have hfirst : ∀ c, nextToken (clause ++ (after ++ close :: tail)) ≠ .symbol c := by
    cases clause with
    | nil => exact hparen
    | cons k more => exact nextToken_ne_symbol rfl (content?_of_isBreak hclause)
  rw [Dialect.cues_append opened hcomma, Dialect.cues_append_cons after (by rw [hl]; rfl),
    Dialect.cues_append_cons item (by rw [hclose]; rfl), hitem, Dialect.cues_append opened hfirst,
    Dialect.cues_append clause hparen, Dialect.cues_append_cons after (by rw [hclose]; rfl)]
  rw [← List.append_assoc (Dialect.cues after), ← List.append_assoc (Dialect.cues clause)]
  exact (List.perm_append_comm.append_right _).append_left _

/-- What a script says with a constraint behind all other items of a body, for the last clause of a
column. -/
theorem Document.exists_clauseMoved (hd : ofScript text choice = .ok d)
    (hls : tokenize text =
      .ok (opened ++ (before ++ (column ++ clause ++ after) ++ close :: tail)))
    (hnamed : ActionsNamed (opened ++ (before ++ (column ++ clause ++ after) ++ close :: tail)))
    (hopened : OpensBody table opened (before ++ (column ++ clause ++ after) ++ close :: tail))
    (hbefore : AtStart .comma before)
    (hlast : LastClause (after ++ close :: tail) name c column clause)
    (hafter : Closed (fun _ => false) after) (hcomma : ∀ l ∈ after.head?, l.token = .comma)
    (hclose : close.token = .rightParen) {k : Constraint} {item : List Lexeme} {l : Lexeme}
    (hrestated : Restated (after ++ close :: tail) name clause c k item) (hl : l.token = .comma)
    (hitem : ∀ j ∈ item, j.token ≠ .eof) :
    ∃ b₁ definition constraints b₂ others more position qs, ColumnDef.name definition = name ∧
      d.content = joinContents (others ++ createContent (table,
        b₁ ++ (⟨[definition.apply c], constraints ++ (c.constraint? name).toList⟩ ++ b₂)) ::
          more) ∧
      Splits (opened ++ (before ++ (column ++ after) ++ l :: item ++ close :: tail)) qs ∧
      List.Forall₂ (fun run content => runContent (choice.resolve (opened ++
          (before ++ (column ++ clause ++ after) ++ close :: tail))) run = .ok content) qs
        (others ++ createContent (table, b₁ ++ (⟨[definition], constraints⟩ ++ b₂) ++
          ⟨[], [(k, position)]⟩) :: more) := by
  have hseen : BreaksSeen isComma (column ++ (clause ++ (after ++ close :: tail))) :=
    (hnamed.of_isInfix ⟨opened ++ before, [], by simp⟩).marksSeen.breaksSeen
  obtain ⟨hcolumnClosed, hclauseClosed⟩ := hlast.closed hseen
  have hitems : Closed (fun _ => false) (before ++ (column ++ clause ++ after)) :=
    (closed_of_atStart hbefore (by simp) (by simp)).append
      ((Closed.append (depthOver_unbroken hcolumnClosed)
        (depthOver_unbroken hclauseClosed)).append hafter)
  obtain ⟨b, others, more, hreads, hcontent, hother⟩ :=
    exists_items hd hls hnamed hopened hitems (by simp [hlast.exists_cons.1]) hclose
  obtain ⟨b₁, definition, constraints, b₂, hname, rfl, hmoved⟩ := hreads.exists_moved hbefore
    hcomma hlast hcolumnClosed hclauseClosed hrestated.isBreak (endsItem_append hcomma hclose) hl
    (hrestated.readsAs (by simp) _) (hrestated.closed hclauseClosed)
  obtain ⟨init, e, -, -, hinside⟩ := exists_tail_of_tokenize
    (by rwa [← List.append_assoc] at hls) (by rw [hclose]; exact nofun)
  obtain ⟨qs, hqs, hcontents⟩ := hother _ _ (.inr hmoved) fun j hj => by
    rw [List.mem_append, List.mem_cons] at hj
    rcases hj with hj | rfl | hj
    · refine hinside j (List.mem_append_left _ (List.mem_append_right _ ?_))
      simp only [List.mem_append] at hj ⊢
      tauto
    · rw [hl]
      exact nofun
    · exact hitem j hj
  exact ⟨b₁, definition, constraints, b₂, others, more, _, qs, hname, hcontent, hqs, hcontents⟩

/-- What the last clause of a column says, a constraint behind all other items of the body says
instead. -/
theorem Document.exists_ofScript_item (hd : ofScript text choice = .ok d)
    (hls : tokenize text =
      .ok (opened ++ (before ++ (column ++ (clause ++ (after ++ close :: tail))))))
    (hnamed : ActionsNamed (opened ++ (before ++ (column ++ (clause ++ (after ++ close :: tail))))))
    (hopened : OpensBody table opened (before ++ (column ++ (clause ++ (after ++ close :: tail)))))
    (hbefore : AtStart .comma before)
    (hlast : LastClause (after ++ close :: tail) name c column clause)
    (hafter : Closed (fun _ => false) after) (hcomma : ∀ l ∈ after.head?, l.token = .comma)
    (hclose : close.token = .rightParen)
    (hconstraint : tableConstraint? name clause c = some constraint)
    {inferOneToOne : Bool} {s : Schema} (hs : d.toSchema inferOneToOne = .ok s) :
    ∃ d' p, ofScript (textOf (opened ++ (before ++ column)) ++ " " ++ textOf after ++ ", " ++
        constraint ++ " " ++ textOf (close :: tail)) choice = .ok d' ∧
      d'.toSchema inferOneToOne = .ok p ∧ s.Reordered p := by
  obtain ⟨-, l, more, rfl, hclause⟩ := hlast.exists_cons
  have happend : before ++ (column ++ (l :: more ++ (after ++ close :: tail))) =
      before ++ (column ++ l :: more ++ after) ++ close :: tail := by simp
  rw [happend] at hls hnamed hopened
  have hcloses := hls
  rw [← List.append_assoc] at hcloses
  obtain ⟨init, e, rfl, -, -⟩ := exists_tail_of_tokenize hcloses (by rw [hclose]; exact nofun)
  rw [← List.cons_append, ← List.append_assoc] at hcloses
  -- The lexemes of the constraint, and what the script says with them.
  obtain ⟨gap, hcuts, -, -⟩ := exists_gap_of_tokenize hcloses
  have hclauseInfix : l :: more <:+: opened ++ (before ++ (column ++ l :: more ++ after)) ++
      close :: init := ⟨opened ++ (before ++ column), after ++ close :: init, by simp⟩
  obtain ⟨k, item, hrestated, hitemCuts, hspan⟩ := exists_restated hclause hconstraint
    (hcuts.of_isInfix (hclauseInfix.map (·.toPiece)))
  have hcommaToken : commaPiece.lexeme.token = .comma := rfl
  obtain ⟨b₁, definition, constraints, b₂, others, rest, position, qs, hname, hcontent, hqs,
    hcontents⟩ := exists_clauseMoved hd hls hnamed hopened hbefore hlast hafter hcomma hclose
      hrestated hcommaToken fun j hj =>
        (hitemCuts []).token_ne_eof j.toPiece (List.mem_map_of_mem hj)
  -- The new text has these lexemes, and it is in the same dialect.
  have hfront : opened ++ (before ++ column) <+:
      opened ++ (before ++ (column ++ l :: more ++ after)) ++ close :: init :=
    ⟨l :: more ++ (after ++ close :: init), by simp⟩
  have hafterInfix : after <:+:
      opened ++ (before ++ (column ++ l :: more ++ after)) ++ close :: init :=
    ⟨opened ++ (before ++ (column ++ l :: more)), close :: init, by simp⟩
  obtain ⟨ks, hks, hsqueezed⟩ := exists_tokenize_item hcloses hfront hafterInfix
    (List.suffix_append _ _) (by simp) hitemCuts hspan
  have hresolve : choice.resolve (opened ++ (before ++ (column ++ after) ++
      commaPiece.lexeme :: item ++ close :: (init ++ [e]))) = choice.resolve (opened ++
        (before ++ (column ++ l :: more ++ after) ++ close :: (init ++ [e]))) := by
    refine choice.resolve_of_cues ?_
    have hperm := cues_moved_perm (opened ++ (before ++ column)) (init ++ [e]) hrestated.isBreak
      hcomma hclose hcommaToken hrestated.cues
    simpa using hperm
  rw [← hresolve] at hcontents
  obtain ⟨d', hd', hcontent'⟩ :=
    exists_ofScript_squeezed hks (by simpa using hsqueezed) hqs hcontents
  obtain ⟨p, hp, hreordered⟩ := toSchema_of_restated hrestated hname hcontent hcontent'
    (columnsDistinct_ofScript hd) hs
  exact ⟨d', p, by simpa using hd', hp, hreordered⟩

end

/-! ## Scripts -/

/-- The text says what the script of the lexemes says, with a constraint in another place: a key of
a body is added to its table by a statement behind the script, or the last clause of a column stands
behind all other items of the body as a constraint on the whole table. -/
inductive ConstraintMoved : List Lexeme → String → Prop
  | statement {table : String} {opened whole rest item left : List Lexeme}
      (hopened : OpensBody table opened (whole ++ rest)) (hdetached : Detached item rest whole left)
      (hclosed : Closed isComma item)
      (hkey : opensKey (nextToken (skipConstraintName item)) = true) :
      ConstraintMoved (opened ++ (whole ++ rest))
        (textOf (opened ++ left) ++ " " ++ textOf rest ++ "\n;ALTER TABLE " ++ quoteName table ++
          " ADD " ++ String.ofList (spell item))
  | item {table name constraint : String} {c : ColumnClause} {close : Lexeme}
      {opened before column clause after tail : List Lexeme}
      (hopened : OpensBody table opened
        (before ++ (column ++ (clause ++ (after ++ close :: tail)))))
      (hbefore : AtStart .comma before)
      (hlast : LastClause (after ++ close :: tail) name c column clause)
      (hafter : Closed (fun _ => false) after) (hcomma : ∀ l ∈ after.head?, l.token = .comma)
      (hclose : close.token = .rightParen)
      (hconstraint : tableConstraint? name clause c = some constraint) :
      ConstraintMoved (opened ++ (before ++ (column ++ (clause ++ (after ++ close :: tail)))))
        (textOf (opened ++ (before ++ column)) ++ " " ++ textOf after ++ ", " ++ constraint ++
          " " ++ textOf (close :: tail))

/-- Where a constraint stands does not matter: the tables are the same, and so are the relations,
apart from their order and their ids. -/
theorem schemaOf_constraintMoved {options : ImportOptions} {text text' : String} {s : Schema}
    {ls : List Lexeme} (h : schemaOf options text = .ok s) (hls : tokenize text = .ok ls)
    (hnamed : ActionsNamed ls) (hmoved : ConstraintMoved ls text') :
    ∃ p, schemaOf options text' = .ok p ∧ s.Reordered p := by
  obtain ⟨d, hd, hs⟩ := ok_of_bind h
  cases hmoved with
  | statement hopened hdetached hclosed hkey =>
    obtain ⟨d', hd', hspecs, hrules⟩ :=
      Document.exists_ofScript_statement hd hls hnamed hopened hdetached hclosed hkey
    obtain ⟨p, hp, hreordered⟩ :=
      Document.toSchema_of_perm hspecs hrules (Document.columnsDistinct_ofScript hd) hs
    refine ⟨p, ?_, hreordered⟩
    rw [schemaOf, hd']
    exact hp
  | item hopened hbefore hlast hafter hcomma hclose hconstraint =>
    obtain ⟨d', p, hd', hp, hreordered⟩ := Document.exists_ofScript_item hd hls hnamed hopened
      hbefore hlast hafter hcomma hclose hconstraint hs
    refine ⟨p, ?_, hreordered⟩
    rw [schemaOf, hd']
    exact hp

/-- A reference at a column, and a key that is an item of the body. -/
def placed : String :=
  "create table a (b int primary key, c int references a on delete set null, " ++
    "constraint d unique (c))"

/-- The key is added to its table. -/
def placedApart : String :=
  "create table a (b int primary key, c int references a on delete set null )" ++
    "\n;ALTER TABLE \"a\" ADD constraint d unique (c)"

/-- The reference is a constraint on the table. -/
def placedBehind : String :=
  "create table a (b int primary key, c int , constraint d unique (c), " ++
    "FOREIGN KEY (\"c\") references a on delete set null )"

def placedSchema : Schema :=
  ⟨[⟨⟨"t1"⟩, "a", [⟨⟨"c2"⟩, "b", .integer, true, false, false, true⟩,
    ⟨⟨"c3"⟩, "c", .integer, false, true, true, true⟩]⟩],
   [⟨⟨"r4"⟩, ⟨⟨"t1"⟩, ⟨"c2"⟩⟩, ⟨⟨"t1"⟩, ⟨"c3"⟩⟩, .oneToOne⟩], 4⟩

def placedPieces : List Piece :=
  let piece (gap text : String) (token : Token) : Piece := ⟨gap.toList, text.toList, token⟩
  [piece "" "create" (.keyword .create), piece " " "table" (.keyword .table),
    piece " " "a" (.ident "a"), piece " " "(" .leftParen,
    piece "" "b" (.ident "b"), piece " " "int" (.ident "int"),
    piece " " "primary" (.keyword .primary), piece " " "key" (.keyword .key), piece "" "," .comma,
    piece " " "c" (.ident "c"), piece " " "int" (.ident "int"),
    piece " " "references" (.keyword .references), piece " " "a" (.ident "a"),
    piece " " "on" (.keyword .on), piece " " "delete" (.ident "delete"),
    piece " " "set" (.ident "set"), piece " " "null" (.keyword .null), piece "" "," .comma,
    piece " " "constraint" (.keyword .constraint), piece " " "d" (.ident "d"),
    piece " " "unique" (.keyword .unique), piece " " "(" .leftParen, piece "" "c" (.ident "c"),
    piece "" ")" .rightParen, piece "" ")" .rightParen, piece "" "" .eof]

/-- Some lexemes of the script, one after the other. -/
def placedPart (start stop : Nat) : List Lexeme :=
  (locate .start 0 placedPieces).extract start stop

def placedLexeme (i : Nat) : Lexeme := (placedPart 0 26).getD i endPiece.lexeme

theorem opensBody_placed : OpensBody "a" (placedPart 0 4) (placedPart 4 26) := by
  refine ⟨[], placedLexeme 0, placedPart 1 4, by decide +kernel, .inl rfl, ?_, ?_⟩ <;>
    decide +kernel

theorem constraintMoved_placedApart : ConstraintMoved (placedPart 0 26) placedApart := by
  have hdetached : Detached (placedPart 18 24) (placedPart 24 26)
      (placedPart 4 17 ++ placedLexeme 17 :: placedPart 18 24) (placedPart 4 17) :=
    .behind (by decide +kernel) (by decide +kernel) (.inr (by decide +kernel))
  have hbody : placedPart 4 17 ++ placedLexeme 17 :: placedPart 18 24 ++ placedPart 24 26 =
      placedPart 4 26 := by
    decide +kernel
  have hmoved := ConstraintMoved.statement (hbody ▸ opensBody_placed) hdetached
    (by decide +kernel) (by decide +kernel)
  have hall : placedPart 0 4 ++ placedPart 4 26 = placedPart 0 26 := by decide +kernel
  rw [hbody, hall] at hmoved
  convert hmoved using 1
  decide +kernel

theorem constraintMoved_placedBehind : ConstraintMoved (placedPart 0 26) placedBehind := by
  have htype : readTypeName [] (placedPart 10 26) = .ok ("int".toList, placedPart 11 26) := by
    decide +kernel
  have hclause : readColumnClause (placedLexeme 11) (placedPart 12 26) =
      .ok (.references ⟨"a", []⟩ (placedLexeme 11).position, placedPart 17 26) := by
    decide +kernel
  have hlast : LastClause (placedPart 17 24 ++ placedLexeme 24 :: placedPart 25 26) "c"
      (.references ⟨"a", []⟩ (placedLexeme 11).position) (placedLexeme 9 :: placedPart 10 11)
      (placedLexeme 11 :: placedPart 12 17) :=
    .intro (by decide +kernel) (by decide +kernel) (by decide +kernel) htype .nil hclause
  have hbody : placedPart 4 9 ++ (placedLexeme 9 :: placedPart 10 11 ++ (placedLexeme 11 ::
      placedPart 12 17 ++ (placedPart 17 24 ++ placedLexeme 24 :: placedPart 25 26))) =
      placedPart 4 26 := by
    decide +kernel
  have hbefore : AtStart .comma (placedPart 4 9) :=
    .inr ⟨placedPart 4 8, placedLexeme 8, by decide +kernel, by decide +kernel, by decide +kernel⟩
  have hmoved := ConstraintMoved.item (hbody ▸ opensBody_placed) hbefore hlast
    (by decide +kernel) (by decide +kernel) (by decide +kernel) rfl
  have hall : placedPart 0 4 ++ placedPart 4 26 = placedPart 0 26 := by decide +kernel
  rw [hbody, hall] at hmoved
  convert hmoved using 1
  decide +kernel

theorem schemaOf_constraintMoved_placed :
    schemaOf ⟨.auto, .standard, true⟩ placed = .ok placedSchema ∧
      (∃ p, schemaOf ⟨.auto, .standard, true⟩ placedApart = .ok p ∧ placedSchema.Reordered p) ∧
      ∃ p, schemaOf ⟨.auto, .standard, true⟩ placedBehind = .ok p ∧ placedSchema.Reordered p := by
  have hread : schemaOf ⟨.auto, .standard, true⟩ placed = .ok placedSchema := by decide +kernel
  have hls : tokenize placed = .ok (placedPart 0 26) := by decide +kernel
  have hnamed : ActionsNamed (placedPart 0 26) := by
    unfold ActionsNamed
    decide +kernel
  exact ⟨hread, schemaOf_constraintMoved hread hls hnamed constraintMoved_placedApart,
    schemaOf_constraintMoved hread hls hnamed constraintMoved_placedBehind⟩

end Sql
end Schemata
