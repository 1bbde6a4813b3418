/-
Reading the forms of a schema.  Each reader, on lexemes whose tokens are a form of some part of a
schema, returns that part and leaves the tokens after it.
-/
import Schemata.Proofs.Sql.Forms
import Schemata.Sql.Document

namespace Schemata
namespace Sql

abbrev tokensOf (ls : List Lexeme) : List Token := ls.map (·.token)

theorem nextToken_of_tokens {ls : List Lexeme} {t : Token} {ts : List Token}
    (h : tokensOf ls = t :: ts) : nextToken ls = t := by
  obtain ⟨l, rest, rfl, ht, -⟩ := List.map_eq_cons_iff.mp h
  exact ht

/-! ## Names -/

theorem expect_tokens {ls : List Lexeme} {t : Token} {ts : List Token} (what : String)
    (h : tokensOf ls = t :: ts) :
    ∃ rest, expect t what ls = .ok rest ∧ tokensOf rest = ts := by
  obtain ⟨l, rest, rfl, ht, hrest⟩ := List.map_eq_cons_iff.mp h
  exact ⟨rest, by simp only [expect, ht, if_true], hrest⟩

theorem name?_of_ident? {l : Lexeme} {name : String} (h : l.token.ident? = some name) :
    l.name? = some name := by
  unfold Lexeme.name?
  cases ht : l.token <;> rw [ht] at h <;> first | exact h | cases h

theorem ne_of_isName {t u : Token} (ht : t.isName = true) (hu : u.isName = false) : t ≠ u := by
  rintro rfl
  rw [ht] at hu
  cases hu

theorem readName_tokens {ls : List Lexeme} {name : String} {t : Token} {ts : List Token}
    (what : String) (h : tokensOf ls = t :: ts) (ht : t.ident? = some name) :
    ∃ rest, readName what ls = .ok (name, rest) ∧ tokensOf rest = ts := by
  obtain ⟨l, rest, rfl, hl, hrest⟩ := List.map_eq_cons_iff.mp h
  refine ⟨rest, ?_, hrest⟩
  simp only [readName, name?_of_ident? (by rw [hl, ht])]

/-- Without a dot after it, the name read so far is the last part. -/
theorem lastPart_of_ne_dot {ls : List Lexeme} (what name : String) (h : nextToken ls ≠ .dot) :
    lastPart what name ls = .ok (name, ls) := by
  rcases ls with _ | ⟨d, _ | ⟨l, rest⟩⟩
  · rfl
  · exact if_neg h
  · exact if_neg h

/-- After a dot, the name read so far does not count. -/
theorem lastPart_form {form : List Token} {table : String} (hform : TableNameForm table form)
    {ls : List Lexeme} {t : Token} {ts : List Token} (what name : String)
    (h : tokensOf ls = .dot :: (form ++ t :: ts)) (hdot : t ≠ .dot) :
    ∃ rest, lastPart what name ls = .ok (table, rest) ∧ tokensOf rest = t :: ts := by
  induction hform generalizing ls name with
  | plain hname =>
    obtain ⟨d, ls, rfl, hd, hls⟩ := List.map_eq_cons_iff.mp h
    obtain ⟨l, rest, rfl, hl, hrest⟩ := List.map_eq_cons_iff.mp hls
    refine ⟨rest, ?_, hrest⟩
    rw [lastPart, if_pos hd, name?_of_ident? (by rw [hl, hname])]
    exact lastPart_of_ne_dot what _ (by rwa [nextToken_of_tokens hrest])
  | qualified hschema _ ih =>
    obtain ⟨d, ls, rfl, hd, hls⟩ := List.map_eq_cons_iff.mp h
    obtain ⟨l, rest, rfl, hl, hrest⟩ := List.map_eq_cons_iff.mp hls
    obtain ⟨schema, hname⟩ := Option.isSome_iff_exists.mp hschema
    obtain ⟨last, hlast, htokens⟩ := ih schema hrest
    refine ⟨last, ?_, htokens⟩
    rw [lastPart, if_pos hd, name?_of_ident? (by rw [hl, hname])]
    exact hlast

theorem readQualifiedName_form {form : List Token} {table : String}
    (hform : TableNameForm table form) {ls : List Lexeme} {t : Token} {ts : List Token}
    (what : String) (h : tokensOf ls = form ++ t :: ts) (hdot : t ≠ .dot) :
    ∃ rest, readQualifiedName what ls = .ok (table, rest) ∧ tokensOf rest = t :: ts := by
  cases hform with
  | plain hname =>
    obtain ⟨rest, hread, hrest⟩ := readName_tokens what h hname
    refine ⟨rest, ?_, hrest⟩
    rw [readQualifiedName, hread]
    exact lastPart_of_ne_dot what table (by rwa [nextToken_of_tokens hrest])
  | qualified hschema hform =>
    obtain ⟨schema, hname⟩ := Option.isSome_iff_exists.mp hschema
    obtain ⟨mid, hread, hmid⟩ := readName_tokens what h hname
    obtain ⟨rest, hlast, hrest⟩ := lastPart_form hform what schema hmid hdot
    refine ⟨rest, ?_, hrest⟩
    rw [readQualifiedName, hread]
    exact hlast

/-! ## Lists of columns -/

theorem readColumnEntry_tokens {ls : List Lexeme} {name : String} {n t : Token} {ts : List Token}
    (h : tokensOf ls = n :: t :: ts) (hn : n.ident? = some name)
    (ht : t = .comma ∨ t = .rightParen) :
    ∃ rest, readColumnEntry ls = .ok (name, rest) ∧ tokensOf rest = t :: ts := by
  obtain ⟨rest, hread, hrest⟩ := readName_tokens "column name" h hn
  refine ⟨rest, ?_, hrest⟩
  have hnext := nextToken_of_tokens hrest
  have hgroup : skipGroup? rest = .ok rest := by
    rw [skipGroup?, hnext, if_neg]
    rcases ht with rfl | rfl <;> decide
  have horder : ((nextToken rest).isWord "asc" || (nextToken rest).isWord "desc") = false := by
    rw [hnext]
    rcases ht with rfl | rfl <;> rfl
  rw [readColumnEntry, hread]
  simp only [bind, Except.bind, hgroup, horder]
  rfl

theorem readSeparator_comma {ls : List Lexeme} {ts : List Token} (fault : SyntaxFault)
    (h : tokensOf ls = .comma :: ts) :
    ∃ rest, readSeparator fault ls = .ok (true, rest) ∧ tokensOf rest = ts := by
  obtain ⟨l, rest, rfl, ht, hrest⟩ := List.map_eq_cons_iff.mp h
  exact ⟨rest, by simp [readSeparator, ht], hrest⟩

theorem readSeparator_rightParen {ls : List Lexeme} {ts : List Token} (fault : SyntaxFault)
    (h : tokensOf ls = .rightParen :: ts) :
    ∃ rest, readSeparator fault ls = .ok (false, rest) ∧ tokensOf rest = ts := by
  obtain ⟨l, rest, rfl, ht, hrest⟩ := List.map_eq_cons_iff.mp h
  exact ⟨rest, by simp [readSeparator, ht], hrest⟩

theorem readColumnEntries_last {ls mid rest : List Lexeme} {name : String}
    (hentry : readColumnEntry ls = .ok (name, mid))
    (hseparator : readSeparator .nameSeparator mid = .ok (false, rest)) :
    readColumnEntries ls = .ok ([name], rest) := by
  rw [readColumnEntries_eq, hentry]
  show (readSeparator _ mid >>= _) = _
  rw [hseparator]
  rfl

theorem readColumnEntries_more {ls mid rest last : List Lexeme} {name : String}
    {names : List String} (hentry : readColumnEntry ls = .ok (name, mid))
    (hseparator : readSeparator .nameSeparator mid = .ok (true, rest))
    (hmore : readColumnEntries rest = .ok (names, last)) :
    readColumnEntries ls = .ok (name :: names, last) := by
  rw [readColumnEntries_eq, hentry]
  show (readSeparator _ mid >>= _) = _
  rw [hseparator]
  show (readColumnEntries rest >>= _) = _
  rw [hmore]
  rfl

theorem readColumnEntries_tokens {ls : List Lexeme} {columns : List String} {names ts : List Token}
    (hnames : List.Forall₂ (fun column t => t.ident? = some column) columns names)
    (hne : columns ≠ [])
    (h : tokensOf ls =
      [Token.comma].intercalate (names.map fun t => [t]) ++ .rightParen :: ts) :
    ∃ rest, readColumnEntries ls = .ok (columns, rest) ∧ tokensOf rest = ts := by
  induction hnames generalizing ls with
  | nil => exact absurd rfl hne
  | cons hname hnames ih =>
    cases hnames with
    | nil =>
      rw [List.map_cons, List.map_nil, List.intercalate_singleton, List.singleton_append] at h
      obtain ⟨mid, hentry, hmid⟩ := readColumnEntry_tokens h hname (.inr rfl)
      obtain ⟨rest, hseparator, hrest⟩ := readSeparator_rightParen .nameSeparator hmid
      exact ⟨rest, readColumnEntries_last hentry hseparator, hrest⟩
    | cons _ _ =>
      rw [List.map_cons, List.intercalate_cons_of_ne_nil (by simp), List.append_assoc,
        List.append_assoc, List.singleton_append, List.singleton_append] at h
      obtain ⟨mid, hentry, hmid⟩ := readColumnEntry_tokens h hname (.inl rfl)
      obtain ⟨rest, hseparator, hrest⟩ := readSeparator_comma .nameSeparator hmid
      obtain ⟨last, hmore, hlast⟩ := ih (by simp) hrest
      exact ⟨last, readColumnEntries_more hentry hseparator hmore, hlast⟩

theorem readColumnList_form {form : List Token} {columns : List String}
    (hform : ColumnListForm columns form) (hne : columns ≠ []) {ls : List Lexeme}
    {ts : List Token} (h : tokensOf ls = form ++ ts) :
    ∃ rest, readColumnList ls = .ok (columns, rest) ∧ tokensOf rest = ts := by
  obtain ⟨hnames⟩ := hform
  rw [List.append_assoc, List.append_assoc] at h
  obtain ⟨mid, hopen, hmid⟩ := expect_tokens "`(` before column list" h
  obtain ⟨rest, hentries, hrest⟩ := readColumnEntries_tokens hnames hne hmid
  exact ⟨rest, by rw [readColumnList, hopen]; exact hentries, hrest⟩

/-! ## Columns -/

theorem readTypeName_ident {ls : List Lexeme} {word : String} {t : Token} {ts : List Token}
    (h : tokensOf ls = .ident word :: t :: ts) (hident : ∀ name, t ≠ .ident name)
    (hparen : t ≠ .leftParen) :
    ∃ rest, readTypeName [] ls = .ok (word.toList, rest) ∧ tokensOf rest = t :: ts := by
  obtain ⟨l, rest, rfl, hl, hrest⟩ := List.map_eq_cons_iff.mp h
  obtain ⟨l', rest', rfl, hl', -⟩ := List.map_eq_cons_iff.mp hrest
  have hend : readTypeName word.toList (l' :: rest') = .ok (word.toList, l' :: rest') := by
    rw [readTypeName]
    split
    · next name hname => exact absurd (hl'.symm.trans hname) (hident name)
    · next hopen => exact absurd (hl'.symm.trans hopen) hparen
    · rfl
  refine ⟨l' :: rest', ?_, hrest⟩
  rw [readTypeName]
  split
  · next name hname =>
    rw [hl] at hname
    cases hname
    exact hend
  · next hopen => rw [hl] at hopen; cases hopen
  · next hother _ => exact absurd hl (hother word)

/-- The two lower cases of a character differ only outside ASCII. -/
theorem lowerChar_eq_toLower {c : Char} (h : c.toNat ≠ 0x212A) : Text.lowerChar c = c.toLower := by
  unfold Text.lowerChar Char.toLower
  by_cases hupper : c.val ≥ 'A'.val ∧ c.val ≤ 'Z'.val
  · have hcond : ('A' ≤ c && c ≤ 'Z') = true := by
      rw [Bool.and_eq_true, decide_eq_true_iff, decide_eq_true_iff]
      exact hupper
    have hhi : c.toNat ≤ 0x5A := UInt32.le_iff_toNat_le.mp hupper.2
    have hvalid : (c.toNat + 32).isValidChar := .inl (by omega)
    rw [if_pos hcond, dif_pos hupper]
    apply Char.ext
    rw [Char.ofNat, dif_pos hvalid]
    apply UInt32.toNat_inj.mp
    rw [UInt32.toNat_add]
    show c.toNat + 32 = (c.toNat + 32) % 2 ^ 32
    omega
  · have hcond : ¬('A' ≤ c && c ≤ 'Z') = true := by
      rw [Bool.and_eq_true, decide_eq_true_iff, decide_eq_true_iff]
      exact hupper
    rw [if_neg hcond, if_neg h, dif_neg hupper]

theorem lower_eq_lowerAscii {cs : List Char} (h : ∀ c ∈ Text.lowerAscii cs, c.isLower = true) :
    Text.lower cs = Text.lowerAscii cs := by
  refine List.map_congr_left fun c hc => lowerChar_eq_toLower fun hcode => ?_
  have hkelvin : c = Char.ofNat 0x212A := by rw [← hcode, Char.ofNat_toNat]
  have hlower := h _ (List.mem_map_of_mem hc)
  rw [hkelvin] at hlower
  revert hlower
  decide

theorem toType?_of_isWord (dialect : Dialect) {t : ColumnType} {word : String}
    (h : (Token.ident word).isWord t.word = true) :
    TypeName.toType? dialect word = some t := by
  have hsame : Text.lowerAscii word.toList = Text.lowerAscii t.name.toList := by
    have hword : Text.lowerAscii word.toList = t.word.toList := by simpa [Token.isWord] using h
    rw [hword, ColumnType.word, String.toList_ofList]
  have hname : ∀ c ∈ Text.lowerAscii t.name.toList, c.isLower = true := by
    rw [← List.all_eq_true]
    cases t <;> decide
  have hlower : Text.lower word.toList = Text.lower t.name.toList := by
    rw [lower_eq_lowerAscii (by rwa [hsame]), lower_eq_lowerAscii hname, hsame]
  have htype : TypeName.toType? dialect t.name = some t := by
    cases dialect <;> cases t <;> decide
  rw [← htype]
  simp only [TypeName.toType?, hlower]

theorem readColumnClauses_end {ls : List Lexeme} {t : Token} {ts : List Token}
    (h : tokensOf ls = t :: ts) (ht : endsItem t = true) :
    readColumnClauses ls = .ok ([], ls) := by
  obtain ⟨l, rest, rfl, hl, -⟩ := List.map_eq_cons_iff.mp h
  rw [readColumnClauses_cons, if_pos (by rw [hl, ht])]

theorem readColumnClauses_more {l : Lexeme} {rest mid last : List Lexeme} {clause : ColumnClause}
    {clauses : List ColumnClause} (hl : endsItem l.token = false)
    (hclause : readColumnClause l rest = .ok (clause, mid))
    (hmore : readColumnClauses mid = .ok (clauses, last)) :
    readColumnClauses (l :: rest) = .ok (clause :: clauses, last) := by
  rw [readColumnClauses_cons, if_neg (by rw [hl]; exact Bool.false_ne_true), hclause]
  show (readColumnClauses mid >>= _) = _
  rw [hmore]
  rfl

def ColumnMark.clause : ColumnMark → ColumnClause
  | primaryKey => .primaryKey
  | notNull => .notNull
  | unique => .unique

/-- No clause that makes a mark begins with a word that goes on with the clause before it. -/
theorem exists_cons_marks (marks : List ColumnMark) {t : Token} (ht : endsItem t = true)
    (ts : List Token) :
    ∃ u us, marks.flatMap ColumnMark.tokens ++ t :: ts = u :: us ∧ u.isName = false ∧
      u ≠ .leftParen ∧ u ≠ .keyword .key := by
  cases marks with
  | nil =>
    refine ⟨t, ts, rfl, ?_⟩
    cases t <;> first | exact ⟨rfl, by decide, by decide⟩ | cases ht
  | cons mark marks => cases mark <;> exact ⟨_, _, rfl, rfl, by simp, by simp⟩

theorem readColumnClauses_marks {marks : List ColumnMark} {ls : List Lexeme} {t : Token}
    {ts : List Token} (ht : endsItem t = true)
    (h : tokensOf ls = marks.flatMap ColumnMark.tokens ++ t :: ts) :
    ∃ rest, readColumnClauses ls = .ok (marks.map ColumnMark.clause, rest) ∧
      tokensOf rest = t :: ts := by
  induction marks generalizing ls with
  | nil => exact ⟨ls, readColumnClauses_end h ht, h⟩
  | cons mark marks ih =>
    -- The lexemes after the clause of the first mark hold those of the others.
    have hfirst : ∃ l mid rest, ls = l :: mid ∧ endsItem l.token = false ∧
        readColumnClause l mid = .ok (mark.clause, rest) ∧
        tokensOf rest = marks.flatMap ColumnMark.tokens ++ t :: ts := by
      cases mark with
      | primaryKey =>
        obtain ⟨l, mid, rfl, hl, hmid⟩ := List.map_eq_cons_iff.mp h
        obtain ⟨rest, hkey, hrest⟩ := expect_tokens "KEY after PRIMARY" hmid
        refine ⟨l, mid, rest, rfl, by rw [hl]; rfl, ?_, hrest⟩
        simp only [readColumnClause, hl, hkey, bind, Except.bind]
        rfl
      | notNull =>
        obtain ⟨l, mid, rfl, hl, hmid⟩ := List.map_eq_cons_iff.mp h
        obtain ⟨rest, hnull, hrest⟩ := expect_tokens "NULL after NOT" hmid
        refine ⟨l, mid, rest, rfl, by rw [hl]; rfl, ?_, hrest⟩
        simp only [readColumnClause, hl, hnull, bind, Except.bind]
        rfl
      | unique =>
        obtain ⟨l, rest, rfl, hl, hrest⟩ := List.map_eq_cons_iff.mp h
        obtain ⟨u, us, hu, -, -, hkey⟩ := exists_cons_marks marks ht ts
        have hskip : skipIf (.keyword .key) rest = rest := by
          rw [skipIf, nextToken_of_tokens (hrest.trans hu), if_neg hkey]
        refine ⟨l, rest, rest, rfl, by rw [hl]; rfl, ?_, hrest⟩
        simp only [readColumnClause, hl, hskip]
        rfl
    obtain ⟨l, mid, rest, rfl, hl, hclause, hrest⟩ := hfirst
    obtain ⟨last, hmore, hlast⟩ := ih hrest
    exact ⟨last, readColumnClauses_more hl hclause hmore, hlast⟩

theorem foldl_apply_marks (marks : List ColumnMark) (d : ColumnDef) :
    (marks.map ColumnMark.clause).foldl ColumnDef.apply d =
      { d with
        isPrimaryKey := d.isPrimaryKey || marks.contains .primaryKey
        isUnique := d.isUnique || marks.contains .unique
        isNullable := d.isNullable && !marks.contains .notNull } := by
  induction marks generalizing d with
  | nil => simp
  | cons mark marks ih =>
    rw [List.map_cons, List.foldl_cons, ih]
    cases mark <;> simp [ColumnMark.clause, ColumnDef.apply]

/-- The order of the marks does not matter. -/
theorem spec_marks {c : ColumnSpec} {marks : List ColumnMark} (h : marks.Perm (columnMarks c))
    (position : Text.Position) :
    ((marks.map ColumnMark.clause).foldl ColumnDef.apply
      ⟨c.name, c.type, false, false, true, position⟩).spec = c := by
  obtain ⟨name, type, isPrimaryKey, isUnique, isNullable⟩ := c
  rw [foldl_apply_marks]
  simp only [h.contains_eq]
  cases isPrimaryKey <;> cases isUnique <;> cases isNullable <;> rfl

theorem constraints_marks (marks : List ColumnMark) (name : String) :
    (marks.map ColumnMark.clause).filterMap (ColumnClause.constraint? name) = [] := by
  rw [List.filterMap_map, List.filterMap_eq_nil_iff]
  intro mark _
  cases mark <;> rfl

theorem readColumn_form {form : List Token} {c : ColumnSpec} (hform : ColumnForm c form)
    {ls : List Lexeme} {t : Token} {ts : List Token} (dialect : Dialect)
    (ht : endsItem t = true) (h : tokensOf ls = form ++ t :: ts) :
    ∃ d rest, readColumn dialect ls = .ok ((d, []), rest) ∧ d.spec = c ∧
      tokensOf rest = t :: ts := by
  obtain @⟨name, type, marks, hname, htype, hmarks⟩ := hform
  rw [List.append_assoc, List.cons_append, List.cons_append, List.nil_append] at h
  obtain ⟨u, us, hu, hunnamed, hparen, -⟩ := exists_cons_marks marks ht ts
  obtain ⟨mid, hread, hmid⟩ := readName_tokens "column name" h hname
  cases type with
  | ident word =>
    rw [hu] at hmid
    have hident : ∀ name, u ≠ .ident name := by
      rintro name rfl
      cases hunnamed
    obtain ⟨mid', hreadType, hmid'⟩ := readTypeName_ident hmid hident hparen
    rw [← hu] at hmid'
    obtain ⟨rest, hclauses, hrest⟩ := readColumnClauses_marks ht hmid'
    obtain ⟨l, ls', rfl, -, -⟩ := List.map_eq_cons_iff.mp h
    refine ⟨_, rest, ?_, spec_marks hmarks l.position, hrest⟩
    have hnonempty : word.toList.isEmpty = false := by
      have hword : Text.lowerAscii word.toList = c.type.word.toList := by
        simpa [Token.isWord] using htype
      cases hempty : word.toList with
      | nil =>
        rw [hempty] at hword
        revert hword
        cases c.type <;> decide
      | cons => rfl
    have htypeName : TypeName.toType? dialect (String.ofList word.toList) = some c.type := by
      rw [String.ofList_toList]
      exact toType?_of_isWord dialect htype
    simp only [readColumn, hread, hreadType, hclauses, bind, Except.bind, hnonempty, htypeName,
      constraints_marks]
    rfl
  | _ => cases htype

/-! ## Constraints -/

theorem skipConstraintName_form {label : List Token} (hlabel : LabelForm label)
    {ls : List Lexeme} {t : Token} {ts : List Token} (h : tokensOf ls = label ++ t :: ts)
    (ht : t ≠ .keyword .constraint) : tokensOf (skipConstraintName ls) = t :: ts := by
  cases hlabel with
  | unnamed =>
    rw [skipConstraintName, nextToken_of_tokens h, if_neg ht]
    exact h
  | named hname =>
    have hnext := nextToken_of_tokens h
    obtain ⟨l, mid, rfl, -, hmid⟩ := List.map_eq_cons_iff.mp h
    have hnext' := nextToken_of_tokens hmid
    obtain ⟨l', rest, rfl, -, hrest⟩ := List.map_eq_cons_iff.mp hmid
    rw [skipConstraintName, hnext, if_pos rfl, List.tail_cons, skipName, hnext', if_pos hname]
    exact hrest

theorem readConstraint_key {form : List Token} {columns : List String}
    (hform : KeyForm columns form) {ls : List Lexeme} {ts : List Token}
    (h : tokensOf ls = form ++ ts) :
    ∃ rest, readConstraint ls = .ok (some (.primaryKey columns), rest) ∧ tokensOf rest = ts := by
  obtain ⟨hne, hlabel, hlist⟩ := hform
  rw [List.append_assoc, List.append_assoc] at h
  have hskip := skipConstraintName_form hlabel h (by simp)
  obtain ⟨l, mid, hls, hl, hmid⟩ := List.map_eq_cons_iff.mp hskip
  obtain ⟨mid', hkey, hmid'⟩ := expect_tokens "KEY after PRIMARY" hmid
  obtain ⟨rest, hread, hrest⟩ := readColumnList_form hlist hne hmid'
  refine ⟨rest, ?_, hrest⟩
  simp only [readConstraint, hls, hl, hkey, hread, bind, Except.bind]
  rfl

/-! ## Links -/

/-- No action begins with a word that goes on with what stands before it. -/
theorem nextToken_actions {form : List Token} (hform : ActionsForm form) {ls : List Lexeme}
    (h : tokensOf ls = form) : nextToken ls = .eof ∨ nextToken ls = .keyword .on := by
  cases hform with
  | nil =>
    rw [List.map_eq_nil_iff.mp h]
    exact .inl rfl
  | cons => exact .inr (nextToken_of_tokens h)

theorem not_isWord_of_isWord {t : Token} {a b : String} (h : t.isWord a = true) (hne : a ≠ b) :
    t.isWord b = false := by
  cases t with
  | ident name =>
    have ha : Text.lowerAscii name.toList = a.toList := by simpa [Token.isWord] using h
    have hb : a.toList ≠ b.toList := fun heq => hne (String.toList_inj.mp heq)
    simpa [Token.isWord, ha] using hb
  | _ => cases h

theorem skipAction_cons {l : Lexeme}
    (hl : l.token.isWord "delete" = true ∨ l.token.isWord "update" = true) (ls : List Lexeme) :
    skipAction (l :: ls) =
      if (nextToken ls).isWord "set" || (nextToken ls).isWord "no" then .ok (ls.drop 2)
      else if (nextToken ls).isName then skipGroup? ls.tail else fail .action ls := by
  rw [skipAction, if_pos]
  · rfl
  · rw [Bool.or_eq_true]
    exact hl

theorem skipAction_one {l : Lexeme}
    (hl : l.token.isWord "delete" = true ∨ l.token.isWord "update" = true) {word : String}
    (hset : word ≠ "set") (hno : word ≠ "no") {t : Token} (ht : t.isWord word = true)
    {rest : List Token} (hrest : ActionsForm rest) {ls : List Lexeme}
    (h : tokensOf ls = t :: rest) :
    ∃ last, skipAction (l :: ls) = .ok last ∧ tokensOf last = rest := by
  have hnext := nextToken_of_tokens h
  obtain ⟨l', last, rfl, -, hlast⟩ := List.map_eq_cons_iff.mp h
  refine ⟨last, ?_, hlast⟩
  have hgroup : nextToken last ≠ .leftParen := by
    rcases nextToken_actions hrest hlast with hend | hend <;> rw [hend] <;> decide
  rw [skipAction_cons hl, hnext, not_isWord_of_isWord ht hset, not_isWord_of_isWord ht hno,
    if_neg (by decide), if_pos (isName_of_isWord ht), List.tail_cons, skipGroup?, if_neg hgroup]

theorem skipAction_two {l : Lexeme}
    (hl : l.token.isWord "delete" = true ∨ l.token.isWord "update" = true) {t u : Token}
    (ht : t.isWord "set" = true ∨ t.isWord "no" = true) {rest : List Token} {ls : List Lexeme}
    (h : tokensOf ls = t :: u :: rest) :
    ∃ last, skipAction (l :: ls) = .ok last ∧ tokensOf last = rest := by
  refine ⟨ls.drop 2, ?_, ?_⟩
  · rw [skipAction_cons hl, nextToken_of_tokens h, if_pos (by rwa [Bool.or_eq_true])]
  · rw [tokensOf, List.map_drop, show ls.map (·.token) = _ from h]
    rfl

theorem skipAction_form {event : Token} {action rest : List Token}
    (hevent : event.isWord "delete" = true ∨ event.isWord "update" = true)
    (haction : ActionForm action) (hrest : ActionsForm rest) {ls : List Lexeme}
    (h : tokensOf ls = event :: (action ++ rest)) :
    ∃ last, skipAction ls = .ok last ∧ tokensOf last = rest := by
  obtain ⟨l, ls, rfl, rfl, hls⟩ := List.map_eq_cons_iff.mp h
  cases haction with
  | cascade hword => exact skipAction_one hevent (by decide) (by decide) hword hrest hls
  | restrict hword => exact skipAction_one hevent (by decide) (by decide) hword hrest hls
  | setNull hword => exact skipAction_two hevent (.inl hword) hls
  | setDefault hword => exact skipAction_two hevent (.inl hword) hls
  | noAction hword _ => exact skipAction_two hevent (.inr hword) hls

theorem skipActions_form {form : List Token} (hform : ActionsForm form) {ls : List Lexeme}
    (h : tokensOf ls = form) : skipActions ls = .ok [] := by
  induction hform generalizing ls with
  | nil =>
    rw [List.map_eq_nil_iff.mp h, skipActions]
  | cons hevent haction hrest ih =>
    rw [List.append_assoc] at h
    obtain ⟨l, tail, rfl, hl, htail⟩ := List.map_eq_cons_iff.mp h
    obtain ⟨last, hskip, hlast⟩ := skipAction_form hevent haction hrest htail
    rw [skipActions_cons, if_pos hl, hskip]
    exact ih hlast

theorem readTarget_form {table target actions : List Token} {name column : String}
    (htable : TableNameForm name table) (htarget : ColumnListForm [column] target)
    (hactions : ActionsForm actions) {ls : List Lexeme}
    (h : tokensOf ls = table ++ (target ++ actions)) :
    readTarget ls = .ok (⟨name, [column]⟩, []) := by
  have hopen : ∃ inner, target = .leftParen :: inner := by
    obtain ⟨-⟩ := htarget
    exact ⟨_, rfl⟩
  obtain ⟨inner, hinner⟩ := hopen
  have h' : tokensOf ls = table ++ .leftParen :: (inner ++ actions) := by
    rw [h, hinner]
    rfl
  obtain ⟨mid, hread, hmid⟩ := readQualifiedName_form htable "referenced table" h' (by simp)
  have hmid' : tokensOf mid = target ++ actions := by
    rw [hmid, hinner]
    rfl
  obtain ⟨rest, hlist, hrest⟩ := readColumnList_form htarget (by simp) hmid'
  have hcolumns : readTargetColumns mid = .ok ([column], rest) := by
    rw [readTargetColumns, nextToken_of_tokens hmid, if_pos rfl, hlist]
  have hmatch : skipMatch rest = rest := by
    rw [skipMatch, if_neg]
    rcases nextToken_actions hactions hrest with hnext | hnext <;> rw [hnext] <;> decide
  have hskip := skipActions_form hactions hrest
  simp only [readTarget, hread, hcolumns, hmatch, hskip, bind, Except.bind]
  rfl

/-- The rule that a script states for a link. -/
def Link.rule (l : Link) : Rule := ⟨l.holder, .foreignKey ⟨[l.column], l.table, [l.target]⟩⟩

theorem readForeignKey_form {column table target actions : List Token} {l : Link}
    (hcolumn : ColumnListForm [l.column] column) (htable : TableNameForm l.table table)
    (htarget : ColumnListForm [l.target] target) (hactions : ActionsForm actions)
    {ls : List Lexeme}
    (h : tokensOf ls = .keyword .key ::
      (column ++ .keyword .references :: (table ++ (target ++ actions)))) :
    readForeignKey ls = .ok (⟨[l.column], l.table, [l.target]⟩, []) := by
  obtain ⟨mid, hkey, hmid⟩ := expect_tokens "KEY after FOREIGN" h
  have hskip : skipName mid = mid := by
    obtain ⟨-⟩ := hcolumn
    rw [skipName, nextToken_of_tokens hmid]
    rfl
  obtain ⟨mid', hlist, hmid'⟩ := readColumnList_form hcolumn (by simp) hmid
  obtain ⟨mid'', hreferences, hmid''⟩ := expect_tokens "REFERENCES" hmid'
  have htarget := readTarget_form htable htarget hactions hmid''
  simp only [readForeignKey, hkey, hskip, hlist, hreferences, htarget, bind, Except.bind]
  rfl

theorem skipUntil_nil (stops : Token → Bool) : skipUntil stops [] = .ok [] := by
  rw [skipUntil]

theorem readConstraint_link {label column table target actions : List Token} {l : Link}
    (hlabel : LabelForm label) (hcolumn : ColumnListForm [l.column] column)
    (htable : TableNameForm l.table table) (htarget : ColumnListForm [l.target] target)
    (hactions : ActionsForm actions) {ls : List Lexeme}
    (h : tokensOf ls = label ++ .keyword .foreign :: .keyword .key ::
      (column ++ .keyword .references :: (table ++ (target ++ actions)))) :
    readConstraint ls = .ok (some l.rule.constraint, []) := by
  have hskip := skipConstraintName_form hlabel h (by simp)
  obtain ⟨first, mid, hls, hfirst, hmid⟩ := List.map_eq_cons_iff.mp hskip
  have hread := readForeignKey_form hcolumn htable htarget hactions hmid
  simp only [readConstraint, hls, hfirst, hread, bind, Except.bind]
  rfl

theorem readAdditions_link {label column table target actions : List Token} {l : Link}
    (hlabel : LabelForm label) (hcolumn : ColumnListForm [l.column] column)
    (htable : TableNameForm l.table table) (htarget : ColumnListForm [l.target] target)
    (hactions : ActionsForm actions) {ls : List Lexeme}
    (h : tokensOf ls = .keyword .add :: (label ++ .keyword .foreign :: .keyword .key ::
      (column ++ .keyword .references :: (table ++ (target ++ actions))))) :
    ∃ position, readAdditions ls = .ok [(l.rule.constraint, position)] := by
  obtain ⟨rest, hadd, hrest⟩ := expect_tokens "ADD CONSTRAINT" h
  have hconstraint := readConstraint_link hlabel hcolumn htable htarget hactions hrest
  have haddable : isAddable (nextToken rest) = true := by
    cases hlabel <;> rw [nextToken_of_tokens hrest] <;> rfl
  obtain ⟨first, ls, rfl, -, -⟩ := List.map_eq_cons_iff.mp h
  have haddition :
      readAddition (first :: ls) = .ok ([(l.rule.constraint, first.position)], []) := by
    simp only [readAddition, hadd, haddable, if_true, hconstraint, skipUntil_nil, bind, Except.bind]
    rfl
  refine ⟨first.position, ?_⟩
  rw [readAdditions_eq, haddition]
  rfl

theorem skipIfExists_form {guard : List Token}
    (hguard : guard = [] ∨ guard = [.keyword .ifWord, .keyword .existsWord]) {ls : List Lexeme}
    {t : Token} {ts : List Token} (h : tokensOf ls = guard ++ t :: ts)
    (ht : t ≠ .keyword .ifWord) :
    ∃ rest, skipIfExists ls = .ok rest ∧ tokensOf rest = t :: ts := by
  rcases hguard with rfl | rfl
  · exact ⟨ls, by rw [skipIfExists, nextToken_of_tokens h, if_neg ht], h⟩
  · have hnext := nextToken_of_tokens h
    obtain ⟨l, mid, rfl, -, hmid⟩ := List.map_eq_cons_iff.mp h
    obtain ⟨rest, hexists, hrest⟩ := expect_tokens "EXISTS" hmid
    exact ⟨rest, by rw [skipIfExists, hnext, if_pos rfl, List.tail_cons, hexists], hrest⟩

theorem skipOnly_form {only : List Token} (honly : only = [] ∨ only = [.keyword .only])
    {ls : List Lexeme} {t : Token} {ts : List Token} (h : tokensOf ls = only ++ t :: ts)
    (ht : t ≠ .keyword .only) : tokensOf (skipIf (.keyword .only) ls) = t :: ts := by
  rcases honly with rfl | rfl
  · rw [skipIf, nextToken_of_tokens h, if_neg ht]
    exact h
  · rw [skipIf, nextToken_of_tokens h, if_pos rfl]
    obtain ⟨l, rest, rfl, -, hrest⟩ := List.map_eq_cons_iff.mp h
    exact hrest

/-- The name of a table is no word that may stand in front of it. -/
theorem exists_cons_tableName {table : String} {form : List Token}
    (h : TableNameForm table form) (ts : List Token) :
    ∃ t us, form ++ ts = t :: us ∧ t.isName = true := by
  cases h with
  | plain hname => exact ⟨_, _, rfl, isName_of_ident? hname⟩
  | qualified hschema _ => exact ⟨_, _, rfl, hschema⟩

/-- The statement of a link is read as its rule. -/
theorem readAlter_form {form : List Token} {l : Link} (hform : LinkForm l form)
    {ls : List Lexeme} (h : .keyword .alter :: tokensOf ls = form) :
    ∃ position, readAlter ls = .ok (l.holder, [(l.rule.constraint, position)]) := by
  obtain @⟨guard, only, holder, label, column, table, target, actions, hguard, honly, hholder,
    hlabel, hcolumn, htable, htarget, hactions⟩ := hform
  simp only [List.append_assoc, List.cons_append, List.nil_append] at h
  obtain ⟨u, us, hu, hname⟩ := exists_cons_tableName hholder _
  obtain ⟨mid, htableWord, hmid⟩ := expect_tokens "TABLE after ALTER" (List.cons.inj h).2
  rw [hu] at hmid
  obtain ⟨v, vs, hv, hif⟩ : ∃ v vs, only ++ u :: us = v :: vs ∧ v ≠ .keyword .ifWord := by
    rcases honly with rfl | rfl
    · exact ⟨u, us, rfl, ne_of_isName hname rfl⟩
    · exact ⟨_, _, rfl, by simp⟩
  rw [hv] at hmid
  obtain ⟨mid', hexists, hmid'⟩ := skipIfExists_form hguard hmid hif
  rw [← hv] at hmid'
  have hskip := skipOnly_form honly hmid' (ne_of_isName hname rfl)
  rw [← hu] at hskip
  obtain ⟨rest, hread, hrest⟩ := readQualifiedName_form hholder "table name" hskip (by simp)
  obtain ⟨position, hadditions⟩ :=
    readAdditions_link hlabel hcolumn htable htarget hactions hrest
  refine ⟨position, ?_⟩
  simp only [readAlter, htableWord, hexists, hread, hadditions, bind, Except.bind]
  rfl

/-! ## Items -/

/-- The tokens of an item, and the columns and constraints that it is read as. -/
structure ItemReading where
  tokens : List Token
  columns : List ColumnSpec
  constraints : List Constraint

/-- The item is read as that in front of a comma or the end of the body. -/
def ItemReading.Holds (dialect : Dialect) (i : ItemReading) : Prop :=
  ∀ {ls : List Lexeme} {t : Token} {ts : List Token}, t = .comma ∨ t = .rightParen →
    tokensOf ls = i.tokens ++ t :: ts →
    ∃ body rest, readItem dialect ls = .ok (body, rest) ∧
      body.columns.map ColumnDef.spec = i.columns ∧ body.constraints.map (·.1) = i.constraints ∧
      tokensOf rest = t :: ts

theorem holds_column (dialect : Dialect) {c : ColumnSpec} {form : List Token}
    (hform : ColumnForm c form) : ItemReading.Holds dialect ⟨form, [c], []⟩ := by
  intro ls t ts ht h
  have hends : endsItem t = true := by
    rcases ht with rfl | rfl <;> rfl
  obtain ⟨d, rest, hread, hspec, hrest⟩ := readColumn_form hform dialect hends h
  refine ⟨⟨[d], []⟩, rest, ?_, by simp [hspec], rfl, hrest⟩
  obtain ⟨hname, -, -⟩ := hform
  obtain ⟨l, ls', rfl, hl, -⟩ := List.map_eq_cons_iff.mp h
  have hname' : l.name?.isSome = true := by
    rw [name?_of_ident? (by rw [hl, hname])]
    rfl
  rw [← hl] at hname
  cases ht : l.token with
  | ident name =>
    simp only [readItem, ht, hname', if_true, hread, bind, Except.bind]
    simp
    rfl
  | quoted name =>
    simp only [readItem, ht, hname', if_true, hread, bind, Except.bind]
    simp
    rfl
  | _ =>
    rw [ht] at hname
    cases hname

theorem holds_key (dialect : Dialect) {columns : List String} {form : List Token}
    (hform : KeyForm columns form) :
    ItemReading.Holds dialect ⟨form, [], [.primaryKey columns]⟩ := by
  intro ls t ts _ h
  obtain ⟨rest, hread, hrest⟩ := readConstraint_key hform h
  have hfirst : ∃ l ls', ls = l :: ls' ∧
      (l.token = .keyword .constraint ∨ l.token = .keyword .primary) := by
    obtain ⟨-, hlabel, -⟩ := hform
    cases hlabel with
    | unnamed =>
      obtain ⟨l, ls', rfl, hl, -⟩ := List.map_eq_cons_iff.mp h
      exact ⟨l, ls', rfl, .inr hl⟩
    | named =>
      obtain ⟨l, ls', rfl, hl, -⟩ := List.map_eq_cons_iff.mp h
      exact ⟨l, ls', rfl, .inl hl⟩
  obtain ⟨l, ls', rfl, hl⟩ := hfirst
  refine ⟨⟨[], [(.primaryKey columns, l.position)]⟩, rest, ?_, rfl, rfl, hrest⟩
  rcases hl with hl | hl <;> simp only [readItem, hl, hread, bind, Except.bind] <;> rfl

theorem readItems_last {dialect : Dialect} {taken : List String} {ls mid rest : List Lexeme}
    {body : Body} (hitem : readItem dialect ls = .ok (body, mid))
    (hnew : ∀ c ∈ body.columns, c.name ∉ taken)
    (hseparator : readSeparator .itemSeparator mid = .ok (false, rest)) :
    readItems dialect taken ls = .ok (body, rest) := by
  have hrepeated : repeatedColumn? taken body.columns = none := by
    simpa [repeatedColumn?] using hnew
  rw [readItems_eq, hitem]
  simp only [bind, Except.bind, hrepeated, hseparator]
  rfl

theorem readItems_more {dialect : Dialect} {taken : List String} {ls mid rest last : List Lexeme}
    {body more : Body} (hitem : readItem dialect ls = .ok (body, mid))
    (hnew : ∀ c ∈ body.columns, c.name ∉ taken)
    (hseparator : readSeparator .itemSeparator mid = .ok (true, rest))
    (hmore : readItems dialect (taken ++ body.columns.map (·.name)) rest = .ok (more, last)) :
    readItems dialect taken ls = .ok (body ++ more, last) := by
  have hrepeated : repeatedColumn? taken body.columns = none := by
    simpa [repeatedColumn?] using hnew
  rw [readItems_eq, hitem]
  simp only [bind, Except.bind, hrepeated, hseparator, if_true, hmore]
  rfl

theorem names_of_specs {ds : List ColumnDef} {cs : List ColumnSpec}
    (h : ds.map ColumnDef.spec = cs) : ds.map (·.name) = cs.map (·.name) := by
  rw [← h, List.map_map]
  rfl

theorem fresh_of_specs {ds : List ColumnDef} {cs : List ColumnSpec} {taken : List String}
    (h : ds.map ColumnDef.spec = cs) (hnew : ∀ c ∈ cs, c.name ∉ taken) :
    ∀ d ∈ ds, d.name ∉ taken := by
  intro d hd
  exact hnew d.spec (h ▸ List.mem_map_of_mem hd)

/-- Items with commas between them are read one after the other if no column name occurs twice. -/
theorem readItems_tokens {dialect : Dialect} {items : List ItemReading}
    (hitems : ∀ i ∈ items, i.Holds dialect) (hne : items ≠ []) {taken : List String}
    (hnodup : ((items.flatMap (·.columns)).map (·.name)).Nodup)
    (hnew : ∀ c ∈ items.flatMap (·.columns), c.name ∉ taken) {ls : List Lexeme} {ts : List Token}
    (h : tokensOf ls = [Token.comma].intercalate (items.map (·.tokens)) ++ .rightParen :: ts) :
    ∃ body rest, readItems dialect taken ls = .ok (body, rest) ∧
      body.columns.map ColumnDef.spec = items.flatMap (·.columns) ∧
      body.constraints.map (·.1) = items.flatMap (·.constraints) ∧ tokensOf rest = ts := by
  induction items generalizing taken ls with
  | nil => exact absurd rfl hne
  | cons i items ih =>
    rw [List.flatMap_cons, List.map_append, List.nodup_append] at hnodup
    rw [List.flatMap_cons, List.forall_mem_append] at hnew
    have hi : i.Holds dialect := hitems i List.mem_cons_self
    cases items with
    | nil =>
      rw [List.map_cons, List.map_nil, List.intercalate_singleton] at h
      obtain ⟨body, mid, hread, hcolumns, hconstraints, hmid⟩ := hi (.inr rfl) h
      obtain ⟨rest, hseparator, hrest⟩ := readSeparator_rightParen .itemSeparator hmid
      have hfresh := fresh_of_specs hcolumns hnew.1
      refine ⟨body, rest, readItems_last hread hfresh hseparator, ?_, ?_, hrest⟩
      · simpa using hcolumns
      · simpa using hconstraints
    | cons second items =>
      rw [List.map_cons, List.intercalate_cons_of_ne_nil (by simp), List.append_assoc,
        List.append_assoc, List.singleton_append] at h
      obtain ⟨body, mid, hread, hcolumns, hconstraints, hmid⟩ := hi (.inl rfl) h
      obtain ⟨rest, hseparator, hrest⟩ := readSeparator_comma .itemSeparator hmid
      have hnew' : ∀ c ∈ (second :: items).flatMap (·.columns),
          c.name ∉ taken ++ body.columns.map (·.name) := by
        intro c hc hmem
        rcases List.mem_append.mp hmem with hmem | hmem
        · exact hnew.2 c hc hmem
        · rw [names_of_specs hcolumns] at hmem
          exact hnodup.2.2 _ hmem _ (List.mem_map_of_mem hc) rfl
      obtain ⟨more, last, hmore, hcolumns', hconstraints', hlast⟩ :=
        ih (fun j hj => hitems j (List.mem_cons_of_mem _ hj)) (by simp) hnodup.2.1 hnew' hrest
      have hfresh := fresh_of_specs hcolumns hnew.1
      refine ⟨body ++ more, last, readItems_more hread hfresh hseparator hmore, ?_, ?_, hlast⟩
      · show (body.columns ++ more.columns).map ColumnDef.spec = _
        rw [List.map_append, hcolumns, hcolumns']
        rfl
      · show (body.constraints ++ more.constraints).map (·.1) = _
        rw [List.map_append, hconstraints, hconstraints']
        rfl

end Sql
end Schemata
