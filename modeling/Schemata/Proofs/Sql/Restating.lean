/-
Saying the same in another place.  What a key or a reference says at its column, a constraint on
the whole table can say as well, and that constraint can be added to the table by a statement of
its own.
-/
import Schemata.Proofs.Sql.Composition
import Schemata.Proofs.Sql.Detaching
import Schemata.Proofs.Sql.Detection
import Schemata.Proofs.Sql.Spelling

namespace Schemata
namespace Sql

/-! ## Spellings -/

/-- A piece that stands nowhere. -/
def Piece.lexeme (p : Piece) : Lexeme := ⟨p, .start, 0⟩

/-- Keywords with a blank in front of each. -/
def wordPieces (words : List Keyword) : List Piece :=
  words.map fun word => ⟨[' '], word.spelling, .keyword word⟩

/-- A name in quotation marks. -/
def namePiece (gap : List Char) (name : String) : Piece :=
  ⟨gap, (quoteName name).toList, .quoted name⟩

/-- A list of one column, with a blank in front. -/
def listPieces (name : String) : List Piece :=
  [⟨[' '], ['('], .leftParen⟩, namePiece [] name, ⟨[], [')'], .rightParen⟩]

theorem isClosedGap_nil : IsClosedGap [] := by decide +kernel

theorem isClosedGap_blank : IsClosedGap [' '] := by decide +kernel

section

variable {rest : List Char}

theorem text_namePiece (gap : List Char) (name : String) :
    (namePiece gap name).text = '"' :: (doubleQuotes name.toList ++ ['"']) := by
  rw [namePiece, quoteName]
  dsimp only
  rw [String.toList_ofList]
  rfl

theorem spelled_name {gap : List Char} (hgap : IsClosedGap gap) {name : String}
    (hrest : '"' ∉ rest.head?) : (namePiece gap name).Spelled rest := by
  refine ⟨hgap, ⟨.quotes, by decide, text_namePiece gap name⟩, fun c hc hlast => ?_⟩
  rw [text_namePiece, ← List.cons_append, List.getLast?_concat] at hlast
  cases hlast
  exact hrest hc

theorem continuesWord_blank : continuesWord ' ' = false := by decide +kernel

theorem spelledAll_words (words : List Keyword)
    (hrest : ∀ c ∈ rest.head?, continuesWord c = false) :
    SpelledAll (wordPieces words) rest := by
  induction words with
  | nil => exact True.intro
  | cons word words ih =>
    refine ⟨⟨isClosedGap_blank, ?_, ?_⟩, ih⟩
    · show word.spelling.map Char.toUpper = word.spelling
      cases word <;> decide +kernel
    · intro c hc
      cases words with
      | nil => exact hrest c hc
      | cons _ _ =>
        cases hc
        exact continuesWord_blank

theorem spelledAll_list (name : String) (rest : List Char) : SpelledAll (listPieces name) rest :=
  ⟨⟨isClosedGap_blank, rfl, True.intro⟩, spelled_name isClosedGap_nil (by simp [Piece.span]),
    ⟨isClosedGap_nil, rfl, True.intro⟩, True.intro⟩

end

/-! ## Constraints on one column -/

/-- The lexemes of words and a list of the one column `name`. -/
def keyLexemes (words : List Keyword) (name : String) : List Lexeme :=
  (wordPieces words ++ listPieces name).map Piece.lexeme

theorem readColumnList_one (name : String) (rest : List Lexeme) :
    readColumnList ((listPieces name).map Piece.lexeme ++ rest) = .ok ([name], rest) := by
  let close : Lexeme := Piece.lexeme ⟨[], [')'], .rightParen⟩
  have hentry : readColumnEntry ((namePiece [] name).lexeme :: close :: rest) =
      .ok (name, close :: rest) := rfl
  have hseparator : readSeparator .nameSeparator (close :: rest) = .ok (false, rest) := rfl
  exact readColumnEntries_last hentry hseparator

/-- In front of `rest`, the clause `clause` of the column `name` says what the constraint says,
which the lexemes spell. -/
inductive Restated (rest : List Lexeme) (name : String) :
    List Lexeme → ColumnClause → Constraint → List Lexeme → Prop
  | primaryKey {l : Lexeme} {more : List Lexeme}
      (h : readColumnClause l (more ++ rest) = .ok (.primaryKey, rest)) :
      Restated rest name (l :: more) .primaryKey (.primaryKey [name])
        (keyLexemes [.primary, .key] name)
  | unique {l : Lexeme} {more : List Lexeme}
      (h : readColumnClause l (more ++ rest) = .ok (.unique, rest)) :
      Restated rest name (l :: more) .unique (.unique [name]) (keyLexemes [.unique] name)
  | references {l : Lexeme} {more : List Lexeme} {target : Target} {position : Text.Position}
      (h : readColumnClause l (more ++ rest) = .ok (.references target position, rest))
      (htargets : target.columns.length ≤ 1) :
      Restated rest name (l :: more) (.references target position)
        (.foreignKey ⟨[name], target.table, target.columns⟩)
        (keyLexemes [.foreign, .key] name ++ l.withGap [' '] :: more)

theorem token_of_readColumnClause {l : Lexeme} {ts rest : List Lexeme} {c : ColumnClause}
    (h : readColumnClause l ts = .ok (c, rest)) :
    match c with
    | .primaryKey => l.token = .keyword .primary ∧ ∃ k, k.token = .keyword .key ∧ ts = k :: rest
    | .unique => l.token = .keyword .unique ∧ rest = skipIf (.keyword .key) ts
    | .references target _ => l.token = .keyword .references ∧ readTarget ts = .ok (target, rest)
    | _ => True := by
  unfold readColumnClause at h
  split at h
  · next hl =>
    obtain ⟨mid, hkey, h⟩ := ok_of_bind h
    cases h
    obtain ⟨k, rfl, hk⟩ := ok_expect hkey
    exact ⟨hl, k, hk, rfl⟩
  · obtain ⟨mid, -, h⟩ := ok_of_bind h
    cases h
    exact True.intro
  · cases h
    exact True.intro
  · next hl =>
    cases h
    exact ⟨hl, rfl⟩
  · obtain ⟨mid, -, h⟩ := ok_of_bind h
    cases h
    exact True.intro
  · next hl =>
    obtain ⟨⟨target, mid⟩, htarget, h⟩ := ok_of_bind h
    cases h
    exact ⟨hl, htarget⟩
  iterate 2
    focus
      obtain ⟨⟨group, mid⟩, -, h⟩ := ok_of_bind h
      cases h
      exact True.intro
  · cases h
    exact True.intro
  · obtain ⟨mid, -, h⟩ := ok_of_bind h
    obtain ⟨mid', -, h⟩ := ok_of_bind h
    cases h
    exact True.intro
  · split at h
    · cases h
      exact True.intro
    · exact absurd h fail_ne_ok

namespace Restated

variable {rest clause item : List Lexeme} {name : String} {c : ColumnClause} {k : Constraint}

theorem isBreak (h : Restated rest name clause c k item) : isBreak (nextToken clause) = true := by
  cases h with
  | primaryKey h => exact congrArg Sql.isBreak (token_of_readColumnClause h).1
  | unique h => exact congrArg Sql.isBreak (token_of_readColumnClause h).1
  | references h _ => exact congrArg Sql.isBreak (token_of_readColumnClause h).1

/-- The constraint is read as what it says. -/
theorem readConstraint_append (h : Restated rest name clause c k item) {rest' : List Lexeme}
    (hrest' : Fits .item rest rest') : readConstraint (item ++ rest') = .ok (some k, rest') := by
  rw [readConstraint_eq]
  cases h with
  | primaryKey h =>
    show readColumnList ((listPieces name).map Piece.lexeme ++ rest') >>= _ = _
    rw [readColumnList_one]
    rfl
  | unique h =>
    show readColumnList ((listPieces name).map Piece.lexeme ++ rest') >>= _ = _
    rw [readColumnList_one]
    rfl
  | @references l more target position h htargets =>
    obtain ⟨hl, htarget⟩ := token_of_readColumnClause h
    have hread := (frames_readTarget htarget False.elim).read_append hrest'
    have hexpect : expect (.keyword .references) "REFERENCES"
        (l.withGap [' '] :: (more ++ rest')) = .ok (more ++ rest') := if_pos hl
    have hpaired : (target.columns.isEmpty || target.columns.length = [name].length) = true := by
      rw [Bool.or_eq_true, List.isEmpty_iff_length_eq_zero, decide_eq_true_iff]
      exact Nat.le_one_iff_eq_zero_or_eq_one.mp htargets
    have hkey : readForeignKey (keyLexemes [.key] name ++ l.withGap [' '] :: (more ++ rest')) =
        .ok (⟨[name], target.table, target.columns⟩, rest') := by
      show readColumnList ((listPieces name).map Piece.lexeme ++ _) >>= _ = _
      rw [readColumnList_one]
      show expect _ _ _ >>= _ = _
      rw [hexpect]
      show readTarget _ >>= _ = _
      rw [hread]
      exact if_pos hpaired
    rw [List.append_assoc, List.cons_append]
    show readForeignKey (keyLexemes [.key] name ++ _) >>= _ = _
    rw [hkey]
    rfl

theorem readsAs (h : Restated rest name clause c k item) (hne : rest ≠ []) (dialect : Dialect) :
    ReadsAs dialect item ⟨[], [(k, .start)]⟩ := by
  intro rest' hends'
  have hfits : Fits .item rest rest' :=
    ⟨fun hnil => absurd hnil hne, .inr hends'⟩
  have hread := h.readConstraint_append hfits
  have hfirst : ∃ first others, item = first :: others ∧ opensConstraint first.token = true ∧
      first.position = .start := by
    cases h <;> exact ⟨_, _, rfl, rfl, rfl⟩
  obtain ⟨first, others, rfl, hopens, hposition⟩ := hfirst
  rw [List.cons_append] at hread ⊢
  rw [readItem_cons, if_pos hopens, hread, hposition]
  rfl

theorem closed (h : Restated rest name clause c k item) (hclause : Closed isComma clause) :
    Closed isComma item := by
  cases h with
  | primaryKey _ => rfl
  | unique _ => rfl
  | references _ _ =>
    have hkey : Closed isComma (keyLexemes [.foreign, .key] name) := rfl
    exact hkey.append hclause

end Restated

/-! ## Constraints that are added -/

/-- The words that a key begins with, behind its name. -/
def opensKey : Token → Bool
  | .keyword .primary | .keyword .unique | .keyword .foreign => true
  | _ => false

theorem opensConstraint_of_opensKey {item : List Lexeme}
    (h : opensKey (nextToken (skipConstraintName item)) = true) :
    opensConstraint (nextToken item) = true ∧ isAddable (nextToken item) = true := by
  by_cases hname : nextToken item = .keyword .constraint
  · rw [hname]
    exact ⟨rfl, rfl⟩
  · rw [skipConstraintName, if_neg hname] at h
    unfold opensKey at h
    split at h
    iterate 3
      next hnext =>
        rw [hnext]
        exact ⟨rfl, rfl⟩
    cases h

theorem isSome_of_opensKey {ts rest : List Lexeme} {k : Option Constraint}
    (h : readConstraint ts = .ok (k, rest))
    (hkey : opensKey (nextToken (skipConstraintName ts)) = true) : k.isSome := by
  rw [readConstraint_eq] at h
  generalize skipConstraintName ts = us at h hkey
  unfold readUnnamed at h
  split at h
  · exact absurd h fail_ne_ok
  · next l tail =>
    split at h
    iterate 3
      focus
        obtain ⟨mid, -, h⟩ := ok_of_bind h
        try obtain ⟨mid', -, h⟩ := ok_of_bind h
        cases h
        rfl
    · next hl =>
      rw [show nextToken (l :: tail) = l.token from rfl, hl] at hkey
      cases hkey
    · exact absurd h fail_ne_ok

/-- A key that is an item of a body is also read apart from the body. -/
theorem ReadsAs.exists_readConstraint {dialect : Dialect} {item : List Lexeme} {b : Body}
    (h : ReadsAs dialect item b) (hkey : opensKey (nextToken (skipConstraintName item)) = true) :
    ∃ k position, b = ⟨[], [(k, position)]⟩ ∧ readConstraint item = .ok (some k, []) := by
  obtain ⟨l, more, rfl⟩ := List.exists_cons_of_ne_nil h.ne_nil
  have hread := h [] rfl
  have hopens : opensConstraint l.token = true := (opensConstraint_of_opensKey hkey).1
  rw [List.append_nil, readItem_cons, if_pos hopens] at hread
  obtain ⟨⟨k, rest⟩, hconstraint, hread⟩ := ok_of_bind hread
  cases hread
  obtain ⟨k, rfl⟩ := Option.isSome_iff_exists.mp (isSome_of_opensKey hconstraint hkey)
  exact ⟨k, l.position, rfl, hconstraint⟩

/-- The gap in front of a constraint does not count. -/
theorem readConstraint_withGap (l : Lexeme) (gap : List Char) (ts : List Lexeme) :
    readConstraint (l.withGap gap :: ts) = readConstraint (l :: ts) := by
  rw [readConstraint_eq, readConstraint_eq]
  unfold skipConstraintName
  by_cases hl : nextToken (l :: ts) = .keyword .constraint
  · rw [if_pos hl, if_pos (show nextToken (l.withGap gap :: ts) = _ from hl)]
    rfl
  · rw [if_neg hl, if_neg (show ¬nextToken (l.withGap gap :: ts) = _ from hl)]
    rfl

theorem nextToken_withGap (l : Lexeme) (gap : List Char) (ts : List Lexeme) :
    nextToken (skipConstraintName (l.withGap gap :: ts)) =
      nextToken (skipConstraintName (l :: ts)) := by
  unfold skipConstraintName
  by_cases hl : nextToken (l :: ts) = .keyword .constraint
  · rw [if_pos hl, if_pos (show nextToken (l.withGap gap :: ts) = _ from hl)]
    rfl
  · rw [if_neg hl, if_neg (show ¬nextToken (l.withGap gap :: ts) = _ from hl)]
    rfl

/-- The words of a statement that adds to the table, up to what it adds. -/
def alterPieces (table : String) : List Piece :=
  ⟨[], Keyword.spelling .alter, .keyword .alter⟩ ::
    (wordPieces [.table] ++ namePiece [' '] table :: wordPieces [.add])

/-- The lexemes of a statement that adds the item to the table. -/
def alterLexemes (table : String) (item : List Lexeme) : List Lexeme :=
  (alterPieces table).map Piece.lexeme ++ item

theorem readAlter_add {table : String} {item : List Lexeme} {k : Constraint}
    (hkey : opensKey (nextToken (skipConstraintName item)) = true)
    (h : readConstraint item = .ok (some k, [])) :
    readAlter (alterLexemes table item).tail = .ok (table, [(k, .start)]) := by
  have haddition : readAddition ((wordPieces [.add]).map Piece.lexeme ++ item) =
      .ok ([(k, .start)], []) := by
    show (if isAddable (nextToken item) then readConstraint item >>= _ else _) = _
    rw [if_pos (opensConstraint_of_opensKey hkey).2, h]
    show skipUntil _ [] >>= _ = _
    rw [skipUntil_nil]
    rfl
  have hadditions : readAdditions ((wordPieces [.add]).map Piece.lexeme ++ item) =
      .ok [(k, .start)] := by
    rw [readAdditions_eq, haddition]
    rfl
  have hname : lastPart "table name" table ((wordPieces [.add]).map Piece.lexeme ++ item) =
      .ok (table, (wordPieces [.add]).map Piece.lexeme ++ item) :=
    lastPart_of_ne_dot "table name" table nofun
  show lastPart "table name" table ((wordPieces [.add]).map Piece.lexeme ++ item) >>= _ = _
  rw [hname]
  show readAdditions ((wordPieces [.add]).map Piece.lexeme ++ item) >>= _ = _
  rw [hadditions]
  rfl

/-! ## Cues -/

theorem cues_words (words : List Keyword) (rest : List Lexeme) :
    Dialect.cues ((wordPieces words).map Piece.lexeme ++ rest) = Dialect.cues rest := by
  induction words with
  | nil => rfl
  | cons word words ih => exact (Dialect.cues_cons rfl _).trans ih

theorem cues_name (gap : List Char) (name : String) (rest : List Lexeme) :
    Dialect.cues ((namePiece gap name).lexeme :: rest) = Dialect.cues rest := by
  have hnone : ∀ next, Dialect.cue? (namePiece gap name).lexeme next = none := by
    intro next
    show (if (namePiece gap name).text.head? = some '\x60' then some Dialect.mysql else none) = none
    rw [text_namePiece]
    rfl
  rw [Dialect.cues, hnone]
  rfl

theorem cues_keyLexemes (words : List Keyword) (name : String) (rest : List Lexeme) :
    Dialect.cues (keyLexemes words name ++ rest) = Dialect.cues rest := by
  rw [keyLexemes, List.map_append, List.append_assoc, cues_words]
  refine (Dialect.cues_cons rfl _).trans ((cues_name _ _ _).trans ?_)
  exact Dialect.cues_cons rfl rest

theorem cues_alterLexemes (table : String) (item : List Lexeme) :
    Dialect.cues (alterLexemes table item) = Dialect.cues item := by
  refine (Dialect.cues_cons rfl _).trans ((cues_words [.table] _).trans ?_)
  exact (cues_name _ _ _).trans (cues_words [.add] item)

theorem Restated.cues {rest clause item : List Lexeme} {name : String} {c : ColumnClause}
    {k : Constraint} (h : Restated rest name clause c k item) :
    Dialect.cues item = Dialect.cues clause := by
  cases h with
  | @primaryKey l more h =>
    obtain ⟨hl, key, hkey, hmore⟩ := token_of_readColumnClause h
    obtain rfl : more = [key] := List.append_cancel_right hmore
    rw [Dialect.cues_cons (by rw [hl]; rfl), Dialect.cues_cons (by rw [hkey]; rfl),
      ← List.append_nil (keyLexemes _ _), cues_keyLexemes]
  | @unique l more h =>
    obtain ⟨hl, hrest⟩ := token_of_readColumnClause h
    have hmore : more = [] ∨ ∃ key, key.token = .keyword .key ∧ more = [key] := by
      rw [skipIf] at hrest
      split at hrest
      · next hkey =>
        cases more with
        | nil =>
          have hlength := congrArg List.length hrest
          cases rest with
          | nil => cases hkey
          | cons k rest => simp at hlength
        | cons key more =>
          refine .inr ⟨key, hkey, ?_⟩
          have hnil : more = [] := List.append_left_eq_self.mp hrest.symm
          rw [hnil]
      · exact .inl (List.append_left_eq_self.mp hrest.symm)
    rw [← List.append_nil (keyLexemes _ _), cues_keyLexemes, Dialect.cues_cons (by rw [hl]; rfl)]
    rcases hmore with rfl | ⟨key, hkey, rfl⟩
    · rfl
    · exact (Dialect.cues_cons (by rw [hkey]; rfl) []).symm
  | @references l more target position h htargets =>
    rw [cues_keyLexemes]
    rfl

end Sql
end Schemata
