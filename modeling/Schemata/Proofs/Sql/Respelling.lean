/-
Texts in which a constraint stands in another place.  They are cut into the lexemes that were there
before and those that spell the constraint, and only blanks in the gaps are different.
-/
import Schemata.Proofs.Sql.Restating
import Schemata.Proofs.Sql.Splicing

namespace Schemata
namespace Sql

/-! ## Texts -/

/-- The part of a script that lexemes cover.  All of its lexemes cover the whole script: see
`textOf_tokenize`. -/
def textOf (ls : List Lexeme) : String := String.ofList (ls.flatMap (·.toPiece.span))

abbrev piecesOf (ls : List Lexeme) : List Piece := ls.map (·.toPiece)

/-- The pieces with a blank in front of them. -/
def spaced : List Piece → List Piece
  | [] => []
  | p :: ps => p.withGap (' ' :: p.gap) :: ps

section

variable {p : Piece} {ps qs : List Piece} {rest : List Char}

theorem Cuts.blank (h : Cuts p rest) : Cuts (p.withGap (' ' :: p.gap)) rest := by
  refine ⟨?_, h.token⟩
  have hgap := h.gap
  rw [Piece.span] at hgap
  show splitGap (' ' :: (p.gap ++ p.text ++ rest)) = _
  rw [splitGap_blank rfl, hgap]
  rfl

theorem CutsAll.spaced (h : CutsAll ps rest) : CutsAll (spaced ps) rest := by
  cases ps with
  | nil => exact True.intro
  | cons p ps => exact ⟨h.1.blank, h.2⟩

theorem span_spaced (h : ps ≠ []) :
    (spaced ps).flatMap Piece.span = ' ' :: ps.flatMap Piece.span := by
  cases ps with
  | nil => exact absurd rfl h
  | cons p ps => rfl

theorem map_squeezed_spaced (ps : List Piece) :
    (spaced ps).map Piece.squeezed = ps.map Piece.squeezed := by
  cases ps with
  | nil => rfl
  | cons p ps =>
    have hgap : Text.squeeze (' ' :: p.gap) = Text.squeeze p.gap :=
      List.filter_cons_of_neg (by decide)
    show Piece.squeezed (p.withGap _) :: _ = _
    rw [Piece.squeezed, show (p.withGap (' ' :: p.gap)).gap = ' ' :: p.gap from rfl, hgap]
    rfl

theorem forall_mem_blank : ∀ c ∈ [' '], Text.isBlank c = true := List.forall_mem_singleton.mpr rfl

theorem CutsAll.blank (h : CutsAll ps rest) (more : List Char) : CutsAll ps (' ' :: more) :=
  h.replace (.separator (by decide) rest more)

theorem toList_textOf (ls : List Lexeme) :
    (textOf ls).toList = (piecesOf ls).flatMap Piece.span := by
  rw [textOf, String.toList_ofList, List.flatMap_map]

end

section

variable {text : String} {ls front after back item : List Lexeme} {e : Lexeme}

/-- A script is its lexemes with the gaps between them. -/
theorem textOf_tokenize (h : tokenize text = .ok ls) : textOf ls = text := by
  obtain ⟨ps, gap, htext, -, -, rfl⟩ := tokenize_eq_ok.mp h
  rw [← String.toList_inj, toList_textOf, piecesOf, map_toPiece_locate, htext]
  simp [Piece.span]

theorem exists_gap_of_tokenize (h : tokenize text = .ok (ls ++ [e])) :
    ∃ gap, CutsAll (piecesOf ls) gap ∧ IsGap gap ∧ e.toPiece = ⟨gap, [], .eof⟩ := by
  obtain ⟨ps, gap, -, hcuts, hgap, hlocate⟩ := tokenize_eq_ok.mp h
  have hpieces : piecesOf (ls ++ [e]) = ps ++ [⟨gap, [], .eof⟩] := by
    rw [hlocate]
    exact map_toPiece_locate _ _ _
  rw [piecesOf, List.map_append] at hpieces
  obtain ⟨rfl, he⟩ := List.append_inj' hpieces rfl
  exact ⟨gap, hcuts, hgap, (List.cons.inj he).1⟩

/-- Pieces that are cut off one after the other up to the last gap are those of the text. -/
theorem exists_tokenize (ps : List Piece) (gap : List Char) (hcuts : CutsAll ps gap)
    (hgap : IsGap gap) (htext : text.toList = ps.flatMap Piece.span ++ gap)
    (hls : squeezedOf ls = (ps ++ [(⟨gap, [], .eof⟩ : Piece)]).map Piece.squeezed) :
    ∃ ks, tokenize text = .ok ks ∧ squeezedOf ks = squeezedOf ls := by
  refine ⟨_, tokenize_eq_ok.mpr ⟨ps, gap, htext, hcuts, hgap, rfl⟩, ?_⟩
  have hpieces := map_toPiece_locate .start 0 (ps ++ [(⟨gap, [], .eof⟩ : Piece)])
  have hsqueezed := congrArg (List.map Piece.squeezed) hpieces
  rw [List.map_map] at hsqueezed
  exact hsqueezed.trans hls.symm

def commaPiece : Piece := ⟨[], [','], .comma⟩

theorem squeezedOf_eq (ls : List Lexeme) : squeezedOf ls = (piecesOf ls).map Piece.squeezed := by
  rw [List.map_map]
  rfl

/-- Parts of a script are cut as before, with an item more among them. -/
theorem exists_tokenize_item (h : tokenize text = .ok (ls ++ [e])) (hfront : front <+: ls)
    (hafter : after <:+: ls) (hback : back <:+ ls) (hne : back ≠ []) {constraint : String}
    (hitem : ∀ more, CutsAll (piecesOf item) (' ' :: more))
    (hconstraint : (piecesOf item).flatMap Piece.span = ' ' :: constraint.toList) :
    ∃ ks, tokenize (textOf front ++ " " ++ textOf after ++ ", " ++ constraint ++ " " ++
        textOf (back ++ [e])) = .ok ks ∧
      squeezedOf ks =
        squeezedOf (front ++ (after ++ commaPiece.lexeme :: item) ++ back ++ [e]) := by
  obtain ⟨gap, hcuts, hgap, he⟩ := exists_gap_of_tokenize h
  obtain ⟨tail, rfl⟩ := hfront
  obtain ⟨lead, hlead⟩ := hback
  obtain ⟨rest, hafter⟩ := hcuts.of_isInfix (hafter.map (·.toPiece))
  have hbackCuts : CutsAll (piecesOf back) gap := by
    rw [← hlead, piecesOf, List.map_append] at hcuts
    exact (cutsAll_append.mp hcuts).2
  rw [piecesOf, List.map_append] at hcuts
  have hfrontCuts := (cutsAll_append.mp hcuts).1
  have hbackNe : piecesOf back ≠ [] := mt List.map_eq_nil_iff.mp hne
  have hcomma : ∀ more, Cuts commaPiece more := fun more => cuts_mark isClosedGap_nil rfl more
  refine exists_tokenize (piecesOf front ++
    (spaced (piecesOf after ++ commaPiece :: piecesOf item) ++ spaced (piecesOf back))) gap ?_ hgap
    ?_ ?_
  · refine cutsAll_append.mpr ⟨?_, cutsAll_append.mpr ⟨?_, hbackCuts.spaced⟩⟩
    · rw [List.flatMap_append, span_spaced (by simp)]
      exact hfrontCuts.blank _
    · rw [span_spaced hbackNe]
      refine CutsAll.spaced (cutsAll_append.mpr ⟨?_, hcomma _, hitem _⟩)
      exact hafter.replace (.separator (by decide) rest _)
  · have hend : (textOf (back ++ [e])).toList = (piecesOf back).flatMap Piece.span ++ gap := by
      rw [toList_textOf, piecesOf, List.map_append, List.flatMap_append, List.map_singleton, he]
      simp [Piece.span]
    rw [List.flatMap_append, List.flatMap_append, span_spaced (by simp), span_spaced hbackNe,
      List.flatMap_append, List.flatMap_cons, hconstraint]
    simp only [String.toList_append, hend, toList_textOf front, toList_textOf after]
    simp [commaPiece, Piece.span]
  · simp only [squeezedOf_eq, piecesOf, List.map_append, List.map_cons, map_squeezed_spaced,
      List.map_nil, he, List.append_assoc, List.cons_append]
    rfl

theorem span_blank (l : Lexeme) (more : List Lexeme) :
    (piecesOf (l.withGap [' '] :: more)).flatMap Piece.span = ' ' :: spell (l :: more) := by
  rw [piecesOf, List.map_cons, List.flatMap_cons, List.flatMap_map]
  rfl

theorem cutsAll_alterPieces (table : String) (more : List Char) :
    CutsAll (alterPieces table) (' ' :: more) := by
  have hblank : ∀ c ∈ (' ' :: more).head?, continuesWord c = false := by
    intro c hc
    cases hc
    exact continuesWord_blank
  have hadd := (spelledAll_words [.add] hblank).cutsAll
  have htable : Cuts (namePiece [' '] table)
      ((wordPieces [.add]).flatMap Piece.span ++ ' ' :: more) :=
    (spelled_name isClosedGap_blank (by simp [wordPieces, Piece.span])).cuts
  have halter : Piece.Spelled ⟨[], Keyword.spelling .alter, .keyword .alter⟩
      ((wordPieces [.table] ++ namePiece [' '] table :: wordPieces [.add]).flatMap Piece.span ++
        ' ' :: more) := by
    refine ⟨isClosedGap_nil, by decide +kernel, fun c hc => ?_⟩
    cases hc
    exact continuesWord_blank
  refine ⟨halter.cuts, cutsAll_append.mpr ⟨(spelledAll_words [.table] fun c hc => ?_).cutsAll,
    htable, hadd⟩⟩
  cases hc
  exact continuesWord_blank

theorem span_alterPieces (table : String) :
    (alterPieces table).flatMap Piece.span =
      "ALTER TABLE ".toList ++ (quoteName table).toList ++ " ADD".toList := by
  have halter : Piece.span ⟨[], Keyword.spelling .alter, .keyword .alter⟩ = "ALTER".toList := by
    decide +kernel
  have htable : (wordPieces [.table]).flatMap Piece.span = " TABLE".toList := by decide +kernel
  have hadd : (wordPieces [.add]).flatMap Piece.span = " ADD".toList := by decide +kernel
  rw [alterPieces, List.flatMap_cons, List.flatMap_append, List.flatMap_cons, halter, htable, hadd]
  simp [namePiece, Piece.span]

/-- Parts of a script are cut as before, with a statement behind the script. -/
theorem exists_tokenize_statement (h : tokenize text = .ok (ls ++ [e])) (hfront : front <+: ls)
    (hback : back <:+ ls) {l : Lexeme} {more : List Lexeme} (hitem : l :: more <:+: ls)
    (table : String) :
    ∃ ks, tokenize (textOf front ++ " " ++ textOf (back ++ [e]) ++ "\n;ALTER TABLE " ++
        quoteName table ++ " ADD " ++ String.ofList (spell (l :: more))) = .ok ks ∧
      squeezedOf ks = squeezedOf (front ++ back ++ (semicolonLine e.gap).lexeme ::
        (alterLexemes table (l.withGap [' '] :: more) ++ [endPiece.lexeme])) := by
  obtain ⟨gap, hcuts, hgap, he⟩ := exists_gap_of_tokenize h
  obtain ⟨tail, rfl⟩ := hfront
  obtain ⟨lead, hlead⟩ := hback
  obtain ⟨rest, hitem⟩ := hcuts.of_isInfix (hitem.map (·.toPiece))
  have hbackCuts : CutsAll (piecesOf back) gap := by
    rw [← hlead, piecesOf, List.map_append] at hcuts
    exact (cutsAll_append.mp hcuts).2
  rw [piecesOf, List.map_append] at hcuts
  have hfrontCuts := (cutsAll_append.mp hcuts).1
  have hitemCuts : CutsAll (piecesOf (l.withGap [' '] :: more)) [] :=
    CutsAll.replace (hitem.led forall_mem_blank) (.nil rest)
  have hadded : CutsAll (alterPieces table ++ piecesOf (l.withGap [' '] :: more)) [] := by
    refine cutsAll_append.mpr ⟨?_, hitemCuts⟩
    rw [span_blank]
    exact cutsAll_alterPieces table _
  have hgapEq : e.gap = gap := congrArg Piece.gap he
  refine exists_tokenize (piecesOf front ++ (spaced (piecesOf back ++ [semicolonLine gap]) ++
    (alterPieces table ++ piecesOf (l.withGap [' '] :: more)))) [] ?_ isGap_nil ?_ ?_
  · refine cutsAll_append.mpr ⟨?_, cutsAll_append.mpr ⟨CutsAll.spaced ?_, hadded⟩⟩
    · rw [List.flatMap_append, span_spaced (by simp)]
      exact hfrontCuts.blank _
    · have hline := cutsAll_semicolonLine hbackCuts hgap hadded
      rw [List.append_cons] at hline
      exact (cutsAll_append.mp hline).1
  · have hend : (textOf (back ++ [e])).toList = (piecesOf back).flatMap Piece.span ++ gap := by
      rw [toList_textOf, piecesOf, List.map_append, List.flatMap_append, List.map_singleton, he]
      simp [Piece.span]
    rw [List.flatMap_append, List.flatMap_append, List.flatMap_append, span_spaced (by simp),
      List.flatMap_append, List.flatMap_singleton, span_semicolonLine, span_blank,
      span_alterPieces]
    simp only [String.toList_append, hend, toList_textOf front, String.toList_ofList]
    simp
  · simp only [squeezedOf_eq, piecesOf, List.map_append, List.map_cons, map_squeezed_spaced,
      List.map_nil, alterLexemes, List.append_assoc, List.cons_append, hgapEq]
    rfl

end

/-! ## Constraints instead of clauses -/

/-- The constraint on the whole table that says of the column `name` what its clause says.  A
reference to several columns at one column cannot stand there. -/
def tableConstraint? (name : String) (clause : List Lexeme) : ColumnClause → Option String
  | .primaryKey => some ("PRIMARY KEY (" ++ quoteName name ++ ")")
  | .unique => some ("UNIQUE (" ++ quoteName name ++ ")")
  | .references target _ =>
    if target.columns.length ≤ 1 then
      some ("FOREIGN KEY (" ++ quoteName name ++ ") " ++ String.ofList (spell clause))
    else none
  | _ => none

section

variable {name : String} {l : Lexeme} {more rest : List Lexeme} {c : ColumnClause}
  {constraint : String}

theorem piecesOf_keyLexemes (words : List Keyword) (name : String) :
    piecesOf (keyLexemes words name) = wordPieces words ++ listPieces name := by
  rw [piecesOf, keyLexemes, List.map_map]
  exact List.map_id _

theorem cutsAll_key (words : List Keyword) (name : String) (more : List Char) :
    CutsAll (wordPieces words ++ listPieces name) more := by
  refine cutsAll_append.mpr ⟨(spelledAll_words words fun c hc => ?_).cutsAll,
    (spelledAll_list name more).cutsAll⟩
  cases hc
  exact continuesWord_blank

theorem span_list (name : String) :
    (listPieces name).flatMap Piece.span = " (".toList ++ (quoteName name).toList ++ [')'] := by
  simp [listPieces, namePiece, Piece.span]

theorem exists_restated (hclause : readColumnClause l (more ++ rest) = .ok (c, rest))
    (hconstraint : tableConstraint? name (l :: more) c = some constraint)
    (hcuts : ∃ chars, CutsAll (piecesOf (l :: more)) chars) :
    ∃ k item, Restated rest name (l :: more) c k item ∧
      (∀ chars, CutsAll (piecesOf item) (' ' :: chars)) ∧
      (piecesOf item).flatMap Piece.span = ' ' :: constraint.toList := by
  cases c with
  | primaryKey =>
    cases hconstraint
    refine ⟨_, _, .primaryKey hclause, fun chars => ?_, ?_⟩
    · rw [piecesOf_keyLexemes]
      exact cutsAll_key _ name _
    · have hwords : (wordPieces [.primary, .key]).flatMap Piece.span = " PRIMARY KEY".toList := by
        decide +kernel
      rw [piecesOf_keyLexemes, List.flatMap_append, hwords, span_list]
      simp
  | unique =>
    cases hconstraint
    refine ⟨_, _, .unique hclause, fun chars => ?_, ?_⟩
    · rw [piecesOf_keyLexemes]
      exact cutsAll_key _ name _
    · have hwords : (wordPieces [.unique]).flatMap Piece.span = " UNIQUE".toList := by
        decide +kernel
      rw [piecesOf_keyLexemes, List.flatMap_append, hwords, span_list]
      simp
  | references target position =>
    rw [tableConstraint?] at hconstraint
    split at hconstraint
    · next htargets =>
      cases hconstraint
      obtain ⟨chars, hcuts⟩ := hcuts
      have hled : CutsAll (piecesOf (l.withGap [' '] :: more)) chars := hcuts.led forall_mem_blank
      refine ⟨_, _, .references hclause htargets, fun chars => ?_, ?_⟩
      · rw [piecesOf, List.map_append, ← piecesOf, piecesOf_keyLexemes]
        exact cutsAll_append.mpr ⟨cutsAll_key _ name _, hled.blank _⟩
      · have hwords : (wordPieces [.foreign, .key]).flatMap Piece.span = " FOREIGN KEY".toList := by
          decide +kernel
        rw [piecesOf, List.map_append, ← piecesOf, piecesOf_keyLexemes, List.flatMap_append,
          List.flatMap_append, hwords, span_list, span_blank]
        simp
    · cases hconstraint
  | _ => cases hconstraint

end

end Sql
end Schemata
