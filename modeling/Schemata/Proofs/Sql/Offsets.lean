/-
Where the lexemes of a script stand.  Their byte ranges and the gaps between them make up the text,
in order and without anything left over, and each range or gap, taken by itself, is cut into what it
was cut into where it stood.  A position counts the line feeds in front of a lexeme and the
characters since the last of them.
-/
import Mathlib.Control.Monad.Basic
import Schemata.Text.Slice
import Schemata.Proofs.Sql.Scanning

namespace Schemata

namespace Text.Position

/-- The line and the column of what stands behind a text. -/
def behind (before : List Char) : Position :=
  ⟨1 + before.count '\n', 1 + (before.reverse.takeWhile (· ≠ '\n')).length⟩

theorem after_eq_behind (before : List Char) : start.after before = behind before := by
  -- A character changes the counts at the end of the text, so the induction is on its reverse.
  have hreverse : ∀ reversed : List Char, start.after reversed.reverse = behind reversed.reverse := by
    intro reversed
    induction reversed with
    | nil => rfl
    | cons c reversed ih =>
      rw [List.reverse_cons, after_append, ih]
      show (behind reversed.reverse).next c = _
      simp only [behind, next, List.count_append, List.reverse_append, List.reverse_reverse,
        List.reverse_singleton, List.singleton_append, List.takeWhile_cons]
      by_cases hc : c = '\n'
      · simp [hc, Nat.add_assoc]
      · simp [hc, Nat.add_comm]
  rw [← List.reverse_reverse before]
  exact hreverse _

end Text.Position

namespace Sql

open Text (Position byteCount slice? slice?_eq_some_iff)

/-- From a byte offset on, the text is made up of the gaps and the spellings of the lexemes. -/
def Tiles (text : String) : Nat → List Lexeme → Prop
  | offset, [] => offset = text.utf8ByteSize
  | offset, l :: ls =>
    slice? text.toList offset l.start = some l.gap ∧
      slice? text.toList l.start l.stop = some l.text ∧ Tiles text l.stop ls

/-- The tokens of a text. -/
def tokensOfText (text : List Char) : Except LexError (List Token) :=
  (tokenize (String.ofList text)).map (List.map (·.token))

/-- The lexemes keep all of the text, and each of them keeps its place in it. -/
structure Lossless (text : String) (ls : List Lexeme) : Prop where
  boundaries : ∀ l ∈ ls,
    (String.Pos.Raw.mk l.start).IsValid text ∧ (String.Pos.Raw.mk l.stop).IsValid text
  ordered : ls.Pairwise fun k l => k.stop ≤ l.start
  spelled : ∀ l ∈ ls.dropLast, l.start < l.stop
  ending : ∃ l, ls.getLast? = some l ∧ l.token = .eof ∧
    l.start = text.utf8ByteSize ∧ l.stop = text.utf8ByteSize
  tiles : Tiles text 0 ls
  gaps : ∀ l ∈ ls, tokensOfText l.gap = .ok [.eof]
  alone : ∀ l ∈ ls.dropLast, tokensOfText l.text = .ok [l.token, .eof]
  positions : ∀ l ∈ ls, ∃ before,
    slice? text.toList 0 l.start = some before ∧ l.position = .behind before

section

variable {text : String} {ls : List Lexeme} {offset : Nat}

theorem Tiles.le (h : Tiles text offset ls) : ∀ l ∈ ls, offset ≤ l.start := by
  induction ls generalizing offset with
  | nil => simp
  | cons k ls ih =>
    obtain ⟨hgap, -, htail⟩ := h
    obtain ⟨before, after, -, rfl, hstart⟩ := slice?_eq_some_iff.mp hgap
    have hle : byteCount before ≤ k.start := by
      rw [← hstart, Text.byteCount_append]
      exact Nat.le_add_right _ _
    refine List.forall_mem_cons.mpr ⟨hle, fun l hl => ?_⟩
    exact Nat.le_trans hle (Nat.le_trans (Nat.le_add_right _ _) (ih htail l hl))

theorem Tiles.ordered (h : Tiles text offset ls) : ls.Pairwise fun k l => k.stop ≤ l.start := by
  induction ls generalizing offset with
  | nil => exact .nil
  | cons k ls ih => exact .cons h.2.2.le (ih h.2.2)

theorem Tiles.boundaries (h : Tiles text offset ls) : ∀ l ∈ ls,
    (String.Pos.Raw.mk l.start).IsValid text ∧ (String.Pos.Raw.mk l.stop).IsValid text := by
  induction ls generalizing offset with
  | nil => simp
  | cons k ls ih => exact List.forall_mem_cons.mpr ⟨Text.isValid_of_slice? h.2.1, ih h.2.2⟩

theorem Tiles.stop_last {l : Lexeme} (h : Tiles text offset (ls ++ [l])) :
    l.stop = text.utf8ByteSize := by
  induction ls generalizing offset with
  | nil => exact h.2.2
  | cons k ls ih => exact ih h.2.2

/-- Pieces that are placed behind the text in front of them. -/
theorem tiles_locate {before : List Char} {ps : List Piece}
    (h : text.toList = before ++ ps.flatMap Piece.span) (position : Position) :
    Tiles text (byteCount before) (locate position (byteCount before) ps) := by
  induction ps generalizing before position with
  | nil =>
    rw [List.flatMap_nil, List.append_nil] at h
    rw [← h, Text.byteCount_eq_utf8ByteSize, String.ofList_toList]
    rfl
  | cons p ps ih =>
    have hsplit : text.toList = before ++ p.gap ++ p.text ++ ps.flatMap Piece.span := by
      rw [h, List.flatMap_cons, Piece.span]
      simp only [List.append_assoc]
    have htail := @ih (before ++ p.gap ++ p.text) hsplit (position.after p.span)
    rw [locate, Tiles]
    refine ⟨slice?_eq_some_iff.mpr ⟨before, p.text ++ ps.flatMap Piece.span, ?_, rfl, ?_⟩,
      slice?_eq_some_iff.mpr ⟨before ++ p.gap, ps.flatMap Piece.span, hsplit, ?_, ?_⟩, ?_⟩
    · rw [hsplit, List.append_assoc]
    · exact Text.byteCount_append _ _
    · exact Text.byteCount_append _ _
    · rw [Text.byteCount_append, Text.byteCount_append]
      rfl
    · rw [Text.byteCount_append, Text.byteCount_append] at htail
      rw [Lexeme.stop, Piece.span, Text.byteCount_append, ← Nat.add_assoc]
      exact htail

/-- A placed piece stands behind the pieces in front of it and its gap. -/
theorem exists_before_of_mem_locate {ps : List Piece} {position : Position} {l : Lexeme}
    (h : l ∈ locate position offset ps) :
    ∃ front back, ps = front ++ l.toPiece :: back ∧
      l.position = position.after (front.flatMap Piece.span ++ l.gap) ∧
      l.start = offset + byteCount (front.flatMap Piece.span ++ l.gap) := by
  induction ps generalizing position offset with
  | nil => cases h
  | cons p ps ih =>
    rw [locate, List.mem_cons] at h
    rcases h with rfl | h
    · exact ⟨[], ps, rfl, rfl, rfl⟩
    · obtain ⟨front, back, rfl, hposition, hstart⟩ := ih h
      refine ⟨p :: front, back, rfl, ?_, ?_⟩
      · rw [hposition, List.flatMap_cons, List.append_assoc, Position.after_append position p.span]
      · rw [hstart, List.flatMap_cons, List.append_assoc, Text.byteCount_append p.span,
          Nat.add_assoc]

end

/-! ## Parts of a text by themselves -/

theorem tokensOfText_gap {gap : List Char} (h : IsGap gap) : tokensOfText gap = .ok [.eof] := by
  have htokenize : tokenize (String.ofList gap) = .ok (locate .start 0 [⟨gap, [], .eof⟩]) :=
    tokenize_eq_ok.mpr ⟨[], gap, String.toList_ofList, True.intro, h, rfl⟩
  rw [tokensOfText, htokenize]
  rfl

namespace Cuts

variable {p : Piece} {rest : List Char}

theorem isGap (h : Cuts p rest) : IsGap p.gap := by
  have hgap := isGap_splitGap (p.span ++ rest)
  rw [h.gap] at hgap
  exact hgap

theorem text_ne_nil (h : Cuts p rest) : p.text ≠ [] := by
  obtain ⟨c, text, htext, -⟩ := h.token
  rw [htext]
  exact List.cons_ne_nil _ _

/-- The spelling of a token is cut off from nothing else as well. -/
theorem tokensOfText (h : Cuts p rest) : tokensOfText p.text = .ok [p.token, .eof] := by
  have halone : CutsAll [p.withGap []] [] :=
    ⟨(h.replace (.nil rest)).withGap (by simp), True.intro⟩
  have hspan : (String.ofList p.text).toList = [p.withGap []].flatMap Piece.span := by
    simp [Piece.span, Piece.withGap]
  obtain ⟨ls, htokenize, hpieces⟩ := tokenize_of_cutsAll halone hspan
  have htokens := congrArg (List.map (·.token)) hpieces
  rw [List.map_map] at htokens
  rw [Sql.tokensOfText, htokenize]
  exact congrArg Except.ok htokens

end Cuts

theorem CutsAll.exists_cuts {ps : List Piece} {rest : List Char} (h : CutsAll ps rest) :
    ∀ p ∈ ps, ∃ rest', Cuts p rest' := by
  induction ps with
  | nil => simp
  | cons p ps ih => exact List.forall_mem_cons.mpr ⟨⟨_, h.1⟩, ih h.2⟩

/-- The lexemes of a script are cut off where they stand, apart from the mark of the end. -/
theorem exists_cuts_of_tokenize {text : String} {ls : List Lexeme} (h : tokenize text = .ok ls) :
    ∃ init last, ls = init ++ [last] ∧ (∀ l ∈ init, ∃ rest, Cuts l.toPiece rest) ∧
      IsGap last.gap ∧ last.text = [] ∧ last.token = .eof := by
  obtain ⟨ps, gap, -, hcuts, hgap, rfl⟩ := tokenize_eq_ok.mp h
  obtain ⟨init, tail, hls, rfl, htail⟩ :=
    List.map_eq_append_iff.mp (map_toPiece_locate .start 0 (ps ++ [⟨gap, [], .eof⟩]))
  obtain ⟨last, rfl, hlast⟩ := List.map_eq_singleton_iff.mp htail
  refine ⟨init, last, hls, fun l hl => hcuts.exists_cuts _ (List.mem_map_of_mem hl), ?_⟩
  exact ⟨(congrArg Piece.gap hlast).symm ▸ hgap, congrArg Piece.text hlast,
    congrArg Piece.token hlast⟩

theorem byteCount_pos {cs : List Char} (h : cs ≠ []) : 0 < byteCount cs := by
  cases cs with
  | nil => exact absurd rfl h
  | cons c cs => exact Nat.add_pos_left c.utf8Size_pos _

/-- A script that is cut into lexemes loses nothing. -/
theorem tokenize_lossless {text : String} {ls : List Lexeme} (h : tokenize text = .ok ls) :
    Lossless text ls := by
  obtain ⟨init, last, rfl, hcuts, hgap, hnil, heof⟩ := exists_cuts_of_tokenize h
  obtain ⟨ps, gap, htext, -, -, hlocate⟩ := tokenize_eq_ok.mp h
  have hspan : text.toList = (ps ++ [(⟨gap, [], .eof⟩ : Piece)]).flatMap Piece.span := by
    rw [htext]
    simp [Piece.span]
  have htiles : Tiles text 0 (init ++ [last]) :=
    hlocate ▸ @tiles_locate text [] _ hspan .start
  have hdrop : (init ++ [last]).dropLast = init := List.dropLast_concat
  refine ⟨htiles.boundaries, htiles.ordered, ?_, ?_, htiles, ?_, ?_, ?_⟩
  · rw [hdrop]
    intro l hl
    obtain ⟨rest, hcut⟩ := hcuts l hl
    exact Nat.lt_add_of_pos_right (byteCount_pos hcut.text_ne_nil)
  · have hstop : last.stop = text.utf8ByteSize := htiles.stop_last
    have hstart : last.stop = last.start := by
      rw [Lexeme.stop, hnil]
      rfl
    exact ⟨last, List.getLast?_concat, heof, hstart.symm.trans hstop, hstop⟩
  · refine List.forall_mem_append.mpr ⟨fun l hl => ?_, List.forall_mem_singleton.mpr ?_⟩
    · obtain ⟨rest, hcut⟩ := hcuts l hl
      exact tokensOfText_gap hcut.isGap
    · exact tokensOfText_gap hgap
  · rw [hdrop]
    intro l hl
    obtain ⟨rest, hcut⟩ := hcuts l hl
    exact hcut.tokensOfText
  · intro l hl
    rw [hlocate] at hl
    obtain ⟨front, back, hps, hposition, hstart⟩ := exists_before_of_mem_locate hl
    refine ⟨front.flatMap Piece.span ++ l.gap, slice?_eq_some_iff.mpr
      ⟨[], l.text ++ back.flatMap Piece.span, ?_, rfl, ?_⟩, ?_⟩
    · rw [hspan, hps]
      simp [Piece.span]
    · rw [hstart]
      exact (Nat.zero_add _).symm
    · rw [hposition, Position.after_eq_behind]

/-- Comments, and characters of two bytes in a gap and in a token. -/
def accentedScript : String := "/* é */ \"ß\"\n a1;-- ü"

def accentedLexemes : List Lexeme :=
  [⟨⟨"/* é */ ".toList, "\"ß\"".toList, .quoted "ß"⟩, ⟨1, 9⟩, 9⟩,
    ⟨⟨"\n ".toList, "a1".toList, .ident "a1"⟩, ⟨2, 2⟩, 15⟩,
    ⟨⟨[], [';'], .semicolon⟩, ⟨2, 4⟩, 17⟩,
    ⟨⟨"-- ü".toList, [], .eof⟩, ⟨2, 9⟩, 23⟩]

theorem tokenize_lossless_accented :
    tokenize accentedScript = .ok accentedLexemes ∧ Lossless accentedScript accentedLexemes := by
  have h : tokenize accentedScript = .ok accentedLexemes := by decide +kernel
  exact ⟨h, tokenize_lossless h⟩

end Sql
end Schemata
