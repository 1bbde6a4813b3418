/-
Statements that are joined to a script.  With a semicolon and a line feed between them, the texts of
statements of one script make up another script, which is split into the same statements.
-/
import Schemata.Proofs.Forall2
import Schemata.Proofs.Sql.Scanning
import Schemata.Proofs.Sql.Splitting

namespace Schemata
namespace Sql

open Text (isBlank)

/-- The pieces with another gap in front of them. -/
def led (gap : List Char) : List Piece → List Piece
  | [] => []
  | p :: ps => p.withGap gap :: ps

def semicolonPiece : Piece := ⟨[], [';'], .semicolon⟩

def endPiece : Piece := ⟨[], [], .eof⟩

/-- The pieces of statements, with a semicolon and a line feed between them, and the gap in front of
the first one. -/
def joined (gap : List Char) : List (List Piece) → List Piece
  | [] => []
  | [ps] => led gap ps
  | ps :: ps' :: pss => led gap ps ++ semicolonPiece :: joined ['\n'] (ps' :: pss)

/-- The spelling of pieces without the gap in front of them. -/
def spelling (ps : List Piece) : List Char := (led [] ps).flatMap Piece.span

namespace Statement

def pieces (s : Statement) : List Piece := s.lexemes.map (·.toPiece)

theorem pieces_ne_nil (s : Statement) : s.pieces ≠ [] := by
  simp [pieces, lexemes]

theorem toList_text (s : Statement) : s.text.toList = spelling s.pieces := by
  rw [text, String.toList_ofList, lexemes, spell, pieces, lexemes, List.map_cons, spelling, led,
    List.flatMap_cons, List.flatMap_map]
  rfl

end Statement

theorem span_led {ps : List Piece} (h : ps ≠ []) (gap : List Char) :
    (led gap ps).flatMap Piece.span = gap ++ spelling ps := by
  cases ps with
  | nil => exact absurd rfl h
  | cons p ps =>
    rw [spelling, led, led, List.flatMap_cons, List.flatMap_cons, ← List.append_assoc]
    rfl

theorem span_joined {pss : List (List Piece)} (hne : pss ≠ []) (h : ∀ ps ∈ pss, ps ≠ [])
    (gap : List Char) :
    (joined gap pss).flatMap Piece.span =
      gap ++ [';', '\n'].intercalate (pss.map spelling) := by
  induction pss generalizing gap with
  | nil => exact absurd rfl hne
  | cons ps pss ih =>
    obtain ⟨hps, hpss⟩ := List.forall_mem_cons.mp h
    cases pss with
    | nil =>
      rw [joined, span_led hps, List.map_cons, List.map_nil, List.intercalate_singleton]
    | cons ps' pss =>
      rw [joined, List.flatMap_append, List.flatMap_cons, ih (by simp) hpss, span_led hps]
      simp only [List.map_cons]
      rw [List.intercalate_cons_cons, List.append_assoc, List.append_assoc]
      rfl

/-- The text of the joined statements is that of the joined pieces. -/
theorem toList_join (order : List Statement) :
    (String.intercalate ";\n" (order.map (·.text))).toList =
      (joined [] (order.map Statement.pieces)).flatMap Piece.span := by
  rw [String.toList_intercalate, List.map_map]
  cases order with
  | nil => rfl
  | cons s order =>
    rw [span_joined (by simp), List.nil_append, List.map_map]
    · congr 1
      refine List.map_congr_left fun t _ => ?_
      exact t.toList_text
    · intro ps hps
      obtain ⟨t, -, rfl⟩ := List.mem_map.mp hps
      exact t.pieces_ne_nil

/-! ## Pieces -/

theorem cuts_semicolon (rest : List Char) : Cuts semicolonPiece rest := by
  refine ⟨splitGap_of_beginsToken ⟨fun c hc => ?_, rfl⟩, ';', [], rfl, rfl⟩
  cases hc
  decide

theorem CutsAll.led {ps : List Piece} {rest : List Char} (h : CutsAll ps rest) {gap : List Char}
    (hgap : ∀ c ∈ gap, isBlank c = true) : CutsAll (led gap ps) rest := by
  cases ps with
  | nil => exact True.intro
  | cons p ps => exact ⟨h.1.withGap hgap, h.2⟩

/-- Pieces that are cut off somewhere are cut off where they are joined. -/
theorem cutsAll_joined {pss : List (List Piece)} (h : ∀ ps ∈ pss, ∃ rest, CutsAll ps rest)
    {gap : List Char} (hgap : ∀ c ∈ gap, isBlank c = true) : CutsAll (joined gap pss) [] := by
  induction pss generalizing gap with
  | nil => exact True.intro
  | cons ps pss ih =>
    obtain ⟨⟨rest, hps⟩, hpss⟩ := List.forall_mem_cons.mp h
    cases pss with
    | nil => exact (hps.led hgap).replace (.nil rest)
    | cons ps' pss =>
      have hfeed : ∀ c ∈ ['\n'], isBlank c = true := by
        intro c hc
        rw [List.mem_singleton.mp hc]
        rfl
      have hmore : CutsAll (joined ['\n'] (ps' :: pss)) [] := ih hpss hfeed
      refine cutsAll_append.mpr ⟨(hps.led hgap).replace (.separator (by decide) rest _), ?_⟩
      exact ⟨cuts_semicolon _, hmore⟩

theorem CutsAll.of_isInfix {ps qs : List Piece} {rest : List Char} (h : CutsAll qs rest)
    (hps : ps <:+: qs) : ∃ rest', CutsAll ps rest' := by
  obtain ⟨before, after, rfl⟩ := hps
  rw [cutsAll_append, cutsAll_append] at h
  exact ⟨_, h.1.2⟩

theorem isInfix_of_concat {xs ys : List α} {y : α} (h : xs <:+: ys ++ [y]) (hy : y ∉ xs) :
    xs <:+: ys := by
  rcases List.infix_concat_iff.mp h with hsuffix | hinfix
  · rcases List.suffix_concat_iff.mp hsuffix with hnil | ⟨zs, hzs, -⟩
    · rw [hnil]
      exact List.nil_infix
    · rw [hzs] at hy
      exact absurd (List.mem_append_right zs (List.mem_singleton_self y)) hy
  · exact hinfix

/-- The pieces of a statement are cut off somewhere, since they are part of the script. -/
theorem cutsAll_of_splitStatements {script : String} {lexemes : List Lexeme} {ss : List Statement}
    (hlexemes : tokenize script = .ok lexemes) (hss : splitStatements lexemes = .ok ss) :
    ∀ s ∈ ss, ∃ rest, CutsAll s.pieces rest := by
  intro s hs
  obtain ⟨ps, gap, hpieces, hcuts⟩ := cutsAll_tokenize hlexemes
  have hinfix : s.pieces <:+: ps ++ [⟨gap, [], .eof⟩] := by
    rw [← hpieces]
    exact (isInfix_of_splitStatements hss s hs).map _
  refine hcuts.of_isInfix (isInfix_of_concat hinfix fun hend => ?_)
  obtain ⟨l, hl, heq⟩ := List.mem_map.mp hend
  exact (isRun_of_splitStatements hss s hs).inside l hl (congrArg Piece.token heq)

/-! ## Statements -/

/-- The statements have the same pieces, apart from the gap in front of them. -/
structure Statement.Alike (s t : Statement) : Prop where
  token : t.first.token = s.first.token
  text : t.first.text = s.first.text
  others : t.others.map (·.toPiece) = s.others.map (·.toPiece)

theorem depthOver_congr {breaks : Token → Bool} {d : Nat} {ks ls : List Lexeme}
    (h : ks.map (·.token) = ls.map (·.token)) : depthOver breaks d ks = depthOver breaks d ls := by
  have hmap : ∀ ls : List Lexeme, depthOver breaks d ls =
      (ls.map (·.token)).foldlM (nest breaks) d := fun ls => (List.foldlM_map ..).symm
  rw [hmap, hmap, h]

theorem IsRun.congr {ks ls : List Lexeme} (h : IsRun ls)
    (heq : ks.map (·.token) = ls.map (·.token)) : IsRun ks := by
  constructor
  · exact (depthOver_congr heq).trans h.closed
  · intro k hk heof
    have hmem : Token.eof ∈ ls.map (·.token) := by
      rw [← heq, ← heof]
      exact List.mem_map_of_mem hk
    obtain ⟨l, hl, htoken⟩ := List.mem_map.mp hmem
    exact h.inside l hl htoken

theorem map_token_of_led {ks : List Lexeme} {s : Statement} {gap : List Char}
    (h : ks.map (·.toPiece) = led gap s.pieces) : ks.map (·.token) = s.lexemes.map (·.token) := by
  have htokens := congrArg (List.map Piece.token) h
  rw [List.map_map] at htokens
  rw [show ks.map (·.token) = ks.map (Piece.token ∘ (·.toPiece)) from rfl, htokens]
  simp [Statement.pieces, Statement.lexemes, led, Piece.withGap, Function.comp_def]

theorem exists_alike {run : List Lexeme} {s : Statement} {gap : List Char}
    (h : run.map (·.toPiece) = led gap s.pieces) :
    ∃ t : Statement, t.lexemes = run ∧ s.Alike t := by
  obtain ⟨first, others, rfl, hfirst, hothers⟩ := List.map_eq_cons_iff.mp h
  have htoken := congrArg Piece.token hfirst
  have htext := congrArg Piece.text hfirst
  exact ⟨⟨first, others⟩, rfl, htoken, htext, hothers⟩

/-- Lexemes that begin with the pieces of a statement begin with a statement that is alike. -/
theorem exists_first {ls : List Lexeme} {s : Statement} {gap : List Char} {ps : List Piece}
    (hrun : IsRun s.lexemes) (h : ls.map (·.toPiece) = led gap s.pieces ++ ps) :
    ∃ (t : Statement) (rest : List Lexeme), ls = t.lexemes ++ rest ∧ s.Alike t ∧
      IsRun t.lexemes ∧ rest.map (·.toPiece) = ps := by
  obtain ⟨run, rest, rfl, hfirst, hrest⟩ := List.map_eq_append_iff.mp h
  obtain ⟨t, rfl, ht⟩ := exists_alike hfirst
  exact ⟨t, rest, rfl, ht, hrun.congr (map_token_of_led hfirst), hrest⟩

/-- Lexemes of joined statements are split into statements that are alike. -/
theorem splits_joined {order : List Statement} (hne : order ≠ [])
    (hruns : ∀ s ∈ order, IsRun s.lexemes) {gap : List Char} {ls : List Lexeme}
    (h : ls.map (·.toPiece) = joined gap (order.map Statement.pieces) ++ [endPiece]) :
    ∃ ts : List Statement, Splits ls (ts.map Statement.lexemes) ∧
      List.Forall₂ Statement.Alike order ts := by
  induction order generalizing gap ls with
  | nil => exact absurd rfl hne
  | cons s order ih =>
    obtain ⟨hs, horder⟩ := List.forall_mem_cons.mp hruns
    cases order with
    | nil =>
      obtain ⟨t, rest, rfl, ht, hrun, hrest⟩ := exists_first hs h
      obtain ⟨l, rest, rfl, hl, -⟩ := List.map_eq_cons_iff.mp hrest
      refine ⟨[t], .last hrun (fun k hk => ?_), .cons ht .nil⟩
      cases hk
      exact congrArg Piece.token hl
    | cons s' order =>
      simp only [List.map_cons] at h
      rw [joined, List.append_assoc] at h
      obtain ⟨t, rest, rfl, ht, hrun, hrest⟩ := exists_first hs h
      obtain ⟨l, rest, rfl, hl, hrest⟩ := List.map_eq_cons_iff.mp hrest
      obtain ⟨ts, hts, halike⟩ := ih (by simp) horder hrest
      exact ⟨t :: ts, .cons hrun (congrArg Piece.token hl) hts, .cons ht halike⟩

theorem filterMap_ofLexemes? (ts : List Statement) :
    (ts.map Statement.lexemes).filterMap Statement.ofLexemes? = ts := by
  rw [List.filterMap_map]
  exact List.filterMap_some

/-- Statements of a script that are joined in any order are found again in the new script. -/
theorem tokenize_join {script : String} {lexemes : List Lexeme} {ss order : List Statement}
    (hlexemes : tokenize script = .ok lexemes) (hss : splitStatements lexemes = .ok ss)
    (horder : order ⊆ ss) :
    ∃ lexemes' ts, tokenize (String.intercalate ";\n" (order.map (·.text))) = .ok lexemes' ∧
      splitStatements lexemes' = .ok ts ∧ List.Forall₂ Statement.Alike order ts := by
  have hcuts : CutsAll (joined [] (order.map Statement.pieces)) [] := by
    refine cutsAll_joined (fun ps hps => ?_) (by simp)
    obtain ⟨s, hs, rfl⟩ := List.mem_map.mp hps
    exact cutsAll_of_splitStatements hlexemes hss s (horder hs)
  obtain ⟨lexemes', hlexemes', hpieces⟩ := tokenize_of_cutsAll hcuts (toList_join order)
  cases order with
  | nil =>
    obtain ⟨l, rest, rfl, hl, hrest⟩ := List.map_eq_cons_iff.mp hpieces
    have heof : l.token = .eof := congrArg Piece.token hl
    refine ⟨[l], [], by rw [hlexemes', List.map_eq_nil_iff.mp hrest], ?_, .nil⟩
    simp [splitStatements, runs, heof, endRuns, Except.map, Statement.ofLexemes?]
  | cons s order =>
    obtain ⟨ts, hts, halike⟩ := splits_joined (by simp)
      (fun s hs => isRun_of_splitStatements hss s (horder hs)) hpieces
    refine ⟨lexemes', ts, hlexemes', ?_, halike⟩
    exact splitStatements_eq_ok.mpr ⟨_, hts, (filterMap_ofLexemes? ts).symm⟩

end Sql
end Schemata
