/-
Scripts one after the other.  With a semicolon on a line of its own between them, two scripts that
are read make up a script that is read as both of them, and only the places of the second one have
moved down.
-/
import Schemata.Proofs.Sql.Joining
import Schemata.Proofs.Sql.Parts
import Schemata.Proofs.Sql.Relocation

namespace Schemata

/-! ## Places -/

namespace Text.Position

/-- The same column, some lines further down. -/
def down (lines : Nat) (p : Position) : Position := ⟨p.line + lines, p.column⟩

theorem after_down (lines : Nat) (p : Position) (cs : List Char) :
    (p.down lines).after cs = (p.after cs).down lines := by
  have hnext : ∀ (p : Position) (c : Char), (p.down lines).next c = (p.next c).down lines := by
    intro p c
    unfold next down
    split
    · rw [Nat.add_right_comm]
    · rfl
  induction cs generalizing p with
  | nil => rfl
  | cons c cs ih =>
    show ((p.down lines).next c).after cs = ((p.next c).after cs).down lines
    rw [hnext, ih]

theorem line_after (p : Position) (cs : List Char) :
    (p.after cs).line = p.line + cs.count '\n' := by
  induction cs generalizing p with
  | nil => rfl
  | cons c cs ih =>
    show ((p.next c).after cs).line = _
    rw [ih, List.count_cons, next]
    by_cases hc : c = '\n'
    · rw [if_pos hc, if_pos (by simpa using hc), Nat.add_right_comm, Nat.add_assoc]
    · rw [if_neg hc, if_neg (by simpa using hc)]
      rfl

/-- What comes after a line feed stands where it would at the start, but further down. -/
theorem next_feed (p : Position) : p.next '\n' = start.down p.line := by
  rw [next, if_pos rfl, down, Nat.add_comm]
  rfl

end Text.Position

namespace Sql

open Text (Position)

namespace Relocation

/-- Further down in the script. -/
def down (lines bytes : Nat) : Relocation := ⟨id, Position.down lines, (· + bytes)⟩

def site (m : Relocation) (s : Site) : Site := { s with position := m.position s.position }

def table (m : Relocation) (d : TableDef) : TableDef :=
  { d with columns := d.columns.map m.column, site := m.site d.site }

def constraintDef (m : Relocation) (d : ConstraintDef) : ConstraintDef :=
  { d with site := m.site d.site }

def document (m : Relocation) (d : Document) : Document :=
  ⟨d.tables.map m.table, d.constraints.map m.constraintDef⟩

def statement (m : Relocation) (s : Statement) : Statement := ⟨m.lexeme s.first, m.lexemes s.others⟩

theorem document_join (m : Relocation) (parts : List Document) :
    m.document (Document.join parts) = Document.join (parts.map m.document) := by
  simp only [document, Document.join, List.map_flatMap, List.flatMap_map]

section

variable {m : Relocation} (hm : ∀ gap, m.gap gap = gap)

include hm

theorem text_statement (s : Statement) : (m.statement s).text = s.text :=
  congrArg String.ofList (spell_relocated hm s.lexemes)

theorem constraintDefs_statement (s : Statement) (table : String)
    (constraints : List PlacedConstraint) :
    (m.statement s).constraintDefs table (constraints.map m.constraint) =
      (s.constraintDefs table constraints).map m.constraintDef := by
  rw [Statement.constraintDefs, Statement.constraintDefs, text_statement hm, List.map_map,
    List.map_map]
  rfl

/-- A statement that was moved as a whole defines the same, with the places moved likewise. -/
theorem read_statement (dialect : Dialect) (s : Statement) :
    (m.statement s).read dialect = m.result m.document (s.read dialect) := by
  unfold Statement.read
  rw [show (m.statement s).first.token = s.first.token from rfl]
  split
  · show readCreate dialect (m.lexemes s.others) >>= _ = _
    rw [readCreate_relocated hm]
    refine result_bind fun ⟨name, body⟩ _ => congrArg Except.ok ?_
    dsimp only [Prod.map, id, Relocation.body]
    rw [constraintDefs_statement hm, text_statement hm]
    rfl
  · show readAlter (m.lexemes s.others) >>= _ = _
    rw [readAlter_relocated]
    refine result_bind fun ⟨name, constraints⟩ _ => congrArg Except.ok ?_
    dsimp only [Prod.map, id]
    rw [constraintDefs_statement hm]
    rfl
  · exact m.fail_relocated s.lexemes _

end

end Relocation

/-- The document of a script that stands further down in another one. -/
def Document.movedDown (lines : Nat) (d : Document) : Document :=
  (Relocation.down lines 0).document d

/-! ## Lexemes -/

theorem locate_append (position : Position) (offset : Nat) (ps qs : List Piece) :
    locate position offset (ps ++ qs) = locate position offset ps ++
      locate (position.after (ps.flatMap Piece.span))
        (offset + Text.byteCount (ps.flatMap Piece.span)) qs := by
  induction ps generalizing position offset with
  | nil => rfl
  | cons p ps ih =>
    rw [List.cons_append, locate, locate, ih, List.flatMap_cons, Position.after_append,
      Text.byteCount_append, Nat.add_assoc]
    rfl

theorem locate_down (lines bytes : Nat) (position : Position) (offset : Nat) (ps : List Piece) :
    locate (position.down lines) (offset + bytes) ps =
      (Relocation.down lines bytes).lexemes (locate position offset ps) := by
  induction ps generalizing position offset with
  | nil => rfl
  | cons p ps ih =>
    rw [locate, locate, Relocation.lexemes_cons, Position.after_down, Position.after_down,
      Nat.add_right_comm offset bytes, Nat.add_right_comm offset bytes, ih]
    rfl

/-- The lexeme with another gap in front of it. -/
def Lexeme.withGap (l : Lexeme) (gap : List Char) : Lexeme := { l with gap := gap }

/-- Lexemes after a line feed are those of a script, further down, but for the gap in front. -/
theorem exists_locate_feed (position : Position) (offset : Nat) (p : Piece) (ps : List Piece) :
    ∃ bytes first others, locate .start 0 (p :: ps) = first :: others ∧
      locate position offset (p.withGap ('\n' :: p.gap) :: ps) =
        ((Relocation.down position.line bytes).lexeme first).withGap ('\n' :: p.gap) ::
          (Relocation.down position.line bytes).lexemes others := by
  have hfeed : ∀ cs,
      position.after ('\n' :: cs) = (Position.start.after cs).down position.line := by
    intro cs
    rw [← Position.after_down, ← Position.next_feed]
    rfl
  refine ⟨offset + 1, _, _, rfl, ?_⟩
  rw [locate, ← locate_down, Piece.span, Piece.withGap, List.cons_append, hfeed, hfeed]
  congr 2
  · show offset + (1 + Text.byteCount p.gap) = 0 + Text.byteCount p.gap + (offset + 1)
    omega
  · show offset + (1 + Text.byteCount (p.gap ++ p.text)) =
      0 + Text.byteCount (p.gap ++ p.text) + (offset + 1)
    omega

/-- Behind a line feed, a script is cut into the same pieces but for the first gap. -/
theorem exists_pieces_feed {ps : List Piece} {gap : List Char} (hcuts : CutsAll ps gap)
    (hgap : IsGap gap) :
    ∃ p more ps' gap', ps ++ [⟨gap, [], .eof⟩] = p :: more ∧
      p.withGap ('\n' :: p.gap) :: more = ps' ++ [⟨gap', [], .eof⟩] ∧
      ps'.flatMap Piece.span ++ gap' = '\n' :: (ps.flatMap Piece.span ++ gap) ∧
      CutsAll ps' gap' ∧ IsGap gap' := by
  cases ps with
  | nil => exact ⟨_, [], [], '\n' :: gap, rfl, rfl, rfl, True.intro, isGap_nil.feed hgap⟩
  | cons p ps =>
    refine ⟨p, _, p.withGap ('\n' :: p.gap) :: ps, gap, rfl, rfl, ?_, ?_, hgap⟩
    · simp [Piece.span, Piece.withGap]
    · exact ⟨hcuts.1.feed isGap_nil, hcuts.2⟩

/-- A semicolon on a line of its own, behind the last gap of a script. -/
def semicolonLine (gap : List Char) : Piece := semicolonPiece.withGap (gap ++ ['\n'])

theorem span_semicolonLine (gap : List Char) : (semicolonLine gap).span = gap ++ ['\n', ';'] :=
  List.append_assoc gap ['\n'] [';']

/-- A script is cut into the same pieces in front of a semicolon on a line of its own. -/
theorem cutsAll_semicolonLine {ps qs : List Piece} {gap rest : List Char} (hps : CutsAll ps gap)
    (hgap : IsGap gap) (hqs : CutsAll qs rest) : CutsAll (ps ++ semicolonLine gap :: qs) rest := by
  refine cutsAll_append.mpr ⟨hps.replace ?_, (cuts_semicolon _).feed hgap, hqs⟩
  rw [List.flatMap_cons, span_semicolonLine, List.append_assoc, List.append_assoc]
  have hfeed := Replaces.separator (c := '\n') (by decide) []
    (';' :: (qs.flatMap Piece.span ++ rest))
  have happend := hfeed.append gap
  rwa [List.append_nil] at happend

/-- The lexemes of a script are followed by a semicolon and the lexemes of another script, which
are further down. -/
theorem tokenize_append {a b : String} {ls ks : List Lexeme} (ha : tokenize a = .ok ls)
    (hb : tokenize b = .ok ks) :
    ∃ bytes l first others gap, l.token = .semicolon ∧ ks = first :: others ∧
      tokenize (a ++ "\n;\n" ++ b) = .ok (ls.dropLast ++ l ::
        ((Relocation.down (a.toList.count '\n' + 2) bytes).lexeme first).withGap gap ::
          (Relocation.down (a.toList.count '\n' + 2) bytes).lexemes others) := by
  obtain ⟨ps, gap, hscript, hcuts, hgap, rfl⟩ := tokenize_eq_ok.mp ha
  obtain ⟨qs, gap', hscript', hcuts', hgap', rfl⟩ := tokenize_eq_ok.mp hb
  obtain ⟨p, more, qs', last, hks, hpieces, hspan, hqs', hlast⟩ := exists_pieces_feed hcuts' hgap'
  have htokenize : tokenize (a ++ "\n;\n" ++ b) =
      .ok (locate .start 0 (ps ++ semicolonLine gap :: p.withGap ('\n' :: p.gap) :: more)) := by
    refine tokenize_eq_ok.mpr ⟨ps ++ semicolonLine gap :: qs', last, ?_,
      cutsAll_semicolonLine hcuts hgap hqs', hlast, ?_⟩
    · rw [String.toList_append, String.toList_append, hscript, hscript', List.flatMap_append,
        List.flatMap_cons, span_semicolonLine]
      simp only [List.append_assoc, hspan]
      rfl
    · rw [hpieces, List.append_assoc, List.cons_append]
  have hline : (Position.start.after (ps.flatMap Piece.span)).after (semicolonLine gap).span =
      Position.start.after (a.toList ++ ['\n', ';']) := by
    rw [← Position.after_append, span_semicolonLine, ← List.append_assoc, ← hscript]
  have hcount : (Position.start.after (a.toList ++ ['\n', ';'])).line =
      a.toList.count '\n' + 2 := by
    rw [Position.line_after, List.count_append, Nat.add_comm]
    rfl
  obtain ⟨bytes, first, others, hlocate, hfeed⟩ := exists_locate_feed
    (Position.start.after (a.toList ++ ['\n', ';']))
    (0 + Text.byteCount (ps.flatMap Piece.span) + Text.byteCount (semicolonLine gap).span) p more
  refine ⟨bytes, ⟨semicolonLine gap,
    (Position.start.after (ps.flatMap Piece.span)).after (semicolonLine gap).gap,
    0 + Text.byteCount (ps.flatMap Piece.span) + Text.byteCount (semicolonLine gap).gap⟩, first,
    others, '\n' :: p.gap, rfl, by rw [hks, hlocate], ?_⟩
  rw [htokenize, locate_append, locate, hline, hfeed, hcount, locate_append]
  simp only [locate, List.dropLast_concat]

/-! ## Statements -/

namespace Splits

variable {ls ks : List Lexeme} {rs rs' : List (List Lexeme)}

theorem map {f : Lexeme → Lexeme} (hf : ∀ l, (f l).token = l.token) (h : Splits ls rs) :
    Splits (ls.map f) (rs.map (List.map f)) := by
  have hmap : ∀ {run : List Lexeme}, IsRun run → IsRun (run.map f) := by
    intro run hrun
    refine hrun.congr ?_
    rw [List.map_map]
    exact List.map_congr_left fun l _ => hf l
  induction h with
  | last hrun hrest =>
    rw [List.map_append]
    refine .last (hmap hrun) fun l hl => ?_
    rw [List.head?_map] at hl
    obtain ⟨k, hk, rfl⟩ := Option.map_eq_some_iff.mp hl
    rw [hf, hrest k hk]
  | cons hrun hl _ ih =>
    rw [List.map_append]
    exact .cons (hmap hrun) ((hf _).trans hl) ih

/-- Another first lexeme stands in the first run, or it is no part of a run either. -/
theorem replaceFirst {l k : Lexeme} (h : Splits (l :: ls) rs) (hk : k.token = l.token) :
    Splits (k :: ls) rs ∨
      ∃ run more, rs = (l :: run) :: more ∧ Splits (k :: ls) ((k :: run) :: more) := by
  have hrun : ∀ {run : List Lexeme}, IsRun (l :: run) → IsRun (k :: run) := fun h =>
    h.congr (by rw [List.map_cons, List.map_cons, hk])
  generalize hls : l :: ls = ls' at h
  cases h with
  | @last run rest hrun' hrest =>
    cases run with
    | nil =>
      obtain rfl : l :: ls = rest := hls
      have hend : ∀ k' ∈ (k :: ls).head?, k'.token = Token.eof := by
        intro k' hk'
        cases hk'
        rw [hk, hrest l rfl]
      exact .inl (Splits.last hrun' hend)
    | cons l' run =>
      obtain ⟨rfl, rfl⟩ := List.cons.inj hls
      exact .inr ⟨run, [], rfl, .last (hrun hrun') hrest⟩
  | @cons run rest l' more hrun' hl' hrest =>
    cases run with
    | nil =>
      obtain ⟨rfl, rfl⟩ := List.cons.inj hls
      exact .inl (Splits.cons hrun' (hk.trans hl') hrest)
    | cons l'' run =>
      obtain ⟨rfl, rfl⟩ := List.cons.inj hls
      exact .inr ⟨run, more, rfl, .cons (hrun hrun') hl' hrest⟩

/-- A semicolon takes the place of the mark of the end, and other runs come after it. -/
theorem append {l e : Lexeme} (h : Splits (ls ++ [e]) rs) (he : e.token = .eof)
    (hls : ∀ k ∈ ls, k.token ≠ .eof) (hl : l.token = .semicolon) (h' : Splits ks rs') :
    Splits (ls ++ l :: ks) (rs ++ rs') := by
  generalize hall : ls ++ [e] = all at h
  induction h generalizing ls with
  | @last run rest hrun hrest =>
    obtain rfl : run = ls := by
      rcases List.append_eq_append_iff.mp hall with ⟨between, rfl, hrest'⟩ | ⟨between, rfl, hrest'⟩
      · cases between with
        | nil => exact List.append_nil ls
        | cons k between =>
          obtain ⟨rfl, -⟩ := List.cons.inj hrest'
          exact absurd he (hrun.inside e (by simp))
      · cases between with
        | nil => exact (List.append_nil run).symm
        | cons k between =>
          refine absurd (hrest k (by rw [hrest']; rfl)) (hls k ?_)
          simp
    exact .cons hrun hl h'
  | @cons run rest k more hrun hk _ ih =>
    rcases List.append_eq_append_iff.mp hall with ⟨between, rfl, hrest'⟩ | ⟨between, rfl, hrest'⟩
    · cases between with
      | nil =>
        cases hrest'
        rw [he] at hk
        cases hk
      | cons k' between =>
        obtain ⟨rfl, -⟩ := List.cons.inj hrest'
        exact absurd he (hrun.inside e (by simp))
    · cases between with
      | nil =>
        cases hrest'
        rw [he] at hk
        cases hk
      | cons k' between =>
        obtain ⟨rfl, rfl⟩ := List.cons.inj hrest'
        rw [List.append_assoc, List.cons_append, List.cons_append]
        exact .cons hrun hk (ih (fun j hj => hls j (by simp [hj])) rfl)

end Splits

theorem ofLexemes?_relocated (m : Relocation) (rs : List (List Lexeme)) :
    (rs.map (List.map m.lexeme)).filterMap Statement.ofLexemes? =
      (rs.filterMap Statement.ofLexemes?).map m.statement := by
  induction rs with
  | nil => rfl
  | cons run rs ih =>
    cases run with
    | nil => exact ih
    | cons l run => exact congrArg (m.statement ⟨l, run⟩ :: ·) ih

/-- The gap in front of a statement does not count. -/
theorem Statement.read_withGap (dialect : Dialect) (s : Statement) (gap : List Char) :
    Statement.read dialect ⟨s.first.withGap gap, s.others⟩ = s.read dialect := rfl

theorem Document.join_append (parts parts' : List Document) :
    join (parts ++ parts') = join parts ++ join parts' := by
  rw [join, List.flatMap_append, List.flatMap_append]
  rfl

/-- The statements of lexemes further down are read as the same documents further down, whatever
gap is in front. -/
theorem exists_parts_down {dialect : Dialect} {lines bytes : Nat} {first : Lexeme}
    {others : List Lexeme} {rs : List (List Lexeme)} {parts : List Document}
    (h : Splits (first :: others) rs)
    (hparts : List.Forall₂ (fun s part => Statement.read dialect s = .ok part)
      (rs.filterMap Statement.ofLexemes?) parts) (gap : List Char) :
    ∃ rs', Splits (((Relocation.down lines bytes).lexeme first).withGap gap ::
        (Relocation.down lines bytes).lexemes others) rs' ∧
      List.Forall₂ (fun s part => Statement.read dialect s = .ok part)
        (rs'.filterMap Statement.ofLexemes?)
        (parts.map (Relocation.down lines bytes).document) := by
  let m := Relocation.down lines bytes
  have hmoved := h.map m.token_relocated
  have hread : List.Forall₂ (fun s part => Statement.read dialect s = .ok part)
      ((rs.map (List.map m.lexeme)).filterMap Statement.ofLexemes?) (parts.map m.document) := by
    rw [ofLexemes?_relocated, List.forall₂_map_left_iff, List.forall₂_map_right_iff]
    refine hparts.imp fun s part hs => ?_
    rw [m.read_statement (fun _ => rfl), hs]
    rfl
  rcases hmoved.replaceFirst (k := (m.lexeme first).withGap gap) rfl with hsame | hother
  · exact ⟨_, hsame, hread⟩
  · obtain ⟨run, more, hrs, hsplits⟩ := hother
    rw [hrs] at hread
    obtain ⟨part, parts', hfirst, hmore, hparts'⟩ := List.forall₂_cons_left_iff.mp hread
    refine ⟨_, hsplits, ?_⟩
    rw [hparts']
    exact .cons ((Statement.read_withGap dialect ⟨m.lexeme first, run⟩ gap).trans hfirst) hmore

/-- Scripts that are read make up a script that is read as both, with the second one moved down
behind the first and the two line feeds between them. -/
theorem Document.ofScript_append {a b : String} {dialect : Dialect} {d e : Document}
    (ha : ofScript a (.named dialect) = .ok d) (hb : ofScript b (.named dialect) = .ok e) :
    ofScript (a ++ "\n;\n" ++ b) (.named dialect) =
      .ok (d ++ e.movedDown (a.toList.count '\n' + 2)) := by
  obtain ⟨ls, ss, parts, hls, hss, hparts, rfl⟩ := ofScript_eq_ok.mp ha
  obtain ⟨ks, ts, parts', hks, hts, hparts', rfl⟩ := ofScript_eq_ok.mp hb
  obtain ⟨rs, hrs, rfl⟩ := splitStatements_eq_ok.mp hss
  obtain ⟨rs', hrs', rfl⟩ := splitStatements_eq_ok.mp hts
  obtain ⟨bytes, l, first, others, gap, hl, rfl, htokenize⟩ := tokenize_append hls hks
  obtain ⟨qs, hqs, hdown⟩ := exists_parts_down hrs' hparts' gap
  have hend := token_ne_eof_of_tokenize hls
  obtain ⟨ps, last, -, -, -, rfl⟩ := tokenize_eq_ok.mp hls
  rw [locate_append, locate, locate, List.dropLast_concat] at htokenize hend
  rw [locate_append, locate, locate] at hrs
  refine ofScript_eq_ok.mpr ⟨_, _, parts ++ parts'.map
    (Relocation.down (a.toList.count '\n' + 2) bytes).document, htokenize,
    splitStatements_eq_ok.mpr ⟨_, hrs.append rfl hend hl hqs, rfl⟩, ?_, ?_⟩
  · rw [List.filterMap_append]
    exact List.rel_append hparts hdown
  · rw [join_append, movedDown, Relocation.document_join]
    rfl

/-- The script ends in a comment that no line feed ends, without a semicolon. -/
def openEnded : String := "CREATE TABLE a (\n  x INT\n) -- the first"

def openEndedDocument : Document :=
  ⟨[⟨"a", [⟨"x", .integer, false, false, true, ⟨2, 3⟩⟩],
    ⟨"CREATE TABLE a (\n  x INT\n)", ⟨1, 1⟩⟩⟩], []⟩

def continuation : String := "/* and */ CREATE TABLE b (y INT REFERENCES a (x))"

def continuationDocument : Document :=
  ⟨[⟨"b", [⟨"y", .integer, false, false, true, ⟨1, 27⟩⟩],
    ⟨"CREATE TABLE b (y INT REFERENCES a (x))", ⟨1, 11⟩⟩⟩],
    [⟨"b", .foreignKey ⟨["y"], "a", ["x"]⟩,
      ⟨"CREATE TABLE b (y INT REFERENCES a (x))", ⟨1, 33⟩⟩⟩]⟩

theorem Document.ofScript_append_openEnded :
    ofScript openEnded (.named .generic) = .ok openEndedDocument ∧
      ofScript continuation (.named .generic) = .ok continuationDocument ∧
      ofScript (openEnded ++ "\n;\n" ++ continuation) (.named .generic) =
        .ok (openEndedDocument ++
          continuationDocument.movedDown (openEnded.toList.count '\n' + 2)) := by
  have ha : ofScript openEnded (.named .generic) = .ok openEndedDocument := by decide +kernel
  have hb : ofScript continuation (.named .generic) = .ok continuationDocument := by decide +kernel
  exact ⟨ha, hb, ofScript_append ha hb⟩

end Sql
end Schemata
