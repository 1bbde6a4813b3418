/-
Splitting and reading a script by indices and offsets.  The splitter counts the lexemes that it has
passed, so its two indices are the ends of the run that it is in; and the lexemes of a script
adjoin each other, so their offsets cut the run out of the script.  What is cut out begins and ends
with tokens, so nothing is lost when blanks are trimmed, and the first offset is still that of the
first lexeme.  This is what grounds the cursors that read the statements.
-/
import Schemata.Proofs.Sql.Indexed.Statements
import Schemata.Sql.Indexed.Import

namespace Schemata
namespace Sql

open Text (Position byteCount slice?)

/-! ## Scripts -/

/-- The lexemes `inner` and the mark `last` of the end are those of a script. -/
structure Covers (source : List Char) (inner : List Lexeme) (last : Lexeme) : Prop where
  adjoining : (inner ++ [last]).IsChain Lexeme.Adjoins
  placed : ∃ before, source = before ++ spell (inner ++ [last]) ∧
    ∀ l ∈ (inner ++ [last]).head?, l.start = byteCount before
  tight : ∀ l ∈ inner, Tight l.text
  inside : ∀ l ∈ inner, l.token ≠ .eof
  ending : last.token = .eof

/-- The gap in front of the first piece and what the lexemes spell make up the text. -/
theorem gap_append_spell_locate (position : Position) (offset : Nat) (p : Piece) (ps : List Piece) :
    p.gap ++ spell (locate position offset (p :: ps)) = (p :: ps).flatMap Piece.span := by
  have hspan : ∀ position offset, ((locate position offset ps).flatMap fun l => l.gap ++ l.text) =
      ps.flatMap Piece.span := by
    intro position offset
    conv => rhs; rw [← map_toPiece_locate position offset ps, List.flatMap_map]
    rfl
  rw [locate, spell, hspan, List.flatMap_cons, Piece.span, List.append_assoc]

theorem exists_covers_of_tokenize {text : String} {ls : List Lexeme} (h : tokenize text = .ok ls) :
    ∃ inner last, ls = inner ++ [last] ∧ Covers text.toList inner last := by
  obtain ⟨inner, last, rfl, hcuts, -, -, hlast⟩ := exists_cuts_of_tokenize h
  obtain ⟨ps, gap, htext, -, -, hlocate⟩ := tokenize_eq_ok.mp h
  refine ⟨inner, last, rfl, ?_, ?_, fun l hl => ?_, fun l hl => ?_, hlast⟩
  · rw [hlocate]
    exact isChain_locate _ _ _
  · have hspan : text.toList = (ps ++ [(⟨gap, [], .eof⟩ : Piece)]).flatMap Piece.span := by
      rw [htext]
      simp [Piece.span]
    obtain ⟨p, qs, hps⟩ := List.exists_cons_of_ne_nil
      (List.concat_ne_nil (⟨gap, [], .eof⟩ : Piece) ps)
    rw [hlocate, hspan, hps]
    refine ⟨p.gap, (gap_append_spell_locate _ _ _ _).symm, ?_⟩
    rintro l ⟨⟩
    exact Nat.zero_add _
  · obtain ⟨rest, hcut⟩ := hcuts l hl
    exact hcut.tight
  · obtain ⟨rest, hcut⟩ := hcuts l hl
    exact hcut.token_ne_eof

/-! ## Excerpts -/

/-- The statement with what it spells, which is the part of the script that it covers. -/
def Statement.excerpt (s : Statement) : Excerpt := ⟨s.lexemes, spell s.lexemes, s.position⟩

def excerpts (runs : List (List Lexeme)) : List Excerpt :=
  (runs.filterMap Statement.ofLexemes?).map Statement.excerpt

namespace Covers

variable {source : List Char} {inner done run rest more : List Lexeme} {l last : Lexeme}
  {opened : List Position}

theorem range (hinner : done ++ run ++ rest = inner) :
    Excerpt.range (inner ++ [last]) done.length (done.length + run.length) = .ok run := by
  have hls : inner ++ [last] = done ++ (run ++ (rest ++ [last])) := by
    rw [← hinner, List.append_assoc, List.append_assoc]
  have hbounds : done.length ≤ done.length + run.length ∧
      done.length + run.length ≤ (inner ++ [last]).length := by
    rw [hls, List.length_append, List.length_append]
    omega
  rw [Excerpt.range, if_pos hbounds, hls, List.take_length_add_append, List.drop_left,
    List.take_left]

/-- The part of the source from one lexeme through another is what the lexemes spell. -/
theorem slice (h : Covers source inner last) {front after : List Lexeme}
    (hls : inner ++ [last] = front ++ l :: more ++ after) :
    slice? source l.start (more.getLastD l).stop = some (spell (l :: more)) := by
  obtain ⟨before, hsource, hbefore⟩ := h.placed
  have hchain := h.adjoining
  rw [hls] at hchain hsource hbefore
  have hbase : ∀ k ∈ (front ++ l :: more ++ after).head?, k.start = 0 + byteCount before := by
    simpa using hbefore
  obtain ⟨start, stop, hstart, hstop, hslice⟩ := slice?_of_isChain hchain hsource hbase
  rw [Nat.zero_add] at hstart hstop
  rw [hstart, hstop, hslice]

theorem ofRange (h : Covers source inner last) (hinner : done ++ l :: more ++ rest = inner) :
    Excerpt.ofRange source (inner ++ [last]) done.length (done.length + (l :: more).length) =
      .ok (Statement.excerpt ⟨l, more⟩) := by
  have hls : inner ++ [last] = done ++ l :: more ++ (rest ++ [last]) := by
    rw [← hinner, List.append_assoc _ rest]
  have htight : Tight (spell (l :: more)) := by
    refine tight_spell fun k hk => h.tight k ?_
    rw [← hinner]
    exact List.mem_append_left _ (List.mem_append_right _ hk)
  have hlast : (l :: more).getLast? = some (more.getLastD l) := by
    rw [List.getLast?_cons, List.getLastD_eq_getLast?]
  rw [Excerpt.ofRange, range hinner]
  show Excerpt.ofRun source (l :: more) = _
  rw [Excerpt.ofRun, hlast]
  dsimp only [List.head?_cons]
  rw [h.slice hls]
  dsimp only
  rw [htight.trim]
  rfl

/-- A breach of the grammar is reported with the text of the run that it was seen in. -/
theorem refuse {R : List Excerpt → List (List Lexeme) → Prop} (h : Covers source inner last)
    (hinner : done ++ run ++ rest = inner) (hrun : run ≠ []) (fault : SyntaxFault)
    (position : Position) {stop : Nat} (hstop : stop = done.length + run.length) :
    Mirrors id R
      (do
        let e ← Excerpt.ofRange source (inner ++ [last]) done.length stop
        e.refuse fault position)
      (.error (runFault fault run position)) := by
  obtain ⟨l, more, rfl⟩ := List.exists_cons_of_ne_nil hrun
  rw [hstop, h.ofRange hinner]
  exact .error (runFault fault (l :: more) position)

/-- The run between the two indices joins the statements, unless it is empty. -/
theorem push (h : Covers source inner last) (hinner : done ++ run ++ rest = inner)
    {x : Except Halt (List Excerpt)} {y : Except ImportError (List (List Lexeme))}
    (hmore : Mirrors id (fun es rs => es = excerpts rs) x y) :
    Mirrors id (fun es rs => es = excerpts rs)
      (Excerpt.push source (inner ++ [last]) done.length (done.length + run.length) x)
      (y.map (run :: ·)) := by
  rw [Excerpt.push]
  cases run with
  | nil =>
    rw [if_neg (by simp)]
    exact hmore.map fun es rs hes => hes
  | cons l more =>
    rw [if_pos (Nat.lt_add_of_pos_right (List.length_pos_iff.mpr (List.cons_ne_nil _ _))),
      h.ofRange hinner]
    cases hmore with
    | ok hes => exact .ok (congrArg (Statement.excerpt ⟨l, more⟩ :: ·) hes)
    | error e => exact .error e

/-- The splitter by indices finds the runs and the faults that the splitter by lists finds.  No
parenthesis is open in front of a run, so a fault is always seen behind some lexeme. -/
theorem mirrors_split (h : Covers source inner last) (hinner : done ++ run ++ rest = inner)
    (hopened : run = [] → opened = []) :
    Mirrors id (fun es rs => es = excerpts rs)
      (Excerpt.split source (inner ++ [last]) opened done.length (done.length + run.length)
        (rest ++ [last]))
      (runs opened run (rest ++ [last])) := by
  induction rest generalizing done run opened with
  | nil =>
    rw [List.nil_append, Excerpt.split.eq_def, runs.eq_def]
    simp only [h.ending]
    cases opened with
    | nil => exact h.push hinner (y := .ok []) (.ok rfl)
    | cons position opened =>
      have hrun : run ≠ [] := fun hrun => List.cons_ne_nil _ _ (hopened hrun)
      refine h.refuse hinner hrun _ _ ?_
      have := List.length_pos_iff.mpr hrun
      omega
  | cons l rest ih =>
    have hstep : done ++ (run ++ [l]) ++ rest = inner := by
      rw [← hinner]
      simp
    have hnext : done.length + run.length + 1 = done.length + (run ++ [l]).length := by
      rw [List.length_append, List.length_singleton, Nat.add_assoc]
    -- The lexeme joins the run, which leaves `opened'` open.
    have hjoin : ∀ opened', Mirrors id (fun es rs => es = excerpts rs)
        (Excerpt.split source (inner ++ [last]) opened' done.length
          (done.length + run.length + 1) (rest ++ [last]))
        (runs opened' (run ++ [l]) (rest ++ [last])) := by
      intro opened'
      rw [hnext]
      exact ih hstep (by simp)
    rw [List.cons_append, Excerpt.split.eq_def, runs.eq_def]
    dsimp only
    cases ht : l.token with
    | eof => exact absurd ht (h.inside l (by rw [← hinner]; simp))
    | leftParen => exact hjoin _
    | rightParen =>
      cases opened with
      | nil => exact h.refuse hstep (by simp) _ _ hnext
      | cons position opened => exact hjoin opened
    | semicolon =>
      cases opened with
      | nil =>
        refine h.push hinner ?_
        have hlength : done.length + run.length + 1 = (done ++ run ++ [l]).length := by
          simp [Nat.add_assoc]
        have hbehind : done ++ run ++ [l] ++ [] ++ rest = inner := by
          rw [← hinner]
          simp
        rw [hlength]
        exact ih hbehind fun _ => rfl
      | cons position opened => exact hjoin _
    | _ => exact hjoin _

/-- A script is split by indices and offsets into what its statements spell. -/
theorem split (h : Covers source inner last) :
    Excerpt.split source (inner ++ [last]) [] 0 0 (inner ++ [last]) =
      ((splitStatements (inner ++ [last])).map (List.map Statement.excerpt)).mapError
        Halt.rejected := by
  have hinner : [] ++ [] ++ inner = inner := rfl
  have hmirrors : Mirrors id (fun es rs => es = excerpts rs)
      (Excerpt.split source (inner ++ [last]) [] 0 0 (inner ++ [last]))
      (runs [] [] (inner ++ [last])) := h.mirrors_split hinner fun _ => rfl
  have hstatements : Mirrors id (fun es ss => es = ss.map Statement.excerpt)
      (Excerpt.split source (inner ++ [last]) [] 0 0 (inner ++ [last]))
      (splitStatements (inner ++ [last])) := hmirrors.map fun _ _ hes => hes
  exact (hstatements.map fun _ _ hes => hes).eq_mapError

end Covers

/-! ## Statements -/

theorem Covers.grounded {source : List Char} {inner : List Lexeme} {last : Lexeme}
    (h : Covers source inner last) {statements : List Statement}
    (hsplit : splitStatements (inner ++ [last]) = .ok statements) :
    ∀ s ∈ statements, s.Grounded := fun s hs =>
  ⟨isRun_of_splitStatements hsplit s hs,
    h.adjoining.infix (isInfix_of_splitStatements hsplit s hs)⟩

theorem readAll_excerpts (dialect : Dialect) {statements : List Statement}
    (h : ∀ s ∈ statements, s.Grounded) :
    Excerpt.readAll dialect (statements.map Statement.excerpt) =
      (Document.ofStatements dialect statements).mapError Halt.rejected := by
  induction statements with
  | nil => rfl
  | cons s statements ih =>
    obtain ⟨hs, hrest⟩ := List.forall_mem_cons.mp h
    have hread : (Statement.excerpt s).cursor.read dialect =
        (s.read dialect).mapError fun fault => .rejected (s.reject fault) := hs.read dialect
    rw [List.map_cons, Excerpt.readAll, Document.ofStatements, hread, ih hrest]
    cases s.read dialect with
    | error fault => rfl
    | ok document =>
      dsimp only [Except.mapError, bind, Except.bind]
      cases Document.ofStatements dialect statements <;> rfl

/-- A script is read by indices and offsets as it is read by lists of lexemes, and no breach is run
into. -/
theorem Document.indexed_eq (script : String) (choice : DialectChoice) :
    Document.indexed script choice = (Document.ofScript script choice).mapError Halt.rejected := by
  rw [Document.indexed, Document.ofScript]
  cases htokenize : tokenize script with
  | error e => rfl
  | ok lexemes =>
    obtain ⟨inner, last, rfl, h⟩ := exists_covers_of_tokenize htokenize
    dsimp only
    rw [h.split]
    cases hsplit : splitStatements (inner ++ [last]) with
    | error e => rfl
    | ok statements => exact readAll_excerpts _ (h.grounded hsplit)

end Sql
end Schemata
