/-
The runs that a script is split into.  They stand between the semicolons outside of parentheses, so
a script whose lexemes are runs with semicolons between them is split into just these.
-/
import Schemata.Proofs.Sql.Nesting
import Schemata.Sql.Statement

namespace Schemata
namespace Sql

open Text (Position)

def isSemicolon (t : Token) : Bool := t = .semicolon

/-- All parentheses among the lexemes are closed, no semicolon stands outside of them, and none of
the lexemes marks the end. -/
structure IsRun (ls : List Lexeme) : Prop where
  closed : Closed isSemicolon ls
  inside : ∀ l ∈ ls, l.token ≠ .eof

/-- The lexemes are runs with semicolons between them, through the mark of the end if there is
one. -/
inductive Splits : List Lexeme → List (List Lexeme) → Prop
  | last {run rest : List Lexeme} (hrun : IsRun run)
      (hrest : ∀ l ∈ rest.head?, l.token = .eof) : Splits (run ++ rest) [run]
  | cons {run rest : List Lexeme} {l : Lexeme} {rs : List (List Lexeme)} (hrun : IsRun run)
      (hl : l.token = .semicolon) (hrest : Splits rest rs) : Splits (run ++ l :: rest) (run :: rs)

namespace Splits

theorem isRun {ls : List Lexeme} {rs : List (List Lexeme)} (h : Splits ls rs) :
    ∀ run ∈ rs, IsRun run := by
  induction h with
  | last hrun _ => simpa using hrun
  | cons hrun _ _ ih => exact List.forall_mem_cons.mpr ⟨hrun, ih⟩

/-- Runs are parts of the lexemes. -/
theorem isInfix {ls : List Lexeme} {rs : List (List Lexeme)} (h : Splits ls rs) :
    ∀ run ∈ rs, run <:+: ls := by
  induction h with
  | @last run rest _ _ => simpa using (List.prefix_append run rest).isInfix
  | @cons run rest l rs _ _ _ ih =>
    refine List.forall_mem_cons.mpr ⟨(List.prefix_append run _).isInfix, fun other hother => ?_⟩
    exact (ih other hother).trans
      ((List.suffix_cons l rest).trans (List.suffix_append run _)).isInfix

end Splits

/-! ## The splitter -/

/-- The run goes on with the lexeme, and the parentheses that are open in it change like this. -/
inductive RunsOn (l : Lexeme) : List Position → List Position → Prop
  | opening {opened : List Position} (hl : l.token = .leftParen) :
      RunsOn l opened (l.position :: opened)
  | closing {position : Position} {opened : List Position} (hl : l.token = .rightParen) :
      RunsOn l (position :: opened) opened
  | other {opened : List Position} (hleft : l.token ≠ .leftParen) (hright : l.token ≠ .rightParen)
      (heof : l.token ≠ .eof) (hinside : l.token = .semicolon → opened ≠ []) :
      RunsOn l opened opened

/-- What a lexeme is to the splitter, when these parentheses are open. -/
inductive Turn (l : Lexeme) : List Position → Prop
  | ends {opened : List Position} (hl : l.token = .eof) : Turn l opened
  | runsOn {opened opened' : List Position} (h : RunsOn l opened opened') : Turn l opened
  | unmatched (hl : l.token = .rightParen) : Turn l []
  | divides (hl : l.token = .semicolon) : Turn l []

theorem turn (l : Lexeme) (opened : List Position) : Turn l opened := by
  cases hl : l.token with
  | eof => exact .ends hl
  | leftParen => exact .runsOn (.opening hl)
  | rightParen =>
    cases opened with
    | nil => exact .unmatched hl
    | cons position opened => exact .runsOn (.closing hl)
  | semicolon =>
    cases opened with
    | nil => exact .divides hl
    | cons position opened =>
      exact .runsOn (.other (by simp [hl]) (by simp [hl]) (by simp [hl]) nofun)
  | _ => exact .runsOn (.other (by simp [hl]) (by simp [hl]) (by simp [hl]) (by simp [hl]))

section

variable {opened opened' : List Position} {run ls rest : List Lexeme} {l : Lexeme}
  {rs : List (List Lexeme)}

theorem runs_of_eof (hl : l.token = .eof) (opened : List Position) (run rest : List Lexeme) :
    runs opened run (l :: rest) = endRuns opened run := by
  rw [runs.eq_def]
  simp only [hl]

theorem runs_of_unmatched (hl : l.token = .rightParen) (run rest : List Lexeme) :
    runs [] run (l :: rest) =
      .error (runFault .unbalancedParen (run ++ [l]) l.position) := by
  rw [runs.eq_def]
  simp only [hl]

theorem runs_of_semicolon (hl : l.token = .semicolon) (run rest : List Lexeme) :
    runs [] run (l :: rest) = (runs [] [] rest).map (run :: ·) := by
  rw [runs.eq_def]
  simp only [hl, List.isEmpty_nil, if_true]

namespace RunsOn

theorem runs_eq (h : RunsOn l opened opened') (run rest : List Lexeme) :
    runs opened run (l :: rest) = runs opened' (run ++ [l]) rest := by
  rw [runs.eq_def]
  cases h with
  | opening hl => simp only [hl]
  | closing hl => simp only [hl]
  | other hleft hright heof hinside =>
    cases hl : l.token with
    | leftParen => exact absurd hl hleft
    | rightParen => exact absurd hl hright
    | eof => exact absurd hl heof
    | semicolon =>
      have hopened := List.isEmpty_eq_false_iff.mpr (hinside hl)
      simp only [hl, hopened, Bool.false_eq_true, if_false]
    | _ => simp only [hl]

theorem ne_eof (h : RunsOn l opened opened') : l.token ≠ .eof := by
  cases h with
  | opening hl => simp [hl]
  | closing hl => simp [hl]
  | other _ _ heof _ => exact heof

/-- As many parentheses are open as a count says. -/
theorem nest_eq (h : RunsOn l opened opened') :
    nest isSemicolon opened.length l.token = some opened'.length := by
  cases h with
  | opening hl => rw [hl]; rfl
  | closing hl => rw [hl]; rfl
  | other hleft hright _ hinside =>
    refine nest_of_ne hleft hright fun hlength => ?_
    rw [isSemicolon, decide_eq_false_iff_not]
    exact fun hl => hinside hl (List.length_eq_zero_iff.mp hlength)

/-- The only position that is new is that of the lexeme. -/
theorem subset (h : RunsOn l opened opened') : opened' ⊆ l.position :: opened := by
  cases h with
  | opening _ => exact List.Subset.refl _
  | closing _ => simp
  | other _ _ _ _ => exact List.subset_cons_self _ _

/-- If a count goes on behind the lexeme, so does the run. -/
theorem exists_of_nest {d : Nat} (hl : l.token ≠ .eof)
    (h : nest isSemicolon opened.length l.token = some d) :
    ∃ opened', opened'.length = d ∧ RunsOn l opened opened' := by
  cases turn l opened with
  | ends hend => exact absurd hend hl
  | @runsOn _ opened' hrunsOn =>
    exact ⟨opened', Option.some.inj (hrunsOn.nest_eq.symm.trans h), hrunsOn⟩
  | unmatched hright =>
    rw [hright] at h
    cases h
  | divides hsemicolon =>
    rw [hsemicolon] at h
    cases h

end RunsOn

theorem splits_of_endRuns (hdepth : depthOver isSemicolon 0 run = some opened.length)
    (hinside : ∀ l ∈ run, l.token ≠ .eof) (hrest : ∀ l ∈ rest.head?, l.token = .eof)
    (h : endRuns opened run = .ok rs) : Splits (run ++ rest) rs := by
  cases opened with
  | nil =>
    cases h
    exact .last ⟨hdepth, hinside⟩ hrest
  | cons position opened => cases h

/-- The run so far goes on, with as many parentheses open as the splitter has positions for. -/
theorem splits_of_runs (hdepth : depthOver isSemicolon 0 run = some opened.length)
    (hinside : ∀ l ∈ run, l.token ≠ .eof) (h : runs opened run ls = .ok rs) :
    Splits (run ++ ls) rs := by
  induction ls generalizing opened run rs with
  | nil => exact splits_of_endRuns hdepth hinside (by simp) h
  | cons l rest ih =>
    cases turn l opened with
    | ends hl =>
      rw [runs_of_eof hl] at h
      exact splits_of_endRuns hdepth hinside (by simpa using hl) h
    | runsOn hrunsOn =>
      rw [hrunsOn.runs_eq] at h
      rw [List.append_cons]
      refine ih (depthOver_append hdepth (depthOver_cons_of_nest hrunsOn.nest_eq rfl)) ?_ h
      rw [List.forall_mem_append, List.forall_mem_singleton]
      exact ⟨hinside, hrunsOn.ne_eof⟩
    | unmatched hl =>
      rw [runs_of_unmatched hl] at h
      cases h
    | divides hl =>
      rw [runs_of_semicolon hl] at h
      cases hrest : runs [] [] rest with
      | error e =>
        rw [hrest] at h
        cases h
      | ok rs' =>
        rw [hrest] at h
        cases h
        exact .cons ⟨hdepth, hinside⟩ hl (ih (depthOver_nil 0) (by simp) hrest)

/-- A run is passed over, and leaves open what a count says. -/
theorem runs_append_run {d : Nat} (hdepth : depthOver isSemicolon opened.length run = some d)
    (hinside : ∀ l ∈ run, l.token ≠ .eof) (first rest : List Lexeme) :
    ∃ opened' : List Position, opened'.length = d ∧
      runs opened first (run ++ rest) = runs opened' (first ++ run) rest := by
  induction run generalizing opened first with
  | nil =>
    cases hdepth
    exact ⟨opened, rfl, by rw [List.nil_append, List.append_nil]⟩
  | cons l run ih =>
    rw [depthOver_cons] at hdepth
    obtain ⟨m, hm, hdepth'⟩ := Option.bind_eq_some_iff.mp hdepth
    obtain ⟨hl, hrun⟩ := List.forall_mem_cons.mp hinside
    obtain ⟨opened', rfl, hrunsOn⟩ := RunsOn.exists_of_nest hl hm
    rw [List.cons_append, hrunsOn.runs_eq, List.append_cons first l run]
    exact ih hdepth' hrun (first ++ [l])

theorem runs_of_isRun (hrun : IsRun run) (rest : List Lexeme) :
    runs [] [] (run ++ rest) = runs [] run rest := by
  have hclosed : depthOver isSemicolon ([] : List Position).length run = some 0 := hrun.closed
  obtain ⟨opened, hopened, h⟩ := runs_append_run hclosed hrun.inside [] rest
  rw [h, List.length_eq_zero_iff.mp hopened, List.nil_append]

theorem runs_of_splits (h : Splits ls rs) : runs [] [] ls = .ok rs := by
  induction h with
  | @last run rest hrun hrest =>
    rw [runs_of_isRun hrun]
    cases rest with
    | nil => rfl
    | cons l rest => exact runs_of_eof (hrest l rfl) [] run rest
  | @cons run rest l rs hrun hl _ ih =>
    rw [runs_of_isRun hrun, runs_of_semicolon hl, ih]
    rfl

end

/-- The splitter finds the runs that the lexemes are made of, and there are no others. -/
theorem runs_eq_ok_iff {ls : List Lexeme} {rs : List (List Lexeme)} :
    runs [] [] ls = .ok rs ↔ Splits ls rs :=
  ⟨splits_of_runs (depthOver_nil 0) (by simp), runs_of_splits⟩

theorem splitStatements_eq_ok {ls : List Lexeme} {ss : List Statement} :
    splitStatements ls = .ok ss ↔
      ∃ rs, Splits ls rs ∧ ss = rs.filterMap Statement.ofLexemes? := by
  simp only [splitStatements, ← runs_eq_ok_iff]
  cases runs [] [] ls with
  | error e => simp [Except.map]
  | ok rs => simp [Except.map, eq_comm]

theorem exists_splits_of_splitStatements {ls : List Lexeme} {ss : List Statement}
    (h : splitStatements ls = .ok ss) :
    ∃ rs, Splits ls rs ∧ ∀ s ∈ ss, s.lexemes ∈ rs := by
  obtain ⟨rs, hrs, rfl⟩ := splitStatements_eq_ok.mp h
  refine ⟨rs, hrs, fun s hs => ?_⟩
  obtain ⟨run, hrun, hofLexemes⟩ := List.mem_filterMap.mp hs
  rwa [ofLexemes?_lexemes hofLexemes]

/-- Statements are parts of the script. -/
theorem isInfix_of_splitStatements {ls : List Lexeme} {ss : List Statement}
    (h : splitStatements ls = .ok ss) : ∀ s ∈ ss, s.lexemes <:+: ls := by
  obtain ⟨rs, hrs, hmem⟩ := exists_splits_of_splitStatements h
  exact fun s hs => hrs.isInfix _ (hmem s hs)

theorem isRun_of_splitStatements {ls : List Lexeme} {ss : List Statement}
    (h : splitStatements ls = .ok ss) : ∀ s ∈ ss, IsRun s.lexemes := by
  obtain ⟨rs, hrs, hmem⟩ := exists_splits_of_splitStatements h
  exact fun s hs => hrs.isRun _ (hmem s hs)

end Sql
end Schemata
