/-
Reading at a cursor against reading a list of lexemes: every reader at a cursor mirrors the reader
of the list, so it runs into no breach.  A loop does not run out of rounds either, because each of
them takes a lexeme.
-/
import Schemata.Proofs.Sql.Indexed.Cursors
import Schemata.Sql.Indexed.Statement

namespace Schemata
namespace Sql
namespace Cursor
namespace Faces

variable {s : Statement} {c : Cursor} {ts rest : List Lexeme} {rounds : Nat}

/-! ## Names -/

theorem expect (h : c.Faces s ts) (token : Token) (what : String) (htoken : token ≠ .eof) :
    Mirrors s.reject (Faces · s ·) (c.expect token what) (Sql.expect token what ts) := by
  rw [Cursor.expect, h.token]
  cases ts with
  | nil =>
    rw [if_neg (show nextToken [] ≠ token from htoken.symm)]
    exact h.fail _
  | cons l ts => exact .ite (.ok h.advance) (h.fail _)

theorem skipIf (h : c.Faces s ts) (token : Token) :
    (c.skipIf token).Faces s (Sql.skipIf token ts) := by
  rw [Cursor.skipIf, Sql.skipIf, h.token]
  split
  · exact h.advance
  · exact h

theorem skipName (h : c.Faces s ts) : c.skipName.Faces s (Sql.skipName ts) := by
  rw [Cursor.skipName, Sql.skipName, h.token]
  split
  · exact h.advance
  · exact h

theorem readName (h : c.Faces s ts) (what : String) :
    Mirrors s.reject (Beside s) (c.readName what) (Sql.readName what ts) := by
  rw [Cursor.readName, h.name?, h.token]
  cases ts with
  | nil => exact h.fail _
  | cons l ts =>
    rw [Sql.readName, List.getElem?_cons_zero, Option.bind_some]
    cases l.name? with
    | none => exact h.fail _
    | some name => exact .ok (.mk name h.advance)

theorem lastPart (h : c.Faces s ts) (what name : String) (hrounds : ts.length < rounds) :
    Mirrors s.reject (Beside s) (Cursor.lastPart what rounds name c)
      (Sql.lastPart what name ts) := by
  induction rounds generalizing c ts name with
  | zero => exact absurd hrounds (Nat.not_lt_zero _)
  | succ rounds ih =>
    rw [lastPart_eq, Cursor.lastPart, h.token]
    refine .ite ((h.advance.readName what).bind ?_) (.ok (.mk name h))
    rintro _ _ hread ⟨part, h'⟩
    have hlength := length_readName hread
    rw [List.length_tail] at hlength
    exact ih h' part (by omega)

theorem readQualifiedName (h : c.Faces s ts) (what : String) :
    Mirrors s.reject (Beside s) (c.readQualifiedName what) (Sql.readQualifiedName what ts) := by
  refine (h.readName what).bind ?_
  rintro _ _ - ⟨name, h⟩
  exact h.lastPart what name h.length_lt

/-! ## Groups -/

/-- A parenthesis that opens a group is closed in the same statement. -/
theorem exists_readGroup {l : Lexeme} (h : c.Faces s (l :: ts)) (hl : l.token = .leftParen) :
    ∃ group rest, readGroup (l :: ts) = .ok (group, rest) := by
  obtain ⟨before, hls, -⟩ := h.before
  have hclosed : depthOver isSemicolon 0 (before ++ l :: ts) = some 0 := hls ▸ h.grounded.run.closed
  obtain ⟨d, -, hrest⟩ := exists_depthOver_of_append hclosed
  rw [depthOver_cons, hl, nest_leftParen] at hrest
  obtain ⟨group, rest, hclose⟩ := exists_closeGroup (d := 0) (by rwa [Nat.zero_add])
  exact ⟨l :: group, rest, by rw [readGroup, if_pos hl, hclose]; rfl⟩

theorem closeGroups {depth : Nat} {group : List Lexeme} (h : c.Faces s ts)
    (hrounds : ts.length < rounds) (hclose : closeGroup depth ts = .ok (group, rest)) :
    ∃ c', Cursor.closeGroups rounds (depth + 1) c = .ok c' ∧ c'.Faces s rest := by
  induction rounds generalizing c ts depth group with
  | zero => exact absurd hrounds (Nat.not_lt_zero _)
  | succ rounds ih =>
    cases ts with
    | nil => exact absurd hclose fail_ne_ok
    | cons l ts =>
      have hmore : ∀ {depth' : Nat}, nest isSemicolon (depth + 1) l.token = some (depth' + 1) →
          ∃ c', Cursor.closeGroups rounds (depth' + 1) c.advance = .ok c' ∧ c'.Faces s rest := by
        intro depth' hnest
        rw [closeGroup_cons hnest] at hclose
        obtain ⟨⟨group', rest'⟩, hclose', heq⟩ := ok_of_bind hclose
        cases heq
        exact ih h.advance (Nat.lt_of_succ_lt_succ hrounds) hclose'
      rw [Cursor.closeGroups, h.token_cons]
      cases hl : l.token with
      | leftParen => exact hmore (by rw [hl, nest_leftParen])
      | rightParen =>
        cases depth with
        | zero =>
          rw [closeGroup_rightParen hl] at hclose
          cases hclose
          exact ⟨c.advance, by cases rounds <;> rfl, h.advance⟩
        | succ depth => exact hmore (by rw [hl, nest_rightParen])
      | eof => exact absurd hl h.token_ne_eof
      | _ => exact hmore (nest_of_ne (by simp [hl]) (by simp [hl]) (by simp))

theorem skipGroup (h : c.Faces s ts) :
    Mirrors s.reject (fun c p => c.Faces s p.2) c.skipGroup (readGroup ts) := by
  rw [Cursor.skipGroup]
  cases ts with
  | nil =>
    have hfail : c.expect .leftParen "`(`" = c.fail (.expected "`(`" .eof) := by
      rw [Cursor.expect, h.token]
      rfl
    rw [hfail]
    exact h.fail _
  | cons l ts =>
    by_cases hl : l.token = .leftParen
    · obtain ⟨group, rest, hread⟩ := h.exists_readGroup hl
      have hclose := hread
      rw [readGroup, if_pos hl] at hclose
      obtain ⟨⟨group', rest'⟩, hclose, heq⟩ := ok_of_bind hclose
      cases heq
      have h' := h.advance
      obtain ⟨c', hc', hfaces⟩ := h'.closeGroups h'.length_lt hclose
      rw [hread, Cursor.expect, h.token_cons, if_pos hl]
      show Mirrors s.reject _ (Cursor.closeGroups c.advance.rounds 1 c.advance) _
      rw [hc']
      exact .ok hfaces
    · rw [readGroup, if_neg hl, Cursor.expect, h.token_cons, if_neg hl]
      exact h.fail _

/-- Lexemes that are no run may end within a group. -/
example : (Cursor.mk [⟨⟨[], ['('], .leftParen⟩, .start, 0⟩] ['('] 0).skipGroup =
    .error (.breach .group) := rfl

theorem skipGroup? (h : c.Faces s ts) :
    Mirrors s.reject (Faces · s ·) c.skipGroup? (Sql.skipGroup? ts) := by
  rw [Cursor.skipGroup?, Sql.skipGroup?, h.token]
  exact .ite (h.skipGroup.map fun _ _ h => h) (.ok h)

/-! ## Lists of columns -/

theorem readSeparator (h : c.Faces s ts) (fault : SyntaxFault) :
    Mirrors s.reject (Beside s) (c.readSeparator fault) (Sql.readSeparator fault ts) := by
  rw [Cursor.readSeparator, h.token]
  cases ts with
  | nil => exact h.fail _
  | cons l ts => exact .ite (.ok (.mk true h.advance)) (.ite (.ok (.mk false h.advance)) (h.fail _))

theorem readColumnEntry (h : c.Faces s ts) :
    Mirrors s.reject (Beside s) c.readColumnEntry (Sql.readColumnEntry ts) := by
  refine (h.readName _).bind ?_
  rintro _ _ - ⟨name, h⟩
  refine h.skipGroup?.bind fun c ts _ h => ?_
  rw [h.token]
  refine .ok (.mk name ?_)
  split
  · exact h.advance
  · exact h

theorem readColumnEntries (h : c.Faces s ts) (hrounds : ts.length < rounds) :
    Mirrors s.reject (Beside s) (Cursor.readColumnEntries rounds c) (Sql.readColumnEntries ts) := by
  induction rounds generalizing c ts with
  | zero => exact absurd hrounds (Nat.not_lt_zero _)
  | succ rounds ih =>
    rw [readColumnEntries_eq]
    refine h.readColumnEntry.bind ?_
    rintro _ _ hentry ⟨name, h⟩
    refine (h.readSeparator _).bind ?_
    rintro _ _ hseparator ⟨more, h⟩
    refine .ite ((ih h ?_).bind ?_) (.ok (.mk _ h))
    · have := length_readColumnEntry hentry
      have := length_readSeparator hseparator
      omega
    · rintro _ _ - ⟨names, h⟩
      exact .ok (.mk _ h)

theorem readColumnList (h : c.Faces s ts) :
    Mirrors s.reject (Beside s) c.readColumnList (Sql.readColumnList ts) :=
  (h.expect _ _ (by simp)).bind fun _ _ _ h => h.readColumnEntries h.length_lt

/-! ## References -/

theorem skipAction (h : c.Faces s ts) :
    Mirrors s.reject (Faces · s ·) c.skipAction (Sql.skipAction ts) := by
  rw [Cursor.skipAction, Sql.skipAction, h.token]
  dsimp only
  rw [h.advance.token]
  exact .ite (.ite (.ok h.advance.advance_advance)
    (.ite h.advance.advance.skipGroup? (h.advance.fail _))) (h.fail _)

theorem skipActions (h : c.Faces s ts) (hrounds : ts.length < rounds) :
    Mirrors s.reject (Faces · s ·) (Cursor.skipActions rounds c) (Sql.skipActions ts) := by
  induction rounds generalizing c ts with
  | zero => exact absurd hrounds (Nat.not_lt_zero _)
  | succ rounds ih =>
    rw [Cursor.skipActions, h.token]
    cases ts with
    | nil =>
      rw [Sql.skipActions]
      exact .ok h
    | cons l ts =>
      rw [skipActions_cons]
      refine .ite (h.advance.skipAction.bind fun c rest haction h => ih h ?_) (.ok h)
      exact Nat.lt_of_le_of_lt (length_skipAction haction) (Nat.lt_of_succ_lt_succ hrounds)

theorem skipMatch (h : c.Faces s ts) : c.skipMatch.Faces s (Sql.skipMatch ts) := by
  rw [Cursor.skipMatch, Sql.skipMatch, h.token]
  split
  · exact h.advance_advance
  · exact h

theorem readTargetColumns (h : c.Faces s ts) :
    Mirrors s.reject (Beside s) c.readTargetColumns (Sql.readTargetColumns ts) := by
  rw [Cursor.readTargetColumns, Sql.readTargetColumns, h.token]
  exact .ite h.readColumnList (.ok (.mk _ h))

theorem readTarget (h : c.Faces s ts) :
    Mirrors s.reject (Beside s) c.readTarget (Sql.readTarget ts) := by
  refine (h.readQualifiedName _).bind ?_
  rintro _ _ - ⟨table, h⟩
  refine h.readTargetColumns.bind ?_
  rintro _ _ - ⟨columns, h⟩
  -- The rounds are counted at the cursor in front of the sort of match.
  have hrounds : (Sql.skipMatch _).length < _ := Nat.lt_of_le_of_lt (length_skipMatch _) h.length_lt
  refine (h.skipMatch.skipActions hrounds).bind fun c rest _ h => ?_
  exact .ok (.mk _ h)

/-! ## Default values -/

theorem skipWhile (h : c.Faces s ts) {p : Token → Bool} (hp : p .eof = false)
    (hrounds : ts.length < rounds) :
    ∃ c', Cursor.skipWhile p rounds c = .ok c' ∧ c'.Faces s (ts.dropWhile (p ·.token)) := by
  induction rounds generalizing c ts with
  | zero => exact absurd hrounds (Nat.not_lt_zero _)
  | succ rounds ih =>
    rw [Cursor.skipWhile, h.token]
    cases ts with
    | nil => exact ⟨c, if_neg (by rw [nextToken]; simp [hp]), h⟩
    | cons l ts =>
      by_cases hl : p l.token = true
      · rw [List.dropWhile_cons_of_pos (p := fun l : Lexeme => p l.token) hl]
        obtain ⟨c', hc', h'⟩ := ih h.advance (Nat.lt_of_succ_lt_succ hrounds)
        exact ⟨c', (if_pos hl).trans hc', h'⟩
      · rw [List.dropWhile_cons_of_neg (p := fun l : Lexeme => p l.token) hl]
        exact ⟨c, if_neg hl, h⟩

theorem skipOperand (h : c.Faces s ts) :
    Mirrors s.reject (Faces · s ·) c.skipOperand (Sql.skipOperand ts) := by
  rw [Cursor.skipOperand]
  cases ts with
  | nil =>
    rw [h.token]
    exact h.fail _
  | cons l ts =>
    rw [h.token_cons, Sql.skipOperand]
    cases l.token with
    | leftParen => exact h.skipGroup.map fun _ _ h => h
    | ident name => exact h.advance.skipGroup?
    | str _ | num _ | quoted _ => exact .ok h.advance
    | keyword k =>
      cases k with
      | null => exact .ok h.advance
      | _ => exact h.fail _
    | _ => exact h.fail _

theorem skipExpression (h : c.Faces s ts) (hrounds : ts.length < rounds) :
    Mirrors s.reject (Faces · s ·) (Cursor.skipExpression rounds c) (Sql.skipExpression ts) := by
  induction rounds generalizing c ts with
  | zero => exact absurd hrounds (Nat.not_lt_zero _)
  | succ rounds ih =>
    rw [skipExpression_eq]
    refine h.skipOperand.bind fun c rest hoperand h => ?_
    obtain ⟨c', hskip, h'⟩ := h.skipWhile (p := isOperator) rfl h.length_lt
    rw [h.token, hskip]
    refine .ite (ih h' ?_) (.ok h)
    have := length_skipOperand hoperand
    have := (List.dropWhile_suffix (l := rest) (isOperator ·.token)).length_le
    omega

end Faces

end Cursor

end Sql
end Schemata
