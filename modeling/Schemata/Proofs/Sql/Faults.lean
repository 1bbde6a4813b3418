/-
What a reader finds wrong with a statement, and where.  A reader does not look at the places of
lexemes, so the places that it reports or hands on are places of lexemes of the statement; and it
does not look at other statements, so nothing that it finds wrong is due to them.
-/
import Schemata.Proofs.Sql.Composition

namespace Schemata
namespace Sql

open Text (Position)

/-! ## Places -/

section

variable {dialect : Dialect} {s : Statement}

/-- Every place but those of the lexemes is moved. -/
def Statement.stray (s : Statement) : Relocation where
  gap := id
  position p := if p ∈ s.lexemes.map (·.position) then p else ⟨p.line + 1, p.column⟩
  start := id

theorem Statement.mem_of_stray {p : Position} (h : s.stray.position p = p) :
    ∃ l ∈ s.lexemes, l.position = p := by
  refine List.mem_map.mp (Classical.byContradiction fun hp => ?_)
  rw [show s.stray.position p = ⟨p.line + 1, p.column⟩ from if_neg hp] at h
  have hline := congrArg Position.line h
  dsimp only at hline
  omega

/-- The statement stays where it is, so it is read as it was, with the other places moved. -/
theorem Statement.read_stray :
    s.stray.result s.stray.document (s.read dialect) = s.read dialect := by
  have hlexeme : ∀ l ∈ s.lexemes, s.stray.lexeme l = l := by
    intro l hl
    have hposition : s.stray.position l.position = l.position :=
      if_pos (List.mem_map_of_mem hl)
    rw [Relocation.lexeme, hposition]
    rfl
  have hstay : s.stray.statement s = s := by
    rw [Relocation.statement, hlexeme s.first List.mem_cons_self]
    have hothers : s.stray.lexemes s.others = s.others :=
      (List.map_congr_left fun l hl => hlexeme l (List.mem_cons_of_mem _ hl)).trans (List.map_id _)
    rw [hothers]
  rw [← Relocation.read_statement (fun _ => rfl), hstay]

theorem Statement.position_of_read {fault : Fault} (h : s.read dialect = .error fault) :
    ∀ p ∈ fault.position, ∃ l ∈ s.lexemes, l.position = p := by
  intro p hp
  have hread := @Statement.read_stray dialect s
  rw [h] at hread
  have hfault : fault.position.map s.stray.position = fault.position :=
    congrArg Fault.position (Except.error.inj hread)
  rw [Option.mem_def.mp hp] at hfault
  exact Statement.mem_of_stray (Option.some.inj hfault)

/-- A constraint quotes the statement that it was read from, with the place of a lexeme there. -/
theorem Statement.site_of_read {part : Document} (h : s.read dialect = .ok part) :
    ∀ k ∈ part.constraints,
      k.site.statement = s.text ∧ ∃ l ∈ s.lexemes, l.position = k.site.position := by
  intro k hk
  refine ⟨?_, ?_⟩
  · have htext : ∀ table constraints, k ∈ s.constraintDefs table constraints →
        k.site.statement = s.text := by
      intro table constraints hmem
      obtain ⟨c, -, rfl⟩ := List.mem_map.mp hmem
      rfl
    unfold Statement.read at h
    split at h
    · obtain ⟨⟨name, body⟩, -, h⟩ := ok_of_bind h
      cases h
      exact htext _ _ hk
    · obtain ⟨⟨name, constraints⟩, -, h⟩ := ok_of_bind h
      cases h
      exact htext _ _ hk
    · exact absurd h fail_ne_ok
  · have hread := @Statement.read_stray dialect s
    rw [h] at hread
    have hpart : part.constraints.map s.stray.constraintDef = part.constraints :=
      congrArg Document.constraints (Except.ok.inj hread)
    have hsame := List.map_inj_left.mp (hpart.trans (List.map_id _).symm) k hk
    exact Statement.mem_of_stray (congrArg (·.site.position) hsame)

end

/-! ## Causes -/

/-- A cause that a statement can have whatever the other statements are. -/
def Cause.isLocal : Cause → Bool
  | .malformed (.duplicateTable _) | .unresolved _ => false
  | _ => true

/-- If the reading fails, then for a cause in what was read. -/
def FailsLocally (x : Except Fault α) : Prop := ∀ fault, x = .error fault → fault.cause.isLocal

namespace FailsLocally

theorem ok (a : α) : FailsLocally (.ok a) := fun _ h => by cases h

theorem fail {fault : SyntaxFault} (h : (Cause.malformed fault).isLocal) (ts : List Lexeme) :
    FailsLocally (fail fault ts : Except Fault α) := by
  intro f hf
  cases hf
  exact h

theorem bind {x : Except Fault α} {f : α → Except Fault β} (hx : FailsLocally x)
    (hf : ∀ a, FailsLocally (f a)) : FailsLocally (x >>= f) := by
  cases x with
  | error fault =>
    intro f' h
    cases h
    exact hx fault rfl
  | ok a => exact hf a

theorem map {x : Except Fault α} (hx : FailsLocally x) (f : α → β) : FailsLocally (x.map f) := by
  cases x with
  | error fault =>
    intro f' h
    cases h
    exact hx fault rfl
  | ok a => exact ok (f a)

theorem ite {p : Prop} [Decidable p] {x y : Except Fault α} (hx : FailsLocally x)
    (hy : FailsLocally y) : FailsLocally (if p then x else y) := by
  split
  · exact hx
  · exact hy

/-- A fault that is handed on. -/
theorem of_error {x : Except Fault α} {fault : Fault} (hx : FailsLocally x)
    (h : x = .error fault) : FailsLocally (.error fault : Except Fault β) := by
  intro f' hf
  cases hf
  exact hx fault h

/-! ### Names and groups -/

theorem expect (token : Token) (what : String) (ts : List Lexeme) :
    FailsLocally (expect token what ts) := by
  cases ts with
  | nil => exact fail rfl _
  | cons l rest => exact ite (ok _) (fail rfl _)

theorem readName (what : String) (ts : List Lexeme) : FailsLocally (readName what ts) := by
  unfold Sql.readName
  split
  · exact fail rfl _
  · split
    · exact ok _
    · exact fail rfl _

theorem lastPart (what name : String) (ts : List Lexeme) :
    FailsLocally (lastPart what name ts) := by
  fun_induction Sql.lastPart what name ts with
  | case1 => exact ok _
  | case2 => exact fail rfl _
  | case3 => exact ok _
  | case4 name d l rest hd part hpart ih => exact ih
  | case5 => exact fail rfl _
  | case6 => exact ok _

theorem readQualifiedName (what : String) (ts : List Lexeme) :
    FailsLocally (readQualifiedName what ts) :=
  (readName what ts).bind fun _ => lastPart what _ _

theorem closeGroup (depth : Nat) (ts : List Lexeme) : FailsLocally (closeGroup depth ts) := by
  fun_induction Sql.closeGroup depth ts with
  | case1 => exact fail rfl _
  | case2 => exact ok _
  | case3 l rest ht depth ih => exact ih.bind fun _ => ok _
  | case4 l rest depth ht ih => exact ih.bind fun _ => ok _
  | case5 depth l rest _ _ _ ih => exact ih.bind fun _ => ok _

theorem readGroup (ts : List Lexeme) : FailsLocally (readGroup ts) := by
  cases ts with
  | nil => exact fail rfl _
  | cons l rest => exact ite ((closeGroup 0 rest).bind fun _ => ok _) (fail rfl _)

theorem skipGroup? (ts : List Lexeme) : FailsLocally (skipGroup? ts) :=
  ite ((readGroup ts).map _) (ok _)

/-! ### Lists of columns -/

theorem readSeparator {fault : SyntaxFault} (h : (Cause.malformed fault).isLocal)
    (ts : List Lexeme) : FailsLocally (readSeparator fault ts) := by
  cases ts with
  | nil => exact fail h _
  | cons l rest => exact ite (ok _) (ite (ok _) (fail h _))

theorem readColumnEntry (ts : List Lexeme) : FailsLocally (readColumnEntry ts) :=
  (readName _ ts).bind fun _ => (skipGroup? _).bind fun _ => ok _

theorem readColumnEntries (ts : List Lexeme) : FailsLocally (readColumnEntries ts) := by
  fun_induction Sql.readColumnEntries ts with
  | case1 ts fault h => exact (readColumnEntry ts).of_error h
  | case2 ts name rest hentry fault h => exact (readSeparator rfl rest).of_error h
  | case3 => exact ok _
  | case4 ts name mid hentry rest hseparator ih => exact ih.bind fun _ => ok _

theorem readColumnList (ts : List Lexeme) : FailsLocally (readColumnList ts) :=
  (expect _ _ ts).bind fun _ => readColumnEntries _

/-! ### References and default values -/

theorem skipAction (ts : List Lexeme) : FailsLocally (skipAction ts) :=
  ite (ite (ok _) (ite (skipGroup? _) (fail rfl _))) (fail rfl _)

theorem skipActions (ts : List Lexeme) : FailsLocally (skipActions ts) := by
  fun_induction Sql.skipActions ts with
  | case1 => exact ok _
  | case2 l tail _ fault h => exact (skipAction tail).of_error h
  | case3 l tail _ rest h ih => exact ih
  | case4 => exact ok _

theorem readTargetColumns (ts : List Lexeme) : FailsLocally (readTargetColumns ts) :=
  ite (readColumnList ts) (ok _)

theorem readTarget (ts : List Lexeme) : FailsLocally (readTarget ts) :=
  (readQualifiedName _ ts).bind fun _ => (readTargetColumns _).bind fun _ =>
    (skipActions _).bind fun _ => ok _

theorem skipOperand (ts : List Lexeme) : FailsLocally (skipOperand ts) := by
  unfold Sql.skipOperand
  split
  · exact fail rfl _
  · split
    · exact (readGroup _).map _
    · exact skipGroup? _
    iterate 4
      exact ok _
    exact fail rfl _

theorem skipExpression (ts : List Lexeme) : FailsLocally (skipExpression ts) := by
  fun_induction Sql.skipExpression ts with
  | case1 ts fault h => exact (skipOperand ts).of_error h
  | case2 ts rest h _ ih => exact ih
  | case3 => exact ok _

/-! ### Columns -/

theorem readTypeName (raw : List Char) (ts : List Lexeme) : FailsLocally (readTypeName raw ts) := by
  fun_induction Sql.readTypeName raw ts with
  | case1 => exact ok _
  | case2 raw l rest word _ ih => exact ih
  | case3 => exact ok _
  | case4 raw l rest _ _ fault h => exact (readGroup _).of_error h
  | case5 raw l rest _ _ group after h ih => exact ih
  | case6 => exact ok _

theorem readColumnClause (l : Lexeme) (rest : List Lexeme) :
    FailsLocally (readColumnClause l rest) := by
  unfold Sql.readColumnClause
  split
  · exact (expect _ _ rest).bind fun _ => ok _
  · exact (expect _ _ rest).bind fun _ => ok _
  · exact ok _
  · exact ok _
  · exact (skipExpression rest).bind fun _ => ok _
  · exact (readTarget rest).bind fun _ => ok _
  · exact (readGroup rest).bind fun _ => ok _
  · exact (readGroup _).bind fun _ => ok _
  · exact ok _
  · exact (skipAction rest).bind fun _ => (skipActions _).bind fun _ => ok _
  · exact ite (ok _) (fail rfl _)

theorem readColumnClauses (ts : List Lexeme) : FailsLocally (readColumnClauses ts) := by
  fun_induction Sql.readColumnClauses ts with
  | case1 => exact ok _
  | case2 => exact ok _
  | case3 l rest _ fault h => exact (readColumnClause l rest).of_error h
  | case4 l rest _ clause mid h ih => exact ih.bind fun _ => ok _

theorem readColumn (dialect : Dialect) (ts : List Lexeme) :
    FailsLocally (readColumn dialect ts) := by
  cases ts with
  | nil => exact fail rfl _
  | cons l rest =>
    refine (readName _ _).bind fun a => (readTypeName [] _).bind fun b => ite (fail rfl _) ?_
    dsimp only
    split
    · intro fault h
      cases h
      rfl
    · exact (readColumnClauses _).bind fun _ => ok _

/-! ### Bodies of tables -/

theorem readForeignKey (ts : List Lexeme) : FailsLocally (readForeignKey ts) :=
  (expect _ _ ts).bind fun _ => (readColumnList _).bind fun _ => (expect _ _ _).bind fun _ =>
    (readTarget _).bind fun _ => ite (ok _) (fail rfl _)

theorem readConstraint (ts : List Lexeme) : FailsLocally (readConstraint ts) := by
  unfold Sql.readConstraint
  split
  · exact fail rfl _
  · split
    · exact (expect _ _ _).bind fun _ => (readColumnList _).bind fun _ => ok _
    · exact (readColumnList _).bind fun _ => ok _
    · exact (readForeignKey _).bind fun _ => ok _
    · exact (readGroup _).bind fun _ => ok _
    · exact fail rfl _

theorem skipUntil (stops : Token → Bool) (ts : List Lexeme) :
    FailsLocally (skipUntil stops ts) := by
  fun_induction Sql.skipUntil stops ts with
  | case1 => exact ok _
  | case2 => exact ok _
  | case3 l rest _ _ fault h => exact (readGroup _).of_error h
  | case4 l rest _ _ group mid h ih => exact ih
  | case5 l rest _ _ ih => exact ih

theorem readItem (dialect : Dialect) (ts : List Lexeme) : FailsLocally (readItem dialect ts) := by
  unfold Sql.readItem
  split
  · exact fail rfl _
  · split
    iterate 5
      exact (readConstraint _).bind fun _ => ok _
    exact ite ((skipUntil _ _).bind fun _ => ok _)
      (ite ((readColumn dialect _).bind fun _ => ok _) (fail rfl _))

theorem readItems (dialect : Dialect) (taken : List String) (ts : List Lexeme) :
    FailsLocally (readItems dialect taken ts) := by
  fun_induction Sql.readItems dialect taken ts with
  | case1 taken ts fault h => exact (readItem dialect ts).of_error h
  | case2 taken ts body rest _ c _ =>
    intro fault h
    cases h
    rfl
  | case3 taken ts body rest _ _ fault h => exact (readSeparator rfl rest).of_error h
  | case4 => exact ok _
  | case5 taken ts body mid _ _ rest _ ih => exact ih.bind fun _ => ok _

theorem skipIfNotExists (ts : List Lexeme) : FailsLocally (skipIfNotExists ts) :=
  ite ((expect _ _ _).bind fun _ => expect _ _ _) (ok _)

theorem readCreate (dialect : Dialect) (ts : List Lexeme) : FailsLocally (readCreate dialect ts) :=
  (expect _ _ _).bind fun _ => (skipIfNotExists _).bind fun _ =>
    (readQualifiedName _ _).bind fun _ => (expect _ _ _).bind fun _ =>
      ite (ok _) ((readItems dialect [] _).bind fun _ => ok _)

/-! ### Alterations -/

theorem readAddition (ts : List Lexeme) : FailsLocally (readAddition ts) := by
  cases ts with
  | nil => exact fail rfl _
  | cons l rest =>
    exact (expect _ _ _).bind fun _ =>
      ite ((readConstraint _).bind fun _ => (skipUntil _ _).bind fun _ => ok _) (fail rfl _)

theorem readAdditions (ts : List Lexeme) : FailsLocally (readAdditions ts) := by
  fun_induction Sql.readAdditions ts with
  | case1 ts fault h => exact (readAddition ts).of_error h
  | case2 => exact ok _
  | case3 ts constraints l rest h ih => exact ih.bind fun _ => ok _

theorem skipIfExists (ts : List Lexeme) : FailsLocally (skipIfExists ts) :=
  ite (expect _ _ _) (ok _)

theorem readAlter (ts : List Lexeme) : FailsLocally (readAlter ts) :=
  (expect _ _ _).bind fun _ => (skipIfExists _).bind fun _ => (readQualifiedName _ _).bind fun _ =>
    (readAdditions _).bind fun _ => ok _

end FailsLocally

theorem Statement.failsLocally_read (dialect : Dialect) (s : Statement) :
    FailsLocally (s.read dialect) := by
  unfold Statement.read
  split
  · exact (FailsLocally.readCreate dialect _).bind fun _ => .ok _
  · exact (FailsLocally.readAlter _).bind fun _ => .ok _
  · exact .fail rfl _

end Sql
end Schemata
