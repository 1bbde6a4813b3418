/-
Readers look neither at the places of lexemes nor, but for the names of types, at the gaps in front
of them.  Such a reader that is given lexemes which were moved reads the same as before, with the
places moved likewise, and leaves the same lexemes moved; and when it fails, it finds the same
fault.
-/
import Schemata.Sql.Document

namespace Schemata
namespace Sql

open Text (Position)

/-- Where lexemes are moved to.  The token and its spelling stay. -/
structure Relocation where
  gap : List Char → List Char
  position : Position → Position
  start : Nat → Nat

namespace Relocation

def lexeme (m : Relocation) (l : Lexeme) : Lexeme :=
  { l with gap := m.gap l.gap, position := m.position l.position, start := m.start l.start }

def lexemes (m : Relocation) (ts : List Lexeme) : List Lexeme := ts.map m.lexeme

def fault (m : Relocation) (fault : Fault) : Fault :=
  { fault with position := fault.position.map m.position }

/-- A result with other places. -/
def result (m : Relocation) (g : α → β) : Except Fault α → Except Fault β
  | .ok a => .ok (g a)
  | .error fault => .error (m.fault fault)

section

variable {m : Relocation}

/-- A reader that goes on after another one may be given moved lexemes if both may.  What the first
one has read may be used, since a recursion ends because of it. -/
theorem result_bind {g : α → α'} {g' : β → β'} {x : Except Fault α} {f : α → Except Fault β}
    {f' : α' → Except Fault β'} (h : ∀ a, x = .ok a → f' (g a) = m.result g' (f a)) :
    (m.result g x >>= f') = m.result g' (x >>= f) := by
  cases x with
  | error fault => rfl
  | ok a => exact h a rfl

theorem result_ite {g : α → β} {p : Prop} [Decidable p] {x y : Except Fault α}
    {x' y' : Except Fault β} (hx : x' = m.result g x) (hy : y' = m.result g y) :
    (if p then x' else y') = m.result g (if p then x else y) := by
  rw [hx, hy, apply_ite (m.result g)]

end

variable (m : Relocation)

theorem lexemes_nil : m.lexemes [] = [] := rfl

theorem lexemes_cons (l : Lexeme) (ts : List Lexeme) :
    m.lexemes (l :: ts) = m.lexeme l :: m.lexemes ts := rfl

theorem token_relocated (l : Lexeme) : (m.lexeme l).token = l.token := rfl

theorem name?_relocated (l : Lexeme) : (m.lexeme l).name? = l.name? := rfl

theorem nextToken_relocated (ts : List Lexeme) : nextToken (m.lexemes ts) = nextToken ts := by
  cases ts <;> rfl

theorem fail_relocated (ts : List Lexeme) (fault : SyntaxFault) {g : α → β} :
    fail fault (m.lexemes ts) = m.result g (fail fault ts) := by
  cases ts <;> rfl

theorem tail_relocated (ts : List Lexeme) : (m.lexemes ts).tail = m.lexemes ts.tail :=
  List.map_tail.symm

theorem drop_relocated (ts : List Lexeme) (n : Nat) :
    (m.lexemes ts).drop n = m.lexemes (ts.drop n) :=
  List.map_drop.symm

theorem dropWhile_relocated (ts : List Lexeme) (p : Token → Bool) :
    (m.lexemes ts).dropWhile (p ·.token) = m.lexemes (ts.dropWhile (p ·.token)) :=
  List.dropWhile_map ..

/-! ## Names -/

theorem expect_relocated (ts : List Lexeme) (token : Token) (what : String) :
    expect token what (m.lexemes ts) = m.result m.lexemes (expect token what ts) := by
  cases ts with
  | nil => rfl
  | cons l rest => exact result_ite rfl (m.fail_relocated (l :: rest) _)

theorem skipIf_relocated (ts : List Lexeme) (token : Token) :
    skipIf token (m.lexemes ts) = m.lexemes (skipIf token ts) := by
  rw [skipIf, nextToken_relocated, tail_relocated, skipIf, apply_ite m.lexemes]

theorem skipName_relocated (ts : List Lexeme) :
    skipName (m.lexemes ts) = m.lexemes (skipName ts) := by
  rw [skipName, nextToken_relocated, tail_relocated, skipName, apply_ite m.lexemes]

theorem readName_relocated (ts : List Lexeme) (what : String) :
    readName what (m.lexemes ts) = m.result (Prod.map id m.lexemes) (readName what ts) := by
  cases ts with
  | nil => rfl
  | cons l rest =>
    rw [lexemes_cons, readName, readName, name?_relocated]
    cases l.name? <;> rfl

theorem lastPart_relocated (ts : List Lexeme) (what name : String) :
    lastPart what name (m.lexemes ts) =
      m.result (Prod.map id m.lexemes) (lastPart what name ts) := by
  fun_induction lastPart what name ts with
  | case1 => rfl
  | case2 name d hd => exact if_pos hd
  | case3 name d hd => exact if_neg hd
  | case4 name d l rest hd part hpart ih =>
    rw [← ih]
    rw [lexemes_cons, lexemes_cons, lastPart, token_relocated, if_pos hd,
      name?_relocated, hpart]
  | case5 name d l rest hd hpart =>
    rw [lexemes_cons, lexemes_cons, lastPart, token_relocated, if_pos hd,
      name?_relocated, hpart]
    rfl
  | case6 name d l rest hd =>
    rw [lexemes_cons, lexemes_cons, lastPart, token_relocated, if_neg hd]
    rfl

theorem readQualifiedName_relocated (ts : List Lexeme) (what : String) :
    readQualifiedName what (m.lexemes ts) =
      m.result (Prod.map id m.lexemes) (readQualifiedName what ts) := by
  unfold readQualifiedName
  rw [readName_relocated]
  exact result_bind fun a _ => m.lastPart_relocated a.2 what a.1

/-! ## Groups -/

theorem closeGroup_relocated (ts : List Lexeme) (depth : Nat) :
    closeGroup depth (m.lexemes ts) =
      m.result (Prod.map m.lexemes m.lexemes) (closeGroup depth ts) := by
  induction ts generalizing depth with
  | nil => rfl
  | cons l rest ih =>
    have hmore : ∀ depth,
        (closeGroup depth (m.lexemes rest) >>= fun p => .ok (m.lexeme l :: p.1, p.2)) =
          m.result (Prod.map m.lexemes m.lexemes)
            (closeGroup depth rest >>= fun p => .ok (l :: p.1, p.2)) := by
      intro depth
      rw [ih]
      exact result_bind fun _ _ => rfl
    rw [lexemes_cons]
    unfold closeGroup
    rw [token_relocated]
    split
    · rfl
    · exact hmore _
    · exact hmore _
    · exact hmore _

theorem readGroup_relocated (ts : List Lexeme) :
    readGroup (m.lexemes ts) = m.result (Prod.map m.lexemes m.lexemes) (readGroup ts) := by
  cases ts with
  | nil => rfl
  | cons l rest =>
    refine result_ite ?_ (m.fail_relocated (l :: rest) _)
    show closeGroup 0 (m.lexemes rest) >>= _ = _
    rw [closeGroup_relocated]
    exact result_bind fun _ _ => rfl

theorem skipGroup?_relocated (ts : List Lexeme) :
    skipGroup? (m.lexemes ts) = m.result m.lexemes (skipGroup? ts) := by
  unfold skipGroup?
  rw [nextToken_relocated]
  refine result_ite ?_ rfl
  rw [readGroup_relocated]
  cases readGroup ts <;> rfl

/-! ## Lists of columns -/

theorem readSeparator_relocated (ts : List Lexeme) (fault : SyntaxFault) :
    readSeparator fault (m.lexemes ts) =
      m.result (Prod.map id m.lexemes) (readSeparator fault ts) := by
  cases ts with
  | nil => rfl
  | cons l rest => exact result_ite rfl (result_ite rfl (m.fail_relocated (l :: rest) _))

theorem readColumnEntry_relocated (ts : List Lexeme) :
    readColumnEntry (m.lexemes ts) = m.result (Prod.map id m.lexemes) (readColumnEntry ts) := by
  unfold readColumnEntry
  rw [readName_relocated]
  refine result_bind fun a _ => ?_
  show skipGroup? (m.lexemes a.2) >>= _ = m.result _ (skipGroup? a.2 >>= _)
  rw [skipGroup?_relocated]
  refine result_bind fun ts _ => ?_
  rw [nextToken_relocated, tail_relocated, ← apply_ite m.lexemes]
  rfl

theorem readColumnEntries_relocated (ts : List Lexeme) :
    readColumnEntries (m.lexemes ts) =
      m.result (Prod.map id m.lexemes) (readColumnEntries ts) := by
  rw [readColumnEntries_eq, readColumnEntries_eq ts, readColumnEntry_relocated]
  refine result_bind fun a ha => ?_
  show readSeparator _ (m.lexemes a.2) >>= _ = m.result _ (readSeparator _ a.2 >>= _)
  rw [readSeparator_relocated]
  refine result_bind fun b hb => result_ite ?_ rfl
  have hlt : b.2.length < ts.length :=
    Nat.lt_trans (length_readSeparator hb) (length_readColumnEntry ha)
  show readColumnEntries (m.lexemes b.2) >>= _ = _
  rw [readColumnEntries_relocated b.2]
  exact result_bind fun _ _ => rfl
termination_by ts.length
decreasing_by exact hlt

theorem readColumnList_relocated (ts : List Lexeme) :
    readColumnList (m.lexemes ts) = m.result (Prod.map id m.lexemes) (readColumnList ts) := by
  unfold readColumnList
  rw [expect_relocated]
  exact result_bind fun ts _ => m.readColumnEntries_relocated ts

/-! ## References -/

theorem skipAction_relocated (ts : List Lexeme) :
    skipAction (m.lexemes ts) = m.result m.lexemes (skipAction ts) := by
  unfold skipAction
  rw [nextToken_relocated, tail_relocated]
  refine result_ite ?_ (m.fail_relocated ts _)
  dsimp only
  rw [nextToken_relocated, tail_relocated]
  refine result_ite ?_ (result_ite (m.skipGroup?_relocated _) (m.fail_relocated _ _))
  rw [drop_relocated]
  rfl

theorem skipActions_relocated (ts : List Lexeme) :
    skipActions (m.lexemes ts) = m.result m.lexemes (skipActions ts) := by
  cases ts with
  | nil => rw [lexemes_nil, skipActions]; rfl
  | cons l tail =>
    rw [lexemes_cons, skipActions_cons, skipActions_cons l]
    refine result_ite ?_ rfl
    rw [skipAction_relocated]
    refine result_bind fun rest hrest => ?_
    have hlt : rest.length < (l :: tail).length := Nat.lt_succ_of_le (length_skipAction hrest)
    exact skipActions_relocated rest
termination_by ts.length
decreasing_by exact hlt

theorem skipMatch_relocated (ts : List Lexeme) :
    skipMatch (m.lexemes ts) = m.lexemes (skipMatch ts) := by
  rw [skipMatch, nextToken_relocated, drop_relocated, skipMatch, apply_ite m.lexemes]

theorem readTargetColumns_relocated (ts : List Lexeme) :
    readTargetColumns (m.lexemes ts) = m.result (Prod.map id m.lexemes) (readTargetColumns ts) := by
  unfold readTargetColumns
  rw [nextToken_relocated]
  exact result_ite (m.readColumnList_relocated ts) rfl

theorem readTarget_relocated (ts : List Lexeme) :
    readTarget (m.lexemes ts) = m.result (Prod.map id m.lexemes) (readTarget ts) := by
  unfold readTarget
  rw [readQualifiedName_relocated]
  refine result_bind fun a _ => ?_
  show readTargetColumns (m.lexemes a.2) >>= _ = m.result _ (readTargetColumns a.2 >>= _)
  rw [readTargetColumns_relocated]
  refine result_bind fun b _ => ?_
  show skipActions (skipMatch (m.lexemes b.2)) >>= _ = m.result _ (skipActions _ >>= _)
  rw [skipMatch_relocated, skipActions_relocated]
  exact result_bind fun _ _ => rfl

/-! ## Default values -/

theorem skipOperand_relocated (ts : List Lexeme) :
    skipOperand (m.lexemes ts) = m.result m.lexemes (skipOperand ts) := by
  cases ts with
  | nil => rfl
  | cons l rest =>
    rw [lexemes_cons]
    unfold skipOperand
    dsimp only
    rw [token_relocated]
    split
    · show (readGroup (m.lexemes (l :: rest))).map _ = _
      rw [readGroup_relocated]
      cases readGroup (l :: rest) <;> rfl
    · exact m.skipGroup?_relocated rest
    · rfl
    · rfl
    · rfl
    · rfl
    · exact m.fail_relocated (l :: rest) _

theorem skipExpression_relocated (ts : List Lexeme) :
    skipExpression (m.lexemes ts) = m.result m.lexemes (skipExpression ts) := by
  rw [skipExpression_eq, skipExpression_eq ts, skipOperand_relocated]
  refine result_bind fun rest hrest => ?_
  rw [nextToken_relocated, dropWhile_relocated]
  refine result_ite ?_ rfl
  have hlt : (rest.dropWhile (isOperator ·.token)).length < ts.length :=
    Nat.lt_of_le_of_lt (List.dropWhile_suffix _).length_le (length_skipOperand hrest)
  exact skipExpression_relocated _
termination_by ts.length
decreasing_by exact hlt

/-! ## Columns -/

def clause (m : Relocation) : ColumnClause → ColumnClause
  | .references target position => .references target (m.position position)
  | clause => clause

def constraint (m : Relocation) (c : PlacedConstraint) : PlacedConstraint := (c.1, m.position c.2)

def column (m : Relocation) (c : ColumnDef) : ColumnDef :=
  { c with position := m.position c.position }

theorem readColumnClause_relocated (l : Lexeme) (ts : List Lexeme) :
    readColumnClause (m.lexeme l) (m.lexemes ts) =
      m.result (Prod.map m.clause m.lexemes) (readColumnClause l ts) := by
  unfold readColumnClause
  rw [token_relocated]
  split
  · rw [expect_relocated]
    exact result_bind fun _ _ => rfl
  · rw [expect_relocated]
    exact result_bind fun _ _ => rfl
  · rfl
  · rw [skipIf_relocated]
    rfl
  · rw [skipExpression_relocated]
    exact result_bind fun _ _ => rfl
  · rw [readTarget_relocated]
    exact result_bind fun _ _ => rfl
  · rw [readGroup_relocated]
    exact result_bind fun _ _ => rfl
  · show readGroup (m.lexemes (l :: ts)) >>= _ = _
    rw [readGroup_relocated]
    exact result_bind fun _ _ => rfl
  · rw [skipName_relocated]
    rfl
  · rw [skipAction_relocated]
    refine result_bind fun ts _ => ?_
    rw [skipActions_relocated]
    exact result_bind fun _ _ => rfl
  · exact result_ite rfl (m.fail_relocated (l :: ts) _)

theorem readColumnClauses_relocated (ts : List Lexeme) :
    readColumnClauses (m.lexemes ts) =
      m.result (Prod.map (List.map m.clause) m.lexemes) (readColumnClauses ts) := by
  cases ts with
  | nil => rw [lexemes_nil, readColumnClauses]; rfl
  | cons l rest =>
    rw [lexemes_cons, readColumnClauses_cons, readColumnClauses_cons l]
    refine result_ite rfl ?_
    rw [readColumnClause_relocated]
    refine result_bind fun a ha => ?_
    have hlt : a.2.length < (l :: rest).length := Nat.lt_succ_of_le (length_readColumnClause ha)
    show readColumnClauses (m.lexemes a.2) >>= _ = _
    rw [readColumnClauses_relocated a.2]
    exact result_bind fun _ _ => rfl
termination_by ts.length
decreasing_by exact hlt

theorem apply_relocated (c : ColumnDef) (clause : ColumnClause) :
    (m.column c).apply (m.clause clause) = m.column (c.apply clause) := by
  cases clause <;> rfl

theorem foldl_apply_relocated (c : ColumnDef) (clauses : List ColumnClause) :
    (clauses.map m.clause).foldl ColumnDef.apply (m.column c) =
      m.column (clauses.foldl ColumnDef.apply c) := by
  rw [List.foldl_map]
  exact List.foldl_hom m.column fun c clause => m.apply_relocated c clause

theorem constraints_relocated (name : String) (clauses : List ColumnClause) :
    (clauses.map m.clause).filterMap (ColumnClause.constraint? name) =
      (clauses.filterMap (ColumnClause.constraint? name)).map m.constraint := by
  rw [List.filterMap_map, List.map_filterMap]
  congr 1
  funext clause
  cases clause <;> rfl

/-! ## Constraints -/

theorem readForeignKey_relocated (ts : List Lexeme) :
    readForeignKey (m.lexemes ts) = m.result (Prod.map id m.lexemes) (readForeignKey ts) := by
  unfold readForeignKey
  rw [expect_relocated]
  refine result_bind fun ts _ => ?_
  rw [skipName_relocated, readColumnList_relocated]
  refine result_bind fun a _ => ?_
  show expect _ _ (m.lexemes a.2) >>= _ = m.result _ (expect _ _ a.2 >>= _)
  rw [expect_relocated]
  refine result_bind fun ts _ => ?_
  rw [readTarget_relocated]
  exact result_bind fun b _ => result_ite rfl (m.fail_relocated b.2 _)

theorem skipConstraintName_relocated (ts : List Lexeme) :
    skipConstraintName (m.lexemes ts) = m.lexemes (skipConstraintName ts) := by
  rw [skipConstraintName, nextToken_relocated, tail_relocated, skipName_relocated,
    skipConstraintName, apply_ite m.lexemes]

theorem readConstraint_relocated (ts : List Lexeme) :
    readConstraint (m.lexemes ts) = m.result (Prod.map id m.lexemes) (readConstraint ts) := by
  unfold readConstraint
  rw [skipConstraintName_relocated]
  cases skipConstraintName ts with
  | nil => rfl
  | cons l rest =>
    rw [lexemes_cons]
    dsimp only
    rw [token_relocated]
    split
    · rw [expect_relocated]
      refine result_bind fun ts _ => ?_
      rw [readColumnList_relocated]
      exact result_bind fun _ _ => rfl
    · rw [nextToken_relocated, tail_relocated, ← apply_ite m.lexemes, skipName_relocated,
        readColumnList_relocated]
      exact result_bind fun _ _ => rfl
    · rw [readForeignKey_relocated]
      exact result_bind fun _ _ => rfl
    · rw [readGroup_relocated]
      exact result_bind fun _ _ => rfl
    · exact m.fail_relocated (l :: rest) _

/-! ## Bodies of tables -/

theorem skipUntil_relocated (stops : Token → Bool) (ts : List Lexeme) :
    skipUntil stops (m.lexemes ts) = m.result m.lexemes (skipUntil stops ts) := by
  cases ts with
  | nil => rw [lexemes_nil, skipUntil]; rfl
  | cons l rest =>
    rw [lexemes_cons, skipUntil_cons, skipUntil_cons stops l]
    refine result_ite rfl (result_ite ?_ (skipUntil_relocated stops rest))
    show readGroup (m.lexemes (l :: rest)) >>= _ = _
    rw [readGroup_relocated]
    refine result_bind fun a ha => ?_
    have hlt := length_readGroup ha
    exact skipUntil_relocated stops a.2
termination_by ts.length
decreasing_by
  · exact hlt
  · exact Nat.lt_succ_self _

theorem opensColumnList_relocated (ts : List Lexeme) :
    opensColumnList (m.lexemes ts) = opensColumnList ts := by
  rcases ts with _ | ⟨l, _ | ⟨name, rest⟩⟩ <;> rfl

theorem definesIndex_relocated (ts : List Lexeme) :
    definesIndex (m.lexemes ts) = definesIndex ts := by
  rw [definesIndex, opensColumnList_relocated, nextToken_relocated, tail_relocated,
    opensColumnList_relocated, nextToken_relocated, definesIndex]

def body (m : Relocation) (b : Body) : Body :=
  ⟨b.columns.map m.column, b.constraints.map m.constraint⟩

theorem body_append (a b : Body) : m.body (a ++ b) = m.body a ++ m.body b := by
  show Body.mk (List.map _ (_ ++ _)) (List.map _ (_ ++ _)) = _
  rw [List.map_append, List.map_append]
  rfl

theorem repeatedColumn?_relocated (taken : List String) (columns : List ColumnDef) :
    repeatedColumn? taken (columns.map m.column) =
      (repeatedColumn? taken columns).map m.column :=
  List.find?_map ..

theorem names_relocated (columns : List ColumnDef) :
    (columns.map m.column).map (·.name) = columns.map (·.name) := by
  rw [List.map_map]
  rfl

/-! ## Statements -/

theorem skipIfNotExists_relocated (ts : List Lexeme) :
    skipIfNotExists (m.lexemes ts) = m.result m.lexemes (skipIfNotExists ts) := by
  unfold skipIfNotExists
  rw [nextToken_relocated, tail_relocated, expect_relocated]
  refine result_ite (result_bind fun ts _ => ?_) rfl
  exact m.expect_relocated ts _ _

theorem skipIfExists_relocated (ts : List Lexeme) :
    skipIfExists (m.lexemes ts) = m.result m.lexemes (skipIfExists ts) := by
  unfold skipIfExists
  rw [nextToken_relocated, tail_relocated]
  exact result_ite (m.expect_relocated _ _ _) rfl

theorem readAddition_relocated (ts : List Lexeme) :
    readAddition (m.lexemes ts) =
      m.result (Prod.map (List.map m.constraint) m.lexemes) (readAddition ts) := by
  cases ts with
  | nil => rfl
  | cons l rest =>
    show expect _ _ (m.lexemes (l :: rest)) >>= _ = m.result _ (expect _ _ (l :: rest) >>= _)
    rw [expect_relocated]
    refine result_bind fun ts _ => ?_
    rw [nextToken_relocated]
    refine result_ite ?_ (m.fail_relocated ts _)
    rw [readConstraint_relocated]
    refine result_bind fun a _ => ?_
    show skipUntil _ (m.lexemes a.2) >>= _ = m.result _ (skipUntil _ a.2 >>= _)
    rw [skipUntil_relocated]
    refine result_bind fun ts _ => ?_
    show Except.ok (_ , _) = Except.ok (_, _)
    cases a.1 <;> rfl

theorem readAdditions_relocated (ts : List Lexeme) :
    readAdditions (m.lexemes ts) =
      m.result (List.map m.constraint) (readAdditions ts) := by
  rw [readAdditions_eq, readAdditions_eq ts, readAddition_relocated]
  refine result_bind fun a ha => ?_
  obtain ⟨constraints, rest⟩ := a
  cases rest with
  | nil => rfl
  | cons l rest =>
    have hlt : rest.length < ts.length := Nat.lt_trans (Nat.lt_succ_self _) (length_readAddition ha)
    show readAdditions (m.lexemes rest) >>= _ = _
    rw [readAdditions_relocated rest]
    refine result_bind fun more _ => ?_
    exact congrArg Except.ok (List.map_append ..).symm
termination_by ts.length
decreasing_by exact hlt

theorem readAlter_relocated (ts : List Lexeme) :
    readAlter (m.lexemes ts) =
      m.result (Prod.map id (List.map m.constraint)) (readAlter ts) := by
  unfold readAlter
  rw [expect_relocated]
  refine result_bind fun ts _ => ?_
  rw [skipIfExists_relocated]
  refine result_bind fun ts _ => ?_
  rw [skipIf_relocated, readQualifiedName_relocated]
  refine result_bind fun a _ => ?_
  show readAdditions (m.lexemes a.2) >>= _ = m.result _ (readAdditions a.2 >>= _)
  rw [readAdditions_relocated]
  exact result_bind fun _ _ => rfl

/-! ## Gaps that stay

A name of a type has the gaps in it, so it is read the same only if they stay. -/

section

variable {m : Relocation} (hm : ∀ gap, m.gap gap = gap)

include hm

theorem spell_relocated (ts : List Lexeme) : spell (m.lexemes ts) = spell ts := by
  cases ts with
  | nil => rfl
  | cons l rest =>
    rw [lexemes_cons, spell, spell, lexemes, List.flatMap_map]
    simp only [lexeme, hm]

theorem readTypeName_relocated (raw : List Char) (ts : List Lexeme) :
    readTypeName raw (m.lexemes ts) = m.result (Prod.map id m.lexemes) (readTypeName raw ts) := by
  cases ts with
  | nil => rw [lexemes_nil, readTypeName]; rfl
  | cons l rest =>
    rw [lexemes_cons, readTypeName_cons, readTypeName_cons raw l, token_relocated]
    split
    · exact readTypeName_relocated _ rest
    · refine result_ite rfl ?_
      show readGroup (m.lexemes (l :: rest)) >>= _ = _
      rw [readGroup_relocated]
      refine result_bind fun a ha => ?_
      have hlt := length_readGroup ha
      show readTypeName (raw ++ Text.squeeze (spell (m.lexemes a.1))) (m.lexemes a.2) = _
      rw [spell_relocated hm]
      exact readTypeName_relocated _ a.2
    · rfl
termination_by ts.length
decreasing_by
  · exact Nat.lt_succ_self _
  · exact hlt

theorem readColumn_relocated (dialect : Dialect) (ts : List Lexeme) :
    readColumn dialect (m.lexemes ts) =
      m.result (Prod.map (Prod.map m.column (List.map m.constraint)) m.lexemes)
        (readColumn dialect ts) := by
  cases ts with
  | nil => rfl
  | cons l rest =>
    show readName _ (m.lexemes (l :: rest)) >>= _ = _
    rw [readName_relocated]
    refine result_bind fun ⟨name, ts⟩ _ => ?_
    dsimp only [Prod.map, id]
    rw [readTypeName_relocated hm]
    refine result_bind fun ⟨raw, ts⟩ _ => result_ite (m.fail_relocated ts _) ?_
    dsimp only [Prod.map, id]
    cases TypeName.toType? dialect (String.ofList raw) with
    | none => rfl
    | some type =>
      dsimp only
      rw [readColumnClauses_relocated]
      refine result_bind fun ⟨clauses, ts⟩ _ => ?_
      refine congrArg Except.ok (Prod.ext (Prod.ext ?_ ?_) rfl)
      · exact m.foldl_apply_relocated ⟨name, type, false, false, true, l.position⟩ clauses
      · exact m.constraints_relocated name clauses

theorem readItem_relocated (dialect : Dialect) (ts : List Lexeme) :
    readItem dialect (m.lexemes ts) =
      m.result (Prod.map m.body m.lexemes) (readItem dialect ts) := by
  cases ts with
  | nil => rfl
  | cons l rest =>
    have hconstraint : (readConstraint (m.lexeme l :: m.lexemes rest) >>= fun c =>
        .ok ((⟨[], c.1.toList.map (·, (m.lexeme l).position)⟩ : Body), c.2)) =
        m.result (Prod.map m.body m.lexemes) (readConstraint (l :: rest) >>= fun c =>
          .ok ((⟨[], c.1.toList.map (·, l.position)⟩ : Body), c.2)) := by
      rw [← lexemes_cons, readConstraint_relocated]
      refine result_bind fun c _ => ?_
      cases hc : c.1 <;> simp [result, body, Prod.map, hc, constraint, lexeme]
    rw [lexemes_cons]
    unfold readItem
    dsimp only
    rw [token_relocated, name?_relocated, definesIndex_relocated]
    split
    iterate 5 exact hconstraint
    refine result_ite ?_ (result_ite ?_ (m.fail_relocated (l :: rest) _))
    · rw [skipUntil_relocated]
      exact result_bind fun _ _ => rfl
    · rw [← lexemes_cons, readColumn_relocated hm]
      exact result_bind fun _ _ => rfl

theorem readItems_relocated (dialect : Dialect) (taken : List String) (ts : List Lexeme) :
    readItems dialect taken (m.lexemes ts) =
      m.result (Prod.map m.body m.lexemes) (readItems dialect taken ts) := by
  rw [readItems_eq, readItems_eq dialect taken ts, readItem_relocated hm]
  refine result_bind fun ⟨first, rest⟩ hfirst => ?_
  dsimp only [Prod.map, body]
  rw [repeatedColumn?_relocated]
  cases repeatedColumn? taken first.columns with
  | some c => rfl
  | none =>
    dsimp only [Option.map]
    rw [readSeparator_relocated]
    refine result_bind fun ⟨more, after⟩ hmore => result_ite ?_ rfl
    have hlt : after.length < ts.length :=
      Nat.lt_trans (length_readSeparator hmore) (length_readItem hfirst)
    dsimp only [Prod.map, id]
    rw [names_relocated, readItems_relocated dialect _ after]
    refine result_bind fun ⟨items, left⟩ _ => ?_
    exact congrArg Except.ok (Prod.ext (m.body_append first items).symm rfl)
termination_by ts.length
decreasing_by exact hlt

theorem readCreate_relocated (dialect : Dialect) (ts : List Lexeme) :
    readCreate dialect (m.lexemes ts) =
      m.result (Prod.map id m.body) (readCreate dialect ts) := by
  unfold readCreate
  rw [dropWhile_relocated, expect_relocated]
  refine result_bind fun ts _ => ?_
  rw [skipIfNotExists_relocated]
  refine result_bind fun ts _ => ?_
  rw [readQualifiedName_relocated]
  refine result_bind fun a _ => ?_
  show expect _ _ (m.lexemes a.2) >>= _ = _
  rw [expect_relocated]
  refine result_bind fun ts _ => ?_
  rw [nextToken_relocated]
  refine result_ite rfl ?_
  rw [readItems_relocated hm]
  exact result_bind fun _ _ => rfl

end

/-- No place at all, and no gap. -/
def nowhere : Relocation := ⟨fun _ => [], fun _ => .start, fun _ => 0⟩

end Relocation
end Sql
end Schemata
