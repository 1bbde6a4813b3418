/-
Columns, constraints and bodies of tables at a cursor, up to whole statements.  The parameters of a
type are what stands between two offsets, the second of which is taken from the lexeme in front of
the cursor; and that lexeme is the one that closed the group.
-/
import Schemata.Proofs.Sql.Indexed.Reading

namespace Schemata
namespace Sql

/-! ## Types -/

namespace TypeName

theorem longestType?_eq (dialect : Dialect) (whole : List Char) {words : List String} {n : Nat}
    (h : n ≤ words.length) : longestType? dialect whole words n = .ok
      ((List.range n).reverse.findSome? fun n => ofWords? dialect whole (words.take (n + 1))) := by
  induction n with
  | zero => rfl
  | succ n ih =>
    rw [longestType?, leading, if_pos h, List.range_succ, List.reverse_append,
      List.reverse_singleton, List.singleton_append, List.findSome?_cons]
    dsimp only [bind, Except.bind]
    cases ofWords? dialect whole (words.take (n + 1)) with
    | none => exact ih (Nat.le_of_succ_le h)
    | some type => rfl

theorem indexedType?_eq (dialect : Dialect) (name : String) :
    indexedType? dialect name = .ok (toType? dialect name) :=
  longestType?_eq dialect _ (Nat.le_refl _)

end TypeName

/-! ## Indices of columns -/

theorem opensColumnList_eq (ts : List Lexeme) : opensColumnList ts =
    (decide (nextToken ts = .leftParen) && (ts[1]?.bind Lexeme.name?).isSome) := by
  match ts with
  | [] => rfl
  | [l] => simp [opensColumnList]
  | l :: name :: rest => rfl

/-- What is passed over ends where a token stops, or at the end. -/
theorem stops_of_skipUntil {stops : Token → Bool} {ts rest : List Lexeme} {l : Lexeme}
    (h : skipUntil stops ts = .ok (l :: rest)) : stops l.token = true := by
  fun_induction skipUntil stops ts with
  | case1 => cases h
  | case2 l' tail hstops =>
    cases h
    exact hstops
  | case3 => cases h
  | case4 l' tail _ _ group mid _ ih => exact ih h
  | case5 l' tail _ _ ih => exact ih h

theorem comma_of_readAddition {ts rest : List Lexeme} {l : Lexeme} {cs : List PlacedConstraint}
    (h : readAddition ts = .ok (cs, l :: rest)) : l.token = .comma := by
  cases ts with
  | nil => exact absurd h fail_ne_ok
  | cons k ts =>
    obtain ⟨mid, -, h⟩ := ok_of_bind h
    split at h
    · obtain ⟨⟨constraint, mid'⟩, -, h⟩ := ok_of_bind h
      obtain ⟨mid'', hskip, h⟩ := ok_of_bind h
      cases h
      exact of_decide_eq_true (stops_of_skipUntil hskip)
    · exact absurd h fail_ne_ok

namespace Cursor
namespace Faces

variable {s : Statement} {c : Cursor} {l : Lexeme} {ts : List Lexeme} {rounds : Nat}

/-! ## Columns -/

theorem readTypeName (h : c.Faces s ts) (raw : List Char) (hrounds : ts.length < rounds) :
    Mirrors s.reject (Beside s) (Cursor.readTypeName rounds raw c) (Sql.readTypeName raw ts) := by
  induction rounds generalizing c ts raw with
  | zero => exact absurd hrounds (Nat.not_lt_zero _)
  | succ rounds ih =>
    cases ts with
    | nil =>
      rw [Cursor.readTypeName, h.token, Sql.readTypeName]
      exact .ok (.mk raw h)
    | cons l ts =>
      have hless : ts.length < rounds := Nat.lt_of_succ_lt_succ hrounds
      rw [Cursor.readTypeName, readTypeName_cons, h.token_cons, h.lexeme]
      cases l.token with
      | ident word => exact ih h.advance _ hless
      | leftParen =>
        refine .ite (.ok (.mk raw h)) (h.skipGroup.bind ?_)
        rintro c' ⟨group, rest⟩ hgroup h'
        obtain ⟨happend, hne⟩ := readGroup_append hgroup
        obtain ⟨k, more, rfl⟩ := List.exists_cons_of_ne_nil hne
        obtain ⟨rfl, -⟩ := List.cons.inj happend
        obtain ⟨before, hls, -⟩ := h.before
        have hsplit : before ++ k :: more ++ rest = s.lexemes := by
          rw [List.append_assoc, happend, hls]
        rw [h'.previous hsplit]
        show Mirrors s.reject _ (c'.slice k.start (more.getLastD k).stop >>= _) _
        rw [h'.slice hsplit]
        refine ih h' _ (Nat.lt_of_le_of_lt ?_ hless)
        exact Nat.le_of_lt_succ (length_readGroup hgroup)
      | _ => exact .ok (.mk raw h)

theorem readColumnClause (h : c.Faces s (l :: ts)) :
    Mirrors s.reject (Beside s) c.readColumnClause (Sql.readColumnClause l ts) := by
  have h' := h.advance
  have hposition : c.position = l.position := h.position
  rw [Cursor.readColumnClause, Sql.readColumnClause, h.token_cons, hposition]
  cases hl : l.token with
  | keyword k =>
    cases k with
    | primary | not => exact (h'.expect _ _ (by simp)).bind fun _ _ _ h => .ok (.mk _ h)
    | null => exact .ok (.mk _ h')
    | unique => exact .ok (.mk _ (h'.skipIf _))
    | default =>
      have hrounds : ts.length < c.rounds := Nat.lt_of_succ_lt h.length_lt
      exact (h'.skipExpression hrounds).bind fun _ _ _ h => .ok (.mk _ h)
    | references =>
      refine h'.readTarget.bind ?_
      rintro _ _ - ⟨target, h⟩
      exact .ok (.mk _ h)
    | check => exact h'.skipGroup.bind fun _ _ _ h => .ok (.mk _ h)
    | constraint => exact .ok (.mk _ h'.skipName)
    | on =>
      have hactions := h.skipActions h.length_lt
      rw [skipActions_cons, if_pos hl] at hactions
      show Mirrors s.reject _ _ (Sql.skipAction ts >>= fun ts => Sql.skipActions ts >>= fun ts =>
        .ok (ColumnClause.passed, ts))
      rw [← bind_assoc]
      exact hactions.bind fun _ _ _ h => .ok (.mk _ h)
    | _ => exact h.fail _
  | leftParen => exact h.skipGroup.bind fun _ _ _ h => .ok (.mk _ h)
  | ident _ | quoted _ | str _ | num _ | symbol _ | dot => exact .ok (.mk _ h')
  | _ => exact h.fail _

theorem readColumnClauses (h : c.Faces s ts) (hrounds : ts.length < rounds) :
    Mirrors s.reject (Beside s) (Cursor.readColumnClauses rounds c) (Sql.readColumnClauses ts) := by
  induction rounds generalizing c ts with
  | zero => exact absurd hrounds (Nat.not_lt_zero _)
  | succ rounds ih =>
    cases ts with
    | nil =>
      rw [Cursor.readColumnClauses, h.token, Sql.readColumnClauses]
      exact .ok (.mk _ h)
    | cons l ts =>
      rw [Cursor.readColumnClauses, readColumnClauses_cons, h.token_cons]
      refine .ite (.ok (.mk _ h)) (h.readColumnClause.bind ?_)
      rintro _ _ hclause ⟨clause, h⟩
      refine (ih h ?_).bind ?_
      · exact Nat.lt_of_le_of_lt (length_readColumnClause hclause) (Nat.lt_of_succ_lt_succ hrounds)
      · rintro _ _ - ⟨clauses, h⟩
        exact .ok (.mk _ h)

theorem readColumn (h : c.Faces s (l :: ts)) (dialect : Dialect) :
    Mirrors s.reject (Beside s) (c.readColumn dialect) (Sql.readColumn dialect (l :: ts)) := by
  have hposition : c.position = l.position := h.position
  rw [Cursor.readColumn, hposition]
  refine (h.readName _).bind ?_
  rintro _ _ - ⟨name, h⟩
  refine (h.readTypeName [] h.length_lt).bind ?_
  rintro _ _ - ⟨raw, h⟩
  refine .ite (h.fail _) ?_
  dsimp only
  rw [TypeName.indexedType?_eq]
  cases TypeName.toType? dialect (String.ofList raw) with
  | none => exact h.reject _ _
  | some type =>
    refine (h.readColumnClauses h.length_lt).bind ?_
    rintro _ _ - ⟨clauses, h⟩
    exact .ok (.mk _ h)

/-! ## Constraints -/

theorem readForeignKey (h : c.Faces s (l :: ts)) (hl : l.token = .keyword .foreign) :
    Mirrors s.reject (Beside s) c.readForeignKey (Sql.readForeignKey ts) := by
  rw [Cursor.readForeignKey, Cursor.expect, h.token_cons, if_pos hl]
  refine (h.advance.expect _ _ (by simp)).bind fun c ts _ h => ?_
  refine h.skipName.readColumnList.bind ?_
  rintro _ _ - ⟨columns, h⟩
  refine (h.expect _ _ (by simp)).bind fun c ts _ h => ?_
  refine h.readTarget.bind ?_
  rintro _ _ - ⟨target, h⟩
  exact .ite (.ok (.mk _ h)) (h.fail _)

theorem skipConstraintName (h : c.Faces s ts) :
    c.skipConstraintName.Faces s (Sql.skipConstraintName ts) := by
  rw [Cursor.skipConstraintName, Sql.skipConstraintName, h.token]
  split
  · exact h.advance.skipName
  · exact h

theorem readConstraint (h : c.Faces s ts) :
    Mirrors s.reject (Beside s) c.readConstraint (Sql.readConstraint ts) := by
  have h := h.skipConstraintName
  rw [Cursor.readConstraint, Sql.readConstraint]
  generalize c.skipConstraintName = c at h ⊢
  cases hts : Sql.skipConstraintName ts with
  | nil =>
    rw [hts] at h
    rw [Cursor.readConstraintKind, h.token]
    exact h.fail _
  | cons l rest =>
    rw [hts] at h
    have h' := h.advance
    rw [Cursor.readConstraintKind, h.token_cons]
    dsimp only
    cases hl : l.token with
    | keyword k =>
      cases k with
      | primary =>
        refine (h'.expect _ _ (by simp)).bind fun c ts _ h => h.readColumnList.bind ?_
        rintro _ _ - ⟨columns, h⟩
        exact .ok (.mk _ h)
      | unique =>
        have hword : Faces
            (if c.advance.token = .keyword .key || c.advance.token = .keyword .index
              then c.advance.advance else c.advance) s
            (if nextToken rest = .keyword .key || nextToken rest = .keyword .index
              then rest.tail else rest) := by
          rw [h'.token, List.tail_cons]
          split
          · exact h'.advance
          · exact h'
        refine hword.skipName.readColumnList.bind ?_
        rintro _ _ - ⟨columns, h⟩
        exact .ok (.mk _ h)
      | foreign =>
        refine (h.readForeignKey hl).bind ?_
        rintro _ _ - ⟨key, h⟩
        exact .ok (.mk _ h)
      | check => exact h'.skipGroup.bind fun _ _ _ h => .ok (.mk _ h)
      | _ => exact h.fail _
    | _ => exact h.fail _

/-! ## Bodies of tables -/

theorem skipUntil (h : c.Faces s ts) (stops : Token → Bool) (hrounds : ts.length < rounds) :
    Mirrors s.reject (Faces · s ·) (Cursor.skipUntil stops rounds c) (Sql.skipUntil stops ts) := by
  induction rounds generalizing c ts with
  | zero => exact absurd hrounds (Nat.not_lt_zero _)
  | succ rounds ih =>
    cases ts with
    | nil =>
      have heof : (stops c.token || decide (c.token = .eof)) = true := by
        rw [h.token]
        exact Bool.or_true _
      rw [Cursor.skipUntil, if_pos heof, Sql.skipUntil]
      exact .ok h
    | cons l ts =>
      have hless : ts.length < rounds := Nat.lt_of_succ_lt_succ hrounds
      rw [Cursor.skipUntil, skipUntil_cons, h.token_cons, decide_eq_false h.token_ne_eof,
        Bool.or_false]
      refine .ite (.ok h) (.ite (h.skipGroup.bind ?_) (ih h.advance hless))
      rintro c' ⟨group, rest⟩ hgroup h'
      exact ih h' (Nat.lt_of_lt_of_le (length_readGroup hgroup) hless)

theorem definesIndex (h : c.Faces s (l :: ts)) :
    c.definesIndex = .ok (Sql.definesIndex ts) := by
  rw [Cursor.definesIndex, h.token_ahead, h.token_ahead, h.name?, h.name?, Sql.definesIndex,
    opensColumnList_eq, opensColumnList_eq]
  have hget : ∀ n, (l :: ts)[n + 1]? = ts[n]? := fun n => List.getElem?_cons_succ
  have htail : ts.tail[1]? = ts[2]? := by rw [List.getElem?_tail]
  have hdrop : (l :: ts).drop 2 = ts.tail := by rw [List.drop_succ_cons, List.drop_one]
  rw [hget, hget, htail, hdrop, List.drop_succ_cons, List.drop_zero]
  cases nextToken ts with
  | leftParen => simp [Token.isName, Token.ident?]
  | ident _ | quoted _ =>
    cases nextToken ts.tail <;> simp [Token.isName, Token.ident?, Token.isWord]
  | _ => simp [Token.isName, Token.ident?]

/-- What is no index is a column if it begins with a name. -/
theorem readNamed (h : c.Faces s (l :: ts)) (dialect : Dialect) :
    Mirrors s.reject (Beside s)
      (match l.name? with
        | some _ => do
          let ((column, constraints), c) ← c.readColumn dialect
          return ((⟨[column], constraints⟩ : Body), c)
        | none => c.fail (.unexpectedItem l.token))
      (if l.name?.isSome then do
        let ((column, constraints), ts) ← Sql.readColumn dialect (l :: ts)
        return (⟨[column], constraints⟩, ts)
      else Sql.fail (.unexpectedItem l.token) (l :: ts)) := by
  cases l.name? with
  | none => exact h.fail _
  | some name =>
    refine (h.readColumn dialect).bind ?_
    rintro _ _ - ⟨⟨column, constraints⟩, h⟩
    exact .ok (.mk _ h)

theorem readDefinition (h : c.Faces s (l :: ts)) (dialect : Dialect) :
    Mirrors s.reject (Beside s) (c.readDefinition dialect)
      (if (l.token = .keyword .index || l.token = .keyword .key) && Sql.definesIndex ts then do
        let ts ← Sql.skipUntil endsItem ts
        return (.empty, ts)
      else if l.name?.isSome then do
        let ((column, constraints), ts) ← Sql.readColumn dialect (l :: ts)
        return (⟨[column], constraints⟩, ts)
      else Sql.fail (.unexpectedItem l.token) (l :: ts)) := by
  have hnamed := h.readNamed dialect
  rw [Cursor.readDefinition, h.token_cons, h.definesIndex, h.name?]
  cases hword : (decide (l.token = .keyword .index) || decide (l.token = .keyword .key)) with
  | false => exact hnamed
  | true =>
    cases Sql.definesIndex ts with
    | false => exact hnamed
    | true =>
      have hskip := h.skipUntil endsItem h.length_lt
      rw [Bool.or_eq_true, decide_eq_true_iff, decide_eq_true_iff] at hword
      rw [skipUntil_cons, if_neg, if_neg] at hskip
      · exact hskip.bind fun _ _ _ h => .ok (.mk _ h)
      · rcases hword with hl | hl <;> rw [hl] <;> exact Token.noConfusion
      · rcases hword with hl | hl <;> rw [hl] <;> exact Bool.false_ne_true

theorem readItem (h : c.Faces s ts) (dialect : Dialect) :
    Mirrors s.reject (Beside s) (c.readItem dialect) (Sql.readItem dialect ts) := by
  cases ts with
  | nil =>
    rw [Cursor.readItem, h.token]
    show Mirrors s.reject _ (c.readDefinition dialect) _
    rw [Cursor.readDefinition, h.token, h.name?]
    exact h.fail _
  | cons l ts =>
    have hposition : c.position = l.position := h.position
    have hdefinition := h.readDefinition dialect
    rw [Cursor.readItem, Sql.readItem, h.token_cons, hposition]
    dsimp only
    cases hl : l.token with
    | keyword k =>
      rw [hl] at hdefinition
      cases k with
      | constraint | primary | unique | foreign | check =>
        refine h.readConstraint.bind ?_
        rintro _ _ - ⟨constraint, h⟩
        exact .ok (.mk _ h)
      | _ => exact hdefinition
    | _ =>
      rw [hl] at hdefinition
      exact hdefinition

theorem readItems (h : c.Faces s ts) (dialect : Dialect) (taken : List String)
    (hrounds : ts.length < rounds) :
    Mirrors s.reject (Beside s) (Cursor.readItems dialect rounds taken c)
      (Sql.readItems dialect taken ts) := by
  induction rounds generalizing c ts taken with
  | zero => exact absurd hrounds (Nat.not_lt_zero _)
  | succ rounds ih =>
    rw [readItems_eq]
    refine (h.readItem dialect).bind ?_
    rintro _ _ hitem ⟨body, h⟩
    dsimp only
    cases repeatedColumn? taken body.columns with
    | some column => exact h.reject _ _
    | none =>
      refine (h.readSeparator _).bind ?_
      rintro _ _ hseparator ⟨more, h⟩
      refine .ite ((ih h _ ?_).bind ?_) (.ok (.mk _ h))
      · have := length_readItem hitem
        have := length_readSeparator hseparator
        omega
      · rintro _ _ - ⟨items, h⟩
        exact .ok (.mk _ h)

/-! ## Statements -/

theorem skipIfNotExists (h : c.Faces s ts) :
    Mirrors s.reject (Faces · s ·) c.skipIfNotExists (Sql.skipIfNotExists ts) := by
  rw [Cursor.skipIfNotExists, Sql.skipIfNotExists, h.token]
  refine .ite ((h.advance.expect _ _ (by simp)).bind fun c ts _ h => ?_) (.ok h)
  exact h.expect _ _ (by simp)

theorem skipIfExists (h : c.Faces s ts) :
    Mirrors s.reject (Faces · s ·) c.skipIfExists (Sql.skipIfExists ts) := by
  rw [Cursor.skipIfExists, Sql.skipIfExists, h.token]
  exact .ite (h.advance.expect _ _ (by simp)) (.ok h)

theorem readCreate (h : c.Faces s ts) (dialect : Dialect) :
    Mirrors s.reject Eq (c.readCreate dialect) (Sql.readCreate dialect ts) := by
  obtain ⟨c', hskip, h'⟩ := h.skipWhile (p := isTableModifier) rfl h.length_lt
  rw [Cursor.readCreate, hskip]
  refine (h'.expect _ _ (by simp)).bind fun c ts _ h => ?_
  refine h.skipIfNotExists.bind fun c ts _ h => (h.readQualifiedName _).bind ?_
  rintro _ _ - ⟨name, h⟩
  refine (h.expect _ _ (by simp)).bind fun c ts _ h => ?_
  rw [h.token]
  refine .ite (.ok rfl) ((h.readItems dialect [] h.length_lt).bind ?_)
  rintro _ _ - ⟨body, h⟩
  exact .ok rfl

theorem readAddition (h : c.Faces s ts) :
    Mirrors s.reject (Beside s) c.readAddition (Sql.readAddition ts) := by
  cases ts with
  | nil =>
    have hfail : c.expect (.keyword .add) "ADD CONSTRAINT" =
        c.fail (.expected "ADD CONSTRAINT" .eof) := by
      rw [Cursor.expect, h.token]
      rfl
    rw [Cursor.readAddition, hfail]
    exact h.fail _
  | cons l ts =>
    have hposition : c.position = l.position := h.position
    rw [Cursor.readAddition, hposition]
    refine (h.expect _ _ (by simp)).bind fun c ts _ h => ?_
    rw [h.token]
    refine .ite (h.readConstraint.bind ?_) (h.fail _)
    rintro _ _ - ⟨constraint, h⟩
    exact (h.skipUntil _ h.length_lt).bind fun _ _ _ h => .ok (.mk _ h)

theorem readAdditions (h : c.Faces s ts) (hrounds : ts.length < rounds) :
    Mirrors s.reject Eq (Cursor.readAdditions rounds c) (Sql.readAdditions ts) := by
  induction rounds generalizing c ts with
  | zero => exact absurd hrounds (Nat.not_lt_zero _)
  | succ rounds ih =>
    rw [readAdditions_eq]
    refine h.readAddition.bind ?_
    rintro _ ⟨_, rest⟩ haddition ⟨constraints, h⟩
    cases rest with
    | nil =>
      dsimp only
      rw [h.token]
      exact .ok rfl
    | cons l rest =>
      dsimp only
      rw [h.token_cons, if_pos (comma_of_readAddition haddition)]
      refine (ih h.advance ?_).bind ?_
      · have := length_readAddition haddition
        rw [List.length_cons] at this
        rw [List.tail_cons]
        omega
      · rintro more _ - rfl
        exact .ok rfl

theorem readAlter (h : c.Faces s ts) :
    Mirrors s.reject Eq c.readAlter (Sql.readAlter ts) := by
  refine (h.expect _ _ (by simp)).bind fun c ts _ h => h.skipIfExists.bind fun c ts _ h => ?_
  refine ((h.skipIf _).readQualifiedName _).bind ?_
  rintro _ _ - ⟨name, h⟩
  refine (h.readAdditions h.length_lt).bind ?_
  rintro constraints _ - rfl
  exact .ok rfl

end Faces
end Cursor

/-- A statement is read at a cursor as it is read from its lexemes, and no breach is run into. -/
theorem Statement.Grounded.read {s : Statement} (h : s.Grounded) (dialect : Dialect) :
    (Cursor.mk s.lexemes (spell s.lexemes) 0).read dialect =
      (s.read dialect).mapError fun fault => .rejected (s.reject fault) := by
  have hfaces : (Cursor.mk s.lexemes (spell s.lexemes) 0).Faces s (s.first :: s.others) :=
    ⟨h, [], rfl, rfl⟩
  have hposition : (Cursor.mk s.lexemes (spell s.lexemes) 0).position = s.position :=
    hfaces.position
  refine Mirrors.eq_mapError ?_
  rw [Cursor.read, Statement.read, hfaces.token_cons, hposition]
  cases s.first.token with
  | keyword k =>
    cases k with
    | create =>
      refine (hfaces.advance.readCreate dialect).bind ?_
      rintro ⟨name, body⟩ _ - rfl
      exact .ok rfl
    | alter =>
      refine hfaces.advance.readAlter.bind ?_
      rintro ⟨name, constraints⟩ _ - rfl
      exact .ok rfl
    | _ => exact hfaces.fail _
  | _ => exact hfaces.fail _

end Sql
end Schemata
