/-
Clauses of a column that are passed over.  A default value or a check may be put behind the type or
between clauses, and the column says the same.  A value ends where no operator follows an operand;
but a name takes a group behind it for its arguments, and then the value may go on behind the group.
-/
import Schemata.Proofs.Sql.Placement
import Schemata.Proofs.Sql.Similar

namespace Schemata
namespace Sql

open Relocation (nowhere)

variable {group ls ts here rest : List Lexeme}

/-! ## Default values -/

/-- The tokens that are operands on their own: literals and names. -/
def isOperand : Token → Bool
  | .str _ | .num _ | .keyword .null | .ident _ | .quoted _ => true
  | _ => false

/-- A literal, a name, the call of a function or a group. -/
inductive Operand : List Lexeme → Prop
  | single {l : Lexeme} (hl : isOperand l.token = true) : Operand [l]
  | call {l : Lexeme} {name : String} {arguments : List Lexeme} (hl : l.token = .ident name)
      (harguments : IsGroup arguments) : Operand (l :: arguments)
  | group {ls : List Lexeme} (h : IsGroup ls) : Operand ls

/-- Operands that are joined by one or more operators each. -/
inductive Expression : List Lexeme → Prop
  | operand {ls : List Lexeme} (h : Operand ls) : Expression ls
  | join {first operators more : List Lexeme} (hfirst : Operand first) (hne : operators ≠ [])
      (hoperators : ∀ l ∈ operators, isOperator l.token = true) (hmore : Expression more) :
      Expression (first ++ (operators ++ more))

/-- The last of the lexemes is a name without quotation marks. -/
def EndsInWord (ls : List Lexeme) : Prop :=
  ∃ l name, ls.getLast? = some l ∧ l.token = .ident name

theorem endsInWord_append (hls : ls ≠ []) (ks : List Lexeme) :
    EndsInWord (ks ++ ls) ↔ EndsInWord ls := by
  rw [EndsInWord, EndsInWord, List.getLast?_append_of_ne_nil ks hls]

theorem IsGroup.not_endsInWord (h : IsGroup group) : ¬EndsInWord group := by
  obtain @⟨opening, close, inner, -, -, hclose⟩ := h
  rintro ⟨l, name, hlast, hl⟩
  rw [← List.cons_append, List.getLast?_concat] at hlast
  cases hlast
  rw [hclose] at hl
  cases hl

namespace Operand

theorem ne_nil (h : Operand ls) : ls ≠ [] := by
  cases h with
  | single _ | call _ _ => exact List.cons_ne_nil _ _
  | group h =>
    cases h
    exact List.cons_ne_nil _ _

/-- No operand begins with an operator. -/
theorem isOperator_eq_false (h : Operand ls) (rest : List Lexeme) :
    isOperator (nextToken (ls ++ rest)) = false := by
  cases h with
  | @single l hl =>
    show isOperator l.token = false
    unfold isOperand at hl
    split at hl
    iterate 5
      next ht =>
        rw [ht]
        rfl
    cases hl
  | @call l name arguments hl _ =>
    show isOperator l.token = false
    rw [hl]
    rfl
  | group h =>
    rw [h.nextToken_append]
    rfl

theorem skipOperand_append (h : Operand ls)
    (hrest : EndsInWord ls → nextToken rest ≠ .leftParen) :
    skipOperand (ls ++ rest) = .ok rest := by
  cases h with
  | @single l hl =>
    rw [List.singleton_append, skipOperand]
    split
    · next ht =>
      rw [ht] at hl
      cases hl
    · next name ht => exact if_neg (hrest ⟨l, name, rfl, ht⟩)
    iterate 4 rfl
    · next hident hstr hnum hnull hquoted =>
      unfold isOperand at hl
      split at hl
      · next value ht => exact absurd ht (hstr value)
      · next number ht => exact absurd ht (hnum number)
      · next ht => exact absurd ht hnull
      · next name ht => exact absurd ht (hident name)
      · next name ht => exact absurd ht (hquoted name)
      · cases hl
  | @call l name arguments hl harguments =>
    rw [List.cons_append, skipOperand]
    simp only [hl]
    exact harguments.skipGroup?_append rest
  | group h =>
    have hgroup := h.readGroup_append rest
    obtain ⟨hopening, -, -⟩ := h
    rw [List.cons_append, skipOperand]
    simp only [hopening]
    rw [← List.cons_append, hgroup]
    rfl

end Operand

namespace Expression

theorem ne_nil (h : Expression ls) : ls ≠ [] := by
  cases h with
  | operand h => exact h.ne_nil
  | join hfirst _ _ _ => exact List.append_ne_nil_of_left_ne_nil hfirst.ne_nil _

theorem isOperator_eq_false (h : Expression ls) (rest : List Lexeme) :
    isOperator (nextToken (ls ++ rest)) = false := by
  cases h with
  | operand h => exact h.isOperator_eq_false rest
  | join hfirst _ _ _ =>
    rw [List.append_assoc]
    exact hfirst.isOperator_eq_false _

/-- A value is taken up to its end if nothing goes on with it: neither an operator nor, behind a
name, a group. -/
theorem skipExpression_append (h : Expression ls) (hnext : isOperator (nextToken rest) = false)
    (hcall : EndsInWord ls → nextToken rest ≠ .leftParen) :
    skipExpression (ls ++ rest) = .ok rest := by
  induction h with
  | operand h =>
    rw [skipExpression_eq, h.skipOperand_append hcall]
    exact if_neg (by rw [hnext]; exact Bool.false_ne_true)
  | @join first operators more hfirst hne hoperators hmore ih =>
    obtain ⟨l, operators, rfl⟩ := List.exists_cons_of_ne_nil hne
    have hl : isOperator l.token = true := hoperators l List.mem_cons_self
    have hword : EndsInWord (first ++ (l :: operators ++ more)) ↔ EndsInWord more := by
      rw [endsInWord_append (by simp), endsInWord_append hmore.ne_nil]
    have hfirst : skipOperand (first ++ (l :: operators ++ (more ++ rest))) =
        .ok (l :: operators ++ (more ++ rest)) := by
      refine hfirst.skipOperand_append fun _ hparen => ?_
      rw [show l.token = .leftParen from hparen] at hl
      cases hl
    rw [List.append_assoc, List.append_assoc, skipExpression_eq, hfirst]
    refine (if_pos hl).trans ?_
    rw [List.dropWhile_append_of_pos hoperators,
      dropWhile_of_not (by simp [hmore.isOperator_eq_false rest])]
    exact ih fun hmore => hcall (hword.mpr hmore)

/-- With a group behind it, a name at the end of a value is the call of a function. -/
theorem call (h : Expression ls) (hword : EndsInWord ls) (hgroup : IsGroup group) :
    Expression (ls ++ group) := by
  induction h with
  | operand h =>
    cases h with
    | @single l _ =>
      obtain ⟨k, name, hlast, hk⟩ := hword
      cases hlast
      exact .operand (.call hk hgroup)
    | @call l name arguments _ harguments =>
      refine absurd ((endsInWord_append ?_ [l]).mp hword) harguments.not_endsInWord
      exact (Operand.group harguments).ne_nil
    | group h => exact absurd hword h.not_endsInWord
  | @join first operators more hfirst hne hoperators hmore ih =>
    rw [List.append_assoc, List.append_assoc]
    refine .join hfirst hne hoperators (ih ?_)
    rwa [endsInWord_append (by simp [hne]), endsInWord_append hmore.ne_nil] at hword

end Expression

/-! ## Clauses -/

/-- A check, or a default value with which `here` does not go on: what is there begins with no
operator, nor does it do so behind a group which a name at the end of the value takes. -/
inductive Passed (here : List Lexeme) : List Lexeme → Prop
  | check {word : Lexeme} {group : List Lexeme} (hword : word.token = .keyword .check)
      (hgroup : IsGroup group) : Passed here (word :: group)
  | default {word : Lexeme} {value : List Lexeme} (hword : word.token = .keyword .default)
      (hvalue : Expression value) (hnext : isOperator (nextToken here) = false)
      (hcall : EndsInWord value → ∀ group rest, here = group ++ rest → IsGroup group →
        isOperator (nextToken rest) = false) : Passed here (word :: value)

/-- The clauses with a clause in front of them. -/
theorem readColumnClauses_of_clause {l : Lexeme} {c : ColumnClause} {cs : List ColumnClause}
    {mid : List Lexeme} (hclause : readColumnClause l ts = .ok (c, mid))
    (hmid : readColumnClauses mid = .ok (cs, rest)) :
    readColumnClauses (l :: ts) = .ok (c :: cs, rest) :=
  Clauses.read_append (.cons (endsItem_of_readColumnClause hclause) hclause .nil) hmid

theorem readColumnClause_check {l : Lexeme} (hl : l.token = .keyword .check)
    (hgroup : IsGroup group) : readColumnClause l (group ++ rest) = .ok (.passed, rest) := by
  rw [readColumnClause, hl]
  dsimp only
  rw [hgroup.readGroup_append]
  rfl

theorem readColumnClause_default {l : Lexeme} (hl : l.token = .keyword .default)
    (h : skipExpression ts = .ok rest) : readColumnClause l ts = .ok (.passed, rest) := by
  rw [readColumnClause, hl]
  dsimp only
  rw [h]
  rfl

/-- What clauses say: all but those that are passed over. -/
def said (cs : List ColumnClause) : List ColumnClause := cs.filter (· ≠ .passed)

theorem said_append (cs ds : List ColumnClause) : said (cs ++ ds) = said cs ++ said ds :=
  List.filter_append ..

/-- A group among the clauses is passed over. -/
theorem exists_group_of_readColumnClauses {cs : List ColumnClause}
    (h : readColumnClauses here = .ok (cs, rest)) (hparen : nextToken here = .leftParen) :
    ∃ group mid cs', here = group ++ mid ∧ IsGroup group ∧ cs = .passed :: cs' ∧
      readColumnClauses mid = .ok (cs', rest) := by
  obtain ⟨l, tail, rfl⟩ := Frames.exists_cons (p := (· = .leftParen)) (ne_of_isHalt rfl) hparen
  have hl : l.token = .leftParen := hparen
  rw [readColumnClauses_cons, if_neg (by rw [hl]; exact Bool.false_ne_true)] at h
  obtain ⟨⟨c, mid⟩, hclause, h⟩ := ok_of_bind h
  obtain ⟨⟨cs', last⟩, hmid, h⟩ := ok_of_bind h
  cases h
  rw [readColumnClause, hl] at hclause
  obtain ⟨⟨group, mid'⟩, hgroup, hclause⟩ := ok_of_bind hclause
  cases hclause
  exact ⟨group, mid, cs', (readGroup_append hgroup).1.symm, isGroup_of_readGroup hgroup, rfl, hmid⟩

/-- The clauses say the same with the one in front of them that is passed over, which may take the
first of them, a group, for the arguments of a name. -/
theorem Passed.exists_clauses {inserted : List Lexeme} {cs : List ColumnClause}
    (h : Passed here inserted) (hhere : readColumnClauses here = .ok (cs, rest)) :
    ∃ cs', readColumnClauses (inserted ++ here) = .ok (cs', rest) ∧ said cs' = said cs := by
  cases h with
  | check hword hgroup =>
    exact ⟨_, readColumnClauses_of_clause (readColumnClause_check hword hgroup) hhere, rfl⟩
  | @default word value hword hvalue hnext hcall =>
    by_cases htakes : EndsInWord value ∧ nextToken here = .leftParen
    · obtain ⟨hends, hparen⟩ := htakes
      obtain ⟨group, mid, cs', rfl, hgroup, rfl, hmid⟩ :=
        exists_group_of_readColumnClauses hhere hparen
      have hskip : skipExpression (value ++ (group ++ mid)) = .ok mid := by
        rw [← List.append_assoc]
        refine (hvalue.call hends hgroup).skipExpression_append
          (hcall hends group mid rfl hgroup) fun hword => ?_
        rw [endsInWord_append (Operand.group hgroup).ne_nil] at hword
        exact absurd hword hgroup.not_endsInWord
      exact ⟨_, readColumnClauses_of_clause (readColumnClause_default hword hskip) hmid, rfl⟩
    · have hskip : skipExpression (value ++ here) = .ok here :=
        hvalue.skipExpression_append hnext fun hends hparen => htakes ⟨hends, hparen⟩
      exact ⟨_, readColumnClauses_of_clause (readColumnClause_default hword hskip) hhere, rfl⟩

theorem Passed.isHalt {inserted : List Lexeme} (h : Passed here inserted) (ts : List Lexeme) :
    isHalt (nextToken (inserted ++ ts)) = true := by
  cases h with
  | @check word _ hword _ =>
    show Sql.isHalt word.token = true
    rw [hword]
    rfl
  | @default word _ hword _ _ _ =>
    show Sql.isHalt word.token = true
    rw [hword]
    rfl

/-! ## Columns -/

/-- What a column says that is defined by its name, its type and its clauses. -/
def columnOf (first : Lexeme) (name : String) (type : ColumnType) (cs : List ColumnClause) :
    ColumnDef × List PlacedConstraint :=
  (cs.foldl ColumnDef.apply ⟨name, type, false, false, true, first.position⟩,
    cs.filterMap (ColumnClause.constraint? name))

section

variable {dialect : Dialect} {first : Lexeme} {name : String} {raw : List Char} {type : ColumnType}
  {cs ds : List ColumnClause} {mid : List Lexeme}

theorem readColumn_of_parts (hname : first.name? = some name)
    (hraw : readTypeName [] ts = .ok (raw, mid))
    (htype : TypeName.toType? dialect (String.ofList raw) = some type)
    (hclauses : readColumnClauses mid = .ok (cs, rest)) :
    readColumn dialect (first :: ts) = .ok (columnOf first name type cs, rest) := by
  have hnonempty : raw.isEmpty = false := by
    cases raw with
    | nil => cases dialect <;> cases htype
    | cons c raw => rfl
  have hread : readName "column name" (first :: ts) = .ok (name, ts) := by
    rw [readName]
    simp only [hname]
  rw [readColumn_cons, hread]
  simp only [bind, Except.bind, hraw]
  rw [readTyped, if_neg (by rw [hnonempty]; exact Bool.false_ne_true), htype]
  dsimp only
  rw [hclauses]
  rfl

theorem exists_parts_of_readColumn {a : ColumnDef × List PlacedConstraint}
    (h : readColumn dialect (first :: ts) = .ok (a, rest)) :
    ∃ name raw mid type cs, first.name? = some name ∧ readTypeName [] ts = .ok (raw, mid) ∧
      TypeName.toType? dialect (String.ofList raw) = some type ∧
      readColumnClauses mid = .ok (cs, rest) ∧ a = columnOf first name type cs := by
  rw [readColumn_cons] at h
  obtain ⟨⟨name, ts'⟩, hname, h⟩ := ok_of_bind h
  obtain ⟨⟨raw, mid⟩, hraw, h⟩ := ok_of_bind h
  rw [readName] at hname
  split at hname
  · next hfirst =>
    cases hname
    dsimp only at h
    unfold readTyped at h
    split at h
    · exact absurd h fail_ne_ok
    · split at h
      · cases h
      · next type htype =>
        obtain ⟨⟨cs, last⟩, hclauses, h⟩ := ok_of_bind h
        cases h
        exact ⟨name, raw, mid, type, cs, hfirst, hraw, htype, hclauses, rfl⟩
  · exact absurd hname fail_ne_ok

theorem type_columnOf (first : Lexeme) (name : String) (type : ColumnType)
    (cs : List ColumnClause) : (columnOf first name type cs).1.type = type := by
  have happly : ∀ (cs : List ColumnClause) (d : ColumnDef),
      (cs.foldl ColumnDef.apply d).type = d.type := by
    intro cs d
    induction cs generalizing d with
    | nil => rfl
    | cons c cs ih =>
      rw [List.foldl_cons, ih]
      cases c <;> rfl
  exact happly cs _

/-- Clauses that are passed over change nothing. -/
theorem columnOf_said (first : Lexeme) (name : String) (type : ColumnType)
    (cs : List ColumnClause) :
    columnOf first name type (said cs) = columnOf first name type cs := by
  rw [columnOf, columnOf, said, List.foldl_filter, List.filterMap_filter]
  congr 2
  · funext d c
    cases c <;> rfl
  · funext c
    cases c <;> rfl

theorem columnOf_congr (h : said cs = said ds) :
    columnOf first name type cs = columnOf first name type ds := by
  rw [← columnOf_said, h, columnOf_said]

/-- Where clauses stand does not matter, but for the places of the constraints they make. -/
theorem columnOf_unplaced (first : Lexeme) (name : String) (type : ColumnType)
    (h : cs.map nowhere.clause = ds.map nowhere.clause) :
    (columnOf first name type cs).1 = (columnOf first name type ds).1 ∧
      (columnOf first name type cs).2.map (·.1) = (columnOf first name type ds).2.map (·.1) := by
  have hcolumn : ∀ (cs : List ColumnClause) (d : ColumnDef),
      (cs.map nowhere.clause).foldl ColumnDef.apply d = cs.foldl ColumnDef.apply d := by
    intro cs d
    rw [List.foldl_map]
    congr 1
    funext d c
    cases c <;> rfl
  constructor
  · show cs.foldl ColumnDef.apply _ = ds.foldl ColumnDef.apply _
    rw [← hcolumn cs, h, hcolumn]
  · show (cs.filterMap _).map _ = (ds.filterMap _).map _
    rw [← map_fst_unplaced, ← nowhere.constraints_relocated, h, nowhere.constraints_relocated,
      map_fst_unplaced]

end

/-! ## Where clauses may be put -/

/-- Words that are the name of a type as a whole leave the rest to go on with it. -/
theorem readTypeName_append {raw name : List Char} {words : List Lexeme}
    (h : readTypeName raw words = .ok (name, [])) (rest : List Lexeme) :
    readTypeName raw (words ++ rest) = readTypeName name rest := by
  fun_induction readTypeName raw words with
  | case1 raw =>
    cases h
    rfl
  | case2 raw l tail word hl ih =>
    rw [List.cons_append, readTypeName_cons, hl]
    exact ih h
  | case3 => cases h
  | case4 => cases h
  | case5 raw l tail hl hraw group mid hgroup ih =>
    have hread : readGroup (l :: (tail ++ rest)) = .ok (group, mid ++ rest) := by
      rw [← List.cons_append, ← (readGroup_append hgroup).1, List.append_assoc]
      exact (isGroup_of_readGroup hgroup).readGroup_append (mid ++ rest)
    rw [List.cons_append, readTypeName_cons, hl]
    dsimp only
    rw [if_neg hraw, hread]
    exact ih h
  | case6 => cases h

/-- What goes on with the name of a type is passed over as clauses, too. -/
theorem exists_clauses_of_readTypeName {raw name : List Char}
    (h : readTypeName raw ts = .ok (name, rest)) : ∃ cs, Clauses rest ts cs ∧ said cs = [] := by
  fun_induction readTypeName raw ts with
  | case1 | case3 | case6 =>
    cases h
    exact ⟨[], .nil, rfl⟩
  | case2 raw l tail word hl ih =>
    obtain ⟨cs, hcs, hsaid⟩ := ih h
    have hclause : readColumnClause l tail = .ok (.passed, tail) := by
      simp only [readColumnClause, hl]
      rfl
    exact ⟨.passed :: cs, .cons (endsItem_of_readColumnClause hclause) hclause hcs, hsaid⟩
  | case4 => cases h
  | case5 raw l tail hl hraw group mid hgroup ih =>
    obtain ⟨cs, hcs, hsaid⟩ := ih h
    have hclause : readColumnClause l tail = .ok (.passed, mid) := by
      simp only [readColumnClause, hl, hgroup]
      rfl
    exact ⟨.passed :: cs, .cons (endsItem_of_readColumnClause hclause) hclause hcs, hsaid⟩

/-- In front of `here` are the name and the type of a column, or these and some clauses.  What is
there may begin with words that do not change the type. -/
inductive InsertionPoint (dialect : Dialect) (type : ColumnType) (here : List Lexeme) :
    List Lexeme → Prop
  | type {first : Lexeme} {words : List Lexeme} {raw : List Char}
      (hwords : readTypeName [] words = .ok (raw, []))
      (htype : TypeName.toType? dialect (String.ofList raw) = some type) :
      InsertionPoint dialect type here (first :: words)
  | clause {first : Lexeme} {words clauses : List Lexeme} {raw : List Char}
      {cs : List ColumnClause}
      (hwords : readTypeName [] (words ++ (clauses ++ here)) = .ok (raw, clauses ++ here))
      (hclauses : Clauses here (clauses ++ here) cs) :
      InsertionPoint dialect type here (first :: (words ++ clauses))

section

variable {dialect : Dialect} {front inserted tail : List Lexeme} {c : ColumnDef}
  {keys : List PlacedConstraint}

/-- What is in front of `here` says the same with any other clauses behind it that do not go on with
it. -/
theorem InsertionPoint.exists_columnOf (h : InsertionPoint dialect c.type here front)
    (hread : readColumn dialect (front ++ here) = .ok ((c, keys), rest))
    (hcomplete : ∀ raw ts, readTypeName [] (front ++ here).tail = .ok (raw, ts) → Complete ts) :
    ∃ first name cs₀ cs, readColumnClauses here = .ok (cs, rest) ∧
      (c, keys) = columnOf first name c.type (cs₀ ++ cs) ∧
      ∀ ts cs' rest', isHalt (nextToken ts) = true → readColumnClauses ts = .ok (cs', rest') →
        readColumn dialect (front ++ ts) =
          .ok (columnOf first name c.type (cs₀ ++ cs'), rest') := by
  cases h with
  | @type first words raw hwords htype =>
    rw [List.cons_append] at hread
    obtain ⟨name, raw', mid, type, cs, hname, hraw, -, hclauses, heq⟩ :=
      exists_parts_of_readColumn hread
    rw [readTypeName_append hwords] at hraw
    -- What went on with the name of the type is read as clauses now.
    obtain ⟨cs₁, hcs₁, hsaid⟩ := exists_clauses_of_readTypeName hraw
    obtain rfl : c.type = type := by
      rw [← type_columnOf first name type cs, ← heq]
    have hsame : said cs = said ([] ++ (cs₁ ++ cs)) := by
      rw [List.nil_append, said_append, hsaid, List.nil_append]
    refine ⟨first, name, [], cs₁ ++ cs, hcs₁.read_append hclauses,
      heq.trans (columnOf_congr hsame), fun ts cs' rest' hts hts' => ?_⟩
    have hraw' : readTypeName [] (words ++ ts) = .ok (raw, ts) := by
      rw [readTypeName_append hwords]
      exact readTypeName_end (fun word => ne_of_isHalt rfl _ hts)
        fun hparen => absurd hparen (ne_of_isHalt rfl _ hts)
    exact readColumn_of_parts hname hraw' htype hts'
  | @clause first words clauses raw cs₀ hwords hclauses =>
    rw [List.cons_append, List.append_assoc] at hread hcomplete
    obtain ⟨name, raw', mid, type, cs, hname, hraw, htype, hmid, heq⟩ :=
      exists_parts_of_readColumn hread
    rw [hwords] at hraw
    cases hraw
    obtain ⟨more, hmore, rfl⟩ := hclauses.exists_of_read hmid
    obtain rfl : c.type = type := by
      rw [← type_columnOf first name type _, ← heq]
    obtain ⟨used, hused, hothers⟩ := hclauses.exists_append (s := .clause (here = []))
      fun _ => hcomplete raw _ hwords
    obtain rfl : clauses = used := List.append_cancel_right hused
    refine ⟨first, name, cs₀, more, hmore, heq, fun ts cs' rest' hts hts' => ?_⟩
    have hfits : Fits (.clause (here = [])) here ts := ⟨.inr, .inr hts⟩
    rw [List.cons_append, List.append_assoc]
    exact readColumn_of_parts hname
      ((frames_readTypeName hwords).read_append (hfits.append clauses)) htype
      ((hothers ts hfits).read_append hts')

/-- The references and the actions of the column that take a further word have one.  Where there is
none, they would take the mark of the end. -/
def ColumnNamed (ls : List Lexeme) : Prop :=
  ∀ raw ts, readTypeName [] ls.tail = .ok (raw, ts) →
    ∀ ks, Relation.ReflTransGen Continues ts ks →
      ∀ t ∈ unseen? (ks ++ [endMark]), isActionWord t = true

theorem ColumnNamed.complete (h : ColumnNamed ls) {raw : List Char}
    (hraw : readTypeName [] ls.tail = .ok (raw, ts)) : Complete ts := by
  intro ks hks hunseen
  cases h raw ts hraw ks hks .eof hunseen

theorem Continues.suffix (h : Continues ls ts) : ts <:+ ls := by
  cases h with
  | clause h =>
    have hclause := frames_readColumnClause (s := .item) h False.elim
    exact hclause.suffix.trans (List.suffix_cons _ _)
  | @target _ _ _ mid _ _ _ htable hcolumns =>
    have htable := frames_readQualifiedName (s := .item) htable
    have hcolumns := frames_readTargetColumns (s := .item) hcolumns
    have hmatch := frames_skipMatch (s := .item) mid fun _ => False.elim
    exact ((hmatch.suffix.trans hcolumns.suffix).trans htable.suffix).trans (List.suffix_cons _ _)
  | action _ h =>
    have haction := frames_skipAction (s := .item) h False.elim
    exact haction.suffix.trans (List.suffix_cons _ _)

theorem ActionsNamed.columnNamed (h : ActionsNamed (ls ++ [endMark])) : ColumnNamed ls := by
  intro raw ts hraw ks hks
  have hsuffix : ks <:+ ts := by
    induction hks with
    | refl => exact List.suffix_rfl
    | tail _ hmore ih => exact hmore.suffix.trans ih
  have hls : ks <:+ ls :=
    hsuffix.trans ((frames_readTypeName (s := .item) hraw).suffix.trans (List.tail_suffix ls))
  obtain ⟨used, rfl⟩ := hls
  refine h _ ((List.mem_tails _ _).mpr ?_)
  rw [List.append_assoc]
  exact List.suffix_append _ _

/-- A column with a default value or a check among its clauses is the same one as without it, and
it makes the same constraints. -/
theorem readColumn_passed (hread : readColumn dialect (front ++ here) = .ok ((c, keys), rest))
    (hnamed : ColumnNamed (front ++ here)) (hpoint : InsertionPoint dialect c.type here front)
    (hpassed : Passed here inserted) (htail : nowhere.lexemes here = nowhere.lexemes tail) :
    ∃ keys' rest', readColumn dialect (front ++ (inserted ++ tail)) = .ok ((c, keys'), rest') ∧
      keys'.map (·.1) = keys.map (·.1) ∧ nowhere.lexemes rest = nowhere.lexemes rest' := by
  obtain ⟨first, name, cs₀, cs, hcs, heq, hothers⟩ :=
    hpoint.exists_columnOf hread fun raw ts hraw => hnamed.complete hraw
  obtain ⟨cs', hcs', hsaid⟩ := hpassed.exists_clauses hcs
  -- Behind what is put in, the same clauses stand in other places.
  have hmoved : nowhere.lexemes (inserted ++ here) = nowhere.lexemes (inserted ++ tail) := by
    rw [Relocation.lexemes, Relocation.lexemes, List.map_append, List.map_append]
    exact congrArg _ htail
  obtain ⟨⟨ds, rest'⟩, hds, hsame⟩ :=
    (agrees_of_unplaced nowhere.readColumnClauses_relocated hmoved).exists_ok hcs'
  obtain ⟨hclauses, hrest⟩ := Prod.mk.inj hsame
  have hclauses : (cs₀ ++ cs').map nowhere.clause = (cs₀ ++ ds).map nowhere.clause := by
    rw [List.map_append, List.map_append, hclauses]
  have hunplaced := columnOf_unplaced first name c.type hclauses
  have hcolumn : columnOf first name c.type (cs₀ ++ cs') = (c, keys) := by
    rw [heq]
    exact columnOf_congr (by rw [said_append, said_append, hsaid])
  rw [hcolumn] at hunplaced
  refine ⟨(columnOf first name c.type (cs₀ ++ ds)).2, rest', ?_, hunplaced.2.symm, hrest⟩
  rw [hothers _ ds rest' (hpassed.isHalt tail) hds]
  exact congrArg (fun d => Except.ok ((d, _), rest')) hunplaced.1.symm

end

/-- Some of the lexemes of a script, one after the other. -/
def partOf (ps : List Piece) (start stop : Nat) : List Lexeme :=
  (locate .start 0 ps).extract start stop

def lexemeOf (ps : List Piece) (i : Nat) : Lexeme := (partOf ps i (i + 1)).headD endMark

def piece (text : String) (token : Token) : Piece := ⟨[' '], text.toList, token⟩

/-- The column `kind INT REFERENCES kinds MATCH FULL ON DELETE SET NULL UNIQUE` with the default
value `f(1, NOT NULL) :: t` in front of its last clause. -/
def defaulted : List Piece :=
  [piece "kind" (.ident "kind"), piece "INT" (.ident "INT"),
    piece "REFERENCES" (.keyword .references), piece "kinds" (.ident "kinds"),
    piece "MATCH" (.ident "MATCH"), piece "FULL" (.ident "FULL"), piece "ON" (.keyword .on),
    piece "DELETE" (.ident "DELETE"), piece "SET" (.ident "SET"), piece "NULL" (.keyword .null),
    piece "DEFAULT" (.keyword .default), piece "f" (.ident "f"), piece "(" .leftParen,
    piece "1" (.num "1"), piece "," .comma, piece "NOT" (.keyword .not),
    piece "NULL" (.keyword .null), piece ")" .rightParen, piece ":" (.symbol ':'),
    piece ":" (.symbol ':'), piece "t" (.ident "t"), piece "UNIQUE" (.keyword .unique)]

def undefaulted : List Piece := defaulted.take 10 ++ defaulted.drop 21

def kindColumn : ColumnDef := ⟨"kind", .integer, false, true, true, ⟨1, 2⟩⟩

def kindKey : Constraint := .foreignKey ⟨["kind"], "kinds", []⟩

theorem readColumn_passed_defaulted :
    readColumn .generic (partOf undefaulted 0 11) = .ok ((kindColumn, [(kindKey, ⟨1, 11⟩)]), []) ∧
      ∃ keys rest, readColumn .generic (partOf defaulted 0 22) = .ok ((kindColumn, keys), rest) ∧
        keys.map (·.1) = [kindKey] := by
  have hread : readColumn .generic (partOf undefaulted 0 11) =
      .ok ((kindColumn, [(kindKey, ⟨1, 11⟩)]), []) := by
    decide +kernel
  have hnamed : ColumnNamed (partOf undefaulted 0 11) :=
    ActionsNamed.columnNamed (by unfold ActionsNamed; decide +kernel)
  have hfront : partOf undefaulted 0 11 = lexemeOf undefaulted 0 ::
      ([lexemeOf undefaulted 1] ++ partOf undefaulted 2 10) ++ partOf undefaulted 10 11 := by
    decide +kernel
  have hwords : readTypeName [] ([lexemeOf undefaulted 1] ++
      (partOf undefaulted 2 10 ++ partOf undefaulted 10 11)) =
        .ok ("INT".toList, partOf undefaulted 2 10 ++ partOf undefaulted 10 11) := by
    decide +kernel
  have hclauses : Clauses (partOf undefaulted 10 11)
      (partOf undefaulted 2 10 ++ partOf undefaulted 10 11)
      [.references ⟨"kinds", []⟩ ⟨1, 11⟩] := by
    have hsplit : partOf undefaulted 2 10 ++ partOf undefaulted 10 11 =
        lexemeOf undefaulted 2 :: partOf undefaulted 3 11 := by
      decide +kernel
    rw [hsplit]
    exact .cons (by decide +kernel) (by decide +kernel) .nil
  have hvalue : Expression (partOf defaulted 11 21) := by
    have hgroup : readGroup (partOf defaulted 12 18) = .ok (partOf defaulted 12 18, []) := by
      decide +kernel
    have hname : (lexemeOf defaulted 11).token = .ident "f" := by decide +kernel
    have hsplit : partOf defaulted 11 21 = lexemeOf defaulted 11 :: partOf defaulted 12 18 ++
        (partOf defaulted 18 20 ++ [lexemeOf defaulted 20]) := by
      decide +kernel
    rw [hsplit]
    exact .join (.call hname (isGroup_of_readGroup hgroup)) (by decide +kernel) (by decide +kernel)
      (.operand (.single (by decide +kernel)))
  have hpassed : Passed (partOf undefaulted 10 11)
      (lexemeOf defaulted 10 :: partOf defaulted 11 21) := by
    refine .default (by decide +kernel) hvalue (by decide +kernel) fun _ group rest heq hgroup => ?_
    have hparen := hgroup.nextToken_append rest
    rw [← heq] at hparen
    exact absurd hparen (by decide +kernel)
  have htail : nowhere.lexemes (partOf undefaulted 10 11) =
      nowhere.lexemes (partOf defaulted 21 22) := by
    decide +kernel
  refine ⟨hread, ?_⟩
  rw [hfront] at hread hnamed
  obtain ⟨keys, rest, hnew, hkeys, -⟩ :=
    readColumn_passed hread hnamed (.clause hwords hclauses) hpassed htail
  refine ⟨keys, rest, ?_, hkeys⟩
  rw [← hnew]
  congr 1

/-- The column `x INT NOT NULL (a) = UNIQUE` with the default value `b` in front of the group. -/
def undivided : List Piece :=
  [piece "x" (.ident "x"), piece "INT" (.ident "INT"), piece "NOT" (.keyword .not),
    piece "NULL" (.keyword .null), piece "DEFAULT" (.keyword .default), piece "b" (.ident "b"),
    piece "(" .leftParen, piece "a" (.ident "a"), piece ")" .rightParen,
    piece "=" (.symbol '='), piece "UNIQUE" (.keyword .unique)]

def divided : List Piece := undivided.take 4 ++ undivided.drop 6

/-- A name at the end of a default value takes the group behind it for its arguments, and then the
value goes on with the operator behind the group. -/
theorem readColumn_undivided :
    readColumn .generic (partOf divided 0 4 ++ partOf divided 4 9) =
        .ok ((⟨"x", .integer, false, true, false, ⟨1, 2⟩⟩, []), []) ∧
      ColumnNamed (partOf divided 0 4 ++ partOf divided 4 9) ∧
      InsertionPoint .generic .integer (partOf divided 4 9) (partOf divided 0 4) ∧
      (lexemeOf undivided 4).token = .keyword .default ∧ Expression (partOf undivided 5 6) ∧
      isOperator (nextToken (partOf divided 4 9)) = false ∧
      nowhere.lexemes (partOf divided 4 9) = nowhere.lexemes (partOf undivided 6 11) ∧
      readColumn .generic (partOf divided 0 4 ++
          (lexemeOf undivided 4 :: partOf undivided 5 6 ++ partOf undivided 6 11)) =
        .error ⟨.malformed .defaultValue, some ⟨1, 35⟩⟩ := by
  have hnamed : ColumnNamed (partOf divided 0 4 ++ partOf divided 4 9) :=
    ActionsNamed.columnNamed (by unfold ActionsNamed; decide +kernel)
  have hfront : partOf divided 0 4 =
      lexemeOf divided 0 :: ([lexemeOf divided 1] ++ partOf divided 2 4) := by
    decide +kernel
  have hwords : readTypeName [] ([lexemeOf divided 1] ++
      (partOf divided 2 4 ++ partOf divided 4 9)) =
        .ok ("INT".toList, partOf divided 2 4 ++ partOf divided 4 9) := by
    decide +kernel
  have hclauses : Clauses (partOf divided 4 9) (partOf divided 2 4 ++ partOf divided 4 9)
      [.notNull] := by
    have hsplit : partOf divided 2 4 ++ partOf divided 4 9 =
        lexemeOf divided 2 :: partOf divided 3 9 := by
      decide +kernel
    rw [hsplit]
    exact .cons (by decide +kernel) (by decide +kernel) .nil
  have hvalue : Expression (partOf undivided 5 6) := by
    have hsplit : partOf undivided 5 6 = [lexemeOf undivided 5] := by decide +kernel
    rw [hsplit]
    exact .operand (.single (by decide +kernel))
  refine ⟨by decide +kernel, hnamed, ?_, by decide +kernel, hvalue, by decide +kernel,
    by decide +kernel, by decide +kernel⟩
  rw [hfront]
  exact .clause hwords hclauses

end Sql
end Schemata
