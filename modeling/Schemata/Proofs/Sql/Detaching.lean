/-
Taking keys away from where they stand.  A key that is an item of a body may be taken out of the
body, and one that is the last clause of a column may be taken away from the column.  What is left
is read as before, but for the key, and the key alone is read as what it said there.
-/
import Schemata.Proofs.Sql.BodyItems

namespace Schemata
namespace Sql

open Text (Position)

/-! ## Items -/

/-- In front of `rest`, the item and its comma are taken out of the lexemes, or the item alone if it
is the only one of its body. -/
inductive Detached (item rest : List Lexeme) : List Lexeme → List Lexeme → Prop
  | only (hrest : nextToken rest = .rightParen) : Detached item rest item []
  | behind {before : List Lexeme} {l : Lexeme} (hbefore : Closed (fun _ => false) before)
      (hl : l.token = .comma) (hrest : nextToken rest = .comma ∨ nextToken rest = .rightParen) :
      Detached item rest (before ++ l :: item) before
  | before {before : List Lexeme} {l : Lexeme} (hbefore : AtStart .comma before)
      (hl : l.token = .comma) : Detached item rest (before ++ (item ++ [l])) before

theorem closed_of_atStart {separator : Token} {before : List Lexeme}
    (h : AtStart separator before) (hleft : separator ≠ .leftParen)
    (hright : separator ≠ .rightParen) : Closed (fun _ => false) before := by
  rcases h with rfl | ⟨init, l, rfl, hl, hinit⟩
  · rfl
  · refine Closed.append hinit (depthOver_cons_of_nest ?_ rfl)
    exact nest_of_ne (by rwa [hl]) (by rwa [hl]) fun _ => rfl

theorem closed_of_comma {l : Lexeme} (hl : l.token = .comma) : Closed (fun _ => false) [l] :=
  closed_singleton (by simp [hl]) (by simp [hl]) rfl

section

variable {dialect : Dialect} {taken : List String} {item rest whole left inner tail : List Lexeme}
  {close : Lexeme} {b : Body}

theorem Detached.closed (h : Detached item rest whole left) (hitem : Closed isComma item) :
    Closed (fun _ => false) whole ∧ Closed (fun _ => false) left := by
  have hitem := depthOver_unbroken hitem
  cases h with
  | only _ => exact ⟨hitem, rfl⟩
  | behind hbefore hl _ =>
    exact ⟨hbefore.append (Closed.append (closed_of_comma hl) hitem), hbefore⟩
  | before hbefore hl =>
    have hbefore := closed_of_atStart hbefore (by simp) (by simp)
    exact ⟨hbefore.append (Closed.append hitem (closed_of_comma hl)), hbefore⟩

/-- What comes behind an item in a body begins with a comma. -/
theorem token_of_closed {w : List Lexeme} (hw : Closed (fun _ => false) w)
    (hrest : nextToken (w ++ close :: tail) = .comma ∨
      nextToken (w ++ close :: tail) = .rightParen) : ∀ l ∈ w.head?, l.token = .comma := by
  intro l hl
  cases w with
  | nil => cases hl
  | cons k w =>
    cases hl
    rcases hrest with hcomma | hparen
    · exact hcomma
    · exact absurd hparen (nextToken_ne_of_closed hw (by simp) _)

theorem readsItems_names_nil {c : Body} (hc : c.columns = []) : c.names = [] := by
  rw [Body.names, hc]
  rfl

/-- Without an item that has no columns, the items of a body are read as before. -/
theorem ReadsItems.exists_detached (h : ReadsItems dialect [] inner b)
    (hdetached : Detached item rest whole left) (hitem : Closed isComma item)
    (hcolumns : ∀ c, ReadsAs dialect item c → c.columns = [])
    (heq : whole ++ rest = inner ++ close :: tail) (hclose : close.token = .rightParen) :
    ∃ b₁ c b₂ w, rest = w ++ close :: tail ∧ b = b₁ ++ (c ++ b₂) ∧ ReadsAs dialect item c ∧
      ReadsBody dialect (left ++ w) (b₁ ++ b₂) := by
  have hinner := h.closed
  have hwhole := (hdetached.closed hitem).1
  obtain ⟨w, rfl, rfl⟩ := exists_append_of_closed heq hwhole hinner (by rw [hclose]; rfl)
  have hw : Closed (fun _ => false) w := (depthOver_of_closed hwhole hinner).2
  cases hdetached with
  | only hrest =>
    cases w with
    | cons k w => exact absurd hrest (nextToken_ne_of_closed hw (by simp) _)
    | nil =>
      rw [List.append_nil] at h
      exact ⟨.empty, b, .empty, [], rfl, (Body.append_empty b).symm, (h.single hitem).1,
        .inl ⟨rfl, rfl⟩⟩
  | @behind _ l hleft hl hrest =>
    rw [List.append_cons, List.append_assoc] at h
    obtain ⟨b₁, c, b₂, rfl, hb₁, hc, -, hb₂⟩ :=
      h.exists_item (.inr ⟨left, l, rfl, hl, hleft⟩) hitem (token_of_closed hw hrest)
    refine ⟨b₁, c, b₂, w, rfl, rfl, hc, .inr ?_⟩
    rw [readsItems_names_nil (hcolumns c hc), List.append_nil] at hb₂
    generalize hbefore : left ++ [l] = before at hb₁
    cases hb₁ with
    | nil => simp at hbefore
    | items hitems _ =>
      obtain ⟨rfl, -⟩ := List.append_inj' hbefore rfl
      exact hitems.append_after hb₂
  | @before _ l hleft hl =>
    rw [List.append_assoc, List.append_assoc] at h
    obtain ⟨b₁, c, b₂, rfl, hb₁, hc, -, hb₂⟩ :=
      h.exists_item hleft hitem (fun k hk => by cases hk; exact hl)
    refine ⟨b₁, c, b₂, w, rfl, rfl, hc, .inr ?_⟩
    rw [readsItems_names_nil (hcolumns c hc), List.append_nil] at hb₂
    cases hb₂ with
    | items _ hitems => exact hb₁.append hitems

end

/-! ## Clauses -/

/-- Clauses of a column stand in front of `rest`. -/
inductive Clauses (rest : List Lexeme) : List Lexeme → List ColumnClause → Prop
  | nil : Clauses rest rest []
  | cons {l : Lexeme} {ts mid : List Lexeme} {c : ColumnClause} {cs : List ColumnClause}
      (hl : endsItem l.token = false) (hclause : readColumnClause l ts = .ok (c, mid))
      (hmore : Clauses rest mid cs) : Clauses rest (l :: ts) (c :: cs)

namespace Clauses

variable {ts rest : List Lexeme} {cs : List ColumnClause}

theorem passes {breaks : Token → Bool} (h : Clauses rest ts cs) : Passes breaks 0 0 ts rest := by
  induction h with
  | nil => exact .refl 0 rest
  | cons _ hclause _ ih => exact (passes_readColumnClause hclause).trans ih

theorem read_append (h : Clauses rest ts cs) {last : List Lexeme} {more : List ColumnClause}
    (hrest : readColumnClauses rest = .ok (more, last)) :
    readColumnClauses ts = .ok (cs ++ more, last) := by
  induction h with
  | nil => exact hrest
  | cons hl hclause _ ih =>
    rw [readColumnClauses_cons, if_neg (by simp [hl]), hclause]
    show readColumnClauses _ >>= _ = _
    rw [ih]
    rfl

/-- What is read from the first of the clauses on is theirs and what is read behind them. -/
theorem exists_of_read (h : Clauses rest ts cs) {last : List Lexeme} {all : List ColumnClause}
    (hts : readColumnClauses ts = .ok (all, last)) :
    ∃ more, readColumnClauses rest = .ok (more, last) ∧ all = cs ++ more := by
  induction h generalizing all with
  | nil => exact ⟨all, hts, rfl⟩
  | cons hl hclause _ ih =>
    rw [readColumnClauses_cons, if_neg (by simp [hl]), hclause] at hts
    have hts : readColumnClauses _ >>= _ = _ := hts
    obtain ⟨⟨others, last'⟩, hothers, hts⟩ := ok_of_bind hts
    cases hts
    obtain ⟨more, hmore, rfl⟩ := ih hothers
    exact ⟨more, hmore, rfl⟩

/-- The clauses are the same in front of anything else that fits. -/
theorem exists_append {s : Sequel} (h : Clauses rest ts cs) (hcomplete : s.complete → Complete ts) :
    ∃ used, ts = used ++ rest ∧ ∀ rest', Fits s rest rest' → Clauses rest' (used ++ rest') cs := by
  induction h with
  | nil => exact ⟨[], rfl, fun _ _ => .nil⟩
  | @cons l ts mid c cs hl hclause _ ih =>
    have hframes := frames_readColumnClause (s := s) hclause hcomplete
    have hmid : s.complete → Complete mid := fun hs =>
      (hcomplete hs).of_continues (.clause hclause)
    obtain ⟨used, rfl, hread⟩ := hframes
    obtain ⟨used', rfl, hmore⟩ := ih hmid
    refine ⟨l :: (used ++ used'), by simp, fun rest' hrest => ?_⟩
    rw [List.cons_append, List.append_assoc]
    exact .cons hl (hread _ (hrest.append used')) (hmore rest' hrest)

end Clauses

/-- In front of `rest`, the lexemes define the column `name` up to its last clause, which says
`c`. -/
inductive LastClause (rest : List Lexeme) (name : String) (c : ColumnClause) :
    List Lexeme → List Lexeme → Prop
  | intro {first l : Lexeme} {others more mid : List Lexeme} {raw : List Char}
      {cs : List ColumnClause} (hconstraint : opensConstraint first.token = false)
      (hindex : opensIndex first (others ++ l :: (more ++ rest)) = false)
      (hname : first.name? = some name)
      (htype : readTypeName [] (others ++ l :: (more ++ rest)) = .ok (raw, mid))
      (hclauses : Clauses (l :: (more ++ rest)) mid cs)
      (hclause : readColumnClause l (more ++ rest) = .ok (c, rest)) :
      LastClause rest name c (first :: others) (l :: more)

namespace LastClause

variable {dialect : Dialect} {name : String} {c : ColumnClause} {column clause rest : List Lexeme}

theorem passes {breaks : Token → Bool} (h : LastClause rest name c column clause) :
    Passes breaks 0 0 (column ++ (clause ++ rest)) (clause ++ rest) ∧
      Passes breaks 0 0 (clause ++ rest) rest := by
  cases h with
  | intro _ _ hname htype hclauses hclause =>
    have hfirst : ∀ ts, Passes breaks 0 0 (_ :: ts) ts :=
      Passes.of_isDivider (isDivider_of_name? hname) 0
    exact ⟨((hfirst _).trans (passes_readTypeName htype)).trans hclauses.passes,
      passes_readColumnClause hclause⟩

/-- Parentheses are closed in the column and in its last clause. -/
theorem closed {breaks : Token → Bool} (h : LastClause rest name c column clause)
    (hseen : BreaksSeen breaks (column ++ (clause ++ rest))) :
    Closed breaks column ∧ Closed breaks clause := by
  have hpasses : Passes breaks 0 0 (column ++ (clause ++ rest)) (clause ++ rest) ∧
      Passes breaks 0 0 (clause ++ rest) rest := h.passes
  obtain ⟨⟨used, hused, hcolumn⟩, used', hused', hclause⟩ := hpasses
  rw [List.append_cancel_right hused, List.append_cancel_right hused']
  exact ⟨hcolumn hseen, hclause (hseen.of_suffix (List.suffix_append _ _))⟩

end LastClause

theorem name_foldl_apply (cs : List ColumnClause) (d : ColumnDef) :
    (cs.foldl ColumnDef.apply d).name = d.name := by
  induction cs generalizing d with
  | nil => rfl
  | cons c cs ih =>
    rw [List.foldl_cons, ih]
    cases c <;> rfl

theorem endsItem_of_readColumnClause {l : Lexeme} {ts rest : List Lexeme} {c : ColumnClause}
    (h : readColumnClause l ts = .ok (c, rest)) : endsItem l.token = false := by
  cases hl : l.token with
  | comma | rightParen | eof =>
    unfold readColumnClause at h
    simp only [hl] at h
    exact absurd h fail_ne_ok
  | _ => rfl

/-- What is neither a constraint nor an index is read as a column. -/
theorem readItem_of_name? {dialect : Dialect} {first : Lexeme} {ts : List Lexeme} {name : String}
    (hconstraint : opensConstraint first.token = false) (hindex : opensIndex first ts = false)
    (hname : first.name? = some name) :
    readItem dialect (first :: ts) = readTypeName [] ts >>= fun a =>
      readTyped dialect first.position name a.1 a.2 >>= fun b =>
        .ok (⟨[b.1.1], b.1.2⟩, b.2) := by
  have hread : readName "column name" (first :: ts) = .ok (name, ts) := by
    rw [readName]
    simp only [hname]
  rw [readItem_cons, if_neg (by simp [hconstraint]), if_neg (by simp [hindex]),
    if_pos (by rw [hname]; rfl), readColumn_cons, hread]
  show (readTypeName [] ts >>= fun a => readTyped dialect _ name a.1 a.2) >>= _ = _
  rw [bind_assoc]

/-- Without its last clause, a column is read as before, but for what the clause says. -/
theorem LastClause.exists_readsAs {dialect : Dialect} {name : String} {c : ColumnClause}
    {column clause rest : List Lexeme} {b : Body} (h : LastClause rest name c column clause)
    (hclosed : Closed isComma column) (hbreak : isBreak (nextToken clause) = true)
    (hends : endsItem (nextToken rest) = true) (hreads : ReadsAs dialect (column ++ clause) b) :
    ∃ d constraints, d.name = name ∧
      b = ⟨[d.apply c], constraints ++ (c.constraint? name).toList⟩ ∧
      ReadsAs dialect column ⟨[d], constraints⟩ := by
  obtain @⟨first, l, others, more, mid, raw, cs, hconstraint, hindex, hname, htype, hclauses,
    hclause⟩ := h
  obtain ⟨used, hused, htypes⟩ := frames_readTypeName htype
  obtain ⟨used', rfl, hcs⟩ := hclauses.exists_append (s := .item) False.elim
  obtain rfl : others = used ++ used' := by
    rw [← List.append_assoc] at hused
    exact List.append_cancel_right hused
  have hall : readColumnClauses (used' ++ l :: (more ++ rest)) = .ok (cs ++ [c], rest) := by
    refine hclauses.read_append ?_
    rw [readColumnClauses_cons, if_neg (by simp [endsItem_of_readColumnClause hclause]), hclause]
    show readColumnClauses rest >>= _ = _
    rw [readColumnClauses_of_endsItem hends]
    rfl
  have hread : readItem dialect (first :: (used ++ used' ++ l :: (more ++ rest))) =
      .ok (b, rest) := by
    have hread := hreads rest hends
    rwa [List.append_assoc, List.cons_append, List.cons_append] at hread
  rw [readItem_of_name? hconstraint hindex hname, htype] at hread
  obtain ⟨⟨a, last⟩, hcolumn, hb⟩ := ok_of_bind (show readTyped _ _ _ _ _ >>= _ = _ from hread)
  cases hb
  unfold readTyped at hcolumn
  split at hcolumn
  · exact absurd hcolumn fail_ne_ok
  · next hraw =>
    split at hcolumn
    · cases hcolumn
    · next type hfound =>
      rw [hall] at hcolumn
      cases hcolumn
      refine ⟨cs.foldl ColumnDef.apply ⟨name, type, false, false, true, first.position⟩,
        cs.filterMap (ColumnClause.constraint? name), name_foldl_apply cs _, ?_, ?_⟩
      · rw [List.foldl_append, List.filterMap_append, List.filterMap_cons]
        cases c.constraint? name <;> rfl
      · intro rest' hends'
        have hfits : Fits .item (l :: (more ++ last)) rest' :=
          ⟨fun hnil => absurd hnil (List.cons_ne_nil _ _), .inr hends'⟩
        rw [List.cons_append, readItem_of_name? hconstraint _ hname, List.append_assoc,
          htypes _ (hfits.append used')]
        · show readTyped _ _ _ _ _ >>= _ = _
          rw [readTyped, if_neg hraw, hfound]
          dsimp only
          rw [(hcs rest' hfits).read_append (readColumnClauses_of_endsItem hends'), List.append_nil]
          rfl
        · rw [← hindex]
          exact opensIndex_append hclosed hbreak (isBreak_of_endsItem hends')

/-- A clause of a column is taken away, and a constraint is put behind all other items. -/
theorem ReadsItems.exists_moved {dialect : Dialect} {name : String} {c : ColumnClause}
    {before column clause after rest item : List Lexeme} {l : Lexeme} {b : Body}
    {k : PlacedConstraint}
    (h : ReadsItems dialect [] (before ++ (column ++ clause ++ after)) b)
    (hbefore : AtStart .comma before) (hafter : ∀ l ∈ after.head?, l.token = .comma)
    (hlast : LastClause rest name c column clause) (hcolumn : Closed isComma column)
    (hclause : Closed isComma clause) (hbreak : isBreak (nextToken clause) = true)
    (hends : endsItem (nextToken rest) = true) (hl : l.token = .comma)
    (hitem : ReadsAs dialect item ⟨[], [k]⟩) (hclosed : Closed isComma item) :
    ∃ b₁ d constraints b₂, d.name = name ∧
      b = b₁ ++ (⟨[d.apply c], constraints ++ (c.constraint? name).toList⟩ ++ b₂) ∧
      ReadsItems dialect [] (before ++ (column ++ after) ++ l :: item)
        (b₁ ++ (⟨[d], constraints⟩ ++ b₂) ++ ⟨[], [k]⟩) := by
  obtain ⟨b₁, b', b₂, rfl, hb₁, hb', hnew, hb₂⟩ :=
    h.exists_item hbefore (hcolumn.append hclause) hafter
  obtain ⟨d, constraints, hd, rfl, hreads⟩ := hlast.exists_readsAs hcolumn hbreak hends hb'
  have hname : (d.apply c).name = d.name := name_foldl_apply [c] d
  refine ⟨b₁, d, constraints, b₂, hd, rfl, ?_⟩
  have hcolumns : ReadsItems dialect ([] ++ b₁.names) column ⟨[d], constraints⟩ := by
    refine .last hreads hcolumn fun e he => ?_
    rw [List.mem_singleton.mp he, ← hname]
    exact hnew _ (List.mem_singleton_self _)
  have hnames : Body.names ⟨[d.apply c], constraints ++ (c.constraint? name).toList⟩ =
      Body.names ⟨[d], constraints⟩ := congrArg (fun n => [n]) hname
  rw [hnames] at hb₂
  exact (hb₁.append (hcolumns.append_after hb₂)).append hl
    (.last hitem hclosed fun e he => absurd he List.not_mem_nil)

end Sql
end Schemata
