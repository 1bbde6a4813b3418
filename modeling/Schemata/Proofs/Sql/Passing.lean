/-
What readers pass over.  Each takes lexemes from the head of a list, and their parentheses close,
with the commas outside of groups left where they are.  Two clauses of a reference break this: they
pass over a lexeme without a look at it, which then must be no mark that the nesting depends on.
-/
import Mathlib.Data.List.Infix
import Schemata.Proofs.Sql.Nesting
import Schemata.Sql.Document

namespace Schemata
namespace Sql

def isComma (t : Token) : Bool := t = .comma

/-- The marks by which parentheses and lists are told. -/
def isMark : Token → Bool
  | .leftParen | .rightParen | .comma => true
  | _ => false

/-- The token that the clause at the head of the lexemes passes over without a look at it: the one
after `SET` or `NO` of an action, or after the `MATCH` of a reference. -/
def unseen? : List Lexeme → Option Token
  | [] => none
  | l :: rest =>
    match l.token with
    | .keyword .on =>
      if ((nextToken rest).isWord "delete" || (nextToken rest).isWord "update") &&
          ((nextToken rest.tail).isWord "set" || (nextToken rest.tail).isWord "no") then
        rest.tail.tail.head?.map (·.token)
      else none
    | .keyword .references =>
      match readQualifiedName "referenced table" rest with
      | .error _ => none
      | .ok (_, rest) =>
        match readTargetColumns rest with
        | .error _ => none
        | .ok (_, rest) =>
          if (nextToken rest).isWord "match" then rest.tail.head?.map (·.token) else none
    | _ => none

/-- No mark among the lexemes is passed over without a look at it. -/
def MarksSeen (ls : List Lexeme) : Prop := ∀ ts ∈ ls.tails, ∀ t ∈ unseen? ts, isMark t = false

theorem MarksSeen.of_suffix {ks ls : List Lexeme} (h : MarksSeen ls) (hsuffix : ks <:+ ls) :
    MarksSeen ks := by
  intro ts hts
  exact h ts ((List.mem_tails _ _).mpr (((List.mem_tails _ _).mp hts).trans hsuffix))

/-- A mark, or the semicolon by which statements are told. -/
def isDivider (t : Token) : Bool := isMark t || t = .semicolon

/-- No divider among the lexemes that breaks is passed over without a look at it, nor is any
mark. -/
structure BreaksSeen (breaks : Token → Bool) (ls : List Lexeme) : Prop where
  divides : ∀ t, breaks t = true → isDivider t = true
  unseen : ∀ ts ∈ ls.tails, ∀ t ∈ unseen? ts, isMark t = false ∧ breaks t = false

theorem BreaksSeen.of_suffix {breaks : Token → Bool} {ks ls : List Lexeme}
    (h : BreaksSeen breaks ls) (hsuffix : ks <:+ ls) : BreaksSeen breaks ks := by
  refine ⟨h.divides, fun ts hts => ?_⟩
  exact h.unseen ts ((List.mem_tails _ _).mpr (((List.mem_tails _ _).mp hts).trans hsuffix))

theorem isDivider_of_isComma (t : Token) (h : isComma t = true) : isDivider t = true := by
  rw [of_decide_eq_true h]
  rfl

theorem MarksSeen.breaksSeen {ls : List Lexeme} (h : MarksSeen ls) : BreaksSeen isComma ls := by
  refine ⟨isDivider_of_isComma, fun ts hts t ht => ?_⟩
  have hmark := h ts hts t ht
  refine ⟨hmark, ?_⟩
  cases t <;> first | rfl | cases hmark

/-- `rest` is left of `ts` after some lexemes that lead from `d` open parentheses to `e`. -/
def Passes (breaks : Token → Bool) (d e : Nat) (ts rest : List Lexeme) : Prop :=
  ∃ used, ts = used ++ rest ∧ (BreaksSeen breaks ts → depthOver breaks d used = some e)

theorem nest_of_isDivider {breaks : Token → Bool}
    (hbreaks : ∀ t, breaks t = true → isDivider t = true) {t : Token} (h : isDivider t = false)
    (d : Nat) : nest breaks d t = some d := by
  apply nest_of_ne
  · intro ht
    subst ht
    cases h
  · intro ht
    subst ht
    cases h
  · intro _
    apply Bool.of_not_eq_true
    intro ht
    rw [hbreaks t ht] at h
    cases h

namespace Passes

variable {breaks : Token → Bool} {c d e : Nat} {ts us rest : List Lexeme}

theorem suffix (h : Passes breaks d e ts rest) : rest <:+ ts := by
  obtain ⟨used, rfl, -⟩ := h
  exact List.suffix_append used rest

theorem refl (d : Nat) (ts : List Lexeme) : Passes breaks d d ts ts :=
  ⟨[], rfl, fun _ => rfl⟩

theorem trans (h : Passes breaks c d ts us) (h' : Passes breaks d e us rest) :
    Passes breaks c e ts rest := by
  obtain ⟨used, rfl, hused⟩ := h
  obtain ⟨used', rfl, hused'⟩ := h'
  refine ⟨used ++ used', (List.append_assoc _ _ _).symm, fun hseen => ?_⟩
  exact depthOver_append (hused hseen) (hused' (hseen.of_suffix (List.suffix_append _ _)))

/-- What closes all its parentheses does so inside of others, too. -/
theorem within (h : Passes breaks 0 0 ts rest) (d : Nat) : Passes breaks d d ts rest := by
  obtain ⟨used, hused, hdepth⟩ := h
  exact ⟨used, hused, fun hseen => Closed.within (hdepth hseen) d⟩

theorem cons {l : Lexeme} (h : nest breaks d l.token = some e) (rest : List Lexeme) :
    Passes breaks d e (l :: rest) rest :=
  ⟨[l], rfl, fun _ => depthOver_cons_of_nest h rfl⟩

theorem of_isDivider {l : Lexeme} (h : isDivider l.token = false) (d : Nat) (rest : List Lexeme) :
    Passes breaks d d (l :: rest) rest :=
  ⟨[l], rfl, fun hseen => depthOver_cons_of_nest (nest_of_isDivider hseen.divides h d) rfl⟩

end Passes

theorem depthOver_of_isDivider {breaks : Token → Bool}
    (hbreaks : ∀ t, breaks t = true → isDivider t = true) {ls : List Lexeme}
    (h : ∀ l ∈ ls, isDivider l.token = false) (d : Nat) : depthOver breaks d ls = some d := by
  induction ls with
  | nil => rfl
  | cons l ls ih =>
    obtain ⟨hl, hls⟩ := List.forall_mem_cons.mp h
    exact depthOver_cons_of_nest (nest_of_isDivider hbreaks hl d) (ih hls)

/-- `rest` is left of `ts` after some lexemes that are no dividers. -/
def Plain (ts rest : List Lexeme) : Prop :=
  ∃ used, ts = used ++ rest ∧ ∀ l ∈ used, isDivider l.token = false

namespace Plain

variable {ts us rest : List Lexeme}

theorem refl (ts : List Lexeme) : Plain ts ts := ⟨[], rfl, by simp⟩

theorem trans (h : Plain ts us) (h' : Plain us rest) : Plain ts rest := by
  obtain ⟨used, rfl, hused⟩ := h
  obtain ⟨used', rfl, hused'⟩ := h'
  refine ⟨used ++ used', (List.append_assoc _ _ _).symm, fun l hl => ?_⟩
  rcases List.mem_append.mp hl with hl | hl
  · exact hused l hl
  · exact hused' l hl

theorem cons {l : Lexeme} (h : isDivider l.token = false) (rest : List Lexeme) :
    Plain (l :: rest) rest := by
  refine ⟨[l], rfl, fun k hk => ?_⟩
  rw [List.mem_singleton.mp hk]
  exact h

theorem suffix (h : Plain ts rest) : rest <:+ ts := by
  obtain ⟨used, rfl, -⟩ := h
  exact List.suffix_append used rest

theorem passes {breaks : Token → Bool} (h : Plain ts rest) (d : Nat) :
    Passes breaks d d ts rest := by
  obtain ⟨used, rfl, hused⟩ := h
  exact ⟨used, rfl, fun hseen => depthOver_of_isDivider hseen.divides hused d⟩

end Plain

variable {breaks : Token → Bool} {ts rest : List Lexeme}

/-- The next lexeme is passed over if it is no divider. -/
theorem plain_tail (h : isDivider (nextToken ts) = false) : Plain ts ts.tail := by
  cases ts with
  | nil => exact .refl []
  | cons l rest => exact .cons h rest

/-! ## Names and groups -/

theorem isDivider_of_isName {t : Token} (h : t.isName = true) : isDivider t = false := by
  cases t <;> first | rfl | cases h

theorem isDivider_of_isWord {word : String} {t : Token} (h : t.isWord word = true) :
    isDivider t = false := by
  cases t <;> first | rfl | cases h

theorem isDivider_of_name? {l : Lexeme} {name : String} (h : l.name? = some name) :
    isDivider l.token = false := by
  unfold Lexeme.name? at h
  cases ht : l.token <;> rw [ht] at h <;> first | rfl | cases h

theorem ok_expect {token : Token} {what : String} (h : expect token what ts = .ok rest) :
    ∃ l, ts = l :: rest ∧ l.token = token := by
  unfold expect at h
  split at h
  · exact absurd h fail_ne_ok
  · next l tail =>
    split at h
    · next ht =>
      cases h
      exact ⟨l, rfl, ht⟩
    · exact absurd h fail_ne_ok

theorem passes_expect {token : Token} {what : String} {d e : Nat}
    (h : expect token what ts = .ok rest) (htoken : nest breaks d token = some e) :
    Passes breaks d e ts rest := by
  obtain ⟨l, rfl, hl⟩ := ok_expect h
  exact .cons (by rw [hl]; exact htoken) rest

theorem plain_expect {token : Token} {what : String} (h : expect token what ts = .ok rest)
    (htoken : isDivider token = false) : Plain ts rest := by
  obtain ⟨l, rfl, hl⟩ := ok_expect h
  exact .cons (by rw [hl]; exact htoken) rest

theorem plain_skipIf {token : Token} (htoken : isDivider token = false) (ts : List Lexeme) :
    Plain ts (skipIf token ts) := by
  unfold skipIf
  split
  · next h => exact plain_tail (by rw [h]; exact htoken)
  · exact .refl ts

theorem plain_skipName (ts : List Lexeme) : Plain ts (skipName ts) := by
  unfold skipName
  split
  · next h => exact plain_tail (isDivider_of_isName h)
  · exact .refl ts

theorem plain_dropWhile {p : Token → Bool} (hp : ∀ t, p t = true → isDivider t = false)
    (ts : List Lexeme) : Plain ts (ts.dropWhile (p ·.token)) := by
  induction ts with
  | nil => exact .refl []
  | cons l ts ih =>
    rw [List.dropWhile_cons]
    split
    · next hl => exact (Plain.cons (hp _ hl) ts).trans ih
    · exact .refl _

theorem plain_readName {what name : String} (h : readName what ts = .ok (name, rest)) :
    Plain ts rest := by
  unfold readName at h
  split at h
  · exact absurd h fail_ne_ok
  · split at h
    · next hname =>
      cases h
      exact .cons (isDivider_of_name? hname) _
    · exact absurd h fail_ne_ok

theorem plain_lastPart {what name part : String} (h : lastPart what name ts = .ok (part, rest)) :
    Plain ts rest := by
  fun_induction lastPart what name ts with
  | case1 =>
    cases h
    exact .refl _
  | case2 => exact absurd h fail_ne_ok
  | case3 =>
    cases h
    exact .refl _
  | case4 name d l tail hdot part' hpart ih =>
    have hd : isDivider d.token = false := by
      rw [hdot]
      rfl
    exact (Plain.cons hd _).trans ((Plain.cons (isDivider_of_name? hpart) _).trans (ih h))
  | case5 => exact absurd h fail_ne_ok
  | case6 =>
    cases h
    exact .refl _

theorem plain_readQualifiedName {what name : String}
    (h : readQualifiedName what ts = .ok (name, rest)) : Plain ts rest := by
  obtain ⟨⟨first, mid⟩, h₁, h₂⟩ := ok_of_bind h
  exact (plain_readName h₁).trans (plain_lastPart h₂)

theorem passes_readGroup {group : List Lexeme} (h : readGroup ts = .ok (group, rest)) :
    Passes breaks 0 0 ts rest :=
  ⟨group, (readGroup_append h).1.symm, fun _ => (isGroup_of_readGroup h).closed⟩

theorem passes_skipGroup? (h : skipGroup? ts = .ok rest) : Passes breaks 0 0 ts rest := by
  unfold skipGroup? at h
  split at h
  · cases hg : readGroup ts with
    | error e =>
      rw [hg] at h
      cases h
    | ok p =>
      rw [hg] at h
      cases h
      exact passes_readGroup hg
  · cases h
    exact .refl 0 ts

/-! ## Lists of columns -/

/-- An item of a list ends at a comma, which leaves the list open, or at its parenthesis. -/
theorem ok_readSeparator {fault : SyntaxFault} {more : Bool}
    (h : readSeparator fault ts = .ok (more, rest)) :
    ∃ l, ts = l :: rest ∧ l.token = if more then .comma else .rightParen := by
  unfold readSeparator at h
  split at h
  · exact absurd h fail_ne_ok
  · next l tail =>
    split at h
    · next ht =>
      cases h
      exact ⟨l, rfl, ht⟩
    · split at h
      · next ht =>
        cases h
        exact ⟨l, rfl, ht⟩
      · exact absurd h fail_ne_ok

theorem passes_readColumnEntry {name : String} (h : readColumnEntry ts = .ok (name, rest)) :
    Passes breaks 0 0 ts rest := by
  obtain ⟨⟨n, mid⟩, h₁, h⟩ := ok_of_bind h
  obtain ⟨mid', h₂, h⟩ := ok_of_bind h
  cases h
  refine (((plain_readName h₁).passes 0).trans (passes_skipGroup? h₂)).trans ?_
  split
  · next hword =>
    rcases Bool.or_eq_true_iff.mp hword with hword | hword
    · exact (plain_tail (isDivider_of_isWord hword)).passes 0
    · exact (plain_tail (isDivider_of_isWord hword)).passes 0
  · exact .refl 0 mid'

theorem passes_readColumnEntries {names : List String}
    (h : readColumnEntries ts = .ok (names, rest)) : Passes breaks 1 0 ts rest := by
  fun_induction readColumnEntries ts generalizing names with
  | case1 => cases h
  | case2 => cases h
  | case3 ts name mid hentry rest' hseparator =>
    cases h
    obtain ⟨l, rfl, hl⟩ := ok_readSeparator hseparator
    exact ((passes_readColumnEntry hentry).within 1).trans (.cons (by rw [hl]; rfl) _)
  | case4 ts name mid hentry rest' hseparator ih =>
    obtain ⟨⟨ns, r⟩, h₁, h₂⟩ := ok_of_bind h
    cases h₂
    obtain ⟨l, rfl, hl⟩ := ok_readSeparator hseparator
    refine ((passes_readColumnEntry hentry).within 1).trans (.trans ?_ (ih h₁))
    exact .cons (by rw [hl]; rfl) _

theorem passes_readColumnList {names : List String} (h : readColumnList ts = .ok (names, rest)) :
    Passes breaks 0 0 ts rest := by
  obtain ⟨mid, h₁, h₂⟩ := ok_of_bind h
  exact (passes_expect h₁ rfl).trans (passes_readColumnEntries h₂)

/-! ## References -/

/-- A lexeme that the clause at the head of `ls` passes over without a look at it. -/
theorem passes_unseen {ls : List Lexeme} (h : Passes breaks 0 0 ls ts)
    (hunseen : unseen? ls = ts.head?.map (·.token)) : Passes breaks 0 0 ls ts.tail := by
  cases ts with
  | nil => exact h
  | cons l rest =>
    obtain ⟨used, rfl, hused⟩ := h
    refine ⟨used ++ [l], by rw [List.append_assoc]; rfl, fun hseen => ?_⟩
    obtain ⟨hmark, hbreak⟩ :=
      hseen.unseen _ ((List.mem_tails _ _).mpr List.suffix_rfl) l.token (by rw [hunseen]; rfl)
    have hnest : nest breaks 0 l.token = some 0 := by
      refine nest_of_ne ?_ ?_ fun _ => hbreak
      · intro ht
        rw [ht] at hmark
        cases hmark
      · intro ht
        rw [ht] at hmark
        cases hmark
    exact depthOver_append (hused hseen) (depthOver_cons_of_nest hnest rfl)

theorem isDivider_of_isWord_or {word word' : String} {t : Token}
    (h : (t.isWord word || t.isWord word') = true) : isDivider t = false := by
  rcases Bool.or_eq_true_iff.mp h with h | h
  · exact isDivider_of_isWord h
  · exact isDivider_of_isWord h

/-- The action comes with the word `ON`, which tells what the action passes over unseen. -/
theorem passes_skipAction {l : Lexeme} (hl : l.token = .keyword .on)
    (h : skipAction ts = .ok rest) : Passes breaks 0 0 (l :: ts) rest := by
  have hon : Passes breaks 0 0 (l :: ts) ts := .of_isDivider (by rw [hl]; rfl) 0 ts
  unfold skipAction at h
  split at h
  · next hevent =>
    have htail := hon.trans ((plain_tail (isDivider_of_isWord_or hevent)).passes 0)
    dsimp only at h
    split at h
    · next hset =>
      cases h
      have hunseen : unseen? (l :: ts) = ts.tail.tail.head?.map (·.token) := by
        rw [unseen?, hl]
        simp only [hevent, hset, Bool.and_self, if_true]
      rw [← List.tail_drop, List.drop_one]
      exact passes_unseen (htail.trans ((plain_tail (isDivider_of_isWord_or hset)).passes 0)) hunseen
    · split at h
      · next hname =>
        have hname' := plain_tail (isDivider_of_isName hname)
        exact (htail.trans (hname'.passes 0)).trans (passes_skipGroup? h)
      · exact absurd h fail_ne_ok
  · exact absurd h fail_ne_ok

theorem passes_skipActions (h : skipActions ts = .ok rest) : Passes breaks 0 0 ts rest := by
  fun_induction skipActions ts with
  | case1 =>
    cases h
    exact .refl 0 []
  | case2 => cases h
  | case3 l tail hl mid haction ih => exact (passes_skipAction hl haction).trans (ih h)
  | case4 =>
    cases h
    exact .refl 0 _

theorem passes_readTargetColumns {columns : List String}
    (h : readTargetColumns ts = .ok (columns, rest)) : Passes breaks 0 0 ts rest := by
  unfold readTargetColumns at h
  split at h
  · exact passes_readColumnList h
  · cases h
    exact .refl 0 ts

/-- The reference comes with the word `REFERENCES`, which tells what it passes over unseen. -/
theorem passes_readTarget {l : Lexeme} (hl : l.token = .keyword .references) {target : Target}
    (h : readTarget ts = .ok (target, rest)) : Passes breaks 0 0 (l :: ts) rest := by
  have hword : Passes breaks 0 0 (l :: ts) ts := .of_isDivider (by rw [hl]; rfl) 0 ts
  obtain ⟨⟨table, mid⟩, htable, h⟩ := ok_of_bind h
  obtain ⟨⟨columns, mid'⟩, hcolumns, h⟩ := ok_of_bind h
  obtain ⟨mid'', hactions, h⟩ := ok_of_bind h
  cases h
  have htable' := hword.trans ((plain_readQualifiedName htable).passes 0)
  have hmid := htable'.trans (passes_readTargetColumns hcolumns)
  have hmatch : Passes breaks 0 0 (l :: ts) (skipMatch mid') := by
    unfold skipMatch
    split
    · next hmatch =>
      have hunseen : unseen? (l :: ts) = mid'.tail.head?.map (·.token) := by
        rw [unseen?, hl]
        simp only [htable, hcolumns]
        rw [if_pos hmatch]
      rw [← List.tail_drop, List.drop_one]
      exact passes_unseen (hmid.trans ((plain_tail (isDivider_of_isWord hmatch)).passes 0)) hunseen
    · exact hmid
  exact hmatch.trans (passes_skipActions hactions)

/-! ## Default values -/

theorem isDivider_of_isOperator {t : Token} (h : isOperator t = true) : isDivider t = false := by
  cases t <;> first | rfl | cases h

theorem passes_skipOperand (h : skipOperand ts = .ok rest) : Passes breaks 0 0 ts rest := by
  unfold skipOperand at h
  split at h
  · exact absurd h fail_ne_ok
  · next l tail =>
    have hcons : isDivider l.token = false → Passes breaks 0 0 (l :: tail) tail :=
      fun hl => .of_isDivider hl 0 tail
    split at h
    · cases hg : readGroup (l :: tail) with
      | error e =>
        rw [hg] at h
        cases h
      | ok p =>
        rw [hg] at h
        cases h
        exact passes_readGroup hg
    · next ht => exact (hcons (by rw [ht]; rfl)).trans (passes_skipGroup? h)
    iterate 4
      focus
        next ht =>
          cases h
          exact hcons (by rw [ht]; rfl)
    · exact absurd h fail_ne_ok

theorem passes_skipExpression (h : skipExpression ts = .ok rest) : Passes breaks 0 0 ts rest := by
  fun_induction skipExpression ts with
  | case1 => cases h
  | case2 ts mid hoperand _ ih =>
    have hoperators := plain_dropWhile (fun _ => isDivider_of_isOperator) mid
    exact (passes_skipOperand hoperand).trans ((hoperators.passes 0).trans (ih h))
  | case3 ts mid hoperand _ =>
    cases h
    exact passes_skipOperand hoperand

/-! ## Columns -/

theorem passes_readTypeName {raw name : List Char} (h : readTypeName raw ts = .ok (name, rest)) :
    Passes breaks 0 0 ts rest := by
  fun_induction readTypeName raw ts with
  | case1 =>
    cases h
    exact .refl 0 _
  | case2 raw l tail word hl ih =>
    exact (Passes.of_isDivider (by rw [hl]; rfl) 0 tail).trans (ih h)
  | case3 =>
    cases h
    exact .refl 0 _
  | case4 => cases h
  | case5 raw l tail _ _ group mid hgroup ih => exact (passes_readGroup hgroup).trans (ih h)
  | case6 =>
    cases h
    exact .refl 0 _

theorem isDivider_of_isFiller {t : Token} (h : isFiller t = true) : isDivider t = false := by
  cases t <;> first | rfl | cases h

theorem passes_readColumnClause {l : Lexeme} {c : ColumnClause}
    (h : readColumnClause l ts = .ok (c, rest)) : Passes breaks 0 0 (l :: ts) rest := by
  have hcons : isDivider l.token = false → Passes breaks 0 0 (l :: ts) ts :=
    fun hl => .of_isDivider hl 0 ts
  unfold readColumnClause at h
  split at h
  · next hl =>
    obtain ⟨mid, h₁, h⟩ := ok_of_bind h
    cases h
    exact (hcons (by rw [hl]; rfl)).trans ((plain_expect h₁ rfl).passes 0)
  · next hl =>
    obtain ⟨mid, h₁, h⟩ := ok_of_bind h
    cases h
    exact (hcons (by rw [hl]; rfl)).trans ((plain_expect h₁ rfl).passes 0)
  · next hl =>
    cases h
    exact hcons (by rw [hl]; rfl)
  · next hl =>
    cases h
    exact (hcons (by rw [hl]; rfl)).trans ((plain_skipIf rfl ts).passes 0)
  · next hl =>
    obtain ⟨mid, h₁, h⟩ := ok_of_bind h
    cases h
    exact (hcons (by rw [hl]; rfl)).trans (passes_skipExpression h₁)
  · next hl =>
    obtain ⟨⟨target, mid⟩, h₁, h⟩ := ok_of_bind h
    cases h
    exact passes_readTarget hl h₁
  · next hl =>
    obtain ⟨⟨group, mid⟩, h₁, h⟩ := ok_of_bind h
    cases h
    exact (hcons (by rw [hl]; rfl)).trans (passes_readGroup h₁)
  · obtain ⟨⟨group, mid⟩, h₁, h⟩ := ok_of_bind h
    cases h
    exact passes_readGroup h₁
  · next hl =>
    cases h
    exact (hcons (by rw [hl]; rfl)).trans ((plain_skipName ts).passes 0)
  · next hl =>
    obtain ⟨mid, h₁, h⟩ := ok_of_bind h
    obtain ⟨mid', h₂, h⟩ := ok_of_bind h
    cases h
    exact (passes_skipAction hl h₁).trans (passes_skipActions h₂)
  · split at h
    · next hfiller =>
      cases h
      exact hcons (isDivider_of_isFiller hfiller)
    · exact absurd h fail_ne_ok

theorem passes_readColumnClauses {cs : List ColumnClause}
    (h : readColumnClauses ts = .ok (cs, rest)) : Passes breaks 0 0 ts rest := by
  fun_induction readColumnClauses ts generalizing cs with
  | case1 =>
    cases h
    exact .refl 0 _
  | case2 =>
    cases h
    exact .refl 0 _
  | case3 => cases h
  | case4 l tail _ clause mid hclause ih =>
    obtain ⟨⟨cs', r⟩, h₁, h₂⟩ := ok_of_bind h
    cases h₂
    exact (passes_readColumnClause hclause).trans (ih h₁)

theorem passes_readColumn {dialect : Dialect} {c : ColumnDef × List PlacedConstraint}
    (h : readColumn dialect ts = .ok (c, rest)) : Passes breaks 0 0 ts rest := by
  unfold readColumn at h
  split at h
  · exact absurd h fail_ne_ok
  · obtain ⟨⟨name, mid⟩, h₁, h⟩ := ok_of_bind h
    obtain ⟨⟨raw, mid'⟩, h₂, h⟩ := ok_of_bind h
    dsimp only at h
    split at h
    · exact absurd h fail_ne_ok
    · split at h
      · cases h
      · obtain ⟨⟨clauses, mid''⟩, h₃, h⟩ := ok_of_bind h
        cases h
        exact (((plain_readName h₁).passes 0).trans (passes_readTypeName h₂)).trans
          (passes_readColumnClauses h₃)

/-! ## Constraints and items -/

theorem passes_readForeignKey {key : ForeignKey} (h : readForeignKey ts = .ok (key, rest)) :
    Passes breaks 0 0 ts rest := by
  obtain ⟨mid, h₁, h⟩ := ok_of_bind h
  obtain ⟨⟨columns, mid'⟩, h₂, h⟩ := ok_of_bind h
  obtain ⟨mid'', h₃, h⟩ := ok_of_bind h
  obtain ⟨⟨target, last⟩, h₄, h⟩ := ok_of_bind h
  dsimp only at h
  split at h
  · cases h
    obtain ⟨l, rfl, hl⟩ := ok_expect h₃
    refine ((plain_expect h₁ rfl).trans (plain_skipName mid)).passes 0 |>.trans ?_
    exact (passes_readColumnList h₂).trans (passes_readTarget hl h₄)
  · exact absurd h fail_ne_ok

theorem plain_skipConstraintName (ts : List Lexeme) : Plain ts (skipConstraintName ts) := by
  unfold skipConstraintName
  split
  · next hword => exact (plain_tail (by rw [hword]; rfl)).trans (plain_skipName ts.tail)
  · exact .refl ts

theorem passes_readConstraint {c : Option Constraint}
    (h : readConstraint ts = .ok (c, rest)) : Passes breaks 0 0 ts rest := by
  refine ((plain_skipConstraintName ts).passes 0).trans ?_
  unfold readConstraint at h
  split at h
  · exact absurd h fail_ne_ok
  · next l tail htail =>
    rw [htail]
    have hcons : isDivider l.token = false → Passes breaks 0 0 (l :: tail) tail :=
      fun hl => .of_isDivider hl 0 tail
    split at h
    · next hl =>
      obtain ⟨mid, h₁, h⟩ := ok_of_bind h
      obtain ⟨⟨columns, mid'⟩, h₂, h⟩ := ok_of_bind h
      cases h
      exact (hcons (by rw [hl]; rfl)).trans
        (((plain_expect h₁ rfl).passes 0).trans (passes_readColumnList h₂))
    · next hl =>
      obtain ⟨⟨columns, mid⟩, h₁, h⟩ := ok_of_bind h
      cases h
      refine (hcons (by rw [hl]; rfl)).trans (.trans ?_ (((plain_skipName _).passes 0).trans
        (passes_readColumnList h₁)))
      split
      · next hword =>
        rw [Bool.or_eq_true, decide_eq_true_iff, decide_eq_true_iff] at hword
        rcases hword with hword | hword
        · exact (plain_tail (by rw [hword]; rfl)).passes 0
        · exact (plain_tail (by rw [hword]; rfl)).passes 0
      · exact .refl 0 tail
    · next hl =>
      obtain ⟨⟨key, mid⟩, h₁, h⟩ := ok_of_bind h
      cases h
      exact (hcons (by rw [hl]; rfl)).trans (passes_readForeignKey h₁)
    · next hl =>
      obtain ⟨⟨group, mid⟩, h₁, h⟩ := ok_of_bind h
      cases h
      exact (hcons (by rw [hl]; rfl)).trans (passes_readGroup h₁)
    · exact absurd h fail_ne_ok

theorem passes_skipUntil {stops : Token → Bool}
    (hstops : ∀ t, stops t = false → t ≠ .leftParen → nest breaks 0 t = some 0)
    (h : skipUntil stops ts = .ok rest) : Passes breaks 0 0 ts rest := by
  fun_induction skipUntil stops ts with
  | case1 =>
    cases h
    exact .refl 0 _
  | case2 =>
    cases h
    exact .refl 0 _
  | case3 => cases h
  | case4 l tail _ _ group mid hgroup ih => exact (passes_readGroup hgroup).trans (ih h)
  | case5 l tail hstop hopen ih =>
    have hl := hstops l.token (Bool.of_not_eq_true hstop) hopen
    exact (Passes.cons hl tail).trans (ih h)

theorem passes_readItem {dialect : Dialect} {b : Body} (h : readItem dialect ts = .ok (b, rest)) :
    Passes isComma 0 0 ts rest := by
  unfold readItem at h
  split at h
  · exact absurd h fail_ne_ok
  · next l tail =>
    split at h
    iterate 5
      focus
        obtain ⟨⟨constraint, mid⟩, h₁, h⟩ := ok_of_bind h
        cases h
        exact passes_readConstraint h₁
    split at h
    · next hword =>
      obtain ⟨mid, h₁, h⟩ := ok_of_bind h
      cases h
      have hl : isDivider l.token = false := by
        rw [Bool.and_eq_true, Bool.or_eq_true, decide_eq_true_iff, decide_eq_true_iff] at hword
        rcases hword.1 with hl | hl
        · rw [hl]
          rfl
        · rw [hl]
          rfl
      refine (Passes.of_isDivider hl 0 tail).trans (passes_skipUntil ?_ h₁)
      intro t hends hopen
      cases t <;> first | rfl | exact absurd rfl hopen | cases hends
    · split at h
      · obtain ⟨⟨⟨column, constraints⟩, mid⟩, h₁, h⟩ := ok_of_bind h
        cases h
        exact passes_readColumn h₁
      · exact absurd h fail_ne_ok

/-! ## Tables -/

theorem isDivider_of_isTableModifier {t : Token} (h : isTableModifier t = true) :
    isDivider t = false := by
  cases t <;> first | rfl | cases h

theorem plain_skipIfNotExists {ts rest : List Lexeme} (h : skipIfNotExists ts = .ok rest) :
    Plain ts rest := by
  unfold skipIfNotExists at h
  split at h
  · next hword =>
    obtain ⟨mid, h₁, h₂⟩ := ok_of_bind h
    exact (plain_tail (by rw [hword]; rfl)).trans ((plain_expect h₁ rfl).trans
      (plain_expect h₂ rfl))
  · cases h
    exact .refl ts

/-- No mark stands between the word `CREATE` and the parenthesis that opens the body. -/
theorem plain_createHead {ts₁ ts₂ : List Lexeme} {name : String}
    (htable : expect (.keyword .table) "TABLE after CREATE"
      (ts.dropWhile (isTableModifier ·.token)) = .ok ts₁)
    (hexists : skipIfNotExists ts₁ = .ok ts₂)
    (hname : readQualifiedName "table name" ts₂ = .ok (name, rest)) : Plain ts rest := by
  have hmodifiers := plain_dropWhile (fun _ => isDivider_of_isTableModifier) ts
  exact (hmodifiers.trans (plain_expect htable rfl)).trans
    ((plain_skipIfNotExists hexists).trans (plain_readQualifiedName hname))

end Sql
end Schemata
