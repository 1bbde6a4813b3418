/-
The statements that create tables.  Every table of a document comes from a statement of its own.
The words CREATE TABLE outside of parentheses begin a statement, or they stand where no reader
looks: behind the body of a table, as its options do, or behind the word ADD of an alteration.
-/
import Schemata.Proofs.Sql.Scanning
import Schemata.Proofs.Sql.Splitting
import Schemata.Proofs.Sql.TableBody

namespace Schemata
namespace Sql

/-- The lexemes begin with the words CREATE TABLE. -/
def OpensTable : List Lexeme → Prop
  | c :: t :: _ => c.token = .keyword .create ∧ t.token = .keyword .table
  | _ => False

/-- The words CREATE TABLE at `c` and `t`, which stand side by side outside of parentheses. -/
def TableWords (ls : List Lexeme) (c t : Lexeme) : Prop :=
  c.token = .keyword .create ∧ t.token = .keyword .table ∧
    ∃ before after, ls = before ++ c :: t :: after ∧ Closed (fun _ => false) before

namespace Statement

def creates (s : Statement) : Bool := s.first.token = .keyword .create

/-- The statement defines just this table, and is quoted as its source. -/
def Defines (dialect : Dialect) (s : Statement) (d : TableDef) : Prop :=
  ∃ constraints, s.read dialect = .ok ⟨[d], constraints⟩ ∧ d.site = ⟨s.text, s.position⟩

/-- The words stand behind the body of the table that the statement creates. -/
def InOptions (s : Statement) (c t : Lexeme) : Prop :=
  s.first.token = .keyword .create ∧
    ∃ head body group tail, s.others = head ++ body ∧ (∀ l ∈ head, l.token ≠ .leftParen) ∧
      readGroup body = .ok (group, tail) ∧ [c, t] <:+: tail

/-- The words stand behind the first word ADD of an alteration. -/
def InAdditions (s : Statement) (c t : Lexeme) : Prop :=
  s.first.token = .keyword .alter ∧
    ∃ head add tail, s.others = head ++ add :: tail ∧ add.token = .keyword .add ∧
      [c, t] <:+: tail

end Statement

/-! ## Statements and tables -/

section

variable {dialect : Dialect} {ss : List Statement} {parts : List Document}

theorem Statement.tables_of_read {s : Statement} {part : Document}
    (h : s.read dialect = .ok part) :
    if s.creates then ∃ d, part.tables = [d] ∧ s.Defines dialect d else part.tables = [] := by
  have hread := h
  unfold Statement.read at h
  split at h
  · next hcreate =>
    obtain ⟨⟨name, body⟩, -, h⟩ := ok_of_bind h
    cases h
    rw [if_pos (by simp [creates, hcreate])]
    exact ⟨_, rfl, _, hread, rfl⟩
  · next halter =>
    obtain ⟨⟨name, constraints⟩, -, h⟩ := ok_of_bind h
    cases h
    rw [if_neg (by simp [creates, halter])]
  · exact absurd h fail_ne_ok

/-- The tables are those of the statements that create one, in the same order. -/
theorem tables_of_parts
    (h : List.Forall₂ (fun s part => Statement.read dialect s = .ok part) ss parts) :
    List.Forall₂ (Statement.Defines dialect) (ss.filter (·.creates))
      (Document.join parts).tables := by
  induction h with
  | nil => exact .nil
  | @cons s part ss parts hs _ ih =>
    have htables := Statement.tables_of_read hs
    rw [Document.join_cons, Document.tables_append]
    split at htables
    · next hcreates =>
      obtain ⟨d, hd, hdefines⟩ := htables
      rw [List.filter_cons_of_pos hcreates, hd]
      exact .cons hdefines ih
    · next hcreates =>
      rw [List.filter_cons_of_neg hcreates, htables]
      exact ih

end

/-! ## Words that readers keep -/

/-- `rest` is left of `ts`, with all the places where the words CREATE TABLE stand in it. -/
def KeepsTables (ts rest : List Lexeme) : Prop :=
  rest <:+ ts ∧ ∀ words, OpensTable words → words <:+ ts → words <:+ rest

namespace KeepsTables

variable {ts us rest : List Lexeme}

theorem refl (ts : List Lexeme) : KeepsTables ts ts := ⟨List.suffix_rfl, fun _ _ h => h⟩

theorem trans (h : KeepsTables ts us) (h' : KeepsTables us rest) : KeepsTables ts rest :=
  ⟨h'.1.trans h.1, fun words hopens hwords => h'.2 words hopens (h.2 words hopens hwords)⟩

/-- A lexeme is passed over unless it is the first of the two words. -/
theorem cons {l : Lexeme} (h : ¬ OpensTable (l :: rest)) : KeepsTables (l :: rest) rest := by
  refine ⟨List.suffix_cons l rest, fun words hopens hwords => ?_⟩
  rcases List.suffix_cons_iff.mp hwords with rfl | hwords
  · exact absurd hopens h
  · exact hwords

end KeepsTables

section

variable {ts rest : List Lexeme}

theorem not_opensTable_of_token {l : Lexeme} (h : l.token ≠ .keyword .create) :
    ¬ OpensTable (l :: rest) := by
  intro hopens
  cases rest with
  | nil => exact hopens
  | cons t rest => exact h hopens.1

theorem not_opensTable_of_next {l : Lexeme} (h : nextToken rest ≠ .keyword .table) :
    ¬ OpensTable (l :: rest) := by
  intro hopens
  cases rest with
  | nil => exact hopens
  | cons t rest => exact h hopens.2

theorem keepsTables_tail (h : nextToken ts ≠ .keyword .create) : KeepsTables ts ts.tail := by
  cases ts with
  | nil => exact .refl []
  | cons l rest => exact .cons (not_opensTable_of_token h)

theorem keepsTables_expect {token : Token} {what : String} (h : expect token what ts = .ok rest)
    (htoken : token ≠ .keyword .create) : KeepsTables ts rest := by
  obtain ⟨l, rfl, hl⟩ := ok_expect h
  exact .cons (not_opensTable_of_token (by rwa [hl]))

theorem keepsTables_skipIf {token : Token} (htoken : token ≠ .keyword .create)
    (ts : List Lexeme) : KeepsTables ts (skipIf token ts) := by
  unfold skipIf
  split
  · next h => exact keepsTables_tail (by rwa [h])
  · exact .refl ts

theorem keepsTables_modifiers (ts : List Lexeme) :
    KeepsTables ts (ts.dropWhile (isTableModifier ·.token)) := by
  induction ts with
  | nil => exact .refl []
  | cons l ts ih =>
    rw [List.dropWhile_cons]
    split
    · next hl =>
      have hcreate : l.token ≠ .keyword .create := by
        intro hcreate
        rw [hcreate] at hl
        cases hl
      exact (KeepsTables.cons (not_opensTable_of_token hcreate)).trans ih
    · exact .refl _

/-- The parts of a name may be keywords, but a dot or the end of the name comes after each. -/
theorem keepsTables_lastPart {what name part : String}
    (h : lastPart what name ts = .ok (part, rest)) (hnext : nextToken rest ≠ .keyword .table)
    (l : Lexeme) : KeepsTables (l :: ts) rest := by
  fun_induction lastPart what name ts generalizing l with
  | case1 =>
    cases h
    exact .cons (not_opensTable_of_next hnext)
  | case2 => exact absurd h fail_ne_ok
  | case3 =>
    cases h
    exact .cons (not_opensTable_of_next hnext)
  | case4 name d k tail hdot part' hpart ih =>
    have hnext' : nextToken (d :: k :: tail) ≠ .keyword .table := by simp [nextToken, hdot]
    have hl : KeepsTables (l :: d :: k :: tail) (d :: k :: tail) :=
      .cons (not_opensTable_of_next hnext')
    have hd : KeepsTables (d :: k :: tail) (k :: tail) :=
      .cons (not_opensTable_of_token (by simp [hdot]))
    exact (hl.trans hd).trans (ih h k)
  | case5 => exact absurd h fail_ne_ok
  | case6 =>
    cases h
    exact .cons (not_opensTable_of_next hnext)

theorem keepsTables_readQualifiedName {what name : String}
    (h : readQualifiedName what ts = .ok (name, rest))
    (hnext : nextToken rest ≠ .keyword .table) : KeepsTables ts rest := by
  obtain ⟨⟨first, mid⟩, hfirst, hlast⟩ := ok_of_bind h
  unfold readName at hfirst
  split at hfirst
  · exact absurd hfirst fail_ne_ok
  · next l tail =>
    split at hfirst
    · cases hfirst
      exact keepsTables_lastPart hlast hnext l
    · exact absurd hfirst fail_ne_ok

theorem keepsTables_skipIfNotExists (h : skipIfNotExists ts = .ok rest) :
    KeepsTables ts rest := by
  unfold skipIfNotExists at h
  split at h
  · next hword =>
    obtain ⟨mid, h₁, h₂⟩ := ok_of_bind h
    have htail : KeepsTables ts ts.tail := keepsTables_tail (by simp [hword])
    exact (htail.trans (keepsTables_expect h₁ (by simp))).trans (keepsTables_expect h₂ (by simp))
  · cases h
    exact .refl ts

theorem keepsTables_skipIfExists (h : skipIfExists ts = .ok rest) : KeepsTables ts rest := by
  unfold skipIfExists at h
  split at h
  · next hword =>
    have htail : KeepsTables ts ts.tail := keepsTables_tail (by simp [hword])
    exact htail.trans (keepsTables_expect h (by simp))
  · cases h
    exact .refl ts

/-- The words stand in front of no body but at the word CREATE itself. -/
theorem keepsTables_readCreate {dialect : Dialect} {name : String} {body : Body}
    (h : readCreate dialect ts = .ok (name, body)) :
    ∃ head opening rest, ts = head ++ opening :: rest ∧ opening.token = .leftParen ∧
      (∀ l ∈ head, isDivider l.token = false) ∧ KeepsTables ts (opening :: rest) := by
  obtain ⟨ts₁, htable, h⟩ := ok_of_bind h
  obtain ⟨ts₂, hexists, h⟩ := ok_of_bind h
  obtain ⟨⟨name', ts₃⟩, hname, h⟩ := ok_of_bind h
  obtain ⟨ts₄, hopen, -⟩ := ok_of_bind h
  obtain ⟨head, rfl, hhead⟩ := plain_createHead htable hexists hname
  obtain ⟨opening, rfl, hopening⟩ := ok_expect hopen
  refine ⟨head, opening, ts₄, rfl, hopening, hhead, ?_⟩
  have hnext : nextToken (opening :: ts₄) ≠ .keyword .table := by simp [nextToken, hopening]
  exact ((keepsTables_modifiers _).trans (keepsTables_expect htable (by simp))).trans
    ((keepsTables_skipIfNotExists hexists).trans (keepsTables_readQualifiedName hname hnext))

theorem keepsTables_readAlter {name : String} {constraints : List PlacedConstraint}
    (h : readAlter ts = .ok (name, constraints)) :
    ∃ add rest, add.token = .keyword .add ∧ KeepsTables ts (add :: rest) := by
  obtain ⟨ts₁, htable, h⟩ := ok_of_bind h
  obtain ⟨ts₂, hexists, h⟩ := ok_of_bind h
  obtain ⟨⟨name', ts₃⟩, hname, h⟩ := ok_of_bind h
  obtain ⟨constraints', hadditions, -⟩ := ok_of_bind h
  rw [readAdditions_eq] at hadditions
  obtain ⟨⟨cs, ts₄⟩, haddition, -⟩ := ok_of_bind hadditions
  unfold readAddition at haddition
  split at haddition
  · exact absurd haddition fail_ne_ok
  · next add rest =>
    obtain ⟨ts₅, hadd, -⟩ := ok_of_bind haddition
    obtain ⟨l, hl, htoken⟩ := ok_expect hadd
    cases hl
    refine ⟨add, rest, htoken, ?_⟩
    have hnext : nextToken (add :: rest) ≠ .keyword .table := by simp [nextToken, htoken]
    exact ((keepsTables_expect htable (by simp)).trans (keepsTables_skipIfExists hexists)).trans
      ((keepsTables_skipIf (by simp) _).trans (keepsTables_readQualifiedName hname hnext))

end

/-! ## Words in a statement -/

/-- Words that a reader keeps stand at the end of what it leaves. -/
theorem KeepsTables.exists_before {ts rest before after : List Lexeme} {c t : Lexeme}
    (h : KeepsTables ts rest) (hc : c.token = .keyword .create) (ht : t.token = .keyword .table)
    (hts : ts = before ++ c :: t :: after) : ∃ before', rest = before' ++ c :: t :: after := by
  obtain ⟨before', hrest⟩ := h.2 (c :: t :: after) ⟨hc, ht⟩ ⟨before, hts.symm⟩
  exact ⟨before', hrest.symm⟩

/-- A run that ends in front of a lexeme which is neither of the words has both if it has one. -/
theorem tableWords_of_cut {c t : Lexeme} {before run tail after : List Lexeme}
    (hc : c.token = .keyword .create) (ht : t.token = .keyword .table)
    (hbefore : Closed (fun _ => false) before) (hafter : c :: t :: after = run ++ tail)
    (htail : ∀ l ∈ tail.head?, l.token ≠ .keyword .create ∧ l.token ≠ .keyword .table) :
    TableWords (before ++ run) c t := by
  match run with
  | [] =>
    subst hafter
    exact absurd hc (htail c rfl).1
  | [c'] =>
    cases hafter
    exact absurd ht (htail t rfl).2
  | c' :: t' :: run =>
    cases hafter
    exact ⟨hc, ht, before, run, rfl, hbefore⟩

/-- Words outside of parentheses stand in one run, and outside of parentheses there. -/
theorem Splits.tableWords {ls : List Lexeme} {rs : List (List Lexeme)} (h : Splits ls rs)
    (hend : ∀ before l after, ls = before ++ l :: after → l.token = .eof → after = [])
    {c t : Lexeme} (hwords : TableWords ls c t) : ∃ run ∈ rs, TableWords run c t := by
  obtain ⟨hc, ht, before, after, hls, hbefore⟩ := hwords
  induction h generalizing before with
  | @last run rest _ hrest =>
    rcases List.append_eq_append_iff.mp hls with ⟨between, rfl, hrest'⟩ | ⟨run', rfl, hafter⟩
    · exfalso
      cases between with
      | nil =>
        have heof := hrest c (by rw [hrest']; rfl)
        rw [hc] at heof
        cases heof
      | cons l between =>
        subst hrest'
        have hnil := hend run l (between ++ c :: t :: after) rfl (hrest l rfl)
        simp at hnil
    · refine ⟨_, List.mem_singleton_self _, tableWords_of_cut hc ht hbefore hafter fun l hl => ?_⟩
      simp [hrest l hl]
  | @cons run rest l rs hclosed hl _ ih =>
    rcases List.append_eq_append_iff.mp hls with ⟨between, rfl, hrest'⟩ | ⟨run', rfl, hafter⟩
    · cases between with
      | nil =>
        cases hrest'
        rw [hc] at hl
        cases hl
      | cons l' between =>
        cases hrest'
        obtain ⟨d, hrun, hbetween⟩ := exists_depthOver_of_append hbefore
        cases (depthOver_unbroken hclosed.closed).symm.trans hrun
        rw [depthOver_cons, hl] at hbetween
        obtain ⟨run', hmem, hwords⟩ := ih (fun before' k after' heq hk =>
          hend (run ++ l :: before') k after' (by rw [heq]; simp) hk) between rfl hbetween
        exact ⟨run', List.mem_cons_of_mem run hmem, hwords⟩
    · refine ⟨_, List.mem_cons_self, tableWords_of_cut hc ht hbefore hafter fun k hk => ?_⟩
      cases hk
      simp [hl]

namespace Statement

variable {dialect : Dialect} {s : Statement} {part : Document} {c t : Lexeme}

/-- The parenthesis that opens the body is closed before words outside of parentheses. -/
theorem inOptions_of_readCreate {name : String} {body : Body} {before after : List Lexeme}
    (h : readCreate dialect s.others = .ok (name, body))
    (hcreate : s.first.token = .keyword .create)
    (hc : c.token = .keyword .create) (ht : t.token = .keyword .table)
    (hothers : s.others = before ++ c :: t :: after)
    (hbefore : Closed (fun _ => false) (s.first :: before)) : s.InOptions c t := by
  obtain ⟨head, opening, rest, hhead, hopening, hmarks, hkeeps⟩ := keepsTables_readCreate h
  obtain ⟨inner, hinner⟩ := hkeeps.exists_before hc ht hothers
  cases inner with
  | nil =>
    cases hinner
    rw [hc] at hopening
    cases hopening
  | cons opening' inner =>
    obtain ⟨rfl, rfl⟩ := List.cons.inj hinner
    have heq : before = head ++ opening :: inner := by
      refine (List.append_left_inj (c :: t :: after)).mp ?_
      rw [← hothers, hhead, List.append_assoc]
      rfl
    subst heq
    have hdepth : depthOver (fun _ => false) 1 inner = some 0 := by
      have hplain : ∀ l ∈ s.first :: head, isDivider l.token = false :=
        List.forall_mem_cons.mpr ⟨by rw [hcreate]; rfl, hmarks⟩
      rw [← List.cons_append] at hbefore
      obtain ⟨d, hd, hrest⟩ := exists_depthOver_of_append hbefore
      cases (depthOver_of_isDivider (by simp) hplain 0).symm.trans hd
      rw [depthOver_cons, hopening] at hrest
      exact hrest
    obtain ⟨group, tail, hgroup⟩ := exists_closeGroup_of_depthOver hdepth
    refine ⟨hcreate, head, _, opening :: group, tail ++ c :: t :: after, hhead, ?_, ?_,
      tail, after, by simp⟩
    · intro l hl hleft
      have hmark := hmarks l hl
      rw [hleft] at hmark
      cases hmark
    · rw [readGroup, if_pos hopening]
      show (closeGroup 0 (inner ++ c :: t :: after) >>= _) = _
      rw [hgroup]
      rfl

theorem inAdditions_of_readAlter {name : String} {constraints : List PlacedConstraint}
    {before after : List Lexeme} (h : readAlter s.others = .ok (name, constraints))
    (halter : s.first.token = .keyword .alter) (hc : c.token = .keyword .create)
    (ht : t.token = .keyword .table) (hothers : s.others = before ++ c :: t :: after) :
    s.InAdditions c t := by
  obtain ⟨add, rest, hadd, hkeeps⟩ := keepsTables_readAlter h
  obtain ⟨head, hhead⟩ := hkeeps.1
  obtain ⟨inner, hinner⟩ := hkeeps.exists_before hc ht hothers
  cases inner with
  | nil =>
    cases hinner
    rw [hc] at hadd
    cases hadd
  | cons add' inner =>
    obtain ⟨rfl, rfl⟩ := List.cons.inj hinner
    exact ⟨halter, head, add, _, hhead.symm, hadd, inner, after, by simp⟩

/-- Words in a statement begin it, or they stand where its reader does not look. -/
theorem tableWords_of_read (h : s.read dialect = .ok part) (hwords : TableWords s.lexemes c t) :
    (s.first = c ∧ s.others.head? = some t) ∨ s.InOptions c t ∨ s.InAdditions c t := by
  obtain ⟨hc, ht, before, after, hlexemes, hbefore⟩ := hwords
  cases before with
  | nil =>
    obtain ⟨hfirst, hothers⟩ := List.cons.inj hlexemes
    exact .inl ⟨hfirst, by rw [hothers]; rfl⟩
  | cons l before =>
    obtain ⟨rfl, hothers⟩ := List.cons.inj hlexemes
    refine .inr ?_
    unfold read at h
    split at h
    · next hcreate =>
      obtain ⟨⟨name, body⟩, hread, -⟩ := ok_of_bind h
      exact .inl (inOptions_of_readCreate hread hcreate hc ht hothers hbefore)
    · next halter =>
      obtain ⟨⟨name, constraints⟩, hread, -⟩ := ok_of_bind h
      exact .inr (inAdditions_of_readAlter hread halter hc ht hothers)
    · exact absurd h fail_ne_ok

end Statement

/-- In a script that is read, the tables are those of the statements that create one, in the same
order, and the words CREATE TABLE outside of parentheses begin such a statement, or they stand
behind the body of a table or among the additions to one, where they say nothing. -/
theorem Document.tables_of_ofScript {script : String} {choice : DialectChoice} {d : Document}
    (h : ofScript script choice = .ok d) :
    ∃ lexemes ss, tokenize script = .ok lexemes ∧ splitStatements lexemes = .ok ss ∧
      List.Forall₂ (Statement.Defines (choice.resolve lexemes)) (ss.filter (·.creates)) d.tables ∧
      ∀ c t, TableWords lexemes c t →
        ∃ s ∈ ss, (s.first = c ∧ s.others.head? = some t) ∨ s.InOptions c t ∨
          s.InAdditions c t := by
  obtain ⟨lexemes, ss, parts, hlexemes, hss, hparts, rfl⟩ := ofScript_eq_ok.mp h
  refine ⟨lexemes, ss, hlexemes, hss, tables_of_parts hparts, fun c t hwords => ?_⟩
  have hend : ∀ before l after, lexemes = before ++ l :: after → l.token = .eof → after = [] := by
    intro before l after hls heof
    by_contra hafter
    refine token_ne_eof_of_tokenize hlexemes l ?_ heof
    rw [hls, List.dropLast_append_of_ne_nil (by simp), List.dropLast_cons_of_ne_nil hafter]
    simp
  obtain ⟨rs, hsplits, rfl⟩ := splitStatements_eq_ok.mp hss
  obtain ⟨run, hrun, hwords⟩ := hsplits.tableWords hend hwords
  have hne : ∃ s, Statement.ofLexemes? run = some s := by
    obtain ⟨-, -, before, after, rfl, -⟩ := hwords
    cases before <;> exact ⟨_, rfl⟩
  obtain ⟨s, hs⟩ := hne
  have hmem := List.mem_filterMap.mpr ⟨run, hrun, hs⟩
  obtain ⟨part, -, hread⟩ := exists_right_of_forall₂ hparts s hmem
  rw [← ofLexemes?_lexemes hs] at hwords
  exact ⟨s, hmem, Statement.tableWords_of_read hread hwords⟩

/-- The second table stands where the options of the first one may. -/
def unseparated : String := "CREATE TABLE a (x INT) CREATE TABLE b (y INT)"

theorem Document.tables_of_ofScript_unseparated :
    ∃ d lexemes ss, ofScript unseparated .auto = .ok d ∧ tokenize unseparated = .ok lexemes ∧
      splitStatements lexemes = .ok ss ∧
      List.Forall₂ (Statement.Defines (DialectChoice.auto.resolve lexemes))
        (ss.filter (·.creates)) d.tables ∧
      ∀ c t, TableWords lexemes c t →
        ∃ s ∈ ss, (s.first = c ∧ s.others.head? = some t) ∨ s.InOptions c t ∨
          s.InAdditions c t := by
  have hok : (ofScript unseparated .auto).toOption.isSome = true := by decide +kernel
  cases hd : ofScript unseparated .auto with
  | error e =>
    rw [hd] at hok
    cases hok
  | ok d =>
    obtain ⟨lexemes, ss, h⟩ := tables_of_ofScript hd
    exact ⟨d, lexemes, ss, rfl, h⟩

/-- The words CREATE TABLE of the second table begin no statement, and the table is not there. -/
theorem Document.ofScript_unseparated :
    ofScript unseparated .auto = .ok ⟨[⟨"a", [⟨"x", .integer, false, false, true, ⟨1, 17⟩⟩],
      ⟨unseparated, ⟨1, 1⟩⟩⟩], []⟩ ∧
    ∃ lexemes c t, tokenize unseparated = .ok lexemes ∧ TableWords lexemes c t ∧
      ∀ s ∈ statementsOf unseparated, s.first ≠ c := by
  have hok : (tokenize unseparated).toOption.isSome = true := by decide +kernel
  cases hlexemes : tokenize unseparated with
  | error e =>
    rw [hlexemes] at hok
    cases hok
  | ok lexemes =>
    have hlexemes' : lexemes = (tokenize unseparated).toOption.getD [] := by rw [hlexemes]; rfl
    refine ⟨by decide +kernel, lexemes,
      ⟨⟨[' '], "CREATE".toList, .keyword .create⟩, ⟨1, 24⟩, 23⟩,
      ⟨⟨[' '], "TABLE".toList, .keyword .table⟩, ⟨1, 31⟩, 30⟩, rfl,
      ⟨rfl, rfl, lexemes.take 7, lexemes.drop 9, ?_, ?_⟩, by decide +kernel⟩
    · subst hlexemes'
      decide +kernel
    · subst hlexemes'
      show depthOver _ _ _ = _
      decide +kernel

end Sql
end Schemata
