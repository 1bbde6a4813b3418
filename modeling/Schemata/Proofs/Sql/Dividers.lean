/-
Parentheses over a whole script.  A script splits into statements exactly if they balance, and its
dividers are the semicolons in front of which as many are closed as are opened.  If they do not
balance, the splitter points at the first one that closes nothing, or else at the last one that is
left open.
-/
import Schemata.Proofs.Sql.BodyItems
import Schemata.Proofs.Sql.Indexed.Splitting
import Schemata.Proofs.Sql.Spacing

namespace Schemata
namespace Sql

open Text (Position)

/-! ## Counting -/

/-- How many of the lexemes open parentheses. -/
def opens (ls : List Lexeme) : Nat := ls.countP (·.token = .leftParen)

/-- How many of the lexemes close parentheses. -/
def closes (ls : List Lexeme) : Nat := ls.countP (·.token = .rightParen)

/-- Nowhere are more parentheses closed than were opened, and in the end all of them are closed. -/
structure Matched (ls : List Lexeme) : Prop where
  prefixes : ∀ front, front <+: ls → closes front ≤ opens front
  totals : closes ls = opens ls

theorem opens_append (ks ls : List Lexeme) : opens (ks ++ ls) = opens ks + opens ls :=
  List.countP_append

theorem closes_append (ks ls : List Lexeme) : closes (ks ++ ls) = closes ks + closes ls :=
  List.countP_append

theorem opens_cons (l : Lexeme) (ls : List Lexeme) :
    opens (l :: ls) = opens ls + if l.token = .leftParen then 1 else 0 := by
  simp [opens, List.countP_cons]

theorem closes_cons (l : Lexeme) (ls : List Lexeme) :
    closes (l :: ls) = closes ls + if l.token = .rightParen then 1 else 0 := by
  simp [closes, List.countP_cons]

theorem forall_prefix_cons {l : Lexeme} {ls : List Lexeme} {d : Nat} :
    (∀ front, front <+: l :: ls → closes front ≤ d + opens front) ↔
      ∀ front, front <+: ls → closes (l :: front) ≤ d + opens (l :: front) := by
  constructor
  · exact fun h front hfront => h _ (List.cons_prefix_cons.mpr ⟨rfl, hfront⟩)
  · intro h front hfront
    rcases List.prefix_cons_iff.mp hfront with rfl | ⟨front', rfl, hfront'⟩
    · exact Nat.zero_le _
    · exact h front' hfront'

/-- The depth is known as long as no parenthesis is closed that was not opened, and then it is the
difference. -/
theorem depthOver_eq_some_iff {d e : Nat} {ls : List Lexeme} :
    depthOver (fun _ => false) d ls = some e ↔
      (∀ front, front <+: ls → closes front ≤ d + opens front) ∧
        d + opens ls = e + closes ls := by
  induction ls generalizing d with
  | nil =>
    rw [depthOver_nil]
    simp [opens, closes]
  | cons l ls ih =>
    rw [depthOver_cons, forall_prefix_cons]
    simp only [opens_cons, closes_cons]
    by_cases hleft : l.token = .leftParen
    · have hd : ∀ n, d + 1 + n = d + (n + 1) := by omega
      rw [hleft, nest_leftParen, Option.bind_some, ih]
      simp only [hd, reduceCtorEq, if_true, if_false, Nat.add_zero]
    by_cases hright : l.token = .rightParen
    · cases d with
      | zero =>
        refine iff_of_false (by rw [hright]; simp [nest]) fun h => ?_
        have hnil := h.1 [] List.nil_prefix
        simp [hright, opens, closes] at hnil
      | succ d =>
        have hd : ∀ m n, m + 1 ≤ d + 1 + (n + 0) ↔ m ≤ d + n := by omega
        have he : ∀ m n, d + 1 + (n + 0) = e + (m + 1) ↔ d + n = e + m := by omega
        rw [hright, nest_rightParen, Option.bind_some, ih]
        simp only [hd, he, reduceCtorEq, if_true, if_false]
    · rw [nest_of_ne hleft hright fun _ => rfl, Option.bind_some, ih]
      simp only [hleft, hright, if_false, Nat.add_zero]

theorem closed_iff_matched {ls : List Lexeme} : Closed (fun _ => false) ls ↔ Matched ls := by
  rw [Closed, depthOver_eq_some_iff]
  simp only [Nat.zero_add, eq_comm (a := opens ls)]
  exact ⟨fun h => ⟨h.1, h.2⟩, fun h => ⟨h.1, h.2⟩⟩

theorem Matched.of_isPrefix {ks ls : List Lexeme} (h : Matched ls) (hks : ks <+: ls)
    (htotals : closes ks = opens ks) : Matched ks :=
  ⟨fun front hfront => h.prefixes front (hfront.trans hks), htotals⟩

/-! ## Dividers -/

/-- Runs of lexemes, with a divider in front of each but the first. -/
def joinRuns (first : List Lexeme) (more : List (Lexeme × List Lexeme)) : List Lexeme :=
  first ++ more.flatMap fun p => p.1 :: p.2

/-- The lexemes are runs with dividers between them, through the mark `last` of the end.  The
dividers are just the semicolons in front of which all parentheses are closed. -/
structure Divided (lexemes first : List Lexeme) (more : List (Lexeme × List Lexeme))
    (last : Lexeme) : Prop where
  joined : lexemes = joinRuns first more ++ [last]
  ending : last.token = .eof
  matched : ∀ run ∈ first :: more.map (·.2), Matched run
  inside : ∀ run ∈ first :: more.map (·.2), ∀ l ∈ run, l.token ≠ .eof
  dividers : ∀ front l back, lexemes = front ++ l :: back →
    (l.token = .semicolon ∧ closes front = opens front ↔
      ∃ done run todo, more = done ++ (l, run) :: todo ∧ front = joinRuns first done)

section

variable {first : List Lexeme} {more : List (Lexeme × List Lexeme)} {last : Lexeme}

theorem joinRuns_nil (first : List Lexeme) : joinRuns first [] = first := List.append_nil first

theorem joinRuns_cons (l : Lexeme) (run : List Lexeme) :
    joinRuns first ((l, run) :: more) = first ++ l :: joinRuns run more := by
  simp [joinRuns]

section

variable (hfirst : IsRun first) (hmore : ∀ p ∈ more, p.1.token = .semicolon ∧ IsRun p.2)

include hfirst hmore

theorem closed_joinRuns : Closed (fun _ => false) (joinRuns first more) := by
  induction more generalizing first with
  | nil =>
    rw [joinRuns_nil]
    exact depthOver_unbroken hfirst.closed
  | cons p more ih =>
    obtain ⟨⟨hp, hrun⟩, hmore⟩ := List.forall_mem_cons.mp hmore
    rw [joinRuns_cons]
    exact Closed.append (depthOver_unbroken hfirst.closed)
      ((closed_singleton (l := p.1) (by simp [hp]) (by simp [hp]) rfl).append (ih hrun hmore))

theorem eof_not_mem_joinRuns : ∀ l ∈ joinRuns first more, l.token ≠ .eof := by
  intro l hl
  rcases List.mem_append.mp hl with hl | hl
  · exact hfirst.inside l hl
  · obtain ⟨p, hp, hl⟩ := List.mem_flatMap.mp hl
    obtain ⟨hsemicolon, hrun⟩ := hmore p hp
    rcases List.mem_cons.mp hl with rfl | hl
    · simp [hsemicolon]
    · exact hrun.inside l hl

theorem matched_script (hlast : last.token = .eof) : Matched (joinRuns first more ++ [last]) :=
  closed_iff_matched.mp ((closed_joinRuns hfirst hmore).append
    (closed_singleton (by simp [hlast]) (by simp [hlast]) rfl))

/-- A semicolon outside of parentheses is in none of the runs, so it is a divider. -/
theorem exists_divider (hlast : last.token = .eof) {front back : List Lexeme} {l : Lexeme}
    (hl : l.token = .semicolon) (hfront : Closed (fun _ => false) front)
    (h : joinRuns first more ++ [last] = front ++ l :: back) :
    ∃ done run todo, more = done ++ (l, run) :: todo ∧ front = joinRuns first done := by
  have hbreaks : nest isSemicolon 0 l.token = none := by rw [hl]; rfl
  induction more generalizing first front with
  | nil =>
    rw [joinRuns_nil] at h
    obtain ⟨w, rfl, hw⟩ := exists_append_of_closed h hfirst.closed hfront hbreaks
    cases w with
    | nil =>
      cases hw
      rw [hl] at hlast
      cases hlast
    | cons k w => simp at hw
  | cons p more ih =>
    obtain ⟨⟨hp, hrun⟩, hmore⟩ := List.forall_mem_cons.mp hmore
    rw [joinRuns_cons, List.append_assoc] at h
    obtain ⟨w, rfl, hw⟩ := exists_append_of_closed h hfirst.closed hfront hbreaks
    cases w with
    | nil =>
      cases hw
      exact ⟨[], p.2, more, rfl, (joinRuns_nil first).symm ▸ List.append_nil first⟩
    | cons k w =>
      obtain ⟨rfl, hw'⟩ := List.cons.inj hw
      have hrest := (depthOver_of_closed (depthOver_unbroken hfirst.closed) hfront).2
      rw [depthOver_cons, hp] at hrest
      obtain ⟨done, run, todo, rfl, rfl⟩ := ih hrun hmore hrest hw'
      exact ⟨p :: done, run, todo, rfl, (joinRuns_cons ..).symm⟩

theorem divided_joinRuns (hlast : last.token = .eof) :
    Divided (joinRuns first more ++ [last]) first more last where
  joined := rfl
  ending := hlast
  matched := by
    refine List.forall_mem_cons.mpr
      ⟨closed_iff_matched.mp (depthOver_unbroken hfirst.closed), List.forall_mem_map.mpr ?_⟩
    exact fun p hp => closed_iff_matched.mp (depthOver_unbroken (hmore p hp).2.closed)
  inside := List.forall_mem_cons.mpr
    ⟨hfirst.inside, List.forall_mem_map.mpr fun p hp => (hmore p hp).2.inside⟩
  dividers front l back hls := by
    constructor
    · rintro ⟨hl, htotals⟩
      have hfront := (matched_script hfirst hmore hlast).of_isPrefix ⟨l :: back, hls.symm⟩ htotals
      exact exists_divider hfirst hmore hlast hl (closed_iff_matched.mpr hfront) hls
    · rintro ⟨done, run, todo, rfl, rfl⟩
      have hdone := closed_joinRuns hfirst fun p hp => hmore p (List.mem_append_left _ hp)
      exact ⟨(hmore (l, run) (by simp)).1, (closed_iff_matched.mp hdone).totals⟩

end

theorem Splits.exists_joinRuns {ls : List Lexeme} {rs : List (List Lexeme)} (h : Splits ls rs) :
    ∃ first more rest, ls = joinRuns first more ++ rest ∧ rs = first :: more.map (·.2) ∧
      IsRun first ∧ (∀ p ∈ more, p.1.token = .semicolon ∧ IsRun p.2) ∧
      ∀ l ∈ rest.head?, l.token = .eof := by
  induction h with
  | @last run rest hrun hrest =>
    exact ⟨run, [], rest, by rw [joinRuns_nil], rfl, hrun, by simp, hrest⟩
  | @cons run rest l rs hrun hl _ ih =>
    obtain ⟨first, more, rest', rfl, rfl, hfirst, hmore, hrest⟩ := ih
    refine ⟨run, (l, first) :: more, rest', ?_, rfl, hrun,
      List.forall_mem_cons.mpr ⟨⟨hl, hfirst⟩, hmore⟩, hrest⟩
    rw [joinRuns_cons, List.append_assoc]
    rfl

/-- The runs of a whole script end in front of the mark of the end. -/
theorem Splits.exists_divided {inner : List Lexeme} {rs : List (List Lexeme)}
    (h : Splits (inner ++ [last]) rs) (hinner : ∀ l ∈ inner, l.token ≠ .eof)
    (hlast : last.token = .eof) :
    Matched (inner ++ [last]) ∧
      ∃ first more, Divided (inner ++ [last]) first more last ∧ rs = first :: more.map (·.2) := by
  obtain ⟨first, more, rest, hjoined, rfl, hfirst, hmore, hrest⟩ := h.exists_joinRuns
  obtain rfl : rest = [last] := by
    rcases List.append_eq_append_iff.mp hjoined with ⟨w, hw, hrest'⟩ | ⟨w, rfl, rfl⟩
    · cases w with
      | nil => exact hrest'.symm
      | cons l w =>
        obtain ⟨rfl, -⟩ := List.cons.inj hrest'
        exact absurd hlast (eof_not_mem_joinRuns hfirst hmore _ (by rw [hw]; simp))
    · cases w with
      | nil => rfl
      | cons l w => exact absurd (hrest l rfl) (hinner l (by simp))
  rw [hjoined]
  exact ⟨matched_script hfirst hmore hlast, first, more, divided_joinRuns hfirst hmore hlast, rfl⟩

end

/-! ## Parentheses without a match -/

/-- The splitter points at a parenthesis that has no match: the first one that closes nothing, or
if there is none, the last one that is left open. -/
inductive Unmatched (ls : List Lexeme) : ImportError → Prop
  | closing {front back : List Lexeme} {l : Lexeme} (run : List Lexeme)
      (hls : ls = front ++ l :: back) (hl : l.token = .rightParen) (hfront : Matched front) :
      Unmatched ls (runFault .unbalancedParen run l.position)
  | opening {front back : List Lexeme} {l : Lexeme} (run : List Lexeme)
      (hls : ls = front ++ l :: back) (hl : l.token = .leftParen)
      (hprefixes : ∀ part, part <+: ls → closes part ≤ opens part)
      (hback : Matched back) : Unmatched ls (runFault .unclosedParen run l.position)

theorem Unmatched.not_matched {ls : List Lexeme} {e : ImportError} (h : Unmatched ls e) :
    ¬Matched ls := by
  intro hmatched
  cases h with
  | @closing front back l run hls hl hfront =>
    have hprefix := hmatched.prefixes (front ++ [l]) ⟨back, by rw [hls]; simp⟩
    have htotals := hfront.totals
    rw [closes_append, opens_append, closes_cons, opens_cons, hl] at hprefix
    simp [opens, closes] at hprefix htotals
    omega
  | @opening front back l run hls hl hprefixes hback =>
    have hfront := hprefixes front ⟨l :: back, hls.symm⟩
    have htotals := hmatched.totals
    rw [hls, closes_append, opens_append, closes_cons, opens_cons, hl, hback.totals] at htotals
    simp at htotals
    omega

/-- The parentheses at these positions are open after the lexemes, the innermost one first. -/
inductive LeftOpen : List Position → List Lexeme → Prop
  | nil {ls : List Lexeme} (h : Closed (fun _ => false) ls) : LeftOpen [] ls
  | cons {opened : List Position} {front back : List Lexeme} {l : Lexeme}
      (h : LeftOpen opened front) (hl : l.token = .leftParen)
      (hback : Closed (fun _ => false) back) : LeftOpen (l.position :: opened) (front ++ l :: back)

namespace LeftOpen

variable {opened : List Position} {position : Position} {done ls : List Lexeme} {l : Lexeme}

theorem depthOver_eq (h : LeftOpen opened done) :
    depthOver (fun _ => false) 0 done = some opened.length := by
  induction h with
  | nil h => exact h
  | @cons opened front back l _ hl hback ih =>
    refine depthOver_append ih (depthOver_cons_of_nest ?_ (hback.within _))
    rw [hl]
    rfl

theorem append_closed (h : LeftOpen opened done) (hls : Closed (fun _ => false) ls) :
    LeftOpen opened (done ++ ls) := by
  cases h with
  | nil h => exact .nil (h.append hls)
  | cons h hl hback =>
    rw [List.append_assoc, List.cons_append]
    exact .cons h hl (hback.append hls)

/-- A closing parenthesis closes the innermost one that is open. -/
theorem close (h : LeftOpen (position :: opened) done) (hl : l.token = .rightParen) :
    LeftOpen opened (done ++ [l]) := by
  cases h with
  | @cons _ front back k h hk hback =>
    rw [List.append_assoc]
    have hclose : depthOver (fun _ => false) 1 [l] = some 0 := by
      rw [depthOver_cons, hl]
      rfl
    exact h.append_closed (depthOver_cons_of_nest (by rw [hk]; rfl)
      (depthOver_append (hback.within 1) hclose))

theorem push {opened' : List Position} (h : LeftOpen opened done) (hl : RunsOn l opened opened') :
    LeftOpen opened' (done ++ [l]) := by
  cases hl with
  | opening hl => exact .cons h hl (depthOver_nil 0)
  | closing hl => exact h.close hl
  | other hleft hright _ _ => exact h.append_closed (closed_singleton hleft hright rfl)

end LeftOpen

/-- If the splitter fails, it has come to a parenthesis without a match. -/
theorem unmatched_of_runs {opened : List Position} {done run rest : List Lexeme} {last : Lexeme}
    {e : ImportError} (hopen : LeftOpen opened done) (hrest : ∀ l ∈ rest, l.token ≠ .eof)
    (hlast : last.token = .eof) (h : runs opened run (rest ++ [last]) = .error e) :
    Unmatched (done ++ (rest ++ [last])) e := by
  induction rest generalizing opened done run with
  | nil =>
    rw [List.nil_append, runs_of_eof hlast] at h
    have hend : Closed (fun _ => false) [last] :=
      closed_singleton (by simp [hlast]) (by simp [hlast]) rfl
    cases opened with
    | nil => cases h
    | cons position opened =>
      cases h
      have hprefixes := (depthOver_eq_some_iff.mp (hopen.append_closed hend).depthOver_eq).1
      simp only [Nat.zero_add] at hprefixes
      cases hopen with
      | @cons _ front back l hopen hl hback =>
        have hsplit : front ++ l :: back ++ [last] = front ++ l :: (back ++ [last]) :=
          List.append_assoc front (l :: back) [last]
        exact .opening run hsplit hl hprefixes (closed_iff_matched.mp (hback.append hend))
  | cons l rest ih =>
    obtain ⟨hl, hrest⟩ := List.forall_mem_cons.mp hrest
    rw [List.cons_append] at h
    rw [List.cons_append, List.append_cons]
    cases turn l opened with
    | ends hend => exact absurd hend hl
    | runsOn hrunsOn =>
      rw [hrunsOn.runs_eq] at h
      exact ih (hopen.push hrunsOn) hrest h
    | unmatched hright =>
      rw [runs_of_unmatched hright] at h
      cases h
      cases hopen with
      | nil hdone =>
        exact .closing _ (List.append_assoc _ _ _) hright (closed_iff_matched.mp hdone)
    | divides hsemicolon =>
      rw [runs_of_semicolon hsemicolon] at h
      cases hruns : runs [] [] (rest ++ [last]) with
      | ok rs =>
        rw [hruns] at h
        cases h
      | error e' =>
        rw [hruns] at h
        cases h
        refine ih (hopen.append_closed (closed_singleton ?_ ?_ rfl)) hrest hruns
        · simp [hsemicolon]
        · simp [hsemicolon]

theorem map_lexemes_ofLexemes? (rs : List (List Lexeme)) :
    (rs.filterMap Statement.ofLexemes?).map Statement.lexemes = rs.filter (· ≠ []) := by
  induction rs with
  | nil => rfl
  | cons run rs ih =>
    cases run with
    | nil =>
      rw [List.filterMap_cons_none rfl, List.filter_cons_of_neg (by simp)]
      exact ih
    | cons l run =>
      rw [List.filter_cons_of_pos (by simp), ← ih]
      rfl

/-- A script is split exactly if its parentheses match.  The statements are what stands between the
semicolons outside of parentheses, without what is empty; and if the parentheses do not match, the
splitter points at one that has no match.  Splitting by indices comes to the same result. -/
theorem splitStatements_exact {text : String} {lexemes : List Lexeme}
    (h : tokenize text = .ok lexemes) :
    ((∃ ss, splitStatements lexemes = .ok ss) ↔ Matched lexemes) ∧
      (∀ ss, splitStatements lexemes = .ok ss → ∃ first more last,
        Divided lexemes first more last ∧
          ss.map Statement.lexemes = (first :: more.map (·.2)).filter (· ≠ [])) ∧
      (∀ e, splitStatements lexemes = .error e → Unmatched lexemes e) ∧
      Excerpt.split text.toList lexemes [] 0 0 lexemes =
        ((splitStatements lexemes).map (List.map Statement.excerpt)).mapError Halt.rejected := by
  obtain ⟨inner, last, rfl, hcovers⟩ := exists_covers_of_tokenize h
  have hsplits : ∀ ss, splitStatements (inner ++ [last]) = .ok ss → Matched (inner ++ [last]) ∧
      ∃ first more, Divided (inner ++ [last]) first more last ∧
        ss.map Statement.lexemes = (first :: more.map (·.2)).filter (· ≠ []) := by
    intro ss hss
    obtain ⟨rs, hrs, rfl⟩ := splitStatements_eq_ok.mp hss
    obtain ⟨hmatched, first, more, hdivided, rfl⟩ :=
      hrs.exists_divided hcovers.inside hcovers.ending
    exact ⟨hmatched, first, more, hdivided, map_lexemes_ofLexemes? _⟩
  have hfault : ∀ e, splitStatements (inner ++ [last]) = .error e →
      Unmatched (inner ++ [last]) e := by
    intro e he
    cases hruns : runs [] [] (inner ++ [last]) with
    | ok rs =>
      rw [splitStatements, hruns] at he
      cases he
    | error e' =>
      rw [splitStatements, hruns] at he
      cases he
      have hnone : LeftOpen [] [] := .nil rfl
      exact unmatched_of_runs hnone hcovers.inside hcovers.ending hruns
  refine ⟨⟨fun hsplit => ?_, fun hmatched => ?_⟩, fun ss hss => ?_, hfault, hcovers.split⟩
  · obtain ⟨ss, hss⟩ := hsplit
    exact (hsplits ss hss).1
  · cases hsplit : splitStatements (inner ++ [last]) with
    | ok ss => exact ⟨ss, rfl⟩
    | error e => exact absurd hmatched (hfault e hsplit).not_matched
  · obtain ⟨-, first, more, hparts⟩ := hsplits ss hss
    exact ⟨first, more, last, hparts⟩

/-- Semicolons in parentheses, an empty statement, and none behind the last one. -/
def nested : String := "CREATE TABLE t (a INT (1; (2)), b; INT); ; SELECT"

theorem splitStatements_exact_nested :
    ∃ ss first more last, splitStatements (lexemesOf nested) = .ok ss ∧
      Divided (lexemesOf nested) first more last ∧
      ss.map Statement.lexemes = (first :: more.map (·.2)).filter (· ≠ []) := by
  have hlexemes : tokenize nested = .ok (lexemesOf nested) := by decide +kernel
  have hclosed : Closed (fun _ => false) (lexemesOf nested) := by decide +kernel
  obtain ⟨hsplits, hdivided, -⟩ := splitStatements_exact hlexemes
  obtain ⟨ss, hss⟩ := hsplits.mpr (closed_iff_matched.mp hclosed)
  obtain ⟨first, more, last, hparts⟩ := hdivided ss hss
  exact ⟨ss, first, more, last, hss, hparts⟩

end Sql
end Schemata
