/-
Changing one statement of a script.  The runs before it and after it stay what they are, so what a
script says then differs only in what the statement says.
-/
import Schemata.Proofs.Sql.BodyItems
import Schemata.Proofs.Sql.Composition
import Schemata.Proofs.Sql.Spacing

namespace Schemata
namespace Sql

/-! ## Runs -/

namespace Splits

variable {lead front ls rest : List Lexeme} {rs : List (List Lexeme)}

/-- Behind a semicolon outside of parentheses, other lexemes may stand. -/
theorem exists_of_append (h : Splits (lead ++ ls) rs) (hlead : AtStart .semicolon lead)
    (hinside : ∀ l ∈ lead, l.token ≠ .eof) :
    ∃ before after, rs = before ++ after ∧ Splits ls after ∧
      ∀ {ks qs}, Splits ks qs → Splits (lead ++ ks) (before ++ qs) := by
  rcases hlead with rfl | ⟨init, l, rfl, hl, hinit⟩
  · exact ⟨[], rs, rfl, h, id⟩
  have hnest : nest isSemicolon 0 l.token = none := by rw [hl]; rfl
  generalize hall : init ++ [l] ++ ls = all at h
  rw [List.append_assoc, List.singleton_append] at hall
  replace hinside : ∀ k ∈ init, k.token ≠ .eof := fun k hk => hinside k (List.mem_append_left _ hk)
  suffices ∃ before after, rs = before ++ after ∧ Splits ls after ∧
      ∀ {ks qs}, Splits ks qs → Splits (init ++ l :: ks) (before ++ qs) by
    obtain ⟨before, after, hrs, hls, hother⟩ := this
    refine ⟨before, after, hrs, hls, fun hks => ?_⟩
    rw [List.append_assoc]
    exact hother hks
  induction h generalizing init with
  | @last run rest hrun hrest =>
    obtain ⟨w, rfl, rfl⟩ := exists_append_of_closed hall.symm hrun.closed hinit hnest
    cases w with
    | nil => exact absurd (hrest l rfl) (by rw [hl]; simp)
    | cons k w => exact absurd (hrest k rfl) (hinside k (by simp))
  | @cons run rest k more hrun hk hmore ih =>
    obtain ⟨w, rfl, hrest⟩ := exists_append_of_closed hall.symm hrun.closed hinit hnest
    cases w with
    | nil =>
      obtain ⟨rfl, rfl⟩ := List.cons.inj hrest
      refine ⟨[run], more, rfl, hmore, fun hks => ?_⟩
      rw [List.append_nil]
      exact .cons hrun hl hks
    | cons k' w =>
      obtain ⟨rfl, rfl⟩ := List.cons.inj hrest
      have hw : Closed (fun _ => false) w := by
        have hkw := (depthOver_of_closed (depthOver_unbroken hrun.closed) hinit).2
        rwa [depthOver_cons, hk] at hkw
      obtain ⟨before, after, rfl, hls, hother⟩ := ih w hw rfl
        fun j hj => hinside j (by simp [hj])
      refine ⟨run :: before, after, rfl, hls, fun hks => ?_⟩
      rw [List.append_assoc]
      exact .cons hrun hk (hother hks)

/-- Lexemes that leave a parenthesis open begin the first run, and another run may stand there. -/
theorem exists_first (h : Splits (front ++ ls) rs) {d : Nat}
    (hfront : depthOver isSemicolon 0 front = some (d + 1))
    (hinside : ∀ l ∈ front, l.token ≠ .eof) :
    ∃ body rest more, ls = body ++ rest ∧ rs = (front ++ body) :: more ∧
      IsRun (front ++ body) ∧ ∀ {run}, IsRun run → Splits (run ++ rest) (run :: more) := by
  generalize hall : front ++ ls = all at h
  cases h with
  | @last run rest hrun hrest =>
    rcases List.append_eq_append_iff.mp hall with ⟨body, rfl, rfl⟩ | ⟨w, rfl, rfl⟩
    · exact ⟨body, rest, [], rfl, rfl, hrun, fun hrun' => .last hrun' hrest⟩
    · cases w with
      | nil =>
        rw [List.append_nil, show depthOver isSemicolon 0 run = some 0 from hrun.closed] at hfront
        cases hfront
      | cons k w => exact absurd (hrest k rfl) (hinside k (by simp))
  | @cons run rest l more hrun hl hmore =>
    rcases List.append_eq_append_iff.mp hall with ⟨body, rfl, rfl⟩ | ⟨w, rfl, hrest⟩
    · exact ⟨body, l :: rest, more, rfl, rfl, hrun, fun hrun' => .cons hrun' hl hmore⟩
    · cases w with
      | nil =>
        rw [List.append_nil, show depthOver isSemicolon 0 run = some 0 from hrun.closed] at hfront
        cases hfront
      | cons k w =>
        obtain ⟨rfl, -⟩ := List.cons.inj hrest
        exact absurd hfront (not_closed_of_nest (depthOver_unbroken hrun.closed) (by rw [hl]; rfl))

end Splits

/-! ## What runs say -/

/-- What the statement of a run says.  A run without one says nothing. -/
def runContent (dialect : Dialect) (run : List Lexeme) :
    Except Fault (List TableSpec × List Rule) :=
  match Statement.ofLexemes? run with
  | none => .ok ([], [])
  | some s => (s.read dialect).map Document.content

/-- What runs say one after the other. -/
def joinContents (cs : List (List TableSpec × List Rule)) : List TableSpec × List Rule :=
  (cs.flatMap (·.1), cs.flatMap (·.2))

section

variable {dialect : Dialect} {rs : List (List Lexeme)}

theorem runContent_of_read {s : Statement} {part : Document} (h : s.read dialect = .ok part) :
    runContent dialect s.lexemes = .ok part.content := by
  show (s.read dialect).map _ = _
  rw [h]
  rfl

theorem exists_parts_iff {c : List TableSpec × List Rule} :
    (∃ parts, List.Forall₂ (fun s part => Statement.read dialect s = .ok part)
        (rs.filterMap Statement.ofLexemes?) parts ∧ (Document.join parts).content = c) ↔
      ∃ cs, List.Forall₂ (fun run c => runContent dialect run = .ok c) rs cs ∧
        joinContents cs = c := by
  induction rs generalizing c with
  | nil =>
    constructor
    · rintro ⟨parts, hparts, rfl⟩
      cases hparts
      exact ⟨[], .nil, rfl⟩
    · rintro ⟨cs, hcs, rfl⟩
      cases hcs
      exact ⟨[], .nil, rfl⟩
  | cons run rs ih =>
    have hcontent : ∀ (part : Document) (parts : List Document),
        (Document.join (part :: parts)).content =
          (part.content.1 ++ (Document.join parts).content.1,
            part.content.2 ++ (Document.join parts).content.2) := by
      intro part parts
      rw [Document.join_cons, Document.content, Document.specs_append, Document.rules_append]
      rfl
    cases run with
    | nil =>
      refine ih.trans ⟨?_, ?_⟩
      · rintro ⟨cs, hcs, rfl⟩
        exact ⟨([], []) :: cs, .cons rfl hcs, rfl⟩
      · rintro ⟨cs, hcs, rfl⟩
        obtain ⟨c, more, hc, hmore, rfl⟩ := List.forall₂_cons_left_iff.mp hcs
        cases hc
        exact ⟨more, hmore, rfl⟩
    | cons l run =>
      constructor
      · rintro ⟨parts, hparts, rfl⟩
        obtain ⟨part, more, hpart, hmore, rfl⟩ := List.forall₂_cons_left_iff.mp hparts
        obtain ⟨cs, hcs, hjoin⟩ := ih.mp ⟨more, hmore, rfl⟩
        refine ⟨part.content :: cs, .cons (runContent_of_read hpart) hcs, ?_⟩
        rw [hcontent, ← hjoin]
        rfl
      · rintro ⟨cs, hcs, rfl⟩
        obtain ⟨c, more, hc, hmore, rfl⟩ := List.forall₂_cons_left_iff.mp hcs
        obtain ⟨parts, hparts, hjoin⟩ := ih.mpr ⟨more, hmore, rfl⟩
        cases hread : Statement.read dialect ⟨l, run⟩ with
        | error fault =>
          rw [show runContent dialect (l :: run) = (Statement.read dialect ⟨l, run⟩).map _ from rfl,
            hread] at hc
          cases hc
        | ok part =>
          rw [show runContent dialect (l :: run) = (Statement.read dialect ⟨l, run⟩).map _ from rfl,
            hread] at hc
          cases hc
          refine ⟨part :: parts, .cons hread hparts, ?_⟩
          rw [hcontent, hjoin]
          rfl

end

/-- A script is read as what its runs say. -/
theorem Document.exists_ofScript_iff {text : String} {choice : DialectChoice}
    {c : List TableSpec × List Rule} :
    (∃ d, ofScript text choice = .ok d ∧ d.content = c) ↔
      ∃ ls rs cs, tokenize text = .ok ls ∧ Splits ls rs ∧
        List.Forall₂ (fun run c => runContent (choice.resolve ls) run = .ok c) rs cs ∧
        joinContents cs = c := by
  constructor
  · rintro ⟨d, hd, rfl⟩
    obtain ⟨ls, ss, parts, hls, hss, hparts, rfl⟩ := ofScript_eq_ok.mp hd
    obtain ⟨rs, hrs, rfl⟩ := splitStatements_eq_ok.mp hss
    obtain ⟨cs, hcs, hjoin⟩ := exists_parts_iff.mp ⟨parts, hparts, rfl⟩
    exact ⟨ls, rs, cs, hls, hrs, hcs, hjoin⟩
  · rintro ⟨ls, rs, cs, hls, hrs, hcs, rfl⟩
    obtain ⟨parts, hparts, hjoin⟩ := exists_parts_iff.mpr ⟨cs, hcs, rfl⟩
    exact ⟨join parts, ofScript_eq_ok.mpr ⟨ls, _, parts, hls,
      splitStatements_eq_ok.mpr ⟨rs, hrs, rfl⟩, hparts, rfl⟩, hjoin⟩

/-! ## The same comments -/

/-- The pieces of lexemes, without the blanks in the gaps. -/
abbrev squeezedOf (ls : List Lexeme) : List Piece := ls.map (·.toPiece.squeezed)

section

variable {ls ks : List Lexeme}

theorem squeezedOf_append (ls ks : List Lexeme) :
    squeezedOf (ls ++ ks) = squeezedOf ls ++ squeezedOf ks := List.map_append

theorem tokensOf_squeezed (h : squeezedOf ks = squeezedOf ls) : tokensOf ks = tokensOf ls := by
  have htokens := congrArg (List.map Piece.token) h
  rwa [List.map_map, List.map_map] at htokens

theorem runContent_squeezed {dialect : Dialect} {c : List TableSpec × List Rule}
    (hls : runContent dialect ls = .ok c) (h : squeezedOf ks = squeezedOf ls) :
    runContent dialect ks = .ok c := by
  cases ls with
  | nil =>
    obtain rfl : ks = [] := List.map_eq_nil_iff.mp h
    exact hls
  | cons l ls =>
    obtain ⟨k, ks, rfl, hk, hks⟩ := List.map_eq_cons_iff.mp h
    have hagrees := Statement.agrees_read (s := ⟨l, ls⟩) (t := ⟨k, ks⟩) (token_of_squeezed hk).symm
      (similar_of_squeezed dialect hks.symm)
    have hls : (Statement.read dialect ⟨l, ls⟩).map Document.content = .ok c := hls
    cases hread : Statement.read dialect ⟨l, ls⟩ with
    | error fault =>
      rw [hread] at hls
      cases hls
    | ok part =>
      rw [hread] at hls
      cases hls
      obtain ⟨part', hpart', hcontent⟩ := hagrees.exists_ok hread
      rw [hcontent]
      exact runContent_of_read hpart'

/-- Lexemes with the same comments in their gaps are split alike, and the runs say the same. -/
theorem Splits.exists_squeezed {dialect : Dialect} {rs : List (List Lexeme)}
    {cs : List (List TableSpec × List Rule)} (hrs : Splits ls rs)
    (hcs : List.Forall₂ (fun run c => runContent dialect run = .ok c) rs cs)
    (h : squeezedOf ks = squeezedOf ls) :
    ∃ qs, Splits ks qs ∧ List.Forall₂ (fun run c => runContent dialect run = .ok c) qs cs := by
  induction hrs generalizing ks cs with
  | @last run rest hrun hrest =>
    rw [squeezedOf_append] at h
    obtain ⟨run', rest', rfl, hrun', hrest'⟩ := List.map_eq_append_iff.mp h
    obtain ⟨c, more, hc, hmore, rfl⟩ := List.forall₂_cons_left_iff.mp hcs
    cases hmore
    refine ⟨[run'], .last (hrun.congr (tokensOf_squeezed hrun')) fun k hk => ?_,
      .cons (runContent_squeezed hc hrun') .nil⟩
    cases rest' with
    | nil => cases hk
    | cons k' rest' =>
      cases hk
      obtain ⟨l, rest, rfl, hl, -⟩ := List.map_eq_cons_iff.mp hrest'.symm
      rw [← token_of_squeezed hl]
      exact hrest l rfl
  | @cons run rest l rs hrun hl _ ih =>
    rw [squeezedOf_append] at h
    obtain ⟨run', rest', rfl, hrun', hrest'⟩ := List.map_eq_append_iff.mp h
    obtain ⟨k, rest', rfl, hk, hrest'⟩ := List.map_eq_cons_iff.mp hrest'
    obtain ⟨c, more, hc, hmore, rfl⟩ := List.forall₂_cons_left_iff.mp hcs
    obtain ⟨qs, hqs, hcontents⟩ := ih hmore hrest'
    exact ⟨run' :: qs, .cons (hrun.congr (tokensOf_squeezed hrun'))
      ((token_of_squeezed hk).trans hl) hqs, .cons (runContent_squeezed hc hrun') hcontents⟩

/-- A script says what lexemes say that have the same comments in their gaps. -/
theorem Document.exists_ofScript_squeezed {text : String} {choice : DialectChoice}
    {rs : List (List Lexeme)} {cs : List (List TableSpec × List Rule)}
    (hks : tokenize text = .ok ks) (h : squeezedOf ks = squeezedOf ls) (hrs : Splits ls rs)
    (hcs : List.Forall₂ (fun run c => runContent (choice.resolve ls) run = .ok c) rs cs) :
    ∃ d, ofScript text choice = .ok d ∧ d.content = joinContents cs := by
  have hresolve : choice.resolve ks = choice.resolve ls := by
    refine choice.resolve_congr ((forall₂_of_map_eq h.symm).imp fun k l hkl => ?_)
    exact ⟨(token_of_squeezed hkl.2.2).symm, (congrArg Piece.text hkl.2.2).symm⟩
  obtain ⟨qs, hqs, hcs⟩ := hrs.exists_squeezed hcs h
  exact exists_ofScript_iff.mpr ⟨ks, qs, cs, hks, hqs, by rwa [hresolve], rfl⟩

end

/-! ## Bodies of tables -/

/-- The lexemes lead into the body of the table: they end with the parenthesis that opens it. -/
def OpensBody (table : String) (opened rest : List Lexeme) : Prop :=
  ∃ lead create head, opened = lead ++ create :: head ∧ AtStart .semicolon lead ∧
    create.token = .keyword .create ∧ readHead (head ++ rest) = .ok (table, rest)

section

variable {dialect : Dialect} {table : String} {head : List Lexeme} {create : Lexeme}

theorem runContent_create {c : List TableSpec × List Rule}
    (hcreate : create.token = .keyword .create) :
    runContent dialect (create :: head) = .ok c ↔
      ∃ a, readCreate dialect head = .ok a ∧ c = createContent a := by
  show (Statement.read dialect ⟨create, head⟩).map _ = .ok c ↔ _
  unfold Statement.read
  simp only [hcreate]
  cases readCreate dialect head with
  | error fault => exact ⟨nofun, nofun⟩
  | ok a =>
    show Except.ok _ = _ ↔ _
    rw [content_create ⟨create, head⟩ a]
    constructor
    · intro h
      cases h
      exact ⟨a, rfl, rfl⟩
    · rintro ⟨_, ha, rfl⟩
      cases ha
      rfl

/-- The lexemes of a statement up to the body of its table. -/
theorem depthOver_create {breaks : Token → Bool}
    (hbreaks : ∀ t, breaks t = true → isDivider t = true)
    (hcreate : create.token = .keyword .create)
    (hhead : ∃ plain opening, head = plain ++ [opening] ∧ opening.token = .leftParen ∧
      ∀ l ∈ plain, isDivider l.token = false) : depthOver breaks 0 (create :: head) = some 1 := by
  obtain ⟨plain, opening, rfl, hopening, hplain⟩ := hhead
  refine depthOver_cons_of_nest (d := 0) ?_ ?_
  · exact nest_of_isDivider hbreaks (by rw [hcreate]; rfl) 0
  · refine depthOver_append (depthOver_of_isDivider hbreaks hplain 0) ?_
    exact depthOver_cons_of_nest (by rw [hopening]; rfl) rfl

theorem isDivider_of_isSemicolon (t : Token) (h : isSemicolon t = true) : isDivider t = true := by
  rw [of_decide_eq_true h]
  rfl

/-- Another body in its place, the run of a table says what that body does, and the other runs stay
what they are. -/
theorem exists_body {opened ls : List Lexeme} {rs : List (List Lexeme)}
    {cs : List (List TableSpec × List Rule)} (hopened : OpensBody table opened ls)
    (hne : nextToken ls ≠ .rightParen) (hinside : ∀ l ∈ opened, l.token ≠ .eof)
    (hrs : Splits (opened ++ ls) rs) (hseen : ∀ run ∈ rs, MarksSeen run)
    (hcs : List.Forall₂ (fun run c => runContent dialect run = .ok c) rs cs) :
    ∃ inner close rest b before after, ls = inner ++ close :: rest ∧ close.token = .rightParen ∧
      ReadsItems dialect [] inner b ∧ cs = before ++ createContent (table, b) :: after ∧
      ∀ inner' b', ReadsBody dialect inner' b' → (∀ l ∈ inner', l.token ≠ .eof) →
        ∃ qs, Splits (opened ++ (inner' ++ close :: rest)) qs ∧
          List.Forall₂ (fun run c => runContent dialect run = .ok c) qs
            (before ++ createContent (table, b') :: after) := by
  obtain ⟨lead, create, head, rfl, hlead, hcreate, hhead⟩ := hopened
  obtain ⟨hplain, hheads⟩ := readHead_append hhead
  rw [List.append_assoc] at hrs
  obtain ⟨before, others, rfl, hothers, hlater⟩ :=
    hrs.exists_of_append hlead fun l hl => hinside l (List.mem_append_left _ hl)
  obtain ⟨before', cs', hbefore, hcs', rfl⟩ := exists_append_of_forall₂ hcs
  have hdepth := depthOver_create isDivider_of_isSemicolon hcreate hplain
  obtain ⟨body, left, more, rfl, rfl, hrun, hfirst⟩ :=
    hothers.exists_first hdepth fun l hl => hinside l (List.mem_append_right _ hl)
  obtain ⟨c, after, hc, hafter, rfl⟩ := List.forall₂_cons_left_iff.mp hcs'
  obtain ⟨⟨name, b⟩, hread, rfl⟩ := (runContent_create hcreate).mp hc
  have hbody : nextToken body ≠ .rightParen := by
    cases body with
    | nil => exact nofun
    | cons l body => exact hne
  have hbodySeen : MarksSeen body := by
    refine (hseen _ (List.mem_append_right _ List.mem_cons_self)).of_suffix ?_
    exact List.suffix_append (create :: head) body
  obtain ⟨inner, close, rest, rfl, hclose, hinner, hitems, rfl⟩ :=
    exists_readsItems_of_readCreate hheads hread hbody hbodySeen
  refine ⟨inner, close, rest ++ left, b, before', after, by simp, hclose, hitems, rfl, ?_⟩
  intro inner' b' hreads hinside'
  have hend : depthOver isSemicolon 1 (close :: rest) = some 0 := by
    obtain ⟨d, hd, hall⟩ := exists_depthOver_of_append hrun.closed
    cases hdepth.symm.trans hd
    obtain ⟨d, hd, hall⟩ := exists_depthOver_of_append hall
    cases (depthOver_inside hinner 0).symm.trans hd
    exact hall
  have hrun' : IsRun (create :: head ++ (inner' ++ close :: rest)) := by
    constructor
    · exact depthOver_append hdepth (depthOver_append (depthOver_inside hreads.closed 0) hend)
    · intro l hl
      rcases List.mem_append.mp hl with hl | hl
      · exact hrun.inside l (List.mem_append_left _ hl)
      · rcases List.mem_append.mp hl with hl | hl
        · exact hinside' l hl
        · exact hrun.inside l (List.mem_append_right _ (List.mem_append_right _ hl))
  refine ⟨before ++ (create :: head ++ (inner' ++ close :: rest)) :: more, ?_,
    List.rel_append hbefore (.cons ?_ hafter)⟩
  · have hsplits := hlater (hfirst hrun')
    simpa using hsplits
  · exact (runContent_create hcreate).mpr
      ⟨_, readCreate_of_readsBody hheads hreads hclose rest, rfl⟩

end

end Sql
end Schemata
