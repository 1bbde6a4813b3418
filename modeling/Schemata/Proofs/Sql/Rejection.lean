/-
Scripts that are rejected.  Each error quotes a part of the script that begins where a statement
may, and points to a lexeme in it; the part is that of the statement at fault.  A constraint is
looked up after the script was read, but it keeps the quotation of the statement that it is from.
-/
import Schemata.Proofs.Sql.BodyItems
import Schemata.Proofs.Sql.Faults
import Schemata.Proofs.Sql.ImportedNames
import Schemata.Proofs.Sql.Indexed.Splitting
import Schemata.Proofs.Sql.TableStatements
import Schemata.Proofs.Sql.Unresolved

namespace Schemata
namespace Sql

open Text (Position slice?)

/-! ## Where statements begin -/

/-- The lexeme is a semicolon, and all parentheses in front of it are closed. -/
def Divides (front : List Lexeme) (l : Lexeme) : Prop :=
  l.token = .semicolon ∧ Closed (fun _ => false) front

/-- A statement may begin behind these lexemes, which are all that stand in front of it. -/
inductive StartsStatement : List Lexeme → Prop
  | first : StartsStatement []
  | next {front : List Lexeme} {l : Lexeme} (h : Divides front l) : StartsStatement (front ++ [l])

/-- The run begins where a statement may, and goes no further than a statement. -/
structure BeginsStatement (ls run : List Lexeme) : Prop where
  placed : ∃ before after, ls = before ++ run ++ after ∧ StartsStatement before
  single : ∀ front l back, run = front ++ l :: back → ¬ Divides front l
  inside : ∀ l ∈ run, l.token ≠ .eof

section

variable {ls run rest bad before : List Lexeme} {l : Lexeme} {d : Nat}

theorem StartsStatement.behind (h : StartsStatement before) (hl : Divides run l) :
    StartsStatement (run ++ l :: before) := by
  cases h with
  | first => exact .next hl
  | @next front k hk =>
    have hfront : Closed (fun _ => false) (l :: front) := by
      refine depthOver_cons_of_nest (nest_of_ne ?_ ?_ fun _ => rfl) hk.2
      all_goals simp [hl.1]
    rw [← List.cons_append, ← List.append_assoc]
    exact .next ⟨hk.1, hl.2.append hfront⟩

theorem BeginsStatement.behind (h : BeginsStatement rest bad) (hl : Divides run l) :
    BeginsStatement (run ++ l :: rest) bad := by
  obtain ⟨before, after, rfl, hbefore⟩ := h.placed
  exact ⟨⟨run ++ l :: before, after, by simp, hbefore.behind hl⟩, h.single, h.inside⟩

/-- Nothing divides lexemes in which no semicolon stands outside of parentheses. -/
theorem not_divides_of_depthOver (h : depthOver isSemicolon 0 run = some d)
    {front back : List Lexeme} (hrun : run = front ++ l :: back) : ¬ Divides front l := by
  rintro ⟨hl, hfront⟩
  subst hrun
  refine not_closed_of_nest hfront ?_ h
  rw [hl]
  rfl

theorem not_divides_of_append {k : Lexeme}
    (h : ∀ front l back, run = front ++ l :: back → ¬ Divides front l)
    (hk : k.token ≠ .semicolon) {front back : List Lexeme}
    (hrun : run ++ [k] = front ++ l :: back) : ¬ Divides front l := by
  rcases List.eq_nil_or_concat' back with rfl | ⟨back, b, rfl⟩
  · obtain ⟨-, hkl⟩ := List.append_inj' hrun rfl
    rw [← List.head_eq_of_cons_eq hkl]
    exact fun hdivides => hk hdivides.1
  · rw [← List.cons_append, ← List.append_assoc] at hrun
    exact h front l back (List.append_inj' hrun rfl).1

theorem BeginsStatement.of_depthOver (h : depthOver isSemicolon 0 run = some d)
    (hinside : ∀ l ∈ run, l.token ≠ .eof) (rest : List Lexeme) :
    BeginsStatement (run ++ rest) run :=
  ⟨⟨[], rest, rfl, .first⟩, fun _ _ _ => not_divides_of_depthOver h, hinside⟩

theorem Splits.begins {rs : List (List Lexeme)} (h : Splits ls rs) :
    ∀ run ∈ rs, BeginsStatement ls run := by
  induction h with
  | @last run rest hrun _ =>
    rw [List.forall_mem_singleton]
    exact .of_depthOver hrun.closed hrun.inside rest
  | @cons run rest l rs hrun hl _ ih =>
    refine List.forall_mem_cons.mpr ⟨.of_depthOver hrun.closed hrun.inside _, ?_⟩
    intro other hother
    exact (ih other hother).behind ⟨hl, depthOver_unbroken hrun.closed⟩

/-! ## Parentheses that do not balance -/

/-- The error is that of a breach which shows in a run of the lexemes, at one of them. -/
def Refuses (ls : List Lexeme) (e : ImportError) : Prop :=
  ∃ fault run position, e = runFault fault run position ∧ (Cause.malformed fault).isLocal ∧
    BeginsStatement ls run ∧ ∃ l ∈ run, l.position = position

theorem Refuses.behind {e : ImportError} (h : Refuses rest e) (hl : Divides run l) :
    Refuses (run ++ l :: rest) e := by
  obtain ⟨fault, bad, position, he, hlocal, hbegins, hposition⟩ := h
  exact ⟨fault, bad, position, he, hlocal, hbegins.behind hl, hposition⟩

/-- The run begins a statement in which just these parentheses are open. -/
structure Unfinished (opened : List Position) (run : List Lexeme) : Prop where
  depth : depthOver isSemicolon 0 run = some opened.length
  inside : ∀ l ∈ run, l.token ≠ .eof
  placed : ∀ p ∈ opened, ∃ l ∈ run, l.position = p

variable {opened opened' : List Position}

theorem Unfinished.nil : Unfinished [] [] := ⟨depthOver_nil 0, by simp, by simp⟩

/-- A lexeme joins the run, and any parenthesis that it opens is the lexeme. -/
theorem Unfinished.push (h : Unfinished opened run) (hl : RunsOn l opened opened') :
    Unfinished opened' (run ++ [l]) where
  depth := depthOver_append h.depth (depthOver_cons_of_nest hl.nest_eq rfl)
  inside := by
    rw [List.forall_mem_append, List.forall_mem_singleton]
    exact ⟨h.inside, hl.ne_eof⟩
  placed := by
    intro p hp
    rcases List.mem_cons.mp (hl.subset hp) with rfl | hp
    · exact ⟨l, by simp, rfl⟩
    · obtain ⟨k, hk, hposition⟩ := h.placed p hp
      exact ⟨k, List.mem_append_left _ hk, hposition⟩

theorem Unfinished.begins (h : Unfinished opened run) (rest : List Lexeme) :
    BeginsStatement (run ++ rest) run := .of_depthOver h.depth h.inside rest

theorem refuses_of_endRuns (hrun : Unfinished opened run) {e : ImportError}
    (h : endRuns opened run = .error e) : Refuses (run ++ rest) e := by
  cases opened with
  | nil => cases h
  | cons position opened =>
    cases h
    exact ⟨.unclosedParen, run, position, rfl, rfl, hrun.begins rest,
      hrun.placed position List.mem_cons_self⟩

/-- One parenthesis too many is closed, and all that the run has are closed before. -/
theorem refuses_unbalanced (hrun : Unfinished [] run) (hl : l.token = .rightParen) :
    Refuses (run ++ l :: rest) (runFault .unbalancedParen (run ++ [l]) l.position) := by
  refine ⟨.unbalancedParen, run ++ [l], l.position, rfl, rfl,
    ⟨⟨[], rest, by simp, .first⟩, ?_, ?_⟩, l, by simp, rfl⟩
  · exact fun _ _ _ => not_divides_of_append
      (fun _ _ _ => not_divides_of_depthOver hrun.depth) (by simp [hl])
  · rw [List.forall_mem_append, List.forall_mem_singleton]
    exact ⟨hrun.inside, by simp [hl]⟩

/-- The run so far is unfinished, and so is a new one behind a semicolon outside of parentheses. -/
theorem refuses_of_runs (hrun : Unfinished opened run) {e : ImportError}
    (h : runs opened run ls = .error e) : Refuses (run ++ ls) e := by
  induction ls generalizing opened run e with
  | nil => exact refuses_of_endRuns hrun h
  | cons l rest ih =>
    cases turn l opened with
    | ends hl =>
      rw [runs_of_eof hl] at h
      exact refuses_of_endRuns hrun h
    | runsOn hrunsOn =>
      rw [hrunsOn.runs_eq] at h
      rw [List.append_cons]
      exact ih (hrun.push hrunsOn) h
    | unmatched hl =>
      rw [runs_of_unmatched hl] at h
      cases h
      exact refuses_unbalanced hrun hl
    | divides hl =>
      rw [runs_of_semicolon hl] at h
      cases hrest : runs [] [] rest with
      | error e' =>
        rw [hrest] at h
        cases h
        exact (ih .nil hrest).behind ⟨hl, depthOver_unbroken hrun.depth⟩
      | ok rs =>
        rw [hrest] at h
        cases h

end

theorem refuses_of_splitStatements {ls : List Lexeme} {e : ImportError}
    (h : splitStatements ls = .error e) : Refuses ls e := by
  unfold splitStatements at h
  cases hruns : runs [] [] ls with
  | error e' =>
    rw [hruns] at h
    cases h
    exact refuses_of_runs .nil hruns
  | ok rs =>
    rw [hruns] at h
    cases h

/-! ## Quotations -/

/-- The site quotes the part of the text from the first lexeme of the run through the last one, and
points to a lexeme of the run. -/
structure Site.Quotes (text : String) (run : List Lexeme) (site : Site) : Prop where
  quoted : ∃ first last, run.head? = some first ∧ run.getLast? = some last ∧
    slice? text.toList first.start last.stop = some site.statement.toList
  nonempty : site.statement ≠ ""
  pointed : ∃ l ∈ run, l.position = site.position

theorem BeginsStatement.quotes {text : String} {lexemes run : List Lexeme} {position : Position}
    (h : BeginsStatement lexemes run) (hlexemes : tokenize text = .ok lexemes)
    (hposition : ∃ l ∈ run, l.position = position) :
    (Site.mk (String.ofList (spell run)) position).Quotes text run := by
  obtain ⟨inner, last, rfl, hcovers⟩ := exists_covers_of_tokenize hlexemes
  obtain ⟨before, after, hsplit, -⟩ := h.placed
  have hinner : ∀ l ∈ run, l ∈ inner := by
    intro l hl
    have hmem : l ∈ inner ++ [last] := by
      rw [hsplit]
      exact List.mem_append_left _ (List.mem_append_right _ hl)
    rcases List.mem_append.mp hmem with hmem | hmem
    · exact hmem
    · rw [List.mem_singleton.mp hmem] at hl
      exact absurd hcovers.ending (h.inside last hl)
  cases run with
  | nil =>
    obtain ⟨l, hl, -⟩ := hposition
    cases hl
  | cons l more =>
    have hlast : (l :: more).getLast? = some (more.getLastD l) := by
      rw [List.getLast?_cons, List.getLastD_eq_getLast?]
    refine ⟨⟨l, more.getLastD l, rfl, hlast, ?_⟩, fun hempty => ?_, hposition⟩
    · rw [String.toList_ofList]
      exact hcovers.slice hsplit
    · have htight : Tight (spell (l :: more)) :=
        tight_spell fun k hk => hcovers.tight k (hinner k hk)
      exact htight.ne_nil (String.ofList_eq_empty_iff.mp hempty)

theorem begins_of_splitStatements {lexemes : List Lexeme} {ss : List Statement}
    (h : splitStatements lexemes = .ok ss) : ∀ s ∈ ss, BeginsStatement lexemes s.lexemes := by
  obtain ⟨rs, hrs, hmem⟩ := exists_splits_of_splitStatements h
  exact fun s hs => hrs.begins _ (hmem s hs)

/-! ## Statements at fault -/

theorem Document.ofStatements_eq_error {dialect : Dialect} {ss : List Statement} {e : ImportError}
    (h : ofStatements dialect ss = .error e) :
    ∃ s ∈ ss, ∃ fault, s.read dialect = .error fault ∧ e = s.reject fault := by
  induction ss with
  | nil => cases h
  | cons s ss ih =>
    rw [ofStatements] at h
    split at h
    · next fault hs =>
      cases h
      exact ⟨s, List.mem_cons_self, fault, hs, rfl⟩
    · rcases error_of_bind h with hmore | ⟨more, -, h⟩
      · obtain ⟨s', hs', hread⟩ := ih hmore
        exact ⟨s', List.mem_cons_of_mem s hs', hread⟩
      · cases h

/-- The statement creates a table of a name that exactly one of the earlier statements gave to a
table; these gave no name twice. -/
def Statement.RepeatsTable (dialect : Dialect) (earlier : List Statement) (s : Statement)
    (name : String) : Prop :=
  ∃ ds d, List.Forall₂ (Statement.Defines dialect) (earlier.filter (·.creates)) ds ∧
    (ds.map (·.name)).Nodup ∧ name ∈ ds.map (·.name) ∧ s.Defines dialect d ∧ d.name = name

/-- A constraint of the statement, at the site, is the first that is applied and misses something,
and what it misses is what the reference describes. -/
def Statement.MissesAt (dialect : Dialect) (d : Document) (s : Statement) (site : Site)
    (reference : Reference) : Prop :=
  ∃ part k, s.read dialect = .ok part ∧ k ∈ part.constraints ∧ k.site = site ∧
    d.MissesAt k reference

theorem Document.RepeatsAt.exists_statement {dialect : Dialect} {ss : List Statement}
    {parts : List Document} {front : List TableDef} {t : TableDef}
    (h : (Document.join parts).RepeatsAt front t)
    (hparts : List.Forall₂ (fun s part => Statement.read dialect s = .ok part) ss parts) :
    ∃ earlier s later, ss = earlier ++ s :: later ∧ s.RepeatsTable dialect earlier t.name ∧
      t.site = ⟨s.text, s.position⟩ := by
  obtain ⟨⟨back, hsplit⟩, hnodup, hmem⟩ := h
  have htables := (tables_of_parts hparts).flip
  rw [hsplit] at htables
  obtain ⟨ks, ls, hks, hls, hss⟩ := exists_append_of_forall₂ htables
  obtain ⟨s, ls, hs, -, rfl⟩ := List.forall₂_cons_left_iff.mp hls
  -- The statements that create a table are some of all.
  obtain ⟨earlier, others, rfl, rfl, hothers⟩ := List.filter_eq_append_iff.mp hss
  obtain ⟨more, later, rfl, hmore, -, -⟩ := List.filter_eq_cons_iff.mp hothers
  have hfilter : (earlier ++ more).filter (·.creates) = earlier.filter (·.creates) := by
    rw [List.filter_append, List.filter_eq_nil_iff.mpr hmore, List.append_nil]
  refine ⟨earlier ++ more, s, later, by simp, ⟨front, t, ?_, hnodup, hmem, hs, rfl⟩, ?_⟩
  · rw [hfilter]
    exact hks.flip
  · obtain ⟨constraints, -, hsite⟩ := hs
    exact hsite

theorem Document.MissesAt.exists_statement {dialect : Dialect} {ss : List Statement}
    {parts : List Document} {k : ConstraintDef} {reference : Reference}
    (h : (Document.join parts).MissesAt k reference)
    (hparts : List.Forall₂ (fun s part => Statement.read dialect s = .ok part) ss parts) :
    ∃ s ∈ ss, s.MissesAt dialect (Document.join parts) k.site reference := by
  obtain ⟨part, hpart, hk⟩ := List.mem_flatMap.mp (mem_constraints_of_missesAt h)
  obtain ⟨s, hs, hread⟩ := exists_left_of_forall₂ hparts part hpart
  exact ⟨s, hs, part, k, hread, hk, rfl, h⟩

theorem Statement.MissesAt.quotes {dialect : Dialect} {d : Document} {s : Statement} {site : Site}
    {reference : Reference} (h : s.MissesAt dialect d site reference) {text : String}
    {lexemes : List Lexeme} (hbegins : BeginsStatement lexemes s.lexemes)
    (hlexemes : tokenize text = .ok lexemes) : site.Quotes text s.lexemes := by
  obtain ⟨part, k, hread, hk, rfl, -⟩ := h
  obtain ⟨htext, hposition⟩ := Statement.site_of_read hread k hk
  rw [show k.site = ⟨s.text, k.site.position⟩ from congrArg (Site.mk · _) htext]
  exact hbegins.quotes hlexemes hposition

/-! ## Scripts -/

/-- If a table is there already, then the run is that of the second statement to create a table of
the name; and if something is not there, then it is that of a statement with a constraint that
misses it. -/
structure Blames (options : ImportOptions) (text : String) (lexemes run : List Lexeme)
    (cause : Cause) (site : Site) : Prop where
  repeats : ∀ name, cause = .malformed (.duplicateTable name) →
    ∃ earlier s later, splitStatements lexemes = .ok (earlier ++ s :: later) ∧ s.lexemes = run ∧
      s.RepeatsTable (options.dialect.resolve lexemes) earlier name
  misses : ∀ reference, cause = .unresolved reference →
    ∃ d ss s, Document.ofScript text options.dialect = .ok d ∧ splitStatements lexemes = .ok ss ∧
      s ∈ ss ∧ s.lexemes = run ∧ s.MissesAt (options.dialect.resolve lexemes) d site reference

theorem Blames.of_isLocal {options : ImportOptions} {text : String} {lexemes run : List Lexeme}
    {cause : Cause} {site : Site} (h : cause.isLocal) :
    Blames options text lexemes run cause site := by
  refine ⟨fun name hcause => ?_, fun reference hcause => ?_⟩
  all_goals
    rw [hcause] at h
    cases h

/-- A script that is not read is rejected for a cause of one statement, or of the beginning of
one. -/
theorem quotes_of_ofScript {text : String} {choice : DialectChoice} {cause : Cause} {site : Site}
    (h : Document.ofScript text choice = .error (.rejected cause site)) :
    ∃ lexemes run, tokenize text = .ok lexemes ∧ BeginsStatement lexemes run ∧
      site.Quotes text run ∧ cause.isLocal := by
  unfold Document.ofScript at h
  split at h
  · cases h
  next lexemes hlexemes =>
  rcases error_of_bind h with hss | ⟨ss, hss, h⟩
  · obtain ⟨fault, run, position, he, hlocal, hbegins, hposition⟩ := refuses_of_splitStatements hss
    cases he
    exact ⟨lexemes, run, hlexemes, hbegins, hbegins.quotes hlexemes hposition, hlocal⟩
  · obtain ⟨s, hs, fault, hread, he⟩ := Document.ofStatements_eq_error h
    cases he
    have hbegins := begins_of_splitStatements hss s hs
    have hposition : ∃ l ∈ s.lexemes, l.position = fault.position.getD s.last.position := by
      cases hp : fault.position with
      | none => exact ⟨s.last, List.getLastD_mem_cons, rfl⟩
      | some p => exact Statement.position_of_read hread p hp
    exact ⟨lexemes, s.lexemes, hlexemes, hbegins, hbegins.quotes hlexemes hposition,
      Statement.failsLocally_read _ s fault hread⟩

/-- An error that rejects a script quotes a statement of it, or the beginning of one, and points to
a lexeme there; and the statement is the one to blame. -/
theorem schemaOf_rejected {options : ImportOptions} {text : String} {cause : Cause} {site : Site}
    (h : schemaOf options text = .error (.rejected cause site)) :
    ∃ lexemes run, tokenize text = .ok lexemes ∧ BeginsStatement lexemes run ∧
      site.Quotes text run ∧ Blames options text lexemes run cause site := by
  rcases error_of_bind h with hscript | ⟨d, hscript, h⟩
  · obtain ⟨lexemes, run, hlexemes, hbegins, hquotes, hlocal⟩ := quotes_of_ofScript hscript
    exact ⟨lexemes, run, hlexemes, hbegins, hquotes, .of_isLocal hlocal⟩
  obtain ⟨lexemes, ss, parts, hlexemes, hss, hparts, rfl⟩ := Document.ofScript_eq_ok.mp hscript
  have hcolumns := Document.columnsDistinct_ofScript hscript
  rcases Document.toSchema_eq_error hcolumns h with
    ⟨front, t, hrepeats, he⟩ | ⟨k, reference, hmisses, he⟩
  · cases he
    obtain ⟨earlier, s, later, rfl, hs, hsite⟩ := hrepeats.exists_statement hparts
    have hbegins := begins_of_splitStatements hss s (by simp)
    refine ⟨lexemes, s.lexemes, hlexemes, hbegins, ?_, fun name hname => ?_, nofun⟩
    · rw [hsite]
      exact hbegins.quotes hlexemes ⟨s.first, List.mem_cons_self, rfl⟩
    · cases hname
      exact ⟨earlier, s, later, hss, rfl, hs⟩
  · cases he
    obtain ⟨s, hs, hmissesAt⟩ := hmisses.exists_statement hparts
    have hbegins := begins_of_splitStatements hss s hs
    refine ⟨lexemes, s.lexemes, hlexemes, hbegins, hmissesAt.quotes hbegins hlexemes, nofun,
      fun reference' hreference => ?_⟩
    cases hreference
    exact ⟨_, ss, s, hscript, hss, hs, rfl, hmissesAt⟩

/-- A semicolon in parentheses, one in a comment, and one behind no statement.  The third statement
refers to a table that is not there. -/
def dangling : String :=
  "CREATE TABLE a (x INT CHECK (x; x)); -- b;\n;\n" ++
    "  CREATE TABLE b (y INT, FOREIGN KEY (y) REFERENCES c (x)) ;"

def danglingSite : Site :=
  ⟨"CREATE TABLE b (y INT, FOREIGN KEY (y) REFERENCES c (x))", ⟨3, 26⟩⟩

theorem schemaOf_rejected_dangling :
    schemaOf {} dangling = .error (.rejected (.unresolved (.table "c")) danglingSite) ∧
      ∃ lexemes run, tokenize dangling = .ok lexemes ∧ BeginsStatement lexemes run ∧
        danglingSite.Quotes dangling run ∧
        Blames {} dangling lexemes run (.unresolved (.table "c")) danglingSite := by
  have h : schemaOf {} dangling =
      .error (.rejected (.unresolved (.table "c")) danglingSite) := by decide +kernel
  exact ⟨h, schemaOf_rejected h⟩

end Sql
end Schemata
