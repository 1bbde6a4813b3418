/-
Spacing does not change what a script means.  Scripts with the same lexemes are split, read and
resolved alike, whatever blanks and comments stand between them.  The exception is a comment in the
parameters of a type of the dialect mysql: it takes part in the name of the type, and the parameters
of the type `TINYINT` count.
-/
import Schemata.Proofs.Sql.Detection
import Schemata.Proofs.Sql.TypeComments
import Schemata.Sql.Import

namespace Schemata
namespace Sql

open Text (Position)
open Relocation (nowhere)

/-! ## Splitting -/

section

variable {dialect : Dialect}

theorem agrees_endRuns {opened opened' : List Position} {run run' : List Lexeme}
    (hopened : opened.length = opened'.length) (h : Respaced dialect run run') :
    Agrees ImportError.kind (List.Forall₂ (Respaced dialect)) (endRuns opened run)
      (endRuns opened' run') := by
  match opened, opened', hopened with
  | [], [], _ => exact .ok (.cons h .nil)
  | _ :: _, _ :: _, _ => exact .error rfl

/-- The runs so far are of the same length, and the same number of parentheses is open in them. -/
theorem agrees_runs {opened opened' : List Position} {run run' ls ks : List Lexeme}
    (hopened : opened.length = opened'.length) (hrun : run.length = run'.length)
    (h : Respaced dialect (run ++ ls) (run' ++ ks)) :
    Agrees ImportError.kind (List.Forall₂ (Respaced dialect)) (runs opened run ls)
      (runs opened' run' ks) := by
  induction ls generalizing opened opened' run run' ks with
  | nil =>
    obtain ⟨hruns, hrest⟩ := h.of_append hrun
    obtain rfl : ks = [] := List.map_eq_nil_iff.mp hrest.unplaced_eq.symm
    exact agrees_endRuns hopened hruns
  | cons l ls ih =>
    obtain ⟨hruns, hrest⟩ := h.of_append hrun
    cases ks with
    | nil => cases hrest.unplaced_eq
    | cons k ks =>
      obtain ⟨htoken, -, -⟩ := of_unplaced_cons hrest.unplaced_eq
      cases turn l opened with
      | ends hl =>
        rw [runs_of_eof hl, runs_of_eof (htoken ▸ hl)]
        exact agrees_endRuns hopened hruns
      | runsOn hrunsOn =>
        -- Both lexemes join the runs, which leaves as many parentheses open.
        have hnest := hrunsOn.nest_eq
        rw [hopened, htoken] at hnest
        obtain ⟨opened'', hopened', hrunsOn'⟩ :=
          RunsOn.exists_of_nest (htoken ▸ hrunsOn.ne_eof) hnest
        rw [hrunsOn.runs_eq, hrunsOn'.runs_eq]
        refine ih hopened'.symm ?_ (by rwa [← List.append_cons, ← List.append_cons])
        rw [List.length_append, List.length_append, hrun]
        rfl
      | unmatched hl =>
        obtain rfl : opened' = [] := List.length_eq_zero_iff.mp hopened.symm
        rw [runs_of_unmatched hl, runs_of_unmatched (htoken ▸ hl)]
        exact .error rfl
      | divides hl =>
        obtain rfl : opened' = [] := List.length_eq_zero_iff.mp hopened.symm
        rw [runs_of_semicolon hl, runs_of_semicolon (htoken ▸ hl)]
        have hafter : Respaced dialect ([] ++ ls) ([] ++ ks) := hrest.tail
        exact (ih rfl rfl hafter).map fun _ _ hrs => .cons hruns hrs

theorem respaced_ofLexemes? {rs rs' : List (List Lexeme)}
    (h : List.Forall₂ (Respaced dialect) rs rs') :
    List.Forall₂ (fun s t : Statement => Respaced dialect s.lexemes t.lexemes)
      (rs.filterMap Statement.ofLexemes?) (rs'.filterMap Statement.ofLexemes?) := by
  induction h with
  | nil => exact .nil
  | @cons run run' rs rs' hrun _ ih =>
    match run, run', hrun with
    | [], [], _ => exact ih
    | [], _ :: _, hrun => cases hrun.unplaced_eq
    | _ :: _, [], hrun => cases hrun.unplaced_eq
    | _ :: _, _ :: _, hrun => exact .cons hrun ih

theorem agrees_splitStatements {ls ks : List Lexeme} (h : Respaced dialect ls ks) :
    Agrees ImportError.kind
      (List.Forall₂ fun s t : Statement => Respaced dialect s.lexemes t.lexemes)
      (splitStatements ls) (splitStatements ks) := by
  have hruns : Agrees ImportError.kind (List.Forall₂ (Respaced dialect)) (runs [] [] ls)
      (runs [] [] ks) := agrees_runs rfl rfl h
  exact hruns.map fun _ _ => respaced_ofLexemes?

/-! ## Reading -/

theorem kind_reject (s : Statement) (fault : Fault) : (s.reject fault).kind = fault.kind :=
  kind_rejected ..

theorem Document.content_append {d d' e e' : Document} (h : d.content = d'.content)
    (h' : e.content = e'.content) : (d ++ e).content = (d' ++ e').content := by
  obtain ⟨hspecs, hrules⟩ := Prod.mk.inj h
  obtain ⟨hspecs', hrules'⟩ := Prod.mk.inj h'
  rw [content, content, specs_append, specs_append, rules_append, rules_append, hspecs, hspecs',
    hrules, hrules']

theorem agrees_ofStatements {ss ts : List Statement}
    (h : List.Forall₂ (fun s t : Statement => Respaced dialect s.lexemes t.lexemes) ss ts) :
    Agrees ImportError.kind (fun d e => d.content = e.content) (Document.ofStatements dialect ss)
      (Document.ofStatements dialect ts) := by
  induction h with
  | nil => exact .ok rfl
  | @cons s t ss ts hst _ ih =>
    obtain ⟨hfirst, -, -⟩ := of_unplaced_cons hst.unplaced_eq
    have hothers : Similar dialect s.others t.others := hst.tail.similar
    have hread := Statement.agrees_read hfirst hothers
    rw [Document.ofStatements, Document.ofStatements]
    generalize s.read dialect = x, t.read dialect = y at hread
    cases hread with
    | ok hcontent => exact ih.bind fun _ _ _ _ hmore => .ok (Document.content_append hcontent hmore)
    | error hkind => exact .error (by rw [kind_reject, kind_reject, hkind])

theorem unplaced_of_forall₂ {ls ks : List Lexeme}
    (h : List.Forall₂ (fun l k => l.token = k.token ∧ l.text = k.text) ls ks) :
    nowhere.lexemes ls = nowhere.lexemes ks := by
  induction h with
  | nil => rfl
  | @cons l k ls ks hlk _ ih =>
    rw [nowhere.lexemes_cons, nowhere.lexemes_cons, ih, Relocation.lexeme, Relocation.lexeme, hlk.1,
      hlk.2]
    rfl

end

theorem DialectChoice.resolve_congr (choice : DialectChoice) {ls ks : List Lexeme}
    (h : List.Forall₂ (fun l k => l.token = k.token ∧ l.text = k.text) ls ks) :
    choice.resolve ls = choice.resolve ks :=
  choice.resolve_of_cues (by rw [Dialect.cues_congr h])

theorem agrees_ofScript {choice : DialectChoice} {text text' : String} {ls ks : List Lexeme}
    (hls : tokenize text = .ok ls) (hks : tokenize text' = .ok ks)
    (h : List.Forall₂ (fun l k => l.token = k.token ∧ l.text = k.text) ls ks)
    (hcomments : choice.resolve ls = .mysql → tinyintComments ls = tinyintComments ks) :
    Agrees ImportError.kind (fun d e => d.content = e.content) (Document.ofScript text choice)
      (Document.ofScript text' choice) := by
  have hrespaced : Respaced (choice.resolve ls) ls ks :=
    ⟨unplaced_of_forall₂ h, hcomments, verbatim_tokenize hls⟩
  rw [Document.ofScript, Document.ofScript, hls, hks]
  dsimp only
  rw [← choice.resolve_congr h]
  exact (agrees_splitStatements hrespaced).bind fun _ _ _ _ hss => agrees_ofStatements hss

/-! ## Resolving -/

theorem declareTable_congr (s : Schema) {d e : TableDef} (h : d.spec = e.spec) :
    declareTable s d = declareTable s e := by
  have hspec : ∀ d : TableDef, declareTable s d =
      d.spec.columns.foldl (fun t c => (t.insertColumn (s.addTable d.spec.name none).2 c).1)
        (s.addTable d.spec.name none).1 := by
    intro d
    rw [declareTable, TableDef.spec, List.foldl_map]
  rw [hspec, hspec, h]

theorem agrees_declareTables (s : Schema) {ds es : List TableDef}
    (h : ds.map TableDef.spec = es.map TableDef.spec) :
    Agrees ImportError.kind Eq (declareTables s ds) (declareTables s es) := by
  induction ds generalizing s es with
  | nil =>
    obtain rfl : es = [] := List.map_eq_nil_iff.mp h.symm
    exact .ok rfl
  | cons d ds ih =>
    cases es with
    | nil => cases h
    | cons e es =>
      obtain ⟨hhead, htail⟩ : d.spec = e.spec ∧ ds.map TableDef.spec = es.map TableDef.spec :=
        List.cons.inj h
      have hname : d.name = e.name := congrArg TableSpec.name hhead
      rw [declareTables, declareTables, hname, declareTable_congr s hhead]
      exact .ite .rfl (.error rfl) (ih _ htail)

theorem agrees_applyAll {step : Schema → ConstraintDef → Except Reference Schema}
    (hstep : ∀ s d e, d.rule = e.rule → step s d = step s e) (s : Schema)
    {ds es : List ConstraintDef} (h : ds.map ConstraintDef.rule = es.map ConstraintDef.rule) :
    Agrees ImportError.kind Eq (applyAll step s ds) (applyAll step s es) := by
  induction ds generalizing s es with
  | nil =>
    obtain rfl : es = [] := List.map_eq_nil_iff.mp h.symm
    exact .ok rfl
  | cons d ds ih =>
    cases es with
    | nil => cases h
    | cons e es =>
      obtain ⟨hhead, htail⟩ : d.rule = e.rule ∧
          ds.map ConstraintDef.rule = es.map ConstraintDef.rule := List.cons.inj h
      rw [applyAll, applyAll, hstep s d e hhead]
      cases step s e with
      | error reference => exact .error rfl
      | ok s => exact ih s htail

theorem map_rule_filter (p : Constraint → Bool) (ds : List ConstraintDef) :
    (ds.filter (p ·.constraint)).map ConstraintDef.rule =
      (ds.map ConstraintDef.rule).filter (p ·.constraint) := by
  rw [List.filter_map]
  rfl

theorem Document.agrees_toSchema (inferOneToOne : Bool) {d e : Document}
    (h : d.content = e.content) :
    Agrees ImportError.kind Eq (d.toSchema inferOneToOne) (e.toSchema inferOneToOne) := by
  obtain ⟨hspecs, hrules⟩ := Prod.mk.inj h
  have hfilter : ∀ p : Constraint → Bool,
      (d.constraints.filter (p ·.constraint)).map ConstraintDef.rule =
        (e.constraints.filter (p ·.constraint)).map ConstraintDef.rule := by
    intro p
    rw [map_rule_filter, map_rule_filter]
    exact congrArg _ hrules
  have hkey : ∀ s (d e : ConstraintDef), d.rule = e.rule → applyKey s d = applyKey s e := by
    rintro s ⟨table, constraint, site⟩ ⟨_, _, site'⟩ ⟨⟩
    rfl
  have hforeignKey : ∀ s (d e : ConstraintDef), d.rule = e.rule →
      applyForeignKey inferOneToOne s d = applyForeignKey inferOneToOne s e := by
    rintro s ⟨table, constraint, site⟩ ⟨_, _, site'⟩ ⟨⟩
    rfl
  refine (agrees_declareTables .empty hspecs).bind fun s _ _ _ hs => ?_
  subst hs
  refine (agrees_applyAll hkey s (hfilter (!·.isForeignKey))).bind fun s _ _ _ hs => ?_
  subst hs
  exact agrees_applyAll hforeignKey s (hfilter (·.isForeignKey))

/-! ## Scripts -/

/-- Scripts with the same lexemes, which differ only in the blanks and comments between them, are
imported alike: either both give the same diagram, or both are at fault in the same way.  In the
dialect mysql, the comments in the parameters of the type `TINYINT` have to be the same. -/
theorem importScript_respaced {options : ImportOptions} {text text' : String} {ls ks : List Lexeme}
    (hls : tokenize text = .ok ls) (hks : tokenize text' = .ok ks)
    (h : List.Forall₂ (fun l k => l.token = k.token ∧ l.text = k.text) ls ks)
    (hcomments : options.dialect.resolve ls = .mysql →
      tinyintComments ls = tinyintComments ks) :
    (importScript options text).mapError ImportError.kind =
      (importScript options text').mapError ImportError.kind := by
  have hschema : Agrees ImportError.kind Eq (schemaOf options text) (schemaOf options text') :=
    (agrees_ofScript hls hks h hcomments).bind fun _ _ _ _ hcontent =>
      Document.agrees_toSchema options.inferOneToOne hcontent
  refine Agrees.mapError_eq (hschema.bind fun s _ _ _ hs => ?_)
  subst hs
  exact .ok rfl

def lexemesOf (text : String) : List Lexeme := ((tokenize text).toOption).getD []

theorem sameLexemes_of_map_eq {ls ks : List Lexeme}
    (h : ks.map (fun k => (k.token, k.text)) = ls.map fun l => (l.token, l.text)) :
    List.Forall₂ (fun l k => l.token = k.token ∧ l.text = k.text) ls ks :=
  (forall₂_of_map_eq h).imp fun _ _ hlk => Prod.mk.inj hlk.2.2.symm

/-- A truth value, and a number with a comment in its parameters. -/
def spread : String :=
  "CREATE TABLE t (-- two columns\n  x TINYINT ( 1 ),\n  y INT (11 /* digits */)\n)\n"

/-- The same lexemes with hardly a blank. -/
def dense : String := "CREATE TABLE t(x TINYINT(1),y INT(11))"

theorem importScript_respaced_dense :
    tokenize spread = .ok (lexemesOf spread) ∧ tokenize dense = .ok (lexemesOf dense) ∧
      List.Forall₂ (fun l k => l.token = k.token ∧ l.text = k.text) (lexemesOf spread)
        (lexemesOf dense) ∧
      (DialectChoice.auto.resolve (lexemesOf spread) = .mysql →
        tinyintComments (lexemesOf spread) = tinyintComments (lexemesOf dense)) ∧
      (importScript {} spread).mapError ImportError.kind =
        (importScript {} dense).mapError ImportError.kind := by
  have hspread : tokenize spread = .ok (lexemesOf spread) := by decide +kernel
  have hdense : tokenize dense = .ok (lexemesOf dense) := by decide +kernel
  have hsame : List.Forall₂ (fun l k => l.token = k.token ∧ l.text = k.text) (lexemesOf spread)
      (lexemesOf dense) := sameLexemes_of_map_eq (by decide +kernel)
  have hcomments : tinyintComments (lexemesOf spread) = tinyintComments (lexemesOf dense) := by
    decide +kernel
  exact ⟨hspread, hdense, hsame, fun _ => hcomments,
    importScript_respaced hspread hdense hsame fun _ => hcomments⟩

theorem schema_importScript (options : ImportOptions) (text : String) :
    ((importScript options text).mapError ImportError.kind).map Diagram.schema =
      (schemaOf options text).mapError ImportError.kind := by
  rw [importScript]
  cases schemaOf options text <;> rfl

def flag : String := "CREATE TABLE t (x TINYINT(1))"

def flagComment : String := "CREATE TABLE t (x TINYINT(1 /* flag */))"

/-- A comment in the parameters makes a number of a truth value. -/
theorem importScript_flagComment :
    tokenize flagComment = .ok (lexemesOf flagComment) ∧ tokenize flag = .ok (lexemesOf flag) ∧
      List.Forall₂ (fun l k => l.token = k.token ∧ l.text = k.text) (lexemesOf flagComment)
        (lexemesOf flag) ∧
      (importScript {} flagComment).mapError ImportError.kind ≠
        (importScript {} flag).mapError ImportError.kind := by
  refine ⟨by decide +kernel, by decide +kernel, sameLexemes_of_map_eq (by decide +kernel),
    fun h => ?_⟩
  have hschema := congrArg (Except.map Diagram.schema) h
  rw [schema_importScript, schema_importScript] at hschema
  revert hschema
  decide +kernel

end Sql
end Schemata
