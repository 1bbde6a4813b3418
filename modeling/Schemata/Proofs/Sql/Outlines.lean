/-
What a script shows without the contents of its quotations.  Its dialect is found out from the
outlines of its lexemes alone, although what a name is quoted with is looked up at its offset, which
depends on all names before it.  The outlines of the script of a schema are determined by the types
and marks of its columns and by the number of its relations; they have no cue, so such a script is
found to be generic.
-/
import Schemata.Proofs.Sql.Detection
import Schemata.Proofs.Sql.Offsets
import Schemata.Proofs.Sql.ScriptTokens
import Schemata.Sql.Indexed.Dialect

namespace Schemata
namespace Sql

namespace Dialect

/-! ## Indices and offsets -/

section

variable {source : List Char} {done rest : List Lexeme}

/-- What is found at an offset is what the lexeme there begins with. -/
def Opens (source : List Char) (l : Lexeme) : Prop :=
  ∀ c, goesOnWith source l.start c = true ↔ l.text.head? = some c

theorem cueAt?_eq {l : Lexeme} (h : ∀ name, l.token = .quoted name → Opens source l) :
    cueAt? source (done ++ l :: rest) done.length =
      cue? l ((rest.head?.map (·.token)).getD .eof) := by
  have hhere : (done ++ l :: rest)[done.length]? = some l := by simp
  have hnext : (done ++ l :: rest)[done.length + 1]? = rest.head? := by
    rw [List.getElem?_append_right (Nat.le_add_right _ _), Nat.add_sub_cancel_left,
      List.getElem?_cons_succ, List.head?_eq_getElem?]
  have hsymbol : ∀ c, (rest.head?.map (·.token) = some (.symbol c)) =
      ((rest.head?.map (·.token)).getD .eof = .symbol c) := by
    intro c
    cases rest.head? <;> simp
  unfold cueAt? cue?
  rw [hhere, hnext]
  simp only [hsymbol]
  cases htoken : l.token with
  | symbol c =>
    by_cases hcolon : c = ':'
    · subst hcolon
      rfl
    · simp [hcolon]
  | quoted name => simp only [h name htoken '\x60']
  | _ => rfl

/-- The scores go up by the numbers of the cues. -/
theorem foldl_cueAt? (done : List Lexeme)
    (h : ∀ l ∈ rest, ∀ name, l.token = .quoted name → Opens source l) (score : Score) :
    (List.range' done.length rest.length).foldl
        (fun score i => score.add (cueAt? source (done ++ rest) i)) score =
      ⟨score.postgres + (cues rest).count postgres, score.mysql + (cues rest).count mysql⟩ := by
  induction rest generalizing done score with
  | nil => rfl
  | cons l rest ih =>
    obtain ⟨hl, hrest⟩ := List.forall_mem_cons.mp h
    have hmore := ih (done ++ [l]) hrest
    rw [List.length_append, List.length_singleton, List.append_assoc] at hmore
    rw [List.length_cons, List.range'_succ, List.foldl_cons, cueAt?_eq hl, cues]
    refine (hmore _).trans ?_
    cases cue? l ((rest.head?.map (·.token)).getD .eof) with
    | none => rfl
    | some dialect => cases dialect <;> simp [Score.add, Nat.add_assoc, Nat.add_comm 1]

end

/-- In a script, every quoted name is found at its offset. -/
theorem opens_of_tokenize {text : String} {ls : List Lexeme} (h : tokenize text = .ok ls) :
    ∀ l ∈ ls, ∀ name, l.token = .quoted name → Opens text.toList l := by
  intro l hl name hname c
  obtain ⟨ps, gap, htext, hcuts, -, rfl⟩ := tokenize_eq_ok.mp h
  obtain ⟨front, back, hps, -, hstart⟩ := exists_before_of_mem_locate hl
  have hspan : text.toList = (front.flatMap Piece.span ++ l.gap) ++
      (l.text ++ back.flatMap Piece.span) := by
    have hsplit : text.toList = (ps ++ [(⟨gap, [], .eof⟩ : Piece)]).flatMap Piece.span := by
      rw [htext]
      simp [Piece.span]
    rw [hsplit, hps]
    simp [Piece.span]
  have hne : l.text ≠ [] := by
    have hmem : l.toPiece ∈ ps ++ [⟨gap, [], .eof⟩] := hps ▸ List.mem_append_right _ (.head _)
    rcases List.mem_append.mp hmem with hmem | hmem
    · obtain ⟨rest, hcut⟩ := hcuts.exists_cuts _ hmem
      exact hcut.text_ne_nil
    · rw [show l.token = .eof from congrArg Piece.token (List.mem_singleton.mp hmem)] at hname
      cases hname
  rw [goesOnWith, hspan, hstart, Nat.zero_add, Text.cut?_append]
  simp [hne]

theorem indexedDetect_eq {text : String} {ls : List Lexeme} (h : tokenize text = .ok ls) :
    indexedDetect text.toList ls = detect ls := by
  have hscore := foldl_cueAt? [] (opens_of_tokenize h) ⟨0, 0⟩
  simp only [Nat.zero_add, List.nil_append, List.length_nil] at hscore
  rw [indexedDetect, List.range_eq_range', hscore]
  rfl

end Dialect

/-! ## Scripts of schemas -/

end Sql

def ColumnSpec.unnamed (c : ColumnSpec) : ColumnSpec := { c with name := "" }

/-- The table without its names. -/
def TableSpec.unnamed (t : TableSpec) : TableSpec := ⟨"", t.columns.map ColumnSpec.unnamed⟩

theorem TableSpec.primaryKey_unnamed (t : TableSpec) :
    t.unnamed.primaryKey = t.primaryKey.map fun _ => "" := by
  rw [primaryKey, primaryKey, unnamed, List.filter_map, List.map_map, List.map_map]
  rfl

/-- What the names in a schema have no part in: its columns without names, table by table, and how
many relations there are. -/
def Schema.frame (s : Schema) : List TableSpec × Nat :=
  (s.specs.map TableSpec.unnamed, s.relations.length)

namespace Sql

/-- The outline of the token where names stand in quotation marks. -/
def Token.outline (t : Token) : Token × Option Quotation :=
  (t.hollow, match t with
    | quoted _ => some .quotes
    | _ => none)

theorem Token.outline_hollow (t : Token) : t.hollow.outline = t.outline := by
  cases t <;> rfl

theorem Lexeme.outline_eq {l : Lexeme}
    (h : ∀ name, l.token = .quoted name → l.text.head? = some '"') :
    l.outline = l.token.outline := by
  unfold outline Token.outline quotation?
  split
  · next name htoken =>
    rw [h name htoken, htoken]
    rfl
  · simp only

theorem map_intercalate (f : α → β) (separator : List α) (parts : List (List α)) :
    (separator.intercalate parts).map f =
      (separator.map f).intercalate (parts.map (List.map f)) := by
  induction parts with
  | nil => rfl
  | cons part rest ih =>
    cases rest with
    | nil => simp
    | cons =>
      rw [List.intercalate_cons_cons, List.map_append, List.map_append, ih, List.map_cons,
        List.map_cons, List.map_cons, List.intercalate_cons_cons]

theorem map_hollow_listTokens (names : List String) :
    (listTokens names).map Token.hollow = listTokens (names.map fun _ => "") := by
  simp only [listTokens, List.map_append, map_intercalate, List.map_map]
  rfl

theorem map_hollow_tableTokens (t : TableSpec) :
    (tableTokens t).map Token.hollow = tableTokens t.unnamed := by
  have hcolumn : ∀ c : ColumnSpec, (columnTokens c).map Token.hollow = columnTokens c.unnamed := by
    rintro ⟨name, type, isPrimaryKey, isUnique, isNullable⟩
    cases isNullable <;> cases isUnique <;> cases isPrimaryKey <;> rfl
  have hcolumns : (t.columns.map columnTokens).map (List.map Token.hollow) =
      t.unnamed.columns.map columnTokens := by
    rw [TableSpec.unnamed, List.map_map, List.map_map]
    exact List.map_congr_left fun c _ => hcolumn c
  have hkey : (keyTokens t.primaryKey).map Token.hollow =
      keyTokens (t.primaryKey.map fun _ => "") := by
    rw [keyTokens, List.map_append, map_hollow_listTokens]
    rfl
  have hitems : (itemTokens t).map (List.map Token.hollow) = itemTokens t.unnamed := by
    rw [itemTokens, itemTokens, List.map_append, hcolumns, TableSpec.primaryKey_unnamed,
      List.isEmpty_map, ← hkey]
    split <;> rfl
  rw [tableTokens, tableTokens, ← hitems, List.map_append, List.map_append, map_intercalate]
  rfl

/-- Where only names differ, so do the tokens of the scripts. -/
theorem map_hollow_scriptTokens {ts us : List TableSpec} {ks ls : List Link}
    (htables : ts.map TableSpec.unnamed = us.map TableSpec.unnamed)
    (hlinks : ks.length = ls.length) :
    (scriptTokens ts ks).map (List.map Token.hollow) =
      (scriptTokens us ls).map (List.map Token.hollow) := by
  have hlink : ∀ k l, (linkTokens k l).map Token.hollow =
      (linkTokens 0 ⟨"", "", "", ""⟩).map Token.hollow := fun _ _ => rfl
  have htokens : ∀ ts : List TableSpec, (ts.map tableTokens).map (List.map Token.hollow) =
      (ts.map TableSpec.unnamed).map tableTokens := by
    intro ts
    rw [List.map_map, List.map_map]
    exact List.map_congr_left fun t _ => map_hollow_tableTokens t
  simp only [scriptTokens, List.map_append, map_numberFrom, hlink, numberFrom_eq_map,
    List.map_const', htokens, htables, hlinks]

theorem exported_unnamed (ts : List TableSpec) :
    (TableSpec.exported ts).map TableSpec.unnamed =
      TableSpec.exported (ts.map TableSpec.unnamed) := by
  simp [TableSpec.exported, TableSpec.mapColumns, TableSpec.unnamed, Function.comp_def,
    ColumnSpec.exported, ColumnSpec.unnamed]

/-- What the lexemes of a script are like. -/
theorem exists_lexemes_of_script {s : Schema} {ddl : String} (h : script s = .ok ddl) :
    ∃ links lexemes, links.length = s.relations.length ∧ tokenize ddl = .ok lexemes ∧
      lexemes.map (·.token) = (scriptTokens (TableSpec.exported s.specs) links).flatMap
        (· ++ [.semicolon]) ++ [.eof] ∧
      ∀ l ∈ lexemes, ∀ name, l.token = .quoted name → l.text.head? = some '"' := by
  obtain ⟨links, hlinks⟩ := exists_found_of_script h
  rw [script_eq_of_found hlinks] at h
  split at h
  · cases h
  · cases h
    have hlexes := lexes_scriptText (TableSpec.exported s.specs) links
    obtain ⟨lexemes, hlexemes, htokens⟩ := tokenize_of_lexes hlexes
    exact ⟨links, lexemes, hlinks.length_eq, hlexemes, htokens, head?_of_tokenize hlexes hlexemes⟩

/-- The names in a schema make no difference to its script but for what stands in quotation
marks. -/
theorem map_outline_of_script {s u : Schema} {ddl ddl' : String} (hframe : s.frame = u.frame)
    (h : script s = .ok ddl) (h' : script u = .ok ddl') :
    ∃ ks ls, tokenize ddl = .ok ks ∧ tokenize ddl' = .ok ls ∧
      ks.map Lexeme.outline = ls.map Lexeme.outline := by
  obtain ⟨links, ks, hlength, hks, htokens, hquotes⟩ := exists_lexemes_of_script h
  obtain ⟨links', ls, hlength', hls, htokens', hquotes'⟩ := exists_lexemes_of_script h'
  obtain ⟨htables, hrelations⟩ := Prod.mk.inj hframe
  have hstatements : (scriptTokens (TableSpec.exported s.specs) links).map (List.map Token.hollow) =
      (scriptTokens (TableSpec.exported u.specs) links').map (List.map Token.hollow) := by
    refine map_hollow_scriptTokens ?_ (by rw [hlength, hlength', hrelations])
    rw [exported_unnamed, exported_unnamed, htables]
  have hhollow : ∀ parts : List (List Token),
      (parts.flatMap (· ++ [Token.semicolon]) ++ [Token.eof]).map Token.hollow =
        (parts.map (List.map Token.hollow)).flatMap (· ++ [.semicolon]) ++ [.eof] := by
    intro parts
    rw [List.map_append, List.map_flatMap, List.flatMap_map]
    simp only [List.map_append]
    rfl
  have houtline : ∀ {ls : List Lexeme},
      (∀ l ∈ ls, ∀ name, l.token = .quoted name → l.text.head? = some '"') →
      ls.map Lexeme.outline = ((ls.map (·.token)).map Token.hollow).map Token.outline := by
    intro ls hquotes
    rw [List.map_map, List.map_map]
    exact List.map_congr_left fun l hl =>
      (Lexeme.outline_eq (hquotes l hl)).trans (Token.outline_hollow _).symm
  refine ⟨ks, ls, hks, hls, ?_⟩
  rw [houtline hquotes, houtline hquotes', htokens, htokens', hhollow, hhollow, hstatements]

namespace Dialect

variable {l : Lexeme}

/-- Neither a keyword nor the name of a type is a cue. -/
theorem cue?_of_writtenWith {ks : List Keyword} (htoken : l.token.WrittenWith ks)
    (hquotes : ∀ name, l.token = .quoted name → l.text.head? = some '"') (next : Token) :
    cue? l next = none := by
  unfold cue?
  split
  · next name hname =>
    rw [hname] at htoken
    obtain ⟨type, rfl⟩ := htoken
    cases type <;> rfl
  · next hcolon =>
    rw [hcolon] at htoken
    exact htoken.elim
  · next name hname => rw [hquotes name hname, if_neg (by decide)]
  · rfl

theorem cues_eq_nil {ls : List Lexeme} (h : ∀ l ∈ ls, ∀ next, cue? l next = none) :
    cues ls = [] := by
  induction ls with
  | nil => rfl
  | cons l ls ih =>
    obtain ⟨hl, hls⟩ := List.forall_mem_cons.mp h
    rw [cues, hl, ih hls]
    rfl

/-- There is no cue in the script of a schema. -/
theorem cues_of_script {s : Schema} {ddl : String} (h : script s = .ok ddl) :
    ∃ ls, tokenize ddl = .ok ls ∧ cues ls = [] := by
  obtain ⟨links, ls, -, hls, htokens, hquotes⟩ := exists_lexemes_of_script h
  have hwritten : ∀ t ∈ ls.map (·.token), t = .eof ∨ ∃ ks, t.WrittenWith ks := by
    rw [htokens, List.forall_mem_append, List.forall_mem_singleton]
    refine ⟨fun t ht => .inr ?_, .inl rfl⟩
    obtain ⟨statement, hstatement, ht⟩ := List.mem_flatMap.mp ht
    obtain ⟨ks, hks⟩ := writtenWith_scriptTokens _ _ statement hstatement
    rcases List.mem_append.mp ht with ht | ht
    · exact ⟨ks, hks t ht⟩
    · rw [List.mem_singleton.mp ht]
      exact ⟨[], True.intro⟩
  refine ⟨ls, hls, cues_eq_nil fun l hl next => ?_⟩
  rcases hwritten l.token (List.mem_map_of_mem hl) with heof | ⟨ks, hks⟩
  · simp only [cue?, heof]
  · exact cue?_of_writtenWith hks (hquotes l hl) next

/-! ## Main result -/

/-- What stands in quotation marks says nothing about the dialect: wherever it stands in the text,
scripts with the same outlines have the same dialect, and the script of a schema is generic whatever
the names in it are. -/
theorem detect_of_outlines :
    (∀ text ls, tokenize text = .ok ls → indexedDetect text.toList ls = detect ls) ∧
    (∀ text text' ks ls, tokenize text = .ok ks → tokenize text' = .ok ls →
      ks.map Lexeme.outline = ls.map Lexeme.outline →
      indexedDetect text.toList ks = indexedDetect text'.toList ls) ∧
    ∀ s ddl, script s = .ok ddl →
      ∃ ls, tokenize ddl = .ok ls ∧ indexedDetect ddl.toList ls = .generic := by
  refine ⟨fun _ _ h => indexedDetect_eq h, fun text text' ks ls hks hls h => ?_,
    fun s ddl h => ?_⟩
  · rw [indexedDetect_eq hks, indexedDetect_eq hls, detect, detect, cues_outline h]
  · obtain ⟨ls, hls, hcues⟩ := cues_of_script h
    refine ⟨ls, hls, ?_⟩
    rw [indexedDetect_eq hls, detect, hcues]
    rfl

/-- Bare words, marks and a backtick are cues here; names and literals spell others. -/
def shortNames : String := "\x60é\x60 [a] 'x' \"\":: engine = 1"

/-- The same script with other names, which are longer and have closing marks in them. -/
def longNames : String :=
  "\x60se\x60\x60rial\x60 [\x60]]unsigned] 'it''s ::text' \"jsonb\":: engine = 1"

/-- Every name in the schema would be a cue if it were bare. -/
def cueNames : Schema :=
  ⟨[⟨⟨"t"⟩, "serial", [⟨⟨"c"⟩, "\x60jsonb\x60", .uuid, true, false, true, false⟩,
      ⟨⟨"d"⟩, "engine = x::y", .json, false, true, false, true⟩]⟩],
   [⟨⟨"r"⟩, ⟨⟨"t"⟩, ⟨"c"⟩⟩, ⟨⟨"t"⟩, ⟨"d"⟩⟩, .oneToMany⟩], 0⟩

def cueScript : String :=
  "CREATE TABLE \"serial\" (\n    \"\x60jsonb\x60\" UUID NOT NULL,\n    \"engine = x::y\" JSON,\n" ++
    "    PRIMARY KEY (\"\x60jsonb\x60\")\n);\n" ++
    "\nALTER TABLE \"serial\" ADD CONSTRAINT \"fk_serial_engine = x::y_1\"" ++
    " FOREIGN KEY (\"engine = x::y\") REFERENCES \"serial\" (\"\x60jsonb\x60\");\n"

theorem detect_of_outlines_cueNames :
    (∃ ks ls, tokenize shortNames = .ok ks ∧ tokenize longNames = .ok ls ∧
      indexedDetect shortNames.toList ks = .mysql ∧ indexedDetect longNames.toList ls = .mysql) ∧
    script cueNames = .ok cueScript ∧
    ∃ ls, tokenize cueScript = .ok ls ∧ indexedDetect cueScript.toList ls = .generic := by
  have hnames : (do
      let ks ← tokenize shortNames
      let ls ← tokenize longNames
      return (detect ks, ks.map Lexeme.outline == ls.map Lexeme.outline)) = .ok (.mysql, true) := by
    decide +kernel
  obtain ⟨ks, hks, hlong⟩ := ok_of_bind hnames
  obtain ⟨ls, hls, hboth⟩ := ok_of_bind hlong
  obtain ⟨hmysql, hsame⟩ := Prod.mk.inj (Except.ok.inj hboth)
  have hshort := (detect_of_outlines.1 _ _ hks).trans hmysql
  have hindexed := detect_of_outlines.2.1 _ _ _ _ hks hls (eq_of_beq hsame)
  have hscript : script cueNames = .ok cueScript := by decide +kernel
  exact ⟨⟨ks, ls, hks, hls, hshort, hindexed.symm.trans hshort⟩, hscript,
    detect_of_outlines.2.2 _ _ hscript⟩

end Dialect

end Sql
end Schemata
