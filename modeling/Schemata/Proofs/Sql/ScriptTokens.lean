/-
The tokens of a script.  A script is determined by the names that the schema uses: by its tables
without ids and its links.  Its text is put together from parts that are cut into tokens on their
own, so the tokens of the script are those of its parts in order.
-/
import Schemata.Proofs.Sql.ForeignKeys
import Schemata.Proofs.Sql.Lexing

namespace Schemata
namespace Sql

/-! ## Parts of a text -/

/-- In front of any text, the part is cut into the tokens. -/
def Renders (text : List Char) (ts : List Token) : Prop :=
  ∀ rest us, Lexes rest us → Lexes (text ++ rest) (ts ++ us)

/-- In front of a text that does not continue it, the part is cut into the tokens. -/
def RendersOpen (text : List Char) (ts : List Token) : Prop :=
  ∀ rest us, Stops rest → Lexes rest us → Lexes (text ++ rest) (ts ++ us)

theorem Renders.nil : Renders [] [] := fun _ _ h => h

theorem Renders.blank {c : Char} {text : List Char} {ts : List Token}
    (hc : Text.isBlank c = true) (h : Renders text ts) : Renders (c :: text) ts :=
  fun _ _ hrest => .blank hc (h _ _ hrest)

theorem Renders.mark {c : Char} {t : Token} {text : List Char} {ts : List Token}
    (hc : punctuation? c = some t) (h : Renders text ts) : Renders (c :: text) (t :: ts) :=
  fun _ _ hrest => .mark hc (h _ _ hrest)

theorem Renders.append {a b : List Char} {ts us : List Token} (ha : Renders a ts)
    (hb : Renders b us) : Renders (a ++ b) (ts ++ us) := by
  intro rest vs hrest
  rw [List.append_assoc, List.append_assoc]
  exact ha _ _ (hb _ _ hrest)

theorem Renders.append_open {a b : List Char} {ts us : List Token} (ha : Renders a ts)
    (hb : RendersOpen b us) : RendersOpen (a ++ b) (ts ++ us) := by
  intro rest vs hstops hrest
  rw [List.append_assoc, List.append_assoc]
  exact ha _ _ (hb _ _ hstops hrest)

theorem Renders.open {a : List Char} {ts : List Token} (ha : Renders a ts) : RendersOpen a ts :=
  fun _ _ _ hrest => ha _ _ hrest

theorem RendersOpen.append {a b : List Char} {ts us : List Token} (ha : RendersOpen a ts)
    (hb : Renders b us) (hne : b ≠ []) (hstops : Stops b) : Renders (a ++ b) (ts ++ us) := by
  intro rest vs hrest
  rw [List.append_assoc, List.append_assoc]
  refine ha _ _ ?_ (hb _ _ hrest)
  cases b with
  | nil => exact absurd rfl hne
  | cons c b => exact stops_cons (hstops c rfl) _

theorem RendersOpen.append_open {a b : List Char} {ts us : List Token} (ha : RendersOpen a ts)
    (hb : RendersOpen b us) (hstops : Stops b) : RendersOpen (a ++ b) (ts ++ us) := by
  intro rest vs hrests hrest
  rw [List.append_assoc, List.append_assoc]
  refine ha _ _ ?_ (hb _ _ hrests hrest)
  cases b with
  | nil => exact hrests
  | cons c b => exact stops_cons (hstops c rfl) _

/-! The same for parts that are strings. -/

theorem Renders.concat {a b : String} {ts us : List Token} (ha : Renders a.toList ts)
    (hb : Renders b.toList us) : Renders (a ++ b).toList (ts ++ us) := by
  rw [String.toList_append]
  exact ha.append hb

theorem Renders.concat_open {a b : String} {ts us : List Token} (ha : Renders a.toList ts)
    (hb : RendersOpen b.toList us) : RendersOpen (a ++ b).toList (ts ++ us) := by
  rw [String.toList_append]
  exact ha.append_open hb

theorem RendersOpen.concat {a b : String} {ts us : List Token} (ha : RendersOpen a.toList ts)
    (hb : Renders b.toList us) (hne : b.toList ≠ []) (hstops : Stops b.toList) :
    Renders (a ++ b).toList (ts ++ us) := by
  rw [String.toList_append]
  exact ha.append hb hne hstops

theorem RendersOpen.concat_open {a b : String} {ts us : List Token} (ha : RendersOpen a.toList ts)
    (hb : RendersOpen b.toList us) (hstops : Stops b.toList) :
    RendersOpen (a ++ b).toList (ts ++ us) := by
  rw [String.toList_append]
  exact ha.append_open hb hstops

theorem rendersOpen_quoteName (name : String) :
    RendersOpen (quoteName name).toList [.quoted name] :=
  fun _ _ hstops hrest => .quoted hstops hrest

theorem rendersOpen_word {word : List Char} (h : isBare word = true) :
    RendersOpen word [wordToken word] :=
  fun _ _ hstops hrest => .word h hstops hrest

theorem rendersOpen_keyword (k : Keyword) : RendersOpen k.spelling [.keyword k] := by
  have hbare : isBare k.spelling = true := by
    cases k <;> exact isBare_of_isUpper (by decide) rfl
  have htoken : wordToken k.spelling = .keyword k := by
    cases k <;> decide
  rw [← htoken]
  exact rendersOpen_word hbare

theorem rendersOpen_type (t : ColumnType) : RendersOpen t.name.toList [.ident t.name] := by
  have hbare : isBare t.name.toList = true := by
    cases t <;> exact isBare_of_isUpper (by decide) rfl
  have htoken : wordToken t.name.toList = .ident t.name := by
    cases t <;> decide
  rw [← htoken]
  exact rendersOpen_word hbare

/-- A keyword with a mark or a blank after it. -/
theorem Renders.keyword (k : Keyword) {c : Char} {text : List Char} {ts : List Token}
    (hc : stops c = true) (h : Renders (c :: text) ts) :
    Renders (k.spelling ++ c :: text) (.keyword k :: ts) :=
  (rendersOpen_keyword k).append h (by simp) (stops_cons hc _)

/-- Parts with commas between them. -/
theorem rendersOpen_intercalate {separator : List Char} (hseparator : Renders separator [.comma])
    (hne : separator ≠ []) (hstops : Stops separator) {texts : List (List Char)}
    {parts : List (List Token)} (h : List.Forall₂ RendersOpen texts parts) :
    RendersOpen (separator.intercalate texts) ([Token.comma].intercalate parts) := by
  induction h with
  | nil => exact Renders.nil.open
  | @cons text part texts parts hpart hrest ih =>
    cases hrest with
    | nil => simpa using hpart
    | cons =>
      rw [List.intercalate_cons_cons, List.intercalate_cons_cons]
      exact (hpart.append hseparator hne hstops).append_open ih

/-- Statements with blanks between them. -/
theorem lexes_intercalate {texts : List (List Char)} {parts : List (List Token)}
    (h : List.Forall₂ Renders texts parts) :
    Lexes (['\n'].intercalate texts) parts.flatten := by
  have hnil : Lexes [] [] := .done (by rw [splitGap])
  induction h with
  | nil => exact hnil
  | @cons text part texts parts hpart hrest ih =>
    cases hrest with
    | nil => simpa using hpart _ _ hnil
    | cons =>
      rw [List.intercalate_cons_cons, List.flatten_cons, List.append_assoc]
      exact hpart _ _ (.blank (by decide) ih)

/-! ## Tables -/

def columnTokens (c : ColumnSpec) : List Token :=
  [.quoted c.name, .ident c.type.name] ++
    (if c.isNullable then [] else [.keyword .not, .keyword .null]) ++
    (if c.isUnique && !c.isPrimaryKey then [.keyword .unique] else [])

/-- A list of columns in parentheses. -/
def listTokens (names : List String) : List Token :=
  [.leftParen] ++ [Token.comma].intercalate (names.map fun name => [.quoted name]) ++ [.rightParen]

def keyTokens (names : List String) : List Token :=
  [.keyword .primary, .keyword .key] ++ listTokens names

/-- The items in the body of a table. -/
def itemTokens (t : TableSpec) : List (List Token) :=
  t.columns.map columnTokens ++ if t.primaryKey.isEmpty then [] else [keyTokens t.primaryKey]

def tableTokens (t : TableSpec) : List Token :=
  [.keyword .create, .keyword .table, .quoted t.name, .leftParen] ++
    [Token.comma].intercalate (itemTokens t) ++ [.rightParen]

theorem forall_mem_intercalate {p : α → Prop} {separator : List α} {parts : List (List α)}
    (hseparator : ∀ x ∈ separator, p x) (h : ∀ part ∈ parts, ∀ x ∈ part, p x) :
    ∀ x ∈ separator.intercalate parts, p x := by
  induction parts with
  | nil => exact List.forall_mem_nil p
  | cons part rest ih =>
    obtain ⟨hpart, hrest⟩ := List.forall_mem_cons.mp h
    cases rest with
    | nil => simpa using hpart
    | cons =>
      rw [List.intercalate_cons_cons, List.forall_mem_append, List.forall_mem_append]
      exact ⟨⟨hpart, hseparator⟩, ih hrest⟩

/-- The token is one of the keywords, a quoted name, the name of a type or a mark. -/
def Token.WrittenWith (ks : List Keyword) : Token → Prop
  | keyword k => k ∈ ks
  | ident name => ∃ type : ColumnType, name = type.name
  | quoted _ | leftParen | rightParen | comma | semicolon => True
  | _ => False

theorem writtenWith_listTokens (ks : List Keyword) (names : List String) :
    ∀ t ∈ listTokens names, t.WrittenWith ks := by
  have hnames : ∀ t ∈ [Token.comma].intercalate (names.map fun name => [.quoted name]),
      t.WrittenWith ks := forall_mem_intercalate (by simp [Token.WrittenWith]) fun part hpart => by
    obtain ⟨name, -, rfl⟩ := List.mem_map.mp hpart
    simp [Token.WrittenWith]
  simp only [listTokens, List.forall_mem_append]
  exact ⟨⟨by simp [Token.WrittenWith], hnames⟩, by simp [Token.WrittenWith]⟩

/-- The keywords of a statement that creates a table. -/
def tableKeywords : List Keyword := [.create, .table, .primary, .key, .not, .null, .unique]

theorem writtenWith_tableTokens (t : TableSpec) :
    ∀ u ∈ tableTokens t, u.WrittenWith tableKeywords := by
  have hcolumn : ∀ c, ∀ u ∈ columnTokens c, u.WrittenWith tableKeywords := by
    rintro ⟨name, type, isPrimaryKey, isUnique, isNullable⟩
    cases isNullable <;> cases isUnique <;> cases isPrimaryKey <;>
      simp [columnTokens, Token.WrittenWith, tableKeywords]
  have hkey : ∀ u ∈ keyTokens t.primaryKey, u.WrittenWith tableKeywords := by
    rw [keyTokens, List.forall_mem_append]
    exact ⟨by simp [Token.WrittenWith, tableKeywords], writtenWith_listTokens _ _⟩
  have hitems : ∀ item ∈ itemTokens t, ∀ u ∈ item, u.WrittenWith tableKeywords := by
    intro item hitem
    rcases List.mem_append.mp hitem with hitem | hitem
    · obtain ⟨c, -, rfl⟩ := List.mem_map.mp hitem
      exact hcolumn c
    · split at hitem
      · cases hitem
      · rw [List.mem_singleton.mp hitem]
        exact hkey
  simp only [tableTokens, List.forall_mem_append]
  exact ⟨⟨by simp [Token.WrittenWith, tableKeywords],
    forall_mem_intercalate (by simp [Token.WrittenWith]) hitems⟩, by simp [Token.WrittenWith]⟩

theorem rendersOpen_columnLine (c : Column) :
    RendersOpen (columnLine c).toList (columnTokens c.spec) := by
  have hindent : Renders "    ".toList [] :=
    .blank rfl (.blank rfl (.blank rfl (.blank rfl .nil)))
  have hspace : Renders " ".toList [] := .blank rfl .nil
  have hnull : RendersOpen (if c.isNullable then "" else " NOT NULL").toList
      (if c.isNullable then [] else [.keyword .not, .keyword .null]) := by
    split
    · exact Renders.nil.open
    · exact (Renders.blank rfl (.keyword .not rfl (.blank rfl .nil))).append_open
        (rendersOpen_keyword .null)
  have hunique : RendersOpen (if c.isUnique && !c.isPrimaryKey then " UNIQUE" else "").toList
      (if c.isUnique && !c.isPrimaryKey then [.keyword .unique] else []) := by
    split
    · exact (Renders.blank rfl .nil).append_open (rendersOpen_keyword .unique)
    · exact Renders.nil.open
  have hname := (hindent.concat_open (rendersOpen_quoteName c.name)).concat hspace (by decide)
    (stops_cons rfl _)
  have hnullStops : Stops (if c.isNullable then "" else " NOT NULL").toList := by
    split
    · exact fun _ h => by cases h
    · exact stops_cons rfl _
  have huniqueStops : Stops (if c.isUnique && !c.isPrimaryKey then " UNIQUE" else "").toList := by
    split
    · exact stops_cons rfl _
    · exact fun _ h => by cases h
  exact ((hname.concat_open (rendersOpen_type c.type)).concat_open hnull hnullStops).concat_open
    hunique huniqueStops

theorem rendersOpen_names (names : List String) :
    RendersOpen (", ".intercalate (names.map quoteName)).toList
      ([Token.comma].intercalate (names.map fun name => [.quoted name])) := by
  rw [String.toList_intercalate, List.map_map]
  refine rendersOpen_intercalate (.mark rfl (.blank rfl .nil)) (by decide) (stops_cons rfl _) ?_
  rw [List.forall₂_map_left_iff, List.forall₂_map_right_iff, List.forall₂_same]
  exact fun name _ => rendersOpen_quoteName name

theorem renders_nameList (names : List String) :
    Renders ("(" ++ ", ".intercalate (names.map quoteName) ++ ")").toList (listTokens names) := by
  have hopen : Renders "(".toList [.leftParen] := .mark rfl .nil
  have hclose : Renders ")".toList [.rightParen] := .mark rfl .nil
  exact (hopen.concat_open (rendersOpen_names names)).concat hclose (by decide) (stops_cons rfl _)

theorem forall₂_tableLines (t : Table) :
    List.Forall₂ RendersOpen ((tableLines t).map String.toList) (itemTokens t.spec) := by
  have hcolumns : List.Forall₂ RendersOpen ((t.columns.map columnLine).map String.toList)
      (t.spec.columns.map columnTokens) := by
    rw [Table.spec, List.map_map, List.map_map, List.forall₂_map_left_iff,
      List.forall₂_map_right_iff, List.forall₂_same]
    exact fun c _ => rendersOpen_columnLine c
  have hkey : List.Forall₂ RendersOpen ((primaryKeyLine? t).toList.map String.toList)
      (if t.spec.primaryKey.isEmpty then [] else [keyTokens t.spec.primaryKey]) := by
    rw [primaryKeyLine?, primaryKey_spec]
    by_cases hempty : t.primaryKey.isEmpty
    · rw [if_pos hempty, if_pos (by simpa using hempty)]
      exact .nil
    · rw [if_neg hempty, if_neg (by simpa using hempty)]
      refine .cons ?_ .nil
      have hkeyword : Renders "    PRIMARY KEY ".toList [.keyword .primary, .keyword .key] :=
        .blank rfl (.blank rfl (.blank rfl (.blank rfl
          (.keyword .primary rfl (.blank rfl (.keyword .key rfl (.blank rfl .nil)))))))
      have hlist := renders_nameList (t.primaryKey.map (·.name))
      rw [List.map_map] at hlist
      have hsplit : ∀ names : String, "    PRIMARY KEY (" ++ names ++ ")" =
          "    PRIMARY KEY " ++ ("(" ++ names ++ ")") := by
        intro names
        rw [show "    PRIMARY KEY (" = "    PRIMARY KEY " ++ "(" from rfl, String.append_assoc,
          String.append_assoc, String.append_assoc]
      rw [hsplit]
      exact (hkeyword.concat hlist).open
  rw [tableLines, List.map_append]
  exact List.rel_append hcolumns hkey

theorem renders_tableStatement (t : Table) :
    Renders (tableStatement t).toList (tableTokens t.spec ++ [.semicolon]) := by
  have hcreate : Renders "CREATE TABLE ".toList [.keyword .create, .keyword .table] :=
    .keyword .create rfl (.blank rfl (.keyword .table rfl (.blank rfl .nil)))
  have hopen : Renders " (\n".toList [.leftParen] := .blank rfl (.mark rfl (.blank rfl .nil))
  have hclose : Renders ");\n".toList [.rightParen, .semicolon] :=
    .mark rfl (.mark rfl (.blank rfl .nil))
  have hbreak : Renders "\n".toList [] := .blank rfl .nil
  have hbody : Renders
      (if (tableLines t).isEmpty then "" else ",\n".intercalate (tableLines t) ++ "\n").toList
      ([Token.comma].intercalate (itemTokens t.spec)) := by
    have hitems := forall₂_tableLines t
    split
    · next hempty =>
      rw [List.isEmpty_iff.mp hempty] at hitems
      rw [List.forall₂_nil_left_iff.mp hitems]
      exact Renders.nil
    · have hcomma : Renders ",\n".toList [.comma] := .mark rfl (.blank rfl .nil)
      have hlines := rendersOpen_intercalate hcomma (by decide) (stops_cons rfl _) hitems
      rw [← String.toList_intercalate] at hlines
      have hall := hlines.concat hbreak (by decide) (stops_cons rfl _)
      rwa [List.append_nil] at hall
  have hhead := (hcreate.concat_open (rendersOpen_quoteName t.name)).concat hopen (by decide)
    (stops_cons rfl _)
  have hstatement := (hhead.concat hbody).concat hclose
  rw [tableTokens, List.append_assoc]
  exact hstatement

/-! ## Links -/

def linkStatement (k : Nat) (l : Link) : String :=
  "ALTER TABLE " ++ quoteName l.holder ++ " ADD CONSTRAINT " ++
    quoteName (constraintName l.holder l.column k) ++ " FOREIGN KEY (" ++ quoteName l.column ++
    ") REFERENCES " ++ quoteName l.table ++ " (" ++ quoteName l.target ++ ");\n"

def linkTokens (k : Nat) (l : Link) : List Token :=
  [.keyword .alter, .keyword .table, .quoted l.holder, .keyword .add, .keyword .constraint,
    .quoted (constraintName l.holder l.column k), .keyword .foreign, .keyword .key] ++
    listTokens [l.column] ++ [.keyword .references, .quoted l.table] ++ listTokens [l.target]

/-- The keywords of a statement that adds a relation. -/
def linkKeywords : List Keyword := [.alter, .table, .add, .constraint, .foreign, .key, .references]

theorem writtenWith_linkTokens (k : Nat) (l : Link) :
    ∀ u ∈ linkTokens k l, u.WrittenWith linkKeywords := by
  simp only [linkTokens, List.forall_mem_append]
  exact ⟨⟨⟨by simp [Token.WrittenWith, linkKeywords], writtenWith_listTokens _ _⟩,
    by simp [Token.WrittenWith, linkKeywords]⟩, writtenWith_listTokens _ _⟩

theorem renders_linkStatement (k : Nat) (l : Link) :
    Renders (linkStatement k l).toList (linkTokens k l ++ [.semicolon]) := by
  have halter : Renders "ALTER TABLE ".toList [.keyword .alter, .keyword .table] :=
    .keyword .alter rfl (.blank rfl (.keyword .table rfl (.blank rfl .nil)))
  have hadd : Renders " ADD CONSTRAINT ".toList [.keyword .add, .keyword .constraint] :=
    .blank rfl (.keyword .add rfl (.blank rfl (.keyword .constraint rfl (.blank rfl .nil))))
  have hforeign : Renders " FOREIGN KEY (".toList [.keyword .foreign, .keyword .key, .leftParen] :=
    .blank rfl (.keyword .foreign rfl (.blank rfl (.keyword .key rfl (.blank rfl
      (.mark rfl .nil)))))
  have hreferences : Renders ") REFERENCES ".toList [.rightParen, .keyword .references] :=
    .mark rfl (.blank rfl (.keyword .references rfl (.blank rfl .nil)))
  have hopen : Renders " (".toList [.leftParen] := .blank rfl (.mark rfl .nil)
  have hclose : Renders ");\n".toList [.rightParen, .semicolon] :=
    .mark rfl (.mark rfl (.blank rfl .nil))
  have hholder := (halter.concat_open (rendersOpen_quoteName l.holder)).concat hadd (by decide)
    (stops_cons rfl _)
  have hname := (hholder.concat_open (rendersOpen_quoteName
    (constraintName l.holder l.column k))).concat hforeign (by decide) (stops_cons rfl _)
  have hcolumn := (hname.concat_open (rendersOpen_quoteName l.column)).concat hreferences
    (by decide) (stops_cons rfl _)
  have htable := (hcolumn.concat_open (rendersOpen_quoteName l.table)).concat hopen (by decide)
    (stops_cons rfl _)
  exact (htable.concat_open (rendersOpen_quoteName l.target)).concat hclose (by decide)
    (stops_cons rfl _)

/-! ## Scripts -/

end Sql

/-- The column as a script declares it: the columns of a primary key are not declared unique. -/
def ColumnSpec.exported (c : ColumnSpec) : ColumnSpec :=
  { c with isUnique := c.isUnique && !c.isPrimaryKey }

theorem ColumnSpec.exported_exported (c : ColumnSpec) : c.exported.exported = c.exported := by
  simp only [exported, Bool.and_assoc, Bool.and_self]

theorem TableSpec.keepsNames_exported : KeepsNames fun _ => ColumnSpec.exported := fun _ _ => rfl

/-- The tables as a script declares them. -/
def TableSpec.exported (ts : List TableSpec) : List TableSpec :=
  ts.map (mapColumns fun _ => ColumnSpec.exported)

theorem TableSpec.exported_exported (ts : List TableSpec) :
    exported (exported ts) = exported ts := by
  simp [exported, mapColumns, Function.comp_def, ColumnSpec.exported_exported]

namespace Sql

theorem primaryKeyLine?_eq (t : Table) :
    primaryKeyLine? t =
      if (t.primaryKey.map (·.name)).isEmpty then none
      else some ("    PRIMARY KEY (" ++
        ", ".intercalate ((t.primaryKey.map (·.name)).map quoteName) ++ ")") := by
  rw [primaryKeyLine?, List.isEmpty_map, List.map_map]
  rfl

/-- The text of the table does not depend on ids, and is that of the exported table. -/
theorem tableStatement_eq (t : Table) :
    tableStatement t = tableStatement
      ((t.spec.mapColumns fun _ => ColumnSpec.exported).numbered 0) := by
  let u := (t.spec.mapColumns fun _ => ColumnSpec.exported).numbered 0
  have hspec : u.columns.map Column.spec = t.columns.map fun c => c.spec.exported := by
    show (Table.spec u).columns = _
    rw [TableSpec.spec_numbered]
    simp [TableSpec.mapColumns, Table.spec, Function.comp_def]
  have hline : ∀ c, columnLine c = columnLine (c.spec.exported.numbered 0) := by
    rintro ⟨id, name, type, isPrimaryKey, isForeignKey, isUnique, isNullable⟩
    cases isPrimaryKey <;> cases isUnique <;> rfl
  have hlines : t.columns.map columnLine = u.columns.map columnLine := by
    have hspecLine : ∀ c : Column, columnLine c = columnLine (c.spec.numbered 0) := fun _ => rfl
    calc t.columns.map columnLine
        = (t.columns.map fun c => c.spec.exported).map fun d => columnLine (d.numbered 0) := by
          rw [List.map_map]
          exact List.map_congr_left fun c _ => hline c
      _ = u.columns.map columnLine := by
          rw [← hspec, List.map_map]
          exact List.map_congr_left fun c _ => (hspecLine c).symm
  have hkey : t.primaryKey.map (·.name) = u.primaryKey.map (·.name) := by
    rw [← primaryKey_spec, ← primaryKey_spec, TableSpec.spec_numbered]
    simp [TableSpec.primaryKey, TableSpec.mapColumns, List.filter_map, Function.comp_def,
      ColumnSpec.exported]
  have hkeyLine : primaryKeyLine? t = primaryKeyLine? u := by
    rw [primaryKeyLine?_eq, primaryKeyLine?_eq, hkey]
  have hbody : tableLines t = tableLines u := by
    rw [tableLines, tableLines, hlines, hkeyLine]
  have hstatement : ∀ v : Table, tableStatement v = "CREATE TABLE " ++ quoteName v.name ++ " (\n" ++
      (if (tableLines v).isEmpty then "" else ",\n".intercalate (tableLines v) ++ "\n") ++
      ");\n" := fun _ => rfl
  have hname : t.name = u.name := rfl
  rw [hstatement, hstatement, hbody, hname]

/-- The script that declares the tables and links. -/
def scriptText (ts : List TableSpec) (ls : List Link) : String :=
  "\n".intercalate
    (ts.map (fun t => tableStatement (t.numbered 0)) ++ numberFrom linkStatement 0 ls)

/-- The tokens of a script, statement by statement. -/
def scriptTokens (ts : List TableSpec) (ls : List Link) : List (List Token) :=
  ts.map tableTokens ++ numberFrom linkTokens 0 ls

theorem writtenWith_scriptTokens (ts : List TableSpec) (ls : List Link) :
    ∀ statement ∈ scriptTokens ts ls, ∃ ks, ∀ t ∈ statement, t.WrittenWith ks := by
  intro statement h
  rcases List.mem_append.mp h with h | h
  · obtain ⟨t, -, rfl⟩ := List.mem_map.mp h
    exact ⟨_, writtenWith_tableTokens t⟩
  · obtain ⟨k, l, -, -, -, rfl⟩ := mem_numberFrom h
    exact ⟨_, writtenWith_linkTokens k l⟩

theorem lexes_scriptText (ts : List TableSpec) (ls : List Link) :
    Lexes (scriptText ts ls).toList ((scriptTokens ts ls).flatMap (· ++ [.semicolon])) := by
  have htables : List.Forall₂ Renders
      ((ts.map fun t => tableStatement (t.numbered 0)).map String.toList)
      ((ts.map tableTokens).map (· ++ [.semicolon])) := by
    rw [List.map_map, List.map_map, List.forall₂_map_left_iff, List.forall₂_map_right_iff,
      List.forall₂_same]
    intro t _
    have hstatement := renders_tableStatement (t.numbered 0)
    rwa [TableSpec.spec_numbered] at hstatement
  have hlinks : ∀ k, List.Forall₂ Renders ((numberFrom linkStatement k ls).map String.toList)
      ((numberFrom linkTokens k ls).map (· ++ [.semicolon])) := by
    intro k
    induction ls generalizing k with
    | nil => exact .nil
    | cons l rest ih => exact .cons (renders_linkStatement (k + 1) l) (ih (k + 1))
  rw [scriptText, String.toList_intercalate, List.map_append, List.flatMap_def, scriptTokens,
    List.map_append]
  exact lexes_intercalate (List.rel_append htables (hlinks 0))

theorem repeatedName?_eq (seen : List String) (ts : List Table) :
    repeatedName? seen ts =
      firstClash? (·.name) (fun t => t.columns.map (·.name)) .duplicateTableName
        .duplicateColumnName seen ts := by
  induction ts generalizing seen with
  | nil => rfl
  | cons t rest ih =>
    rw [repeatedName?, firstClash?, ih]
    cases firstRepeated? [] (t.columns.map (·.name)) <;> rfl

theorem repeatedName?_eq_none {ts : List Table} :
    repeatedName? [] ts = none ↔
      (ts.map (·.name)).Nodup ∧ ∀ t ∈ ts, (t.columns.map (·.name)).Nodup := by
  rw [repeatedName?_eq, firstClash?_eq_none]
  simp only [List.not_mem_nil, not_false_eq_true, implies_true, and_true]

theorem repeatedName?_eq_none_iff {s : Schema} :
    repeatedName? [] s.tables = none ↔ TableSpec.Distinct s.specs := by
  have hcolumns : ∀ t : Table, t.spec.columns.map (·.name) = t.columns.map (·.name) := by
    intro t
    rw [Table.spec, List.map_map]
    rfl
  have htables : s.specs.map (·.name) = s.tables.map (·.name) := by
    rw [Schema.specs, List.map_map]
    rfl
  rw [repeatedName?_eq_none]
  constructor
  · rintro ⟨htable, hcolumn⟩
    refine ⟨by rwa [htables], fun t ht => ?_⟩
    obtain ⟨u, hu, rfl⟩ := List.mem_map.mp ht
    rw [hcolumns]
    exact hcolumn u hu
  · intro h
    refine ⟨by rw [← htables]; exact h.tables, fun t ht => ?_⟩
    rw [← hcolumns]
    exact h.columns t.spec (List.mem_map_of_mem ht)

/-- The link names the columns that the ends of the relation lead to. -/
def Link.Found (s : Schema) (l : Link) (r : Relation) : Prop :=
  ∃ t c u d, endOf s r.id r.source = .ok (t, c) ∧ endOf s r.id r.target = .ok (u, d) ∧
    l = ⟨u.name, d.name, t.name, c.name⟩

theorem endOf_eq_ok_iff {s : Schema} {relation : RelationId} {e : Endpoint} {t : Table}
    {c : Column} :
    endOf s relation e = .ok (t, c) ↔
      s.table? e.table = some t ∧ t.column? e.column = some c := by
  unfold endOf
  constructor
  · intro h
    split at h
    · cases h
    · next u hu =>
      split at h
      · cases h
      · next d hd =>
        cases h
        exact ⟨hu, hd⟩
  · rintro ⟨ht, hc⟩
    simp only [ht, hc]

theorem endOf_eq_ok {s : Schema} (hids : s.UniqueIds) {table column : String} {e : Endpoint}
    (he : s.Named table column e) (relation : RelationId) :
    ∃ t c, endOf s relation e = .ok (t, c) ∧ t.name = table ∧ c.name = column := by
  obtain ⟨t, ht, hname, c, hc, hcname, rfl⟩ := he
  have htable : s.table? t.id = some t := (find?_eq_some_iff_mem hids.tables).mpr ⟨ht, rfl⟩
  have hcolumn : t.column? c.id = some c :=
    (find?_eq_some_iff_mem (hids.columns t ht)).mpr ⟨hc, rfl⟩
  exact ⟨t, c, endOf_eq_ok_iff.mpr ⟨htable, hcolumn⟩, hname, hcname⟩

/-- Where no id is used twice, the columns that the ends name are those that are found. -/
theorem Link.Ends.found {s : Schema} (hids : s.UniqueIds) {l : Link} {r : Relation}
    (h : l.Ends s r.source r.target) : l.Found s r := by
  obtain ⟨holder, column, table, target⟩ := l
  obtain ⟨t, c, hsource, rfl, rfl⟩ := endOf_eq_ok hids h.1 r.id
  obtain ⟨u, d, htarget, rfl, rfl⟩ := endOf_eq_ok hids h.2 r.id
  exact ⟨t, c, u, d, hsource, htarget, rfl⟩

theorem relationStatement_eq_ok {s : Schema} {k : Nat} {r : Relation} {text : String} :
    relationStatement s k r = .ok text ↔ ∃ l : Link, l.Found s r ∧ text = linkStatement k l := by
  rw [relationStatement]
  constructor
  · intro h
    obtain ⟨⟨t, c⟩, hsource, h⟩ := ok_of_bind h
    obtain ⟨⟨u, d⟩, htarget, h⟩ := ok_of_bind h
    cases h
    exact ⟨_, ⟨t, c, u, d, hsource, htarget, rfl⟩, rfl⟩
  · rintro ⟨l, ⟨t, c, u, d, hsource, htarget, rfl⟩, rfl⟩
    rw [hsource, htarget]
    rfl

theorem relationStatements_eq_ok {s : Schema} {rs : List Relation} {k : Nat}
    {texts : List String} :
    relationStatements s (k + 1) rs = .ok texts ↔
      ∃ ls, List.Forall₂ (Link.Found s) ls rs ∧ texts = numberFrom linkStatement k ls := by
  induction rs generalizing k texts with
  | nil => simp [relationStatements, numberFrom, eq_comm]
  | cons r rest ih =>
    rw [relationStatements]
    constructor
    · intro h
      obtain ⟨text, hr, h⟩ := ok_of_bind h
      obtain ⟨more, hrest, h⟩ := ok_of_bind h
      obtain ⟨l, hl, rfl⟩ := relationStatement_eq_ok.mp hr
      obtain ⟨ls, hls, rfl⟩ := ih.mp hrest
      cases h
      exact ⟨l :: ls, .cons hl hls, rfl⟩
    · rintro ⟨_, hls, rfl⟩
      obtain ⟨l, ls, hl, hrest, rfl⟩ := List.forall₂_cons_right_iff.mp hls
      rw [relationStatement_eq_ok.mpr ⟨l, hl, rfl⟩, ih.mpr ⟨ls, hrest, rfl⟩]
      rfl

/-- The text of the statements depends on names only. -/
theorem intercalate_statements (s : Schema) (ls : List Link) :
    "\n".intercalate (s.tables.map tableStatement ++ numberFrom linkStatement 0 ls) =
      scriptText (TableSpec.exported s.specs) ls := by
  rw [scriptText, TableSpec.exported, Schema.specs, List.map_map, List.map_map]
  exact congrArg (fun texts => "\n".intercalate (texts ++ numberFrom linkStatement 0 ls))
    (List.map_congr_left fun t _ => tableStatement_eq t)

/-- The names are checked before the relations, and the links of these determine the rest. -/
theorem script_eq_of_found {s : Schema} {ls : List Link}
    (h : List.Forall₂ (Link.Found s) ls s.relations) :
    script s = match repeatedName? [] s.tables with
      | some e => .error e
      | none => .ok (scriptText (TableSpec.exported s.specs) ls) := by
  rw [script, relationStatements_eq_ok.mpr ⟨ls, h, rfl⟩, ← intercalate_statements]
  rfl

/-- A schema has a script only if the ends of its relations are found. -/
theorem exists_found_of_script {s : Schema} {ddl : String} (h : script s = .ok ddl) :
    ∃ ls, List.Forall₂ (Link.Found s) ls s.relations := by
  rw [script] at h
  split at h
  · cases h
  · obtain ⟨texts, htexts, -⟩ := ok_of_bind h
    obtain ⟨ls, hls, -⟩ := relationStatements_eq_ok.mp htexts
    exact ⟨ls, hls⟩

theorem script_eq_of_linkedBy {s : Schema} (hids : s.UniqueIds) {ls : List Link}
    (hlinks : LinkedBy s ls) :
    script s = match repeatedName? [] s.tables with
      | some e => .error e
      | none => .ok (scriptText (TableSpec.exported s.specs) ls) :=
  script_eq_of_found (hlinks.imp fun _ _ => Link.Ends.found hids)

/-- A schema has a script if no name is used twice, and the script depends on names only. -/
theorem script_eq_ok_iff {s : Schema} (hids : s.UniqueIds) {ls : List Link}
    (hlinks : LinkedBy s ls) {ddl : String} :
    script s = .ok ddl ↔
      TableSpec.Distinct s.specs ∧ ddl = scriptText (TableSpec.exported s.specs) ls := by
  rw [← repeatedName?_eq_none_iff, script_eq_of_linkedBy hids hlinks]
  cases repeatedName? [] s.tables with
  | some e => simp
  | none => simp [eq_comm]

end Sql
end Schemata
