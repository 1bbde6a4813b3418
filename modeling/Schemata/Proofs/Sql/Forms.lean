/-
The forms in which tables and links may be stated.  A form is a list of tokens, in which a name may
stand as any token that spells it, and in which words and clauses that change nothing may be there
or not.
-/
import Schemata.Proofs.Sql.ForeignKeys
import Schemata.Proofs.Sql.Statements

namespace Schemata

/-- The column without the mark of the primary key. -/
def ColumnSpec.unkeyed (c : ColumnSpec) : ColumnSpec := { c with isPrimaryKey := false }

/-- The name of the type in lower case. -/
def ColumnType.word (t : ColumnType) : String := String.ofList (Text.lowerAscii t.name.toList)

namespace Sql

/-! ## Names -/

/-- The name of a table, in front of which there may be others with dots, such as that of a
schema. -/
inductive TableNameForm (table : String) : List Token → Prop
  | plain {t : Token} (h : t.ident? = some table) : TableNameForm table [t]
  | qualified {schema : Token} {ts : List Token} (hschema : schema.isName = true)
      (h : TableNameForm table ts) : TableNameForm table (schema :: .dot :: ts)

/-- Names of columns in parentheses. -/
inductive ColumnListForm (columns : List String) : List Token → Prop
  | intro {names : List Token}
      (h : List.Forall₂ (fun column t => t.ident? = some column) columns names) :
      ColumnListForm columns
        ([.leftParen] ++ [Token.comma].intercalate (names.map fun t => [t]) ++ [.rightParen])

/-- The name that a constraint may have. -/
inductive LabelForm : List Token → Prop
  | unnamed : LabelForm []
  | named {t : Token} (h : t.isName = true) : LabelForm [.keyword .constraint, t]

/-! ## Tables -/

/-- A clause of a column that makes a mark. -/
inductive ColumnMark
  | primaryKey
  | notNull
  | unique
  deriving DecidableEq, Repr

def ColumnMark.tokens : ColumnMark → List Token
  | primaryKey => [.keyword .primary, .keyword .key]
  | notNull => [.keyword .not, .keyword .null]
  | unique => [.keyword .unique]

/-- The marks of a column, in one of their orders. -/
def columnMarks (c : ColumnSpec) : List ColumnMark :=
  (if c.isPrimaryKey then [.primaryKey] else []) ++ (if c.isNullable then [] else [.notNull]) ++
    (if c.isUnique then [.unique] else [])

inductive ColumnForm (c : ColumnSpec) : List Token → Prop
  | intro {name type : Token} {marks : List ColumnMark} (hname : name.ident? = some c.name)
      (htype : type.isWord c.type.word = true) (hmarks : marks.Perm (columnMarks c)) :
      ColumnForm c ([name, type] ++ marks.flatMap ColumnMark.tokens)

/-- A clause for the primary key of a table. -/
inductive KeyForm (columns : List String) : List Token → Prop
  | intro {label list : List Token} (hne : columns ≠ []) (hlabel : LabelForm label)
      (hlist : ColumnListForm columns list) :
      KeyForm columns (label ++ [.keyword .primary, .keyword .key] ++ list)

/-- The items of the body of a table.  The primary key is marked at its columns, or there is a
clause for it anywhere between them. -/
inductive BodyForm (t : TableSpec) : List (List Token) → Prop
  | inline {columns : List (List Token)} (h : List.Forall₂ ColumnForm t.columns columns) :
      BodyForm t columns
  | clause {before after : List (List Token)} {key : List Token} {names : List String}
      (hcolumns : List.Forall₂ ColumnForm (t.columns.map ColumnSpec.unkeyed) (before ++ after))
      (hkey : KeyForm names key) (hnames : names.Perm t.primaryKey) :
      BodyForm t (before ++ [key] ++ after)

inductive TableForm (t : TableSpec) : List Token → Prop
  | intro {guard name : List Token} {items : List (List Token)}
      (hguard : guard = [] ∨ guard = [.keyword .ifWord, .keyword .not, .keyword .existsWord])
      (hname : TableNameForm t.name name) (hbody : BodyForm t items) :
      TableForm t ([.keyword .create, .keyword .table] ++ guard ++ name ++
        ([.leftParen] ++ [Token.comma].intercalate items ++ [.rightParen]))

/-! ## Links -/

/-- What is to happen to a row when the row that it refers to changes. -/
inductive ActionForm : List Token → Prop
  | cascade {t : Token} (h : t.isWord "cascade" = true) : ActionForm [t]
  | restrict {t : Token} (h : t.isWord "restrict" = true) : ActionForm [t]
  | setNull {t : Token} (h : t.isWord "set" = true) : ActionForm [t, .keyword .null]
  | setDefault {t : Token} (h : t.isWord "set" = true) : ActionForm [t, .keyword .default]
  | noAction {t u : Token} (h : t.isWord "no" = true) (hu : u.isWord "action" = true) :
      ActionForm [t, u]

inductive ActionsForm : List Token → Prop
  | nil : ActionsForm []
  | cons {event : Token} {action rest : List Token}
      (hevent : event.isWord "delete" = true ∨ event.isWord "update" = true)
      (haction : ActionForm action) (hrest : ActionsForm rest) :
      ActionsForm ([.keyword .on, event] ++ action ++ rest)

/-- A statement that adds the foreign key of a link to a table. -/
inductive LinkForm (l : Link) : List Token → Prop
  | intro {guard only holder label column table target actions : List Token}
      (hguard : guard = [] ∨ guard = [.keyword .ifWord, .keyword .existsWord])
      (honly : only = [] ∨ only = [.keyword .only]) (hholder : TableNameForm l.holder holder)
      (hlabel : LabelForm label) (hcolumn : ColumnListForm [l.column] column)
      (htable : TableNameForm l.table table) (htarget : ColumnListForm [l.target] target)
      (hactions : ActionsForm actions) :
      LinkForm l ([.keyword .alter, .keyword .table] ++ guard ++ only ++ holder ++
        [.keyword .add] ++ label ++ [.keyword .foreign, .keyword .key] ++ column ++
        [.keyword .references] ++ table ++ target ++ actions)

/-- The statements of the tables and then of the links. -/
def ScriptForm (ts : List TableSpec) (ls : List Link) (statements : List (List Token)) : Prop :=
  ∃ tables links, statements = tables ++ links ∧ List.Forall₂ TableForm ts tables ∧
    List.Forall₂ LinkForm ls links

/-! ## Forms are statements -/

theorem isName_of_ident? {t : Token} {name : String} (h : t.ident? = some name) :
    t.isName = true := by
  rw [Token.isName, h]
  rfl

theorem isName_of_isWord {t : Token} {word : String} (h : t.isWord word = true) :
    t.isName = true := by
  cases t <;> first | rfl | cases h

theorem balanced_name {t : Token} (h : t.isName = true) : Balanced [t] := by
  cases t <;> first | exact fun _ => rfl | cases h

theorem balanced_keyword (k : Keyword) : Balanced [.keyword k] :=
  fun _ => rfl

theorem balanced_word {t : Token} {word : String} (h : t.isWord word = true) : Balanced [t] :=
  balanced_name (isName_of_isWord h)

theorem balanced_optional {part ts : List Token} (h : ts = [] ∨ ts = part) (hpart : Balanced part) :
    Balanced ts := by
  rcases h with rfl | rfl
  · exact balanced_nil
  · exact hpart

theorem TableNameForm.balanced {table : String} {ts : List Token} (h : TableNameForm table ts) :
    Balanced ts := by
  induction h with
  | plain h => exact balanced_name (isName_of_ident? h)
  | @qualified schema ts hschema _ ih =>
    exact ((balanced_name hschema).append (show Balanced [.dot] from fun _ => rfl)).append ih

theorem ColumnListForm.balanced {columns : List String} {ts : List Token}
    (h : ColumnListForm columns ts) : Balanced ts := by
  obtain ⟨hnames⟩ := h
  refine Balanced.group (balanced_intercalate fun part hpart => ?_)
  obtain ⟨t, ht, rfl⟩ := List.mem_map.mp hpart
  obtain ⟨column, -, hname⟩ := exists_left_of_forall₂ hnames t ht
  exact balanced_name (isName_of_ident? hname)

theorem LabelForm.balanced {ts : List Token} (h : LabelForm ts) : Balanced ts := by
  cases h with
  | unnamed => exact balanced_nil
  | named h => exact (balanced_keyword .constraint).append (balanced_name h)

theorem balanced_marks (marks : List ColumnMark) :
    Balanced (marks.flatMap ColumnMark.tokens) := by
  induction marks with
  | nil => exact balanced_nil
  | cons mark marks ih =>
    refine Balanced.append ?_ ih
    cases mark <;> exact fun _ => rfl

theorem ColumnForm.balanced {c : ColumnSpec} {ts : List Token} (h : ColumnForm c ts) :
    Balanced ts := by
  obtain ⟨hname, htype, -⟩ := h
  exact ((balanced_name (isName_of_ident? hname)).append (balanced_word htype)).append
    (balanced_marks _)

theorem KeyForm.balanced {columns : List String} {ts : List Token} (h : KeyForm columns ts) :
    Balanced ts := by
  obtain ⟨-, hlabel, hlist⟩ := h
  exact (hlabel.balanced.append fun _ => rfl).append hlist.balanced

theorem BodyForm.balanced {t : TableSpec} {items : List (List Token)} (h : BodyForm t items) :
    ∀ item ∈ items, Balanced item := by
  intro item hitem
  cases h with
  | inline hcolumns =>
    obtain ⟨c, -, hc⟩ := exists_left_of_forall₂ hcolumns item hitem
    exact hc.balanced
  | @clause before after key names hcolumns hkey hnames =>
    by_cases hitem' : item = key
    · rw [hitem']
      exact hkey.balanced
    · have hmem : item ∈ before ++ after := by
        simpa [hitem'] using hitem
      obtain ⟨c, -, hc⟩ := exists_left_of_forall₂ hcolumns item hmem
      exact hc.balanced

theorem TableForm.balanced {t : TableSpec} {ts : List Token} (h : TableForm t ts) :
    Balanced ts := by
  obtain ⟨hguard, hname, hbody⟩ := h
  have hhead := ((balanced_keyword .create).append (balanced_keyword .table)).append
    (balanced_optional hguard fun _ => rfl)
  exact (hhead.append hname.balanced).append (balanced_intercalate hbody.balanced).group

theorem ActionForm.balanced {ts : List Token} (h : ActionForm ts) : Balanced ts := by
  cases h with
  | cascade h => exact balanced_word h
  | restrict h => exact balanced_word h
  | setNull h => exact (balanced_word h).append (balanced_keyword .null)
  | setDefault h => exact (balanced_word h).append (balanced_keyword .default)
  | noAction h hu => exact (balanced_word h).append (balanced_word hu)

theorem ActionsForm.balanced {ts : List Token} (h : ActionsForm ts) : Balanced ts := by
  induction h with
  | nil => exact balanced_nil
  | cons hevent haction _ ih =>
    have hevent' : Balanced [_] := hevent.elim balanced_word balanced_word
    exact (((balanced_keyword .on).append hevent').append haction.balanced).append ih

theorem LinkForm.balanced {l : Link} {ts : List Token} (h : LinkForm l ts) : Balanced ts := by
  obtain ⟨hguard, honly, hholder, hlabel, hcolumn, htable, htarget, hactions⟩ := h
  have hhead := (((balanced_keyword .alter).append (balanced_keyword .table)).append
    (balanced_optional hguard fun _ => rfl)).append (balanced_optional honly fun _ => rfl)
  have hadd := ((hhead.append hholder.balanced).append (balanced_keyword .add)).append
    hlabel.balanced
  have hkey := (hadd.append ((balanced_keyword .foreign).append (balanced_keyword .key))).append
    hcolumn.balanced
  exact (((hkey.append (balanced_keyword .references)).append
    htable.balanced).append htarget.balanced).append hactions.balanced

theorem ScriptForm.balanced {ts : List TableSpec} {ls : List Link}
    {statements : List (List Token)} (h : ScriptForm ts ls statements) :
    ∀ statement ∈ statements, Balanced statement ∧ statement ≠ [] := by
  obtain ⟨tables, links, rfl, htables, hlinks⟩ := h
  intro statement hmem
  rcases List.mem_append.mp hmem with hmem | hmem
  · obtain ⟨t, -, ht⟩ := exists_left_of_forall₂ htables statement hmem
    refine ⟨ht.balanced, ?_⟩
    obtain ⟨-, -, -⟩ := ht
    simp
  · obtain ⟨l, -, hl⟩ := exists_left_of_forall₂ hlinks statement hmem
    refine ⟨hl.balanced, ?_⟩
    obtain ⟨-, -, -, -, -, -, -, -⟩ := hl
    simp

end Sql
end Schemata
