/-
Texts that spell tokens.  A keyword may be in any letter case, and a name bare or in one of the
kinds of quotation; blanks and comments may stand between the tokens, and have to where a word would
go on otherwise.  However the tables and links of a script are stated and spelled, the script
defines these and nothing else.
-/
import Schemata.Proofs.Sql.ScriptSchema

namespace Schemata
namespace Sql

/-- The text has blanks and comments only, and what comes after it belongs to none of them. -/
def IsClosedGap (gap : List Char) : Prop := splitGap (gap ++ [';']) = (gap, [';'])

instance (gap : List Char) : Decidable (IsClosedGap gap) :=
  inferInstanceAs (Decidable (_ = _))

instance (gap : List Char) : Decidable (IsGap gap) := inferInstanceAs (Decidable (_ = _))

namespace Token

/-- The text is a spelling of the token. -/
def SpelledBy (text : List Char) : Token → Prop
  | keyword k => text.map Char.toUpper = k.spelling
  | ident name => text = name.toList ∧ isBare text = true ∧ Keyword.ofWord? text = none
  | quoted name => ∃ q ∈ Quotation.all, text = q.quote name.toList
  | t => text.map punctuation? = [some t]

/-- The text after a spelling of the token does not go on with it. -/
def EndsBefore (text rest : List Char) : Token → Prop
  | keyword _ | ident _ => ∀ c ∈ rest.head?, continuesWord c = false
  | quoted _ => ∀ c ∈ rest.head?, c ∉ text.getLast?
  | _ => True

/-- What comes next is one character to look at, so no search through all of them is needed. -/
instance decidableNext (p : Char → Prop) [DecidablePred p] :
    (rest : List Char) → Decidable (∀ c ∈ rest.head?, p c)
  | [] => isTrue fun _ h => by cases h
  | c :: _ => decidable_of_iff (p c) ⟨fun hc d hd => by cases hd; exact hc, fun h => h c rfl⟩

instance (text : List Char) : (t : Token) → Decidable (t.SpelledBy text)
  | keyword k => inferInstanceAs (Decidable (_ = k.spelling))
  | ident name =>
    inferInstanceAs (Decidable (text = name.toList ∧ isBare text = true ∧
      Keyword.ofWord? text = none))
  | quoted name => inferInstanceAs (Decidable (∃ q ∈ Quotation.all, text = q.quote name.toList))
  | str _ | num _ | leftParen | rightParen | comma | semicolon | dot | symbol _ | eof =>
    inferInstanceAs (Decidable (text.map punctuation? = _))

instance (text rest : List Char) : (t : Token) → Decidable (t.EndsBefore text rest)
  | keyword _ | ident _ => inferInstanceAs (Decidable (∀ c ∈ rest.head?, continuesWord c = false))
  | quoted _ => inferInstanceAs (Decidable (∀ c ∈ rest.head?, c ∉ text.getLast?))
  | str _ | num _ | leftParen | rightParen | comma | semicolon | dot | symbol _ | eof =>
    inferInstanceAs (Decidable True)

end Token

/-- In front of `rest`, the piece spells its token. -/
structure Piece.Spelled (p : Piece) (rest : List Char) : Prop where
  gap : IsClosedGap p.gap
  text : p.token.SpelledBy p.text
  ends : p.token.EndsBefore p.text rest

instance (p : Piece) (rest : List Char) : Decidable (p.Spelled rest) :=
  decidable_of_iff (IsClosedGap p.gap ∧ p.token.SpelledBy p.text ∧ p.token.EndsBefore p.text rest)
    ⟨fun h => ⟨h.1, h.2.1, h.2.2⟩, fun h => ⟨h.gap, h.text, h.ends⟩⟩

/-- The pieces spell their tokens one after the other. -/
def SpelledAll : List Piece → List Char → Prop
  | [], _ => True
  | p :: ps, rest => p.Spelled (ps.flatMap Piece.span ++ rest) ∧ SpelledAll ps rest

instance decidableSpelledAll : (ps : List Piece) → (rest : List Char) →
    Decidable (SpelledAll ps rest)
  | [], _ => inferInstanceAs (Decidable True)
  | p :: ps, rest =>
    have := decidableSpelledAll ps rest
    inferInstanceAs (Decidable (p.Spelled (ps.flatMap Piece.span ++ rest) ∧ SpelledAll ps rest))

/-- The text spells the tokens one after the other. -/
def Spells (text : String) (tokens : List Token) : Prop :=
  ∃ ps gap, text.toList = ps.flatMap Piece.span ++ gap ∧ SpelledAll ps gap ∧ IsGap gap ∧
    ps.map (·.token) = tokens

/-! ## Spellings are cut off -/

theorem splitGap_of_isClosedGap {gap : List Char} (h : IsClosedGap gap) {cs : List Char}
    (hcs : BeginsToken cs) : splitGap (gap ++ cs) = (gap, cs) := by
  have hne : (splitGap (gap ++ [';'])).2 ≠ [] := by
    rw [h]
    simp
  have hreplace := splitGap_replace hne hcs
  rwa [h] at hreplace

/-- Only letters of ASCII have an upper case in ASCII here. -/
theorem upperChar_of_isUpper {c : Char} (h : c.toUpper.isUpper = true) :
    Text.upperChar c = [c.toUpper] ∧ beginsWord c = true := by
  unfold Char.toUpper at h ⊢
  by_cases hlower : c.val ≥ 'a'.val ∧ c.val ≤ 'z'.val
  · have hlo : 0x61 ≤ c.toNat := UInt32.le_iff_toNat_le.mp hlower.1
    have hhi : c.toNat ≤ 0x7A := UInt32.le_iff_toNat_le.mp hlower.2
    have hcond : ('a' ≤ c && c ≤ 'z') = true := by
      rw [Bool.and_eq_true, decide_eq_true_iff, decide_eq_true_iff]
      exact hlower
    constructor
    · have hvalid : (c.toNat - 32).isValidChar := .inl (by omega)
      rw [Text.upperChar, if_pos hcond, dif_pos hlower]
      refine congrArg (fun d => [d]) (Char.ext ?_)
      rw [Char.ofNat, dif_pos hvalid]
      apply UInt32.toNat_inj.mp
      have hstep : ('A'.val - 'a'.val).toNat = 2 ^ 32 - 32 := by decide
      rw [UInt32.toNat_add, hstep]
      change c.toNat - 32 = (c.toNat + _) % _
      omega
    · have halphabetic : Text.isAlphabetic c = true := by
        rw [Text.isAlphabetic, Text.alphabeticRanges, Text.within, if_neg (by omega),
          Bool.or_eq_true]
        exact .inr (Text.within_cons_of_le hlo hhi _)
      rw [beginsWord, halphabetic]
      rfl
  · rw [dif_neg hlower] at h ⊢
    have hrange : c.val ≥ 'A'.val ∧ c.val ≤ 'Z'.val := of_decide_eq_true h
    have hhi : c.toNat ≤ 0x5A := UInt32.le_iff_toNat_le.mp hrange.2
    have hcond : ¬('a' ≤ c && c ≤ 'z') = true := by
      rw [Bool.and_eq_true, decide_eq_true_iff, decide_eq_true_iff]
      exact hlower
    refine ⟨?_, beginsWord_of_isUpper h⟩
    rw [Text.upperChar, if_neg hcond]
    split <;> first | omega | rfl

theorem upper_of_isUpper {word : List Char} (h : ∀ c ∈ word.map Char.toUpper, c.isUpper = true) :
    Text.upper word = word.map Char.toUpper := by
  rw [Text.upper, List.map_eq_flatMap]
  exact List.flatMap_congr fun c hc => (upperChar_of_isUpper (h _ (List.mem_map_of_mem hc))).1

theorem wordToken_of_spelling {k : Keyword} {word : List Char}
    (h : word.map Char.toUpper = k.spelling) :
    isBare word = true ∧ wordToken word = .keyword k := by
  have hspelling : k.spelling ≠ [] ∧ ∀ c ∈ k.spelling, c.isUpper = true := by
    rw [← List.all_eq_true]
    cases k <;> decide
  rw [← h] at hspelling
  have hbegins : ∀ c ∈ word, beginsWord c = true := fun c hc =>
    (upperChar_of_isUpper (hspelling.2 _ (List.mem_map_of_mem hc))).2
  have hword : Keyword.ofWord? word = some k := by
    rw [Keyword.ofWord?, upper_of_isUpper hspelling.2, h]
    cases k <;> decide
  constructor
  · cases word with
    | nil => exact absurd rfl hspelling.1
    | cons c word =>
      obtain ⟨hc, hword⟩ := List.forall_mem_cons.mp hbegins
      rw [isBare, Bool.and_eq_true, List.all_eq_true]
      exact ⟨hc, fun d hd => continuesWord_of_beginsWord (hword d hd)⟩
  · rw [wordToken, hword]

section

variable {gap text rest : List Char} {t : Token}

theorem cuts_of_readToken (hgap : IsClosedGap gap) {c : Char} {more : List Char}
    (htext : text = c :: more) (hbegins : BeginsToken (text ++ rest))
    (hread : readToken c (more ++ rest) = .ok ⟨t, text, rest⟩) : Cuts ⟨gap, text, t⟩ rest := by
  refine ⟨?_, c, more, htext, hread⟩
  rw [Piece.span, List.append_assoc]
  exact splitGap_of_isClosedGap hgap hbegins

theorem cuts_bare (hgap : IsClosedGap gap) (hbare : isBare text = true)
    (hrest : ∀ c ∈ rest.head?, continuesWord c = false) :
    Cuts ⟨gap, text, wordToken text⟩ rest := by
  cases text with
  | nil => cases hbare
  | cons c word =>
    exact cuts_of_readToken hgap rfl (beginsToken_bare (Bool.and_eq_true_iff.mp hbare).1 _)
      (readToken_bare hbare hrest)

theorem cuts_quote (hgap : IsClosedGap gap) {q : Quotation} (hrest : q.closer ∉ rest.head?)
    (name : List Char) : Cuts ⟨gap, q.quote name, .quoted (String.ofList name)⟩ rest := by
  refine cuts_of_readToken hgap rfl (beginsToken_quote q name rest) ?_
  rw [List.append_assoc]
  exact readToken_quote hrest name

theorem cuts_mark (hgap : IsClosedGap gap) (ht : text.map punctuation? = [some t])
    (rest : List Char) : Cuts ⟨gap, text, t⟩ rest := by
  obtain ⟨c, hc, rfl⟩ : ∃ c, punctuation? c = some t ∧ text = [c] := by
    obtain ⟨c, more, rfl, hc, hmore⟩ := List.map_eq_cons_iff.mp ht
    exact ⟨c, hc, by rw [List.map_eq_nil_iff.mp hmore]⟩
  exact cuts_of_readToken hgap rfl (beginsToken_mark hc rest) (readToken_mark hc rest)

end

theorem Piece.Spelled.cuts {p : Piece} {rest : List Char} (h : p.Spelled rest) : Cuts p rest := by
  obtain ⟨hgap, htext, hends⟩ := h
  obtain ⟨gap, text, token⟩ := p
  cases token with
  | keyword k =>
    obtain ⟨hbare, htoken⟩ := wordToken_of_spelling htext
    rw [← htoken]
    exact cuts_bare hgap hbare hends
  | ident name =>
    obtain ⟨rfl, hbare, hword⟩ := htext
    have htoken : wordToken name.toList = .ident name := by
      rw [wordToken, hword, String.ofList_toList]
    rw [← htoken]
    exact cuts_bare hgap hbare hends
  | quoted name =>
    obtain ⟨q, -, rfl⟩ := htext
    have hcloser : q.closer ∉ rest.head? := by
      intro hmem
      refine hends _ hmem ?_
      rw [Quotation.quote, ← List.cons_append, List.getLast?_concat]
      rfl
    have hcuts := cuts_quote hgap hcloser name.toList
    rwa [String.ofList_toList] at hcuts
  | _ => exact cuts_mark hgap htext rest

theorem SpelledAll.cutsAll {ps : List Piece} {rest : List Char} (h : SpelledAll ps rest) :
    CutsAll ps rest := by
  induction ps with
  | nil => exact True.intro
  | cons p ps ih => exact ⟨h.1.cuts, ih h.2⟩

theorem tokenize_of_spells {text : String} {tokens : List Token} (h : Spells text tokens) :
    ∃ lexemes, tokenize text = .ok lexemes ∧ lexemes.map (·.token) = tokens ++ [.eof] := by
  obtain ⟨ps, gap, htext, hspelled, hgap, rfl⟩ := h
  refine ⟨_, tokenize_eq_ok.mpr ⟨ps, gap, htext, hspelled.cutsAll, hgap, rfl⟩, ?_⟩
  rw [map_token_locate, List.map_append]
  rfl

/-! ## Main result -/

/-- However the tables and links are stated and spelled, these come back, and nothing else. -/
theorem schemaOf_of_spells {ts : List TableSpec} (hnames : TableSpec.Distinct ts) {ls : List Link}
    (hlinks : ∀ l ∈ ls, l.Declared ts) {statements : List (List Token)}
    (hform : ScriptForm ts ls statements) {tokens : List Token}
    (hjoined : Joined statements tokens) {text : String} (htext : Spells text tokens)
    (options : ImportOptions) :
    ∃ js, List.Forall₂ (Link.Joins options.inferOneToOne ts) ls js ∧
      schemaOf options text = .ok (Schema.numbered ts js) := by
  obtain ⟨lexemes, hlexemes, htokens⟩ := tokenize_of_spells htext
  obtain ⟨js, hjs⟩ := exists_joins_iff.mpr hlinks
  exact ⟨js, hjs, (schemaOf_of_tokens hnames hform hjoined hlexemes htokens).mpr ⟨js, hjs, rfl⟩⟩

/-- A script whose names are words of the grammar where they can be. -/
def wordyScript : String :=
  "create TABLE if not exists shop.set(match Integer,constraint using Primary Key(match),\n" ++
    "[a]]b] uuid unique not null);alter table ONLY \"set\" add foreign key(\x60a]b\x60)" ++
    "references set (match) -- (\non delete set NULL"

def wordyTable : TableSpec :=
  ⟨"set", [⟨"match", .integer, true, false, true⟩, ⟨"a]b", .uuid, false, true, false⟩]⟩

def wordyLink : Link := ⟨"set", "a]b", "set", "match"⟩

def wordyStatements : List (List Token) :=
  [[Token.keyword .create, .keyword .table] ++
      [Token.keyword .ifWord, .keyword .not, .keyword .existsWord] ++
      [Token.ident "shop", .dot, .ident "set"] ++ ([Token.leftParen] ++
        [Token.comma].intercalate
          [[.ident "match", .ident "Integer"],
            [.keyword .constraint, .ident "using", .keyword .primary, .keyword .key, .leftParen,
              .ident "match", .rightParen],
            [.quoted "a]b", .ident "uuid", .keyword .unique, .keyword .not, .keyword .null]] ++
        [Token.rightParen]),
    [Token.keyword .alter, .keyword .table] ++ [] ++ [Token.keyword .only] ++
      [Token.quoted "set"] ++ [Token.keyword .add] ++ [] ++
      [Token.keyword .foreign, .keyword .key] ++ [Token.leftParen, .quoted "a]b", .rightParen] ++
      [Token.keyword .references] ++ [Token.ident "set"] ++
      [Token.leftParen, .ident "match", .rightParen] ++
      [Token.keyword .on, .ident "delete", .ident "set", .keyword .null]]

theorem spells_wordyScript :
    Spells wordyScript ([Token.semicolon].intercalate wordyStatements) := by
  refine ⟨(scan wordyScript.toList).pieces, [], ?_⟩
  decide +kernel

theorem scriptForm_wordyStatements : ScriptForm [wordyTable] [wordyLink] wordyStatements := by
  have hlist : ∀ {t : Token} {name : String}, t.ident? = some name →
      ColumnListForm [name] [.leftParen, t, .rightParen] := fun h => .intro (.cons h .nil)
  have hmatch : ColumnForm ⟨"match", .integer, false, false, true⟩
      ([Token.ident "match", .ident "Integer"] ++ ([] : List ColumnMark).flatMap ColumnMark.tokens) :=
    .intro rfl (by decide) (by decide)
  have hbracket : ColumnForm ⟨"a]b", .uuid, false, true, false⟩
      ([Token.quoted "a]b", .ident "uuid"] ++
        [ColumnMark.unique, .notNull].flatMap ColumnMark.tokens) :=
    .intro rfl (by decide) (by decide)
  have hkey : KeyForm ["match"] ([Token.keyword .constraint, .ident "using"] ++
      [Token.keyword .primary, .keyword .key] ++
        [Token.leftParen, .ident "match", .rightParen]) :=
    .intro (by decide) (.named rfl) (hlist rfl)
  have hbody : BodyForm wordyTable ([_] ++ [_] ++ [_]) :=
    .clause (.cons hmatch (.cons hbracket .nil)) hkey (by decide)
  refine ⟨wordyStatements.take 1, wordyStatements.drop 1, rfl, .cons ?_ .nil, .cons ?_ .nil⟩
  · exact .intro (.inr rfl) (.qualified rfl (.plain rfl)) hbody
  · exact .intro (.inl rfl) (.inr rfl) (.plain rfl) .unnamed (hlist rfl) (.plain rfl) (hlist rfl)
      (.cons (.inl (by decide)) (.setNull (by decide)) .nil)

theorem schemaOf_wordyScript :
    (TableSpec.Distinct [wordyTable] ∧ (∀ l ∈ [wordyLink], l.Declared [wordyTable]) ∧
        ScriptForm [wordyTable] [wordyLink] wordyStatements ∧
        Joined wordyStatements ([Token.semicolon].intercalate wordyStatements) ∧
        Spells wordyScript ([Token.semicolon].intercalate wordyStatements)) ∧
      ∃ js, List.Forall₂ (Link.Joins false [wordyTable]) [wordyLink] js ∧
        schemaOf {} wordyScript = .ok (Schema.numbered [wordyTable] js) := by
  have hnames : TableSpec.Distinct [wordyTable] := ⟨by decide, by decide⟩
  have hlinks : ∀ l ∈ [wordyLink], l.Declared [wordyTable] := by
    simp [Link.Declared, TableSpec.Declare, wordyTable, wordyLink]
  exact ⟨⟨hnames, hlinks, scriptForm_wordyStatements, .opened, spells_wordyScript⟩,
    schemaOf_of_spells hnames hlinks scriptForm_wordyStatements .opened spells_wordyScript {}⟩

end Sql
end Schemata
