/-
What is enclosed in marks stays there.  A name or a literal with its marks doubled is one lexeme in
front of anything that does not double the last mark, and what comes after it is cut into lexemes as
if a script went on there.  So different contents are never written the same, and the names in a
schema cannot add a token to its script.
-/
import Schemata.Proofs.Sql.Outlines

namespace Schemata
namespace Sql

open Text (Position byteCount)

/-! ## Scripts that go on -/

/-- The lexemes of a text that goes on at the given place. -/
def lexemesAt (position : Position) (offset : Nat) (cs : List Char) :
    Except LexError (List Lexeme) :=
  match (scan cs).ending with
  | .complete gap => .ok (locate position offset ((scan cs).pieces ++ [⟨gap, [], .eof⟩]))
  | .unterminated gap opener _ =>
    .error ⟨opener, position.after ((scan cs).pieces.flatMap Piece.span ++ gap)⟩

theorem tokenize_eq (script : String) : tokenize script = lexemesAt .start 0 script.toList := rfl

/-- The lexemes behind a piece are those of the text that goes on there. -/
theorem Cuts.lexemesAt_eq {p : Piece} {rest : List Char} (h : Cuts p rest) (position : Position)
    (offset : Nat) :
    lexemesAt position offset (p.span ++ rest) =
      (lexemesAt (position.after p.span) (offset + byteCount p.span) rest).map
        (⟨p, position.after p.gap, offset + byteCount p.gap⟩ :: ·) := by
  rw [lexemesAt, h.scan, lexemesAt]
  dsimp only
  cases (Sql.scan rest).ending with
  | complete gap => rfl
  | unterminated gap opener rest =>
    dsimp only
    rw [List.flatMap_cons, List.append_assoc, Position.after_append]
    rfl

/-! ## Enclosed contents -/

namespace Enclosure

/-- The content between its marks. -/
def spell (e : Enclosure) (content : String) : String := String.ofList (e.enclose content.toList)

variable {e : Enclosure} {rest : List Char}

theorem toList_spell (e : Enclosure) (content : String) :
    (e.spell content).toList = e.enclose content.toList := String.toList_ofList

theorem quoteName_eq : quoteName = (name .quotes).spell := by
  funext s
  rw [← String.toList_inj, toList_quoteName, toList_spell, enclose_name]

theorem cuts_enclose (hrest : e.closer ∉ rest.head?) (content : List Char) :
    Cuts ⟨[], e.enclose content, e.token content⟩ rest := by
  refine ⟨splitGap_of_beginsToken (e.beginsToken _), e.opener, _, rfl, ?_⟩
  rw [List.append_assoc]
  exact readToken_enclose hrest content

theorem enclose_injective {content content' : List Char}
    (h : e.enclose content = e.enclose content') : content = content' := by
  have hnil : e.closer ∉ ([] : List Char).head? := fun hmem => by cases hmem
  have hclose := (e.standsFor_escape content).close hnil
  rw [(List.cons.inj h).2, (e.standsFor_escape content').close hnil] at hclose
  exact (congrArg Read.value (Option.some.inj hclose)).symm

theorem spell_injective (e : Enclosure) : Function.Injective e.spell := by
  intro content content' h
  have hlist := congrArg String.toList h
  rw [toList_spell, toList_spell] at hlist
  exact String.toList_inj.mp (enclose_injective hlist)

/-! ## Main result -/

/-- Quoting cannot be escaped from.  What is enclosed is the first lexeme, with its content, and the
rest is cut into lexemes where it goes on.  No two contents are written the same, the names in a
script are written so, and where schemas differ by names only, so do their scripts. -/
theorem spell_contained :
    (∀ (e : Enclosure) (content rest : String), e.closer ∉ rest.toList.head? →
      tokenize (e.spell content ++ rest) =
        (lexemesAt (.behind (e.spell content).toList) (e.spell content).utf8ByteSize
          rest.toList).map
          (⟨⟨[], (e.spell content).toList, e.token content.toList⟩, .start, 0⟩ :: ·)) ∧
    (∀ e : Enclosure, Function.Injective e.spell) ∧
    quoteName = (name .quotes).spell ∧
    ∀ (s u : Schema) (ddl ddl' : String), s.frame = u.frame → script s = .ok ddl →
      script u = .ok ddl' → ∃ ks ls, tokenize ddl = .ok ks ∧ tokenize ddl' = .ok ls ∧
        ks.map Lexeme.outline = ls.map Lexeme.outline := by
  refine ⟨fun e content rest hrest => ?_, spell_injective, quoteName_eq,
    fun s u ddl ddl' hframe h h' => map_outline_of_script hframe h h'⟩
  have hcuts := (cuts_enclose hrest content.toList).lexemesAt_eq .start 0
  rw [tokenize_eq, String.toList_append, toList_spell, ← Position.after_eq_behind, spell,
    ← Text.byteCount_eq_utf8ByteSize, ← Nat.zero_add (byteCount _)]
  exact hcuts

/-- A schema like `cueNames` whose names would be statements if they were not contained. -/
def statementNames : Schema :=
  ⟨[⟨⟨"t"⟩, "\"); DROP TABLE \"x", [⟨⟨"c"⟩, "\"", .uuid, true, false, true, false⟩,
      ⟨⟨"d"⟩, "", .json, false, true, false, true⟩]⟩],
   [⟨⟨"r"⟩, ⟨⟨"t"⟩, ⟨"c"⟩⟩, ⟨⟨"t"⟩, ⟨"d"⟩⟩, .oneToMany⟩], 0⟩

def statementScript : String :=
  "CREATE TABLE \"\"\"); DROP TABLE \"\"x\" (\n    \"\"\"\" UUID NOT NULL,\n    \"\" JSON,\n" ++
    "    PRIMARY KEY (\"\"\"\")\n);\n" ++
    "\nALTER TABLE \"\"\"); DROP TABLE \"\"x\" ADD CONSTRAINT \"fk_\"\"); DROP TABLE \"\"x__1\"" ++
    " FOREIGN KEY (\"\") REFERENCES \"\"\"); DROP TABLE \"\"x\" (\"\"\"\");\n"

theorem spell_contained_marks :
    tokenize ((name .quotes).spell "\"\"" ++ "x") =
      .ok [⟨⟨[], "\"\"\"\"\"\"".toList, .quoted "\"\""⟩, ⟨1, 1⟩, 0⟩,
        ⟨⟨[], ['x'], .ident "x"⟩, ⟨1, 7⟩, 6⟩, ⟨⟨[], [], .eof⟩, ⟨1, 8⟩, 7⟩] ∧
    tokenize ((name .brackets).spell "\n]" ++ "'") = .error ⟨.string, ⟨2, 4⟩⟩ ∧
    tokenize (string.spell "\\'" ++ "") =
      .ok [⟨⟨[], "'\\\\'''".toList, .str "\\'"⟩, ⟨1, 1⟩, 0⟩, ⟨⟨[], [], .eof⟩, ⟨1, 7⟩, 6⟩] ∧
    ∃ ks ls, tokenize Dialect.cueScript = .ok ks ∧ tokenize statementScript = .ok ls ∧
      ks.map Lexeme.outline = ls.map Lexeme.outline :=
  ⟨(spell_contained.1 (name .quotes) "\"\"" "x" (by decide)).trans (by decide +kernel),
    (spell_contained.1 (name .brackets) "\n]" "'" (by decide)).trans (by decide +kernel),
    (spell_contained.1 string "\\'" "" (by decide)).trans (by decide +kernel),
    spell_contained.2.2.2 Dialect.cueNames statementNames _ _ (by decide) (by decide +kernel)
      (by decide +kernel)⟩

end Enclosure

end Sql
end Schemata
