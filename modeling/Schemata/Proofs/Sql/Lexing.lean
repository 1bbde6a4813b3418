/-
How a text that is put together from names, words and marks is cut into tokens.  What follows a
name or a word must not continue it; what follows anything else does not matter.
-/
import Mathlib.Tactic.ByContra
import Schemata.Proofs.Sql.BareWords
import Schemata.Proofs.Sql.Enclosures
import Schemata.Sql.Script

namespace Schemata
namespace Sql

open Text (isBlank)

/-- The text is cut into the tokens, and nothing in it is left open.  No name in it is quoted by
other than quotation marks. -/
inductive Lexes : List Char → List Token → Prop
  | done {cs : List Char} (hgap : (splitGap cs).2 = []) : Lexes cs []
  | token {cs : List Char} {c : Char} {rest : List Char} {r : Read Token} {ts : List Token}
      (hgap : (splitGap cs).2 = c :: rest) (hread : readToken c rest = .ok r)
      (hquotes : ∀ name, r.value = .quoted name → c = '"') (hmore : Lexes r.rest ts) :
      Lexes cs (r.value :: ts)

theorem scan_of_lexes {cs : List Char} {ts : List Token} (h : Lexes cs ts) :
    (scan cs).pieces.map (·.token) = ts ∧ ∃ gap, (scan cs).ending = .complete gap := by
  induction h with
  | done hgap =>
    rw [scan_of_splitGap hgap]
    exact ⟨rfl, _, rfl⟩
  | token hgap hread _ _ ih =>
    rw [scan_of_readToken hgap hread]
    exact ⟨congrArg _ ih.1, ih.2⟩

/-- A quoted name in such a text opens with a quotation mark. -/
theorem head?_of_lexes {cs : List Char} {ts : List Token} (h : Lexes cs ts) :
    ∀ p ∈ (scan cs).pieces, ∀ name, p.token = .quoted name → p.text.head? = some '"' := by
  induction h with
  | done hgap =>
    rw [scan_of_splitGap hgap]
    exact List.forall_mem_nil _
  | @token cs c rest r ts hgap hread hquotes _ ih =>
    rw [scan_of_readToken hgap hread]
    refine List.forall_mem_cons.mpr ⟨fun name hname => ?_, ih⟩
    obtain ⟨text, htext, -⟩ := readToken_replace hread (.nil r.rest)
    show r.text.head? = _
    rw [htext, hquotes name hname]
    rfl

theorem map_token_locate (position : Text.Position) (offset : Nat) (ps : List Piece) :
    (locate position offset ps).map (·.token) = ps.map (·.token) := by
  induction ps generalizing position offset with
  | nil => rfl
  | cons p rest ih => simp only [locate, List.map_cons, ih]

theorem tokenize_of_lexes {script : String} {ts : List Token} (h : Lexes script.toList ts) :
    ∃ ls, tokenize script = .ok ls ∧ ls.map (·.token) = ts ++ [.eof] := by
  obtain ⟨hpieces, gap, hending⟩ := scan_of_lexes h
  refine ⟨locate .start 0 ((scan script.toList).pieces ++ [⟨gap, [], .eof⟩]), ?_, ?_⟩
  · simp only [tokenize, hending]
  · rw [map_token_locate, List.map_append, hpieces]
    rfl

theorem head?_of_tokenize {script : String} {ts : List Token} {ls : List Lexeme}
    (h : Lexes script.toList ts) (hls : tokenize script = .ok ls) :
    ∀ l ∈ ls, ∀ name, l.token = .quoted name → l.text.head? = some '"' := by
  obtain ⟨-, gap, hending⟩ := scan_of_lexes h
  simp only [tokenize, hending, Except.ok.injEq] at hls
  subst hls
  intro l hl name hname
  have hmem := List.mem_map_of_mem (f := (·.toPiece)) hl
  rw [map_toPiece_locate] at hmem
  rcases List.mem_append.mp hmem with hmem | hmem
  · exact head?_of_lexes h _ hmem name hname
  · rw [show l.token = .eof from congrArg Piece.token (List.mem_singleton.mp hmem)] at hname
    cases hname

/-! ## Blanks and marks -/

theorem Lexes.blank {c : Char} {cs : List Char} {ts : List Token} (hc : isBlank c = true)
    (h : Lexes cs ts) : Lexes (c :: cs) ts := by
  have hgap : (splitGap (c :: cs)).2 = (splitGap cs).2 := by
    rw [splitGap, if_pos hc]
  cases h with
  | done hnil => exact .done (hgap.trans hnil)
  | token hcons hread hquotes hmore => exact .token (hgap.trans hcons) hread hquotes hmore

theorem beginsToken_mark {c : Char} {t : Token} (hc : punctuation? c = some t) (cs : List Char) :
    BeginsToken (c :: cs) := by
  have hplain : isBlank c = false ∧ c ≠ '-' ∧ c ≠ '#' ∧ c ≠ '/' := by
    obtain ⟨rfl, -⟩ | ⟨rfl, -⟩ | ⟨rfl, -⟩ | ⟨rfl, -⟩ | ⟨rfl, -⟩ := mark_of_punctuation? hc <;> decide
  refine ⟨fun d hd => ?_, comment?_eq_none hplain.2.1 hplain.2.2.1 hplain.2.2.2⟩
  cases hd
  exact hplain.1

theorem readToken_mark {c : Char} {t : Token} (hc : punctuation? c = some t) (cs : List Char) :
    readToken c cs = .ok ⟨t, [c], cs⟩ :=
  (ReadsToken.mark hc).readToken_eq

theorem Lexes.mark {c : Char} {cs : List Char} {t : Token} {ts : List Token}
    (hc : punctuation? c = some t) (h : Lexes cs ts) : Lexes (c :: cs) (t :: ts) := by
  have hquotes : ∀ name, t ≠ .quoted name := by
    obtain ⟨-, rfl⟩ | ⟨-, rfl⟩ | ⟨-, rfl⟩ | ⟨-, rfl⟩ | ⟨-, rfl⟩ := mark_of_punctuation? hc <;> simp
  exact .token (congrArg Prod.snd (splitGap_of_beginsToken (beginsToken_mark hc cs)))
    (readToken_mark hc cs) (fun name hname => absurd hname (hquotes name)) h

/-! ## Quoted names -/

theorem toList_quoteName (name : String) :
    (quoteName name).toList = Quotation.quotes.quote name.toList := by
  rw [quoteName, String.toList_ofList]
  rfl

/-- A quoted name is one token, whatever characters the name has. -/
theorem readToken_quote {q : Quotation} {rest : List Char} (hrest : q.closer ∉ rest.head?)
    (name : List Char) :
    readToken q.opener (q.escape name ++ q.closer :: rest) =
      .ok ⟨.quoted (String.ofList name), q.quote name, rest⟩ := by
  rw [← Enclosure.escape_name, ← Enclosure.enclose_name]
  exact Enclosure.readToken_enclose (e := .name q) hrest name

theorem beginsToken_quote (q : Quotation) (name rest : List Char) :
    BeginsToken (q.quote name ++ rest) :=
  Enclosure.beginsToken (.name q) _

/-! ## Words -/

/-- A word that may stand without quotation marks. -/
def isBare : List Char → Bool
  | [] => false
  | c :: rest => beginsWord c && rest.all continuesWord

theorem ne_of_beginsWord {c d : Char} (hc : beginsWord c = true) (hd : beginsWord d = false) :
    c ≠ d := by
  rintro rfl
  rw [hc] at hd
  cases hd

theorem isBlank_of_continuesWord {c : Char} (h : continuesWord c = true) : isBlank c = false := by
  rw [isBlank, Bool.eq_false_iff]
  intro hblank
  have hmem : c.toNat ∈ 0x28 :: Text.blankCodes :=
    List.mem_cons_of_mem _ (List.contains_iff_mem.mp hblank)
  rw [continuesWord_eq_false hmem] at h
  cases h

theorem isBlank_of_beginsWord {c : Char} (h : beginsWord c = true) : isBlank c = false :=
  isBlank_of_continuesWord (continuesWord_of_beginsWord h)

theorem not_isDigit_of_beginsWord {c : Char} (h : beginsWord c = true) : ¬isDigit c = true := by
  intro hdigit
  rw [isDigit, Bool.and_eq_true, decide_eq_true_iff, decide_eq_true_iff] at hdigit
  have hnine : c.toNat ≤ 0x39 := hdigit.2
  have halphabetic : Text.isAlphabetic c = false := Text.within_of_lt (by omega) _
  have hline : c ≠ '_' := by
    rintro rfl
    exact absurd hnine (by decide)
  rw [beginsWord, halphabetic, decide_eq_false hline] at h
  cases h

theorem opensNothing_of_beginsWord {c : Char} (h : beginsWord c = true) (cs : List Char) :
    OpensNothing c cs := by
  have hne : ∀ {d : Char}, beginsWord d = false → c ≠ d := ne_of_beginsWord h
  refine ⟨?_, ?_, hne (by decide), hne (by decide), not_isDigit_of_beginsWord h,
    fun hc => absurd hc (hne (by decide)), fun hc => absurd hc (hne (by decide))⟩
  · simp [punctuation?, hne (d := '(') (by decide), hne (d := ')') (by decide),
      hne (d := ',') (by decide), hne (d := ';') (by decide), hne (d := '.') (by decide)]
  · simp [hne (d := '"') (by decide), hne (d := '\x60') (by decide)]

theorem beginsToken_bare {c : Char} (h : beginsWord c = true) (cs : List Char) :
    BeginsToken (c :: cs) := by
  refine ⟨fun d hd => ?_, comment?_eq_none (ne_of_beginsWord h (by decide))
    (ne_of_beginsWord h (by decide)) (ne_of_beginsWord h (by decide))⟩
  cases hd
  exact isBlank_of_beginsWord h

theorem wordToken_ne_quoted {word : List Char} {name : String} :
    wordToken word ≠ .quoted name := by
  unfold wordToken
  split <;> simp

/-- A bare word in front of what does not continue it is one token. -/
theorem readToken_bare {c : Char} {word rest : List Char} (h : isBare (c :: word) = true)
    (hrest : ∀ d ∈ rest.head?, continuesWord d = false) :
    readToken c (word ++ rest) = .ok ⟨wordToken (c :: word), c :: word, rest⟩ := by
  rw [isBare, Bool.and_eq_true, List.all_eq_true] at h
  have hends : rest.takeWhile continuesWord = [] ∧ rest.dropWhile continuesWord = rest := by
    cases rest with
    | nil => exact ⟨rfl, rfl⟩
    | cons d rest =>
      rw [List.takeWhile_cons, List.dropWhile_cons, hrest d rfl]
      exact ⟨rfl, rfl⟩
  rw [(opensNothing_of_beginsWord h.1 _).readToken_eq, if_pos h.1,
    List.takeWhile_append_of_pos h.2, List.dropWhile_append_of_pos h.2, hends.1, hends.2,
    List.append_nil]

/-! ### Letter case -/

theorem beginsWord_of_isUpper {c : Char} (h : c.isUpper = true) : beginsWord c = true := by
  have hrange : c.val ≥ 'A'.val ∧ c.val ≤ 'Z'.val := of_decide_eq_true h
  have halphabetic : Text.isAlphabetic c = true :=
    Text.within_cons_of_le (UInt32.le_iff_toNat_le.mp hrange.1)
      (UInt32.le_iff_toNat_le.mp hrange.2) _
  rw [beginsWord, halphabetic]
  rfl

theorem isBare_of_isUpper {word : List Char} (hne : word ≠ [])
    (hupper : word.all Char.isUpper = true) : isBare word = true := by
  cases word with
  | nil => exact absurd rfl hne
  | cons c word =>
    rw [List.all_cons, Bool.and_eq_true, List.all_eq_true] at hupper
    rw [isBare, Bool.and_eq_true, List.all_eq_true]
    exact ⟨beginsWord_of_isUpper hupper.1,
      fun d hd => continuesWord_of_beginsWord (beginsWord_of_isUpper (hupper.2 d hd))⟩

/-! ## What continues a name or a word -/

/-- The character continues neither a name nor a word. -/
def stops (c : Char) : Bool := c != '"' && !continuesWord c

def Stops (cs : List Char) : Prop := ∀ c ∈ cs.head?, stops c = true

theorem stops_cons {c : Char} (h : stops c = true) (cs : List Char) : Stops (c :: cs) := by
  intro d hd
  cases hd
  exact h

namespace Lexes

variable {cs : List Char} {ts : List Token}

theorem quoted {name : String} (hcs : Stops cs) (h : Lexes cs ts) :
    Lexes ((quoteName name).toList ++ cs) (.quoted name :: ts) := by
  have hcloser : Quotation.quotes.closer ∉ cs.head? := fun hmem => by cases hcs _ hmem
  have hgap := splitGap_of_beginsToken (beginsToken_quote .quotes name.toList cs)
  have hread : readToken '"' (Quotation.quotes.escape name.toList ++ ['"'] ++ cs) =
      .ok ⟨.quoted name, Quotation.quotes.quote name.toList, cs⟩ := by
    rw [List.append_assoc]
    exact (readToken_quote hcloser name.toList).trans (by rw [String.ofList_toList])
  rw [toList_quoteName]
  exact .token (congrArg Prod.snd hgap) hread (fun _ _ => rfl) h

theorem word {word : List Char} (hword : isBare word = true) (hcs : Stops cs) (h : Lexes cs ts) :
    Lexes (word ++ cs) (wordToken word :: ts) := by
  cases word with
  | nil => cases hword
  | cons c word =>
    have hcontinues : ∀ d ∈ cs.head?, continuesWord d = false := by
      intro d hd
      have hstops := hcs d hd
      rw [stops, Bool.and_eq_true, Bool.not_eq_true'] at hstops
      exact hstops.2
    have hbegins := (Bool.and_eq_true_iff.mp hword).1
    exact .token (congrArg Prod.snd (splitGap_of_beginsToken (beginsToken_bare hbegins _)))
      (readToken_bare hword hcontinues) (fun _ hname => absurd hname wordToken_ne_quoted) h

end Lexes

end Sql
end Schemata
