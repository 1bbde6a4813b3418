/-
Bare words and parentheses in scripts, which are spelled as they are.  No bare word has a blank or a
parenthesis in it, in lower case neither, so the bare word that the name of a type begins with is
the first of its words.
-/
import Schemata.Proofs.Sql.Scanning
import Schemata.Sql.TypeName

namespace Schemata
namespace Sql

open Text (isBlank lower lowerChar)

/-! ## Spelling -/

/-- A word without quotation marks. -/
structure IsBareWord (cs : List Char) : Prop where
  ne_nil : cs ≠ []
  continues : ∀ c ∈ cs, continuesWord c = true

/-- A parenthesis and a bare word are spelled as they are. -/
structure Piece.Verbatim (p : Piece) : Prop where
  paren : p.token = .leftParen → p.text = ['(']
  word : ∀ word, p.token = .ident word → IsBareWord word.toList

theorem continuesWord_of_beginsWord {c : Char} (h : beginsWord c = true) :
    continuesWord c = true := by
  rw [beginsWord, Bool.or_eq_true] at h
  rw [continuesWord, Text.isAlphanumeric]
  rcases h with h | h
  · rw [h]
    rfl
  · rw [h, Bool.or_true]
    rfl

theorem isBareWord_of_beginsWord {c : Char} (h : beginsWord c = true) (rest : List Char) :
    IsBareWord (c :: rest.takeWhile continuesWord) :=
  ⟨by simp, List.forall_mem_cons.mpr
    ⟨continuesWord_of_beginsWord h, List.all_eq_true.mp List.all_takeWhile⟩⟩

theorem Piece.verbatim_of_ne {p : Piece} (hparen : p.token ≠ .leftParen)
    (hword : ∀ word, p.token ≠ .ident word) : p.Verbatim :=
  ⟨fun h => absurd h hparen, fun word h => absurd h (hword word)⟩

theorem verbatim_readToken {c : Char} {cs : List Char} {r : Read Token}
    (h : readToken c cs = .ok r) (gap : List Char) : (Piece.mk gap r.text r.value).Verbatim := by
  have hreads := readsToken c cs
  rw [h] at hreads
  cases hreads with
  | @mark token htoken =>
    obtain ⟨rfl, rfl⟩ | ⟨-, rfl⟩ | ⟨-, rfl⟩ | ⟨-, rfl⟩ | ⟨-, rfl⟩ := mark_of_punctuation? htoken
    · exact ⟨fun _ => rfl, by simp [single]⟩
    all_goals exact Piece.verbatim_of_ne (by simp [single]) (by simp [single])
  | @enclosed e =>
    cases e <;> exact Piece.verbatim_of_ne (by simp [Enclosure.token]) (by simp [Enclosure.token])
  | digits => exact Piece.verbatim_of_ne (by simp [numberToken]) (by simp [numberToken])
  | negative => exact Piece.verbatim_of_ne (by simp [numberToken]) (by simp [numberToken])
  | word _ hbegins =>
    refine ⟨?_, ?_⟩
    · unfold wordToken
      dsimp only
      split <;> simp
    · unfold wordToken
      dsimp only
      split
      · simp
      · rintro word ⟨⟩
        rw [String.toList_ofList]
        exact isBareWord_of_beginsWord hbegins cs
  | symbol => exact Piece.verbatim_of_ne (by simp [single]) (by simp [single])

theorem verbatim_of_cutsAll {ps : List Piece} {rest : List Char} (h : CutsAll ps rest) :
    ∀ p ∈ ps, p.Verbatim := by
  induction ps with
  | nil => simp
  | cons p ps ih =>
    obtain ⟨c, text, -, hread⟩ := h.1.token
    exact List.forall_mem_cons.mpr ⟨verbatim_readToken hread p.gap, ih h.2⟩

theorem verbatim_tokenize {script : String} {lexemes : List Lexeme}
    (h : tokenize script = .ok lexemes) : ∀ l ∈ lexemes, l.toPiece.Verbatim := by
  obtain ⟨ps, gap, hpieces, hcuts⟩ := cutsAll_tokenize h
  intro l hl
  have hmem : l.toPiece ∈ ps ++ [⟨gap, [], .eof⟩] := hpieces ▸ List.mem_map_of_mem hl
  rcases List.mem_append.mp hmem with hps | hend
  · exact verbatim_of_cutsAll hcuts _ hps
  · rw [List.mem_singleton.mp hend]
    exact Piece.verbatim_of_ne (by simp) (by simp)

/-! ## Words -/

/-- No word has a blank or a parenthesis in it. -/
theorem not_within_of_mem {n : Nat} (h : n ∈ 0x28 :: Text.blankCodes) :
    Text.within Text.alphabeticRanges n = false ∧ Text.within Text.numericRanges n = false ∧
      n ≠ '_'.toNat ∧ n ≠ '$'.toNat := by
  revert n
  decide +kernel

theorem continuesWord_eq_false {c : Char} (h : c.toNat ∈ 0x28 :: Text.blankCodes) :
    continuesWord c = false := by
  obtain ⟨halphabetic, hnumeric, hunderscore, hdollar⟩ := not_within_of_mem h
  have hline : (decide (c = '_')) = false := decide_eq_false fun heq => hunderscore (heq ▸ rfl)
  have hmark : (decide (c = '$')) = false := decide_eq_false fun heq => hdollar (heq ▸ rfl)
  rw [continuesWord, Text.isAlphanumeric, Text.isAlphabetic, Text.isNumeric, halphabetic, hnumeric,
    hline, hmark]
  rfl

/-- What may stand in a word may still do so in lower case. -/
theorem not_mem_lowerChar {c : Char} (h : continuesWord c = true) :
    (lowerChar c).toNat ∉ 0x28 :: Text.blankCodes := by
  rw [Text.mem_lowerChar (by decide)]
  intro hmem
  rw [continuesWord_eq_false hmem] at h
  cases h

theorem isBlank_of_mem_lower {word : List Char} (hword : IsBareWord word) :
    ∀ c ∈ lower word, isBlank c = false ∧ c ≠ '(' := by
  intro c hc
  obtain ⟨d, hd, rfl⟩ := List.mem_map.mp hc
  have hnot := not_mem_lowerChar (hword.continues d hd)
  rw [List.mem_cons, not_or] at hnot
  refine ⟨?_, fun heq => hnot.1 (congrArg Char.toNat heq)⟩
  rw [isBlank, Bool.eq_false_iff]
  exact fun hmem => hnot.2 (List.contains_iff_mem.mp hmem)

theorem leadingWord_append {word tail : List Char} (hword : ∀ c ∈ word, isBlank c = false)
    (htail : ∀ c ∈ tail.head?, isBlank c = true) :
    (Text.leadingWord (word ++ tail)).1 = word := by
  induction word with
  | nil =>
    cases tail with
    | nil => rfl
    | cons c tail =>
      have hc : isBlank c = true := htail c rfl
      simp [Text.leadingWord, hc]
  | cons c word ih =>
    obtain ⟨hc, hword⟩ := List.forall_mem_cons.mp hword
    have ih : (Text.leadingWord (word ++ tail)).1 = word := ih hword
    simp [Text.leadingWord, hc, ih]

theorem head?_words {cs word : List Char} (h : (Text.leadingWord cs).1 = word)
    (hword : word ≠ []) : (Text.words cs).head? = some word := by
  simp [Text.words, h, hword]

/-- The name of a type begins with the word. -/
def LeadsWith (word raw : List Char) : Prop :=
  ∃ tail, raw = word ++ tail ∧ ∀ c ∈ tail.head?, c = ' ' ∨ c = '('

theorem LeadsWith.append {word raw : List Char} (h : LeadsWith word raw) {c : Char}
    (hc : c = ' ' ∨ c = '(') (cs : List Char) : LeadsWith word (raw ++ c :: cs) := by
  obtain ⟨tail, rfl, htail⟩ := h
  refine ⟨tail ++ c :: cs, List.append_assoc .., fun d hd => ?_⟩
  cases tail with
  | nil =>
    cases hd
    exact hc
  | cons d' tail => exact htail d hd

theorem head?_leadingWords {word raw : List Char} (hword : IsBareWord word)
    (h : LeadsWith word raw) :
    (TypeName.leadingWords (lower raw)).head? = some (String.ofList (lower word)) := by
  obtain ⟨tail, rfl, htail⟩ := h
  have hlower := isBlank_of_mem_lower hword
  have hne : lower word ≠ [] := fun hnil => hword.ne_nil (List.map_eq_nil_iff.mp hnil)
  have hblank : ∀ c ∈ ((lower tail).takeWhile (· != '(')).head?, isBlank c = true := by
    intro c hc
    cases tail with
    | nil => cases hc
    | cons d tail =>
      rcases htail d rfl with rfl | rfl
      · cases hc
        decide
      · cases hc
  rw [TypeName.leadingWords, List.head?_map, Text.lower_append, List.takeWhile_append_of_pos,
    head?_words (leadingWord_append (fun c hc => (hlower c hc).1) hblank) hne]
  · rfl
  · intro c hc
    exact bne_iff_ne.mpr (hlower c hc).2

end Sql
end Schemata
