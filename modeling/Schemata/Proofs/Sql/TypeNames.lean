/-
The first word of a type name decides what it means.  The tables of names have no entry of several
words whose first word does not stand for the same type on its own, so the search for the longest
run of words never finds anything that the first word would not, and words behind a name change
nothing.
-/
import Schemata.Sql.TypeName

namespace Schemata
namespace Sql
namespace TypeName

/-- All names that a dialect knows. -/
def lexicon : Dialect → Lexicon
  | .generic => genericNames
  | .postgres => postgresNames ++ genericNames
  | .mysql => mysqlNames ++ genericNames

theorem mem_of_find? {names : Lexicon} {words : List String} {type : ColumnType}
    (h : names.find? words = some type) : (words, type) ∈ names := by
  obtain ⟨entry, hentry, rfl⟩ := Option.map_eq_some_iff.mp h
  have hwords : entry.1 = words := by simpa using List.find?_some hentry
  rw [← hwords]
  exact List.mem_of_find?_eq_some hentry

theorem find?_append (names more : Lexicon) (words : List String) :
    Lexicon.find? (names ++ more) words = (names.find? words).or (more.find? words) := by
  rw [Lexicon.find?, List.find?_append, Option.map_or]
  rfl

theorem ofWords?_eq (dialect : Dialect) (whole : List Char) (words : List String) :
    ofWords? dialect whole words =
      if dialect = .mysql ∧ words = ["tinyint"] ∧ occursIn mysqlBoolean whole then some .boolean
      else (lexicon dialect).find? words := by
  cases dialect with
  | generic => rfl
  | postgres => exact (find?_append ..).symm
  | mysql =>
    rw [lexicon, find?_append, ofWords?]
    simp only [Bool.and_eq_true, beq_iff_eq, true_and]

/-- The first word of a name that a dialect knows is a name of the same type. -/
theorem find?_first (dialect : Dialect) :
    ∀ entry ∈ lexicon dialect, (lexicon dialect).find? (entry.1.take 1) = some entry.2 := by
  cases dialect <;> decide

/-- The word `tinyint` is a name on its own, and begins no other. -/
theorem ne_tinyint_of_mem (dialect : Dialect) :
    ∀ entry ∈ lexicon dialect, entry.1.length ≠ 1 → entry.1.take 1 ≠ ["tinyint"] := by
  cases dialect <;> decide

theorem ofWords?_first {dialect : Dialect} {whole : List Char} {word : String}
    {more : List String} {type : ColumnType}
    (h : ofWords? dialect whole (word :: more) = some type) :
    ofWords? dialect whole [word] = some type := by
  cases more with
  | nil => exact h
  | cons next more =>
    rw [ofWords?_eq, if_neg (by simp)] at h
    have hmem := mem_of_find? h
    have hword : word ≠ "tinyint" := fun heq =>
      ne_tinyint_of_mem dialect _ hmem (by simp) (by rw [heq]; rfl)
    rw [ofWords?_eq, if_neg (by simp [hword])]
    exact find?_first dialect _ hmem

/-- The longest run of words that a dialect knows means what the first word means. -/
theorem toType?_eq (dialect : Dialect) (name : String) :
    toType? dialect name =
      (leadingWords (Text.lower name.toList)).head?.bind fun word =>
        ofWords? dialect (Text.lower name.toList) [word] := by
  rw [toType?]
  generalize Text.lower name.toList = whole
  cases leadingWords whole with
  | nil => rfl
  | cons word more =>
    show List.findSome? _ _ = ofWords? dialect whole [word]
    cases hfound : List.findSome?
        (fun n => ofWords? dialect whole ((word :: more).take (n + 1)))
        (List.range (word :: more).length).reverse with
    | none => exact (List.findSome?_eq_none_iff.mp hfound 0 (by simp)).symm
    | some type =>
      obtain ⟨n, -, hn⟩ := List.exists_of_findSome?_eq_some hfound
      exact (ofWords?_first hn).symm

/-- A name that is known without regard to the dialect means the same in every dialect. -/
theorem find?_of_generic (dialect : Dialect) :
    ∀ entry ∈ genericNames,
      entry.1 ≠ ["tinyint"] ∧ (lexicon dialect).find? entry.1 = some entry.2 := by
  cases dialect <;> decide

theorem toType?_of_generic {name : String} {type : ColumnType}
    (h : toType? .generic name = some type) (dialect : Dialect) :
    toType? dialect name = some type := by
  rw [toType?_eq] at h ⊢
  obtain ⟨word, hword, hgeneric⟩ := Option.bind_eq_some_iff.mp h
  refine Option.bind_eq_some_iff.mpr ⟨word, hword, ?_⟩
  have hmem : ([word], type) ∈ genericNames := mem_of_find? hgeneric
  obtain ⟨hne, hfind⟩ := find?_of_generic dialect _ hmem
  rw [ofWords?_eq, if_neg fun hcase => hne hcase.2.1]
  exact hfind

/-! ## Words after the first -/

theorem isPrefixOf_append_cons {c : Char} {part : List Char} (hc : c ∉ part) (a b : List Char) :
    part.isPrefixOf (a ++ c :: b) = part.isPrefixOf a := by
  induction part generalizing a with
  | nil => rfl
  | cons d part ih =>
    rw [List.mem_cons, not_or] at hc
    cases a with
    | nil => simp [List.isPrefixOf, Ne.symm hc.1]
    | cons e a => simp [List.isPrefixOf, ih hc.2]

/-- What does not contain a character occurs before it or after it. -/
theorem occursIn_append_cons {c : Char} {part : List Char} (hc : c ∉ part) (a b : List Char) :
    occursIn part (a ++ c :: b) = (occursIn part a || occursIn part b) := by
  induction a with
  | nil =>
    show (part.isPrefixOf ([] ++ c :: b) || occursIn part b) = (part.isEmpty || occursIn part b)
    rw [isPrefixOf_append_cons hc]
    cases part <;> rfl
  | cons d a ih =>
    rw [List.cons_append, occursIn, ih, occursIn, ← List.cons_append, isPrefixOf_append_cons hc,
      Bool.or_assoc]

theorem occursIn_eq_false {c : Char} {part text : List Char} (hc : c ∈ part) (h : c ∉ text) :
    occursIn part text = false := by
  induction text with
  | nil => rw [occursIn, List.isEmpty_eq_false_iff_exists_mem]; exact ⟨c, hc⟩
  | cons d text ih =>
    rw [occursIn, ih fun hmem => h (List.mem_cons_of_mem _ hmem), Bool.or_false, Bool.eq_false_iff]
    exact fun hprefix => h ((List.isPrefixOf_iff_prefix.mp hprefix).subset hc)

/-- If a word stands in front of the parameters, it stays the first one. -/
theorem head?_leadingWords_append {whole : List Char}
    (hword : Text.words (whole.takeWhile (· != '(')) ≠ []) (more : List Char) :
    (leadingWords (whole ++ ' ' :: more)).head? = (leadingWords whole).head? := by
  rw [leadingWords, leadingWords, List.takeWhile_append]
  split
  · next hall =>
    rw [(List.takeWhile_prefix _).eq_of_length hall] at hword ⊢
    rw [List.takeWhile_cons_of_pos (by decide), Text.words_append_blank (by decide),
      List.head?_map, List.head?_map, List.head?_append, Option.or_of_isSome (by simpa using hword)]
  · rfl

theorem takeWhile_lower (cs : List Char) :
    (Text.lower cs).takeWhile (· != '(') = Text.lower (cs.takeWhile (· != '(')) := by
  have hparen : (· != '(') ∘ Text.lowerChar = (· != '(') := by
    funext c
    rw [Function.comp_apply, Bool.eq_iff_iff, bne_iff_ne, bne_iff_ne, Ne,
      Text.lowerChar_eq_paren_iff]
  rw [Text.lower, List.takeWhile_map, hparen]
  rfl

/-- Words after a name change nothing, whether the dialect knows the name or not.  They could make
neither a longer name of another type nor the truth values of the dialect mysql, which end in a
parenthesis. -/
theorem toType?_append_words (dialect : Dialect) {name more : String}
    (hword : Text.words (name.toList.takeWhile (· != '(')) ≠ []) (hmore : '(' ∉ more.toList) :
    toType? dialect (name ++ " " ++ more) = toType? dialect name := by
  have hwhole : Text.lower (name ++ " " ++ more).toList =
      Text.lower name.toList ++ ' ' :: Text.lower more.toList := by
    rw [String.toList_append, String.toList_append, List.append_assoc, Text.lower_append]
    rfl
  have hword' : Text.words ((Text.lower name.toList).takeWhile (· != '(')) ≠ [] := by
    rw [takeWhile_lower, Text.words_lower]
    simpa using hword
  have hmore' : '(' ∉ Text.lower more.toList := by
    intro hmem
    obtain ⟨c, hc, heq⟩ := List.mem_map.mp hmem
    exact hmore ((Text.lowerChar_eq_paren_iff c).mp heq ▸ hc)
  have hboolean : occursIn mysqlBoolean (Text.lower name.toList ++ ' ' :: Text.lower more.toList) =
      occursIn mysqlBoolean (Text.lower name.toList) := by
    rw [occursIn_append_cons (by decide), occursIn_eq_false (c := '(') (by decide) hmore',
      Bool.or_false]
  rw [toType?_eq, toType?_eq, hwhole, head?_leadingWords_append hword']
  simp only [ofWords?_eq, hboolean]

theorem toType?_append_words_tinyint :
    toType? .mysql ("TinyInt(1)" ++ " " ++ "unsigned zerofill") = some .boolean :=
  (toType?_append_words .mysql (by decide) (by decide)).trans (by decide)

end TypeName
end Sql
end Schemata
