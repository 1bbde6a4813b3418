/-
Blank characters, and texts taken apart at them: the ends of a text without blanks, and its words.
-/
namespace Schemata
namespace Text

/-- The code points with the property White_Space. -/
def blankCodes : List Nat :=
  [0x09, 0x0A, 0x0B, 0x0C, 0x0D, 0x20, 0x85, 0xA0, 0x1680, 0x2000, 0x2001, 0x2002, 0x2003, 0x2004,
   0x2005, 0x2006, 0x2007, 0x2008, 0x2009, 0x200A, 0x2028, 0x2029, 0x202F, 0x205F, 0x3000]

/-- A space of any script, a tab or a line break. -/
def isBlank (c : Char) : Bool := blankCodes.contains c.toNat

def trim (cs : List Char) : List Char :=
  ((cs.dropWhile isBlank).reverse.dropWhile isBlank).reverse

def squeeze (cs : List Char) : List Char := cs.filter (!isBlank ·)

/-- The word that the text begins with, which is empty if a blank comes first, and the words after
it. -/
def leadingWord : List Char → List Char × List (List Char)
  | [] => ([], [])
  | c :: rest =>
    let (word, more) := leadingWord rest
    if isBlank c then ([], if word.isEmpty then more else word :: more) else (c :: word, more)

/-- The maximal runs of characters other than blanks, in order. -/
def words (cs : List Char) : List (List Char) :=
  let (word, more) := leadingWord cs
  if word.isEmpty then more else word :: more

theorem leadingWord_append_blank {c : Char} (hc : isBlank c = true) (a b : List Char) :
    leadingWord (a ++ c :: b) = ((leadingWord a).1, (leadingWord a).2 ++ words b) := by
  induction a with
  | nil => simp [words, leadingWord, hc]
  | cons d a ih =>
    rw [List.cons_append, leadingWord, ih, leadingWord]
    obtain ⟨word, more⟩ := leadingWord a
    cases isBlank d with
    | false => rfl
    | true => cases word <;> rfl

/-- A blank stands between the words before it and the words after it. -/
theorem words_append_blank {c : Char} (hc : isBlank c = true) (a b : List Char) :
    words (a ++ c :: b) = words a ++ words b := by
  rw [words, leadingWord_append_blank hc, words.eq_def a]
  obtain ⟨word, more⟩ := leadingWord a
  cases word <;> rfl

end Text
end Schemata
