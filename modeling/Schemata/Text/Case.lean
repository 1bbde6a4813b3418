/-
Letter case, as far as it concerns words in ASCII.  Characters outside ASCII matter only if their
upper or lower case is in ASCII.
-/
import Schemata.Text.Blank

namespace Schemata
namespace Text

/-- The upper case of a character, if it consists of ASCII letters alone.  Outside ASCII only the
dotless i, the long s, the sharp s and the Latin ligatures have such an upper case; every other
character stays as it is.  So a word in ASCII is the upper case of another word exactly if it is
its upper case here. -/
def upperChar (c : Char) : List Char :=
  if 'a' ≤ c && c ≤ 'z' then [Char.ofNat (c.toNat - 32)]
  else match c.toNat with
    | 0x131 => ['I']
    | 0x17F => ['S']
    | 0xDF => ['S', 'S']
    | 0xFB00 => ['F', 'F']
    | 0xFB01 => ['F', 'I']
    | 0xFB02 => ['F', 'L']
    | 0xFB03 => ['F', 'F', 'I']
    | 0xFB04 => ['F', 'F', 'L']
    | 0xFB05 => ['S', 'T']
    | 0xFB06 => ['S', 'T']
    | _ => [c]

/-- The lower case of a character, if it is an ASCII letter.  Outside ASCII only the Kelvin sign
has such a lower case; every other character stays as it is. -/
def lowerChar (c : Char) : Char :=
  if 'A' ≤ c && c ≤ 'Z' then Char.ofNat (c.toNat + 32)
  else if c.toNat = 0x212A then 'k' else c

def upper (cs : List Char) : List Char := cs.flatMap upperChar

def lower (cs : List Char) : List Char := cs.map lowerChar

/-- The lower case within ASCII: characters outside ASCII stay as they are. -/
def lowerAscii (cs : List Char) : List Char := cs.map Char.toLower

theorem lower_append (a b : List Char) : lower (a ++ b) = lower a ++ lower b := by
  simp [lower]

theorem lowerChar_eq (c : Char) :
    lowerChar c = c ∨ (0x61 ≤ (lowerChar c).toNat ∧ (lowerChar c).toNat ≤ 0x7A) ∧
      (0x41 ≤ c.toNat ∧ c.toNat ≤ 0x5A ∨ c.toNat = 0x212A) := by
  unfold lowerChar
  split
  · next hupper =>
    rw [Bool.and_eq_true, decide_eq_true_iff, decide_eq_true_iff] at hupper
    have hlo : 0x41 ≤ c.toNat := hupper.1
    have hhi : c.toNat ≤ 0x5A := hupper.2
    have hvalid : (c.toNat + 32).isValidChar := .inl (by omega)
    have hcode : (Char.ofNat (c.toNat + 32)).toNat = c.toNat + 32 := by
      rw [Char.ofNat, dif_pos hvalid]
      rfl
    exact .inr ⟨by omega, .inl ⟨hlo, hhi⟩⟩
  · split
    · next hkelvin => exact .inr ⟨by decide, .inr hkelvin⟩
    · exact .inl rfl

/-- Neither a letter nor the Kelvin sign is one of these characters. -/
theorem mem_lowerChar {codes : List Nat}
    (hcodes : ∀ n ∈ codes, ¬(0x41 ≤ n ∧ n ≤ 0x5A ∨ 0x61 ≤ n ∧ n ≤ 0x7A ∨ n = 0x212A)) (c : Char) :
    (lowerChar c).toNat ∈ codes ↔ c.toNat ∈ codes := by
  rcases lowerChar_eq c with heq | ⟨hlower, hc⟩
  · rw [heq]
  · constructor
    · exact fun hmem => absurd (.inr (.inl hlower)) (hcodes _ hmem)
    · exact fun hmem => absurd (hc.imp_right .inr) (hcodes _ hmem)

theorem isBlank_lowerChar (c : Char) : isBlank (lowerChar c) = isBlank c := by
  rw [isBlank, isBlank, Bool.eq_iff_iff, List.contains_iff_mem, List.contains_iff_mem]
  exact mem_lowerChar (by decide) c

theorem leadingWord_lower (cs : List Char) :
    leadingWord (lower cs) = ((leadingWord cs).1.map lowerChar, (leadingWord cs).2.map lower) := by
  induction cs with
  | nil => rfl
  | cons c cs ih =>
    have ih' : leadingWord (cs.map lowerChar) = _ := ih
    rw [lower, List.map_cons, leadingWord, ih', leadingWord, isBlank_lowerChar]
    obtain ⟨word, more⟩ := leadingWord cs
    cases isBlank c with
    | false => rfl
    | true => cases word <;> rfl

theorem words_lower (cs : List Char) : words (lower cs) = (words cs).map lower := by
  rw [words, leadingWord_lower, words]
  obtain ⟨word, more⟩ := leadingWord cs
  cases word <;> rfl

theorem lowerChar_eq_paren_iff (c : Char) : lowerChar c = '(' ↔ c = '(' := by
  have hmem : (lowerChar c).toNat ∈ ['('.toNat] ↔ c.toNat ∈ ['('.toNat] :=
    mem_lowerChar (by decide) c
  simpa only [List.mem_singleton, Char.toNat_inj] using hmem

end Text
end Schemata
