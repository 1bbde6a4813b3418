/-
Cutting a script into lexemes.  A scan splits the text into pieces, each of them the gap of blanks
and comments in front of a token, the spelling of the token, and the token; the gaps and spellings
of the pieces and what is left at the end make up the text again, so nothing is lost.  A scan ends
early at an opened quotation or comment that nothing closes.

The place of a lexeme follows from the gaps and spellings before it.
-/
import Schemata.Sql.Token
import Schemata.Text.Blank
import Schemata.Text.Numeric
import Schemata.Text.Position

namespace Schemata
namespace Sql

open Text (Position isBlank)

/-- A value read from the head of a text, its spelling there, and the text after it. -/
structure Read (α : Type) where
  value : α
  text : List Char
  rest : List Char
  deriving Repr

namespace Read

/-- A longer reading, for a text in front of which `text` was added. -/
def push (text : List Char) (r : Read α) : Read α := ⟨r.value, text ++ r.text, r.rest⟩

def map (f : α → β) (r : Read α) : Read β := ⟨f r.value, r.text, r.rest⟩

/-- The text that was read from. -/
def whole (r : Read α) : List Char := r.text ++ r.rest

theorem whole_push (text : List Char) (r : Read α) : (r.push text).whole = text ++ r.whole := by
  simp [push, whole]

theorem whole_map (f : α → β) (r : Read α) : (r.map f).whole = r.whole := rfl

end Read

/-! ## Comments and gaps -/

/-- The rest of a line comment, through the line feed that ends it. -/
def closeLine : List Char → Read Unit
  | [] => ⟨(), [], []⟩
  | c :: rest => if c = '\n' then ⟨(), [c], rest⟩ else (closeLine rest).push [c]

theorem whole_closeLine (cs : List Char) : (closeLine cs).whole = cs := by
  induction cs with
  | nil => rfl
  | cons c rest ih =>
    unfold closeLine
    split
    · rfl
    · rw [Read.whole_push, ih]; rfl

/-- The rest of a block comment, through the first `*/`. -/
def closeBlock : List Char → Option (Read Unit)
  | [] => none
  | [_] => none
  | c :: d :: rest =>
    if c = '*' && d = '/' then some ⟨(), [c, d], rest⟩
    else (closeBlock (d :: rest)).map (Read.push [c])

theorem whole_closeBlock {cs : List Char} {r : Read Unit} (h : closeBlock cs = some r) :
    r.whole = cs := by
  induction cs generalizing r with
  | nil => simp [closeBlock] at h
  | cons c rest ih =>
    cases rest with
    | nil => simp [closeBlock] at h
    | cons d rest =>
      unfold closeBlock at h
      split at h
      · cases h; rfl
      · obtain ⟨s, hs, rfl⟩ := Option.map_eq_some_iff.mp h
        rw [Read.whole_push, ih hs]; rfl

/-- The comment that the text begins with.  A block comment that nothing closes is none. -/
def comment? : List Char → Option (Read Unit)
  | '-' :: '-' :: rest => some ((closeLine rest).push ['-', '-'])
  | '#' :: rest => some ((closeLine rest).push ['#'])
  | '/' :: '*' :: rest => (closeBlock rest).map (Read.push ['/', '*'])
  | _ => none

theorem whole_comment? {cs : List Char} {r : Read Unit} (h : comment? cs = some r) :
    r.whole = cs := by
  unfold comment? at h
  split at h
  · cases h; rw [Read.whole_push, whole_closeLine]; rfl
  · cases h; rw [Read.whole_push, whole_closeLine]; rfl
  · obtain ⟨s, hs, rfl⟩ := Option.map_eq_some_iff.mp h
    rw [Read.whole_push, whole_closeBlock hs]; rfl
  · simp at h

/-- A comment has at least the character that opens it. -/
theorem text_comment?_ne_nil {cs : List Char} {r : Read Unit} (h : comment? cs = some r) :
    r.text ≠ [] := by
  unfold comment? at h
  split at h
  · cases h; simp [Read.push]
  · cases h; simp [Read.push]
  · obtain ⟨s, _, rfl⟩ := Option.map_eq_some_iff.mp h
    simp [Read.push]
  · simp at h

/-- The text after a comment is shorter than the text that begins with it. -/
theorem length_comment?_rest {cs : List Char} {r : Read Unit} (h : comment? cs = some r) :
    r.rest.length < cs.length := by
  have hw := congrArg List.length (whole_comment? h)
  have ht := List.length_pos_iff.mpr (text_comment?_ne_nil h)
  simp only [Read.whole, List.length_append] at hw
  omega

/-- The blanks and comments that a text begins with, and the text after them. -/
def splitGap (cs : List Char) : List Char × List Char :=
  match cs with
  | [] => ([], [])
  | c :: rest =>
    if isBlank c then
      let (gap, after) := splitGap rest
      (c :: gap, after)
    else
      match _h : comment? (c :: rest) with
      | some r =>
        let (gap, after) := splitGap r.rest
        (r.text ++ gap, after)
      | none => ([], c :: rest)
termination_by cs.length
decreasing_by
  · simp
  · exact length_comment?_rest _h

theorem splitGap_append (cs : List Char) : (splitGap cs).1 ++ (splitGap cs).2 = cs := by
  fun_induction splitGap cs with
  | case1 => rfl
  | case2 c rest hc gap after hr ih => rw [hr] at ih; simpa using ih
  | case3 c rest hc r h gap after hr ih =>
    rw [hr] at ih
    have hw := whole_comment? h
    simp only [Read.whole] at hw
    simp only [List.append_assoc] at ih ⊢
    rw [ih, hw]
  | case4 => rfl

/-! ## Tokens -/

/-- The rest of a name quoted with `close`.  The closing mark is doubled inside. -/
def closeName (close : Char) : List Char → Option (Read (List Char))
  | [] => none
  | [c] => if c = close then some ⟨[], [c], []⟩ else none
  | c :: d :: rest =>
    if c = close then
      if d = close then (closeName close rest).map fun r => (r.push [c, d]).map (c :: ·)
      else some ⟨[], [c], d :: rest⟩
    else (closeName close (d :: rest)).map fun r => (r.push [c]).map (c :: ·)

/-- The character that a backslash in front of `c` stands for. -/
def unescape (c : Char) : Char :=
  if c = 'n' then '\n' else if c = 't' then '\t' else if c = 'r' then '\r' else c

/-- The rest of a string literal.  The quotation mark is doubled inside, and a backslash escapes
the character after it. -/
def closeString : List Char → Option (Read (List Char))
  | [] => none
  | [c] => if c = '\'' then some ⟨[], [c], []⟩ else none
  | c :: d :: rest =>
    if c = '\'' then
      if d = '\'' then (closeString rest).map fun r => (r.push [c, d]).map (c :: ·)
      else some ⟨[], [c], d :: rest⟩
    else if c = '\\' then
      (closeString rest).map fun r => (r.push [c, d]).map (unescape d :: ·)
    else (closeString (d :: rest)).map fun r => (r.push [c]).map (c :: ·)

def isDigit (c : Char) : Bool := '0' ≤ c && c ≤ '9'

/-- The digits that a text begins with, with at most one point among them unless `pointed` says
that the number already has one. -/
def closeNumber (pointed : Bool) : List Char → Read Unit
  | [] => ⟨(), [], []⟩
  | c :: rest =>
    if isDigit c then (closeNumber pointed rest).push [c]
    else if c = '.' && !pointed then (closeNumber true rest).push [c]
    else ⟨(), [], c :: rest⟩

def beginsWord (c : Char) : Bool := Text.isAlphabetic c || c = '_'

def continuesWord (c : Char) : Bool := Text.isAlphanumeric c || c = '_' || c = '$'

/-- The sorts of text that need a closing mark. -/
inductive Opener
  | name
  | string
  | comment
  deriving DecidableEq, Repr

/-- A token of the one character `c`. -/
def single (token : Token) (c : Char) (rest : List Char) : Read Token := ⟨token, [c], rest⟩

def numberToken (sign : List Char) (cs : List Char) : Read Token :=
  let r := (closeNumber false cs).push sign
  ⟨.num (String.ofList r.text), r.text, r.rest⟩

def nameToken (mark close : Char) (rest : List Char) : Except Opener (Read Token) :=
  match closeName close rest with
  | some r => .ok ((r.push [mark]).map fun name => .quoted (String.ofList name))
  | none => .error .name

def stringToken (rest : List Char) : Except Opener (Read Token) :=
  match closeString rest with
  | some r => .ok ((r.push ['\'']).map fun value => .str (String.ofList value))
  | none => .error .string

/-- The tokens of a single character that has a meaning of its own. -/
def punctuation? (c : Char) : Option Token :=
  if c = '(' then some .leftParen
  else if c = ')' then some .rightParen
  else if c = ',' then some .comma
  else if c = ';' then some .semicolon
  else if c = '.' then some .dot
  else none

/-- The token at the head of a text that begins with the character `c`, which opens no gap.  A
minus sign belongs to the number after it. -/
def readToken (c : Char) (rest : List Char) : Except Opener (Read Token) :=
  match punctuation? c with
  | some token => .ok (single token c rest)
  | none =>
    if c = '"' || c = '\x60' then nameToken c c rest
    else if c = '[' then nameToken c ']' rest
    else if c = '\'' then stringToken rest
    else if isDigit c then .ok (numberToken [] (c :: rest))
    else if c = '-' && rest.head?.any isDigit then .ok (numberToken [c] rest)
    else if c = '/' && rest.head? = some '*' then .error .comment
    else if beginsWord c then
      let word := c :: rest.takeWhile continuesWord
      .ok ⟨wordToken word, word, rest.dropWhile continuesWord⟩
    else .ok (single (.symbol c) c rest)

/-! Every token has a spelling, and the spelling and the rest make up the text. -/

theorem whole_closeName {close : Char} {cs : List Char} {r : Read (List Char)}
    (h : closeName close cs = some r) : r.whole = cs ∧ r.text ≠ [] := by
  fun_induction closeName close cs generalizing r with
  | case1 => simp at h
  | case2 => cases h; exact ⟨rfl, by simp⟩
  | case3 => simp at h
  | case4 rest ih =>
    obtain ⟨s, hs, rfl⟩ := Option.map_eq_some_iff.mp h
    exact ⟨by rw [Read.whole_map, Read.whole_push, (ih hs).1]; rfl, by simp [Read.map, Read.push]⟩
  | case5 => cases h; exact ⟨rfl, by simp⟩
  | case6 c d rest _ ih =>
    obtain ⟨s, hs, rfl⟩ := Option.map_eq_some_iff.mp h
    exact ⟨by rw [Read.whole_map, Read.whole_push, (ih hs).1]; rfl, by simp [Read.map, Read.push]⟩

theorem whole_closeString {cs : List Char} {r : Read (List Char)}
    (h : closeString cs = some r) : r.whole = cs ∧ r.text ≠ [] := by
  fun_induction closeString cs generalizing r with
  | case1 => simp at h
  | case2 => cases h; exact ⟨rfl, by simp⟩
  | case3 => simp at h
  | case4 rest ih =>
    obtain ⟨s, hs, rfl⟩ := Option.map_eq_some_iff.mp h
    exact ⟨by rw [Read.whole_map, Read.whole_push, (ih hs).1]; rfl, by simp [Read.map, Read.push]⟩
  | case5 => cases h; exact ⟨rfl, by simp⟩
  | case6 d rest _ ih =>
    obtain ⟨s, hs, rfl⟩ := Option.map_eq_some_iff.mp h
    exact ⟨by rw [Read.whole_map, Read.whole_push, (ih hs).1]; rfl, by simp [Read.map, Read.push]⟩
  | case7 c d rest _ _ ih =>
    obtain ⟨s, hs, rfl⟩ := Option.map_eq_some_iff.mp h
    exact ⟨by rw [Read.whole_map, Read.whole_push, (ih hs).1]; rfl, by simp [Read.map, Read.push]⟩

theorem whole_closeNumber (pointed : Bool) (cs : List Char) :
    (closeNumber pointed cs).whole = cs := by
  fun_induction closeNumber pointed cs with
  | case1 => rfl
  | case2 pointed c rest _ ih => rw [Read.whole_push, ih]; rfl
  | case3 pointed c rest _ _ ih => rw [Read.whole_push, ih]; rfl
  | case4 => rfl

theorem whole_numberToken (sign cs : List Char) : (numberToken sign cs).whole = sign ++ cs := by
  simp only [numberToken, Read.whole, Read.push, List.append_assoc]
  exact congrArg (sign ++ ·) (whole_closeNumber false cs)

theorem text_numberToken_ne_nil {sign cs : List Char}
    (h : sign ≠ [] ∨ ∃ c rest, cs = c :: rest ∧ isDigit c = true) :
    (numberToken sign cs).text ≠ [] := by
  rcases h with h | ⟨c, rest, rfl, hc⟩
  · simp [numberToken, Read.push, h]
  · simp [numberToken, Read.push, closeNumber, hc]

theorem whole_readToken {c : Char} {rest : List Char} {r : Read Token}
    (h : readToken c rest = .ok r) : r.whole = c :: rest ∧ r.text ≠ [] := by
  have hsingle : ∀ t, (single t c rest).whole = c :: rest ∧ (single t c rest).text ≠ [] :=
    fun t => ⟨rfl, by simp [single]⟩
  have hname : ∀ close, nameToken c close rest = .ok r → r.whole = c :: rest ∧ r.text ≠ [] := by
    intro close hn
    unfold nameToken at hn
    split at hn
    · next s hs =>
      cases hn
      exact ⟨by rw [Read.whole_map, Read.whole_push, (whole_closeName hs).1]; rfl,
        by simp [Read.map, Read.push]⟩
    · cases hn
  unfold readToken at h
  split at h
  · cases h; exact hsingle _
  split at h
  · exact hname _ h
  split at h
  · exact hname _ h
  split at h
  · next hc =>
    unfold stringToken at h
    split at h
    · next s hs =>
      cases h
      exact ⟨by rw [Read.whole_map, Read.whole_push, (whole_closeString hs).1, hc]; rfl,
        by simp [Read.map, Read.push]⟩
    · cases h
  split at h
  · next hc =>
    cases h
    exact ⟨whole_numberToken _ _, text_numberToken_ne_nil (.inr ⟨c, rest, rfl, hc⟩)⟩
  split at h
  · cases h
    exact ⟨whole_numberToken _ _, text_numberToken_ne_nil (.inl (by simp))⟩
  split at h
  · cases h
  split at h
  · cases h
    exact ⟨by simp [Read.whole], by simp⟩
  · cases h; exact hsingle _

/-! ## Scanning -/

/-- A token with the gap in front of it and its spelling. -/
structure Piece where
  gap : List Char
  text : List Char
  token : Token
  deriving DecidableEq, Repr

/-- The part of the script that a piece covers. -/
def Piece.span (p : Piece) : List Char := p.gap ++ p.text

/-- How a scan ends: after a last gap, or at an opener that nothing closes. -/
inductive Ending
  | complete (gap : List Char)
  | unterminated (gap : List Char) (opener : Opener) (rest : List Char)
  deriving DecidableEq, Repr

def Ending.span : Ending → List Char
  | complete gap => gap
  | unterminated gap _ rest => gap ++ rest

structure Scan where
  pieces : List Piece
  ending : Ending
  deriving DecidableEq, Repr

def Scan.span (s : Scan) : List Char := s.pieces.flatMap Piece.span ++ s.ending.span

theorem length_readToken_rest {cs : List Char} {c : Char} {rest : List Char} {r : Read Token}
    (hgap : (splitGap cs).2 = c :: rest) (h : readToken c rest = .ok r) :
    r.rest.length < cs.length := by
  obtain ⟨hw, ht⟩ := whole_readToken h
  have hlen := congrArg List.length hw
  have hpos := List.length_pos_iff.mpr ht
  have hcs := congrArg List.length (splitGap_append cs)
  rw [hgap] at hcs
  simp only [Read.whole, List.length_append, List.length_cons] at hlen hcs
  omega

/-- The pieces of a script up to its end or to the first opener that nothing closes. -/
def scan (cs : List Char) : Scan :=
  match _hgap : (splitGap cs).2 with
  | [] => ⟨[], .complete (splitGap cs).1⟩
  | c :: rest =>
    match _h : readToken c rest with
    | .error opener => ⟨[], .unterminated (splitGap cs).1 opener (c :: rest)⟩
    | .ok r =>
      let more := scan r.rest
      ⟨⟨(splitGap cs).1, r.text, r.value⟩ :: more.pieces, more.ending⟩
termination_by cs.length
decreasing_by exact length_readToken_rest _hgap _h

/-- A scan loses nothing. -/
theorem span_scan (cs : List Char) : (scan cs).span = cs := by
  fun_induction scan cs with
  | case1 cs hgap =>
    have h := splitGap_append cs
    rw [hgap, List.append_nil] at h
    simpa [Scan.span, Ending.span] using h
  | case2 cs c rest hgap opener h =>
    have h := splitGap_append cs
    rw [hgap] at h
    simpa [Scan.span, Ending.span] using h
  | case3 cs c rest hgap r h more ih =>
    have hcs := splitGap_append cs
    have hw := (whole_readToken h).1
    rw [hgap] at hcs
    simp only [Scan.span, List.flatMap_cons, Piece.span, List.append_assoc] at ih ⊢
    rw [show more.pieces.flatMap Piece.span ++ more.ending.span = r.rest from ih]
    simp only [Read.whole] at hw
    rw [hw, hcs]

/-! ## Lexemes -/

/-- A piece of a script with the place of its token: the position and the byte offset of the
first character. -/
structure Lexeme extends Piece where
  position : Position
  start : Nat
  deriving DecidableEq, Repr

/-- The byte offset after the last character. -/
def Lexeme.stop (l : Lexeme) : Nat := l.start + Text.byteCount l.text

/-- The part of a script from the first of some neighbouring lexemes through the last one. -/
def spell : List Lexeme → List Char
  | [] => []
  | l :: rest => l.text ++ rest.flatMap fun l => l.gap ++ l.text

/-- The pieces of a text that begins at the given place, each with its own place. -/
def locate (position : Position) (offset : Nat) : List Piece → List Lexeme
  | [] => []
  | p :: rest =>
    ⟨p, position.after p.gap, offset + Text.byteCount p.gap⟩ ::
      locate (position.after p.span) (offset + Text.byteCount p.span) rest

/-- An opener at the given position has nothing that closes it. -/
structure LexError where
  opener : Opener
  position : Position
  deriving DecidableEq, Repr

def Opener.describe : Opener → String
  | name => "quoted identifier"
  | string => "string literal"
  | comment => "block comment"

def LexError.message (e : LexError) : String :=
  s!"unterminated {e.opener.describe} starting at {e.position.toText}"

/-- The lexemes of a script.  The last one marks the end. -/
def tokenize (script : String) : Except LexError (List Lexeme) :=
  let s := scan script.toList
  match s.ending with
  | .complete gap => .ok (locate .start 0 (s.pieces ++ [⟨gap, [], .eof⟩]))
  | .unterminated gap opener _ =>
    .error ⟨opener, Position.start.after (s.pieces.flatMap Piece.span ++ gap)⟩

end Sql
end Schemata
