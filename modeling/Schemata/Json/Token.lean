/-
The tokens of the JSON notation, and how a text is cut into them.  White space separates tokens
and means nothing; a number is the longest run of characters that numbers consist of, and counts
only if the run is a number.
-/
import Schemata.Json.Basic

namespace Schemata
namespace Json

inductive Token
  | openBrace
  | closeBrace
  | openBracket
  | closeBracket
  | colon
  | comma
  | null
  | bool (value : Bool)
  | number (spelling : List Char)
  /-- A string, or nothing if it is a broken text. -/
  | string (value : Option String)
  deriving DecidableEq, Repr

/-! ## Strings -/

/-- What a string holds between its quotation marks: characters, and units of UTF-16 given by
number. -/
inductive Element
  | char (c : Char)
  | unit (n : Nat)
  deriving DecidableEq, Repr

def hexDigit? (c : Char) : Option Nat :=
  if '0' ≤ c && c ≤ '9' then some (c.toNat - 0x30)
  else if 'a' ≤ c && c ≤ 'f' then some (c.toNat - 0x61 + 10)
  else if 'A' ≤ c && c ≤ 'F' then some (c.toNat - 0x41 + 10)
  else none

/-- The unit that four hexadecimal digits give. -/
def unit? (a b c d : Char) : Option Nat := do
  return (((← hexDigit? a) * 16 + (← hexDigit? b)) * 16 + (← hexDigit? c)) * 16 + (← hexDigit? d)

/-- The character that a backslash in front of `c` stands for. -/
def escaped? (c : Char) : Option Char :=
  if c = '"' then some '"'
  else if c = '\\' then some '\\'
  else if c = '/' then some '/'
  else if c = 'b' then some '\x08'
  else if c = 'f' then some '\x0c'
  else if c = 'n' then some '\n'
  else if c = 'r' then some '\r'
  else if c = 't' then some '\t'
  else none

/-- The elements of a string up to its closing quotation mark, and the text after it.  Control
characters have to be escaped. -/
def elements : List Char → Option (List Element × List Char)
  | '"' :: rest => some ([], rest)
  | '\\' :: 'u' :: a :: b :: c :: d :: rest => do
    let n ← unit? a b c d
    let (more, after) ← elements rest
    return (.unit n :: more, after)
  | '\\' :: c :: rest => do
    let c ← escaped? c
    let (more, after) ← elements rest
    return (.char c :: more, after)
  | c :: rest =>
    if c.toNat < 0x20 then none
    else do
      let (more, after) ← elements rest
      return (.char c :: more, after)
  | [] => none

def isHighSurrogate (n : Nat) : Bool := 0xD800 ≤ n && n < 0xDC00

def isLowSurrogate (n : Nat) : Bool := 0xDC00 ≤ n && n < 0xE000

/-- The characters that the elements denote, if every surrogate has a partner right beside it. -/
def characters : List Element → Option (List Char)
  | [] => some []
  | .char c :: rest => (characters rest).map (c :: ·)
  | .unit n :: .unit m :: rest =>
    if isHighSurrogate n then
      if isLowSurrogate m then
        (characters rest).map (Char.ofNat (0x10000 + (n - 0xD800) * 0x400 + (m - 0xDC00)) :: ·)
      else none
    else if isLowSurrogate n then none
    else (characters (.unit m :: rest)).map (Char.ofNat n :: ·)
  | .unit n :: rest =>
    if isHighSurrogate n || isLowSurrogate n then none
    else (characters rest).map (Char.ofNat n :: ·)

/-! ## Numbers -/

def isDigit (c : Char) : Bool := '0' ≤ c && c ≤ '9'

def isNumeral (c : Char) : Bool := isDigit c || c = '+' || c = '-' || c = '.' || c = 'e' || c = 'E'

/-- A run of digits that is not empty, and the text after it. -/
def digits? (cs : List Char) : Option (List Char × List Char) :=
  if (cs.takeWhile isDigit).isEmpty then none
  else some (cs.takeWhile isDigit, cs.dropWhile isDigit)

/-- A number taken apart: sign, digits before the point, digits after it, and power of ten. -/
structure Numeral where
  negative : Bool
  whole : List Char
  fraction : List Char
  exponent : Int
  /-- Neither a point nor an exponent is written. -/
  isPlain : Bool
  deriving Repr

def digitValue (c : Char) : Nat := c.toNat - 0x30

def natOfDigits (ds : List Char) : Nat := ds.foldl (fun n d => 10 * n + digitValue d) 0

/-- The exponent at the end of a number.  Nothing at all is the exponent zero. -/
def exponent? : List Char → Option Int
  | [] => some 0
  | e :: rest =>
    if e = 'e' || e = 'E' then
      let (negative, ds) := match rest with
        | '-' :: ds => (true, ds)
        | '+' :: ds => (false, ds)
        | ds => (false, ds)
      match digits? ds with
      | some (ds, []) => some (if negative then -(natOfDigits ds : Int) else natOfDigits ds)
      | _ => none
    else none

/-- A number: a sign, digits without superfluous zeros in front, a fraction, an exponent. -/
def numeral? (cs : List Char) : Option Numeral := do
  let (negative, cs) := match cs with
    | '-' :: cs => (true, cs)
    | cs => (false, cs)
  let (whole, rest) ← digits? cs
  if whole.length > 1 && whole.head? = some '0' then none
  match rest with
  | '.' :: rest => do
    let (fraction, rest) ← digits? rest
    let exponent ← exponent? rest
    return ⟨negative, whole, fraction, exponent, false⟩
  | rest => do
    let exponent ← exponent? rest
    return ⟨negative, whole, [], exponent, rest.isEmpty⟩

/-! ## Cutting a text into tokens -/

def isSpace (c : Char) : Bool := c = ' ' || c = '\t' || c = '\n' || c = '\r'

/-- The token that the text begins with, which opens no white space, and the text after it. -/
def token? : List Char → Option (Token × List Char)
  | [] => none
  | c :: rest =>
    if c = '\x7b' then some (.openBrace, rest)
    else if c = '\x7d' then some (.closeBrace, rest)
    else if c = '[' then some (.openBracket, rest)
    else if c = ']' then some (.closeBracket, rest)
    else if c = ':' then some (.colon, rest)
    else if c = ',' then some (.comma, rest)
    else if c = '"' then
      (elements rest).map fun (es, after) => (.string ((characters es).map String.ofList), after)
    else if isNumeral c then
      let run := c :: rest.takeWhile isNumeral
      (numeral? run).map fun _ => (.number run, rest.dropWhile isNumeral)
    else match c :: rest with
      | 'n' :: 'u' :: 'l' :: 'l' :: after => some (.null, after)
      | 't' :: 'r' :: 'u' :: 'e' :: after => some (.bool true, after)
      | 'f' :: 'a' :: 'l' :: 's' :: 'e' :: after => some (.bool false, after)
      | _ => none

/-- The text after the closing quotation mark is shorter than the string. -/
theorem length_elements_rest {cs : List Char} {r : List Element × List Char}
    (h : elements cs = some r) : r.2.length < cs.length := by
  fun_induction elements cs generalizing r with
  | case1 rest => cases h; simp
  | case2 a b c d rest ih =>
    simp only [Option.bind_eq_bind, Option.bind_eq_some_iff] at h
    obtain ⟨_, _, p, hp, hr⟩ := h
    cases hr
    have := ih hp
    simp only [List.length_cons] at this ⊢
    omega
  | case3 c rest _ ih =>
    simp only [Option.bind_eq_bind, Option.bind_eq_some_iff] at h
    obtain ⟨_, _, p, hp, hr⟩ := h
    cases hr
    have := ih hp
    simp only [List.length_cons] at this ⊢
    omega
  | case4 => simp at h
  | case5 c rest _ _ _ _ ih =>
    simp only [Option.bind_eq_bind, Option.bind_eq_some_iff] at h
    obtain ⟨p, hp, hr⟩ := h
    cases hr
    have := ih hp
    simp only [List.length_cons] at this ⊢
    omega
  | case6 => simp at h

/-- Every token has at least one character. -/
theorem length_token?_rest {cs : List Char} {r : Token × List Char} (h : token? cs = some r) :
    r.2.length < cs.length := by
  unfold token? at h
  split at h
  · simp at h
  iterate 6
    split at h
    · cases h; simp
  split at h
  · obtain ⟨p, hp, rfl⟩ := Option.map_eq_some_iff.mp h
    have := length_elements_rest hp
    simp only [List.length_cons] at this ⊢
    omega
  split at h
  · obtain ⟨_, _, rfl⟩ := Option.map_eq_some_iff.mp h
    simp only [List.length_cons]
    exact Nat.lt_succ_of_le (List.dropWhile_suffix _).length_le
  split at h
  · next heq => cases h; simp [heq]; omega
  · next heq => cases h; simp [heq]; omega
  · next heq => cases h; simp [heq]; omega
  · simp at h

def tokens? (cs : List Char) : Option (List Token) :=
  match cs with
  | [] => some []
  | c :: rest =>
    if isSpace c then tokens? rest
    else match _h : token? (c :: rest) with
      | some (token, after) => (tokens? after).map (token :: ·)
      | none => none
termination_by cs.length
decreasing_by
  · simp
  · exact length_token?_rest _h

end Json
end Schemata
