/-
The escaped form of a text in a listing.  A quoted text stands between two marks; inside, the
mark, the backslash and the characters without a shape of their own are written with a backslash,
the last ones by their number in hexadecimal.
-/
import Schemata.Text.Extending
import Schemata.Text.Unprintable

namespace Schemata
namespace Text

/-- The digits of `n` in base sixteen, without leading zeros. -/
def hexDigits (n : Nat) : List Char := Nat.toDigits 16 n

def numbered (c : Char) : List Char :=
  ['\\', 'u', '\x7b'] ++ hexDigits c.toNat ++ ['\x7d']

/-- The letters that fill the place of a missing one and are not drawn. -/
def isFiller (c : Char) : Bool :=
  within [(0x115F, 0x1160), (0x3164, 0x3164), (0xFFA0, 0xFFA0)] c.toNat

/-- The sound marks of halfwidth kana.  They extend the kana before them but are drawn in a cell of
their own. -/
def isHalfwidthMark (c : Char) : Bool := within [(0xFF9E, 0xFF9F)] c.toNat

/-- A character without a shape of its own. -/
def isShapeless (c : Char) : Bool :=
  isUnprintable c || isFiller c || (isExtending c && !isHalfwidthMark c)

/-- One character inside the quotation mark `mark`. -/
def escapeChar (mark c : Char) : List Char :=
  if c = '\x00' then ['\\', '0']
  else if c = '\t' then ['\\', 't']
  else if c = '\r' then ['\\', 'r']
  else if c = '\n' then ['\\', 'n']
  else if c = '\\' || c = mark then ['\\', c]
  else if isShapeless c then numbered c
  else [c]

/-- The text between two `mark`s, with its characters escaped. -/
def quoted (mark : Char) (cs : List Char) : String :=
  String.ofList ([mark] ++ cs.flatMap (escapeChar mark) ++ [mark])

end Text
end Schemata
