/-
The number of terminal cells that a text takes.  Most characters take one cell, East Asian wide
ones two and combining marks none, but some characters change their width next to others: a line
break of two characters, pictures built from several characters, and the ligatures of a few
scripts.  A text is therefore read from its end, and what stands to the right of a character is
summed up in an `Ahead`.
-/
import Schemata.Text.CellTable

namespace Schemata
namespace Text

/-- What the characters to the right begin with, as far as it can change the width of the
character in front of them. -/
inductive Follower
  | plain
  | lineFeed
  | skinTone
  /-- A regional indicator, of which two make a flag. -/
  | indicator
  | indicators
  | picture
  /-- A joiner in front of a picture, so that a picture before it makes one with it. -/
  | joinedPicture
  | joinedKeycap
  /-- The end of a joined flag of a region: so many tags of letters and the tag that ends it. -/
  | joinedLetters (count : Nat)
  /-- The same with so many tags of digits at its beginning. -/
  | joinedDigits (count : Nat)
  | joinedIndicator
  | joinedEven
  | joinedOdd
  | alef
  | lamed (joined : Bool)
  | buginese (joined : Bool)
  | bugineseVowel
  | tifinagh (joined : Bool)
  | tifinaghJoiner
  | lisuTone
  | orkhon (joined : Bool)
  | khmerLetter
  | kiratSingle
  | kiratDouble
  deriving DecidableEq, Repr

/-- Which form a variation selector asks of the character before it. -/
inductive Presentation
  | asPicture
  | asText
  /-- As wide as an ideograph. -/
  | asWide
  deriving DecidableEq, Repr

structure Ahead where
  follower : Follower
  selector : Option Presentation
  deriving DecidableEq, Repr

namespace Follower

/-- The scripts whose ligatures go on across variation selectors. -/
def isScript : Follower → Bool
  | alef | lamed _ | buginese _ | bugineseVowel | tifinagh _ | tifinaghJoiner | lisuTone
  | orkhon _ | khmerLetter => true
  | _ => false

/-- The scripts whose ligatures also go on across joiners and other invisible marks. -/
def isSeeThrough (f : Follower) : Bool := f.isScript && f != alef

/-- The follower after a joiner was put in front of it. -/
def joined : Follower → Follower
  | lamed _ => lamed true
  | buginese _ => buginese true
  | tifinagh _ => tifinagh true
  | orkhon _ => orkhon true
  | f => f

end Follower

def isInvisibleMark (n : Nat) : Bool :=
  within [(0x34F, 0x34F), (0x17B4, 0x17B5), (0x180B, 0x180D), (0x180F, 0x180F), (0xFE00, 0xFE0F),
    (0xE0100, 0xE01EF)] n

def isRegional (n : Nat) : Bool := within [(0x1F1E6, 0x1F1FF)] n

def isSkinTone (n : Nat) : Bool := within [(0x1F3FB, 0x1F3FF)] n

/-- A letter of the Latin alphabet in the form of a tag. -/
def isLetterTag (n : Nat) : Bool := within [(0xE0061, 0xE007A)] n

/-- A digit in the form of a tag. -/
def isDigitTag (n : Nat) : Bool := within [(0xE0030, 0xE0039)] n

/-- The quotation marks that have a wide form. -/
def isQuotationMark (n : Nat) : Bool := within [(0x2018, 0x2019), (0x201C, 0x201D)] n

def isTifinaghConsonant (n : Nat) : Bool := within [(0x2D31, 0x2D65), (0x2D6F, 0x2D6F)] n

def isArabicLam (n : Nat) : Bool :=
  within [(0x644, 0x644), (0x6B5, 0x6B8), (0x76A, 0x76A), (0x8A6, 0x8A6), (0x8C7, 0x8C7)] n

def isArabicAlef (n : Nat) : Bool :=
  within [(0x622, 0x623), (0x625, 0x625), (0x627, 0x627), (0x671, 0x673), (0x675, 0x675),
    (0x773, 0x774), (0x870, 0x882)] n

/-- The Khmer letters that the sign coeng subscribes. -/
def isKhmerLetter (n : Nat) : Bool :=
  within [(0x1780, 0x1782), (0x1784, 0x1787), (0x1789, 0x178C), (0x178E, 0x1793),
    (0x1795, 0x1798), (0x179B, 0x179D), (0x17A0, 0x17A0), (0x17A2, 0x17A2), (0x17A7, 0x17A7),
    (0x17AB, 0x17AC), (0x17AF, 0x17AF)] n

def charCells (n : Nat) : Int :=
  if n ≤ 0xA0 then 1
  else if n = 0x17D8 then 3
  else if n = 0x17A4 then 2
  else if within emptyRanges n then 0
  else if within wideRanges n then 2
  else 1

/-- What a character means to the one before it. -/
def followerOf (n : Nat) : Follower :=
  if n = 0x0A then .lineFeed
  else if isSkinTone n then .skinTone
  else if isRegional n then .indicator
  else if within emojiRanges n then .picture
  else if isArabicAlef n then .alef
  else if n = 0x5DC then .lamed false
  else if n = 0x1A10 then .buginese false
  else if isTifinaghConsonant n then .tifinagh false
  else if n = 0xA4FC || n = 0xA4FD then .lisuTone
  else if n = 0x10C03 then .orkhon false
  else if isKhmerLetter n then .khmerLetter
  else if n = 0x16D67 then .kiratSingle
  else if n = 0x16D68 then .kiratDouble
  else .plain

/-- A mark between the letters of an Arabic ligature, which joins them all the same. -/
def isArabicMark (n : Nat) : Bool := charCells n = 0 && !within opaqueRanges n

/-- The cells that the character `n` adds in front of `f`, if the two together differ from the sum
of their widths.  The tags behind a flag spell a region and a part of it: a region is two letters
or three digits, and its part has up to four letters. -/
def together (f : Follower) (n : Nat) : Option (Int × Follower) :=
  match f with
  | .lineFeed => if n = 0x0D then some (0, .plain) else none
  | .alef =>
    if isArabicLam n then some (0, .plain)
    else if isArabicMark n then some (0, .alef) else none
  | .lamed true => if n = 0x5D0 then some (0, .plain) else none
  | .khmerLetter => if n = 0x17D2 then some (-1, .plain) else none
  | .buginese true => if n = 0x1A17 then some (0, .bugineseVowel) else none
  | .bugineseVowel => if n = 0x1A15 then some (0, .plain) else none
  | .tifinagh joined =>
    if n = 0x2D7F then some (1, .tifinaghJoiner)
    else if joined && isTifinaghConsonant n then some (0, .plain) else none
  | .tifinaghJoiner => if isTifinaghConsonant n then some (-1, .plain) else none
  | .lisuTone => if within [(0xA4F8, 0xA4FB)] n then some (0, .plain) else none
  | .orkhon true => if n = 0x10C32 then some (0, .plain) else none
  | .kiratSingle =>
    if n = 0x16D63 || n = 0x16D69 then some (0, .plain)
    else if n = 0x16D67 then some (0, .kiratDouble)
    else if n = 0x16D68 then some (1, .kiratSingle) else none
  | .kiratDouble => if n = 0x16D63 then some (0, .plain) else none
  | .skinTone =>
    if within tintableRanges n then some (0, .picture)
    else if n = 0x200D then some (0, .joinedPicture) else none
  | .indicator => if isRegional n then some (1, .indicators) else none
  | .indicators =>
    if isRegional n then some (1, .indicators)
    else if n = 0x200D then some (0, .joinedPicture) else none
  | .picture => if n = 0x200D then some (0, .joinedPicture) else none
  | .joinedPicture =>
    if n = 0x20E3 then some (0, .joinedKeycap)
    else if isRegional n then some (1, .joinedIndicator)
    else if isSkinTone n then some (0, .skinTone)
    else if n = 0xE007F then some (0, .joinedLetters 0)
    else if within emojiRanges n then some (0, .picture) else none
  | .joinedLetters count =>
    if isLetterTag n && count < 6 then some (0, .joinedLetters (count + 1))
    else if isDigitTag n && count ≤ 4 then some (0, .joinedDigits 1)
    else if n = 0x1F3F4 && 3 ≤ count then some (0, .picture) else none
  | .joinedDigits count =>
    if isDigitTag n && count < 3 then some (0, .joinedDigits (count + 1))
    else if n = 0x1F3F4 && count = 3 then some (0, .picture) else none
  | .joinedIndicator => if isRegional n then some (-1, .joinedEven) else none
  | .joinedOdd =>
    if isRegional n then some (-1, .joinedEven)
    else if n = 0x200D then some (0, .joinedPicture) else none
  | .joinedEven =>
    if isRegional n then some (3, .joinedOdd)
    else if n = 0x200D then some (0, .joinedPicture) else none
  | _ => none

/-- The cells that `n` adds in front of a text that begins as `f` says. -/
def before (f : Follower) (n : Nat) : Int × Ahead :=
  if n = 0xFE0F then
    let stays := f.isScript || f = .joinedPicture || f = .joinedKeycap
    (0, ⟨if stays then f else .plain, some .asPicture⟩)
  else if n = 0xFE0E then (0, ⟨if f.isScript then f else .plain, some .asText⟩)
  else if n = 0xFE01 then (0, ⟨if f.isScript then f else .plain, some .asWide⟩)
  else if f.isSeeThrough && n = 0x200D then (0, ⟨f.joined, none⟩)
  else if f.isSeeThrough && isInvisibleMark n then (0, ⟨f, none⟩)
  else match together f n with
    | some (cells, follower) => (cells, ⟨follower, none⟩)
    | none => (charCells n, ⟨followerOf n, none⟩)

/-- The cells that the character `c` adds to a text that begins as `ahead` says, and how the
longer text begins.  A variation selector decides first, if the character has the form that the
selector asks for. -/
def addCells (c : Char) (ahead : Ahead) : Int × Ahead :=
  let n := c.toNat
  match ahead.selector with
  | none => before ahead.follower n
  | some .asPicture =>
    if within pictureRanges n then
      (if ahead.follower = .joinedPicture || ahead.follower = .joinedKeycap then 0 else 2,
        ⟨.picture, none⟩)
    else before (if ahead.follower.isScript then ahead.follower else .plain) n
  | some .asText =>
    if within plainRanges n then (1, ⟨.plain, none⟩)
    else before ahead.follower n
  | some .asWide =>
    if isQuotationMark n then (2, ⟨.plain, none⟩)
    else before ahead.follower n

def cellCount (cs : List Char) : Nat :=
  (cs.foldr (fun c (total, ahead) =>
    let (cells, next) := addCells c ahead
    (total + cells, next)) ((0 : Int), (⟨.plain, none⟩ : Ahead))).1.toNat

end Text
end Schemata
