/-
Binary floating-point numbers as decimal text.  Of the decimals that no other floating-point
number is nearer to, the one with the fewest digits is written.  It is positional up to sixteen
places in front of the point and four zeros behind it, and then always has a point; otherwise it
has an exponent.  Of a decimal that is read, the digits count that fit into a word of 64 bits.
-/
import Schemata.Decimal.Shortest

namespace Schemata
namespace Decimal

/-! ## Writing -/

/-- How a decimal is written. -/
structure Style where
  /-- The greatest number of places in front of the point of a positional number. -/
  wholePlaces : Int
  /-- The greatest number of zeros that follow the point of a positional number below one. -/
  leadingZeros : Int
  deriving DecidableEq, Repr

/-- Numbers are positional below `10 ^ 16` and from `10 ^ -5` on. -/
def Style.standard : Style := ⟨16, 4⟩

def zeros (n : Int) : List Char := List.replicate n.toNat '0'

def Scaled.render (style : Style) (s : Scaled) : List Char :=
  let ds := Nat.toDigits 10 s.digits
  let places := ds.length + s.exponent
  if 0 ≤ s.exponent && places ≤ style.wholePlaces then ds ++ zeros s.exponent ++ ['.', '0']
  else if 0 < places && places ≤ style.wholePlaces then
    ds.take places.toNat ++ ['.'] ++ ds.drop places.toNat
  else if -style.leadingZeros ≤ places && places ≤ 0 then ['0', '.'] ++ zeros (-places) ++ ds
  else
    ds.take 1 ++ (if ds.length = 1 then [] else '.' :: ds.drop 1) ++ ['e'] ++
      (toString (places - 1)).toList

/-- The parts of a floating-point number: sign, significand and power of two. -/
structure Parts where
  negative : Bool
  significand : Nat
  exponent : Int
  deriving DecidableEq, Repr

def Parts.ofBits (bits : Nat) : Parts :=
  let field := bits / leastFullSignificand % 0x800
  let fraction := bits % leastFullSignificand
  let negative := bits / leastFullSignificand / 0x800 = 1
  if field = 0 then ⟨negative, fraction, -1074⟩
  else ⟨negative, fraction + leastFullSignificand, (field : Int) - 1075⟩

/-- The text of a number, unless it is infinite or not a number. -/
def render? (x : Float) : Option String :=
  if x.isNaN || x.isInf then none
  else
    let p := Parts.ofBits x.toBits.toNat
    let sign := if p.negative then ['-'] else []
    let text := if p.significand = 0 then ['0', '.', '0']
      else (shortest p.significand p.exponent).render .standard
    some (String.ofList (sign ++ text))

/-! ## Reading -/

/-- The least number that is too great for a word of 64 bits. -/
def wordBound : Nat := 0x10000000000000000

/-- The digits in front of the point, after those that gave `n`.  From the first digit on with
which the number would be too great for a word, they only count as places. -/
def wholeDigits (n : Nat) : List Nat → Scaled
  | [] => ⟨n, 0⟩
  | d :: rest =>
    if 10 * n + d < wordBound then wholeDigits (10 * n + d) rest else ⟨n, rest.length + 1⟩

/-- A number with further digits behind the point.  From the first digit on with which the number
would be too great for a word, they do not count. -/
def fractionDigits (s : Scaled) : List Nat → Scaled
  | [] => s
  | d :: rest =>
    if 10 * s.digits + d < wordBound then
      fractionDigits ⟨10 * s.digits + d, s.exponent - 1⟩ rest
    else s

/-- The greatest exponent of a finite power of ten. -/
def greatestPower : Nat := 308

def powerOfTen (n : Nat) : Float := Float.ofScientific 1 false n

/-- A number divided by a power of ten, in steps that divide by a finite one. -/
def scaleDown (x : Float) (places : Nat) : Float :=
  if places ≤ greatestPower then x / powerOfTen places
  else if x == 0 then x
  else scaleDown (x / powerOfTen greatestPower) (places - greatestPower)
termination_by places
decreasing_by simp only [greatestPower] at *; omega

/-- The floating-point number for a decimal whose digits fit into a word.  The digits are rounded
first, and then their product or quotient with the power of ten.  There is none if that is
infinite. -/
def Scaled.toFloat? (s : Scaled) : Option Float :=
  let x := s.digits.toFloat
  if s.exponent < 0 then some (scaleDown x s.exponent.natAbs)
  else if s.digits = 0 then some x
  else if s.exponent.natAbs > greatestPower then none
  else
    let y := x * powerOfTen s.exponent.natAbs
    if y.isInf then none else some y

end Decimal
end Schemata
