/-
The shortest decimal that reads back as a given binary number.  A binary number `m * 2 ^ q` is the
nearest one to every real number in an interval around it.  Grids of powers of ten are tried from
coarse to fine, and on each of them only the two neighbours of the number itself: if any point of
the grid lies in the interval, one of these does.  The first grid with a point in the interval has
the fewest digits.
-/

namespace Schemata
namespace Decimal

/-- The number `digits * 10 ^ exponent`. -/
structure Scaled where
  digits : Nat
  exponent : Int
  deriving DecidableEq, Repr

/-- The part of a power that stands above the fraction line. -/
def powUp (base : Nat) (e : Int) : Nat := Nat.pow base e.toNat

/-- The part of a power that stands below the fraction line. -/
def powDown (base : Nat) (e : Int) : Nat := Nat.pow base (-e).toNat

/-- The interval of a binary number in quarters of its unit, and whether its ends belong to it.
The number below a power of two is only half as far away. -/
structure Interval where
  low : Nat
  middle : Nat
  high : Nat
  closed : Bool
  deriving DecidableEq, Repr

/-- The least significand of fifty-three bits, which is two to the power of fifty-two. -/
def leastFullSignificand : Nat := 0x10000000000000

def Interval.around (m : Nat) (q : Int) : Interval :=
  ⟨4 * m - (if m = leastFullSignificand && q > -1074 then 1 else 2), 4 * m, 4 * m + 2, m % 2 = 0⟩

/-- The point of the grid of spacing `10 ^ p` that lies in the interval of `m * 2 ^ q`.  Of two
such points the nearer one counts, and the even one if both are equally near. -/
def onGrid? (m : Nat) (q p : Int) : Option Nat :=
  let i := Interval.around m q
  let num := powUp 2 (q - 2) * powDown 10 p
  let den := powDown 2 (q - 2) * powUp 10 p
  let inside (n : Nat) : Bool :=
    if i.closed then i.low * num ≤ n * den && n * den ≤ i.high * num
    else i.low * num < n * den && n * den < i.high * num
  let n := i.middle * num / den
  let below := i.middle * num - n * den
  let above := (n + 1) * den - i.middle * num
  match inside n, inside (n + 1) with
  | true, true => some (if below < above || (below = above && n % 2 = 0) then n else n + 1)
  | true, false => some n
  | false, true => some (n + 1)
  | false, false => none

/-- The point in the interval on the coarsest grid that has one, of the given number of grids from
`10 ^ p` downwards. -/
def search (m : Nat) (q : Int) : Nat → Int → Option Scaled
  | 0, _ => none
  | steps + 1, p =>
    match onGrid? m q p with
    | some n => some ⟨n, p⟩
    | none => search m q steps (p - 1)

/-- The shortest decimal that reads back as `m * 2 ^ q`.  Seventeen digits always suffice, so the
search ends within twenty grids of the leading digit. -/
def shortest (m : Nat) (q : Int) : Scaled :=
  let top := ((Nat.log2 m : Int) + q) * 30103 / 100000 + 2
  (search m q 22 top).getD ⟨m, 0⟩

end Decimal
end Schemata
