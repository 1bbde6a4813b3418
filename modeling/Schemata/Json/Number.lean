/-
JSON numbers and the numbers they stand for.
-/
import Schemata.Decimal.Floating
import Schemata.Json.Token

namespace Schemata
namespace Json

/-- A floating-point number in the fewest digits that read back.  An infinite number, and one that
is not a number, is `null`. -/
def ofFloat (x : Float) : Json :=
  match Decimal.render? x with
  | some spelling => number spelling
  | none => null

def numeralOf? : Json → Option Numeral
  | number spelling => numeral? spelling.toList
  | _ => none

/-- The whole number below `bound` that is written without sign, point and exponent. -/
def natBelow? (bound : Nat) (value : Json) : Option Nat := do
  let n ← value.numeralOf?
  if n.isPlain && !n.negative && natOfDigits n.whole < bound then natOfDigits n.whole else none

def float? (value : Json) : Option Float := do
  let n ← value.numeralOf?
  let whole := Decimal.wholeDigits 0 (n.whole.map digitValue)
  let digits := Decimal.fractionDigits whole (n.fraction.map digitValue)
  let x ← Decimal.Scaled.toFloat? ⟨digits.digits, digits.exponent + n.exponent⟩
  return if n.negative then -x else x

end Json
end Schemata
