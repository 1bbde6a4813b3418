/-
Sets of code points as lists of closed intervals, which is how properties of characters are
tabulated.
-/
namespace Schemata
namespace Text

/-- Whether `n` lies in one of the closed intervals `rs`.  The intervals are listed in increasing
order, so the search ends at the first one that begins beyond `n`. -/
def within : List (Nat × Nat) → Nat → Bool
  | [], _ => false
  | (lo, hi) :: rest, n => if n < lo then false else n ≤ hi || within rest n

theorem within_of_lt {lo hi n : Nat} (h : n < lo) (rest : List (Nat × Nat)) :
    within ((lo, hi) :: rest) n = false := by
  simp [within, h]

theorem within_cons_of_le {lo hi n : Nat} (hlo : lo ≤ n) (hhi : n ≤ hi)
    (rest : List (Nat × Nat)) : within ((lo, hi) :: rest) n = true := by
  simp [within, Nat.not_lt.mpr hlo, hhi]

end Text
end Schemata
