/-
Places in a text: lines and columns count characters, offsets count bytes.
-/
namespace Schemata
namespace Text

/-- The line and the column of a character, both counted from one.  Columns count characters. -/
structure Position where
  line : Nat
  column : Nat
  deriving DecidableEq, Repr, Inhabited

namespace Position

def start : Position := ⟨1, 1⟩

/-- The position after a character that stands at `p`.  Only the line feed begins a line. -/
def next (p : Position) (c : Char) : Position :=
  if c = '\n' then ⟨p.line + 1, 1⟩ else ⟨p.line, p.column + 1⟩

/-- The position after a text that begins at `p`. -/
def after (p : Position) (cs : List Char) : Position := cs.foldl next p

def toText (p : Position) : String := s!"line {p.line}, column {p.column}"

theorem after_append (p : Position) (a b : List Char) : p.after (a ++ b) = (p.after a).after b := by
  simp [after]

end Position

def byteCount : List Char → Nat
  | [] => 0
  | c :: rest => c.utf8Size + byteCount rest

theorem byteCount_append (a b : List Char) : byteCount (a ++ b) = byteCount a + byteCount b := by
  induction a with
  | nil => simp [byteCount]
  | cons c rest ih => simp [byteCount, ih, Nat.add_assoc]

theorem byteCount_eq_utf8ByteSize (cs : List Char) :
    byteCount cs = (String.ofList cs).utf8ByteSize := by
  induction cs with
  | nil => rfl
  | cons c rest ih =>
    have hsplit : String.ofList (c :: rest) = String.singleton c ++ String.ofList rest := by
      rw [String.singleton_eq_ofList, ← String.ofList_append]
      rfl
    rw [hsplit, String.utf8ByteSize_append, String.utf8ByteSize_singleton, ← ih]
    rfl

end Text
end Schemata
