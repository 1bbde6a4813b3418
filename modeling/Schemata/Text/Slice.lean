/-
Parts of a text between two byte offsets.  An offset that is past the end of the text, or inside a
character, is not a place to cut at.
-/
import Schemata.Text.Position

namespace Schemata
namespace Text

/-- The characters before a byte offset and the ones after it. -/
def cut? : List Char → Nat → Option (List Char × List Char)
  | cs, 0 => some ([], cs)
  | [], _ + 1 => none
  | c :: rest, offset + 1 =>
    if c.utf8Size ≤ offset + 1 then
      (cut? rest (offset + 1 - c.utf8Size)).map fun (before, after) => (c :: before, after)
    else none

/-- The characters from one byte offset up to another one. -/
def slice? (cs : List Char) (start stop : Nat) : Option (List Char) :=
  if start ≤ stop then do
    let (_, rest) ← cut? cs start
    let (part, _) ← cut? rest (stop - start)
    return part
  else none

theorem cut?_append (before after : List Char) :
    cut? (before ++ after) (byteCount before) = some (before, after) := by
  induction before with
  | nil => rw [List.nil_append, byteCount, cut?]
  | cons c before ih =>
    obtain ⟨n, hn⟩ : ∃ n, byteCount (c :: before) = n + 1 :=
      Nat.exists_eq_add_of_le' (Nat.le_add_right_of_le c.utf8Size_pos)
    have hrest : n + 1 - c.utf8Size = byteCount before := by
      rw [← hn, byteCount, Nat.add_sub_cancel_left]
    have hle : c.utf8Size ≤ n + 1 := by
      rw [← hn, byteCount]
      exact Nat.le_add_right _ _
    rw [hn, List.cons_append, cut?, if_pos hle, hrest, ih]
    rfl

theorem cut?_eq_some {cs before after : List Char} {offset : Nat}
    (h : cut? cs offset = some (before, after)) :
    cs = before ++ after ∧ byteCount before = offset := by
  fun_induction cut? cs offset generalizing before after with
  | case1 => cases h; exact ⟨rfl, rfl⟩
  | case2 => cases h
  | case3 c rest offset hle ih =>
    obtain ⟨⟨front, back⟩, hcut, heq⟩ := Option.map_eq_some_iff.mp h
    cases heq
    obtain ⟨rfl, hcount⟩ := ih hcut
    exact ⟨rfl, by rw [byteCount, hcount]; exact Nat.add_sub_cancel' hle⟩
  | case4 => cases h

/-- What stands between two offsets has as many bytes before it as the first one says, and as many
up to its end as the second one says. -/
theorem slice?_eq_some_iff {cs part : List Char} {start stop : Nat} :
    slice? cs start stop = some part ↔
      ∃ before after, cs = before ++ part ++ after ∧ byteCount before = start ∧
        byteCount (before ++ part) = stop := by
  constructor
  · intro h
    unfold slice? at h
    split at h
    · next hle =>
      obtain ⟨⟨before, rest⟩, hbefore, h⟩ := Option.bind_eq_some_iff.mp h
      obtain ⟨⟨part', after⟩, hpart, heq⟩ := Option.bind_eq_some_iff.mp h
      cases heq
      obtain ⟨rfl, hstart⟩ := cut?_eq_some hbefore
      obtain ⟨rfl, hstop⟩ := cut?_eq_some hpart
      refine ⟨before, after, by rw [List.append_assoc], hstart, ?_⟩
      rw [byteCount_append, hstart, hstop]
      exact Nat.add_sub_cancel' hle
    · cases h
  · rintro ⟨before, after, rfl, rfl, rfl⟩
    rw [slice?, byteCount_append, if_pos (Nat.le_add_right _ _), Nat.add_sub_cancel_left,
      List.append_assoc, cut?_append]
    show (cut? (part ++ after) (byteCount part)).bind _ = _
    rw [cut?_append]
    rfl

theorem slice?_append (before part after : List Char) :
    slice? (before ++ part ++ after) (byteCount before) (byteCount (before ++ part)) = some part :=
  slice?_eq_some_iff.mpr ⟨before, after, rfl, rfl, rfl⟩

/-- A text is cut between characters only. -/
theorem isValid_of_slice? {text : String} {part : List Char} {start stop : Nat}
    (h : slice? text.toList start stop = some part) :
    (String.Pos.Raw.mk start).IsValid text ∧ (String.Pos.Raw.mk stop).IsValid text := by
  obtain ⟨before, after, htext, rfl, rfl⟩ := slice?_eq_some_iff.mp h
  have hvalid : ∀ front back, text.toList = front ++ back →
      (String.Pos.Raw.mk (byteCount front)).IsValid text := by
    intro front back hsplit
    refine String.Pos.Raw.isValid_iff_exists_append.mpr
      ⟨String.ofList front, String.ofList back, ?_, ?_⟩
    · rw [← String.ofList_append, ← hsplit, String.ofList_toList]
    · rw [byteCount_eq_utf8ByteSize]
      rfl
  exact ⟨hvalid _ _ (htext.trans (List.append_assoc _ _ _)), hvalid _ _ htext⟩

end Text
end Schemata
