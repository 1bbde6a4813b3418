/-
The numbers of new ids.  A new number is larger than the last one, its id is not taken, and it is
the next number if the id of that one is free.
-/
import Mathlib.Data.List.Nodup
import Mathlib.Data.List.Perm.Subperm
import Schemata.Schema.FreshId

namespace Schemata

theorem toDigits_injective {m n : Nat} (h : Nat.toDigits 10 m = Nat.toDigits 10 n) : m = n := by
  have hm := Nat.ofDigitChars_toDigits (b := 10) (n := m) (by omega) (by omega)
  have hn := Nat.ofDigitChars_toDigits (b := 10) (n := n) (by omega) (by omega)
  rw [← hm, ← hn, h]

theorem numberedId_injective {letter : String} {m n : Nat}
    (h : numberedId letter m = numberedId letter n) : m = n := by
  have hlist := congrArg String.toList h
  simp only [numberedId, String.toList_append, List.append_cancel_left_eq, Nat.toString_eq_repr,
    Nat.toList_repr] at hlist
  exact toDigits_injective hlist

/-- Among more numbers than there are ids taken, one has a free id. -/
theorem exists_free_number (letter : String) (taken : List String) (n : Nat) :
    ∃ k ∈ List.range' (n + 1) (taken.length + 1), numberedId letter k ∉ taken := by
  by_contra hall
  have hsub : (List.range' (n + 1) (taken.length + 1)).map (numberedId letter) ⊆ taken := by
    intro id hid
    obtain ⟨k, hk, rfl⟩ := List.mem_map.mp hid
    by_contra hfree
    exact hall ⟨k, hk, hfree⟩
  have hnodup : ((List.range' (n + 1) (taken.length + 1)).map (numberedId letter)).Nodup :=
    List.Nodup.map (fun _ _ heq => numberedId_injective heq) List.nodup_range'
  have hlen := (List.subperm_of_subset hnodup hsub).length_le
  simp only [List.length_map, List.length_range'] at hlen
  omega

/-- The search for a free number ends among the numbers that are tried. -/
theorem freshNumber_spec (letter : String) (taken : List String) (n : Nat) :
    n < freshNumber letter taken n ∧ numberedId letter (freshNumber letter taken n) ∉ taken := by
  unfold freshNumber
  cases hfound : (List.range' (n + 1) (taken.length + 1)).find? fun k =>
      !taken.contains (numberedId letter k) with
  | none =>
    obtain ⟨k, hk, hfree⟩ := exists_free_number letter taken n
    have hk' := List.find?_eq_none.mp hfound k hk
    simp [hfree] at hk'
  | some k =>
    have hmem := List.mem_range'_1.mp (List.mem_of_find?_eq_some hfound)
    have hfree := List.find?_some hfound
    simp only [Bool.not_eq_true', List.contains_eq_mem, decide_eq_false_iff_not] at hfree
    exact ⟨by simp only [Option.getD_some]; omega, hfree⟩

theorem freshNumber_eq_succ {letter : String} {taken : List String} {n : Nat}
    (h : numberedId letter (n + 1) ∉ taken) : freshNumber letter taken n = n + 1 := by
  have hfree : taken.contains (numberedId letter (n + 1)) = false := by simp [h]
  rw [freshNumber, List.range'_succ, List.find?_cons, hfree]
  rfl

namespace Schema

theorem freshTable_not_mem (s : Schema) : TableId.ofNumber s.freshTable ∉ s.tableIds := by
  intro h
  exact (freshNumber_spec "t" (s.tableIds.map (·.text)) s.counter).2
    (List.mem_map.mpr ⟨_, h, rfl⟩)

theorem freshColumn_not_mem (s : Schema) : ColumnId.ofNumber s.freshColumn ∉ s.columnIds := by
  intro h
  exact (freshNumber_spec "c" (s.columnIds.map (·.text)) s.counter).2
    (List.mem_map.mpr ⟨_, h, rfl⟩)

theorem freshRelation_not_mem (s : Schema) :
    RelationId.ofNumber s.freshRelation ∉ s.relationIds := by
  intro h
  exact (freshNumber_spec "r" (s.relationIds.map (·.text)) s.counter).2
    (List.mem_map.mpr ⟨_, h, rfl⟩)

end Schema
end Schemata
