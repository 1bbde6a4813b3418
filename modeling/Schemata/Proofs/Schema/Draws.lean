/-
How many turns it takes to draw an id, and which one is drawn.  Different numbers have different
ids, so among more numbers than there are objects one is free.  The loop stops at the least of them
unless the counter cannot hold it.
-/
import Mathlib.Order.Bounds.Basic
import Schemata.Proofs.Schema.FreshId
import Schemata.Schema.Draw

namespace Schemata

/-- The least number behind the counter whose id is free. -/
def IdSort.NextFree (sort : IdSort) (s : Schema) (n : Nat) : Prop :=
  IsLeast {k | s.counter < k ∧ numberedId sort.letter k ∉ sort.taken s} n

theorem freshNumber_eq {letter : String} {taken : List String} {n k : Nat}
    (h : freshNumber letter taken n = k) :
    IsLeast {k | n < k ∧ numberedId letter k ∉ taken} k ∧ k ≤ n + taken.length + 1 := by
  obtain ⟨i, hi, hfree⟩ := exists_free_number letter taken n
  unfold freshNumber at h
  cases hfound : (List.range' (n + 1) (taken.length + 1)).find? fun k =>
      !taken.contains (numberedId letter k) with
  | none =>
    have hi' := List.find?_eq_none.mp hfound i hi
    simp [hfree] at hi'
  | some j =>
    obtain rfl : j = k := by rw [← h, hfound]; rfl
    obtain ⟨hj, hmem, hbefore⟩ := List.find?_range'_eq_some.mp hfound
    obtain ⟨hlow, hhigh⟩ := List.mem_range'_1.mp hmem
    refine ⟨⟨⟨hlow, by simpa using hj⟩, fun m hm => ?_⟩, by omega⟩
    by_contra hlt
    have htaken := hbefore m hm.1 (Nat.lt_of_not_le hlt)
    simp [hm.2] at htaken

namespace IdSort

variable {sort : IdSort} {s : Schema} {n : Nat}

theorem fresh_eq (sort : IdSort) (s : Schema) :
    sort.fresh s = freshNumber sort.letter (sort.taken s) s.counter := by
  cases sort <;> rfl

/-- The counter says nothing about which ids are taken. -/
theorem taken_withCounter (sort : IdSort) (s : Schema) (n : Nat) :
    sort.taken { s with counter := n } = sort.taken s := by
  cases sort <;> rfl

theorem nextFree_fresh (sort : IdSort) (s : Schema) : sort.NextFree s (sort.fresh s) :=
  (freshNumber_eq (sort.fresh_eq s).symm).1

theorem fresh_le (sort : IdSort) (s : Schema) :
    sort.fresh s ≤ s.counter + (sort.taken s).length + 1 :=
  (freshNumber_eq (sort.fresh_eq s).symm).2

/-- The next number is the one searched for if its id is free. -/
theorem NextFree.eq_succ (h : sort.NextFree s n)
    (hfree : numberedId sort.letter (s.counter + 1) ∉ sort.taken s) : n = s.counter + 1 :=
  Nat.le_antisymm (h.2 ⟨Nat.lt_succ_self _, hfree⟩) h.1.1

/-- Behind a number whose id is taken, the search goes on for the same number. -/
theorem NextFree.step (h : sort.NextFree s n)
    (htaken : numberedId sort.letter (s.counter + 1) ∈ sort.taken s) :
    s.counter + 1 < n ∧ sort.NextFree { s with counter := s.counter + 1 } n := by
  obtain ⟨⟨hlt, hfree⟩, hleast⟩ := h
  have hne : n ≠ s.counter + 1 := fun heq => hfree (heq ▸ htaken)
  have hlt' : s.counter + 1 < n := by omega
  refine ⟨hlt', ⟨hlt', by rwa [taken_withCounter]⟩, fun k hk => hleast ⟨?_, ?_⟩⟩
  · exact Nat.lt_of_succ_lt hk.1
  · have hk' := hk.2
    rwa [taken_withCounter] at hk'

end IdSort

namespace Schema

variable {sort : IdSort} {s : Schema} {n : Nat}

/-- The loop comes to the number searched for, one turn for each number on the way to it. -/
theorem draw_of_nextFree (h : sort.NextFree s n) :
    s.draw sort =
      if n < counterLimit then
        some ⟨numberedId sort.letter n, { s with counter := n }, n - s.counter⟩
      else none := by
  fun_induction s.draw sort with
  | case1 s hroom next candidate htaken ih =>
    rw [List.contains_iff_mem, IdSort.taken_withCounter] at htaken
    obtain ⟨hlt, hnext⟩ := h.step htaken
    rw [ih hnext]
    split
    · have hturns : n - next.counter + 1 = n - s.counter := by
        show n - (s.counter + 1) + 1 = _
        omega
      rw [Option.map_some, hturns]
    · rfl
  | case2 s hroom next candidate htaken =>
    rw [List.contains_iff_mem, IdSort.taken_withCounter] at htaken
    obtain rfl := h.eq_succ htaken
    rw [if_pos hroom, Nat.add_sub_cancel_left]
  | case3 s hroom =>
    have hlt := h.1.1
    rw [if_neg (by omega)]

/-- Drawing an id takes at most one turn more than there are objects of its sort.  It moves the
counter on to the least number whose id is free, which is the one that a new object is given, and
changes nothing else.  No id is drawn only if the counter cannot hold that number. -/
theorem draw_least (sort : IdSort) (s : Schema) :
    ∃ n, sort.NextFree s n ∧ n - s.counter ≤ (sort.taken s).length + 1 ∧ sort.fresh s = n ∧
      s.draw sort =
        if n < counterLimit then
          some ⟨sort.letter ++ toString n, { s with counter := n }, n - s.counter⟩
        else none := by
  have hbound := sort.fresh_le s
  exact ⟨_, sort.nextFree_fresh s, by omega, rfl, draw_of_nextFree (sort.nextFree_fresh s)⟩

/-- A schema that was read from elsewhere: its ids look like drawn ones, and its counter is zero. -/
def imitating : Schema :=
  ⟨[⟨⟨"c4"⟩, "a", [⟨⟨"c1"⟩, "x", .text, true, false, false, false⟩,
      ⟨⟨"c3"⟩, "y", .text, false, false, false, false⟩]⟩,
    ⟨⟨"t1"⟩, "b", [⟨⟨"c2"⟩, "x", .text, true, false, false, false⟩,
      ⟨⟨"c1"⟩, "y", .text, false, false, false, false⟩]⟩], [], 0⟩

example : imitating.draw .column = some ⟨"c4", { imitating with counter := 4 }, 4⟩ := by
  decide +kernel

end Schema
end Schemata
