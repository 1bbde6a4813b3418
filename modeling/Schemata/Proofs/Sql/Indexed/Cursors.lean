/-
Cursors against lists of lexemes.  A cursor that stands in front of the last lexemes of a statement
is as good as the list of these lexemes: it sees the same tokens and positions, it cuts the same
names and parameters out of the text, and it finds the end of the same groups.  So a reader at a
cursor gives what the reader of the list gives, or rejects the statement for the same fault, and it
never runs into a breach.

What makes this so is that the lexemes of a statement adjoin each other and that the parentheses
among them are closed.
-/
import Schemata.Proofs.Sql.Indexed.Excerpts
import Schemata.Sql.Indexed.Cursor

namespace Schemata
namespace Sql

/-! ## Outcomes -/

/-- Both come to related results, or the one is rejected for what the other one fails with. -/
inductive Mirrors (reject : ε → ImportError) (R : α → β → Prop) :
    Except Halt α → Except ε β → Prop
  | ok {a : α} {b : β} (h : R a b) : Mirrors reject R (.ok a) (.ok b)
  | error (e : ε) : Mirrors reject R (.error (.rejected (reject e))) (.error e)

namespace Mirrors

variable {reject : ε → ImportError} {R : α → β → Prop} {x : Except Halt α} {y : Except ε β}

/-- What the second one has come to may be used, since a loop ends because of it. -/
theorem bind {S : α' → β' → Prop} {f : α → Except Halt α'} {g : β → Except ε β'}
    (h : Mirrors reject R x y) (h' : ∀ a b, y = .ok b → R a b → Mirrors reject S (f a) (g b)) :
    Mirrors reject S (x >>= f) (y >>= g) := by
  cases h with
  | ok h => exact h' _ _ rfl h
  | error e => exact .error e

theorem map {S : α → β' → Prop} {g : β → β'} (h : Mirrors reject R x y)
    (h' : ∀ a b, R a b → S a (g b)) : Mirrors reject S x (y.map g) := by
  cases h with
  | ok h => exact .ok (h' _ _ h)
  | error e => exact .error e

theorem mono {S : α → β → Prop} (h : Mirrors reject R x y) (h' : ∀ a b, R a b → S a b) :
    Mirrors reject S x y := by
  cases h with
  | ok h => exact .ok (h' _ _ h)
  | error e => exact .error e

theorem ite {p : Prop} [Decidable p] {x' : Except Halt α} {y' : Except ε β}
    (h : Mirrors reject R x y) (h' : Mirrors reject R x' y') :
    Mirrors reject R (if p then x else x') (if p then y else y') := by
  split
  · exact h
  · exact h'

theorem eq_mapError {y : Except ε α} (h : Mirrors reject Eq x y) :
    x = y.mapError fun e => .rejected (reject e) := by
  cases h with
  | ok h => exact congrArg Except.ok h
  | error e => rfl

end Mirrors

/-! ## Groups -/

/-- Lexemes that close more than the open parentheses of a group hold the end of the group. -/
theorem exists_closeGroup {breaks : Token → Bool} {d e : Nat} {ls : List Lexeme}
    (h : depthOver breaks (d + e + 1) ls = some 0) :
    ∃ group rest, closeGroup d ls = .ok (group, rest) := by
  induction ls generalizing d with
  | nil => cases h
  | cons l ls ih =>
    -- The lexeme leaves `d' + 1` of the parentheses open.
    have hcons : ∀ d', nest breaks (d + 1) l.token = some (d' + 1) →
        depthOver breaks (d' + e + 1) ls = some 0 →
        ∃ group rest, closeGroup d (l :: ls) = .ok (group, rest) := by
      intro d' hnest hrest
      obtain ⟨group, rest, hclose⟩ := ih hrest
      exact ⟨l :: group, rest, by rw [closeGroup_cons hnest, hclose]; rfl⟩
    rw [depthOver_cons] at h
    obtain ⟨m, hm, h⟩ := Option.bind_eq_some_iff.mp h
    by_cases hright : l.token = .rightParen
    · rw [hright, nest_rightParen] at hm
      cases hm
      cases d with
      | zero => exact ⟨[l], ls, closeGroup_rightParen hright ls⟩
      | succ d => exact hcons d (by rw [hright, nest_rightParen]) (by rwa [Nat.add_right_comm] at h)
    by_cases hleft : l.token = .leftParen
    · rw [hleft, nest_leftParen] at hm
      cases hm
      exact hcons (d + 1) (by rw [hleft, nest_leftParen]) (by rwa [Nat.add_right_comm d 1 e])
    · cases nest_eq_some_of_ne hleft hright hm
      exact hcons d (nest_of_ne hleft hright (by simp)) h

/-! ## Statements -/

/-- What makes it safe to read a statement by indices and offsets. -/
structure Statement.Grounded (s : Statement) : Prop where
  run : IsRun s.lexemes
  adjoining : s.lexemes.IsChain Lexeme.Adjoins

/-- The cursor stands in front of the last lexemes `ts` of the statement. -/
structure Cursor.Faces (c : Cursor) (s : Statement) (ts : List Lexeme) : Prop where
  grounded : s.Grounded
  before : ∃ before, before ++ ts = s.lexemes ∧ c = ⟨s.lexemes, spell s.lexemes, before.length⟩

/-- The same value was read, and the cursor stands in front of the lexemes that are left. -/
inductive Cursor.Beside (s : Statement) : α × Cursor → α × List Lexeme → Prop
  | mk {c : Cursor} {ts : List Lexeme} (value : α) (h : c.Faces s ts) :
      Beside s (value, c) (value, ts)

namespace Cursor

theorem token_endMark (c : Cursor) : c.endMark.token = .eof := by
  unfold endMark
  split <;> rfl

namespace Faces

variable {s : Statement} {c : Cursor} {ts rest : List Lexeme} {R : α → β → Prop}

/-! ## Lexemes -/

theorem getElem? (h : c.Faces s ts) (n : Nat) : c.lexemes[c.index + n]? = ts[n]? := by
  obtain ⟨-, before, hls, rfl⟩ := h
  show s.lexemes[before.length + n]? = ts[n]?
  rw [← hls, List.getElem?_append_right (Nat.le_add_right _ _), Nat.add_sub_cancel_left]

theorem token_ahead (h : c.Faces s ts) (n : Nat) :
    (c.ahead n).token = nextToken (ts.drop n) := by
  rw [ahead, h.getElem?, nextToken, List.head?_drop]
  cases ts[n]? with
  | none => exact c.token_endMark
  | some l => rfl

theorem token (h : c.Faces s ts) : c.token = nextToken ts := h.token_ahead 0

theorem token_cons {l : Lexeme} (h : c.Faces s (l :: ts)) : c.token = l.token := h.token

theorem token_ne_eof {l : Lexeme} (h : c.Faces s (l :: ts)) : l.token ≠ .eof := by
  obtain ⟨before, hls, -⟩ := h.before
  exact h.grounded.run.inside l (hls ▸ List.mem_append_right before (List.mem_cons_self ..))

theorem lexeme {l : Lexeme} (h : c.Faces s (l :: ts)) : c.lexeme = l := by
  rw [Cursor.lexeme, ahead, h.getElem?]
  rfl

theorem position (h : c.Faces s ts) :
    c.position = (nextPosition ts).getD s.last.position := by
  cases ts with
  | cons l ts => exact congrArg _ h.lexeme
  | nil =>
    obtain ⟨-, before, hls, rfl⟩ := h
    have hnone : s.lexemes[before.length + 0]? = none :=
      List.getElem?_eq_none (by rw [← hls, List.append_nil]; exact Nat.le_refl _)
    have hlast : s.lexemes.getLast? = some s.last := by
      rw [Statement.lexemes, List.getLast?_cons]
      exact congrArg some List.getLastD_eq_getLast?.symm
    rw [Cursor.position, Cursor.lexeme, ahead, hnone, Option.getD_none, endMark, hlast]
    rfl

theorem advance (h : c.Faces s ts) : c.advance.Faces s ts.tail := by
  obtain ⟨hs, before, hls, rfl⟩ := h
  rw [Cursor.advance]
  have hlength := congrArg List.length hls
  rw [List.length_append] at hlength
  cases ts with
  | nil =>
    rw [if_neg (by dsimp only; rw [← hlength]; simp)]
    exact ⟨hs, before, hls, rfl⟩
  | cons l ts =>
    rw [if_pos (by dsimp only; rw [← hlength]; simp)]
    exact ⟨hs, before ++ [l], by rw [List.append_assoc]; exact hls, by rw [List.length_append]; rfl⟩

theorem advance_advance (h : c.Faces s ts) : c.advance.advance.Faces s (ts.drop 2) := by
  have hdrop : ts.tail.tail = ts.drop 2 := by rw [← List.drop_one, ← List.drop_one, List.drop_drop]
  exact hdrop ▸ h.advance.advance

theorem length_lt (h : c.Faces s ts) : ts.length < c.rounds := by
  obtain ⟨-, before, hls, rfl⟩ := h
  have hlength := congrArg List.length hls
  rw [List.length_append] at hlength
  show ts.length < s.lexemes.length + 1
  omega

theorem reject (h : c.Faces s ts) (cause : Cause) (position : Text.Position) :
    Mirrors s.reject R (c.reject cause position) (.error ⟨cause, some position⟩) := by
  obtain ⟨-, before, -, rfl⟩ := h
  exact Mirrors.error (Fault.mk cause (some position))

theorem fail (h : c.Faces s ts) (fault : SyntaxFault) :
    Mirrors s.reject R (c.fail fault) (Sql.fail fault ts) := by
  rw [Cursor.fail, h.position]
  obtain ⟨-, before, -, rfl⟩ := h
  exact Mirrors.error (Fault.mk (.malformed fault) (nextPosition ts))

/-! ## The text -/

theorem previous {before more : List Lexeme} {l : Lexeme} (h : c.Faces s ts)
    (hls : before ++ l :: more ++ ts = s.lexemes) : c.previous = .ok (more.getLastD l) := by
  obtain ⟨-, front, hfront, rfl⟩ := h
  cases List.append_cancel_right (hfront.trans hls.symm)
  have hpos : 0 < (before ++ l :: more).length := List.length_pos_iff.mpr (by simp)
  have hget : s.lexemes[(before ++ l :: more).length - 1]? = some (more.getLastD l) := by
    rw [← hls, List.getElem?_append_left (Nat.sub_one_lt_of_lt hpos), ← List.getLast?_eq_getElem?,
      List.getLast?_append_cons, List.getLast?_cons, List.getLastD_eq_getLast?]
  rw [Cursor.previous, if_neg (Nat.ne_of_gt hpos)]
  dsimp only
  rw [hget]

theorem slice {front more after : List Lexeme} {l : Lexeme} (h : c.Faces s ts)
    (hls : front ++ l :: more ++ after = s.lexemes) :
    c.slice l.start (more.getLastD l).stop = .ok (Text.squeeze (spell (l :: more))) := by
  obtain ⟨hs, before, -, rfl⟩ := h
  have hchain : (front ++ l :: more ++ after).IsChain Lexeme.Adjoins := hls ▸ hs.adjoining
  have hsource : spell s.lexemes = [] ++ spell (front ++ l :: more ++ after) := by
    rw [hls, List.nil_append]
  have hbase : ∀ k ∈ (front ++ l :: more ++ after).head?,
      k.start = s.first.start + Text.byteCount [] := by
    rw [hls]
    rintro k ⟨⟩
    rfl
  obtain ⟨start, stop, hstart, hstop, hslice⟩ := slice?_of_isChain hchain hsource hbase
  have hrebase : ∀ offset, (Cursor.mk s.lexemes (spell s.lexemes) before.length).rebase
      (s.first.start + offset) = .ok offset := by
    intro offset
    refine (if_pos (Nat.le_add_right _ _)).trans ?_
    exact congrArg Except.ok (Nat.add_sub_cancel_left _ _)
  rw [Cursor.slice, hstart, hstop, hrebase, hrebase]
  dsimp only [bind, Except.bind]
  rw [hslice]
  rfl

/-- No character ends between the two bytes of the letter. -/
example : (Cursor.mk [⟨⟨[], ['é'], .ident "é"⟩, .start, 4⟩] ['é'] 0).slice 4 5 =
    .error (.breach .slice) := rfl

theorem name? (h : c.Faces s ts) (n : Nat) : c.name? n = .ok (ts[n]?.bind Lexeme.name?) := by
  rw [Cursor.name?, h.getElem?]
  cases hl : ts[n]? with
  | none => rfl
  | some l =>
    show _ = Except.ok l.name?
    dsimp only
    rw [Lexeme.name?]
    cases l.token with
    | keyword k =>
      obtain ⟨before, hls, -⟩ := h.before
      obtain ⟨hn, rfl⟩ := List.getElem?_eq_some_iff.mp hl
      have hsplit : before ++ ts.take n ++ ts[n] :: [] ++ ts.drop (n + 1) = s.lexemes := by
        rw [← hls]
        simp
      have hslice := h.slice hsplit
      rw [List.getLastD_nil] at hslice
      dsimp only
      rw [hslice]
      simp [spell]
    | _ => rfl

end Faces

end Cursor

end Sql
end Schemata
