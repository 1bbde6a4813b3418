/-
How deep lexemes are nested in parentheses.  A group through its closing parenthesis is what a
count of the open parentheses says it is.
-/
import Mathlib.Tactic.ByContra
import Schemata.Sql.Clause

namespace Schemata
namespace Sql

/-- The number of open parentheses after a token if `depth` are open before it.  There is none if
one too many is closed, or if a token that breaks stands outside of all parentheses. -/
def nest (breaks : Token → Bool) (depth : Nat) (t : Token) : Option Nat :=
  if t = .leftParen then some (depth + 1)
  else if t = .rightParen then
    if depth = 0 then none else some (depth - 1)
  else if depth = 0 ∧ breaks t then none
  else some depth

/-- The number of open parentheses after some lexemes. -/
def depthOver (breaks : Token → Bool) (depth : Nat) (ls : List Lexeme) : Option Nat :=
  ls.foldlM (fun depth l => nest breaks depth l.token) depth

/-- All parentheses among the lexemes are closed there, and nothing outside of them breaks. -/
def Closed (breaks : Token → Bool) (ls : List Lexeme) : Prop := depthOver breaks 0 ls = some 0

instance (breaks : Token → Bool) (ls : List Lexeme) : Decidable (Closed breaks ls) :=
  inferInstanceAs (Decidable (_ = _))

section

variable {breaks : Token → Bool} {c d e : Nat}

theorem depthOver_nil (d : Nat) : depthOver breaks d [] = some d := rfl

theorem depthOver_cons (d : Nat) (l : Lexeme) (ls : List Lexeme) :
    depthOver breaks d (l :: ls) = (nest breaks d l.token).bind (depthOver breaks · ls) := by
  rw [depthOver, List.foldlM_cons]
  rfl

theorem depthOver_append {ks ls : List Lexeme} (hks : depthOver breaks c ks = some d)
    (hls : depthOver breaks d ls = some e) : depthOver breaks c (ks ++ ls) = some e := by
  unfold depthOver at hks ⊢
  rw [List.foldlM_append, hks]
  exact hls

theorem exists_depthOver_of_append {ks ls : List Lexeme}
    (h : depthOver breaks c (ks ++ ls) = some e) :
    ∃ d, depthOver breaks c ks = some d ∧ depthOver breaks d ls = some e := by
  unfold depthOver at h
  rw [List.foldlM_append] at h
  exact Option.bind_eq_some_iff.mp h

theorem nest_leftParen (d : Nat) : nest breaks d .leftParen = some (d + 1) := rfl

theorem nest_rightParen (d : Nat) : nest breaks (d + 1) .rightParen = some d := rfl

/-- A token that is no parenthesis may break inside of parentheses only. -/
theorem nest_of_ne {t : Token} (hleft : t ≠ .leftParen) (hright : t ≠ .rightParen)
    (hbreaks : d = 0 → breaks t = false) : nest breaks d t = some d := by
  rw [nest, if_neg hleft, if_neg hright, if_neg]
  intro h
  rw [hbreaks h.1] at h
  exact Bool.false_ne_true h.2

theorem nest_eq_some_of_ne {t : Token} (hleft : t ≠ .leftParen) (hright : t ≠ .rightParen)
    (h : nest breaks d t = some e) : e = d := by
  rw [nest, if_neg hleft, if_neg hright] at h
  split at h
  · cases h
  · exact (Option.some.inj h).symm

/-- Only a closing parenthesis leads out of the last one that is open. -/
theorem nest_eq_some_zero {t : Token} (h : nest breaks (d + 1) t = some 0) :
    t = .rightParen ∧ d = 0 := by
  by_cases hleft : t = .leftParen
  · rw [hleft] at h
    cases h
  by_cases hright : t = .rightParen
  · rw [hright, nest_rightParen] at h
    cases h
    exact ⟨hright, rfl⟩
  cases nest_eq_some_of_ne hleft hright h

theorem nest_add {t : Token} (h : nest breaks d t = some e) (k : Nat) :
    nest breaks (d + k) t = some (e + k) := by
  by_cases hleft : t = .leftParen
  · subst hleft
    cases h
    show some (d + k + 1) = some (d + 1 + k)
    rw [Nat.add_right_comm]
  by_cases hright : t = .rightParen
  · subst hright
    cases d with
    | zero => cases h
    | succ d =>
      cases h
      rw [Nat.succ_add]
      exact nest_rightParen (d + k)
  have he := nest_eq_some_of_ne hleft hright h
  subst he
  refine nest_of_ne hleft hright fun hd => ?_
  have he : e = 0 := by omega
  subst he
  by_contra hbreaks
  rw [nest, if_neg hleft, if_neg hright, if_pos ⟨rfl, Bool.of_not_eq_false hbreaks⟩] at h
  cases h

/-- What holds of lexemes on their own holds of them inside of further parentheses. -/
theorem depthOver_add {ls : List Lexeme} (h : depthOver breaks d ls = some e) (k : Nat) :
    depthOver breaks (d + k) ls = some (e + k) := by
  induction ls generalizing d with
  | nil =>
    cases h
    rfl
  | cons l ls ih =>
    rw [depthOver_cons] at h
    obtain ⟨m, hm, h⟩ := Option.bind_eq_some_iff.mp h
    rw [depthOver_cons, nest_add hm k]
    exact ih h

theorem Closed.append {ks ls : List Lexeme} (hks : Closed breaks ks) (hls : Closed breaks ls) :
    Closed breaks (ks ++ ls) := depthOver_append hks hls

theorem Closed.within {ls : List Lexeme} (h : Closed breaks ls) (d : Nat) :
    depthOver breaks d ls = some d := by
  have h' := depthOver_add h d
  rwa [Nat.zero_add] at h'

theorem closed_singleton {l : Lexeme} (hleft : l.token ≠ .leftParen)
    (hright : l.token ≠ .rightParen) (hbreaks : breaks l.token = false) : Closed breaks [l] := by
  rw [Closed, depthOver_cons, nest_of_ne hleft hright fun _ => hbreaks]
  rfl

/-- Inside of parentheses nothing breaks. -/
theorem depthOver_succ {ls : List Lexeme} (h : depthOver (fun _ => false) d ls = some e) :
    depthOver breaks (d + 1) ls = some (e + 1) := by
  have hnest : ∀ (d : Nat) (t : Token),
      nest breaks (d + 1) t = nest (fun _ => false) (d + 1) t := by
    intro d t
    simp [nest]
  induction ls generalizing d with
  | nil =>
    cases h
    rfl
  | cons l ls ih =>
    rw [depthOver_cons] at h
    obtain ⟨m, hm, h⟩ := Option.bind_eq_some_iff.mp h
    rw [depthOver_cons, hnest, nest_add hm 1]
    exact ih h

theorem depthOver_inside {ls : List Lexeme} (h : Closed (fun _ => false) ls) (d : Nat) :
    depthOver breaks (d + 1) ls = some (d + 1) := depthOver_succ (h.within d)

theorem depthOver_cons_of_nest {l : Lexeme} {ls : List Lexeme}
    (hl : nest breaks c l.token = some d) (hls : depthOver breaks d ls = some e) :
    depthOver breaks c (l :: ls) = some e := by
  rw [depthOver_cons, hl]
  exact hls

/-- What breaks counts like other tokens. -/
theorem depthOver_unbroken {ls : List Lexeme} (h : depthOver breaks d ls = some e) :
    depthOver (fun _ => false) d ls = some e := by
  induction ls generalizing d with
  | nil => exact h
  | cons l ls ih =>
    rw [depthOver_cons] at h
    obtain ⟨m, hm, h⟩ := Option.bind_eq_some_iff.mp h
    refine depthOver_cons_of_nest ?_ (ih h)
    by_cases hleft : l.token = .leftParen
    · rw [hleft] at hm ⊢
      exact hm
    by_cases hright : l.token = .rightParen
    · rw [hright] at hm ⊢
      exact hm
    rw [nest_eq_some_of_ne hleft hright hm]
    exact nest_of_ne hleft hright fun _ => rfl

/-! ## Groups -/

/-- A group ends in a parenthesis in front of which all others are closed that were open. -/
theorem exists_concat_of_closeGroup {ts group rest : List Lexeme}
    (h : closeGroup d ts = .ok (group, rest)) :
    ∃ inner close, group = inner ++ [close] ∧ close.token = .rightParen ∧
      depthOver (fun _ => false) d inner = some 0 := by
  fun_induction closeGroup d ts generalizing group rest with
  | case1 => exact absurd h fail_ne_ok
  | case2 l tail ht =>
    cases h
    exact ⟨[], l, rfl, ht, rfl⟩
  | case3 l tail depth ht ih =>
    obtain ⟨⟨g, r⟩, h₁, h₂⟩ := ok_of_bind h
    cases h₂
    obtain ⟨inner, close, rfl, hclose, hinner⟩ := ih h₁
    exact ⟨l :: inner, close, rfl, hclose, depthOver_cons_of_nest (by rw [ht]; rfl) hinner⟩
  | case4 l tail depth ht ih =>
    obtain ⟨⟨g, r⟩, h₁, h₂⟩ := ok_of_bind h
    cases h₂
    obtain ⟨inner, close, rfl, hclose, hinner⟩ := ih h₁
    exact ⟨l :: inner, close, rfl, hclose, depthOver_cons_of_nest (by rw [ht]; rfl) hinner⟩
  | case5 l tail depth hclosing hright hleft ih =>
    obtain ⟨⟨g, r⟩, h₁, h₂⟩ := ok_of_bind h
    cases h₂
    obtain ⟨inner, close, rfl, hclose, hinner⟩ := ih h₁
    have hne : l.token ≠ .rightParen := by
      intro ht
      cases depth with
      | zero => exact hclosing ht rfl
      | succ depth => exact hright depth ht rfl
    exact ⟨l :: inner, close, rfl, hclose,
      depthOver_cons_of_nest (nest_of_ne hleft hne fun _ => rfl) hinner⟩

/-- A lexeme after which parentheses are still open belongs to the group. -/
theorem closeGroup_cons {l : Lexeme} (h : nest breaks (d + 1) l.token = some (e + 1))
    (rest : List Lexeme) : closeGroup d (l :: rest) = do
      let (group, ts) ← closeGroup e rest
      return (l :: group, ts) := by
  rw [closeGroup.eq_def]
  by_cases hleft : l.token = .leftParen
  · rw [hleft] at h
    cases h
    simp only [hleft]
  by_cases hright : l.token = .rightParen
  · rw [hright, nest_rightParen] at h
    cases h
    simp only [hright]
  cases Nat.succ.inj (nest_eq_some_of_ne hleft hright h)
  split
  · next hnil => cases hnil
  · next hl =>
    cases hl
    split
    · exact absurd ‹_› hright
    · exact absurd ‹_› hright
    · exact absurd ‹_› hleft
    · rfl

theorem closeGroup_rightParen {l : Lexeme} (h : l.token = .rightParen) (rest : List Lexeme) :
    closeGroup 0 (l :: rest) = .ok ([l], rest) := by
  rw [closeGroup.eq_def]
  simp only [h]

/-- A group ends where a count says that no parenthesis is open any more. -/
theorem closeGroup_of_depthOver {ls rest : List Lexeme} {close : Lexeme}
    (h : depthOver breaks d ls = some 0) (hclose : close.token = .rightParen) :
    closeGroup d (ls ++ close :: rest) = .ok (ls ++ [close], rest) := by
  induction ls generalizing d with
  | nil =>
    cases h
    exact closeGroup_rightParen hclose rest
  | cons l ls ih =>
    rw [depthOver_cons] at h
    obtain ⟨m, hm, h⟩ := Option.bind_eq_some_iff.mp h
    rw [List.cons_append, closeGroup_cons (nest_add hm 1), ih h]
    rfl

/-- Lexemes that close the parentheses which were open hold the end of the group. -/
theorem exists_closeGroup_of_depthOver {ls : List Lexeme}
    (h : depthOver breaks (d + 1) ls = some 0) :
    ∃ group rest, ∀ more, closeGroup d (ls ++ more) = .ok (group, rest ++ more) := by
  induction ls generalizing d with
  | nil => cases h
  | cons l ls ih =>
    rw [depthOver_cons] at h
    obtain ⟨m, hm, h⟩ := Option.bind_eq_some_iff.mp h
    cases m with
    | zero =>
      obtain ⟨hl, rfl⟩ := nest_eq_some_zero hm
      exact ⟨[l], ls, fun more => closeGroup_rightParen hl (ls ++ more)⟩
    | succ m =>
      obtain ⟨group, rest, hmore⟩ := ih h
      refine ⟨l :: group, rest, fun more => ?_⟩
      rw [List.cons_append, closeGroup_cons hm, hmore]
      rfl

end

/-- A group in parentheses, which may hold anything. -/
inductive IsGroup : List Lexeme → Prop
  | intro {opening close : Lexeme} {inner : List Lexeme} (hopening : opening.token = .leftParen)
      (hinner : Closed (fun _ => false) inner) (hclose : close.token = .rightParen) :
      IsGroup (opening :: (inner ++ [close]))

theorem isGroup_of_readGroup {ts group rest : List Lexeme}
    (h : readGroup ts = .ok (group, rest)) : IsGroup group := by
  unfold readGroup at h
  split at h
  · exact absurd h fail_ne_ok
  · next l tail =>
    split at h
    · next hl =>
      obtain ⟨⟨g, r⟩, h₁, h₂⟩ := ok_of_bind h
      cases h₂
      obtain ⟨inner, close, rfl, hclose, hinner⟩ := exists_concat_of_closeGroup h₁
      exact .intro hl hinner hclose
    · exact absurd h fail_ne_ok

namespace IsGroup

variable {group : List Lexeme}

theorem nextToken_append (h : IsGroup group) (rest : List Lexeme) :
    nextToken (group ++ rest) = .leftParen := by
  obtain ⟨hopening, -, -⟩ := h
  exact hopening

theorem readGroup_append (h : IsGroup group) (rest : List Lexeme) :
    readGroup (group ++ rest) = .ok (group, rest) := by
  obtain ⟨hopening, hinner, hclose⟩ := h
  rw [List.cons_append, readGroup, if_pos hopening, List.append_assoc, List.singleton_append,
    closeGroup_of_depthOver hinner hclose]
  rfl

theorem closed {breaks : Token → Bool} (h : IsGroup group) : Closed breaks group := by
  obtain ⟨hopening, hinner, hclose⟩ := h
  refine depthOver_cons_of_nest (by rw [hopening]; rfl) ?_
  exact depthOver_append (depthOver_inside hinner 0)
    (depthOver_cons_of_nest (by rw [hclose]; rfl) rfl)

theorem skipGroup?_append (h : IsGroup group) (rest : List Lexeme) :
    skipGroup? (group ++ rest) = .ok rest := by
  rw [skipGroup?, if_pos (h.nextToken_append rest), h.readGroup_append]
  rfl

end IsGroup

end Sql
end Schemata
