/-
Where the statements of a script end.  Tokens whose parentheses balance and that hold no semicolon
stay together, so statements of such tokens are found again between their semicolons.
-/
import Schemata.Proofs.Sql.Splitting

namespace Schemata
namespace Sql

/-- How many parentheses are open after the tokens if `depth` were open before.  There is no
answer if one too many is closed or a statement ends. -/
def depthAfter (depth : Nat) : List Token → Option Nat
  | [] => some depth
  | t :: rest =>
    match t with
    | .leftParen => depthAfter (depth + 1) rest
    | .rightParen => if depth = 0 then none else depthAfter (depth - 1) rest
    | .semicolon => none
    | .eof => none
    | _ => depthAfter depth rest

def Balanced (ts : List Token) : Prop := ∀ depth, depthAfter depth ts = some depth

theorem depthAfter_append (depth : Nat) (ts us : List Token) :
    depthAfter depth (ts ++ us) = (depthAfter depth ts).bind (depthAfter · us) := by
  induction ts generalizing depth with
  | nil => rfl
  | cons t rest ih =>
    cases t with
    | leftParen => exact ih (depth + 1)
    | rightParen =>
      simp only [List.cons_append, depthAfter]
      split
      · rfl
      · exact ih (depth - 1)
    | semicolon => rfl
    | eof => rfl
    | _ => exact ih depth

theorem balanced_nil : Balanced [] := fun _ => rfl

theorem Balanced.append {ts us : List Token} (hts : Balanced ts) (hus : Balanced us) :
    Balanced (ts ++ us) := by
  intro depth
  rw [depthAfter_append, hts depth]
  exact hus depth

theorem Balanced.group {ts : List Token} (h : Balanced ts) :
    Balanced ([.leftParen] ++ ts ++ [.rightParen]) := by
  intro depth
  rw [depthAfter_append, depthAfter_append]
  show ((depthAfter (depth + 1) ts).bind (depthAfter · [.rightParen])) = some depth
  rw [h (depth + 1)]
  rfl

theorem balanced_intercalate {parts : List (List Token)} (h : ∀ part ∈ parts, Balanced part) :
    Balanced ([Token.comma].intercalate parts) := by
  induction parts with
  | nil => exact balanced_nil
  | cons part rest ih =>
    have hpart := h part List.mem_cons_self
    have hrest := ih fun p hp => h p (List.mem_cons_of_mem _ hp)
    cases rest with
    | nil => simpa using hpart
    | cons =>
      rw [List.intercalate_cons_cons]
      exact (hpart.append fun _ => rfl).append hrest

/-! ## Cutting at semicolons -/

/-- Tokens are counted like the lexemes that they are the tokens of. -/
theorem depthOver_of_depthAfter {ls : List Lexeme} {d e : Nat}
    (h : depthAfter d (ls.map (·.token)) = some e) :
    depthOver isSemicolon d ls = some e ∧ ∀ l ∈ ls, l.token ≠ .eof := by
  induction ls generalizing d with
  | nil => exact ⟨h, by simp⟩
  | cons l ls ih =>
    obtain ⟨c, hnest, heof, hrest⟩ : ∃ c, nest isSemicolon d l.token = some c ∧
        l.token ≠ .eof ∧ depthAfter c (ls.map (·.token)) = some e := by
      rw [List.map_cons] at h
      cases hl : l.token with
      | leftParen =>
        rw [hl] at h
        exact ⟨d + 1, rfl, by simp, h⟩
      | rightParen =>
        rw [hl] at h
        cases d with
        | zero => cases h
        | succ d => exact ⟨d, rfl, by simp, h⟩
      | semicolon =>
        rw [hl] at h
        cases h
      | eof =>
        rw [hl] at h
        cases h
      | _ =>
        rw [hl] at h
        exact ⟨d, nest_of_ne (by simp) (by simp) fun _ => rfl, by simp, h⟩
    obtain ⟨hdepth, hinside⟩ := ih hrest
    exact ⟨depthOver_cons_of_nest hnest hdepth, List.forall_mem_cons.mpr ⟨heof, hinside⟩⟩

theorem isRun_of_balanced {ls : List Lexeme} (h : Balanced (ls.map (·.token))) : IsRun ls :=
  ⟨(depthOver_of_depthAfter (h 0)).1, (depthOver_of_depthAfter (h 0)).2⟩

/-- The tokens of a statement. -/
def Statement.tokens (s : Statement) : List Token := s.lexemes.map (·.token)

/-- Every one of the parts has a semicolon after it, and what comes last may be empty. -/
theorem exists_splits_of_tokens {ls : List Lexeme} {parts : List (List Token)} {last : List Token}
    (hbalanced : ∀ part ∈ parts, Balanced part ∧ part ≠ []) (hlast : Balanced last)
    (h : ls.map (·.token) = parts.flatMap (· ++ [.semicolon]) ++ (last ++ [.eof])) :
    ∃ pieces, Splits ls pieces ∧
      (pieces.filterMap Statement.ofLexemes?).map Statement.tokens =
        parts ++ if last = [] then [] else [last] := by
  induction parts generalizing ls with
  | nil =>
    rw [List.flatMap_nil, List.nil_append] at h
    obtain ⟨final, rest, rfl, hfinal, hrest⟩ := List.map_eq_append_iff.mp h
    obtain ⟨l, rest, rfl, heof, -⟩ := List.map_eq_cons_iff.mp hrest
    refine ⟨[final], .last (isRun_of_balanced (hfinal ▸ hlast)) (by simpa using heof), ?_⟩
    rw [← hfinal]
    cases final <;> rfl
  | cons part parts ih =>
    obtain ⟨hpart, hne⟩ := hbalanced part List.mem_cons_self
    rw [List.flatMap_cons, List.append_assoc, List.append_assoc] at h
    obtain ⟨first, rest, rfl, hfirst, hrest⟩ := List.map_eq_append_iff.mp h
    obtain ⟨semicolon, rest, rfl, hsemicolon, hrest⟩ := List.map_eq_cons_iff.mp hrest
    obtain ⟨pieces, hpieces, htokens⟩ :=
      ih (fun p hp => hbalanced p (List.mem_cons_of_mem _ hp)) hrest
    refine ⟨first :: pieces, .cons (isRun_of_balanced (hfirst ▸ hpart)) hsemicolon hpieces, ?_⟩
    cases first with
    | nil => exact absurd hfirst.symm hne
    | cons l others =>
      rw [List.filterMap_cons]
      simp only [Statement.ofLexemes?, List.map_cons, htokens]
      rw [← hfirst]
      rfl

/-- The statements with semicolons between them, and perhaps another one at the end. -/
inductive Joined (statements : List (List Token)) : List Token → Prop
  | closed : Joined statements (statements.flatMap (· ++ [.semicolon]))
  | opened : Joined statements ([Token.semicolon].intercalate statements)

theorem intercalate_concat (separator last : List α) (parts : List (List α)) :
    separator.intercalate (parts ++ [last]) = parts.flatMap (· ++ separator) ++ last := by
  induction parts with
  | nil => simp
  | cons part parts ih =>
    rw [List.cons_append, List.intercalate_cons_of_ne_nil (by simp), ih, List.flatMap_cons,
      List.append_assoc, List.append_assoc, List.append_assoc]

/-- Statements are found again between their semicolons. -/
theorem splitStatements_of_joined {ls : List Lexeme} {statements : List (List Token)}
    {tokens : List Token} (hbalanced : ∀ part ∈ statements, Balanced part ∧ part ≠ [])
    (hjoined : Joined statements tokens) (h : ls.map (·.token) = tokens ++ [.eof]) :
    ∃ ss, splitStatements ls = .ok ss ∧ ss.map Statement.tokens = statements := by
  have hsplit : ∃ parts last, tokens = parts.flatMap (· ++ [.semicolon]) ++ last ∧
      (∀ part ∈ parts, Balanced part ∧ part ≠ []) ∧ Balanced last ∧
      statements = parts ++ if last = [] then [] else [last] := by
    cases hjoined with
    | closed => exact ⟨statements, [], by simp, hbalanced, balanced_nil, by simp⟩
    | opened =>
      rcases List.eq_nil_or_concat statements with rfl | ⟨parts, last, rfl⟩
      · exact ⟨[], [], rfl, by simp, balanced_nil, rfl⟩
      · rw [List.concat_eq_append] at hbalanced ⊢
        obtain ⟨hparts, hlast⟩ := List.forall_mem_append.mp hbalanced
        obtain ⟨hlast, hne⟩ := hlast last (List.mem_singleton.mpr rfl)
        exact ⟨parts, last, intercalate_concat _ _ _, hparts, hlast, by rw [if_neg hne]⟩
  obtain ⟨parts, last, rfl, hparts, hlast, rfl⟩ := hsplit
  rw [List.append_assoc] at h
  obtain ⟨pieces, hpieces, htokens⟩ := exists_splits_of_tokens hparts hlast h
  exact ⟨_, splitStatements_eq_ok.mpr ⟨pieces, hpieces, rfl⟩, htokens⟩

end Sql
end Schemata
