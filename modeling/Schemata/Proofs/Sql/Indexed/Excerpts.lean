/-
Parts of a script between two lexemes.  The lexemes of a script adjoin each other: each begins where
the one before it and its own gap end.  So the offsets of the first and the last of some
neighbouring lexemes cut out just what these spell, of the script or of any part of it that they lie
in.  No blanks stand around such a part.
-/
import Mathlib.Data.List.Chain
import Schemata.Proofs.Sql.Lexing
import Schemata.Proofs.Sql.Offsets
import Schemata.Proofs.Sql.Splitting

namespace Schemata
namespace Sql

open Text (byteCount byteCount_append isBlank slice? slice?_append)

/-! ## Neighbouring lexemes -/

/-- The lexeme `l` begins where `k` and the gap in front of `l` end. -/
def Lexeme.Adjoins (k l : Lexeme) : Prop := l.start = k.stop + byteCount l.gap

section

variable {k l : Lexeme} {ks ls front more after : List Lexeme}

theorem isChain_locate (position : Text.Position) (offset : Nat) (ps : List Piece) :
    (locate position offset ps).IsChain Lexeme.Adjoins := by
  induction ps generalizing position offset with
  | nil => exact .nil
  | cons p ps ih =>
    cases ps with
    | nil => exact .singleton _
    | cons q ps =>
      refine .cons_cons ?_ (ih _ _)
      simp only [Lexeme.Adjoins, Lexeme.stop, Piece.span, byteCount_append, Nat.add_assoc]

theorem spell_append (k : Lexeme) (ks : List Lexeme) (l : Lexeme) (ls : List Lexeme) :
    spell (k :: ks ++ l :: ls) = spell (k :: ks) ++ l.gap ++ spell (l :: ls) := by
  simp [spell, List.flatMap_append]

/-- What the lexemes spell reaches from the first one to the end of the last one. -/
theorem start_add_byteCount_spell (h : (k :: ks).IsChain Lexeme.Adjoins) :
    k.start + byteCount (spell (k :: ks)) = (ks.getLastD k).stop := by
  induction ks generalizing k with
  | nil => simp [spell, Lexeme.stop]
  | cons l ks ih =>
    obtain ⟨hadjoins, hchain⟩ := List.isChain_cons_cons.mp h
    have hspell : spell (k :: l :: ks) = k.text ++ l.gap ++ spell (l :: ks) := by
      simp [spell]
    rw [hspell, byteCount_append, byteCount_append, List.getLastD_cons, ← ih hchain, hadjoins,
      Lexeme.stop]
    omega

/-- The part of a text that some neighbouring lexemes spell lies between their offsets, which are
counted from `base`. -/
theorem slice?_of_isChain {source before : List Char} {base : Nat}
    (hchain : (front ++ l :: more ++ after).IsChain Lexeme.Adjoins)
    (hsource : source = before ++ spell (front ++ l :: more ++ after))
    (hbase : ∀ k ∈ (front ++ l :: more ++ after).head?, k.start = base + byteCount before) :
    ∃ start stop, l.start = base + start ∧ (more.getLastD l).stop = base + stop ∧
      slice? source start stop = some (spell (l :: more)) := by
  -- What stands in front of the neighbouring lexemes, and behind them.
  have hlead : ∃ lead, spell (front ++ l :: more ++ after) = lead ++ spell (l :: more ++ after) ∧
      l.start = base + byteCount (before ++ lead) := by
    cases front with
    | nil => exact ⟨[], rfl, by simpa using hbase l rfl⟩
    | cons k ks =>
      have hfront := hchain
      rw [List.append_assoc] at hfront
      have hjoint : l.start = (ks.getLastD k).stop + byteCount l.gap := by
        have := (List.isChain_append.mp hfront).2.2
        refine this (ks.getLastD k) ?_ l rfl
        rw [List.getLast?_cons]
        simp [List.getLastD_eq_getLast?]
      refine ⟨spell (k :: ks) ++ l.gap, ?_, ?_⟩
      · rw [List.append_assoc]
        exact spell_append k ks l (more ++ after)
      · rw [hjoint, ← start_add_byteCount_spell (List.isChain_append.mp hfront).1, hbase k rfl]
        simp only [byteCount_append]
        omega
  have htrail : ∃ trail, spell (l :: more ++ after) = spell (l :: more) ++ trail := by
    cases after with
    | nil => exact ⟨[], by simp⟩
    | cons m ms => exact ⟨m.gap ++ spell (m :: ms), by rw [spell_append, List.append_assoc]⟩
  obtain ⟨lead, hspell, hstart⟩ := hlead
  obtain ⟨trail, htrail⟩ := htrail
  have hgroup : (l :: more).IsChain Lexeme.Adjoins := by
    rw [List.append_assoc] at hchain
    exact (List.isChain_append.mp (List.isChain_append.mp hchain).2.1).1
  refine ⟨byteCount (before ++ lead), byteCount (before ++ lead ++ spell (l :: more)), hstart,
    ?_, ?_⟩
  · rw [← start_add_byteCount_spell hgroup, hstart, byteCount_append (before ++ lead),
      Nat.add_assoc]
  · rw [hsource, hspell, htrail, ← List.append_assoc, ← List.append_assoc]
    exact slice?_append _ _ _

end

/-! ## Blanks around a part -/

/-- A text that neither begins nor ends with a blank. -/
structure Tight (cs : List Char) : Prop where
  ne_nil : cs ≠ []
  head : ∀ c ∈ cs.head?, isBlank c = false
  last : ∀ c ∈ cs.getLast?, isBlank c = false

theorem dropWhile_eq_self {p : α → Bool} {xs : List α} (h : ∀ x ∈ xs.head?, p x = false) :
    xs.dropWhile p = xs := by
  cases xs with
  | nil => rfl
  | cons x xs => exact List.dropWhile_cons_of_neg (Bool.eq_false_iff.mp (h x rfl))

theorem Tight.trim {cs : List Char} (h : Tight cs) : Text.trim cs = cs := by
  have hlast : cs.reverse.dropWhile isBlank = cs.reverse :=
    dropWhile_eq_self (by rw [List.head?_reverse]; exact h.last)
  rw [Text.trim, dropWhile_eq_self h.head, hlast, List.reverse_reverse]

theorem tight_spell {l : Lexeme} {ls : List Lexeme} (h : ∀ k ∈ l :: ls, Tight k.text) :
    Tight (spell (l :: ls)) := by
  induction ls generalizing l with
  | nil => simpa [spell] using h
  | cons k ls ih =>
    obtain ⟨hl, hls⟩ := List.forall_mem_cons.mp h
    have hspell : spell (l :: k :: ls) = l.text ++ (k.gap ++ spell (k :: ls)) := by simp [spell]
    have hrest := ih hls
    rw [hspell]
    refine ⟨by simp [hl.ne_nil], fun c hc => hl.head c ?_, fun c hc => hrest.last c ?_⟩
    · rwa [List.head?_append_of_ne_nil _ hl.ne_nil] at hc
    · rwa [List.getLast?_append_of_ne_nil _ (by simp [hrest.ne_nil]),
        List.getLast?_append_of_ne_nil _ hrest.ne_nil] at hc

theorem isBlank_of_isDigit {c : Char} (h : isDigit c = true) : isBlank c = false := by
  rw [isDigit, Bool.and_eq_true, decide_eq_true_iff, decide_eq_true_iff] at h
  have hlo : 0x30 ≤ c.toNat := h.1
  have hhi : c.toNat ≤ 0x39 := h.2
  rw [isBlank, Bool.eq_false_iff]
  intro hblank
  have hmem := List.contains_iff_mem.mp hblank
  simp only [Text.blankCodes, List.mem_cons, List.not_mem_nil, or_false] at hmem
  omega

theorem not_isBlank_closeNumber (pointed : Bool) (cs : List Char) :
    ∀ c ∈ (closeNumber pointed cs).text, isBlank c = false := by
  fun_induction closeNumber pointed cs with
  | case1 => simp
  | case2 pointed c rest hc ih => exact List.forall_mem_cons.mpr ⟨isBlank_of_isDigit hc, ih⟩
  | case3 pointed c rest _ hc ih =>
    simp only [Bool.and_eq_true, decide_eq_true_eq] at hc
    exact List.forall_mem_cons.mpr ⟨by rw [hc.1]; rfl, ih⟩
  | case4 => simp

/-- The spelling of a token does not end with a blank. -/
theorem not_isBlank_getLast?_readToken {c : Char} {cs : List Char} {r : Read Token}
    (hc : isBlank c = false) (h : readToken c cs = .ok r) :
    ∀ d ∈ r.text.getLast?, isBlank d = false := by
  have hall : (∀ d ∈ r.text, isBlank d = false) → ∀ d ∈ r.text.getLast?, isBlank d = false :=
    fun hall d hd => hall d (List.mem_of_getLast? hd)
  have hreads := readsToken c cs
  rw [h] at hreads
  cases hreads with
  | mark => exact hall (by simpa [single] using hc)
  | @enclosed e s _ hclose =>
    obtain ⟨body, -, htext, -⟩ := Enclosure.standsFor_of_close hclose
    intro d hd
    rw [htext, ← List.cons_append, List.getLast?_concat] at hd
    cases hd
    cases e with
    | name q => cases q <;> decide
    | string => decide
  | digits => exact hall (not_isBlank_closeNumber false (c :: cs))
  | negative => exact hall (List.forall_mem_cons.mpr ⟨hc, not_isBlank_closeNumber false cs⟩)
  | word =>
    exact hall (List.forall_mem_cons.mpr ⟨hc, fun d hd =>
      isBlank_of_continuesWord (List.all_eq_true.mp List.all_takeWhile d hd)⟩)
  | symbol => exact hall (by simpa [single] using hc)

theorem Cuts.tight {p : Piece} {rest : List Char} (h : Cuts p rest) : Tight p.text := by
  obtain ⟨c, text, htext, hread⟩ := h.token
  have hc : isBlank c = false := by
    have hbegins := h.beginsToken.1
    rw [htext] at hbegins
    exact hbegins c rfl
  refine ⟨h.text_ne_nil, fun d hd => ?_, not_isBlank_getLast?_readToken hc hread⟩
  rw [htext] at hd
  cases hd
  exact hc

end Sql
end Schemata
