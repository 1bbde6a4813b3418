/-
Finding out the dialect of a script.  The cues are determined by the outlines of the lexemes, which
leave out what stands in quotation marks.  They are those of the statements one after the other, and
only their numbers count, so the order of the statements does not matter.
-/
import Schemata.Proofs.Sql.Joining
import Schemata.Proofs.Sql.Lexing
import Schemata.Sql.Dialect

namespace Schemata
namespace Sql

/-! ## Outlines -/

/-- The token without what stands in quotation marks. -/
def Token.hollow : Token → Token
  | quoted _ => quoted ""
  | str _ => str ""
  | t => t

/-- The kind of quotation that a name stands in. -/
def Lexeme.quotation? (l : Lexeme) : Option Quotation :=
  match l.token with
  | .quoted _ => Quotation.all.find? fun q => l.text.head? = some q.opener
  | _ => none

/-- What the lexeme is outside of quotation marks. -/
def Lexeme.outline (l : Lexeme) : Token × Option Quotation := (l.token.hollow, l.quotation?)

theorem Token.same_of_hollow {t u : Token} (h : t.hollow = u.hollow) :
    t = u ∨ (∃ m n, t = .quoted m ∧ u = .quoted n) ∨ ∃ m n, t = .str m ∧ u = .str n := by
  cases t <;> cases u <;> simp_all [hollow]

theorem Token.eq_symbol_of_hollow {t u : Token} (h : t.hollow = u.hollow) (c : Char) :
    t = .symbol c ↔ u = .symbol c := by
  rcases same_of_hollow h with rfl | ⟨m, n, rfl, rfl⟩ | ⟨m, n, rfl, rfl⟩
  · rfl
  · simp
  · simp

theorem Lexeme.quotation?_eq_backticks {l : Lexeme} {name : String} (h : l.token = .quoted name) :
    l.quotation? = some .backticks ↔ l.text.head? = some '\x60' := by
  rw [quotation?, h]
  constructor
  · intro hfind
    have hmark := List.find?_some (show List.find? _ Quotation.all = _ from hfind)
    exact of_decide_eq_true hmark
  · intro hhead
    simp [Quotation.all, hhead, Quotation.opener]

theorem Lexeme.outline_congr {k l : Lexeme} (htoken : k.token = l.token) (htext : k.text = l.text) :
    k.outline = l.outline := by
  rw [outline, outline, quotation?, quotation?, htoken, htext]

/-! ## Cues -/

namespace Dialect

/-- Only two marks after a word or a mark make a difference. -/
theorem cue?_congr_next (l : Lexeme) {next next' : Token}
    (h : ∀ c, next = .symbol c ↔ next' = .symbol c) : cue? l next = cue? l next' := by
  unfold cue?
  split
  · simp only [h]
  · simp only [h]
  · rfl
  · rfl

theorem cue?_eof (l : Lexeme) {next : Token} (hnext : ∀ c, next ≠ .symbol c) :
    cue? l next = cue? l .eof :=
  cue?_congr_next l fun c => iff_of_false (hnext c) (by simp)

theorem cue?_outline {k l : Lexeme} (h : k.outline = l.outline) (next : Token) :
    cue? k next = cue? l next := by
  obtain ⟨htoken, hquotation⟩ := Prod.mk.inj h
  have hquoted : ∀ m n, k.token = .quoted m → l.token = .quoted n →
      cue? k next = cue? l next := by
    intro m n hm hn
    have hhead : k.text.head? = some '\x60' ↔ l.text.head? = some '\x60' := by
      rw [← Lexeme.quotation?_eq_backticks hm, ← Lexeme.quotation?_eq_backticks hn, hquotation]
    simp only [cue?, hm, hn, hhead]
  rcases Token.same_of_hollow htoken with hsame | ⟨m, n, hm, hn⟩ | ⟨m, n, hm, hn⟩
  · by_cases hname : ∃ name, l.token = .quoted name
    · obtain ⟨name, hl⟩ := hname
      exact hquoted name name (hsame.trans hl) hl
    · unfold cue?
      rw [hsame]
      split
      · rfl
      · rfl
      · next name hl => exact absurd ⟨name, hl⟩ hname
      · rfl
  · exact hquoted m n hm hn
  · simp only [cue?, hm, hn]

theorem cues_outline {ks ls : List Lexeme}
    (h : ks.map Lexeme.outline = ls.map Lexeme.outline) : cues ks = cues ls := by
  induction ks generalizing ls with
  | nil =>
    obtain rfl : ls = [] := List.map_eq_nil_iff.mp h.symm
    rfl
  | cons k ks ih =>
    obtain ⟨l, ls, rfl, hl, hls⟩ := List.map_eq_cons_iff.mp h.symm
    have hnext : ∀ c, (ks.head?.map (·.token)).getD .eof = .symbol c ↔
        (ls.head?.map (·.token)).getD .eof = .symbol c := by
      cases ks with
      | nil =>
        obtain rfl : ls = [] := List.map_eq_nil_iff.mp hls
        exact fun _ => Iff.rfl
      | cons k' ks =>
        obtain ⟨l', ls, rfl, hl', -⟩ := List.map_eq_cons_iff.mp hls
        exact Token.eq_symbol_of_hollow (congrArg Prod.fst hl'.symm)
    rw [cues, cues, ih hls.symm, cue?_outline hl.symm, cue?_congr_next l hnext]

theorem cues_congr {ks ls : List Lexeme}
    (h : List.Forall₂ (fun k l => k.token = l.token ∧ k.text = l.text) ks ls) :
    cues ks = cues ls := by
  refine cues_outline ?_
  induction h with
  | nil => rfl
  | cons hkl _ ih => rw [List.map_cons, List.map_cons, ih, Lexeme.outline_congr hkl.1 hkl.2]

/-- In front of all but such a mark, lexemes give the cues that they give alone. -/
theorem cues_append (run : List Lexeme) {rest : List Lexeme}
    (hrest : ∀ c, nextToken rest ≠ .symbol c) : cues (run ++ rest) = cues run ++ cues rest := by
  induction run with
  | nil => rfl
  | cons l run ih =>
    rw [List.cons_append, cues, cues, ih, ← List.append_assoc]
    congr 2
    cases run with
    | cons k run => rfl
    | nil => exact congrArg Option.toList (cue?_eof l hrest)

/-- A lexeme that is neither a name nor a mark without a meaning gives no cue. -/
theorem cues_cons {l : Lexeme} (hl : l.token.content? = none) (rest : List Lexeme) :
    cues (l :: rest) = cues rest := by
  have hnone : ∀ next, cue? l next = none := by
    intro next
    unfold cue?
    split
    all_goals first | rfl | (next ht => rw [ht] at hl; cases hl)
  rw [cues, hnone]
  rfl

/-- Such a lexeme divides the cues before it from those after it. -/
theorem cues_append_cons (run : List Lexeme) {l : Lexeme} (hl : l.token.content? = none)
    (rest : List Lexeme) : cues (run ++ l :: rest) = cues run ++ cues rest := by
  rw [cues_append run, cues_cons hl]
  intro c hc
  rw [show l.token = .symbol c from hc] at hl
  cases hl

/-- The cues of lexemes are those of their runs, unless more comes after the mark of the end. -/
theorem cues_of_splits {ls : List Lexeme} {rs : List (List Lexeme)} (h : Splits ls rs)
    (hend : ∀ l ∈ ls.dropLast, l.token ≠ .eof) : cues ls = rs.flatMap cues := by
  induction h with
  | @last run rest _ hrest =>
    cases rest with
    | nil => rw [List.append_nil, List.flatMap_singleton]
    | cons l rest =>
      have hl : l.token = .eof := hrest l rfl
      rw [cues_append_cons run (by rw [hl]; rfl), List.flatMap_singleton]
      cases rest with
      | nil => exact List.append_nil _
      | cons k rest =>
        rw [List.dropLast_append_of_ne_nil (by simp)] at hend
        exact absurd hl (hend l (List.mem_append_right run List.mem_cons_self))
  | @cons run rest l rs hrun hl _ ih =>
    rw [cues_append_cons run (by rw [hl]; rfl), ih, List.flatMap_cons]
    intro k hk
    refine hend k ?_
    rw [List.dropLast_append_of_ne_nil (by simp)]
    cases rest with
    | nil => cases hk
    | cons k' rest => exact List.mem_append_right run (List.mem_cons_of_mem l hk)

theorem flatMap_cues_filterMap (rs : List (List Lexeme)) :
    rs.flatMap cues = (rs.filterMap Statement.ofLexemes?).flatMap (cues ·.lexemes) := by
  induction rs with
  | nil => rfl
  | cons run rs ih =>
    rw [List.flatMap_cons, ih]
    cases run with
    | nil => rfl
    | cons l run => rfl

/-- The cues of a script are those of its statements. -/
theorem cues_tokenize {script : String} {lexemes : List Lexeme} {ss : List Statement}
    (hlexemes : tokenize script = .ok lexemes) (hss : splitStatements lexemes = .ok ss) :
    cues lexemes = ss.flatMap (cues ·.lexemes) := by
  obtain ⟨rs, hrs, rfl⟩ := splitStatements_eq_ok.mp hss
  rw [← flatMap_cues_filterMap]
  exact cues_of_splits hrs (token_ne_eof_of_tokenize hlexemes)

theorem cues_alike {s t : Statement} (h : s.Alike t) : cues t.lexemes = cues s.lexemes := by
  refine cues_congr (.cons ⟨h.token, h.text⟩ ?_)
  refine (forall₂_of_map_eq h.others.symm).imp fun k l hkl => ?_
  have hpiece : k.toPiece = l.toPiece := hkl.2.2.symm
  exact ⟨congrArg Piece.token hpiece, congrArg Piece.text hpiece⟩

theorem flatMap_cues_alike {ss ts : List Statement} (h : List.Forall₂ Statement.Alike ss ts) :
    ts.flatMap (cues ·.lexemes) = ss.flatMap (cues ·.lexemes) := by
  induction h with
  | nil => rfl
  | cons hst _ ih => rw [List.flatMap_cons, List.flatMap_cons, cues_alike hst, ih]

theorem detect_congr {ks ls : List Lexeme} (h : (cues ks).Perm (cues ls)) :
    detect ks = detect ls := by
  unfold detect
  dsimp only
  rw [h.count_eq, h.count_eq]

end Dialect

theorem DialectChoice.resolve_of_cues (choice : DialectChoice) {ks ls : List Lexeme}
    (h : (Dialect.cues ks).Perm (Dialect.cues ls)) : choice.resolve ks = choice.resolve ls := by
  cases choice with
  | named dialect => rfl
  | auto => exact Dialect.detect_congr h

/-- The order of the statements does not matter for the dialect of a script. -/
theorem DialectChoice.resolve_of_perm (choice : DialectChoice) {script script' : String}
    {lexemes lexemes' : List Lexeme} {ss order ts : List Statement}
    (hlexemes : tokenize script = .ok lexemes) (hss : splitStatements lexemes = .ok ss)
    (hlexemes' : tokenize script' = .ok lexemes') (hts : splitStatements lexemes' = .ok ts)
    (horder : order.Perm ss) (halike : List.Forall₂ Statement.Alike order ts) :
    choice.resolve lexemes' = choice.resolve lexemes := by
  refine choice.resolve_of_cues ?_
  rw [Dialect.cues_tokenize hlexemes' hts, Dialect.cues_tokenize hlexemes hss,
    Dialect.flatMap_cues_alike halike]
  exact horder.flatMap_right _

end Sql
end Schemata
