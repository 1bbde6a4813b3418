/-
Where a script cannot be cut into lexemes.  A scan takes blanks, comments and tokens off the script
until it comes to the end or to an opening that nothing closes.  None of these steps changes where
it ends, so a script that is rejected is rejected at such an opening, and any that is come to is the
one it is rejected at.
-/
import Mathlib.Logic.Relation
import Schemata.Proofs.Sql.Enclosures
import Schemata.Proofs.Sql.Offsets

namespace Schemata
namespace Sql

open Text (isBlank)

/-! ## Delimiters -/

/-- What has to be closed. -/
inductive Delimiter
  | enclosure (e : Enclosure)
  | comment
  deriving DecidableEq, Repr

namespace Delimiter

def opening : Delimiter → List Char
  | enclosure e => [e.opener]
  | comment => ['/', '*']

def sort : Delimiter → Opener
  | enclosure e => e.sort
  | comment => .comment

/-- In what comes after the opening there is something that closes it.  The mark that closes a name
or a literal is not doubled, and it is neither part of a doubled mark nor escaped. -/
def Closes : Delimiter → List Char → Prop
  | enclosure e, rest => ∃ body content after,
      rest = body ++ e.closer :: after ∧ e.StandsFor body content ∧ e.closer ∉ after.head?
  | comment, rest => ∃ body after, rest = body ++ '*' :: '/' :: after

variable {rest : List Char}

theorem closes_enclosure_iff {e : Enclosure} :
    (enclosure e).Closes rest ↔ ∃ r, e.close rest = some r := by
  constructor
  · rintro ⟨body, content, after, rfl, hbody, hafter⟩
    exact ⟨_, hbody.close hafter⟩
  · rintro ⟨r, hr⟩
    obtain ⟨body, hrest, -, hbody, hafter⟩ := Enclosure.standsFor_of_close hr
    exact ⟨body, r.value, r.rest, hrest, hbody, hafter⟩

theorem closes_comment_iff : comment.Closes rest ↔ ∃ r, closeBlock rest = some r := by
  constructor
  · rintro ⟨body, after, rfl⟩
    induction body with
    | nil => exact ⟨⟨(), ['*', '/'], after⟩, rfl⟩
    | cons c body ih =>
      obtain ⟨r, hr⟩ := ih
      cases hnext : body ++ '*' :: '/' :: after with
      | nil =>
        rw [hnext] at hr
        cases hr
      | cons d rest =>
        rw [hnext] at hr
        rw [List.cons_append, hnext, closeBlock, hr]
        split
        · exact ⟨_, rfl⟩
        · exact ⟨_, rfl⟩
  · rintro ⟨r, hr⟩
    fun_induction closeBlock rest generalizing r with
    | case1 => cases hr
    | case2 => cases hr
    | case3 c d rest hclose =>
      rw [Bool.and_eq_true, decide_eq_true_iff, decide_eq_true_iff] at hclose
      obtain ⟨rfl, rfl⟩ := hclose
      exact ⟨[], rest, rfl⟩
    | case4 c d rest _ ih =>
      obtain ⟨s, hs, -⟩ := Option.map_eq_some_iff.mp hr
      obtain ⟨body, after, hbody⟩ := ih s hs
      exact ⟨c :: body, after, by rw [hbody]; rfl⟩

end Delimiter

/-! ## Rejected tokens -/

/-- A token that cannot be read is the opening of something that is not closed. -/
theorem delimiter_of_readToken {c : Char} {rest : List Char} {opener : Opener}
    (hcomment : comment? (c :: rest) = none) (h : readToken c rest = .error opener) :
    ∃ d inner, c :: rest = Delimiter.opening d ++ inner ∧ opener = d.sort ∧ ¬d.Closes inner := by
  have hreads := readsToken c rest
  rw [h] at hreads
  cases hreads with
  | @unclosed e hc hclose =>
    refine ⟨.enclosure e, rest, by rw [hc]; rfl, rfl, ?_⟩
    rw [Delimiter.closes_enclosure_iff, hclose]
    rintro ⟨r, hr⟩
    cases hr
  | comment hc hstar =>
    obtain rfl := hc
    obtain ⟨inner, rfl⟩ := List.head?_eq_some_iff.mp hstar
    refine ⟨.comment, inner, rfl, rfl, ?_⟩
    rw [Delimiter.closes_comment_iff]
    rintro ⟨r, hr⟩
    have hsome : comment? ('/' :: '*' :: inner) = some (r.push ['/', '*']) :=
      congrArg (Option.map (Read.push ['/', '*'])) hr
    cases hcomment.symm.trans hsome

/-! ## Steps of a scan -/

/-- One step of a scan takes a blank, a comment or a token off the text. -/
inductive TakesOff : List Char → List Char → Prop
  | blank {c : Char} {rest : List Char} (h : isBlank c = true) : TakesOff (c :: rest) rest
  | comment {cs : List Char} {r : Read Unit} (h : comment? cs = some r) : TakesOff cs r.rest
  | token {c : Char} {rest : List Char} {r : Read Token} (hbegins : BeginsToken (c :: rest))
      (h : readToken c rest = .ok r) : TakesOff (c :: rest) r.rest

/-- The scan comes to what is left of the text. -/
def Reaches : List Char → List Char → Prop := Relation.ReflTransGen TakesOff

/-- What is left where the scan ends early, and what is not closed there. -/
def unclosed? (cs : List Char) : Option (Opener × List Char) :=
  match (scan cs).ending with
  | .complete _ => none
  | .unterminated _ opener rest => some (opener, rest)

section

variable {cs ds : List Char}

/-- It depends only on what comes after the first gap. -/
theorem unclosed?_of_splitGap (h : (splitGap cs).2 = (splitGap ds).2) :
    unclosed? cs = unclosed? ds := by
  cases hds : (splitGap ds).2 with
  | nil => rw [unclosed?, unclosed?, scan_of_splitGap hds, scan_of_splitGap (h.trans hds)]
  | cons c rest =>
    cases hread : readToken c rest with
    | error opener =>
      rw [unclosed?, unclosed?, scan_of_error hds hread, scan_of_error (h.trans hds) hread]
    | ok r =>
      rw [unclosed?, unclosed?, scan_of_readToken hds hread, scan_of_readToken (h.trans hds) hread]

theorem TakesOff.unclosed?_eq (h : TakesOff cs ds) : unclosed? cs = unclosed? ds := by
  cases h with
  | blank hblank => exact unclosed?_of_splitGap (by rw [splitGap_blank hblank])
  | comment hcomment => exact unclosed?_of_splitGap (by rw [splitGap_comment hcomment])
  | token hbegins hread =>
    have hgap := congrArg Prod.snd (splitGap_of_beginsToken hbegins)
    rw [unclosed?, scan_of_readToken hgap hread]
    rfl

theorem Reaches.unclosed?_eq (h : Reaches cs ds) : unclosed? cs = unclosed? ds := by
  induction h with
  | refl => rfl
  | tail _ hstep ih => exact ih.trans hstep.unclosed?_eq

theorem reaches_splitGap (cs : List Char) : Reaches cs (splitGap cs).2 := by
  fun_induction splitGap cs with
  | case1 => exact .refl
  | case2 c rest hc gap after hr ih =>
    rw [hr] at ih
    exact .head (.blank hc) ih
  | case3 c rest hc r hcomment gap after hr ih =>
    rw [hr] at ih
    exact .head (.comment hcomment) ih
  | case4 => exact .refl

/-- The scan ends early only at an opening that it comes to and that nothing closes. -/
theorem exists_delimiter {gap rest : List Char} {opener : Opener}
    (h : (scan cs).ending = .unterminated gap opener rest) :
    ∃ d inner, rest = Delimiter.opening d ++ inner ∧ opener = d.sort ∧ ¬d.Closes inner ∧
      Reaches cs rest ∧ IsGap gap := by
  fun_induction scan cs with
  | case1 => cases h
  | case2 cs c rest hgap opener hread =>
    cases h
    have hreaches := reaches_splitGap cs
    have hbegins := beginsToken_splitGap cs
    rw [hgap] at hreaches hbegins
    obtain ⟨d, inner, hopening, hsort, hcloses⟩ := delimiter_of_readToken hbegins.2 hread
    exact ⟨d, inner, hopening, hsort, hcloses, hreaches, isGap_splitGap cs⟩
  | case3 cs c rest hgap r hread more ih =>
    obtain ⟨d, inner, hopening, hsort, hcloses, hreaches, hend⟩ := ih h
    have hfirst := reaches_splitGap cs
    have hbegins := beginsToken_splitGap cs
    rw [hgap] at hfirst hbegins
    exact ⟨d, inner, hopening, hsort, hcloses, (hfirst.tail (.token hbegins hread)).trans hreaches,
      hend⟩

end

/-- At an opening that nothing closes, the scan ends. -/
theorem unclosed?_of_not_closes {d : Delimiter} {inner : List Char} (h : ¬d.Closes inner) :
    unclosed? (d.opening ++ inner) = some (d.sort, d.opening ++ inner) := by
  have hscan : ∀ {c rest opener}, BeginsToken (c :: rest) → readToken c rest = .error opener →
      unclosed? (c :: rest) = some (opener, c :: rest) := by
    intro c rest opener hbegins hread
    rw [unclosed?, scan_of_error (congrArg Prod.snd (splitGap_of_beginsToken hbegins)) hread]
  cases d with
  | enclosure e =>
    refine hscan (e.beginsToken inner) ?_
    rw [Delimiter.closes_enclosure_iff, not_exists] at h
    show readToken e.opener inner = _
    rw [Enclosure.readToken_opener, Option.eq_none_iff_forall_ne_some.mpr h]
    rfl
  | comment =>
    rw [Delimiter.closes_comment_iff, not_exists] at h
    have hnone : comment? ('/' :: '*' :: inner) = none :=
      congrArg (Option.map _) (Option.eq_none_iff_forall_ne_some.mpr h)
    refine hscan ⟨fun c hc => ?_, hnone⟩ (ReadsToken.comment rfl rfl).readToken_eq
    cases hc
    rfl

/-! ## Main result -/

/-- The script is cut into lexemes up to an opening that nothing closes, and is rejected there. -/
structure StopsAt (text : String) (e : LexError) (before : List Char) (d : Delimiter)
    (inner : List Char) : Prop where
  split : text.toList = before ++ (d.opening ++ inner)
  alone : ∃ ls, tokenize (String.ofList before) = .ok ls
  reached : Reaches text.toList (d.opening ++ inner)
  unclosed : ¬d.Closes inner
  error : e = ⟨d.sort, .behind before⟩

theorem tokenize_eq_error {text : String} {e : LexError} :
    tokenize text = .error e ↔ ∃ gap opener rest,
      (scan text.toList).ending = .unterminated gap opener rest ∧
      e = ⟨opener, .behind ((scan text.toList).pieces.flatMap Piece.span ++ gap)⟩ := by
  rw [tokenize]
  cases hending : (scan text.toList).ending with
  | complete gap => simp
  | unterminated gap opener rest =>
    simp only [Except.error.injEq, Text.Position.after_eq_behind]
    constructor
    · intro h
      exact ⟨gap, opener, rest, rfl, h.symm⟩
    · rintro ⟨gap, opener, rest, hsame, rfl⟩
      cases hsame
      rfl

theorem span_of_ending {cs gap rest : List Char} {opener : Opener}
    (h : (scan cs).ending = .unterminated gap opener rest) :
    cs = (scan cs).pieces.flatMap Piece.span ++ gap ++ rest := by
  have hspan := span_scan cs
  rw [Scan.span, h] at hspan
  rw [List.append_assoc]
  exact hspan.symm

theorem tokenize_before {text : String} {gap rest : List Char} {opener : Opener}
    (h : (scan text.toList).ending = .unterminated gap opener rest) (hgap : IsGap gap) :
    ∃ ls, tokenize (String.ofList ((scan text.toList).pieces.flatMap Piece.span ++ gap)) =
      .ok ls := by
  have hcuts := cutsAll_scan text.toList
  rw [h] at hcuts
  have hreplaces : Replaces (gap ++ rest) gap := by
    cases gap with
    | nil => exact .nil rest
    | cons c gap => exact fun d hd => .inr hd
  exact ⟨_, tokenize_eq_ok.mpr
    ⟨_, gap, String.toList_ofList, hcuts.replace hreplaces, hgap, rfl⟩⟩

theorem stopsAt_of_tokenize {text : String} {e : LexError} (h : tokenize text = .error e) :
    ∃ before d inner, StopsAt text e before d inner := by
  obtain ⟨gap, opener, rest, hending, rfl⟩ := tokenize_eq_error.mp h
  obtain ⟨d, inner, rfl, rfl, hcloses, hreaches, hgap⟩ := exists_delimiter hending
  exact ⟨_, d, inner, span_of_ending hending, tokenize_before hending hgap, hreaches, hcloses, rfl⟩

theorem exists_error {text : String} {d : Delimiter} {inner : List Char}
    (hreached : Reaches text.toList (d.opening ++ inner)) (hunclosed : ¬d.Closes inner) :
    ∃ gap, (scan text.toList).ending = .unterminated gap d.sort (d.opening ++ inner) := by
  have hsame := hreached.unclosed?_eq.trans (unclosed?_of_not_closes hunclosed)
  rw [unclosed?] at hsame
  split at hsame
  · cases hsame
  · next gap opener rest hending =>
    obtain ⟨rfl, rfl⟩ := Prod.mk.inj (Option.some.inj hsame)
    exact ⟨gap, hending⟩

theorem StopsAt.tokenize_eq {text : String} {e : LexError} {before inner : List Char}
    {d : Delimiter} (h : StopsAt text e before d inner) : tokenize text = .error e := by
  obtain ⟨gap, hending⟩ := exists_error h.reached h.unclosed
  have hbefore : before = (scan text.toList).pieces.flatMap Piece.span ++ gap :=
    List.append_cancel_right (h.split.symm.trans (span_of_ending hending))
  rw [tokenize_eq_error]
  exact ⟨gap, d.sort, _, hending, by rw [h.error, hbefore]⟩

/-- A script is rejected exactly at an opening that is come to and that nothing closes, and all in
front of it is cut into lexemes.  A script in which all openings that are come to are closed is cut
into lexemes to its end. -/
theorem tokenize_stops (text : String) :
    (∀ e, tokenize text = .error e ↔ ∃ before d inner, StopsAt text e before d inner) ∧
    ((∃ ls, tokenize text = .ok ls) ↔
      ∀ d inner, Reaches text.toList (Delimiter.opening d ++ inner) → d.Closes inner) := by
  refine ⟨fun e => ⟨stopsAt_of_tokenize, ?_⟩, ?_, fun h => ?_⟩
  · rintro ⟨before, d, inner, h⟩
    exact h.tokenize_eq
  · rintro ⟨ls, hls⟩ d inner hreached
    by_contra hunclosed
    obtain ⟨gap, hending⟩ := exists_error hreached hunclosed
    cases hls.symm.trans (tokenize_eq_error.mpr ⟨gap, _, _, hending, rfl⟩)
  · cases htokenize : tokenize text with
    | ok ls => exact ⟨ls, rfl⟩
    | error e =>
      obtain ⟨before, d, inner, hstops⟩ := stopsAt_of_tokenize htokenize
      exact absurd (h d inner hstops.reached) hstops.unclosed

/-- The star that opens the comment does not close it. -/
def starScript : String := "a /*/"

/-- The comment is closed, and the last quotation mark is escaped. -/
def escapedScript : String := "-- '\n[]]] /***/ 'it''s\\'"

def closedScript : String := "/***/'''\\''"

def closedLexemes : List Lexeme :=
  [⟨⟨"/***/".toList, "'''\\''".toList, .str "''"⟩, ⟨1, 6⟩, 5⟩, ⟨⟨[], [], .eof⟩, ⟨1, 12⟩, 11⟩]

theorem tokenize_stops_escaped :
    (∃ before d inner, StopsAt starScript ⟨.comment, ⟨1, 3⟩⟩ before d inner) ∧
    (∃ before d inner, StopsAt escapedScript ⟨.string, ⟨2, 12⟩⟩ before d inner) ∧
    ∀ d inner, Reaches closedScript.toList (Delimiter.opening d ++ inner) → d.Closes inner := by
  have hstar : tokenize starScript = .error ⟨.comment, ⟨1, 3⟩⟩ := by decide +kernel
  have hescaped : tokenize escapedScript = .error ⟨.string, ⟨2, 12⟩⟩ := by decide +kernel
  have hclosed : tokenize closedScript = .ok closedLexemes := by decide +kernel
  exact ⟨((tokenize_stops starScript).1 _).mp hstar,
    ((tokenize_stops escapedScript).1 _).mp hescaped,
    (tokenize_stops closedScript).2.mp ⟨_, hclosed⟩⟩

end Sql
end Schemata
