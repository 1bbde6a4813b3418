/-
Scanning is local.  A token is read the same whatever comes after it, as long as the next character
is the same, a separator, or not there.  So a part of a script is cut into the same pieces where it
stands in another script with a separator or nothing after it.
-/
import Schemata.Proofs.Sql.Enclosures

namespace Schemata
namespace Sql

open Text (isBlank)

/-- Characters that no token goes on with and that close no quotation. -/
def separators : List Char := [';', ',', ')', ' ', '\n']

/-- After a token, `rest'` may stand in the place of `rest`. -/
def Replaces (rest rest' : List Char) : Prop :=
  ∀ c ∈ rest'.head?, c ∈ separators ∨ c ∈ rest.head?

namespace Replaces

variable {rest rest' : List Char}

theorem nil (rest : List Char) : Replaces rest [] := fun _ h => by cases h

theorem separator {c : Char} (h : c ∈ separators) (rest more : List Char) :
    Replaces rest (c :: more) := by
  intro d hd
  cases hd
  exact .inl h

theorem append (h : Replaces rest rest') (cs : List Char) :
    Replaces (cs ++ rest) (cs ++ rest') := by
  cases cs with
  | nil => exact h
  | cons c cs => exact fun d hd => .inr hd

/-- A character that is no separator comes next only if it did before. -/
theorem head? (h : Replaces rest rest') {p : Char → Bool} (hp : separators.any p = false)
    (hrest : ∀ c ∈ rest.head?, p c = false) : ∀ c ∈ rest'.head?, p c = false := by
  intro c hc
  rcases h c hc with hc' | hc'
  · exact Bool.of_not_eq_true (List.any_eq_false.mp hp c hc')
  · exact hrest c hc'

end Replaces

/-! ## Gaps -/

section

variable {cs rest' : List Char} {r : Read Unit}

/-- A line comment with something after it ends at its line feed. -/
theorem closeLine_replace (h : (closeLine cs).rest ≠ []) (rest' : List Char) :
    closeLine ((closeLine cs).text ++ rest') = ⟨(), (closeLine cs).text, rest'⟩ := by
  induction cs with
  | nil => exact absurd rfl h
  | cons c cs ih =>
    rw [closeLine] at h ⊢
    split
    · next hc =>
      rw [List.singleton_append, closeLine, if_pos hc]
    · next hc =>
      rw [if_neg hc] at h
      show closeLine (c :: ((closeLine cs).text ++ rest')) = _
      rw [closeLine, if_neg hc, ih h]
      rfl

theorem text_closeBlock_ne_nil (h : closeBlock cs = some r) : r.text ≠ [] := by
  fun_induction closeBlock cs generalizing r with
  | case1 => cases h
  | case2 => cases h
  | case3 =>
    cases h
    simp
  | case4 c d rest _ ih =>
    obtain ⟨s, -, rfl⟩ := Option.map_eq_some_iff.mp h
    simp [Read.push]

theorem closeBlock_replace (h : closeBlock cs = some r) (rest' : List Char) :
    closeBlock (r.text ++ rest') = some ⟨(), r.text, rest'⟩ := by
  fun_induction closeBlock cs generalizing r with
  | case1 => cases h
  | case2 => cases h
  | case3 c d rest hclose =>
    cases h
    show closeBlock (c :: d :: rest') = _
    rw [closeBlock, if_pos hclose]
  | case4 c d rest hclose ih =>
    obtain ⟨s, hs, rfl⟩ := Option.map_eq_some_iff.mp h
    have hwhole := whole_closeBlock hs
    have hrest := ih hs
    obtain ⟨value, text, after⟩ := s
    cases text with
    | nil => exact absurd rfl (text_closeBlock_ne_nil hs)
    | cons e text =>
      have hd : e = d := (List.cons.inj hwhole).1
      subst hd
      show closeBlock (c :: e :: (text ++ rest')) = _
      rw [closeBlock, if_neg hclose, show e :: (text ++ rest') = e :: text ++ rest' from rfl, hrest]
      rfl

theorem comment?_replace (h : comment? cs = some r) (hne : r.rest ≠ []) (rest' : List Char) :
    comment? (r.text ++ rest') = some ⟨(), r.text, rest'⟩ := by
  unfold comment? at h
  split at h
  · next rest =>
    cases h
    show some ((closeLine ((closeLine rest).text ++ rest')).push ['-', '-']) = _
    rw [closeLine_replace hne]
    rfl
  · next rest =>
    cases h
    show some ((closeLine ((closeLine rest).text ++ rest')).push ['#']) = _
    rw [closeLine_replace hne]
    rfl
  · next rest =>
    obtain ⟨s, hs, rfl⟩ := Option.map_eq_some_iff.mp h
    show (closeBlock (s.text ++ rest')).map (Read.push ['/', '*']) = _
    rw [closeBlock_replace hs]
    rfl
  · cases h

end

theorem splitGap_blank {c : Char} (h : isBlank c = true) (cs : List Char) :
    splitGap (c :: cs) = (c :: (splitGap cs).1, (splitGap cs).2) := by
  rw [splitGap, if_pos h]

theorem not_isBlank_of_comment? {c : Char} {cs : List Char} {r : Read Unit}
    (h : comment? (c :: cs) = some r) : ¬isBlank c = true := by
  unfold comment? at h
  split at h
  · next heq =>
    cases heq
    decide
  · next heq =>
    cases heq
    decide
  · next heq =>
    cases heq
    decide
  · cases h

theorem splitGap_comment {cs : List Char} {r : Read Unit} (h : comment? cs = some r) :
    splitGap cs = (r.text ++ (splitGap r.rest).1, (splitGap r.rest).2) := by
  cases cs with
  | nil => cases h
  | cons c cs =>
    rw [splitGap, if_neg (not_isBlank_of_comment? h)]
    split
    · next hsome =>
      cases h.symm.trans hsome
      rfl
    · next hnone => cases h.symm.trans hnone

/-- What begins with neither a blank nor a comment begins a token. -/
def BeginsToken (cs : List Char) : Prop :=
  (∀ c ∈ cs.head?, isBlank c = false) ∧ comment? cs = none

theorem splitGap_of_beginsToken {cs : List Char} (h : BeginsToken cs) : splitGap cs = ([], cs) := by
  cases cs with
  | nil => rw [splitGap]
  | cons c cs =>
    rw [splitGap, if_neg (by rw [h.1 c rfl]; exact Bool.false_ne_true)]
    split
    · next hsome =>
      rw [h.2] at hsome
      cases hsome
    · rfl

theorem beginsToken_splitGap (cs : List Char) : BeginsToken (splitGap cs).2 := by
  fun_induction splitGap cs with
  | case1 => exact ⟨by simp, rfl⟩
  | case2 c rest hc gap after hr ih =>
    rw [hr] at ih
    exact ih
  | case3 c rest hc r h gap after hr ih =>
    rw [hr] at ih
    exact ih
  | case4 c rest hc hcomment =>
    refine ⟨fun d hd => ?_, hcomment⟩
    cases hd
    exact Bool.of_not_eq_true hc

/-- A gap in front of a token is the same in front of another one. -/
theorem splitGap_replace {cs : List Char} (hne : (splitGap cs).2 ≠ []) {rest' : List Char}
    (h : BeginsToken rest') : splitGap ((splitGap cs).1 ++ rest') = ((splitGap cs).1, rest') := by
  fun_induction splitGap cs with
  | case1 => exact absurd rfl hne
  | case2 c rest hc gap after hr ih =>
    rw [hr] at ih
    show splitGap (c :: (gap ++ rest')) = _
    rw [splitGap_blank hc, ih hne]
  | case3 c rest hc r hcomment gap after hr ih =>
    rw [hr] at ih
    have hrest : r.rest ≠ [] := by
      intro hnil
      rw [hnil, splitGap] at hr
      cases hr
      exact hne rfl
    show splitGap (r.text ++ gap ++ rest') = _
    rw [List.append_assoc, splitGap_comment (comment?_replace hcomment hrest (gap ++ rest')),
      ih hne]
  | case4 => exact splitGap_of_beginsToken h

/-- The text has blanks and comments only. -/
def IsGap (cs : List Char) : Prop := splitGap cs = (cs, [])

theorem isGap_nil : IsGap [] := by rw [IsGap, splitGap]

theorem isGap_splitGap (cs : List Char) : IsGap (splitGap cs).1 := by
  by_cases hrest : (splitGap cs).2 = []
  · have happend := splitGap_append cs
    rw [hrest, List.append_nil] at happend
    rw [IsGap, happend]
    exact Prod.ext happend hrest
  · have hnil : BeginsToken [] := ⟨by simp, rfl⟩
    have hgap := splitGap_replace hrest hnil
    rwa [List.append_nil] at hgap

/-- A line comment that goes on to the end of a text ends at the next line feed. -/
theorem closeLine_feed {cs : List Char} (h : (closeLine cs).rest = []) (rest : List Char) :
    closeLine (cs ++ '\n' :: rest) = ⟨(), cs, '\n' :: rest⟩ ∨
      closeLine (cs ++ '\n' :: rest) = ⟨(), cs ++ ['\n'], rest⟩ := by
  induction cs with
  | nil => exact .inr rfl
  | cons c cs ih =>
    rw [closeLine] at h
    rw [List.cons_append, closeLine]
    split at h
    · next hc =>
      obtain rfl : cs = [] := h
      rw [if_pos hc]
      exact .inl rfl
    · next hc =>
      rw [if_neg hc]
      rcases ih h with hrest | hrest
      · exact .inl (by rw [hrest]; rfl)
      · exact .inr (by rw [hrest]; rfl)

theorem comment?_feed {cs : List Char} {r : Read Unit} (h : comment? cs = some r)
    (hnil : r.rest = []) (rest : List Char) :
    comment? (cs ++ '\n' :: rest) = some ⟨(), cs, '\n' :: rest⟩ ∨
      comment? (cs ++ '\n' :: rest) = some ⟨(), cs ++ ['\n'], rest⟩ := by
  unfold comment? at h
  split at h
  · next cs =>
    cases h
    show some ((closeLine (cs ++ '\n' :: rest)).push ['-', '-']) = _ ∨
      some ((closeLine (cs ++ '\n' :: rest)).push ['-', '-']) = _
    rcases closeLine_feed hnil rest with hrest | hrest
    · exact .inl (by rw [hrest]; rfl)
    · exact .inr (by rw [hrest]; rfl)
  · next cs =>
    cases h
    show some ((closeLine (cs ++ '\n' :: rest)).push ['#']) = _ ∨
      some ((closeLine (cs ++ '\n' :: rest)).push ['#']) = _
    rcases closeLine_feed hnil rest with hrest | hrest
    · exact .inl (by rw [hrest]; rfl)
    · exact .inr (by rw [hrest]; rfl)
  · next cs =>
    obtain ⟨s, hs, rfl⟩ := Option.map_eq_some_iff.mp h
    have hwhole := whole_closeBlock hs
    rw [Read.whole, show s.rest = [] from hnil, List.append_nil] at hwhole
    have hclose := closeBlock_replace hs ('\n' :: rest)
    rw [hwhole] at hclose
    exact .inl (congrArg (Option.map (Read.push ['/', '*'])) hclose)
  · cases h

/-- After a line feed, a gap goes on with the gap that comes next. -/
theorem splitGap_feed {gap : List Char} (h : IsGap gap) (cs : List Char) :
    splitGap (gap ++ '\n' :: cs) = (gap ++ '\n' :: (splitGap cs).1, (splitGap cs).2) := by
  have hfeed := splitGap_blank (c := '\n') rfl
  unfold IsGap at h
  fun_induction splitGap gap with
  | case1 => exact hfeed cs
  | case2 c rest hc gap after hr ih =>
    rw [hr] at ih
    obtain ⟨hgap, rfl⟩ := Prod.mk.inj h
    obtain ⟨-, rfl⟩ := List.cons.inj hgap
    rw [List.cons_append, splitGap_blank hc, ih rfl]
    rfl
  | case3 c rest hc r hcomment gap after hr ih =>
    rw [hr] at ih
    obtain ⟨hgap, rfl⟩ := Prod.mk.inj h
    have hwhole : r.text ++ r.rest = c :: rest := whole_comment? hcomment
    by_cases hnil : r.rest = []
    · rcases comment?_feed hcomment hnil cs with hcomment' | hcomment'
      · rw [splitGap_comment hcomment', hfeed]
      · rw [splitGap_comment hcomment', List.append_assoc]
        rfl
    · have hrest : gap = r.rest := List.append_cancel_left (hgap.trans hwhole.symm)
      rw [← hwhole, List.append_assoc,
        splitGap_comment (comment?_replace hcomment hnil (r.rest ++ '\n' :: cs)),
        ih (by rw [hrest]), List.append_assoc]
  | case4 => cases h

theorem IsGap.feed {gap cs : List Char} (hgap : IsGap gap) (hcs : IsGap cs) :
    IsGap (gap ++ '\n' :: cs) := by
  rw [IsGap, splitGap_feed hgap, hcs]

/-! ## Tokens -/

namespace Enclosure

theorem closer_not_mem_separators (e : Enclosure) : e.closer ∉ separators := by
  cases e with
  | name q => cases q <;> decide
  | string => decide

/-- The mark that closes is not doubled by what comes after it. -/
theorem close_replace {e : Enclosure} {cs rest' : List Char} {r : Read (List Char)}
    (h : e.close cs = some r) (hrest : Replaces r.rest rest') :
    e.close (r.text ++ rest') = some ⟨r.value, r.text, rest'⟩ := by
  obtain ⟨body, -, htext, hbody, hend⟩ := standsFor_of_close h
  have hend' : e.closer ∉ rest'.head? := fun hmem =>
    (hrest _ hmem).elim e.closer_not_mem_separators hend
  rw [htext, List.append_assoc]
  exact hbody.close hend'

end Enclosure

theorem closeNumber_replace {pointed : Bool} {cs rest' : List Char}
    (hrest : Replaces (closeNumber pointed cs).rest rest') :
    closeNumber pointed ((closeNumber pointed cs).text ++ rest') =
      ⟨(), (closeNumber pointed cs).text, rest'⟩ := by
  have hend : ∀ pointed rest, Replaces rest rest' →
      (∀ c ∈ rest.head?, (isDigit c || c == '.' && !pointed) = false) →
      closeNumber pointed rest' = ⟨(), [], rest'⟩ := by
    intro pointed rest hreplaces hstop
    have hstop' := hreplaces.head? (p := fun c => isDigit c || c == '.' && !pointed)
      (by cases pointed <;> decide) hstop
    cases rest' with
    | nil => rfl
    | cons c rest' =>
      have hc := hstop' c rfl
      rw [Bool.or_eq_false_iff] at hc
      rw [closeNumber, if_neg (by simp [hc.1]), if_neg (by simpa using hc.2)]
  fun_induction closeNumber pointed cs with
  | case1 pointed => exact hend pointed [] hrest (by simp)
  | case2 pointed c rest hc ih =>
    show closeNumber pointed (c :: ((closeNumber pointed rest).text ++ rest')) = _
    rw [closeNumber, if_pos hc, ih hrest]
    rfl
  | case3 pointed c rest hc hpoint ih =>
    show closeNumber pointed (c :: ((closeNumber true rest).text ++ rest')) = _
    rw [closeNumber, if_neg hc, if_pos hpoint, ih hrest]
    rfl
  | case4 pointed c rest hc hpoint =>
    refine hend pointed (c :: rest) hrest ?_
    intro d hd
    cases hd
    rw [Bool.or_eq_false_iff]
    exact ⟨Bool.of_not_eq_true hc, by simpa using hpoint⟩

theorem numberToken_replace {sign cs rest' : List Char}
    (hrest : Replaces (numberToken sign cs).rest rest') :
    numberToken sign ((closeNumber false cs).text ++ rest') =
      ⟨(numberToken sign cs).value, (numberToken sign cs).text, rest'⟩ := by
  rw [numberToken, closeNumber_replace hrest]
  rfl

theorem text_closeNumber_cons (pointed : Bool) {c : Char} (hc : isDigit c = true)
    (cs : List Char) :
    (closeNumber pointed (c :: cs)).text = c :: (closeNumber pointed cs).text := by
  rw [closeNumber, if_pos hc]
  rfl

theorem takeWhile_replace {p : Char → Bool} (hp : separators.any p = false)
    {cs rest' : List Char}
    (hrest : Replaces (cs.dropWhile p) rest') :
    (cs.takeWhile p ++ rest').takeWhile p = cs.takeWhile p ∧
      (cs.takeWhile p ++ rest').dropWhile p = rest' := by
  have hall : ∀ c ∈ cs.takeWhile p, p c = true :=
    List.all_eq_true.mp List.all_takeWhile
  have hstop : ∀ c ∈ rest'.head?, p c = false := by
    refine hrest.head? hp fun c hc => ?_
    have hne := List.head?_dropWhile_not p cs
    rw [Option.mem_def.mp hc] at hne
    exact hne
  rw [List.takeWhile_append_of_pos hall, List.dropWhile_append_of_pos hall]
  cases rest' with
  | nil => exact ⟨List.append_nil _, rfl⟩
  | cons c rest' =>
    rw [List.takeWhile_cons, List.dropWhile_cons, hstop c rfl]
    exact ⟨List.append_nil _, rfl⟩

/-- No mark, quotation, number or comment opens with `c` in front of `cs`, so `c` begins a word or
is a symbol. -/
structure OpensNothing (c : Char) (cs : List Char) : Prop where
  punctuation : punctuation? c = none
  quote : ¬(c = '"' || c = '\x60') = true
  bracket : c ≠ '['
  string : c ≠ '\''
  digit : ¬isDigit c = true
  minus : c = '-' → ∀ d ∈ cs.head?, isDigit d = false
  slash : c = '/' → '*' ∉ cs.head?

namespace OpensNothing

variable {c : Char} {cs cs' : List Char}

theorem replace (h : OpensNothing c cs) (hcs : Replaces cs cs') : OpensNothing c cs' := by
  refine { h with minus := fun hc => ?_, slash := fun hc hstar => ?_ }
  · exact hcs.head? (by decide) (h.minus hc)
  · rcases hcs '*' hstar with hsemicolon | hstar'
    · exact absurd hsemicolon (by decide)
    · exact h.slash hc hstar'

theorem readToken_eq (h : OpensNothing c cs) :
    readToken c cs =
      if beginsWord c then
        .ok ⟨wordToken (c :: cs.takeWhile continuesWord), c :: cs.takeWhile continuesWord,
          cs.dropWhile continuesWord⟩
      else .ok (single (.symbol c) c cs) := by
  have hminus : ¬(c = '-' && cs.head?.any isDigit) = true := by
    intro hboth
    rw [Bool.and_eq_true, Option.any_eq_true] at hboth
    obtain ⟨hc, d, hd, hdigit⟩ := hboth
    rw [h.minus (of_decide_eq_true hc) d hd] at hdigit
    cases hdigit
  have hslash : ¬(c = '/' && cs.head? = some '*') = true := by
    intro hboth
    rw [Bool.and_eq_true] at hboth
    exact h.slash (of_decide_eq_true hboth.1) (of_decide_eq_true hboth.2)
  rw [readToken, h.punctuation]
  dsimp only
  rw [if_neg h.quote, if_neg h.bracket, if_neg h.string, if_neg h.digit, if_neg hminus,
    if_neg hslash]

end OpensNothing

/-- The characters that are tokens of their own. -/
theorem mark_of_punctuation? {c : Char} {t : Token} (h : punctuation? c = some t) :
    (c = '(' ∧ t = .leftParen) ∨ (c = ')' ∧ t = .rightParen) ∨ (c = ',' ∧ t = .comma) ∨
      (c = ';' ∧ t = .semicolon) ∨ (c = '.' ∧ t = .dot) := by
  unfold punctuation? at h
  repeat' split at h
  all_goals cases h
  all_goals simp [*]

/-- What begins a token, and what is read there. -/
inductive ReadsToken (c : Char) (cs : List Char) : Except Opener (Read Token) → Prop
  | mark {t : Token} (h : punctuation? c = some t) : ReadsToken c cs (.ok (single t c cs))
  | enclosed {e : Enclosure} {s : Read (List Char)} (hc : c = e.opener)
      (h : e.close cs = some s) :
      ReadsToken c cs (.ok ⟨e.token s.value, c :: s.text, s.rest⟩)
  | unclosed {e : Enclosure} (hc : c = e.opener) (h : e.close cs = none) :
      ReadsToken c cs (.error e.sort)
  | digits (h : isDigit c = true) : ReadsToken c cs (.ok (numberToken [] (c :: cs)))
  | negative (hc : c = '-') (h : cs.head?.any isDigit = true) :
      ReadsToken c cs (.ok (numberToken [c] cs))
  | comment (hc : c = '/') (h : '*' ∈ cs.head?) : ReadsToken c cs (.error .comment)
  | word (hnothing : OpensNothing c cs) (h : beginsWord c = true) :
      ReadsToken c cs (.ok ⟨wordToken (c :: cs.takeWhile continuesWord),
        c :: cs.takeWhile continuesWord, cs.dropWhile continuesWord⟩)
  | symbol (hnothing : OpensNothing c cs) (h : ¬beginsWord c = true) :
      ReadsToken c cs (.ok (single (.symbol c) c cs))

theorem readsToken (c : Char) (cs : List Char) : ReadsToken c cs (readToken c cs) := by
  have hname : ∀ q : Quotation, c = q.opener → ReadsToken c cs (nameToken c q.closer cs) := by
    intro q hc
    rw [nameToken]
    cases hclose : closeName q.closer cs with
    | some s => exact .enclosed (e := .name q) hc hclose
    | none => exact .unclosed (e := .name q) hc hclose
  rw [readToken]
  cases hpunctuation : punctuation? c with
  | some t => exact .mark hpunctuation
  | none =>
    dsimp only
    by_cases hquote : (c = '"' || c = '\x60') = true
    · rw [if_pos hquote]
      rcases Bool.or_eq_true_iff.mp hquote with hc | hc
      · obtain rfl := of_decide_eq_true hc
        exact hname .quotes rfl
      · obtain rfl := of_decide_eq_true hc
        exact hname .backticks rfl
    rw [if_neg hquote]
    by_cases hbracket : c = '['
    · rw [if_pos hbracket]
      exact hname .brackets hbracket
    rw [if_neg hbracket]
    by_cases hstring : c = '\''
    · rw [if_pos hstring, stringToken]
      cases hclose : closeString cs with
      | some s =>
        obtain rfl := hstring
        exact .enclosed (e := .string) rfl hclose
      | none => exact .unclosed (e := .string) hstring hclose
    rw [if_neg hstring]
    by_cases hdigit : isDigit c = true
    · rw [if_pos hdigit]
      exact .digits hdigit
    rw [if_neg hdigit]
    by_cases hminus : (c = '-' && cs.head?.any isDigit) = true
    · rw [if_pos hminus]
      rw [Bool.and_eq_true, decide_eq_true_iff] at hminus
      exact .negative hminus.1 hminus.2
    rw [if_neg hminus]
    by_cases hslash : (c = '/' && cs.head? = some '*') = true
    · rw [if_pos hslash]
      rw [Bool.and_eq_true, decide_eq_true_iff, decide_eq_true_iff] at hslash
      exact .comment hslash.1 hslash.2
    rw [if_neg hslash]
    have hnothing : OpensNothing c cs := by
      refine ⟨hpunctuation, hquote, hbracket, hstring, hdigit, fun hc d hd => ?_, fun hc hd => ?_⟩
      · refine Bool.of_not_eq_true fun hd' => hminus ?_
        rw [Bool.and_eq_true, Option.any_eq_true]
        exact ⟨decide_eq_true hc, d, hd, hd'⟩
      · exact hslash (Bool.and_eq_true_iff.mpr ⟨decide_eq_true hc, decide_eq_true hd⟩)
    by_cases hword : beginsWord c = true
    · rw [if_pos hword]
      exact .word hnothing hword
    · rw [if_neg hword]
      exact .symbol hnothing hword

theorem ReadsToken.readToken_eq {c : Char} {cs : List Char} {x : Except Opener (Read Token)}
    (h : ReadsToken c cs x) : readToken c cs = x := by
  cases h with
  | mark h => simp only [readToken, h]
  | enclosed hc h => rw [hc, Enclosure.readToken_opener, h]
  | unclosed hc h => rw [hc, Enclosure.readToken_opener, h]
  | digits h =>
    have hne : ∀ {d : Char}, isDigit d = false → c ≠ d := by
      rintro d hd rfl
      cases hd.symm.trans h
    have hpunctuation : punctuation? c = none := by
      simp [punctuation?, hne (d := '(') rfl, hne (d := ')') rfl, hne (d := ',') rfl,
        hne (d := ';') rfl, hne (d := '.') rfl]
    rw [readToken, hpunctuation]
    dsimp only
    rw [if_neg (by simp [hne (d := '"') rfl, hne (d := '\x60') rfl]), if_neg (hne rfl),
      if_neg (hne rfl), if_pos h]
  | negative hc h =>
    subst hc
    have hpunctuation : punctuation? '-' = none := by decide
    rw [readToken, hpunctuation]
    dsimp only
    rw [if_neg (by decide), if_neg (by decide), if_neg (by decide), if_neg (by decide), h]
    rfl
  | comment hc h =>
    subst hc
    have hpunctuation : punctuation? '/' = none := by decide
    rw [readToken, hpunctuation]
    dsimp only
    rw [if_neg (by decide), if_neg (by decide), if_neg (by decide), if_neg (by decide),
      if_neg (by simp), if_pos (by rw [Option.mem_def.mp h]; rfl)]
  | word hnothing h => rw [hnothing.readToken_eq, if_pos h]
  | symbol hnothing h => rw [hnothing.readToken_eq, if_neg h]

/-- A token is read the same in front of another text that may stand in the place of the first. -/
theorem readToken_replace {c : Char} {cs rest' : List Char} {r : Read Token}
    (h : readToken c cs = .ok r) (hrest : Replaces r.rest rest') :
    ∃ text, r.text = c :: text ∧ readToken c (text ++ rest') = .ok ⟨r.value, r.text, rest'⟩ := by
  have hreads := readsToken c cs
  rw [h] at hreads
  cases hreads with
  | mark hmark => exact ⟨[], rfl, (ReadsToken.mark hmark).readToken_eq⟩
  | enclosed hc hclose =>
    exact ⟨_, rfl, (ReadsToken.enclosed hc (Enclosure.close_replace hclose hrest)).readToken_eq⟩
  | digits hdigit =>
    have htext := text_closeNumber_cons false hdigit cs
    have hread := numberToken_replace hrest
    rw [htext, List.cons_append] at hread
    exact ⟨_, htext, (ReadsToken.digits hdigit).readToken_eq.trans (congrArg _ hread)⟩
  | negative hc hdigit =>
    have hdigit' : ((closeNumber false cs).text ++ rest').head?.any isDigit = true := by
      cases cs with
      | nil => simp at hdigit
      | cons d cs =>
        rw [text_closeNumber_cons false hdigit]
        exact hdigit
    exact ⟨_, rfl, (ReadsToken.negative hc hdigit').readToken_eq.trans
      (congrArg _ (numberToken_replace hrest))⟩
  | word hnothing hword =>
    obtain ⟨htake, hdrop⟩ := takeWhile_replace (by decide) hrest
    have happend := hrest.append (cs.takeWhile continuesWord)
    rw [List.takeWhile_append_dropWhile] at happend
    refine ⟨cs.takeWhile continuesWord, rfl, ?_⟩
    rw [(ReadsToken.word (hnothing.replace happend) hword).readToken_eq, htake, hdrop]
  | symbol hnothing hword =>
    exact ⟨[], rfl, (ReadsToken.symbol (hnothing.replace hrest) hword).readToken_eq⟩

theorem comment?_eq_none_of_head? {c : Char} {cs : List Char} (hhash : c ≠ '#')
    (hminus : c = '-' → '-' ∉ cs.head?) (hslash : c = '/' → '*' ∉ cs.head?) :
    comment? (c :: cs) = none := by
  unfold comment?
  split
  · next heq =>
    cases heq
    exact absurd rfl (hminus rfl)
  · next heq =>
    cases heq
    exact absurd rfl hhash
  · next heq =>
    cases heq
    exact absurd rfl (hslash rfl)
  · rfl

theorem comment?_eq_none {c : Char} {cs : List Char} (hminus : c ≠ '-') (hhash : c ≠ '#')
    (hslash : c ≠ '/') : comment? (c :: cs) = none :=
  comment?_eq_none_of_head? hhash (fun h => absurd h hminus) fun h => absurd h hslash

theorem Enclosure.beginsToken (e : Enclosure) (cs : List Char) : BeginsToken (e.opener :: cs) := by
  have hopener : isBlank e.opener = false ∧ e.opener ≠ '-' ∧ e.opener ≠ '#' ∧ e.opener ≠ '/' := by
    cases e with
    | name q => cases q <;> decide
    | string => decide
  refine ⟨fun c hc => ?_, comment?_eq_none hopener.2.1 hopener.2.2.1 hopener.2.2.2⟩
  cases hc
  exact hopener.1

theorem head?_of_comment?_eq_none {c : Char} {cs : List Char} (h : comment? (c :: cs) = none) :
    c ≠ '#' ∧ (c = '-' → '-' ∉ cs.head?) := by
  constructor
  · intro hc
    subst hc
    cases h
  · intro hc hhead
    subst hc
    cases cs with
    | nil => cases hhead
    | cons d cs =>
      cases hhead
      cases h

theorem head?_of_readToken {c : Char} {cs : List Char} {r : Read Token}
    (h : readToken c cs = .ok r) (hc : c = '/') : '*' ∉ cs.head? := by
  intro hhead
  cases h.symm.trans (ReadsToken.comment hc hhead).readToken_eq

/-- What begins a token does so in front of another text, too. -/
theorem beginsToken_replace {c : Char} {text rest rest' : List Char} {r : Read Token}
    (h : BeginsToken (c :: (text ++ rest))) (hread : readToken c (text ++ rest) = .ok r)
    (hrest : Replaces rest rest') : BeginsToken (c :: (text ++ rest')) := by
  obtain ⟨hblank, hcomment⟩ := h
  obtain ⟨hhash, hminus⟩ := head?_of_comment?_eq_none hcomment
  have hhead := hrest.append text
  refine ⟨hblank, comment?_eq_none_of_head? hhash (fun hc hnext => ?_) fun hc hnext => ?_⟩
  · rcases hhead '-' hnext with heq | hnext
    · exact absurd heq (by decide)
    · exact hminus hc hnext
  · rcases hhead '*' hnext with heq | hnext
    · exact absurd heq (by decide)
    · exact head?_of_readToken hread hc hnext

/-! ## Pieces -/

section

variable {cs : List Char} {c : Char} {rest : List Char}

/-- A gap at the end of a script completes the scan. -/
theorem scan_of_splitGap (hgap : (splitGap cs).2 = []) :
    scan cs = ⟨[], .complete (splitGap cs).1⟩ := by
  rw [scan]
  split
  · rfl
  · next hcons =>
    rw [hgap] at hcons
    cases hcons

/-- Behind a gap and a token, the scan goes on with what comes after them. -/
theorem scan_of_readToken {r : Read Token} (hgap : (splitGap cs).2 = c :: rest)
    (hread : readToken c rest = .ok r) :
    scan cs = ⟨⟨(splitGap cs).1, r.text, r.value⟩ :: (scan r.rest).pieces,
      (scan r.rest).ending⟩ := by
  rw [scan]
  split
  · next hnil =>
    rw [hgap] at hnil
    cases hnil
  · next hcons =>
    rw [hgap] at hcons
    cases hcons
    split
    · next herror =>
      rw [hread] at herror
      cases herror
    · next hok =>
      rw [hread] at hok
      cases hok
      rfl

/-- Where no token can be read, the scan ends. -/
theorem scan_of_error {opener : Opener} (hgap : (splitGap cs).2 = c :: rest)
    (hread : readToken c rest = .error opener) :
    scan cs = ⟨[], .unterminated (splitGap cs).1 opener (c :: rest)⟩ := by
  rw [scan]
  split
  · next hnil =>
    rw [hgap] at hnil
    cases hnil
  · next hcons =>
    rw [hgap] at hcons
    cases hcons
    split
    · next herror =>
      rw [hread] at herror
      cases herror
      rfl
    · next hok =>
      rw [hread] at hok
      cases hok

end

/-- In front of `rest`, the piece is cut off with its gap, its spelling and its token. -/
structure Cuts (p : Piece) (rest : List Char) : Prop where
  gap : splitGap (p.span ++ rest) = (p.gap, p.text ++ rest)
  token : ∃ c text, p.text = c :: text ∧
    readToken c (text ++ rest) = .ok ⟨p.token, p.text, rest⟩

/-- The same piece with another gap. -/
def Piece.withGap (p : Piece) (gap : List Char) : Piece := ⟨gap, p.text, p.token⟩

theorem splitGap_blanks {gap cs : List Char} (hgap : ∀ c ∈ gap, isBlank c = true)
    (h : BeginsToken cs) : splitGap (gap ++ cs) = (gap, cs) := by
  induction gap with
  | nil => exact splitGap_of_beginsToken h
  | cons c gap ih =>
    obtain ⟨hc, hgap⟩ := List.forall_mem_cons.mp hgap
    rw [List.cons_append, splitGap, if_pos hc, ih hgap]

namespace Cuts

variable {p : Piece} {rest rest' : List Char}

theorem beginsToken (h : Cuts p rest) : BeginsToken (p.text ++ rest) := by
  have hbegins := beginsToken_splitGap (p.span ++ rest)
  rwa [h.gap] at hbegins

theorem replace (h : Cuts p rest) (hrest : Replaces rest rest') : Cuts p rest' := by
  obtain ⟨c, text, htext, hread⟩ := h.token
  have hbegins := h.beginsToken
  rw [htext, List.cons_append] at hbegins
  obtain ⟨text', htext', hread'⟩ := readToken_replace hread hrest
  have hsame : text' = text := (List.cons.inj (htext'.symm.trans htext)).2
  subst hsame
  refine ⟨?_, c, text', htext, hread'⟩
  have hne : (splitGap (p.span ++ rest)).2 ≠ [] := by
    rw [h.gap, htext]
    simp
  have hgap := splitGap_replace hne (beginsToken_replace hbegins hread hrest)
  rw [h.gap] at hgap
  rw [Piece.span, List.append_assoc, htext]
  exact hgap

theorem withGap (h : Cuts p rest) {gap : List Char} (hgap : ∀ c ∈ gap, isBlank c = true) :
    Cuts (p.withGap gap) rest := by
  refine ⟨?_, h.token⟩
  rw [Piece.span, List.append_assoc]
  exact splitGap_blanks hgap h.beginsToken

/-- A piece is cut off behind a longer gap, which ends in a line feed. -/
theorem feed (h : Cuts p rest) {gap : List Char} (hgap : IsGap gap) :
    Cuts (p.withGap (gap ++ '\n' :: p.gap)) rest := by
  refine ⟨?_, h.token⟩
  have hfeed := splitGap_feed hgap (p.span ++ rest)
  rw [h.gap] at hfeed
  rw [Piece.span, Piece.withGap, ← hfeed, Piece.span]
  simp

theorem scan (h : Cuts p rest) :
    scan (p.span ++ rest) = ⟨p :: (scan rest).pieces, (scan rest).ending⟩ := by
  obtain ⟨c, text, htext, hread⟩ := h.token
  have hcons : (splitGap (p.span ++ rest)).2 = c :: (text ++ rest) := by
    rw [h.gap, htext]
    rfl
  rw [scan_of_readToken hcons hread, h.gap]

end Cuts

/-- The pieces are cut off one after the other in front of `rest`. -/
def CutsAll : List Piece → List Char → Prop
  | [], _ => True
  | p :: ps, rest => Cuts p (ps.flatMap Piece.span ++ rest) ∧ CutsAll ps rest

theorem cutsAll_append {ps qs : List Piece} {rest : List Char} :
    CutsAll (ps ++ qs) rest ↔ CutsAll ps (qs.flatMap Piece.span ++ rest) ∧ CutsAll qs rest := by
  induction ps with
  | nil => simp [CutsAll]
  | cons p ps ih =>
    simp only [List.cons_append, CutsAll, List.flatMap_append, List.append_assoc, ih, and_assoc]

theorem CutsAll.replace {ps : List Piece} {rest rest' : List Char} (h : CutsAll ps rest)
    (hrest : Replaces rest rest') : CutsAll ps rest' := by
  induction ps with
  | nil => exact True.intro
  | cons p ps ih => exact ⟨h.1.replace (hrest.append _), ih h.2⟩

theorem CutsAll.scan {ps : List Piece} {rest : List Char} (h : CutsAll ps rest) :
    scan (ps.flatMap Piece.span ++ rest) = ⟨ps ++ (scan rest).pieces, (scan rest).ending⟩ := by
  induction ps with
  | nil => rfl
  | cons p ps ih => rw [List.flatMap_cons, List.append_assoc, h.1.scan, ih h.2, List.cons_append]

/-- The pieces of a script are cut off in front of what is left at its end. -/
theorem cutsAll_scan (cs : List Char) : CutsAll (scan cs).pieces (scan cs).ending.span := by
  fun_induction scan cs with
  | case1 => exact True.intro
  | case2 => exact True.intro
  | case3 cs c rest hgap r hread more ih =>
    refine ⟨?_, ih⟩
    have hspan : more.pieces.flatMap Piece.span ++ more.ending.span = r.rest := span_scan r.rest
    obtain ⟨hwhole, hne⟩ := whole_readToken hread
    have hcs : (splitGap cs).1 ++ (r.text ++ r.rest) = cs := by
      rw [show r.text ++ r.rest = c :: rest from hwhole, ← hgap, splitGap_append]
    show Cuts ⟨(splitGap cs).1, r.text, r.value⟩ _
    rw [hspan]
    constructor
    · rw [Piece.span, List.append_assoc, hcs, show r.text ++ r.rest = c :: rest from hwhole, ← hgap]
    · obtain ⟨value, text, after⟩ := r
      cases text with
      | nil => exact absurd rfl hne
      | cons d text =>
        obtain ⟨rfl, rfl⟩ := List.cons.inj hwhole
        exact ⟨d, text, rfl, hread⟩

/-- No token that is read marks the end. -/
theorem value_readToken_ne_eof {c : Char} {cs : List Char} {r : Read Token}
    (h : readToken c cs = .ok r) : r.value ≠ .eof := by
  have hreads := readsToken c cs
  rw [h] at hreads
  cases hreads with
  | @mark t hmark =>
    obtain ⟨-, rfl⟩ | ⟨-, rfl⟩ | ⟨-, rfl⟩ | ⟨-, rfl⟩ | ⟨-, rfl⟩ := mark_of_punctuation? hmark <;>
      simp [single]
  | @enclosed e => cases e <;> simp [Enclosure.token]
  | digits => simp [numberToken]
  | negative => simp [numberToken]
  | word =>
    dsimp only
    unfold wordToken
    split <;> simp
  | symbol => simp [single]

theorem Cuts.token_ne_eof {p : Piece} {rest : List Char} (h : Cuts p rest) : p.token ≠ .eof := by
  obtain ⟨c, text, -, hread⟩ := h.token
  exact value_readToken_ne_eof hread

theorem CutsAll.token_ne_eof {ps : List Piece} {rest : List Char} (h : CutsAll ps rest) :
    ∀ p ∈ ps, p.token ≠ .eof := by
  induction ps with
  | nil => simp
  | cons p ps ih => exact List.forall_mem_cons.mpr ⟨h.1.token_ne_eof, ih h.2⟩

/-- The last gap of a script that is scanned to its end. -/
theorem isGap_of_ending {cs gap : List Char} (h : (scan cs).ending = .complete gap) :
    IsGap gap := by
  fun_induction scan cs with
  | case1 cs hgap =>
    cases h
    exact isGap_splitGap cs
  | case2 => cases h
  | case3 cs c rest hgap r hread more ih => exact ih h

theorem IsGap.scan {gap : List Char} (h : IsGap gap) : scan gap = ⟨[], .complete gap⟩ := by
  rw [IsGap] at h
  rw [scan_of_splitGap (congrArg Prod.snd h), h]

/-! ## Lexemes -/

theorem map_toPiece_locate (position : Text.Position) (offset : Nat) (ps : List Piece) :
    (locate position offset ps).map (·.toPiece) = ps := by
  induction ps generalizing position offset with
  | nil => rfl
  | cons p ps ih => rw [locate, List.map_cons, ih]

/-- The lexemes of a script are its pieces, which are cut off one after the other up to a last gap,
and the mark of the end. -/
theorem tokenize_eq_ok {script : String} {lexemes : List Lexeme} :
    tokenize script = .ok lexemes ↔
      ∃ ps gap, script.toList = ps.flatMap Piece.span ++ gap ∧ CutsAll ps gap ∧ IsGap gap ∧
        lexemes = locate .start 0 (ps ++ [⟨gap, [], .eof⟩]) := by
  constructor
  · intro h
    have hcuts := cutsAll_scan script.toList
    have hspan := span_scan script.toList
    unfold tokenize at h
    dsimp only at h
    split at h
    · next gap hending =>
      cases h
      rw [Scan.span, hending] at hspan
      rw [hending] at hcuts
      exact ⟨_, gap, hspan.symm, hcuts, isGap_of_ending hending, rfl⟩
    · cases h
  · rintro ⟨ps, gap, hscript, hcuts, hgap, rfl⟩
    have hscan := hcuts.scan
    rw [hgap.scan, List.append_nil, ← hscript] at hscan
    rw [tokenize, hscan]

/-- The pieces of the lexemes of a script are cut off one after the other, and the mark of the end
comes after them. -/
theorem cutsAll_tokenize {script : String} {lexemes : List Lexeme}
    (h : tokenize script = .ok lexemes) :
    ∃ ps gap, lexemes.map (·.toPiece) = ps ++ [⟨gap, [], .eof⟩] ∧ CutsAll ps gap := by
  obtain ⟨ps, gap, -, hcuts, -, rfl⟩ := tokenize_eq_ok.mp h
  exact ⟨ps, gap, map_toPiece_locate _ _ _, hcuts⟩

/-- Only the last lexeme of a script marks the end. -/
theorem token_ne_eof_of_tokenize {script : String} {lexemes : List Lexeme}
    (h : tokenize script = .ok lexemes) : ∀ l ∈ lexemes.dropLast, l.token ≠ .eof := by
  intro l hl heof
  obtain ⟨ps, gap, hpieces, hcuts⟩ := cutsAll_tokenize h
  have hmem : l.toPiece ∈ ps := by
    have hinit := List.mem_map_of_mem (f := (·.toPiece)) hl
    rwa [List.map_dropLast, hpieces, List.dropLast_concat] at hinit
  exact hcuts.token_ne_eof _ hmem heof

/-- A text that is made up of pieces which are cut off one after the other has their lexemes. -/
theorem tokenize_of_cutsAll {script : String} {ps : List Piece} (h : CutsAll ps [])
    (hscript : script.toList = ps.flatMap Piece.span) :
    ∃ lexemes, tokenize script = .ok lexemes ∧
      lexemes.map (·.toPiece) = ps ++ [⟨[], [], .eof⟩] := by
  rw [← List.append_nil (ps.flatMap Piece.span)] at hscript
  exact ⟨_, tokenize_eq_ok.mpr ⟨ps, [], hscript, h, isGap_nil, rfl⟩, map_toPiece_locate _ _ _⟩

end Sql
end Schemata
