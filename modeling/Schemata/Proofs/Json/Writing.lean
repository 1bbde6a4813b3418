/-
Reading what was written.  The compact writing of a value is cut into the tokens of the value, and
these are put together to the value again.
-/
import Schemata.Json.Printer
import Schemata.Json.Reader
import Schemata.Proofs.Forall2

namespace Schemata
namespace Json

/-! ## Strings -/

theorem unit?_control {n : Nat} (h : n < 0x20) :
    unit? '0' '0' (Nat.digitChar (n / 16)) (Nat.digitChar (n % 16)) = some n := by
  have hall : ∀ n < 0x20,
      unit? '0' '0' (Nat.digitChar (n / 16)) (Nat.digitChar (n % 16)) = some n := by decide
  exact hall n h

theorem characters_char (c : Char) (es : List Element) :
    characters (.char c :: es) = (characters es).map (c :: ·) := rfl

/-- The number of a character that is no half of a surrogate pair stands for the character. -/
theorem characters_unit {n : Nat} (h : n < 0xD800) (es : List Element) :
    characters (.unit n :: es) = (characters es).map (Char.ofNat n :: ·) := by
  have hhigh : isHighSurrogate n = false :=
    Bool.and_eq_false_imp.mpr fun hle => absurd (of_decide_eq_true hle) (by omega)
  have hlow : isLowSurrogate n = false :=
    Bool.and_eq_false_imp.mpr fun hle => absurd (of_decide_eq_true hle) (by omega)
  cases es with
  | nil => simp [characters, hhigh, hlow]
  | cons e es => cases e <;> simp [characters, hhigh, hlow]

theorem elements_escaped {c d : Char} (hd : d ≠ 'u') (hc : escaped? d = some c) (cs : List Char) :
    elements ('\\' :: d :: cs) = (elements cs).map fun r => (.char c :: r.1, r.2) := by
  rw [elements]
  · rw [hc]
    cases elements cs <;> rfl
  · intro a b c' d' rest hu
    exact absurd hu hd

theorem elements_unit {a b c d : Char} {n : Nat} (h : unit? a b c d = some n) (cs : List Char) :
    elements ('\\' :: 'u' :: a :: b :: c :: d :: cs) =
      (elements cs).map fun r => (.unit n :: r.1, r.2) := by
  rw [elements, h]
  cases elements cs <;> rfl

theorem elements_plain {c : Char} (hquote : c ≠ '"') (hslash : c ≠ '\\')
    (hcontrol : ¬c.toNat < 0x20) (cs : List Char) :
    elements (c :: cs) = (elements cs).map fun r => (.char c :: r.1, r.2) := by
  rw [elements, if_neg hcontrol]
  · cases elements cs <;> rfl
  · exact hquote
  · exact fun _ _ _ _ _ h => absurd h hslash
  · exact fun _ _ h => absurd h hslash

/-- Every character is written as one element, which stands for the character. -/
theorem exists_element (c : Char) :
    ∃ e, (∀ cs, elements (escape c ++ cs) = (elements cs).map fun r => (e :: r.1, r.2)) ∧
      ∀ es, characters (e :: es) = (characters es).map (c :: ·) := by
  unfold escape
  split
  · next hc => subst hc; exact ⟨_, elements_escaped (by decide) rfl, characters_char _⟩
  split
  · next hc => subst hc; exact ⟨_, elements_escaped (by decide) rfl, characters_char _⟩
  split
  · next hc => subst hc; exact ⟨_, elements_escaped (by decide) rfl, characters_char _⟩
  split
  · next hc => subst hc; exact ⟨_, elements_escaped (by decide) rfl, characters_char _⟩
  split
  · next hc => subst hc; exact ⟨_, elements_escaped (by decide) rfl, characters_char _⟩
  split
  · next hc => subst hc; exact ⟨_, elements_escaped (by decide) rfl, characters_char _⟩
  split
  · next hc => subst hc; exact ⟨_, elements_escaped (by decide) rfl, characters_char _⟩
  split
  · next hcontrol =>
    refine ⟨_, elements_unit (unit?_control hcontrol), fun es => ?_⟩
    rw [characters_unit (by omega), Char.ofNat_toNat]
  · next hquote hslash _ _ _ _ _ hcontrol =>
    exact ⟨_, elements_plain hquote hslash hcontrol, characters_char c⟩

theorem exists_elements (cs rest : List Char) :
    ∃ es, elements (cs.flatMap escape ++ '"' :: rest) = some (es, rest) ∧
      characters es = some cs := by
  induction cs with
  | nil => exact ⟨[], rfl, rfl⟩
  | cons c cs ih =>
    obtain ⟨es, hes, hcs⟩ := ih
    obtain ⟨e, helements, hcharacters⟩ := exists_element c
    refine ⟨e :: es, ?_, ?_⟩
    · rw [List.flatMap_cons, List.append_assoc, helements, hes]
      rfl
    · rw [hcharacters, hcs]
      rfl

/-! ## Tokens -/

/-- What follows does not go on with a number. -/
def Stops (rest : List Char) : Prop := ∀ c ∈ rest.head?, isNumeral c = false

/-- In front of whatever does not go on with a number, the text is cut into the tokens. -/
def Lexes (cs : List Char) (ts : List Token) : Prop :=
  ∀ rest, Stops rest → tokens? (cs ++ rest) = (tokens? rest).map (ts ++ ·)

/-- The values that have a writing: the spellings of their numbers are numbers, and they hold no
broken texts. -/
inductive Written : Json → Prop
  | null : Written null
  | bool (b : Bool) : Written (bool b)
  | number {spelling : String} (h : (numeral? spelling.toList).isSome)
    (hall : ∀ c ∈ spelling.toList, isNumeral c = true) : Written (number spelling)
  | text (value : String) : Written (text value)
  | array {items : List Json} (h : ∀ v ∈ items, Written v) : Written (array items)
  | object {members : List (Option String × Json)} (hnames : ∀ m ∈ members, m.1.isSome)
    (h : ∀ m ∈ members, Written m.2) : Written (object members)

section

variable {c : Char} {cs rest : List Char} {ts : List Token} {t : Token}

theorem tokens?_of_token? (hspace : isSpace c = false) (h : token? (c :: cs) = some (t, rest)) :
    tokens? (c :: cs) = (tokens? rest).map (t :: ·) := by
  rw [tokens?, if_neg (by rw [hspace]; exact Bool.false_ne_true)]
  split
  · next hsome =>
    rw [h] at hsome
    cases hsome
    rfl
  · next hnone =>
    rw [h] at hnone
    cases hnone

theorem stops_cons (h : isNumeral c = false) : Stops (c :: rest) := by
  intro d hd
  cases hd
  exact h

theorem stops_nil : Stops [] := by
  intro d hd
  cases hd

end

/-- A run of characters of one sort, up to one of another sort. -/
theorem takeWhile_run {p : Char → Bool} {cs rest : List Char} (hall : ∀ c ∈ cs, p c = true)
    (hrest : ∀ c ∈ rest.head?, p c = false) :
    (cs ++ rest).takeWhile p = cs ∧ (cs ++ rest).dropWhile p = rest := by
  rw [List.takeWhile_append_of_pos hall, List.dropWhile_append_of_pos hall]
  cases rest with
  | nil => exact ⟨List.append_nil cs, rfl⟩
  | cons d rest =>
    have hd : ¬p d = true := by
      rw [hrest d rfl]
      exact Bool.false_ne_true
    rw [List.takeWhile_cons_of_neg hd, List.dropWhile_cons_of_neg hd, List.append_nil]
    exact ⟨rfl, rfl⟩

/-! ### Marks, words, strings and numbers -/

section

variable {c : Char} {cs cs' : List Char} {ts ts' : List Token} {t : Token}

theorem lexes_nil : Lexes [] [] := by
  intro rest _
  cases h : tokens? rest <;> simp [h]

theorem Lexes.mark (hspace : isSpace c = false) (hmark : ∀ rest, token? (c :: rest) = some (t, rest))
    (h : Lexes cs ts) : Lexes (c :: cs) (t :: ts) := by
  intro rest hrest
  rw [List.cons_append, tokens?_of_token? hspace (hmark _), h rest hrest, Option.map_map]
  rfl

theorem Lexes.append (h : Lexes cs ts) (hc : isNumeral c = false) (h' : Lexes (c :: cs') ts') :
    Lexes (cs ++ c :: cs') (ts ++ ts') := by
  intro rest hrest
  rw [List.append_assoc, List.cons_append, h _ (stops_cons hc), ← List.cons_append, h' rest hrest,
    Option.map_map]
  cases tokens? rest <;> simp

theorem lexes_null : Lexes ['n', 'u', 'l', 'l'] [.null] := fun _ _ => tokens?_of_token? rfl rfl

theorem lexes_true : Lexes ['t', 'r', 'u', 'e'] [.bool true] :=
  fun _ _ => tokens?_of_token? rfl rfl

theorem lexes_false : Lexes ['f', 'a', 'l', 's', 'e'] [.bool false] :=
  fun _ _ => tokens?_of_token? rfl rfl

theorem lexes_quote (s : String) : Lexes (quote s) [.string (some s)] := by
  intro rest _
  obtain ⟨es, hes, hcs⟩ := exists_elements s.toList rest
  have htoken : token? ('"' :: (s.toList.flatMap escape ++ '"' :: rest)) =
      some (.string (some s), rest) := by
    show (elements (s.toList.flatMap escape ++ '"' :: rest)).map _ = _
    rw [hes, Option.map_some]
    show some (Token.string ((characters es).map String.ofList), rest) = _
    rw [hcs, Option.map_some, String.ofList_toList]
  have hquote : quote s ++ rest = '"' :: (s.toList.flatMap escape ++ '"' :: rest) := by
    simp [quote]
  rw [hquote, tokens?_of_token? rfl htoken]
  rfl

theorem ne_of_isNumeral {d : Char} (hc : isNumeral c = true) (hd : isNumeral d = false) :
    c ≠ d := by
  rintro rfl
  rw [hd] at hc
  cases hc

/-- A character of numbers is no other mark. -/
theorem token?_number (hnumber : (numeral? (c :: cs)).isSome)
    (hall : ∀ d ∈ c :: cs, isNumeral d = true) {rest : List Char} (hrest : Stops rest) :
    token? (c :: (cs ++ rest)) = some (.number (c :: cs), rest) := by
  obtain ⟨hc, hcs⟩ := List.forall_mem_cons.mp hall
  have hne : ∀ d, isNumeral d = false → c ≠ d := fun d => ne_of_isNumeral hc
  obtain ⟨htake, hdrop⟩ := takeWhile_run hcs hrest
  obtain ⟨n, hn⟩ := Option.isSome_iff_exists.mp hnumber
  simp only [token?, if_neg (hne '\x7b' rfl), if_neg (hne '\x7d' rfl), if_neg (hne '[' rfl),
    if_neg (hne ']' rfl), if_neg (hne ':' rfl), if_neg (hne ',' rfl), if_neg (hne '"' rfl), if_pos hc]
  rw [htake, hdrop, hn]
  rfl

theorem lexes_number {cs : List Char} (hnumber : (numeral? cs).isSome)
    (hall : ∀ d ∈ cs, isNumeral d = true) : Lexes cs [.number cs] := by
  intro rest hrest
  cases cs with
  | nil => cases hnumber
  | cons c cs =>
    have hspace : isSpace c = false := by
      have hne : ∀ d, isNumeral d = false → c ≠ d :=
        fun d => ne_of_isNumeral (List.forall_mem_cons.mp hall).1
      simp [isSpace, hne ' ' rfl, hne '\t' rfl, hne '\n' rfl, hne '\r' rfl]
    rw [List.cons_append, tokens?_of_token? hspace (token?_number hnumber hall hrest)]
    rfl

end

/-! ### Containers -/

/-- The tokens of several items with commas between them. -/
def separated : List (List Token) → List Token
  | [] => []
  | ts :: tss => ts ++ tss.flatMap (.comma :: ·)

theorem joined_cons (cs : List Char) (css : List (List Char)) :
    joined [','] (cs :: css) = cs ++ css.flatMap (',' :: ·) := by
  induction css generalizing cs with
  | nil => simp [joined]
  | cons cs' css ih =>
    rw [joined, ih]
    · simp
    · exact List.cons_ne_nil _ _

section

variable {css : List (List Char)} {tss : List (List Token)} {closing : Char} {closed : Token}

/-- Items with a comma in front of each of them, up to the end of the container. -/
theorem lexes_more (hnumeral : isNumeral closing = false) (hspace : isSpace closing = false)
    (hclosing : ∀ rest, token? (closing :: rest) = some (closed, rest))
    (h : List.Forall₂ Lexes css tss) :
    ∃ c cs, css.flatMap (',' :: ·) ++ [closing] = c :: cs ∧ isNumeral c = false ∧
      Lexes (c :: cs) (tss.flatMap (.comma :: ·) ++ [closed]) := by
  induction h with
  | nil => exact ⟨closing, [], rfl, hnumeral, lexes_nil.mark hspace hclosing⟩
  | @cons cs ts css tss hcs _ ih =>
    obtain ⟨c, cs', heq, hc, hmore⟩ := ih
    refine ⟨',', cs ++ c :: cs', ?_, rfl, ?_⟩
    · rw [List.flatMap_cons, List.append_assoc, heq]
      rfl
    · rw [List.flatMap_cons, List.append_assoc]
      exact (hcs.append hc hmore).mark rfl fun _ => rfl

theorem lexes_container {opening : Char} {opened : Token} (hopenSpace : isSpace opening = false)
    (hopening : ∀ rest, token? (opening :: rest) = some (opened, rest))
    (hnumeral : isNumeral closing = false) (hspace : isSpace closing = false)
    (hclosing : ∀ rest, token? (closing :: rest) = some (closed, rest))
    (h : List.Forall₂ Lexes css tss) :
    Lexes ([opening] ++ joined [','] css ++ [closing]) (opened :: (separated tss ++ [closed])) := by
  cases h with
  | nil => exact (lexes_nil.mark hspace hclosing).mark hopenSpace hopening
  | @cons cs ts css tss hcs hcss =>
    obtain ⟨c, cs', heq, hc, hmore⟩ := lexes_more hnumeral hspace hclosing hcss
    rw [joined_cons, separated, List.append_assoc, List.append_assoc, heq, List.append_assoc]
    exact (hcs.append hc hmore).mark hopenSpace hopening

end

/-! ## Values -/

/-- The tokens are put together to the value, wherever a value may come. -/
structure Builds (v : Json) (ts : List Token) : Prop where
  value : ∀ rest frames, build (ts ++ rest) .value frames = build rest (.next v) frames
  firstItem : ∀ rest frames, build (ts ++ rest) .firstItem frames = build rest (.next v) frames

/-- The writing of the value is cut into tokens that are put together to the value. -/
def Readable (v : Json) : Prop := ∃ ts, Lexes (compactChars v) ts ∧ Builds v ts

theorem build_items {items : List Json} {tss : List (List Token)}
    (h : List.Forall₂ Builds items tss) (v : Json) (before : List Json) (rest : List Token)
    (frames : List Frame) :
    build (tss.flatMap (.comma :: ·) ++ .closeBracket :: rest) (.next v) (.array before :: frames) =
      build rest (.next (.array (before.reverse ++ v :: items))) frames := by
  induction h generalizing v before with
  | nil => simp [build]
  | @cons w ts items tss hw _ ih =>
    rw [List.flatMap_cons, List.append_assoc, List.cons_append, build, hw.value, ih]
    simp

/-- A member is put together from its name, a colon and its value. -/
def BuildsMember (m : Option String × Json) (ts : List Token) : Prop :=
  ∃ ts', ts = .string m.1 :: .colon :: ts' ∧ Builds m.2 ts'

theorem build_members {members : List (Option String × Json)} {tss : List (List Token)}
    (h : List.Forall₂ BuildsMember members tss) (name : Option String) (v : Json)
    (before : List (Option String × Json)) (rest : List Token) (frames : List Frame) :
    build (tss.flatMap (.comma :: ·) ++ .closeBrace :: rest) (.next v)
        (.object before name :: frames) =
      build rest (.next (.object (before.reverse ++ (name, v) :: members))) frames := by
  induction h generalizing name v before with
  | nil => simp [build]
  | @cons m ts members tss hm _ ih =>
    obtain ⟨ts', rfl, hv⟩ := hm
    simp only [List.flatMap_cons, List.append_assoc, List.cons_append, build]
    rw [hv.value, ih]
    simp

theorem builds_array {items : List Json} {tss : List (List Token)}
    (h : List.Forall₂ Builds items tss) :
    Builds (.array items) (.openBracket :: (separated tss ++ [.closeBracket])) := by
  have hbuild : ∀ rest frames, build (separated tss ++ .closeBracket :: rest) .firstItem
      (.array [] :: frames) = build rest (.next (.array items)) frames := by
    intro rest frames
    cases h with
    | nil => simp [separated, build]
    | cons hv hitems => rw [separated, List.append_assoc, hv.firstItem, build_items hitems]; rfl
  refine ⟨fun rest frames => ?_, fun rest frames => ?_⟩
  · rw [List.cons_append, List.append_assoc, build]
    exact hbuild rest frames
  · rw [List.cons_append, List.append_assoc, build]
    exact hbuild rest frames

theorem builds_object {members : List (Option String × Json)} {tss : List (List Token)}
    (h : List.Forall₂ BuildsMember members tss) :
    Builds (.object members) (.openBrace :: (separated tss ++ [.closeBrace])) := by
  have hbuild : ∀ rest frames, build (separated tss ++ .closeBrace :: rest) .firstName frames =
      build rest (.next (.object members)) frames := by
    intro rest frames
    cases h with
    | nil => simp [separated, build]
    | cons hm hmembers =>
      obtain ⟨ts', rfl, hv⟩ := hm
      simp only [separated, List.cons_append, List.append_assoc, build]
      rw [hv.value, build_members hmembers]
      rfl
  refine ⟨fun rest frames => ?_, fun rest frames => ?_⟩
  · rw [List.cons_append, List.append_assoc, build]
    exact hbuild rest frames
  · rw [List.cons_append, List.append_assoc, build]
    exact hbuild rest frames

theorem compactItems_eq_map (items : List Json) : compactItems items = items.map compactChars := by
  induction items with
  | nil => rfl
  | cons v items ih => rw [compactItems, ih, List.map_cons]

theorem compactMembers_eq_map (members : List (Option String × Json)) :
    compactMembers members = members.map fun m => quoteName m.1 ++ [':'] ++ compactChars m.2 := by
  induction members with
  | nil => rfl
  | cons m members ih => rw [compactMembers, ih, List.map_cons]

theorem readable_array {items : List Json} (h : ∀ v ∈ items, Readable v) :
    Readable (.array items) := by
  obtain ⟨tss, htss⟩ := exists_forall₂_iff.mpr h
  have hlexes : List.Forall₂ Lexes (compactItems items) tss := by
    rw [compactItems_eq_map, List.forall₂_map_left_iff]
    exact htss.imp fun _ _ => And.left
  refine ⟨_, ?_, builds_array (htss.imp fun _ _ => And.right)⟩
  rw [compactChars]
  exact lexes_container rfl (fun _ => rfl) rfl rfl (fun _ => rfl) hlexes

theorem readable_object {members : List (Option String × Json)}
    (hnames : ∀ m ∈ members, m.1.isSome) (h : ∀ m ∈ members, Readable m.2) :
    Readable (.object members) := by
  have hmembers : ∀ m ∈ members, ∃ ts, Lexes (quoteName m.1 ++ [':'] ++ compactChars m.2) ts ∧
      BuildsMember m ts := by
    intro m hm
    obtain ⟨ts, hlexes, hbuilds⟩ := h m hm
    obtain ⟨name, hname⟩ := Option.isSome_iff_exists.mp (hnames m hm)
    refine ⟨_, ?_, ts, rfl, hbuilds⟩
    rw [hname, List.append_assoc]
    exact (lexes_quote name).append rfl (hlexes.mark rfl fun _ => rfl)
  obtain ⟨tss, htss⟩ := exists_forall₂_iff.mpr hmembers
  have hlexes : List.Forall₂ Lexes (compactMembers members) tss := by
    rw [compactMembers_eq_map, List.forall₂_map_left_iff]
    exact htss.imp fun _ _ => And.left
  refine ⟨_, ?_, builds_object (htss.imp fun _ _ => And.right)⟩
  rw [compactChars]
  exact lexes_container rfl (fun _ => rfl) rfl rfl (fun _ => rfl) hlexes

theorem Written.readable {v : Json} (h : Written v) : Readable v := by
  induction h with
  | null => exact ⟨_, lexes_null, fun _ _ => rfl, fun _ _ => rfl⟩
  | bool b =>
    cases b with
    | false => exact ⟨_, lexes_false, fun _ _ => rfl, fun _ _ => rfl⟩
    | true => exact ⟨_, lexes_true, fun _ _ => rfl, fun _ _ => rfl⟩
  | @number spelling hnumber hall =>
    have hbuilds : Builds (.number spelling) [.number spelling.toList] := by
      refine ⟨fun rest frames => ?_, fun rest frames => ?_⟩
      · rw [List.singleton_append, build, String.ofList_toList]
      · rw [List.singleton_append, build, String.ofList_toList]
    exact ⟨_, lexes_number hnumber hall, hbuilds⟩
  | text value => exact ⟨_, lexes_quote value, fun _ _ => rfl, fun _ _ => rfl⟩
  | array _ ih => exact readable_array ih
  | object hnames _ ih => exact readable_object hnames ih

/-- What is written compactly is read again. -/
theorem parse?_compact {v : Json} (h : Written v) : Json.parse? v.compact = some v := by
  obtain ⟨ts, hlexes, hbuilds⟩ := h.readable
  have htokens : tokens? v.compact.toList = some ts := by
    have hts := hlexes [] stops_nil
    rw [List.append_nil] at hts
    rw [compact, String.toList_ofList, hts, tokens?]
    simp
  have hbuild := hbuilds.value [] []
  rw [List.append_nil] at hbuild
  rw [Json.parse?, htokens]
  exact hbuild

end Json
end Schemata
