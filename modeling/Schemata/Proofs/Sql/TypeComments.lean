/-
Comments in the names of types.  The parameters of a type are taken from the text of the script,
and blanks are left out of them, but comments are not.  Only the type `TINYINT` of the dialect
mysql is told by its parameters, so a comment changes no other type.
-/
import Schemata.Proofs.Sql.BareWords
import Schemata.Proofs.Sql.Similar

namespace Schemata
namespace Sql

open Relocation (nowhere)

open Text (lower squeeze)

/-! ## Comments in parameters -/

/-- The lexemes in the parameters of a type whose name goes on as given, inside of `depth`
parentheses.  The parenthesis that opens parameters is not among them, since the gap in front of it
is no part of the name. -/
def parameters : Nat → List Lexeme → List Lexeme
  | _, [] => []
  | 0, l :: rest =>
    match l.token with
    | .ident _ => parameters 0 rest
    | .leftParen => parameters 1 rest
    | _ => []
  | depth + 1, l :: rest =>
    l :: parameters
      (match l.token with
        | .leftParen => depth + 2
        | .rightParen => depth
        | _ => depth + 1) rest

/-- The comments in the parameters of a type whose name goes on as given. -/
def comments (ts : List Lexeme) : List (List Char) := (parameters 0 ts).map (squeeze ·.gap)

def isTinyint : Token → Bool
  | .ident word => lower word.toList == "tinyint".toList
  | _ => false

/-- The comments in the parameters of all types `TINYINT`, one list for each of them. -/
def tinyintComments : List Lexeme → List (List (List Char))
  | [] => []
  | l :: rest =>
    if isTinyint l.token then comments rest :: tinyintComments rest else tinyintComments rest

theorem parameters_relocated (depth : Nat) (ts : List Lexeme) :
    parameters depth (nowhere.lexemes ts) = nowhere.lexemes (parameters depth ts) := by
  induction ts generalizing depth with
  | nil => cases depth <;> rfl
  | cons l rest ih =>
    rw [nowhere.lexemes_cons]
    cases depth with
    | zero =>
      rw [parameters, parameters, nowhere.token_relocated]
      split
      · exact ih 0
      · exact ih 1
      · rfl
    | succ depth => exact congrArg (nowhere.lexeme l :: ·) (ih _)

theorem exists_parameters_append (depth : Nat) (ts us : List Lexeme) :
    ∃ more, parameters depth (ts ++ us) = parameters depth ts ++ more := by
  induction ts generalizing depth with
  | nil => exact ⟨parameters depth us, by cases depth <;> rfl⟩
  | cons l rest ih =>
    rw [List.cons_append]
    cases depth with
    | zero =>
      rw [parameters, parameters]
      split
      · exact ih 0
      · exact ih 1
      · exact ⟨[], rfl⟩
    | succ depth =>
      obtain ⟨more, hmore⟩ := ih _
      exact ⟨more, congrArg (l :: ·) hmore⟩

/-- A group in parentheses holds parameters. -/
theorem parameters_closeGroup {depth : Nat} {ts group rest : List Lexeme}
    (h : closeGroup depth ts = .ok (group, rest)) :
    parameters (depth + 1) ts = group ++ parameters 0 rest := by
  fun_induction closeGroup depth ts generalizing group rest with
  | case1 => exact absurd h fail_ne_ok
  | case2 l tail hl =>
    cases h
    rw [parameters, hl]
    rfl
  | case3 l tail depth hl ih =>
    obtain ⟨⟨g, r⟩, h₁, h₂⟩ := ok_of_bind h
    cases h₂
    rw [parameters, hl]
    exact congrArg (l :: ·) (ih h₁)
  | case4 l tail depth hl ih =>
    obtain ⟨⟨g, r⟩, h₁, h₂⟩ := ok_of_bind h
    cases h₂
    rw [parameters, hl]
    exact congrArg (l :: ·) (ih h₁)
  | case5 l tail depth hclose hmore hopen ih =>
    obtain ⟨⟨g, r⟩, h₁, h₂⟩ := ok_of_bind h
    cases h₂
    rw [parameters]
    split
    · next hl => exact absurd hl hopen
    · next hl =>
      cases depth with
      | zero => exact absurd rfl (hclose hl)
      | succ depth => exact absurd rfl (hmore depth hl)
    · exact congrArg (l :: ·) (ih h₁)

theorem parameters_readGroup {ts group rest : List Lexeme} (h : readGroup ts = .ok (group, rest)) :
    ∃ l inner, ts = l :: (inner ++ rest) ∧ group = l :: inner ∧ l.token = .leftParen ∧
      parameters 0 ts = inner ++ parameters 0 rest := by
  unfold readGroup at h
  split at h
  · exact absurd h fail_ne_ok
  · next l tail =>
    split at h
    · next hl =>
      obtain ⟨⟨inner, after⟩, h₁, h₂⟩ := ok_of_bind h
      cases h₂
      refine ⟨l, inner, ?_, rfl, hl, ?_⟩
      · rw [(closeGroup_append h₁).1]
      · rw [parameters, hl]
        exact parameters_closeGroup h₁
    · exact absurd h fail_ne_ok

/-! ## Lexemes with other comments -/

section

variable {ts ts' us us' : List Lexeme}

theorem unplaced_append (ts us : List Lexeme) :
    nowhere.lexemes (ts ++ us) = nowhere.lexemes ts ++ nowhere.lexemes us :=
  List.map_append ..

theorem length_parameters_congr (h : nowhere.lexemes ts = nowhere.lexemes us) (depth : Nat) :
    (parameters depth ts).length = (parameters depth us).length :=
  length_eq_of_unplaced (by rw [← parameters_relocated, h, parameters_relocated])

/-- The same comments in longer parameters are the same comments in these. -/
theorem comments_of_append (h : nowhere.lexemes ts = nowhere.lexemes us)
    (hcomments : comments (ts ++ ts') = comments (us ++ us')) : comments ts = comments us := by
  obtain ⟨more, hmore⟩ := exists_parameters_append 0 ts ts'
  obtain ⟨more', hmore'⟩ := exists_parameters_append 0 us us'
  rw [comments, comments, hmore, hmore', List.map_append, List.map_append] at hcomments
  refine (List.append_inj hcomments ?_).1
  rw [List.length_map, List.length_map, length_parameters_congr h]

theorem tinyintComments_of_append (h : nowhere.lexemes ts = nowhere.lexemes us)
    (hcomments : tinyintComments (ts ++ ts') = tinyintComments (us ++ us')) :
    tinyintComments ts = tinyintComments us ∧ tinyintComments ts' = tinyintComments us' := by
  induction ts generalizing us with
  | nil =>
    obtain rfl : us = [] := List.map_eq_nil_iff.mp h.symm
    exact ⟨rfl, hcomments⟩
  | cons l ts ih =>
    cases us with
    | nil => cases h
    | cons k us =>
      obtain ⟨htoken, -, htail⟩ := of_unplaced_cons h
      rw [List.cons_append, List.cons_append, tinyintComments, tinyintComments, htoken] at hcomments
      rw [tinyintComments, tinyintComments, htoken]
      split at hcomments
      · next hk =>
        obtain ⟨hthis, hmore⟩ := List.cons.inj hcomments
        obtain ⟨hrest, hafter⟩ := ih htail hmore
        rw [if_pos hk, if_pos hk, hrest, comments_of_append htail hthis]
        exact ⟨rfl, hafter⟩
      · next hk =>
        rw [if_neg hk, if_neg hk]
        exact ih htail hcomments

end

/-! ## Names of types -/

/-- The texts are the same in front of the first parenthesis in either. -/
def SameStem (a b : List Char) : Prop :=
  a = b ∨ ∃ stem x y, a = stem ++ '(' :: x ∧ b = stem ++ '(' :: y

namespace SameStem

variable {a b : List Char}

theorem isEmpty_eq (h : SameStem a b) : a.isEmpty = b.isEmpty := by
  rcases h with rfl | ⟨stem, x, y, rfl, rfl⟩
  · rfl
  · cases stem <;> rfl

theorem append (h : SameStem a b) (cs : List Char) : SameStem (a ++ cs) (b ++ cs) := by
  rcases h with rfl | ⟨stem, x, y, rfl, rfl⟩
  · exact .inl rfl
  · exact .inr ⟨stem, x ++ cs, y ++ cs, List.append_assoc .., List.append_assoc ..⟩

theorem paren (h : SameStem a b) (cs ds : List Char) :
    SameStem (a ++ '(' :: cs) (b ++ '(' :: ds) := by
  rcases h with rfl | ⟨stem, x, y, rfl, rfl⟩
  · exact .inr ⟨a, cs, ds, rfl, rfl⟩
  · exact .inr ⟨stem, x ++ '(' :: cs, y ++ '(' :: ds, List.append_assoc .., List.append_assoc ..⟩

theorem takeWhile_paren (stem x : List Char) :
    (stem ++ '(' :: x).takeWhile (· != '(') = stem.takeWhile (· != '(') := by
  induction stem with
  | nil => rfl
  | cons c stem ih => rw [List.cons_append, List.takeWhile_cons, List.takeWhile_cons, ih]

/-- The words in front of the parameters are the same. -/
theorem leadingWords_eq (h : SameStem a b) :
    TypeName.leadingWords (lower a) = TypeName.leadingWords (lower b) := by
  rcases h with rfl | ⟨stem, x, y, rfl, rfl⟩
  · rfl
  · have hstem : ∀ x, TypeName.leadingWords (lower (stem ++ '(' :: x)) =
        TypeName.leadingWords (lower stem) := by
      intro x
      rw [TypeName.leadingWords, Text.lower_append, TypeName.leadingWords]
      exact congrArg (fun cs => (Text.words cs).map String.ofList) (takeWhile_paren _ _)
    rw [hstem, hstem]

end SameStem

theorem ofWords?_congr {dialect : Dialect} {words : List String}
    (h : dialect = .mysql → words.head? ≠ some "tinyint") (whole whole' : List Char) :
    TypeName.ofWords? dialect whole words = TypeName.ofWords? dialect whole' words := by
  cases dialect with
  | generic => rfl
  | postgres => rfl
  | mysql =>
    have hne : (words == ["tinyint"]) = false := by
      rw [beq_eq_false_iff_ne]
      rintro rfl
      exact h rfl rfl
    rw [TypeName.ofWords?, TypeName.ofWords?, hne]
    rfl

/-- Without the type `TINYINT` of the dialect mysql, only the words in front of the parameters
count. -/
theorem toType?_congr {dialect : Dialect} {a b : List Char} (h : SameStem a b)
    (htinyint : dialect = .mysql →
      (TypeName.leadingWords (lower a)).head? ≠ some "tinyint") :
    TypeName.toType? dialect (String.ofList a) = TypeName.toType? dialect (String.ofList b) := by
  rw [TypeName.toType?, TypeName.toType?, String.toList_ofList, String.toList_ofList]
  rw [← h.leadingWords_eq]
  congr 1
  funext n
  refine ofWords?_congr (fun hmysql => ?_) _ _
  rw [List.head?_take, if_neg (Nat.succ_ne_zero n)]
  exact htinyint hmysql

/-- What two readings of a type have in common as they go on: `J raw raw' ts us` is to hold of what
they have read and the lexemes they go on with. -/
structure Carried (J : List Char → List Char → List Lexeme → List Lexeme → Prop) : Prop where
  isEmpty {raw raw' : List Char} {ts us : List Lexeme} (h : J raw raw' ts us) :
    raw.isEmpty = raw'.isEmpty
  word {raw raw' : List Char} {l k : Lexeme} {ts us : List Lexeme} {word : String}
    (h : J raw raw' (l :: ts) (k :: us)) (hl : l.token = .ident word) (hk : k.token = .ident word)
    (sep : List Char) (hsep : sep = if raw.isEmpty then [] else [' ']) :
    J (raw ++ sep ++ word.toList) (raw' ++ sep ++ word.toList) ts us
  group {raw raw' : List Char} {ts us group group' rest rest' : List Lexeme}
    (h : J raw raw' ts us) (hts : readGroup ts = .ok (group, rest))
    (hus : readGroup us = .ok (group', rest'))
    (hgroup : nowhere.lexemes group = nowhere.lexemes group') :
    J (raw ++ squeeze (spell group)) (raw' ++ squeeze (spell group')) rest rest'

theorem agrees_readTypeName {J : List Char → List Char → List Lexeme → List Lexeme → Prop}
    (hJ : Carried J) {raw raw' : List Char} {ts us : List Lexeme} (h : J raw raw' ts us)
    (heq : nowhere.lexemes ts = nowhere.lexemes us) :
    Agrees Fault.kind (fun a b => J a.1 b.1 a.2 b.2 ∧ nowhere.lexemes a.2 = nowhere.lexemes b.2)
      (readTypeName raw ts) (readTypeName raw' us) := by
  match ts, us, h, heq with
  | [], [], h, heq =>
    rw [readTypeName, readTypeName]
    exact .ok ⟨h, heq⟩
  | [], k :: us, h, heq => cases heq
  | l :: ts, [], h, heq => cases heq
  | l :: ts, k :: us, h, heq =>
  obtain ⟨htoken, -, htail⟩ := of_unplaced_cons heq
  rw [readTypeName_cons, readTypeName_cons raw' k, htoken]
  split
  · next word hword =>
    rw [← hJ.isEmpty h]
    exact agrees_readTypeName hJ (hJ.word h (htoken.trans hword) hword _ rfl) htail
  · refine .ite (by rw [hJ.isEmpty h]) (.ok ⟨h, heq⟩) ?_
    refine (agrees_of_unplaced nowhere.readGroup_relocated heq).bind fun a b ha hb hab => ?_
    obtain ⟨hgroup, hrest⟩ := Prod.ext_iff.mp hab
    have hlt := length_readGroup ha
    exact agrees_readTypeName hJ (hJ.group h ha hb hgroup) hrest
  · exact .ok ⟨h, heq⟩
termination_by ts.length
decreasing_by
  · exact Nat.lt_succ_self _
  · exact hlt

theorem squeeze_append (cs ds : List Char) : squeeze (cs ++ ds) = squeeze cs ++ squeeze ds :=
  List.filter_append ..

theorem squeeze_flatMap_congr {ks ls : List Lexeme} (h : nowhere.lexemes ks = nowhere.lexemes ls)
    (hgaps : ks.map (squeeze ·.gap) = ls.map (squeeze ·.gap)) :
    squeeze (ks.flatMap fun l => l.gap ++ l.text) =
      squeeze (ls.flatMap fun l => l.gap ++ l.text) := by
  induction ks generalizing ls with
  | nil =>
    obtain rfl : ls = [] := List.map_eq_nil_iff.mp h.symm
    rfl
  | cons k ks ih =>
    cases ls with
    | nil => cases h
    | cons l ls =>
      obtain ⟨-, htext, htail⟩ := of_unplaced_cons h
      obtain ⟨hgap, hgaps⟩ : squeeze k.gap = squeeze l.gap ∧
          ks.map (squeeze ·.gap) = ls.map (squeeze ·.gap) := List.cons.inj hgaps
      rw [List.flatMap_cons, List.flatMap_cons, squeeze_append, squeeze_append, squeeze_append,
        squeeze_append, hgap, htext, ih htail hgaps]

/-- Neither the blanks in a group of parameters matter nor the gap in front of it. -/
theorem squeeze_spell_congr {k l : Lexeme} {ks ls : List Lexeme}
    (h : nowhere.lexemes (k :: ks) = nowhere.lexemes (l :: ls))
    (hgaps : ks.map (squeeze ·.gap) = ls.map (squeeze ·.gap)) :
    squeeze (spell (k :: ks)) = squeeze (spell (l :: ls)) := by
  obtain ⟨-, htext, htail⟩ := of_unplaced_cons h
  rw [spell, spell, squeeze_append, squeeze_append, htext, squeeze_flatMap_congr htail hgaps]

/-- With the same comments in its parameters, a type has the same name. -/
theorem carried_comments :
    Carried fun raw raw' ts us => raw = raw' ∧ comments ts = comments us where
  isEmpty h := by rw [h.1]
  word {raw raw' l k ts us word} h hl hk sep _ := by
    obtain ⟨rfl, hcomments⟩ := h
    rw [comments, comments, parameters, parameters, hl, hk] at hcomments
    exact ⟨rfl, hcomments⟩
  group {raw raw' ts us group group' rest rest'} h hts hus hgroup := by
    obtain ⟨rfl, hcomments⟩ := h
    obtain ⟨l, inner, -, rfl, -, hinner⟩ := parameters_readGroup hts
    obtain ⟨k, inner', -, rfl, -, hinner'⟩ := parameters_readGroup hus
    rw [comments, comments, hinner, hinner', List.map_append, List.map_append] at hcomments
    have hlength := length_eq_of_unplaced (of_unplaced_cons hgroup).2.2
    obtain ⟨hgaps, hrest⟩ := List.append_inj hcomments (by rwa [List.length_map, List.length_map])
    exact ⟨by rw [squeeze_spell_congr hgroup hgaps], hrest⟩

/-- A parenthesis is part of a name, so parameters begin with one. -/
theorem squeeze_spell_cons {l : Lexeme} (hl : l.text = ['(']) (ls : List Lexeme) :
    squeeze (spell (l :: ls)) =
      '(' :: squeeze (ls.flatMap fun l => l.gap ++ l.text) := by
  rw [spell, hl, squeeze_append]
  rfl

/-- Whatever the comments, the words in front of the parameters of a type are the same. -/
theorem carried_sameStem {first : List Char} (hfirst : first ≠ []) :
    Carried fun raw raw' ts _ =>
      SameStem raw raw' ∧ LeadsWith first raw ∧ ∀ l ∈ ts, l.toPiece.Verbatim where
  isEmpty h := h.1.isEmpty_eq
  word {raw raw' l k ts us word} h hl hk sep hsep := by
    obtain ⟨hstem, hleads, hverbatim⟩ := h
    have hraw : raw.isEmpty = false := by
      obtain ⟨tail, rfl, -⟩ := hleads
      rw [List.isEmpty_eq_false_iff]
      exact List.append_ne_nil_of_left_ne_nil hfirst tail
    rw [hraw] at hsep
    subst hsep
    rw [List.append_assoc, List.append_assoc]
    exact ⟨hstem.append _, hleads.append (.inl rfl) _, (List.forall_mem_cons.mp hverbatim).2⟩
  group {raw raw' ts us group group' rest rest'} h hts hus hgroup := by
    obtain ⟨hstem, hleads, hverbatim⟩ := h
    obtain ⟨l, inner, rfl, rfl, hl, -⟩ := parameters_readGroup hts
    obtain ⟨k, inner', -, rfl, -, -⟩ := parameters_readGroup hus
    obtain ⟨hparen, hverbatim⟩ := List.forall_mem_cons.mp hverbatim
    have hltext : l.text = ['('] := hparen.paren hl
    have hktext : k.text = ['('] := (of_unplaced_cons hgroup).2.1.symm.trans hltext
    rw [squeeze_spell_cons hltext, squeeze_spell_cons hktext]
    exact ⟨hstem.paren _ _, hleads.append (.inr rfl) _,
      fun l hl => hverbatim l (List.mem_append_right inner hl)⟩

/-- With the same comments in its parameters, a type is the same. -/
theorem agrees_of_comments {ts us : List Lexeme} (dialect : Dialect) {raw : List Char}
    (heq : nowhere.lexemes ts = nowhere.lexemes us) (h : comments ts = comments us) :
    Agrees Fault.kind (SameType dialect) (readTypeName raw ts) (readTypeName raw us) :=
  (agrees_readTypeName carried_comments ⟨rfl, h⟩ heq).mono fun a b hab =>
    ⟨by rw [hab.1.1], by rw [hab.1.1], hab.2⟩

/-- A type that does not begin with the word `TINYINT` is the same whatever the comments, and so is
every type of the other dialects. -/
theorem agrees_of_first {dialect : Dialect} {ts us : List Lexeme} {word : String}
    (hword : IsBareWord word.toList) (heq : nowhere.lexemes ts = nowhere.lexemes us)
    (hverbatim : ∀ l ∈ ts, l.toPiece.Verbatim)
    (htinyint : ¬(dialect = .mysql ∧ isTinyint (.ident word) = true)) :
    Agrees Fault.kind (SameType dialect) (readTypeName word.toList ts)
      (readTypeName word.toList us) := by
  have hcarried := carried_sameStem hword.ne_nil
  have hleads : LeadsWith word.toList word.toList := ⟨[], (List.append_nil _).symm, by simp⟩
  refine (agrees_readTypeName hcarried ⟨.inl rfl, hleads, hverbatim⟩ heq).mono fun a b hab => ?_
  obtain ⟨⟨hstem, hleads, -⟩, hrest⟩ := hab
  refine ⟨hstem.isEmpty_eq, toType?_congr hstem fun hmysql hhead => ?_, hrest⟩
  rw [head?_leadingWords hword hleads] at hhead
  have hlower : lower word.toList = "tinyint".toList :=
    String.ofList_injective (Option.some.inj hhead)
  exact htinyint ⟨hmysql, by rw [isTinyint, hlower]; rfl⟩

/-- Lexemes of a script that differ in their places and gaps, without other comments in the
parameters of types that are told by them. -/
structure Respaced (dialect : Dialect) (ts us : List Lexeme) : Prop where
  unplaced_eq : nowhere.lexemes ts = nowhere.lexemes us
  comments_eq : dialect = .mysql → tinyintComments ts = tinyintComments us
  verbatim : ∀ l ∈ ts, l.toPiece.Verbatim

namespace Respaced

variable {dialect : Dialect} {ts ts' us us' : List Lexeme}

theorem of_append (h : Respaced dialect (ts ++ ts') (us ++ us')) (hlength : ts.length = us.length) :
    Respaced dialect ts us ∧ Respaced dialect ts' us' := by
  obtain ⟨heq, hcomments, hverbatim⟩ := h
  rw [unplaced_append, unplaced_append] at heq
  obtain ⟨heq, heq'⟩ := List.append_inj heq (by
    rwa [Relocation.lexemes, Relocation.lexemes, List.length_map, List.length_map])
  obtain ⟨hverbatim, hverbatim'⟩ := List.forall_mem_append.mp hverbatim
  exact ⟨⟨heq, fun hmysql => (tinyintComments_of_append heq (hcomments hmysql)).1, hverbatim⟩,
    ⟨heq', fun hmysql => (tinyintComments_of_append heq (hcomments hmysql)).2, hverbatim'⟩⟩

theorem drop (h : Respaced dialect ts us) (n : Nat) :
    Respaced dialect (ts.drop n) (us.drop n) := by
  have hlength : (ts.take n).length = (us.take n).length := by
    rw [List.length_take, List.length_take, length_eq_of_unplaced h.unplaced_eq]
  refine (of_append ?_ hlength).2
  rwa [List.take_append_drop, List.take_append_drop]

theorem tail {l k : Lexeme} (h : Respaced dialect (l :: ts) (k :: us)) : Respaced dialect ts us :=
  h.drop 1

theorem agrees_readTypeName (h : Respaced dialect ts us) :
    Agrees Fault.kind (SameType dialect) (readTypeName [] ts) (readTypeName [] us) := by
  match ts, us, h with
  | [], [], h =>
    rw [readTypeName]
    exact .ok ⟨rfl, rfl, rfl⟩
  | [], k :: us, h => cases h.unplaced_eq
  | l :: ts, [], h => cases h.unplaced_eq
  | l :: ts, k :: us, h =>
  obtain ⟨htoken, -, htail⟩ := of_unplaced_cons h.unplaced_eq
  obtain ⟨hl, hverbatim⟩ := List.forall_mem_cons.mp h.verbatim
  rw [readTypeName_cons, readTypeName_cons [] k, htoken]
  split
  · next word hword =>
    by_cases htinyint : dialect = .mysql ∧ isTinyint (.ident word) = true
    · have hcomments := h.comments_eq htinyint.1
      rw [tinyintComments, tinyintComments, htoken, hword, if_pos htinyint.2,
        if_pos htinyint.2] at hcomments
      exact agrees_of_comments dialect htail (List.cons.inj hcomments).1
    · exact agrees_of_first (hl.word word (htoken.trans hword)) htail hverbatim htinyint
  · exact .ok ⟨rfl, rfl, h.unplaced_eq⟩
  · exact .ok ⟨rfl, rfl, h.unplaced_eq⟩

theorem similar (h : Respaced dialect ts us) : Similar dialect ts us :=
  ⟨h.unplaced_eq, fun n => (h.drop n).agrees_readTypeName⟩

end Respaced

/-! ## Lexemes with the same pieces -/

/-- The piece without the blanks in its gap. -/
def Piece.squeezed (p : Piece) : Piece := p.withGap (squeeze p.gap)

section

variable {ts us : List Lexeme}

theorem token_of_squeezed {p q : Piece} (h : p.squeezed = q.squeezed) : p.token = q.token := by
  have htoken := congrArg Piece.token h
  exact htoken

theorem unplaced_congr (h : ts.map (·.toPiece.squeezed) = us.map (·.toPiece.squeezed)) :
    nowhere.lexemes ts = nowhere.lexemes us := by
  have hunplaced : ∀ ls : List Lexeme, nowhere.lexemes ls =
      (ls.map (·.toPiece.squeezed)).map fun p => ⟨p.withGap [], .start, 0⟩ := by
    intro ls
    rw [List.map_map]
    rfl
  rw [hunplaced, hunplaced, h]

theorem parameters_congr (h : ts.map (·.toPiece.squeezed) = us.map (·.toPiece.squeezed))
    (depth : Nat) :
    (parameters depth ts).map (·.toPiece.squeezed) =
      (parameters depth us).map (·.toPiece.squeezed) := by
  induction ts generalizing us depth with
  | nil =>
    obtain rfl : us = [] := List.map_eq_nil_iff.mp h.symm
    rfl
  | cons l ts ih =>
    cases us with
    | nil => cases h
    | cons k us =>
      obtain ⟨hhead, htail⟩ : l.toPiece.squeezed = k.toPiece.squeezed ∧
          ts.map (·.toPiece.squeezed) = us.map (·.toPiece.squeezed) := List.cons.inj h
      have htoken : l.token = k.token := token_of_squeezed hhead
      cases depth with
      | zero =>
        rw [parameters, parameters, htoken]
        split
        · exact ih htail 0
        · exact ih htail 1
        · rfl
      | succ depth =>
        rw [parameters, parameters, List.map_cons, List.map_cons, hhead, htoken, ih htail]

theorem comments_congr (h : ts.map (·.toPiece.squeezed) = us.map (·.toPiece.squeezed)) :
    comments ts = comments us := by
  have hgaps := congrArg (List.map Piece.gap) (parameters_congr h 0)
  rwa [List.map_map, List.map_map] at hgaps

/-- Lexemes with the same comments in their gaps are similar in every dialect. -/
theorem similar_of_squeezed (dialect : Dialect)
    (h : ts.map (·.toPiece.squeezed) = us.map (·.toPiece.squeezed)) : Similar dialect ts us := by
  refine ⟨unplaced_congr h, fun n => ?_⟩
  have hdrop : (ts.drop n).map (·.toPiece.squeezed) = (us.drop n).map (·.toPiece.squeezed) := by
    rw [List.map_drop, List.map_drop, h]
  exact agrees_of_comments dialect (unplaced_congr hdrop) (comments_congr hdrop)

theorem map_squeezed_congr (h : ts.map (·.toPiece) = us.map (·.toPiece)) :
    ts.map (·.toPiece.squeezed) = us.map (·.toPiece.squeezed) := by
  have hsqueezed := congrArg (List.map Piece.squeezed) h
  rwa [List.map_map, List.map_map] at hsqueezed

end

end Sql
end Schemata
