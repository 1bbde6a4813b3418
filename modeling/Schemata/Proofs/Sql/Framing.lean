/-
What readers take does not depend on what comes after it.  Where a reader stops, it has looked at
no more than the next token, so it takes the same lexemes and makes the same of them in front of
anything else that no reader goes on with.  Only a lexeme that is passed over without a look at it
has to be there in the first place.
-/
import Mathlib.Logic.Relation
import Schemata.Proofs.Sql.Passing
import Schemata.Proofs.Sql.Reading

namespace Schemata
namespace Sql

/-- The tokens that stand behind a clause and never go on with it: those that end an item, and the
words that begin a key or a reference. -/
def isBreak (t : Token) : Bool :=
  endsItem t || t = .keyword .primary || t = .keyword .unique || t = .keyword .references

/-- The tokens that no reader of a name, a type or a clause goes on with: besides the breaks, the
words that begin a default value or a check. -/
def isHalt (t : Token) : Bool := isBreak t || t = .keyword .default || t = .keyword .check

theorem isBreak_of_endsItem {t : Token} (h : endsItem t = true) : isBreak t = true := by
  rw [isBreak, h]
  rfl

theorem isHalt_of_isBreak {t : Token} (h : isBreak t = true) : isHalt t = true := by
  rw [isHalt, h]
  rfl

/-- What may follow instead of what was there: anything that begins with one of these tokens.  If
nothing was there, something may follow only if all lexemes are complete that are passed over
without a look at them. -/
structure Sequel where
  tokens : Token → Bool
  halts : ∀ t, tokens t = true → isHalt t = true
  complete : Prop

/-- The end of an item, behind an item that was followed by something already. -/
def Sequel.item : Sequel := ⟨endsItem, fun _ h => isHalt_of_isBreak (isBreak_of_endsItem h), False⟩

/-- A clause that begins with a halt. -/
def Sequel.clause (complete : Prop) : Sequel := ⟨isHalt, fun _ h => h, complete⟩

variable {s : Sequel}

/-- Behind what was read, `rest'` may stand in the place of `rest`. -/
structure Fits (s : Sequel) (rest rest' : List Lexeme) : Prop where
  nil : rest = [] → rest' = [] ∨ s.complete
  next : nextToken rest' = nextToken rest ∨ s.tokens (nextToken rest') = true

namespace Fits

variable {rest rest' : List Lexeme}

theorem append (h : Fits s rest rest') (used : List Lexeme) :
    Fits s (used ++ rest) (used ++ rest') := by
  cases used with
  | nil => exact h
  | cons l used => exact ⟨fun hnil => absurd hnil (List.cons_ne_nil _ _), .inl rfl⟩

/-- What holds of no halt holds of the next token only if it did so before. -/
theorem imp (h : Fits s rest rest') {p : Token → Prop} (hp : ∀ t, isHalt t = true → ¬p t)
    (hrest' : p (nextToken rest')) : p (nextToken rest) := by
  rcases h.next with hsame | hhalt
  · rwa [hsame] at hrest'
  · exact absurd hrest' (hp _ (s.halts _ hhalt))

theorem endsItem (h : Fits .item rest rest') (hrest : endsItem (nextToken rest) = true) :
    Sql.endsItem (nextToken rest') = true := by
  rcases h.next with hsame | hends
  · rw [hsame]
    exact hrest
  · exact hends

end Fits

/-- From `ts` the reader takes all but `rest` and then gives `out rest`, and it takes the same in
front of anything else that fits. -/
def Frames (s : Sequel) (read : List Lexeme → Except Fault β) (out : List Lexeme → β)
    (ts rest : List Lexeme) : Prop :=
  ∃ used, ts = used ++ rest ∧ ∀ rest', Fits s rest rest' → read (used ++ rest') = .ok (out rest')

namespace Frames

variable {read read' : List Lexeme → Except Fault β} {out : List Lexeme → β}
  {ts mid rest : List Lexeme}

theorem refl (h : ∀ rest', Fits s ts rest' → read rest' = .ok (out rest')) :
    Frames s read out ts ts :=
  ⟨[], rfl, h⟩

theorem suffix (h : Frames s read out ts rest) : rest <:+ ts := by
  obtain ⟨used, rfl, -⟩ := h
  exact List.suffix_append used rest

theorem read_append {used rest' : List Lexeme} (h : Frames s read out (used ++ rest) rest)
    (hrest : Fits s rest rest') : read (used ++ rest') = .ok (out rest') := by
  obtain ⟨used', hused, hread⟩ := h
  obtain rfl : used = used' := List.append_cancel_right hused
  exact hread rest' hrest

theorem congr (hread : ∀ ts, read ts = read' ts) (h : Frames s read' out ts rest) :
    Frames s read out ts rest := by
  rwa [funext hread]

theorem bind {f : β → Except Fault γ} {out' : List Lexeme → γ} (h : Frames s read out ts mid)
    (h' : Frames s (fun mid => f (out mid)) out' mid rest) :
    Frames s (fun ts => read ts >>= f) out' ts rest := by
  obtain ⟨used, rfl, hread⟩ := h
  obtain ⟨used', rfl, hread'⟩ := h'
  refine ⟨used ++ used', (List.append_assoc _ _ _).symm, fun rest' hrest => ?_⟩
  show read _ >>= f = _
  rw [List.append_assoc, hread _ (hrest.append used')]
  exact hread' rest' hrest

/-- Some lexemes are passed over before the reader. -/
theorem skip {f : List Lexeme → List Lexeme} (h : Frames s (fun ts => .ok (f ts)) id ts mid)
    (h' : Frames s read out mid rest) : Frames s (fun ts => read (f ts)) out ts rest := by
  obtain ⟨used, rfl, hf⟩ := h
  obtain ⟨used', rfl, hread⟩ := h'
  refine ⟨used ++ used', (List.append_assoc _ _ _).symm, fun rest' hrest => ?_⟩
  have hskip : f (used ++ (used' ++ rest')) = used' ++ rest' :=
    Except.ok.inj (hf _ (hrest.append used'))
  show read (f _) = _
  rw [List.append_assoc, hskip]
  exact hread rest' hrest

theorem map (h : Frames s read out ts rest) (f : β → γ) :
    Frames s (fun ts => (read ts).map f) (fun rest => f (out rest)) ts rest := by
  obtain ⟨used, rfl, hread⟩ := h
  refine ⟨used, rfl, fun rest' hrest => ?_⟩
  show (read _).map f = _
  rw [hread rest' hrest]
  rfl

/-- A lexeme is taken, and the rest is left to another reader. -/
theorem cons {l : Lexeme} (hread : ∀ ts, read (l :: ts) = read' ts)
    (h : Frames s read' out ts rest) : Frames s read out (l :: ts) rest := by
  obtain ⟨used, rfl, hread'⟩ := h
  exact ⟨l :: used, rfl, fun rest' hrest => (hread _).trans (hread' rest' hrest)⟩

/-- The first lexeme is always there. -/
theorem uncons {l : Lexeme} (h : Frames s read out (l :: ts) rest)
    (hlength : rest.length < (l :: ts).length) :
    Frames s (fun ts => read (l :: ts)) out ts rest := by
  obtain ⟨used, hused, hread⟩ := h
  cases used with
  | nil =>
    rw [hused] at hlength
    exact absurd hlength (Nat.lt_irrefl _)
  | cons k used =>
    obtain ⟨rfl, rfl⟩ := List.cons.inj hused
    exact ⟨used, rfl, hread⟩

section

variable {p : Token → Prop} (hp : ∀ t, isHalt t = true → ¬p t)

include hp

/-- The next token decides how to go on.  A reader that goes on because of it takes it. -/
theorem ite [DecidablePred p] (hlength : p (nextToken ts) → rest.length < ts.length)
    (hpos : p (nextToken ts) → Frames s read out ts rest)
    (hneg : ¬p (nextToken ts) → Frames s read' out ts rest) :
    Frames s (fun ts => if p (nextToken ts) then read ts else read' ts) out ts rest := by
  by_cases hts : p (nextToken ts)
  · have hlength := hlength hts
    obtain ⟨used, rfl, hread⟩ := hpos hts
    refine ⟨used, rfl, fun rest' hrest => ?_⟩
    cases used with
    | nil => exact absurd hlength (Nat.lt_irrefl _)
    | cons l used => exact (if_pos hts).trans (hread rest' hrest)
  · obtain ⟨used, rfl, hread⟩ := hneg hts
    refine ⟨used, rfl, fun rest' hrest => ?_⟩
    exact (if_neg fun hnext => hts ((hrest.append used).imp hp hnext)).trans (hread rest' hrest)

theorem exists_cons (hts : p (nextToken ts)) : ∃ l tail, ts = l :: tail := by
  cases ts with
  | nil => exact absurd hts (hp _ rfl)
  | cons l tail => exact ⟨l, tail, rfl⟩

/-- A lexeme is taken because of its token. -/
theorem ite_tail [DecidablePred p] (hpos : p (nextToken ts) → Frames s read out ts.tail rest)
    (hneg : ¬p (nextToken ts) → Frames s read' out ts rest) :
    Frames s (fun ts => if p (nextToken ts) then read ts.tail else read' ts) out ts rest := by
  refine ite hp (fun hts => ?_) (fun hts => ?_) hneg
  · obtain ⟨l, tail, rfl⟩ := exists_cons hp hts
    exact Nat.lt_succ_of_le (hpos hts).suffix.length_le
  · have htail := hpos hts
    obtain ⟨l, tail, rfl⟩ := exists_cons hp hts
    exact cons (fun _ => rfl) htail

omit hp in
/-- A lexeme is taken without a look at it. -/
theorem blind (hcomplete : s.complete → ts ≠ []) :
    Frames s (fun ts => .ok ts.tail) id ts ts.tail := by
  cases ts with
  | nil =>
    refine ⟨[], rfl, fun rest' hrest => ?_⟩
    rcases hrest.nil rfl with rfl | h
    · rfl
    · exact absurd rfl (hcomplete h)
  | cons l tail => exact ⟨[l], rfl, fun _ _ => rfl⟩

/-- Two lexemes are taken because of the token of the first one. -/
theorem ite_drop_two [DecidablePred p] {read : List Lexeme → Except Fault (List Lexeme)}
    (hcomplete : p (nextToken ts) → s.complete → ts.tail ≠ [])
    (hpos : p (nextToken ts) → rest = ts.drop 2)
    (hneg : ¬p (nextToken ts) → Frames s read id ts rest) :
    Frames s (fun ts => if p (nextToken ts) then .ok (ts.drop 2) else read ts) id ts rest := by
  have hdrop : ∀ ts : List Lexeme, ts.drop 2 = ts.tail.tail := fun ts => by
    rw [← List.drop_one, ← List.drop_one, List.drop_drop]
  have htail : p (nextToken ts) → Frames s (fun ts => .ok ts.tail) id ts.tail rest := by
    intro hts
    rw [hpos hts, hdrop]
    exact blind (hcomplete hts)
  exact congr (fun ts => by rw [hdrop]) (ite_tail hp htail hneg)

/-- A lexeme is taken if its token is of some sort. -/
theorem tailIf [DecidablePred p] (ts : List Lexeme) :
    Frames s (fun ts => .ok (if p (nextToken ts) then ts.tail else ts)) id ts
      (if p (nextToken ts) then ts.tail else ts) := by
  have hstop : ∀ ts : List Lexeme, Frames s .ok id ts ts := fun ts => refl fun _ _ => rfl
  have hframes : Frames s (fun ts => if p (nextToken ts) then .ok ts.tail else .ok ts) id ts
      (if p (nextToken ts) then ts.tail else ts) := by
    refine ite_tail hp (fun hts => ?_) fun hts => ?_
    · rw [if_pos hts]
      exact hstop ts.tail
    · rw [if_neg hts]
      exact hstop ts
  exact congr (fun ts => apply_ite Except.ok _ _ _) hframes

end

end Frames

variable {ts rest : List Lexeme}

theorem not_isName_of_isHalt (t : Token) (h : isHalt t = true) : ¬t.isName = true := by
  cases t <;> first | exact Bool.false_ne_true | cases h

theorem not_isWord_of_isHalt (word : String) (t : Token) (h : isHalt t = true) :
    ¬t.isWord word = true := by
  cases t <;> first | exact Bool.false_ne_true | cases h

theorem not_isWord_or_of_isHalt (word word' : String) (t : Token) (h : isHalt t = true) :
    ¬(t.isWord word || t.isWord word') = true := by
  cases t <;> first | exact Bool.false_ne_true | cases h

theorem ne_of_isHalt {u : Token} (hu : isHalt u = false) (t : Token) (h : isHalt t = true) :
    t ≠ u := by
  rintro rfl
  rw [h] at hu
  cases hu

/-! ## Names and groups -/

theorem frames_expect {token : Token} {what : String} (h : expect token what ts = .ok rest) :
    Frames s (expect token what) id ts rest := by
  obtain ⟨l, rfl, hl⟩ := ok_expect h
  exact ⟨[l], rfl, fun _ _ => if_pos hl⟩

theorem frames_skipIf {token : Token} (htoken : isHalt token = false) (ts : List Lexeme) :
    Frames s (fun ts => .ok (skipIf token ts)) id ts (skipIf token ts) :=
  Frames.tailIf (p := (· = token)) (ne_of_isHalt htoken) ts

theorem frames_skipName (ts : List Lexeme) :
    Frames s (fun ts => .ok (skipName ts)) id ts (skipName ts) :=
  Frames.tailIf not_isName_of_isHalt ts

theorem frames_readName {what name : String} (h : readName what ts = .ok (name, rest)) :
    Frames s (readName what) (name, ·) ts rest := by
  unfold readName at h
  split at h
  · exact absurd h fail_ne_ok
  · next l tail =>
    split at h
    · next hname =>
      cases h
      refine ⟨[l], rfl, fun rest' _ => ?_⟩
      rw [List.singleton_append, readName]
      simp only [hname]
    · exact absurd h fail_ne_ok

theorem frames_lastPart {what name part : String} (h : lastPart what name ts = .ok (part, rest)) :
    Frames s (lastPart what name) (part, ·) ts rest := by
  have hstop : ∀ {name : String} {ts : List Lexeme}, nextToken ts ≠ .dot →
      Frames s (lastPart what name) (name, ·) ts ts := by
    intro name ts hts
    refine .refl fun rest' hrest => lastPart_of_ne_dot what name fun hdot => hts ?_
    exact hrest.imp (ne_of_isHalt rfl) hdot
  fun_induction lastPart what name ts with
  | case1 name =>
    cases h
    exact hstop (by simp [nextToken])
  | case2 => exact absurd h fail_ne_ok
  | case3 name d hdot =>
    cases h
    exact hstop hdot
  | case4 name d l tail hdot part' hpart ih =>
    have hread : ∀ ts, lastPart what name (d :: l :: ts) = lastPart what part' ts := by
      intro ts
      rw [lastPart, if_pos hdot, hpart]
    obtain ⟨used, rfl, hused⟩ := ih h
    exact ⟨d :: l :: used, rfl, fun rest' hrest => (hread _).trans (hused rest' hrest)⟩
  | case5 => exact absurd h fail_ne_ok
  | case6 name d l tail hdot =>
    cases h
    exact hstop hdot

theorem frames_readQualifiedName {what name : String}
    (h : readQualifiedName what ts = .ok (name, rest)) :
    Frames s (readQualifiedName what) (name, ·) ts rest := by
  obtain ⟨⟨first, mid⟩, h₁, h₂⟩ := ok_of_bind h
  exact (frames_readName h₁).bind (frames_lastPart h₂)

theorem frames_readGroup {group : List Lexeme} (h : readGroup ts = .ok (group, rest)) :
    Frames s readGroup (group, ·) ts rest :=
  ⟨group, (readGroup_append h).1.symm, fun rest' _ =>
    (isGroup_of_readGroup h).readGroup_append rest'⟩

theorem frames_skipGroup? (h : skipGroup? ts = .ok rest) : Frames s skipGroup? id ts rest := by
  unfold skipGroup? at h ⊢
  have hgroup : nextToken ts = .leftParen → ∃ group, readGroup ts = .ok (group, rest) := by
    intro hts
    rw [if_pos hts] at h
    cases hgroup : readGroup ts with
    | error e =>
      rw [hgroup] at h
      cases h
    | ok a =>
      rw [hgroup] at h
      cases h
      exact ⟨a.1, rfl⟩
  refine .ite (p := (· = .leftParen)) (ne_of_isHalt rfl) (fun hts => ?_) (fun hts => ?_)
    fun hts => ?_
  · exact length_readGroup (hgroup hts).choose_spec
  · exact (frames_readGroup (hgroup hts).choose_spec).map (·.2)
  · rw [if_neg hts] at h
    cases h
    exact .refl fun _ _ => rfl

/-! ## Lists of columns -/

theorem frames_readSeparator {fault : SyntaxFault} {more : Bool}
    (h : readSeparator fault ts = .ok (more, rest)) :
    Frames s (readSeparator fault) (more, ·) ts rest := by
  obtain ⟨l, rfl, hl⟩ := ok_readSeparator h
  refine ⟨[l], rfl, fun rest' _ => ?_⟩
  rw [List.singleton_append, readSeparator]
  cases more with
  | true => exact if_pos hl
  | false =>
    dsimp only
    rw [if_neg (by rw [hl]; simp), if_pos (by simpa using hl)]

theorem frames_readColumnEntry {name : String} (h : readColumnEntry ts = .ok (name, rest)) :
    Frames s readColumnEntry (name, ·) ts rest := by
  obtain ⟨⟨n, mid⟩, h₁, h⟩ := ok_of_bind h
  obtain ⟨mid', h₂, h⟩ := ok_of_bind h
  cases h
  refine (frames_readName h₁).bind ((frames_skipGroup? h₂).bind ?_)
  exact (Frames.tailIf (not_isWord_or_of_isHalt "asc" "desc") mid').map (name, ·)

theorem frames_readColumnEntries {names : List String}
    (h : readColumnEntries ts = .ok (names, rest)) :
    Frames s readColumnEntries (names, ·) ts rest := by
  fun_induction readColumnEntries ts generalizing names with
  | case1 => cases h
  | case2 => cases h
  | case3 ts name mid hentry rest' hseparator =>
    cases h
    refine .congr readColumnEntries_eq ((frames_readColumnEntry hentry).bind ?_)
    exact (frames_readSeparator hseparator).bind (.refl fun _ _ => rfl)
  | case4 ts name mid hentry rest' hseparator ih =>
    obtain ⟨⟨ns, r⟩, h₁, h₂⟩ := ok_of_bind h
    cases h₂
    refine .congr readColumnEntries_eq ((frames_readColumnEntry hentry).bind ?_)
    refine (frames_readSeparator hseparator).bind ((ih h₁).bind ?_)
    exact .refl fun _ _ => rfl

theorem frames_readColumnList {names : List String} (h : readColumnList ts = .ok (names, rest)) :
    Frames s readColumnList (names, ·) ts rest := by
  obtain ⟨mid, h₁, h₂⟩ := ok_of_bind h
  exact (frames_expect h₁).bind (frames_readColumnEntries h₂)

theorem frames_readTargetColumns {columns : List String}
    (h : readTargetColumns ts = .ok (columns, rest)) :
    Frames s readTargetColumns (columns, ·) ts rest := by
  unfold readTargetColumns at h ⊢
  refine .ite (p := (· = .leftParen)) (ne_of_isHalt rfl) (fun hts => ?_) (fun hts => ?_)
    fun hts => ?_
  · rw [if_pos hts] at h
    exact length_readColumnList h
  · rw [if_pos hts] at h
    exact frames_readColumnList h
  · rw [if_neg hts] at h
    cases h
    exact .refl fun _ _ => rfl

/-! ## What is passed over unseen -/

/-- A mark of the end of the lexemes. -/
def endMark : Lexeme := ⟨⟨[], [], .eof⟩, default, 0⟩

/-- From the head of one list, the readers of clauses come to the head of another one: behind a
clause, behind the table and the columns of a reference, or behind an action. -/
inductive Continues : List Lexeme → List Lexeme → Prop
  | clause {l : Lexeme} {ts mid : List Lexeme} {c : ColumnClause}
      (h : readColumnClause l ts = .ok (c, mid)) : Continues (l :: ts) mid
  | target {l : Lexeme} {ts mid rest : List Lexeme} {table : String} {columns : List String}
      (hl : l.token = .keyword .references)
      (htable : readQualifiedName "referenced table" ts = .ok (table, mid))
      (hcolumns : readTargetColumns mid = .ok (columns, rest)) :
      Continues (l :: ts) (skipMatch rest)
  | action {l : Lexeme} {ts mid : List Lexeme} (hl : l.token = .keyword .on)
      (h : skipAction ts = .ok mid) : Continues (l :: ts) mid

/-- What clauses pass over without a look at it is there. -/
def Complete (ls : List Lexeme) : Prop :=
  ∀ ts, Relation.ReflTransGen Continues ls ts → unseen? (ts ++ [endMark]) ≠ some .eof

theorem Complete.of_continues {ls ks : List Lexeme} (h : Complete ls) (hks : Continues ls ks) :
    Complete ks := fun ts hts => h ts (.head hks hts)

theorem Complete.unseen (h : Complete ts) : unseen? (ts ++ [endMark]) ≠ some .eof := h ts .refl

/-- The word after `MATCH` is the same one with more behind it. -/
theorem unseen?_references {l : Lexeme} {table : String} {columns : List String}
    {mid : List Lexeme} (hl : l.token = .keyword .references)
    (htable : readQualifiedName "referenced table" ts = .ok (table, mid))
    (hcolumns : readTargetColumns mid = .ok (columns, rest))
    (hmatch : (nextToken rest).isWord "match" = true) (more : List Lexeme) :
    unseen? (l :: (ts ++ more)) = (rest ++ more).tail.head?.map (·.token) := by
  obtain ⟨word, rest, rfl⟩ := Frames.exists_cons (not_isWord_of_isHalt "match") hmatch
  have hfits : Fits .item (word :: rest) (word :: (rest ++ more)) := ⟨nofun, .inl rfl⟩
  have htarget : Frames .item (fun ts => readQualifiedName "referenced table" ts >>= fun a =>
      readTargetColumns a.2) (columns, ·) ts (word :: rest) :=
    (frames_readQualifiedName htable).bind (frames_readTargetColumns hcolumns)
  obtain ⟨used, rfl, hread⟩ := htarget
  obtain ⟨⟨name', mid'⟩, hname', hcolumns'⟩ := ok_of_bind (hread _ hfits)
  rw [unseen?, hl, List.append_assoc, List.cons_append]
  dsimp only at hcolumns' ⊢
  rw [hname']
  dsimp only
  rw [hcolumns']
  exact if_pos hmatch

/-- A token that is not looked at is the same one with more behind it. -/
theorem unseen?_append {t : Token} (h : unseen? ts = some t) (more : List Lexeme) :
    unseen? (ts ++ more) = some t := by
  cases ts with
  | nil => cases h
  | cons l tail =>
    rw [unseen?] at h
    split at h
    · -- The token is there, so both words in front of it are among the lexemes.
      next hl =>
      rw [List.cons_append, unseen?, hl]
      rcases tail with _ | ⟨event, _ | ⟨word, _ | ⟨k, tail⟩⟩⟩
      iterate 3
        split at h <;> cases h
      exact h
    · next hl =>
      split at h
      · cases h
      · next name mid hname =>
        split at h
        · cases h
        · next columns mid' hcolumns =>
          split at h
          · next hmatch =>
            rw [List.cons_append, unseen?_references hl hname hcolumns hmatch]
            rcases mid' with _ | ⟨word, _ | ⟨k, mid'⟩⟩
            iterate 2
              cases h
            exact h
          · cases h
    · cases h

/-! ## References -/

theorem frames_skipAction (h : skipAction ts = .ok rest)
    (hcomplete : s.complete → ∃ l, l.token = .keyword .on ∧ Complete (l :: ts)) :
    Frames s skipAction id ts rest := by
  unfold skipAction at h ⊢
  dsimp only at h ⊢
  have hframes : ((nextToken ts).isWord "delete" || (nextToken ts).isWord "update") = true →
      Frames s (fun ts =>
        if (nextToken ts).isWord "set" || (nextToken ts).isWord "no" then .ok (ts.drop 2)
        else if (nextToken ts).isName then skipGroup? ts.tail
        else fail .action ts) id ts.tail rest := by
    intro hevent
    rw [if_pos hevent] at h
    refine .ite_drop_two (not_isWord_or_of_isHalt "set" "no") (fun hset hs hnil => ?_)
      (fun hset => ?_) fun hset => ?_
    · obtain ⟨l, hl, hcomplete⟩ := hcomplete hs
      refine hcomplete.unseen ?_
      obtain ⟨event, tail, rfl⟩ :=
        Frames.exists_cons (not_isWord_or_of_isHalt "delete" "update") hevent
      obtain ⟨word, tail, rfl⟩ := Frames.exists_cons (not_isWord_or_of_isHalt "set" "no") hset
      obtain rfl : tail = [] := hnil
      rw [List.cons_append, unseen?, hl]
      exact if_pos (Bool.and_eq_true_iff.mpr ⟨hevent, hset⟩)
    · rw [if_pos hset] at h
      cases h
      rfl
    · rw [if_neg hset] at h
      refine .ite_tail not_isName_of_isHalt (fun hname => ?_) fun hname => ?_
      · rw [if_pos hname] at h
        exact frames_skipGroup? h
      · rw [if_neg hname] at h
        exact absurd h fail_ne_ok
  refine .ite_tail (not_isWord_or_of_isHalt "delete" "update") hframes fun hevent => ?_
  rw [if_neg hevent] at h
  exact absurd h fail_ne_ok

theorem skipActions_of_ne_on (h : nextToken ts ≠ .keyword .on) : skipActions ts = .ok ts := by
  cases ts with
  | nil => rw [skipActions]
  | cons l tail => exact (skipActions_cons l tail).trans (if_neg h)

theorem frames_skipActions (h : skipActions ts = .ok rest)
    (hcomplete : s.complete → Complete ts) : Frames s skipActions id ts rest := by
  have hstop : ∀ {ts : List Lexeme}, nextToken ts ≠ .keyword .on →
      Frames s skipActions id ts ts := by
    intro ts hts
    refine .refl fun rest' hrest => skipActions_of_ne_on fun hon => hts ?_
    exact hrest.imp (ne_of_isHalt rfl) hon
  fun_induction skipActions ts with
  | case1 =>
    cases h
    exact hstop (by simp [nextToken])
  | case2 => cases h
  | case3 l tail hl mid haction ih =>
    have hread : ∀ ts, skipActions (l :: ts) = skipAction ts >>= skipActions :=
      fun ts => (skipActions_cons l ts).trans (if_pos hl)
    have hfirst := frames_skipAction (s := s) haction fun hs => ⟨l, hl, hcomplete hs⟩
    have hmid : s.complete → Complete mid := fun hs =>
      (hcomplete hs).of_continues (.action hl haction)
    exact .cons hread (hfirst.bind (ih h hmid))
  | case4 l tail hl =>
    cases h
    exact hstop hl

theorem frames_skipMatch (ts : List Lexeme)
    (hcomplete : (nextToken ts).isWord "match" = true → s.complete → ts.tail ≠ []) :
    Frames s (fun ts => .ok (skipMatch ts)) id ts (skipMatch ts) := by
  refine .congr (fun ts => apply_ite Except.ok _ _ _) ?_
  unfold skipMatch
  refine .ite_drop_two (not_isWord_of_isHalt "match") hcomplete (fun hmatch => if_pos hmatch)
    fun hmatch => ?_
  rw [if_neg hmatch]
  exact .refl fun _ _ => rfl

theorem frames_readTarget {target : Target} (h : readTarget ts = .ok (target, rest))
    (hcomplete : s.complete → ∃ l, l.token = .keyword .references ∧ Complete (l :: ts)) :
    Frames s readTarget (target, ·) ts rest := by
  obtain ⟨⟨table, mid⟩, htable, h⟩ := ok_of_bind h
  obtain ⟨⟨columns, mid'⟩, hcolumns, h⟩ := ok_of_bind h
  obtain ⟨mid'', hactions, h⟩ := ok_of_bind h
  cases h
  have hfirst := frames_readQualifiedName (s := s) htable
  have hsecond := frames_readTargetColumns (s := s) hcolumns
  have hthird := frames_skipMatch (s := s) mid' fun hmatch hs hnil => by
    obtain ⟨l, hl, hcomplete⟩ := hcomplete hs
    refine hcomplete.unseen ?_
    rw [List.cons_append, unseen?_references hl htable hcolumns hmatch]
    obtain ⟨word, tail, rfl⟩ := Frames.exists_cons (not_isWord_of_isHalt "match") hmatch
    obtain rfl : tail = [] := hnil
    rfl
  have hmatched : s.complete → Complete (skipMatch mid') := by
    intro hs
    obtain ⟨l, hl, hcomplete⟩ := hcomplete hs
    exact hcomplete.of_continues (.target hl htable hcolumns)
  refine hfirst.bind (hsecond.bind ?_)
  exact (hthird.skip (frames_skipActions hactions hmatched)).bind (.refl fun _ _ => rfl)

/-! ## Default values -/

theorem frames_skipOperand (h : skipOperand ts = .ok rest) : Frames s skipOperand id ts rest := by
  unfold skipOperand at h
  split at h
  · exact absurd h fail_ne_ok
  · next l tail =>
    have hcons : ∀ {read : List Lexeme → Except Fault (List Lexeme)},
        (∀ ts, skipOperand (l :: ts) = read ts) → Frames s read id tail rest →
        Frames s skipOperand id (l :: tail) rest := fun hread => .cons hread
    split at h
    · next hl =>
      have hread : ∀ ts, skipOperand (l :: ts) = (readGroup (l :: ts)).map (·.2) := by
        intro ts
        simp only [skipOperand, hl]
      cases hgroup : readGroup (l :: tail) with
      | error e =>
        rw [hgroup] at h
        cases h
      | ok a =>
        rw [hgroup] at h
        cases h
        have hframes := (frames_readGroup (s := s) hgroup).map (·.2)
        exact .cons hread (hframes.uncons (length_readGroup hgroup))
    · next hl => exact hcons (fun ts => by simp only [skipOperand, hl]) (frames_skipGroup? h)
    iterate 4
      focus
        next hl =>
          cases h
          have hread : ∀ ts, skipOperand (l :: ts) = .ok ts := fun ts => by
            simp only [skipOperand, hl]
          exact hcons hread (.refl fun _ _ => rfl)
    · exact absurd h fail_ne_ok

theorem not_isOperator_of_isHalt (t : Token) (h : isHalt t = true) : ¬isOperator t = true := by
  cases t <;> first | exact Bool.false_ne_true | cases h

theorem dropWhile_of_not {p : Token → Bool} (h : ¬p (nextToken ts) = true) :
    ts.dropWhile (p ·.token) = ts := by
  cases ts with
  | nil => rfl
  | cons l ts => exact List.dropWhile_cons_of_neg h

theorem frames_dropWhile {p : Token → Bool} (hp : ∀ t, isHalt t = true → ¬p t = true)
    (ts : List Lexeme) :
    Frames s (fun ts => .ok (ts.dropWhile (p ·.token))) id ts (ts.dropWhile (p ·.token)) := by
  have hstop : ∀ {ts : List Lexeme}, ¬p (nextToken ts) = true →
      Frames s (fun ts => .ok (ts.dropWhile (p ·.token))) id ts (ts.dropWhile (p ·.token)) := by
    intro ts hts
    rw [dropWhile_of_not hts]
    exact .refl fun rest' hrest => congrArg Except.ok (dropWhile_of_not (mt (hrest.imp hp) hts))
  induction ts with
  | nil => exact hstop (hp _ rfl)
  | cons l ts ih =>
    by_cases hl : p l.token = true
    · have hdrop : ∀ ts, (l :: ts).dropWhile (p ·.token) = ts.dropWhile (p ·.token) :=
        fun _ => List.dropWhile_cons_of_pos hl
      rw [hdrop]
      exact .cons (fun ts => congrArg Except.ok (hdrop ts)) ih
    · exact hstop hl

theorem frames_skipExpression (h : skipExpression ts = .ok rest) :
    Frames s skipExpression id ts rest := by
  fun_induction skipExpression ts with
  | case1 => cases h
  | case2 ts mid hoperand hnext ih =>
    refine .congr skipExpression_eq ((frames_skipOperand hoperand).bind ?_)
    refine .ite not_isOperator_of_isHalt (fun _ => ?_) (fun _ => ?_) fun hnot => absurd hnext hnot
    · exact Nat.lt_of_lt_of_le (length_skipExpression h) (List.dropWhile_suffix _).length_le
    · exact (frames_dropWhile not_isOperator_of_isHalt mid).bind (ih h)
  | case3 ts mid hoperand hnext =>
    cases h
    refine .congr skipExpression_eq ((frames_skipOperand hoperand).bind ?_)
    exact .ite not_isOperator_of_isHalt (absurd · hnext) (absurd · hnext)
      fun _ => .refl fun _ _ => rfl

/-! ## Columns -/

theorem readTypeName_end {raw : List Char} (hword : ∀ word, nextToken ts ≠ .ident word)
    (hparen : nextToken ts = .leftParen → raw.isEmpty = true) :
    readTypeName raw ts = .ok (raw, ts) := by
  cases ts with
  | nil => rw [readTypeName]
  | cons l tail =>
    rw [readTypeName_cons]
    split
    · next word hl => exact absurd hl (hword word)
    · next hl => rw [if_pos (hparen hl)]
    · rfl

theorem frames_readTypeName {raw name : List Char} (h : readTypeName raw ts = .ok (name, rest)) :
    Frames s (readTypeName raw) (name, ·) ts rest := by
  have hstop : ∀ {raw : List Char} {ts : List Lexeme}, (∀ word, nextToken ts ≠ .ident word) →
      (nextToken ts = .leftParen → raw.isEmpty = true) →
      Frames s (readTypeName raw) (raw, ·) ts ts := by
    intro raw ts hword hparen
    refine .refl fun rest' hrest => readTypeName_end (fun word hnext => hword word ?_) fun hnext =>
      hparen ?_
    · exact hrest.imp (ne_of_isHalt rfl) hnext
    · exact hrest.imp (ne_of_isHalt rfl) hnext
  fun_induction readTypeName raw ts with
  | case1 raw =>
    cases h
    exact hstop (by simp [nextToken]) (by simp [nextToken])
  | case2 raw l tail word hl ih =>
    have hread : ∀ ts, readTypeName raw (l :: ts) =
        readTypeName (raw ++ (if raw.isEmpty then [] else [' ']) ++ word.toList) ts := by
      intro ts
      rw [readTypeName_cons, hl]
    exact .cons hread (ih h)
  | case3 raw l tail hl hraw =>
    cases h
    exact hstop (by simp [nextToken, hl]) fun _ => hraw
  | case4 => cases h
  | case5 raw l tail hl hraw group mid hgroup ih =>
    have hread : ∀ ts, readTypeName raw (l :: ts) = readGroup (l :: ts) >>= fun a =>
        readTypeName (raw ++ Text.squeeze (spell a.1)) a.2 := by
      intro ts
      rw [readTypeName_cons, hl]
      exact if_neg hraw
    have hframes : Frames s (fun ts => readGroup ts >>= fun a =>
        readTypeName (raw ++ Text.squeeze (spell a.1)) a.2) (name, ·) (l :: tail) rest :=
      (frames_readGroup hgroup).bind (ih h)
    have hlength := Nat.lt_of_le_of_lt (length_readTypeName h) (length_readGroup hgroup)
    exact .cons hread (hframes.uncons hlength)
  | case6 raw l tail hword hparen =>
    cases h
    exact hstop (fun word hl => hword word hl) fun hl => absurd hl hparen

theorem frames_readColumnClause {l : Lexeme} {c : ColumnClause}
    (h : readColumnClause l ts = .ok (c, rest)) (hcomplete : s.complete → Complete (l :: ts)) :
    Frames s (readColumnClause l) (c, ·) ts rest := by
  unfold readColumnClause at h ⊢
  split at h
  · obtain ⟨mid, h₁, h⟩ := ok_of_bind h
    cases h
    exact (frames_expect h₁).bind (.refl fun _ _ => rfl)
  · obtain ⟨mid, h₁, h⟩ := ok_of_bind h
    cases h
    exact (frames_expect h₁).bind (.refl fun _ _ => rfl)
  · cases h
    exact .refl fun _ _ => rfl
  · cases h
    exact (frames_skipIf rfl ts).map (ColumnClause.unique, ·)
  · obtain ⟨mid, h₁, h⟩ := ok_of_bind h
    cases h
    exact (frames_skipExpression h₁).bind (.refl fun _ _ => rfl)
  · next hl =>
    obtain ⟨⟨target, mid⟩, h₁, h⟩ := ok_of_bind h
    cases h
    have htarget := frames_readTarget (s := s) h₁ fun hs => ⟨l, hl, hcomplete hs⟩
    exact htarget.bind (.refl fun _ _ => rfl)
  · obtain ⟨⟨group, mid⟩, h₁, h⟩ := ok_of_bind h
    cases h
    exact (frames_readGroup h₁).bind (.refl fun _ _ => rfl)
  · obtain ⟨⟨group, mid⟩, h₁, h⟩ := ok_of_bind h
    cases h
    have hgroup := (frames_readGroup (s := s) h₁).uncons (length_readGroup h₁)
    exact hgroup.bind (.refl fun _ _ => rfl)
  · cases h
    exact (frames_skipName ts).map (ColumnClause.passed, ·)
  · next hl =>
    obtain ⟨mid, h₁, h⟩ := ok_of_bind h
    obtain ⟨mid', h₂, h⟩ := ok_of_bind h
    cases h
    have haction := frames_skipAction (s := s) h₁ fun hs => ⟨l, hl, hcomplete hs⟩
    have hmid : s.complete → Complete mid := fun hs =>
      (hcomplete hs).of_continues (.action hl h₁)
    exact haction.bind ((frames_skipActions h₂ hmid).bind (.refl fun _ _ => rfl))
  · split at h
    · next hfiller =>
      cases h
      simp only [hfiller, if_true]
      exact .refl fun _ _ => rfl
    · exact absurd h fail_ne_ok

theorem readColumnClauses_of_endsItem (h : endsItem (nextToken ts) = true) :
    readColumnClauses ts = .ok ([], ts) := by
  cases ts with
  | nil => rw [readColumnClauses]
  | cons l tail => exact (readColumnClauses_cons l tail).trans (if_pos h)

theorem frames_readColumnClauses {cs : List ColumnClause}
    (h : readColumnClauses ts = .ok (cs, rest)) :
    Frames .item readColumnClauses (cs, ·) ts rest := by
  have hstop : ∀ {ts : List Lexeme}, endsItem (nextToken ts) = true →
      Frames .item readColumnClauses ([], ·) ts ts :=
    fun hts => .refl fun rest' hrest => readColumnClauses_of_endsItem (hrest.endsItem hts)
  fun_induction readColumnClauses ts generalizing cs with
  | case1 =>
    cases h
    exact hstop rfl
  | case2 l tail hl =>
    cases h
    exact hstop hl
  | case3 => cases h
  | case4 l tail hl clause mid hclause ih =>
    obtain ⟨⟨cs', r⟩, h₁, h₂⟩ := ok_of_bind h
    cases h₂
    refine .cons (fun ts => (readColumnClauses_cons l ts).trans (if_neg hl)) ?_
    exact (frames_readColumnClause hclause False.elim).bind ((ih h₁).bind (.refl fun _ _ => rfl))

/-! ## Constraints -/

theorem frames_readForeignKey {key : ForeignKey} (h : readForeignKey ts = .ok (key, rest)) :
    Frames .item readForeignKey (key, ·) ts rest := by
  obtain ⟨mid, hkey, h⟩ := ok_of_bind h
  obtain ⟨⟨columns, mid'⟩, hcolumns, h⟩ := ok_of_bind h
  obtain ⟨mid'', hreferences, h⟩ := ok_of_bind h
  obtain ⟨⟨target, last⟩, htarget, h⟩ := ok_of_bind h
  dsimp only at h
  split at h
  · next hpaired =>
    cases h
    refine (frames_expect hkey).bind
      (((frames_skipName mid).skip (frames_readColumnList hcolumns)).bind ?_)
    refine (frames_expect hreferences).bind ((frames_readTarget htarget False.elim).bind ?_)
    exact .refl fun _ _ => if_pos hpaired
  · exact absurd h fail_ne_ok

theorem frames_skipConstraintName (ts : List Lexeme) :
    Frames .item (fun ts => .ok (skipConstraintName ts)) id ts (skipConstraintName ts) := by
  have hname : nextToken ts = .keyword .constraint → Frames .item (fun ts => .ok (skipName ts)) id
      ts.tail (skipConstraintName ts) := by
    intro hts
    rw [skipConstraintName, if_pos hts]
    exact frames_skipName ts.tail
  have hstop : nextToken ts ≠ .keyword .constraint →
      Frames .item .ok id ts (skipConstraintName ts) := by
    intro hts
    rw [skipConstraintName, if_neg hts]
    exact .refl fun _ _ => rfl
  exact .congr (fun ts => apply_ite Except.ok _ _ _)
    (.ite_tail (p := (· = .keyword .constraint)) (ne_of_isHalt rfl) hname hstop)

theorem not_opensIndex_of_isHalt (t : Token) (h : isHalt t = true) :
    ¬(t = .keyword .key || t = .keyword .index) = true := by
  cases t with
  | keyword k => cases k <;> first | decide | cases h
  | _ => simp

/-- A constraint on a whole table, behind its name. -/
def readUnnamed : List Lexeme → Except Fault (Option Constraint × List Lexeme)
  | [] => fail .constraintKind []
  | l :: rest =>
    match l.token with
    | .keyword .primary => do
      let ts ← expect (.keyword .key) "KEY after PRIMARY" rest
      let (columns, ts) ← readColumnList ts
      return (some (.primaryKey columns), ts)
    | .keyword .unique => do
      let ts := if nextToken rest = .keyword .key || nextToken rest = .keyword .index
        then rest.tail else rest
      let (columns, ts) ← readColumnList (skipName ts)
      return (some (.unique columns), ts)
    | .keyword .foreign => do
      let (key, ts) ← readForeignKey rest
      return (some (.foreignKey key), ts)
    | .keyword .check => do
      let (_, ts) ← readGroup rest
      return (none, ts)
    | _ => fail .constraintKind (l :: rest)

theorem readConstraint_eq (ts : List Lexeme) :
    readConstraint ts = readUnnamed (skipConstraintName ts) := by
  rw [readConstraint]
  cases skipConstraintName ts <;> rfl

theorem frames_readUnnamed {c : Option Constraint} (h : readUnnamed ts = .ok (c, rest)) :
    Frames .item readUnnamed (c, ·) ts rest := by
  cases ts with
  | nil => exact absurd h fail_ne_ok
  | cons l tail =>
    refine .cons (fun ts => readUnnamed.eq_2 l ts) ?_
    rw [readUnnamed] at h
    split at h
    · obtain ⟨mid, hkey, h⟩ := ok_of_bind h
      obtain ⟨⟨columns, mid'⟩, hcolumns, h⟩ := ok_of_bind h
      cases h
      exact (frames_expect hkey).bind ((frames_readColumnList hcolumns).bind (.refl fun _ _ => rfl))
    · obtain ⟨⟨columns, mid⟩, hcolumns, h⟩ := ok_of_bind h
      cases h
      have hlist := (frames_skipName (s := .item) _).skip (frames_readColumnList hcolumns)
      exact ((Frames.tailIf not_opensIndex_of_isHalt tail).skip hlist).bind (.refl fun _ _ => rfl)
    · obtain ⟨⟨key, mid⟩, hkey, h⟩ := ok_of_bind h
      cases h
      exact (frames_readForeignKey hkey).bind (.refl fun _ _ => rfl)
    · obtain ⟨⟨group, mid⟩, hgroup, h⟩ := ok_of_bind h
      cases h
      exact (frames_readGroup hgroup).bind (.refl fun _ _ => rfl)
    · exact absurd h fail_ne_ok

theorem frames_readConstraint {c : Option Constraint} (h : readConstraint ts = .ok (c, rest)) :
    Frames .item readConstraint (c, ·) ts rest := by
  rw [readConstraint_eq] at h
  exact .congr readConstraint_eq ((frames_skipConstraintName ts).skip (frames_readUnnamed h))

/-! ## Items -/

theorem skipUntil_of_endsItem (h : endsItem (nextToken ts) = true) :
    skipUntil endsItem ts = .ok ts := by
  cases ts with
  | nil => rw [skipUntil]
  | cons l tail => exact (skipUntil_cons endsItem l tail).trans (if_pos h)

theorem frames_skipUntil (h : skipUntil endsItem ts = .ok rest) :
    Frames .item (skipUntil endsItem) id ts rest := by
  have hstop : ∀ {ts : List Lexeme}, endsItem (nextToken ts) = true →
      Frames .item (skipUntil endsItem) id ts ts :=
    fun hts => .refl fun rest' hrest => skipUntil_of_endsItem (hrest.endsItem hts)
  fun_induction skipUntil endsItem ts with
  | case1 =>
    cases h
    exact hstop rfl
  | case2 l tail hl =>
    cases h
    exact hstop hl
  | case3 => cases h
  | case4 l tail hl hparen group mid hgroup ih =>
    have hread : ∀ ts, skipUntil endsItem (l :: ts) =
        readGroup (l :: ts) >>= fun a => skipUntil endsItem a.2 := fun ts =>
      (skipUntil_cons endsItem l ts).trans ((if_neg hl).trans (if_pos hparen))
    have hframes : Frames .item (fun ts => readGroup ts >>= fun a => skipUntil endsItem a.2) id
        (l :: tail) rest := (frames_readGroup hgroup).bind (ih h)
    have hlength := Nat.lt_of_le_of_lt (length_skipUntil h) (length_readGroup hgroup)
    exact .cons hread (hframes.uncons hlength)
  | case5 l tail hl hparen ih =>
    have hread : ∀ ts, skipUntil endsItem (l :: ts) = skipUntil endsItem ts := fun ts =>
      (skipUntil_cons endsItem l ts).trans ((if_neg hl).trans (if_neg hparen))
    exact .cons hread (ih h)

theorem opensColumnList_of_ne (h : nextToken ts ≠ .leftParen) : opensColumnList ts = false := by
  rcases ts with _ | ⟨l, _ | ⟨name, rest⟩⟩
  · rfl
  · rfl
  · exact Bool.and_eq_false_iff.mpr (.inl (decide_eq_false h))

section

variable {used rest' : List Lexeme}

/-- Lexemes that close their parentheses tell whether a list of columns comes first. -/
theorem opensColumnList_append (hclosed : Closed isComma used)
    (hrest : isBreak (nextToken rest) = true) (hrest' : isBreak (nextToken rest') = true) :
    opensColumnList (used ++ rest') = opensColumnList (used ++ rest) := by
  have hne : ∀ t, isBreak t = true → t ≠ .leftParen := fun t ht =>
    ne_of_isHalt rfl t (isHalt_of_isBreak ht)
  match used, hclosed with
  | [], _ =>
    exact (opensColumnList_of_ne (hne _ hrest')).trans (opensColumnList_of_ne (hne _ hrest)).symm
  | [l], hclosed =>
    have hl : l.token ≠ .leftParen := by
      intro hl
      rw [Closed, depthOver_cons, hl] at hclosed
      cases hclosed
    have hsame : ∀ ts, opensColumnList (l :: ts) = false := fun _ => opensColumnList_of_ne hl
    exact (hsame rest').trans (hsame rest).symm
  | _ :: _ :: _, _ => rfl

theorem closed_of_cons {l : Lexeme} (hl : isDivider l.token = false)
    (h : Closed isComma (l :: used)) : Closed isComma used := by
  rw [Closed, depthOver_cons, nest_of_isDivider isDivider_of_isComma hl] at h
  exact h

theorem definesIndex_append (hclosed : Closed isComma used)
    (hrest : isBreak (nextToken rest) = true) (hrest' : isBreak (nextToken rest') = true) :
    definesIndex (used ++ rest') = definesIndex (used ++ rest) := by
  have hnext : ∀ (p : Token → Bool), (∀ t, isHalt t = true → ¬p t = true) → ∀ used : List Lexeme,
      p (nextToken (used ++ rest')) = p (nextToken (used ++ rest)) := by
    intro p hp used
    cases used with
    | nil =>
      exact (Bool.of_not_eq_true (hp _ (isHalt_of_isBreak hrest'))).trans
        (Bool.of_not_eq_true (hp _ (isHalt_of_isBreak hrest))).symm
    | cons l used => rfl
  rw [definesIndex, definesIndex, opensColumnList_append hclosed hrest hrest',
    hnext _ not_isName_of_isHalt]
  congr 1
  cases hname : (nextToken (used ++ rest)).isName with
  | false => rfl
  | true =>
    -- A name stands in front of the list, so it is among the lexemes before the break.
    cases used with
    | nil => exact absurd hname (not_isName_of_isHalt _ (isHalt_of_isBreak hrest))
    | cons l used =>
      have hused := closed_of_cons (isDivider_of_isName hname) hclosed
      show (true && (opensColumnList (used ++ rest') || _)) = (true && (opensColumnList _ || _))
      rw [opensColumnList_append hused hrest hrest']
      congr 2
      exact hnext _ (not_isWord_of_isHalt "using") used

end

/-- The clauses of a column of which the name and the type were read. -/
def readTyped (dialect : Dialect) (position : Text.Position) (name : String) (raw : List Char)
    (ts : List Lexeme) : Except Fault ((ColumnDef × List PlacedConstraint) × List Lexeme) :=
  if raw.isEmpty then fail (.missingType name) ts
  else
    match TypeName.toType? dialect (String.ofList raw) with
    | none => .error ⟨.unsupportedType (String.ofList raw) name, some position⟩
    | some type => do
      let (clauses, ts) ← readColumnClauses ts
      return ((clauses.foldl ColumnDef.apply ⟨name, type, false, false, true, position⟩,
        clauses.filterMap (ColumnClause.constraint? name)), ts)

theorem readColumn_cons (dialect : Dialect) (l : Lexeme) (ts : List Lexeme) :
    readColumn dialect (l :: ts) = readName "column name" (l :: ts) >>= fun a =>
      readTypeName [] a.2 >>= fun b => readTyped dialect l.position a.1 b.1 b.2 := by
  rw [readColumn]
  refine bind_congr fun a => bind_congr fun b => ?_
  dsimp only
  unfold readTyped
  refine if_congr .rfl rfl ?_
  cases TypeName.toType? dialect (String.ofList b.1) <;> rfl

theorem frames_readTyped {dialect : Dialect} {position : Text.Position} {name : String}
    {raw : List Char} {c : ColumnDef × List PlacedConstraint}
    (h : readTyped dialect position name raw ts = .ok (c, rest)) :
    Frames .item (readTyped dialect position name raw) (c, ·) ts rest := by
  unfold readTyped at h ⊢
  split at h
  · exact absurd h fail_ne_ok
  · next hraw =>
    simp only [hraw]
    split at h
    · cases h
    · next type hfound =>
      obtain ⟨⟨clauses, mid⟩, hclauses, h⟩ := ok_of_bind h
      cases h
      exact (frames_readColumnClauses hclauses).bind (.refl fun _ _ => rfl)

theorem frames_readColumn {dialect : Dialect} {l : Lexeme} {c : ColumnDef × List PlacedConstraint}
    (h : readColumn dialect (l :: ts) = .ok (c, rest)) :
    Frames .item (fun ts => readColumn dialect (l :: ts)) (c, ·) ts rest := by
  rw [readColumn_cons] at h
  obtain ⟨⟨name, mid⟩, hname, h⟩ := ok_of_bind h
  obtain ⟨⟨raw, mid'⟩, htype, h⟩ := ok_of_bind h
  have hread : Frames .item (fun ts => readTypeName [] ts >>= fun b =>
      readTyped dialect l.position name b.1 b.2) (c, ·) mid rest :=
    (frames_readTypeName htype).bind (frames_readTyped h)
  exact .congr (readColumn_cons dialect l)
    (((frames_readName hname).uncons (length_readName hname)).bind hread)

/-- The words that a constraint on a whole table begins with. -/
def opensConstraint : Token → Bool
  | .keyword .constraint | .keyword .primary | .keyword .unique | .keyword .foreign
  | .keyword .check => true
  | _ => false

/-- Whether the lexemes begin with the definition of an index. -/
def opensIndex (l : Lexeme) (ts : List Lexeme) : Bool :=
  (l.token = .keyword .index || l.token = .keyword .key) && definesIndex ts

theorem opensIndex_append {l : Lexeme} {used rest' : List Lexeme}
    (hclosed : Closed isComma (l :: used)) (hrest : isBreak (nextToken rest) = true)
    (hrest' : isBreak (nextToken rest') = true) :
    opensIndex l (used ++ rest') = opensIndex l (used ++ rest) := by
  cases hword : (l.token = .keyword .index || l.token = .keyword .key : Bool) with
  | false =>
    rw [opensIndex, opensIndex, hword]
    rfl
  | true =>
    have hl : isDivider l.token = false := by
      rw [Bool.or_eq_true, decide_eq_true_iff, decide_eq_true_iff] at hword
      rcases hword with hl | hl <;> rw [hl] <;> rfl
    rw [opensIndex, opensIndex, definesIndex_append (closed_of_cons hl hclosed) hrest hrest']

/-- An item is told by its first token, and that of an index by those after it, too. -/
theorem readItem_cons (dialect : Dialect) (l : Lexeme) (ts : List Lexeme) :
    readItem dialect (l :: ts) =
      if opensConstraint l.token then
        readConstraint (l :: ts) >>= fun a => .ok (⟨[], a.1.toList.map (·, l.position)⟩, a.2)
      else if opensIndex l ts then skipUntil endsItem ts >>= fun ts => .ok (.empty, ts)
      else if l.name?.isSome then
        readColumn dialect (l :: ts) >>= fun a => .ok (⟨[a.1.1], a.1.2⟩, a.2)
      else fail (.unexpectedItem l.token) (l :: ts) := by
  unfold readItem opensIndex
  dsimp only
  split
  iterate 5
    next hl =>
      rw [hl]
      rfl
  next hconstraint hprimary hunique hforeign hcheck =>
    have hopens : opensConstraint l.token = false := by
      unfold opensConstraint
      split <;> first | contradiction | rfl
    rw [hopens]
    rfl

/-- The item is read as `b` in front of everything that ends an item. -/
def ReadsAs (dialect : Dialect) (item : List Lexeme) (b : Body) : Prop :=
  ∀ rest, endsItem (nextToken rest) = true → readItem dialect (item ++ rest) = .ok (b, rest)

/-- What is read in front of one end of an item is read in front of all of them. -/
theorem readsAs_of_readItem {dialect : Dialect} {item : List Lexeme} {b : Body}
    (h : readItem dialect (item ++ rest) = .ok (b, rest)) (hclosed : Closed isComma item)
    (hends : endsItem (nextToken rest) = true) (hne : rest ≠ []) : ReadsAs dialect item b := by
  intro rest' hends'
  have hfits : Fits .item rest rest' :=
    ⟨fun hnil => absurd hnil hne, .inr hends'⟩
  cases item with
  | nil => exact absurd (length_readItem h) (Nat.lt_irrefl _)
  | cons l item =>
    rw [List.cons_append, readItem_cons] at h ⊢
    split at h
    · next hopens =>
      rw [if_pos hopens]
      obtain ⟨⟨constraint, mid⟩, hconstraint, h⟩ := ok_of_bind h
      cases h
      rw [← List.cons_append] at hconstraint ⊢
      rw [(frames_readConstraint hconstraint).read_append hfits]
      rfl
    · next hopens =>
      rw [if_neg hopens]
      have hindex : opensIndex l (item ++ rest') = opensIndex l (item ++ rest) :=
        opensIndex_append hclosed (isBreak_of_endsItem hends) (isBreak_of_endsItem hends')
      rw [hindex]
      split at h
      · next hdefines =>
        rw [if_pos hdefines]
        obtain ⟨mid, hskip, h⟩ := ok_of_bind h
        cases h
        rw [(frames_skipUntil hskip).read_append hfits]
        rfl
      · next hdefines =>
        rw [if_neg hdefines]
        split at h
        · next hname =>
          rw [if_pos hname]
          obtain ⟨⟨c, mid⟩, hcolumn, h⟩ := ok_of_bind h
          cases h
          rw [(frames_readColumn hcolumn).read_append hfits]
          rfl
        · exact absurd h fail_ne_ok

end Sql
end Schemata
