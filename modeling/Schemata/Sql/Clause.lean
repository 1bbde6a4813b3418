/-
The parts that definitions are made of: names, groups in parentheses, lists of columns, references
and default values.  A reader takes lexemes from the head of a list and returns what it read with
the lexemes that are left, of which there are never more than before.
-/
import Schemata.Sql.Definition

namespace Schemata
namespace Sql

open Text (Position)

/-- What is wrong, and the position of the lexeme at which it was noticed.  There is none at the
end of a statement. -/
structure Fault where
  cause : Cause
  position : Option Position
  deriving DecidableEq, Repr

def nextToken (ts : List Lexeme) : Token := (ts.head?.map (·.token)).getD .eof

def nextPosition (ts : List Lexeme) : Option Position := ts.head?.map (·.position)

def fail (fault : SyntaxFault) (ts : List Lexeme) : Except Fault α :=
  .error ⟨.malformed fault, nextPosition ts⟩

theorem ok_of_bind {x : Except ε α} {f : α → Except ε β} {b : β} (h : (x >>= f) = .ok b) :
    ∃ a, x = .ok a ∧ f a = .ok b := by
  cases x with
  | error e => cases h
  | ok a => exact ⟨a, rfl, h⟩

theorem fail_ne_ok {fault : SyntaxFault} {ts : List Lexeme} {a : α} : fail fault ts ≠ .ok a := by
  simp [fail]

/-! ## Tokens -/

/-- The lexemes after the next token, which has to be `token`. -/
def expect (token : Token) (what : String) (ts : List Lexeme) : Except Fault (List Lexeme) :=
  match ts with
  | [] => fail (.expected what .eof) []
  | l :: rest => if l.token = token then .ok rest else fail (.expected what l.token) (l :: rest)

/-- The lexemes after the next token if it is `token`, and all of them otherwise. -/
def skipIf (token : Token) (ts : List Lexeme) : List Lexeme :=
  if nextToken ts = token then ts.tail else ts

/-- The lexemes after a name in quotation marks or without, if one comes next. -/
def skipName (ts : List Lexeme) : List Lexeme :=
  if (nextToken ts).isName then ts.tail else ts

/-- The name that a lexeme spells.  A keyword counts as a name where a name has to stand. -/
def Lexeme.name? (l : Lexeme) : Option String :=
  match l.token with
  | .ident name => some name
  | .quoted name => some name
  | .keyword _ => some (String.ofList (Text.squeeze l.text))
  | _ => none

def readName (what : String) (ts : List Lexeme) : Except Fault (String × List Lexeme) :=
  match ts with
  | [] => fail (.expected what .eof) []
  | l :: rest =>
    match l.name? with
    | some name => .ok (name, rest)
    | none => fail (.expected what l.token) (l :: rest)

/-- The last part of a name whose parts before it, each with a dot after it, were read already. -/
def lastPart (what name : String) : List Lexeme → Except Fault (String × List Lexeme)
  | [] => .ok (name, [])
  | [d] => if d.token = .dot then fail (.expected what .eof) [] else .ok (name, [d])
  | d :: l :: rest =>
    if d.token = .dot then
      match l.name? with
      | some part => lastPart what part rest
      | none => fail (.expected what l.token) (l :: rest)
    else .ok (name, d :: l :: rest)

theorem lastPart_eq (what name : String) (ts : List Lexeme) : lastPart what name ts =
    if nextToken ts = .dot then do
      let (part, rest) ← readName what ts.tail
      lastPart what part rest
    else .ok (name, ts) := by
  fun_cases lastPart what name ts with
  | case1 => rfl
  | case2 d hd => exact (if_pos hd).symm
  | case3 d hd => exact (if_neg hd).symm
  | case4 d l rest hd part hpart =>
    refine Eq.trans ?_ (if_pos hd).symm
    rw [List.tail_cons, readName, hpart]
    rfl
  | case5 d l rest hd hpart =>
    refine Eq.trans ?_ (if_pos hd).symm
    rw [List.tail_cons, readName, hpart]
    rfl
  | case6 d l rest hd => exact (if_neg hd).symm

/-- A name in front of which there may be others with dots, such as the name of a catalogue.  Only
the last part counts. -/
def readQualifiedName (what : String) (ts : List Lexeme) : Except Fault (String × List Lexeme) := do
  let (name, ts) ← readName what ts
  lastPart what name ts

theorem length_expect {token : Token} {what : String} {ts rest : List Lexeme}
    (h : expect token what ts = .ok rest) : rest.length < ts.length := by
  unfold expect at h
  split at h
  · exact absurd h fail_ne_ok
  · split at h
    · cases h; simp
    · exact absurd h fail_ne_ok

theorem length_skipIf (token : Token) (ts : List Lexeme) :
    (skipIf token ts).length ≤ ts.length := by
  unfold skipIf
  split <;> simp

theorem length_skipName (ts : List Lexeme) : (skipName ts).length ≤ ts.length := by
  unfold skipName
  split <;> simp

theorem length_readName {what name : String} {ts rest : List Lexeme}
    (h : readName what ts = .ok (name, rest)) : rest.length < ts.length := by
  unfold readName at h
  split at h
  · exact absurd h fail_ne_ok
  · split at h
    · cases h; simp
    · exact absurd h fail_ne_ok

theorem length_lastPart {what name part : String} {ts rest : List Lexeme}
    (h : lastPart what name ts = .ok (part, rest)) : rest.length ≤ ts.length := by
  fun_induction lastPart what name ts with
  | case1 => cases h; simp
  | case2 => exact absurd h fail_ne_ok
  | case3 => cases h; simp
  | case4 name d l tail _ _ _ ih => have := ih h; simp only [List.length_cons]; omega
  | case5 => exact absurd h fail_ne_ok
  | case6 => cases h; simp

theorem length_readQualifiedName {what name : String} {ts rest : List Lexeme}
    (h : readQualifiedName what ts = .ok (name, rest)) : rest.length < ts.length := by
  obtain ⟨⟨first, mid⟩, h₁, h₂⟩ := ok_of_bind h
  exact Nat.lt_of_le_of_lt (length_lastPart h₂) (length_readName h₁)

/-! ## Groups -/

/-- The lexemes through the parenthesis that closes the group, inside `depth` further groups, and
the lexemes after it. -/
def closeGroup : Nat → List Lexeme → Except Fault (List Lexeme × List Lexeme)
  | _, [] => fail .unclosedParen []
  | depth, l :: rest =>
    match l.token, depth with
    | .rightParen, 0 => .ok ([l], rest)
    | .rightParen, depth + 1 => do
      let (group, ts) ← closeGroup depth rest
      return (l :: group, ts)
    | .leftParen, depth => do
      let (group, ts) ← closeGroup (depth + 1) rest
      return (l :: group, ts)
    | _, depth => do
      let (group, ts) ← closeGroup depth rest
      return (l :: group, ts)

/-- A group in parentheses, which may hold anything. -/
def readGroup (ts : List Lexeme) : Except Fault (List Lexeme × List Lexeme) :=
  match ts with
  | [] => fail (.expected "`(`" .eof) []
  | l :: rest =>
    if l.token = .leftParen then do
      let (group, ts) ← closeGroup 0 rest
      return (l :: group, ts)
    else fail (.expected "`(`" l.token) (l :: rest)

/-- The lexemes after a group, if one comes next. -/
def skipGroup? (ts : List Lexeme) : Except Fault (List Lexeme) :=
  if nextToken ts = .leftParen then (readGroup ts).map (·.2) else .ok ts

/-- A group is the part of the lexemes that is taken away. -/
theorem closeGroup_append {depth : Nat} {ts group rest : List Lexeme}
    (h : closeGroup depth ts = .ok (group, rest)) : group ++ rest = ts ∧ group ≠ [] := by
  fun_induction closeGroup depth ts generalizing group rest with
  | case1 => exact absurd h fail_ne_ok
  | case2 => cases h; exact ⟨rfl, by simp⟩
  | case3 l tail _ depth ih =>
    obtain ⟨⟨g, r⟩, h₁, h₂⟩ := ok_of_bind h
    cases h₂
    exact ⟨by rw [List.cons_append, (ih h₁).1], by simp⟩
  | case4 l tail depth _ ih =>
    obtain ⟨⟨g, r⟩, h₁, h₂⟩ := ok_of_bind h
    cases h₂
    exact ⟨by rw [List.cons_append, (ih h₁).1], by simp⟩
  | case5 depth l tail _ _ _ ih =>
    obtain ⟨⟨g, r⟩, h₁, h₂⟩ := ok_of_bind h
    cases h₂
    exact ⟨by rw [List.cons_append, (ih h₁).1], by simp⟩

theorem readGroup_append {ts group rest : List Lexeme} (h : readGroup ts = .ok (group, rest)) :
    group ++ rest = ts ∧ group ≠ [] := by
  unfold readGroup at h
  split at h
  · exact absurd h fail_ne_ok
  · split at h
    · obtain ⟨⟨g, r⟩, h₁, h₂⟩ := ok_of_bind h
      cases h₂
      exact ⟨by rw [List.cons_append, (closeGroup_append h₁).1], by simp⟩
    · exact absurd h fail_ne_ok

theorem length_readGroup {ts group rest : List Lexeme} (h : readGroup ts = .ok (group, rest)) :
    rest.length < ts.length := by
  obtain ⟨happ, hne⟩ := readGroup_append h
  have hlen := congrArg List.length happ
  have hpos := List.length_pos_iff.mpr hne
  simp only [List.length_append] at hlen
  omega

theorem length_skipGroup? {ts rest : List Lexeme} (h : skipGroup? ts = .ok rest) :
    rest.length ≤ ts.length := by
  unfold skipGroup? at h
  split at h
  · cases hg : readGroup ts with
    | error e => rw [hg] at h; cases h
    | ok p => rw [hg] at h; cases h; exact Nat.le_of_lt (length_readGroup hg)
  · cases h; exact Nat.le_refl _

/-! ## Lists of columns -/

/-- Whether another item of a list follows, by the comma after an item or the parenthesis that
closes the list, and the lexemes after it. -/
def readSeparator (fault : SyntaxFault) (ts : List Lexeme) : Except Fault (Bool × List Lexeme) :=
  match ts with
  | [] => fail fault []
  | l :: rest =>
    if l.token = .comma then .ok (true, rest)
    else if l.token = .rightParen then .ok (false, rest)
    else fail fault (l :: rest)

theorem length_readSeparator {fault : SyntaxFault} {ts rest : List Lexeme} {more : Bool}
    (h : readSeparator fault ts = .ok (more, rest)) : rest.length < ts.length := by
  unfold readSeparator at h
  split at h
  · exact absurd h fail_ne_ok
  · split at h
    · cases h; simp
    · split at h
      · cases h; simp
      · exact absurd h fail_ne_ok

/-- An entry of a list of columns: a name, of which a leading part may be indexed, with a sort
order. -/
def readColumnEntry (ts : List Lexeme) : Except Fault (String × List Lexeme) := do
  let (name, ts) ← readName "column name" ts
  let ts ← skipGroup? ts
  return (name, if (nextToken ts).isWord "asc" || (nextToken ts).isWord "desc" then ts.tail else ts)

theorem length_readColumnEntry {name : String} {ts rest : List Lexeme}
    (h : readColumnEntry ts = .ok (name, rest)) : rest.length < ts.length := by
  obtain ⟨⟨n, mid⟩, h₁, h₂⟩ := ok_of_bind h
  obtain ⟨mid', h₃, h₄⟩ := ok_of_bind h₂
  have hn := length_readName h₁
  have hg := length_skipGroup? h₃
  cases h₄
  split
  · simp only [List.length_tail]; omega
  · omega

/-- The names of a list of columns and the parenthesis that closes it. -/
def readColumnEntries (ts : List Lexeme) : Except Fault (List String × List Lexeme) :=
  match _entry : readColumnEntry ts with
  | .error e => .error e
  | .ok (name, rest) =>
    match _separator : readSeparator .nameSeparator rest with
    | .error e => .error e
    | .ok (false, rest) => .ok ([name], rest)
    | .ok (true, rest) => do
      let (names, ts) ← readColumnEntries rest
      return (name :: names, ts)
termination_by ts.length
decreasing_by exact Nat.lt_trans (length_readSeparator _separator) (length_readColumnEntry _entry)

theorem readColumnEntries_eq (ts : List Lexeme) : readColumnEntries ts = do
    let (name, rest) ← readColumnEntry ts
    let (more, rest) ← readSeparator .nameSeparator rest
    if more then
      let (names, rest) ← readColumnEntries rest
      return (name :: names, rest)
    else return ([name], rest) := by
  rw [readColumnEntries]
  split
  · next he => rw [he]; rfl
  · next he =>
    rw [he]
    show _ = readSeparator .nameSeparator _ >>= _
    split <;> next hs => rw [hs]; rfl

def readColumnList (ts : List Lexeme) : Except Fault (List String × List Lexeme) := do
  let ts ← expect .leftParen "`(` before column list" ts
  readColumnEntries ts

theorem length_readColumnEntries {ts rest : List Lexeme} {names : List String}
    (h : readColumnEntries ts = .ok (names, rest)) : rest.length < ts.length := by
  fun_induction readColumnEntries ts generalizing names with
  | case1 => cases h
  | case2 => cases h
  | case3 ts name mid he rest hs =>
    cases h
    exact Nat.lt_trans (length_readSeparator hs) (length_readColumnEntry he)
  | case4 ts name mid he rest hs ih =>
    obtain ⟨⟨ns, r⟩, h₁, h₂⟩ := ok_of_bind h
    cases h₂
    exact Nat.lt_trans (ih h₁) (Nat.lt_trans (length_readSeparator hs) (length_readColumnEntry he))

theorem length_readColumnList {ts rest : List Lexeme} {names : List String}
    (h : readColumnList ts = .ok (names, rest)) : rest.length < ts.length := by
  obtain ⟨mid, h₁, h₂⟩ := ok_of_bind h
  exact Nat.lt_trans (length_readColumnEntries h₂) (length_expect h₁)

/-! ## References -/

/-- What happens to the rows of a table when the rows they refer to change, after the word `ON`. -/
def skipAction (ts : List Lexeme) : Except Fault (List Lexeme) :=
  if (nextToken ts).isWord "delete" || (nextToken ts).isWord "update" then
    let ts := ts.tail
    if (nextToken ts).isWord "set" || (nextToken ts).isWord "no" then .ok (ts.drop 2)
    else if (nextToken ts).isName then skipGroup? ts.tail
    else fail .action ts
  else fail .actionEvent ts

theorem length_skipAction {ts rest : List Lexeme} (h : skipAction ts = .ok rest) :
    rest.length ≤ ts.length := by
  unfold skipAction at h
  split at h
  · dsimp only at h
    split at h
    · cases h; simp only [List.length_drop, List.length_tail]; omega
    · split at h
      · have := length_skipGroup? h
        simp only [List.length_tail] at this
        omega
      · exact absurd h fail_ne_ok
  · exact absurd h fail_ne_ok

def skipActions (ts : List Lexeme) : Except Fault (List Lexeme) :=
  match ts with
  | [] => .ok []
  | l :: tail =>
    if l.token = .keyword .on then
      match _h : skipAction tail with
      | .error e => .error e
      | .ok rest => skipActions rest
    else .ok (l :: tail)
termination_by ts.length
decreasing_by exact Nat.lt_succ_of_le (length_skipAction _h)

theorem skipActions_cons (l : Lexeme) (tail : List Lexeme) : skipActions (l :: tail) =
    if l.token = .keyword .on then skipAction tail >>= skipActions else .ok (l :: tail) := by
  rw [skipActions]
  split
  · split <;> next h => rw [h]; rfl
  · rfl

theorem length_skipActions {ts rest : List Lexeme} (h : skipActions ts = .ok rest) :
    rest.length ≤ ts.length := by
  fun_induction skipActions ts with
  | case1 => cases h; simp
  | case2 => cases h
  | case3 l tail _ mid hm ih =>
    have := length_skipAction hm
    have := ih h
    simp only [List.length_cons]
    omega
  | case4 => cases h; simp

/-- The table that columns refer to, and the columns of it, none of which need to be written. -/
structure Target where
  table : String
  columns : List String
  deriving DecidableEq, Repr

/-- The lexemes after the sort of match that a reference asks for, which is one further word. -/
def skipMatch (ts : List Lexeme) : List Lexeme :=
  if (nextToken ts).isWord "match" then ts.drop 2 else ts

theorem length_skipMatch (ts : List Lexeme) : (skipMatch ts).length ≤ ts.length := by
  unfold skipMatch
  split <;> simp

def readTargetColumns (ts : List Lexeme) : Except Fault (List String × List Lexeme) :=
  if nextToken ts = .leftParen then readColumnList ts else .ok ([], ts)

/-- A reference, after the word `REFERENCES`. -/
def readTarget (ts : List Lexeme) : Except Fault (Target × List Lexeme) := do
  let (table, ts) ← readQualifiedName "referenced table" ts
  let (columns, ts) ← readTargetColumns ts
  let ts ← skipActions (skipMatch ts)
  return (⟨table, columns⟩, ts)

theorem length_readTarget {ts rest : List Lexeme} {target : Target}
    (h : readTarget ts = .ok (target, rest)) : rest.length < ts.length := by
  obtain ⟨⟨table, mid⟩, h₁, h⟩ := ok_of_bind h
  obtain ⟨⟨columns, mid'⟩, h₂, h⟩ := ok_of_bind h
  obtain ⟨mid'', h₃, h⟩ := ok_of_bind h
  cases h
  have := length_readQualifiedName h₁
  have := length_skipActions h₃
  have := length_skipMatch mid'
  have : mid'.length ≤ mid.length := by
    unfold readTargetColumns at h₂
    split at h₂
    · exact Nat.le_of_lt (length_readColumnList h₂)
    · cases h₂; exact Nat.le_refl _
  simp only at *
  omega

/-! ## Default values -/

def isOperator : Token → Bool
  | .symbol _ => true
  | .dot => true
  | _ => false

/-- The lexemes after an operand of a default value: a literal, a name, the call of a function or
a group. -/
def skipOperand (ts : List Lexeme) : Except Fault (List Lexeme) :=
  match ts with
  | [] => fail .defaultValue []
  | l :: rest =>
    match l.token with
    | .leftParen => (readGroup (l :: rest)).map (·.2)
    | .ident _ => skipGroup? rest
    | .str _ | .num _ | .keyword .null | .quoted _ => .ok rest
    | _ => fail .defaultValue (l :: rest)

theorem length_skipOperand {ts rest : List Lexeme} (h : skipOperand ts = .ok rest) :
    rest.length < ts.length := by
  unfold skipOperand at h
  split at h
  · exact absurd h fail_ne_ok
  · next l tail =>
    split at h
    · cases hg : readGroup (l :: tail) with
      | error e => rw [hg] at h; cases h
      | ok p => rw [hg] at h; cases h; exact length_readGroup hg
    · exact Nat.lt_succ_of_le (length_skipGroup? h)
    · cases h; simp
    · cases h; simp
    · cases h; simp
    · cases h; simp
    · exact absurd h fail_ne_ok

/-- The lexemes after a default value, whose operands are joined by operators. -/
def skipExpression (ts : List Lexeme) : Except Fault (List Lexeme) :=
  match _h : skipOperand ts with
  | .error e => .error e
  | .ok rest =>
    if isOperator (nextToken rest) then skipExpression (rest.dropWhile (isOperator ·.token))
    else .ok rest
termination_by ts.length
decreasing_by
  exact Nat.lt_of_le_of_lt (List.dropWhile_suffix _).length_le (length_skipOperand _h)

theorem skipExpression_eq (ts : List Lexeme) : skipExpression ts = do
    let rest ← skipOperand ts
    if isOperator (nextToken rest) then skipExpression (rest.dropWhile (isOperator ·.token))
    else return rest := by
  rw [skipExpression]
  split <;> next h => rw [h]; rfl

theorem length_skipExpression {ts rest : List Lexeme} (h : skipExpression ts = .ok rest) :
    rest.length < ts.length := by
  fun_induction skipExpression ts with
  | case1 => cases h
  | case2 ts mid hm _ ih =>
    have h₁ := length_skipOperand hm
    have h₂ := (List.dropWhile_suffix (l := mid) (isOperator ·.token)).length_le
    have h₃ := ih h
    omega
  | case3 ts mid hm _ => cases h; exact length_skipOperand hm

end Sql
end Schemata
