/-
The bodies of tables.  If no mark is passed over without a look at it, the body of a table ends at
the parenthesis that matches the one that opens it, and all its items are read, which stand between
the commas outside of groups.  Otherwise the body may end early, and the columns after its end are
lost.
-/
import Schemata.Proofs.Forall2
import Schemata.Proofs.Sql.Parts
import Schemata.Proofs.Sql.Passing

namespace Schemata
namespace Sql

/-- The items of a list, of which the first goes on from `item`, where `depth` parentheses are
open. -/
def cutItems (depth : Nat) (item : List Lexeme) : List Lexeme → List (List Lexeme)
  | [] => [item]
  | l :: rest =>
    match l.token with
    | .leftParen => cutItems (depth + 1) (item ++ [l]) rest
    | .rightParen => cutItems (depth - 1) (item ++ [l]) rest
    | .comma =>
      if depth = 0 then item :: cutItems 0 [] rest else cutItems depth (item ++ [l]) rest
    | _ => cutItems depth (item ++ [l]) rest

/-- The items between the parentheses of a table body, which may be empty. -/
def bodyItems (inner : List Lexeme) : List (List Lexeme) :=
  if inner.isEmpty then [] else cutItems 0 [] inner

theorem cutItems_append {d e : Nat} {ls : List Lexeme} (h : depthOver isComma d ls = some e)
    (item rest : List Lexeme) : cutItems d item (ls ++ rest) = cutItems e (item ++ ls) rest := by
  induction ls generalizing d item with
  | nil =>
    cases h
    rw [List.append_nil, List.nil_append]
  | cons l ls ih =>
    rw [depthOver_cons] at h
    obtain ⟨m, hm, hls⟩ := Option.bind_eq_some_iff.mp h
    rw [List.cons_append, cutItems, List.append_cons item l ls]
    cases ht : l.token with
    | leftParen =>
      rw [ht] at hm
      cases hm
      exact ih hls (item ++ [l])
    | rightParen =>
      rw [ht] at hm
      cases d with
      | zero => cases hm
      | succ d =>
        cases hm
        exact ih hls (item ++ [l])
    | comma =>
      have hd : d ≠ 0 := by
        intro hd
        rw [ht, hd] at hm
        cases hm
      have hmd := nest_eq_some_of_ne (by simp [ht]) (by simp [ht]) hm
      subst hmd
      simp only [if_neg hd]
      exact ih hls (item ++ [l])
    | _ =>
      have hmd := nest_eq_some_of_ne (by simp [ht]) (by simp [ht]) hm
      subst hmd
      exact ih hls (item ++ [l])

theorem cutItems_closed {item : List Lexeme} (h : Closed isComma item) :
    cutItems 0 [] item = [item] := by
  have happend := cutItems_append h [] []
  rwa [List.append_nil, List.nil_append] at happend

theorem cutItems_comma {item : List Lexeme} (h : Closed isComma item) {l : Lexeme}
    (hl : l.token = .comma) (rest : List Lexeme) :
    cutItems 0 [] (item ++ l :: rest) = item :: cutItems 0 [] rest := by
  rw [cutItems_append h, cutItems, hl, List.nil_append]
  rfl

/-! ## Items that are read -/

/-- The item is read as `body`, and nothing of it is left. -/
def ReadWhole (dialect : Dialect) (item : List Lexeme) (body : Body) : Prop :=
  ∃ rest, readItem dialect (item ++ rest) = .ok (body, rest)

/-- The columns and constraints of all items, in order. -/
def Body.join (bodies : List Body) : Body :=
  ⟨bodies.flatMap (·.columns), bodies.flatMap (·.constraints)⟩

theorem Body.join_cons (b : Body) (bs : List Body) : Body.join (b :: bs) = b ++ Body.join bs := by
  rw [join, List.flatMap_cons, List.flatMap_cons]
  rfl

theorem Body.join_singleton (b : Body) : Body.join [b] = b := by
  rw [join, List.flatMap_singleton, List.flatMap_singleton]

theorem readItem_ne_nil {dialect : Dialect} {item rest : List Lexeme} {b : Body}
    (h : readItem dialect (item ++ rest) = .ok (b, rest)) : item ≠ [] := by
  intro hnil
  subst hnil
  exact Nat.lt_irrefl _ (length_readItem h)

/-- The items up to the parenthesis that closes the body are read, and none after it. -/
theorem readItems_whole {dialect : Dialect} {taken : List String} {ts rest : List Lexeme}
    {body : Body} (h : readItems dialect taken ts = .ok (body, rest)) (hseen : MarksSeen ts) :
    ∃ inner close bodies, ts = inner ++ close :: rest ∧ close.token = .rightParen ∧ inner ≠ [] ∧
      Closed (fun _ => false) inner ∧
      List.Forall₂ (ReadWhole dialect) (cutItems 0 [] inner) bodies ∧
      body = Body.join bodies := by
  fun_induction readItems dialect taken ts generalizing body with
  | case1 => cases h
  | case2 => cases h
  | case3 => cases h
  | case4 taken ts body' mid hitem hnew last hseparator =>
    cases h
    obtain ⟨item, rfl, hclosed⟩ := passes_readItem hitem
    obtain ⟨close, rfl, hclose⟩ := ok_readSeparator hseparator
    refine ⟨item, close, [body'], rfl, hclose, readItem_ne_nil hitem,
      depthOver_unbroken (hclosed hseen.breaksSeen), ?_, (Body.join_singleton body').symm⟩
    rw [cutItems_closed (hclosed hseen.breaksSeen)]
    exact .cons ⟨_, hitem⟩ .nil
  | case5 taken ts body' mid hitem hnew last hseparator ih =>
    obtain ⟨⟨more, last'⟩, hmore, h⟩ := ok_of_bind h
    cases h
    obtain ⟨item, rfl, hclosed⟩ := passes_readItem hitem
    obtain ⟨comma, rfl, hcomma⟩ := ok_readSeparator hseparator
    have hseen' : MarksSeen last :=
      hseen.of_suffix ((List.suffix_cons comma last).trans (List.suffix_append item _))
    obtain ⟨inner, close, bodies, rfl, hclose, -, hinner, hbodies, rfl⟩ := ih hmore hseen'
    refine ⟨item ++ comma :: inner, close, body' :: bodies, ?_, hclose, by simp, ?_, ?_,
      (Body.join_cons body' bodies).symm⟩
    · rw [List.append_assoc, List.cons_append]
    · refine Closed.append (depthOver_unbroken (hclosed hseen.breaksSeen)) ?_
      exact depthOver_cons_of_nest (by rw [hcomma]; rfl) hinner
    · rw [cutItems_comma (hclosed hseen.breaksSeen) hcomma]
      exact .cons ⟨_, hitem⟩ hbodies

/-! ## Tables -/

/-- The lexemes after the word `CREATE` hold the body in parentheses, of which the one that closes
it is where the items end, and the items of `body` are all that stand between. -/
def BodyWhole (dialect : Dialect) (ts : List Lexeme) (body : Body) : Prop :=
  ∃ head opening inner close tail bodies,
    ts = head ++ opening :: (inner ++ close :: tail) ∧ opening.token = .leftParen ∧
      (∀ l ∈ head, l.token ≠ .leftParen) ∧
      closeGroup 0 (inner ++ close :: tail) = .ok (inner ++ [close], tail) ∧
      (inner = [] ∨ readItems dialect [] (inner ++ close :: tail) = .ok (body, tail)) ∧
      List.Forall₂ (ReadWhole dialect) (bodyItems inner) bodies ∧ body = Body.join bodies

theorem readCreate_whole {dialect : Dialect} {ts : List Lexeme} {name : String} {body : Body}
    (h : readCreate dialect ts = .ok (name, body)) (hseen : MarksSeen ts) :
    BodyWhole dialect ts body := by
  unfold readCreate at h
  obtain ⟨ts₁, htable, h⟩ := ok_of_bind h
  obtain ⟨ts₂, hexists, h⟩ := ok_of_bind h
  obtain ⟨⟨name', ts₃⟩, hname, h⟩ := ok_of_bind h
  obtain ⟨ts₄, hopen, hrest⟩ := ok_of_bind h
  dsimp only at hrest
  obtain ⟨head, rfl, hhead⟩ := plain_createHead htable hexists hname
  obtain ⟨opening, rfl, hopening⟩ := ok_expect hopen
  have hhead' : ∀ l ∈ head, l.token ≠ .leftParen := by
    intro l hl hleft
    have hmark := hhead l hl
    rw [hleft] at hmark
    cases hmark
  split at hrest
  · next hempty =>
    cases hrest
    cases ts₄ with
    | nil => cases hempty
    | cons close tail =>
      have hnil : depthOver isComma 0 [] = some 0 := rfl
      exact ⟨head, opening, [], close, tail, [], rfl, hopening, hhead',
        closeGroup_of_depthOver hnil hempty, .inl rfl, .nil, rfl⟩
  · obtain ⟨⟨body', tail⟩, hitems, hrest⟩ := ok_of_bind hrest
    cases hrest
    have hseen' : MarksSeen ts₄ :=
      hseen.of_suffix ((List.suffix_cons opening ts₄).trans (List.suffix_append head _))
    obtain ⟨inner, close, bodies, rfl, hclose, hne, hclosed, hbodies, hbody⟩ :=
      readItems_whole hitems hseen'
    refine ⟨head, opening, inner, close, tail, bodies, rfl, hopening, hhead',
      closeGroup_of_depthOver hclosed hclose, .inr hitems, ?_, hbody⟩
    rw [bodyItems, if_neg (by simpa using hne)]
    exact hbodies

/-- In a script that is read, every table whose statement passes over no mark unseen is read to the
end of its body, and the document has all of its columns and constraints. -/
theorem Document.bodyWhole_of_marksSeen {script : String} {choice : DialectChoice} {d : Document}
    (h : ofScript script choice = .ok d) :
    ∃ lexemes ss, tokenize script = .ok lexemes ∧ splitStatements lexemes = .ok ss ∧
      ∀ s ∈ ss, s.first.token = .keyword .create → MarksSeen s.others →
        ∃ name body, BodyWhole (choice.resolve lexemes) s.others body ∧
          (∃ t ∈ d.tables, t.name = name ∧ t.columns = body.columns) ∧
          ∀ c ∈ body.constraints, ∃ k ∈ d.constraints, k.table = name ∧ k.constraint = c.1 := by
  obtain ⟨lexemes, ss, parts, hlexemes, hss, hparts, rfl⟩ := ofScript_eq_ok.mp h
  refine ⟨lexemes, ss, hlexemes, hss, fun s hs hcreate hseen => ?_⟩
  obtain ⟨part, hpart, hread⟩ := exists_right_of_forall₂ hparts s hs
  unfold Statement.read at hread
  rw [hcreate] at hread
  obtain ⟨⟨name, body⟩, hcreated, hread⟩ := ok_of_bind hread
  cases hread
  refine ⟨name, body, readCreate_whole hcreated hseen, ?_, fun c hc => ?_⟩
  · exact ⟨_, List.mem_flatMap.mpr ⟨_, hpart, List.mem_singleton_self _⟩, rfl, rfl⟩
  · refine ⟨_, List.mem_flatMap.mpr ⟨_, hpart, List.mem_map_of_mem hc⟩, rfl, rfl⟩

/-- The body has a group, a list and an action, and an option comes after it. -/
def wholeTable : String :=
  "CREATE TABLE t (a INT CHECK (1), b INT REFERENCES t ON DELETE SET NULL, UNIQUE (a, b)) x"

theorem Document.bodyWhole_wholeTable :
    ∃ d lexemes ss, ofScript wholeTable .auto = .ok d ∧ tokenize wholeTable = .ok lexemes ∧
      splitStatements lexemes = .ok ss ∧ ss ≠ [] ∧
      ∀ s ∈ ss, MarksSeen s.others ∧
        ∃ name body, BodyWhole (DialectChoice.auto.resolve lexemes) s.others body ∧
          (∃ t ∈ d.tables, t.name = name ∧ t.columns = body.columns) ∧
          ∀ c ∈ body.constraints, ∃ k ∈ d.constraints, k.table = name ∧ k.constraint = c.1 := by
  have hok : (ofScript wholeTable .auto).toOption.isSome = true := by decide +kernel
  cases hd : ofScript wholeTable .auto with
  | error e =>
    rw [hd] at hok
    cases hok
  | ok d =>
    have hseen : statementsOf wholeTable ≠ [] ∧ ∀ s ∈ statementsOf wholeTable,
        s.first.token = .keyword .create ∧
          ∀ ts ∈ s.others.tails, ∀ t ∈ unseen? ts, isMark t = false := by decide +kernel
    obtain ⟨lexemes, ss, hlexemes, hss, hwhole⟩ := bodyWhole_of_marksSeen hd
    rw [statementsOf_eq hlexemes hss] at hseen
    refine ⟨d, lexemes, ss, rfl, hlexemes, hss, hseen.1, fun s hs => ?_⟩
    obtain ⟨hcreate, hmarks⟩ := hseen.2 s hs
    exact ⟨hmarks, hwhole s hs hcreate hmarks⟩

/-- The parenthesis after `SET` is passed over, so that the next one that closes ends the body. -/
def cutTable : String :=
  "CREATE TABLE t (x INT REFERENCES t ON DELETE SET (, y INT), z INT)"

/-- The script is accepted without its last column.  After the word `CREATE`, the name and the
opening parenthesis, the items leave four lexemes, and the group leaves none. -/
theorem Document.ofScript_cutTable :
    (∃ d, ofScript cutTable .auto = .ok d ∧
      d.tables.map (fun t => t.columns.map (·.name)) = [["x", "y"]]) ∧
    (statementsOf cutTable).map (fun s =>
      ((readItems .generic [] (s.others.drop 3)).toOption.map fun r => r.2.length,
        (closeGroup 0 (s.others.drop 3)).toOption.map fun r => r.2.length)) =
      [(some 4, some 0)] := by
  constructor
  · refine ⟨⟨[⟨"t", [⟨"x", .integer, false, false, true, ⟨1, 17⟩⟩,
      ⟨"y", .integer, false, false, true, ⟨1, 53⟩⟩], ⟨cutTable, ⟨1, 1⟩⟩⟩],
      [⟨"t", .foreignKey ⟨["x"], "t", []⟩, ⟨cutTable, ⟨1, 23⟩⟩⟩]⟩, ?_, rfl⟩
    decide +kernel
  · decide +kernel

end Sql
end Schemata
