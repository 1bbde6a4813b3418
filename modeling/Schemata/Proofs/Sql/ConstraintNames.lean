/-
The names of the constraints in a script.  A name is put together from the names of a table and of a
column, which may hold anything, and from the number of the relation.  Two tables and columns can
give the same beginning; but there is no underscore in a number, so the number can be read back from
the end of the name, and no two relations have the same one.
-/
import Schemata.Proofs.Sql.ScriptTokens

namespace Schemata
namespace Sql

/-! ## Numbers at the end of names -/

/-- What comes after the last `x` is determined by the whole. -/
theorem eq_of_append_cons_eq {x : α} {xs xs' ys ys' : List α} (h : xs ++ x :: ys = xs' ++ x :: ys')
    (hys : x ∉ ys) (hys' : x ∉ ys') : ys = ys' := by
  -- Anything between the two would put the second `x` behind the first one.
  have hnext : ∀ {zs vs ws : List α}, x :: vs = zs ++ x :: ws → x ∉ vs → vs = ws := by
    intro zs vs ws heq hvs
    cases zs with
    | nil => exact (List.cons.inj heq).2
    | cons z zs =>
      obtain ⟨-, rfl⟩ := List.cons.inj heq
      exact absurd (List.mem_append_right zs List.mem_cons_self) hvs
  rcases List.append_eq_append_iff.mp h with ⟨zs, -, hzs⟩ | ⟨zs, -, hzs⟩
  · exact hnext hzs hys
  · exact (hnext hzs hys').symm

theorem underscore_not_mem_toDigits (k : Nat) : '_' ∉ Nat.toDigits 10 k := by
  intro h
  have hdigit := Nat.isDigit_of_mem_toDigits (by decide) (by decide) h
  exact absurd hdigit (by decide)

theorem toList_constraintName (table column : String) (k : Nat) :
    (constraintName table column k).toList =
      ("fk_" ++ table ++ "_" ++ column).toList ++ '_' :: Nat.toDigits 10 k := by
  have hname : constraintName table column k =
      ("fk_" ++ table ++ "_" ++ column) ++ ("_" ++ toString k) := by
    rw [← String.append_assoc]
    rfl
  have hnumber : ("_" ++ toString k).toList = '_' :: Nat.toDigits 10 k := by
    rw [String.toList_append, Nat.toString_eq_repr, Nat.toList_repr]
    rfl
  rw [hname, String.toList_append, hnumber]

theorem number_of_constraintName {table column table' column' : String} {k k' : Nat}
    (h : constraintName table column k = constraintName table' column' k') : k = k' := by
  have hlist := congrArg String.toList h
  rw [toList_constraintName, toList_constraintName] at hlist
  exact toDigits_injective (eq_of_append_cons_eq hlist (underscore_not_mem_toDigits k)
    (underscore_not_mem_toDigits k'))

/-! ## Constraints among tokens -/

/-- The table and the name of the constraint, if the tokens begin to add one to a table. -/
def addedConstraint? : List Token → Option (String × String)
  | .keyword .alter :: .keyword .table :: .quoted table :: .keyword .add :: .keyword .constraint ::
      .quoted name :: _ => some (table, name)
  | _ => none

/-- The tables and the names of the constraints that are added, wherever in the tokens. -/
def addedConstraints : List Token → List (String × String)
  | [] => []
  | t :: rest => (addedConstraint? (t :: rest)).toList ++ addedConstraints rest

theorem addedConstraints_append {ts : List Token} (h : .keyword .alter ∉ ts) (rest : List Token) :
    addedConstraints (ts ++ rest) = addedConstraints rest := by
  induction ts with
  | nil => rfl
  | cons t ts ih =>
    rw [List.mem_cons, not_or] at h
    have hnone : addedConstraint? (t :: (ts ++ rest)) = none := by
      unfold addedConstraint?
      split
      · next heq => exact absurd (List.cons.inj heq).1.symm h.1
      · rfl
    rw [List.cons_append, addedConstraints, hnone, ih h.2]
    rfl

/-- Statements with other keywords alter no table. -/
theorem alter_not_mem {ks : List Keyword} {ts : List Token} (h : ∀ t ∈ ts, t.WrittenWith ks)
    (hks : .alter ∉ ks) : .keyword .alter ∉ ts :=
  fun hmem => hks (h _ hmem)

theorem addedConstraints_link (k : Nat) (l : Link) (rest : List Token) :
    addedConstraints (linkTokens k l ++ [.semicolon] ++ rest) =
      (l.holder, constraintName l.holder l.column k) :: addedConstraints rest := by
  have hsplit : linkTokens k l ++ [.semicolon] ++ rest =
      .keyword .alter :: ([.keyword .table, .quoted l.holder, .keyword .add, .keyword .constraint,
        .quoted (constraintName l.holder l.column k), .keyword .foreign, .keyword .key] ++
        listTokens [l.column] ++ [.keyword .references, .quoted l.table] ++ listTokens [l.target] ++
        [.semicolon] ++ rest) := by
    simp only [linkTokens, List.append_assoc, List.cons_append, List.nil_append]
  rw [hsplit, addedConstraints, addedConstraints_append]
  · rfl
  · simp [alter_not_mem (writtenWith_listTokens [] _)]

theorem addedConstraints_links (n : Nat) (ls : List Link) :
    addedConstraints ((numberFrom linkTokens n ls).flatMap (· ++ [.semicolon]) ++ [.eof]) =
      numberFrom (fun k l => (l.holder, constraintName l.holder l.column k)) n ls := by
  induction ls generalizing n with
  | nil => rfl
  | cons l rest ih =>
    rw [numberFrom, List.flatMap_cons, List.append_assoc, addedConstraints_link, ih]
    rfl

theorem addedConstraints_script (ts : List TableSpec) (ls : List Link) :
    addedConstraints ((scriptTokens ts ls).flatMap (· ++ [.semicolon]) ++ [.eof]) =
      numberFrom (fun k l => (l.holder, constraintName l.holder l.column k)) 0 ls := by
  have htables : .keyword .alter ∉ (ts.map tableTokens).flatMap (· ++ [Token.semicolon]) := by
    intro h
    obtain ⟨statement, hstatement, h⟩ := List.mem_flatMap.mp h
    obtain ⟨t, -, rfl⟩ := List.mem_map.mp hstatement
    rcases List.mem_append.mp h with h | h
    · exact alter_not_mem (writtenWith_tableTokens t) (by decide) h
    · exact absurd h (by simp)
  rw [scriptTokens, List.flatMap_append, List.append_assoc, addedConstraints_append htables,
    addedConstraints_links]

/-! ## Main result -/

/-- One constraint is added for each relation, in order, and no two of them have the same name.  The
name is put together from the names of the table and the column that the relation leads to and from
the number of the relation. -/
structure NumbersConstraints (s : Schema) (tokens : List Token) : Prop where
  nodup : ((addedConstraints tokens).map (·.2)).Nodup
  length : (addedConstraints tokens).length = s.relations.length
  named : ∀ k r, s.relations[k]? = some r → ∃ t c,
    s.table? r.target.table = some t ∧ t.column? r.target.column = some c ∧
      (addedConstraints tokens)[k]? =
        some (t.name, "fk_" ++ t.name ++ "_" ++ c.name ++ "_" ++ toString (k + 1))

/-- Whatever the names in a schema are, those of the constraints come back from its script as they
were put together, and they never collide. -/
theorem script_constraintNames {s : Schema} {ddl : String} (h : script s = .ok ddl) :
    ∃ lexemes, tokenize ddl = .ok lexemes ∧ NumbersConstraints s (lexemes.map (·.token)) := by
  obtain ⟨ls, hls⟩ := exists_found_of_script h
  rw [script_eq_of_found hls] at h
  split at h
  · cases h
  · cases h
    obtain ⟨lexemes, hlexemes, htokens⟩ := tokenize_of_lexes (lexes_scriptText _ ls)
    refine ⟨lexemes, hlexemes, ?_⟩
    rw [htokens]
    constructor
    · rw [addedConstraints_script, map_numberFrom]
      exact nodup_numberFrom (fun _ _ _ _ => number_of_constraintName) 0 ls
    · rw [addedConstraints_script, length_numberFrom, hls.length_eq]
    · intro k r hr
      obtain ⟨l, hl, t, c, u, d, -, htarget, rfl⟩ := exists_getElem?_of_forall₂ hls.flip hr
      obtain ⟨htable, hcolumn⟩ := endOf_eq_ok_iff.mp htarget
      refine ⟨u, d, htable, hcolumn, ?_⟩
      rw [addedConstraints_script, getElem?_numberFrom, hl, Nat.zero_add]
      rfl

/-- Two columns give names of the same beginning, and the name of a third one ends in a number.
Notes are wrong, and the second table with the id of the first one is never found. -/
def gluedNames : Schema :=
  ⟨[⟨⟨"t"⟩, "a", [⟨⟨"c"⟩, "b_\"c", .uuid, false, false, false, true⟩,
      ⟨⟨"d"⟩, "b_\"c_2", .uuid, false, false, false, true⟩]⟩,
    ⟨⟨"u"⟩, "a_b", [⟨⟨"c"⟩, "\"c", .uuid, true, false, false, false⟩]⟩,
    ⟨⟨"t"⟩, "", []⟩],
   [⟨⟨"r"⟩, ⟨⟨"u"⟩, ⟨"c"⟩⟩, ⟨⟨"t"⟩, ⟨"c"⟩⟩, .oneToMany⟩,
    ⟨⟨"s"⟩, ⟨⟨"t"⟩, ⟨"c"⟩⟩, ⟨⟨"u"⟩, ⟨"c"⟩⟩, .manyToMany⟩,
    ⟨⟨"r"⟩, ⟨⟨"u"⟩, ⟨"c"⟩⟩, ⟨⟨"t"⟩, ⟨"d"⟩⟩, .oneToOne⟩], 0⟩

def gluedScript : String :=
  "CREATE TABLE \"a\" (\n    \"b_\"\"c\" UUID,\n    \"b_\"\"c_2\" UUID\n);\n" ++
    "\nCREATE TABLE \"a_b\" (\n    \"\"\"c\" UUID NOT NULL,\n    PRIMARY KEY (\"\"\"c\")\n);\n" ++
    "\nCREATE TABLE \"\" (\n);\n" ++
    "\nALTER TABLE \"a\" ADD CONSTRAINT \"fk_a_b_\"\"c_1\" FOREIGN KEY (\"b_\"\"c\")" ++
    " REFERENCES \"a_b\" (\"\"\"c\");\n" ++
    "\nALTER TABLE \"a_b\" ADD CONSTRAINT \"fk_a_b_\"\"c_2\" FOREIGN KEY (\"\"\"c\")" ++
    " REFERENCES \"a\" (\"b_\"\"c\");\n" ++
    "\nALTER TABLE \"a\" ADD CONSTRAINT \"fk_a_b_\"\"c_2_3\" FOREIGN KEY (\"b_\"\"c_2\")" ++
    " REFERENCES \"a_b\" (\"\"\"c\");\n"

theorem script_constraintNames_glued :
    script gluedNames = .ok gluedScript ∧
      ∃ lexemes, tokenize gluedScript = .ok lexemes ∧
        NumbersConstraints gluedNames (lexemes.map (·.token)) := by
  have hscript : script gluedNames = .ok gluedScript := by decide +kernel
  exact ⟨hscript, script_constraintNames hscript⟩

end Sql
end Schemata
