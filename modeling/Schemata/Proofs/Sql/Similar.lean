/-
Lexemes that differ only in their places and gaps are read alike wherever the names of types among
them mean the same.  For these names are the one thing that is taken from the text of the script
with the gaps in it.  Alike here means that both readers give the same, apart from places, or that
both fail for the same sort of reason.
-/
import Schemata.Failure
import Schemata.Proofs.Sql.Parts
import Schemata.Proofs.Sql.Passing
import Schemata.Proofs.Sql.Relocation

namespace Schemata
namespace Sql

open Relocation (nowhere)

/-! ## Outcomes -/

/-- Both results are there and related, or both failures are of one kind. -/
inductive Agrees (kind : ε → FailureKind) (R : α → β → Prop) : Except ε α → Except ε β → Prop
  | ok {a : α} {b : β} (h : R a b) : Agrees kind R (.ok a) (.ok b)
  | error {e f : ε} (h : kind e = kind f) : Agrees kind R (.error e) (.error f)

namespace Agrees

variable {kind : ε → FailureKind} {R : α → β → Prop} {x : Except ε α} {y : Except ε β}

theorem bind {S : α' → β' → Prop} {f : α → Except ε α'} {g : β → Except ε β'}
    (h : Agrees kind R x y)
    (h' : ∀ a b, x = .ok a → y = .ok b → R a b → Agrees kind S (f a) (g b)) :
    Agrees kind S (x >>= f) (y >>= g) := by
  cases h with
  | ok h => exact h' _ _ rfl rfl h
  | error h => exact .error h

theorem mono {S : α → β → Prop} (h : Agrees kind R x y) (h' : ∀ a b, R a b → S a b) :
    Agrees kind S x y := by
  cases h with
  | ok h => exact .ok (h' _ _ h)
  | error h => exact .error h

theorem map {S : α' → β' → Prop} {f : α → α'} {g : β → β'} (h : Agrees kind R x y)
    (h' : ∀ a b, R a b → S (f a) (g b)) : Agrees kind S (x.map f) (y.map g) := by
  cases h with
  | ok h => exact .ok (h' _ _ h)
  | error h => exact .error h

theorem ite {p q : Prop} [Decidable p] [Decidable q] {x' : Except ε α} {y' : Except ε β}
    (hpq : p ↔ q) (h : Agrees kind R x y) (h' : Agrees kind R x' y') :
    Agrees kind R (if p then x else x') (if q then y else y') := by
  by_cases hp : p
  · rwa [if_pos hp, if_pos (hpq.mp hp)]
  · rwa [if_neg hp, if_neg (fun hq => hp (hpq.mpr hq))]

theorem exists_ok {a : α} (h : Agrees kind R x y) (hx : x = .ok a) : ∃ b, y = .ok b ∧ R a b := by
  subst hx
  cases h with
  | ok h => exact ⟨_, rfl, h⟩

theorem mapError_eq {x y : Except ε α} (h : Agrees kind Eq x y) :
    x.mapError kind = y.mapError kind := by
  cases h with
  | ok h => rw [h]
  | error h => exact congrArg Except.error h

end Agrees

def Cause.kind : Cause → FailureKind
  | malformed _ => .parseError
  | unsupportedType _ _ => .unsupportedType
  | unresolved _ => .unresolvedReference

theorem kind_rejected (cause : Cause) (site : Site) :
    (ImportError.rejected cause site).kind = cause.kind := by
  cases cause <;> rfl

def Fault.kind (fault : Fault) : FailureKind := fault.cause.kind

theorem agrees_fail {R : α → β → Prop} (f f' : SyntaxFault) (ts us : List Lexeme) :
    Agrees Fault.kind R (fail f ts) (fail f' us) :=
  .error rfl

theorem agrees_of_result {g : α → γ} {g' : β → γ} {x : Except Fault α} {y : Except Fault β}
    (h : nowhere.result g x = nowhere.result g' y) :
    Agrees Fault.kind (fun a b => g a = g' b) x y := by
  cases x with
  | ok a =>
    cases y with
    | ok b => exact .ok (Except.ok.inj h)
    | error e => cases h
  | error e =>
    cases y with
    | ok b => cases h
    | error f =>
      have hfault : nowhere.fault e = nowhere.fault f := Except.error.inj h
      exact .error (show (nowhere.fault e).kind = (nowhere.fault f).kind by rw [hfault])

/-- A reader that may do without places reads alike what is the same without places. -/
theorem agrees_of_unplaced {read : List Lexeme → Except Fault α} {g : α → α}
    (hread : ∀ ts, read (nowhere.lexemes ts) = nowhere.result g (read ts)) {ts us : List Lexeme}
    (h : nowhere.lexemes ts = nowhere.lexemes us) :
    Agrees Fault.kind (fun a b => g a = g b) (read ts) (read us) := by
  apply agrees_of_result
  rw [← hread, h, hread]

theorem nextToken_congr {ts us : List Lexeme} (h : nowhere.lexemes ts = nowhere.lexemes us) :
    nextToken ts = nextToken us := by
  rw [← nowhere.nextToken_relocated, h, nowhere.nextToken_relocated]

/-! ## Similar lexemes -/

/-- Names of types that mean the same, with the same lexemes after them. -/
structure SameType (dialect : Dialect) (a b : List Char × List Lexeme) : Prop where
  isEmpty : a.1.isEmpty = b.1.isEmpty
  toType? : TypeName.toType? dialect (String.ofList a.1) =
    TypeName.toType? dialect (String.ofList b.1)
  rest : nowhere.lexemes a.2 = nowhere.lexemes b.2

/-- The lexemes are the same without places, and the names of types that begin at them mean the
same. -/
structure Similar (dialect : Dialect) (ts us : List Lexeme) : Prop where
  unplaced_eq : nowhere.lexemes ts = nowhere.lexemes us
  types (n : Nat) : Agrees Fault.kind (SameType dialect) (readTypeName [] (ts.drop n))
    (readTypeName [] (us.drop n))

theorem length_eq_of_unplaced {ts us : List Lexeme} (h : nowhere.lexemes ts = nowhere.lexemes us) :
    ts.length = us.length := by
  have hlength := congrArg List.length h
  rwa [Relocation.lexemes, Relocation.lexemes, List.length_map, List.length_map] at hlength

theorem of_unplaced_cons {l k : Lexeme} {ts us : List Lexeme}
    (h : nowhere.lexemes (l :: ts) = nowhere.lexemes (k :: us)) :
    l.token = k.token ∧ l.text = k.text ∧ nowhere.lexemes ts = nowhere.lexemes us := by
  obtain ⟨hhead, htail⟩ := List.cons.inj h
  exact ⟨congrArg (·.token) hhead, congrArg (·.text) hhead, htail⟩

/-- What is left of similar lexemes is similar if as much was taken from both. -/
theorem Similar.of_suffix {dialect : Dialect} {ts us rest rest' : List Lexeme}
    (h : Similar dialect ts us) (hts : rest <:+ ts) (hus : rest' <:+ us)
    (heq : nowhere.lexemes rest = nowhere.lexemes rest') : Similar dialect rest rest' := by
  refine ⟨heq, fun n => ?_⟩
  rw [List.suffix_iff_eq_drop.mp hts, List.suffix_iff_eq_drop.mp hus, List.drop_drop,
    List.drop_drop, length_eq_of_unplaced h.unplaced_eq, length_eq_of_unplaced heq]
  exact h.types _

section

variable {dialect : Dialect} {ts us : List Lexeme}

/-! ## Columns -/

def unplacedColumn (c : ColumnDef × List PlacedConstraint) : ColumnDef × List PlacedConstraint :=
  (nowhere.column c.1, c.2.map nowhere.constraint)

/-- What the clauses make of columns that differ only in their places. -/
theorem unplacedColumn_congr {c d : ColumnDef} {cs ds : List ColumnClause} (hname : c.name = d.name)
    (hcolumn : nowhere.column c = nowhere.column d)
    (hclauses : cs.map nowhere.clause = ds.map nowhere.clause) :
    unplacedColumn (cs.foldl ColumnDef.apply c, cs.filterMap (ColumnClause.constraint? c.name)) =
      unplacedColumn (ds.foldl ColumnDef.apply d,
        ds.filterMap (ColumnClause.constraint? d.name)) := by
  rw [unplacedColumn, unplacedColumn, ← nowhere.foldl_apply_relocated,
    ← nowhere.foldl_apply_relocated, ← nowhere.constraints_relocated,
    ← nowhere.constraints_relocated, hcolumn, hclauses, hname]

theorem agrees_readColumn (h : Similar dialect ts us) :
    Agrees Fault.kind
      (fun a b => unplacedColumn a.1 = unplacedColumn b.1 ∧
        nowhere.lexemes a.2 = nowhere.lexemes b.2)
      (readColumn dialect ts) (readColumn dialect us) := by
  match ts, us, h with
  | [], [], _ => exact agrees_fail _ _ [] []
  | [], u :: us, h => cases h.unplaced_eq
  | t :: ts, [], h => cases h.unplaced_eq
  | t :: ts, u :: us, h =>
  refine (agrees_of_unplaced (nowhere.readName_relocated · _) h.unplaced_eq).bind
    fun a b ha hb hab => ?_
  obtain ⟨hname, hrest⟩ := Prod.ext_iff.mp hab
  have hrest := h.of_suffix (plain_readName ha).suffix (plain_readName hb).suffix hrest
  refine (hrest.types 0).bind fun c d _ _ hcd => ?_
  refine .ite (by rw [hcd.isEmpty]) (agrees_fail _ _ _ _) ?_
  dsimp only
  rw [hcd.toType?]
  cases TypeName.toType? dialect (String.ofList d.1) with
  | none => exact .error rfl
  | some type =>
    refine (agrees_of_unplaced nowhere.readColumnClauses_relocated hcd.rest).bind
      fun e f _ _ hef => ?_
    obtain ⟨hclauses, hrest⟩ := Prod.ext_iff.mp hef
    refine .ok ⟨unplacedColumn_congr hname ?_ hclauses, hrest⟩
    show ColumnDef.mk a.1 _ _ _ _ _ = ColumnDef.mk b.1 _ _ _ _ _
    rw [show a.1 = b.1 from hname]
    rfl

/-! ## Bodies of tables -/

/-- A constraint in the body of a table says the same wherever it stands. -/
theorem unplaced_constraintBody (c : Option Constraint) (p q : Text.Position) :
    nowhere.body (Body.mk [] (c.toList.map (·, p))) =
      nowhere.body (Body.mk [] (c.toList.map (·, q))) := by
  cases c <;> rfl

theorem agrees_readItem (h : Similar dialect ts us) :
    Agrees Fault.kind
      (fun a b => nowhere.body a.1 = nowhere.body b.1 ∧ nowhere.lexemes a.2 = nowhere.lexemes b.2)
      (readItem dialect ts) (readItem dialect us) := by
  match ts, us, h with
  | [], [], _ => exact agrees_fail _ _ [] []
  | [], u :: us, h => cases h.unplaced_eq
  | t :: ts, [], h => cases h.unplaced_eq
  | t :: ts, u :: us, h =>
  obtain ⟨htoken, htext, htail⟩ := of_unplaced_cons h.unplaced_eq
  have hname : t.name? = u.name? := by rw [Lexeme.name?, Lexeme.name?, htoken, htext]
  have hindex : definesIndex ts = definesIndex us := by
    rw [← nowhere.definesIndex_relocated, htail, nowhere.definesIndex_relocated]
  unfold readItem
  dsimp only
  rw [htoken, hname, hindex]
  split
  iterate 5
    refine (agrees_of_unplaced nowhere.readConstraint_relocated h.unplaced_eq).bind
      fun a b _ _ hab => ?_
    obtain ⟨hconstraint, hrest⟩ := Prod.ext_iff.mp hab
    refine .ok ⟨?_, hrest⟩
    dsimp only
    rw [show a.1 = b.1 from hconstraint]
    exact unplaced_constraintBody b.1 _ _
  refine .ite .rfl ?_ (.ite .rfl ?_ (agrees_fail _ _ _ _))
  · refine (agrees_of_unplaced (nowhere.skipUntil_relocated _) htail).bind fun a b _ _ hab => ?_
    exact .ok ⟨rfl, hab⟩
  · refine (agrees_readColumn h).bind fun a b _ _ hab => ?_
    obtain ⟨hcolumn, hconstraints⟩ := Prod.ext_iff.mp hab.1
    refine .ok ⟨?_, hab.2⟩
    show Body.mk [nowhere.column a.1.1] (a.1.2.map _) = Body.mk [nowhere.column b.1.1] (b.1.2.map _)
    rw [show nowhere.column a.1.1 = nowhere.column b.1.1 from hcolumn,
      show a.1.2.map _ = b.1.2.map _ from hconstraints]

/-- Columns that differ only in their places repeat the same names. -/
theorem repeatedColumn?_congr (taken : List String) {cs ds : List ColumnDef}
    (h : cs.map nowhere.column = ds.map nowhere.column) :
    (repeatedColumn? taken cs).map nowhere.column =
      (repeatedColumn? taken ds).map nowhere.column := by
  rw [← nowhere.repeatedColumn?_relocated, h, nowhere.repeatedColumn?_relocated]

theorem suffix_expect {token : Token} {what : String} {rest : List Lexeme}
    (h : expect token what ts = .ok rest) : rest <:+ ts := by
  obtain ⟨l, rfl, -⟩ := ok_expect h
  exact List.suffix_cons l rest

theorem suffix_readSeparator {fault : SyntaxFault} {more : Bool} {rest : List Lexeme}
    (h : readSeparator fault ts = .ok (more, rest)) : rest <:+ ts := by
  obtain ⟨l, rfl, -⟩ := ok_readSeparator h
  exact List.suffix_cons l rest

theorem agrees_readItems (taken : List String) {ts us : List Lexeme} (h : Similar dialect ts us) :
    Agrees Fault.kind (fun a b => nowhere.body a.1 = nowhere.body b.1) (readItems dialect taken ts)
      (readItems dialect taken us) := by
  rw [readItems_eq, readItems_eq dialect taken us]
  refine (agrees_readItem h).bind fun a b ha hb hab => ?_
  have hcolumns := congrArg Body.columns hab.1
  have hrest := h.of_suffix (passes_readItem ha).suffix (passes_readItem hb).suffix hab.2
  have hrepeated := repeatedColumn?_congr taken hcolumns
  have hnames : a.1.columns.map (·.name) = b.1.columns.map (·.name) := by
    rw [← nowhere.names_relocated, show a.1.columns.map _ = b.1.columns.map _ from hcolumns,
      nowhere.names_relocated]
  dsimp only
  cases hc : repeatedColumn? taken a.1.columns with
  | some c =>
    cases hd : repeatedColumn? taken b.1.columns with
    | some d => exact .error rfl
    | none =>
      rw [hc, hd] at hrepeated
      cases hrepeated
  | none =>
    cases hd : repeatedColumn? taken b.1.columns with
    | some d =>
      rw [hc, hd] at hrepeated
      cases hrepeated
    | none =>
      refine (agrees_of_unplaced (nowhere.readSeparator_relocated · _) hab.2).bind
        fun c d hc hd hcd => ?_
      obtain ⟨hmore, hafter⟩ := Prod.ext_iff.mp hcd
      have hmore : c.1 = d.1 := hmore
      refine .ite (by rw [hmore]) ?_ (.ok hab.1)
      have hlt : c.2.length < ts.length :=
        Nat.lt_trans (length_readSeparator hc) (length_readItem ha)
      have hsimilar := hrest.of_suffix (suffix_readSeparator hc) (suffix_readSeparator hd) hafter
      show Agrees _ _ (readItems dialect (taken ++ a.1.columns.map (·.name)) c.2 >>= _) _
      rw [hnames]
      refine (agrees_readItems _ hsimilar).bind fun e f _ _ hef => .ok ?_
      rw [nowhere.body_append, nowhere.body_append, hab.1, hef]
termination_by ts.length
decreasing_by exact hlt

/-! ## Statements -/

theorem agrees_readCreate (h : Similar dialect ts us) :
    Agrees Fault.kind
      (fun a b => Prod.map id nowhere.body a = Prod.map id nowhere.body b)
      (readCreate dialect ts) (readCreate dialect us) := by
  have hmodifiers : nowhere.lexemes (ts.dropWhile (isTableModifier ·.token)) =
      nowhere.lexemes (us.dropWhile (isTableModifier ·.token)) := by
    rw [← nowhere.dropWhile_relocated, h.unplaced_eq, nowhere.dropWhile_relocated]
  refine (agrees_of_unplaced (nowhere.expect_relocated · _ _) hmodifiers).bind
    fun a b ha hb hab => ?_
  refine (agrees_of_unplaced nowhere.skipIfNotExists_relocated hab).bind fun c d hc hd hcd => ?_
  refine (agrees_of_unplaced (nowhere.readQualifiedName_relocated · _) hcd).bind
    fun e f he hf hef => ?_
  obtain ⟨hname, hrest⟩ := Prod.ext_iff.mp hef
  have hname : e.1 = f.1 := hname
  refine (agrees_of_unplaced (nowhere.expect_relocated · _ _) hrest).bind fun g k hg hk hgk => ?_
  have hsimilar : Similar dialect g k :=
    h.of_suffix ((suffix_expect hg).trans (plain_createHead ha hc he).suffix)
      ((suffix_expect hk).trans (plain_createHead hb hd hf).suffix) hgk
  refine .ite (by rw [nextToken_congr hgk]) (.ok (Prod.ext hname rfl)) ?_
  exact (agrees_readItems [] hsimilar).bind fun _ _ _ _ hbody => .ok (Prod.ext hname hbody)

/-- What a document says, without the places where it does. -/
def Document.content (d : Document) : List TableSpec × List Rule := (d.specs, d.rules)

def createContent (a : String × Body) : List TableSpec × List Rule :=
  ([⟨a.1, a.2.columns.map ColumnDef.spec⟩], (a.2.constraints.map (·.1)).map (Rule.mk a.1))

def alterContent (a : String × List PlacedConstraint) : List TableSpec × List Rule :=
  ([], (a.2.map (·.1)).map (Rule.mk a.1))

theorem map_fst_unplaced (cs : List PlacedConstraint) :
    (cs.map nowhere.constraint).map (·.1) = cs.map (·.1) := by
  rw [List.map_map]
  rfl

theorem createContent_unplaced (a : String × Body) :
    createContent (Prod.map id nowhere.body a) = createContent a := by
  show ([TableSpec.mk a.1 ((a.2.columns.map nowhere.column).map ColumnDef.spec)],
    ((a.2.constraints.map nowhere.constraint).map (·.1)).map (Rule.mk a.1)) = _
  rw [map_fst_unplaced, List.map_map]
  rfl

theorem alterContent_unplaced (a : String × List PlacedConstraint) :
    alterContent (Prod.map id (List.map nowhere.constraint) a) = alterContent a := by
  show ([], ((a.2.map nowhere.constraint).map (·.1)).map (Rule.mk a.1)) = _
  rw [map_fst_unplaced]
  rfl

theorem content_create (s : Statement) (a : String × Body) :
    Document.content ⟨[⟨a.1, a.2.columns, ⟨s.text, s.position⟩⟩],
      s.constraintDefs a.1 a.2.constraints⟩ = createContent a := by
  rw [Document.content, Document.rules, Statement.rules_constraintDefs]
  rfl

theorem content_alter (s : Statement) (a : String × List PlacedConstraint) :
    Document.content ⟨[], s.constraintDefs a.1 a.2⟩ = alterContent a := by
  rw [Document.content, Document.rules, Statement.rules_constraintDefs]
  rfl

/-- Statements that begin with the same token and go on with similar lexemes say the same, wherever
they stand. -/
theorem Statement.agrees_read {s t : Statement} (hfirst : s.first.token = t.first.token)
    (hothers : Similar dialect s.others t.others) :
    Agrees Fault.kind (fun a b => a.content = b.content) (s.read dialect) (t.read dialect) := by
  unfold Statement.read
  rw [hfirst]
  split
  · refine (agrees_readCreate hothers).bind fun a b _ _ hab => .ok ?_
    rw [content_create s, content_create t, ← createContent_unplaced, hab, createContent_unplaced]
  · refine (agrees_of_unplaced nowhere.readAlter_relocated hothers.unplaced_eq).bind
      fun a b _ _ hab => .ok ?_
    rw [content_alter s, content_alter t, ← alterContent_unplaced, hab, alterContent_unplaced]
  · exact agrees_fail _ _ _ _

end

end Sql
end Schemata
