/-
Reading in a dialect that knows more names of types.  Only the names of types depend on the dialect,
so what is accepted in a dialect is accepted with the same meaning in each that knows its names.
Every dialect knows the names of the generic one.
-/
import Mathlib.Control.Monad.Basic
import Schemata.Proofs.Sql.TypeNames
import Schemata.Sql.Import

namespace Schemata
namespace Sql

/-! ## Outcomes -/

/-- If the first gives a result, the second gives the same. -/
def Widens (x y : Except ε α) : Prop := ∀ a, x = .ok a → y = .ok a

namespace Widens

theorem refl (x : Except ε α) : Widens x x := fun _ h => h

theorem bind {x y : Except ε α} {f g : α → Except ε β} (h : Widens x y)
    (h' : ∀ a, x = .ok a → Widens (f a) (g a)) : Widens (x >>= f) (y >>= g) := by
  cases x with
  | error e => exact fun b hb => by cases hb
  | ok a =>
    rw [h a rfl]
    exact h' a rfl

theorem ite {p : Prop} [Decidable p] {x y x' y' : Except ε α} (h : Widens x y)
    (h' : Widens x' y') : Widens (if p then x else x') (if p then y else y') := by
  split
  · exact h
  · exact h'

end Widens

/-! ## Readers -/

/-- Names of types that the first dialect knows mean the same in the second. -/
def Dialect.Extends (wide narrow : Dialect) : Prop :=
  ∀ name type, TypeName.toType? narrow name = some type → TypeName.toType? wide name = some type

theorem Dialect.extends_generic (dialect : Dialect) : dialect.Extends .generic :=
  fun _ _ h => TypeName.toType?_of_generic h dialect

section

variable {wide narrow : Dialect}

theorem widens_readColumn (h : wide.Extends narrow) (ts : List Lexeme) :
    Widens (readColumn narrow ts) (readColumn wide ts) := by
  cases ts with
  | nil => exact .refl _
  | cons l rest =>
    refine (Widens.refl _).bind fun a _ => (Widens.refl _).bind fun b _ => .ite (.refl _) ?_
    dsimp only
    cases htype : TypeName.toType? narrow (String.ofList b.1) with
    | none => exact fun c hc => by cases hc
    | some type =>
      rw [h _ _ htype]
      exact .refl _

theorem widens_readItem (h : wide.Extends narrow) (ts : List Lexeme) :
    Widens (readItem narrow ts) (readItem wide ts) := by
  cases ts with
  | nil => exact .refl _
  | cons l rest =>
    unfold readItem
    dsimp only
    split
    iterate 5
      exact .refl _
    refine .ite (.refl _) (.ite ?_ (.refl _))
    exact (widens_readColumn h _).bind fun _ _ => .refl _

theorem widens_readItems (h : wide.Extends narrow) (taken : List String) (ts : List Lexeme) :
    Widens (readItems narrow taken ts) (readItems wide taken ts) := by
  rw [readItems_eq, readItems_eq wide]
  refine (widens_readItem h ts).bind fun a ha => ?_
  dsimp only
  split
  · exact .refl _
  · refine (Widens.refl _).bind fun b hb => .ite ?_ (.refl _)
    have hlt : b.2.length < ts.length :=
      Nat.lt_trans (length_readSeparator hb) (length_readItem ha)
    exact (widens_readItems h _ b.2).bind fun _ _ => .refl _
termination_by ts.length
decreasing_by exact hlt

theorem widens_readCreate (h : wide.Extends narrow) (ts : List Lexeme) :
    Widens (readCreate narrow ts) (readCreate wide ts) := by
  refine (Widens.refl _).bind fun a _ => (Widens.refl _).bind fun b _ =>
    (Widens.refl _).bind fun c _ => (Widens.refl _).bind fun d _ => .ite (.refl _) ?_
  exact (widens_readItems h [] _).bind fun _ _ => .refl _

theorem Statement.widens_read (h : wide.Extends narrow) (s : Statement) :
    Widens (s.read narrow) (s.read wide) := by
  unfold Statement.read
  split
  · exact (widens_readCreate h _).bind fun _ _ => .refl _
  · exact .refl _
  · exact .refl _

theorem Document.widens_ofStatements (h : wide.Extends narrow) (statements : List Statement) :
    Widens (ofStatements narrow statements) (ofStatements wide statements) := by
  induction statements with
  | nil => exact .refl _
  | cons s rest ih =>
    unfold ofStatements
    cases hread : s.read narrow with
    | error fault => exact fun d hd => by cases hd
    | ok document =>
      rw [s.widens_read h document hread]
      exact Widens.bind ih fun _ _ => .refl _

end

/-! ## Main result -/

/-- A script that is accepted without regard to its dialect gives the same schema in every dialect,
and whichever is guessed. -/
theorem schemaOf_of_generic (options : ImportOptions) {text : String} {s : Schema}
    (h : schemaOf { options with dialect := .named .generic } text = .ok s)
    (choice : DialectChoice) : schemaOf { options with dialect := choice } text = .ok s := by
  refine Widens.bind (x := Document.ofScript text (.named .generic)) ?_ (fun _ _ => .refl _) s h
  unfold Document.ofScript
  split
  · exact .refl _
  · next lexemes _ =>
    refine (Widens.refl _).bind fun statements _ => ?_
    exact Document.widens_ofStatements ((choice.resolve lexemes).extends_generic) statements

/-- More cues speak for the dialect mysql than for postgres, and `TIMESTAMP WITH TIME ZONE` is a
name that only postgres has as a whole. -/
def cuedScript : String :=
  "CREATE TABLE `log` (`at` TIMESTAMP WITH TIME ZONE, n SERIAL, `key` CHARACTER VARYING(9), " ++
    "f BIT, PRIMARY KEY (n)) ENGINE = x; ALTER TABLE `log` ADD UNIQUE (`key`)"

def cuedSchema : Schema :=
  ⟨[⟨⟨"t1"⟩, "log", [⟨⟨"c2"⟩, "at", .timestamp, false, false, false, true⟩,
      ⟨⟨"c3"⟩, "n", .integer, true, false, false, true⟩,
      ⟨⟨"c4"⟩, "key", .varchar, false, false, true, true⟩,
      ⟨⟨"c5"⟩, "f", .boolean, false, false, false, true⟩]⟩], [], 5⟩

theorem schemaOf_cuedScript :
    schemaOf { dialect := .named .generic } cuedScript = .ok cuedSchema ∧
      schemaOf { dialect := .auto } cuedScript = .ok cuedSchema := by
  have hgeneric : schemaOf { dialect := .named .generic } cuedScript = .ok cuedSchema := by
    decide +kernel
  exact ⟨hgeneric, schemaOf_of_generic {} hgeneric .auto⟩

end Sql
end Schemata
