/-
Text between marks: names in quotation marks or brackets, and string literals.  It ends at the first
closing mark that is neither doubled nor, in a literal, behind a backslash.  What is read from it is
stated apart from the reading, as a relation between a body and its content; a body that closes is
read exactly if it is one of these.
-/
import Schemata.Sql.Lexeme

namespace Schemata
namespace Sql

/-- The ways to quote a name. -/
inductive Quotation
  | quotes
  | backticks
  | brackets
  deriving DecidableEq, Repr

namespace Quotation

def all : List Quotation := [quotes, backticks, brackets]

def opener : Quotation → Char
  | quotes => '"'
  | backticks => '\x60'
  | brackets => '['

def closer : Quotation → Char
  | quotes => '"'
  | backticks => '\x60'
  | brackets => ']'

/-- The text with every closing mark doubled. -/
def escape (q : Quotation) (cs : List Char) : List Char :=
  cs.flatMap fun c => if c = q.closer then [c, c] else [c]

def quote (q : Quotation) (name : List Char) : List Char :=
  q.opener :: (q.escape name ++ [q.closer])

end Quotation

/-- The kinds of tokens that have a content between marks. -/
inductive Enclosure
  | name (quotation : Quotation)
  | string
  deriving DecidableEq, Repr

namespace Enclosure

def opener : Enclosure → Char
  | name q => q.opener
  | string => '\''

def closer : Enclosure → Char
  | name q => q.closer
  | string => '\''

/-- Whether a backslash escapes the next character. -/
def escapes : Enclosure → Bool
  | name _ => false
  | string => true

/-- The text with every closing mark doubled, and with every backslash doubled if it escapes. -/
def escape (e : Enclosure) (cs : List Char) : List Char :=
  cs.flatMap fun c => if c = e.closer ∨ (e.escapes = true ∧ c = '\\') then [c, c] else [c]

def enclose (e : Enclosure) (content : List Char) : List Char :=
  e.opener :: (e.escape content ++ [e.closer])

def token (content : List Char) : Enclosure → Token
  | name _ => .quoted (String.ofList content)
  | string => .str (String.ofList content)

def sort : Enclosure → Opener
  | name _ => .name
  | string => .string

/-- The rest of what is enclosed. -/
def close : Enclosure → List Char → Option (Read (List Char))
  | name q => closeName q.closer
  | string => closeString

/-- What the text between the marks stands for. -/
inductive StandsFor (e : Enclosure) : List Char → List Char → Prop
  | nil : StandsFor e [] []
  | plain {c : Char} {body content : List Char} (hclose : c ≠ e.closer)
      (hescape : ¬(e.escapes = true ∧ c = '\\')) (h : StandsFor e body content) :
      StandsFor e (c :: body) (c :: content)
  | doubled {body content : List Char} (h : StandsFor e body content) :
      StandsFor e (e.closer :: e.closer :: body) (e.closer :: content)
  | escaped {c : Char} {body content : List Char} (hescapes : e.escapes = true)
      (h : StandsFor e body content) : StandsFor e ('\\' :: c :: body) (unescape c :: content)

section

variable {e : Enclosure} {c : Char} {cs rest : List Char}

/-! ## Reading -/

theorem close_nil : e.close [] = none := by
  cases e <;> rfl

theorem close_closer (h : e.closer ∉ rest.head?) :
    e.close (e.closer :: rest) = some ⟨[], [e.closer], rest⟩ := by
  cases rest with
  | nil => cases e <;> simp [close, closer, closeName, closeString]
  | cons d rest =>
    have hd : d ≠ e.closer := by
      rintro rfl
      exact h rfl
    cases e with
    | name q =>
      have hq : d ≠ q.closer := hd
      show closeName q.closer (q.closer :: d :: rest) = _
      rw [closeName, if_pos rfl, if_neg hq]
      rfl
    | string =>
      have hquote : d ≠ '\'' := hd
      show closeString ('\'' :: d :: rest) = _
      rw [closeString, if_pos rfl, if_neg hquote]
      rfl

theorem close_doubled :
    e.close (e.closer :: e.closer :: cs) =
      (e.close cs).map fun r => (r.push [e.closer, e.closer]).map (e.closer :: ·) := by
  cases e with
  | name q =>
    show closeName q.closer (q.closer :: q.closer :: cs) = _
    rw [closeName, if_pos rfl, if_pos rfl]
    rfl
  | string => rfl

theorem close_escaped (hescapes : e.escapes = true) :
    e.close ('\\' :: c :: cs) =
      (e.close cs).map fun r => (r.push ['\\', c]).map (unescape c :: ·) := by
  cases e with
  | name q => cases hescapes
  | string => rfl

/-- A backslash at the end of a text escapes nothing, and nothing closes the text. -/
theorem close_backslash (hescapes : e.escapes = true) : e.close ['\\'] = none := by
  cases e with
  | name q => cases hescapes
  | string => rfl

theorem close_plain (hclose : c ≠ e.closer) (hescape : ¬(e.escapes = true ∧ c = '\\')) :
    e.close (c :: cs) = (e.close cs).map fun r => (r.push [c]).map (c :: ·) := by
  cases e with
  | name q =>
    show closeName q.closer (c :: cs) = (closeName q.closer cs).map _
    cases cs with
    | nil => exact if_neg hclose
    | cons d cs => exact if_neg hclose
  | string =>
    have hbackslash : c ≠ '\\' := fun h => hescape ⟨rfl, h⟩
    show closeString (c :: cs) = (closeString cs).map _
    cases cs with
    | nil => exact if_neg hclose
    | cons d cs => exact (if_neg hclose).trans (if_neg hbackslash)

theorem StandsFor.close {body content : List Char} (h : e.StandsFor body content)
    (hrest : e.closer ∉ rest.head?) :
    e.close (body ++ e.closer :: rest) = some ⟨content, body ++ [e.closer], rest⟩ := by
  induction h with
  | nil => exact close_closer hrest
  | plain hclose hescape _ ih =>
    rw [List.cons_append, close_plain hclose hescape, ih]
    rfl
  | doubled _ ih =>
    rw [List.cons_append, List.cons_append, close_doubled, ih]
    rfl
  | escaped hescapes _ ih =>
    rw [List.cons_append, List.cons_append, close_escaped hescapes, ih]
    rfl

theorem standsFor_of_close {r : Read (List Char)} (h : e.close cs = some r) :
    ∃ body, cs = body ++ e.closer :: r.rest ∧ r.text = body ++ [e.closer] ∧
      e.StandsFor body r.value ∧ e.closer ∉ r.rest.head? := by
  -- A doubled mark or an escape takes off two characters, so the induction is on the length.
  induction hlength : cs.length using Nat.strongRecOn generalizing cs r with
  | ind n ih =>
    subst hlength
    cases cs with
    | nil =>
      rw [close_nil] at h
      cases h
    | cons c cs =>
      by_cases hclose : c = e.closer
      · subst hclose
        by_cases hnext : e.closer ∈ cs.head?
        · obtain ⟨cs, rfl⟩ := List.head?_eq_some_iff.mp hnext
          rw [close_doubled] at h
          obtain ⟨s, hs, rfl⟩ := Option.map_eq_some_iff.mp h
          obtain ⟨body, rfl, htext, hbody, hrest⟩ :=
            ih _ (Nat.lt_succ_of_lt (Nat.lt_succ_self _)) hs rfl
          exact ⟨e.closer :: e.closer :: body, rfl, congrArg ([e.closer, e.closer] ++ ·) htext,
            .doubled hbody, hrest⟩
        · rw [close_closer hnext] at h
          cases h
          exact ⟨[], rfl, rfl, .nil, hnext⟩
      · by_cases hescape : e.escapes = true ∧ c = '\\'
        · obtain ⟨hescapes, rfl⟩ := hescape
          cases cs with
          | nil =>
            rw [close_backslash hescapes] at h
            cases h
          | cons d cs =>
            rw [close_escaped hescapes] at h
            obtain ⟨s, hs, rfl⟩ := Option.map_eq_some_iff.mp h
            obtain ⟨body, rfl, htext, hbody, hrest⟩ :=
              ih _ (Nat.lt_succ_of_lt (Nat.lt_succ_self _)) hs rfl
            exact ⟨'\\' :: d :: body, rfl, congrArg (['\\', d] ++ ·) htext,
              .escaped hescapes hbody, hrest⟩
        · rw [close_plain hclose hescape] at h
          obtain ⟨s, hs, rfl⟩ := Option.map_eq_some_iff.mp h
          obtain ⟨body, rfl, htext, hbody, hrest⟩ := ih _ (Nat.lt_succ_self _) hs rfl
          exact ⟨c :: body, rfl, congrArg (c :: ·) htext, .plain hclose hescape hbody, hrest⟩

theorem readToken_opener :
    readToken e.opener cs =
      match e.close cs with
      | some r => .ok ⟨e.token r.value, e.opener :: r.text, r.rest⟩
      | none => .error e.sort := by
  have hname : ∀ q : Quotation, readToken q.opener cs = nameToken q.opener q.closer cs := by
    intro q
    cases q <;> rfl
  cases e with
  | name q =>
    show readToken q.opener cs = _
    rw [hname, nameToken]
    show _ = match closeName q.closer cs with
      | some r => _
      | none => _
    cases closeName q.closer cs <;> rfl
  | string =>
    show stringToken cs = match closeString cs with
      | some r => _
      | none => _
    rw [stringToken]
    cases closeString cs <;> rfl

/-! ## Writing -/

theorem standsFor_escape (e : Enclosure) (content : List Char) :
    e.StandsFor (e.escape content) content := by
  induction content with
  | nil => exact .nil
  | cons c content ih =>
    rw [escape, List.flatMap_cons]
    by_cases hclose : c = e.closer
    · rw [if_pos (.inl hclose), hclose]
      exact .doubled ih
    · by_cases hescape : e.escapes = true ∧ c = '\\'
      · rw [if_pos (.inr hescape), hescape.2]
        exact .escaped hescape.1 ih
      · rw [if_neg (by simp [hclose, hescape])]
        exact .plain hclose hescape ih

/-- What is enclosed is one token, whatever characters its content has. -/
theorem readToken_enclose (hrest : e.closer ∉ rest.head?) (content : List Char) :
    readToken e.opener (e.escape content ++ e.closer :: rest) =
      .ok ⟨e.token content, e.enclose content, rest⟩ := by
  rw [readToken_opener, (e.standsFor_escape content).close hrest]
  rfl

theorem escape_name (q : Quotation) (name : List Char) :
    (Enclosure.name q).escape name = q.escape name := by
  simp [escape, Quotation.escape, escapes, closer]

theorem enclose_name (q : Quotation) (name : List Char) :
    (Enclosure.name q).enclose name = q.quote name := by
  rw [enclose, escape_name]
  rfl

end

end Enclosure

end Sql
end Schemata
