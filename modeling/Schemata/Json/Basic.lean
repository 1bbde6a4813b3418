/-
Values of the JSON notation.  A number keeps its spelling, because only its reader knows which
numbers it accepts.  A string is a text unless its escapes leave half a surrogate pair alone: such
a string is well formed, but it denotes no text.
-/

namespace Schemata

inductive Json
  | null
  | bool (value : Bool)
  | number (spelling : String)
  | text (value : String)
  /-- A string with a surrogate that has no partner. -/
  | brokenText
  | array (items : List Json)
  /-- The members in the order they are written.  A name is missing if it is a broken text. -/
  | object (members : List (Option String × Json))
  deriving Repr, Inhabited

namespace Json

def ofFields (fields : List (String × Json)) : Json :=
  object (fields.map fun (name, value) => (some name, value))

def ofNat (n : Nat) : Json := number (toString n)

/-- The text, or `null` if there is none. -/
def ofText? : Option String → Json
  | some s => text s
  | none => null

/-- The last member with the given name. -/
def member? (name : String) : Json → Option Json
  | object members => (members.reverse.find? fun m => m.1 == some name).map (·.2)
  | _ => none

mutual

/-- The value in which every object keeps only the last member of each name. -/
def lastWins : Json → Json
  | array items => array (lastWinsItems items)
  | object members => object (lastWinsMembers members)
  | value => value

def lastWinsItems : List Json → List Json
  | [] => []
  | value :: rest => lastWins value :: lastWinsItems rest

def lastWinsMembers : List (Option String × Json) → List (Option String × Json)
  | [] => []
  | (name, value) :: rest =>
    let rest' := lastWinsMembers rest
    if rest'.any (·.1 == name) then rest' else (name, lastWins value) :: rest'

end

end Json

end Schemata
