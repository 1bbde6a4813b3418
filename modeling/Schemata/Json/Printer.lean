/-
Writing a JSON value: on one line, or on several lines with its members in order of their names.
Only quotation marks, backslashes and control characters are escaped.
-/
import Schemata.Json.Basic

namespace Schemata
namespace Json

/-- One character inside quotation marks. -/
def escape (c : Char) : List Char :=
  if c = '"' then ['\\', '"']
  else if c = '\\' then ['\\', '\\']
  else if c = '\x08' then ['\\', 'b']
  else if c = '\x0c' then ['\\', 'f']
  else if c = '\n' then ['\\', 'n']
  else if c = '\r' then ['\\', 'r']
  else if c = '\t' then ['\\', 't']
  else if c.toNat < 0x20 then
    ['\\', 'u', '0', '0', Nat.digitChar (c.toNat / 16), Nat.digitChar (c.toNat % 16)]
  else [c]

def quote (s : String) : List Char := ['"'] ++ s.toList.flatMap escape ++ ['"']

/-- The name of a member.  A broken name has no writing, and none is ever made for writing. -/
def quoteName (name : Option String) : List Char := quote (name.getD "")

/-- The items with `separator` between them. -/
def joined (separator : List Char) : List (List Char) → List Char
  | [] => []
  | [item] => item
  | item :: rest => item ++ separator ++ joined separator rest

mutual

/-- The value on one line without spaces. -/
def compactChars : Json → List Char
  | null => ['n', 'u', 'l', 'l']
  | bool true => ['t', 'r', 'u', 'e']
  | bool false => ['f', 'a', 'l', 's', 'e']
  | number spelling => spelling.toList
  | text value => quote value
  | brokenText => quote ""
  | array items => ['['] ++ joined [','] (compactItems items) ++ [']']
  | object members => ['\x7b'] ++ joined [','] (compactMembers members) ++ ['\x7d']

def compactItems : List Json → List (List Char)
  | [] => []
  | value :: rest => compactChars value :: compactItems rest

def compactMembers : List (Option String × Json) → List (List Char)
  | [] => []
  | (name, value) :: rest => (quoteName name ++ [':'] ++ compactChars value) :: compactMembers rest

end

/-- The value on one line, with the members of objects in the order they have. -/
def compact (value : Json) : String := String.ofList (compactChars value)

/-- A line break and the indentation of the given depth. -/
def newLine (depth : Nat) : List Char := '\n' :: List.replicate (2 * depth) ' '

/-- The items of a container, each on a line of its own between the two brackets. -/
def lines (depth : Nat) (opening closing : Char) (items : List (List Char)) : List Char :=
  if items.isEmpty then [opening, closing]
  else [opening] ++ newLine (depth + 1) ++ joined (',' :: newLine (depth + 1)) items ++
    newLine depth ++ [closing]

mutual

/-- The value over several lines, inside `depth` containers. -/
def prettyChars (depth : Nat) : Json → List Char
  | array items => lines depth '[' ']' (prettyItems (depth + 1) items)
  | object members =>
    lines depth '\x7b' '\x7d'
      (((prettyMembers (depth + 1) members).mergeSort fun a b => a.1 ≤ b.1).map (·.2))
  | value => compactChars value

def prettyItems (depth : Nat) : List Json → List (List Char)
  | [] => []
  | value :: rest => prettyChars depth value :: prettyItems depth rest

/-- The lines of the members, each with the name it is sorted by. -/
def prettyMembers (depth : Nat) : List (Option String × Json) → List (String × List Char)
  | [] => []
  | (name, value) :: rest =>
    (name.getD "", quoteName name ++ [':', ' '] ++ prettyChars depth value) ::
      prettyMembers depth rest

end

/-- The value over several lines, two spaces deeper for each container, with the members of every
object sorted by name. -/
def pretty (value : Json) : String := String.ofList (prettyChars 0 value)

end Json
end Schemata
