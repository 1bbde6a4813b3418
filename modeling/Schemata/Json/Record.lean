/-
Reading records.  A record is an object whose members are looked up by name, or an array that
gives the fields in their order and may leave out the last ones.  Members of other names are
passed over.  Decoders return nothing if a value has not the shape that they ask for.
-/
import Schemata.Json.Number

namespace Schemata
namespace Json

/-- The members of the given name, of which there may be at most one. -/
def single? (members : List (Option String × Json)) (name : String) : Option (Option Json) :=
  match members.filter (·.1 == some name) with
  | [] => some none
  | [m] => some (some m.2)
  | _ => none

/-- The fields of a record with the given names, each of which may be absent. -/
def fields? (names : List String) : Json → Option (List (Option Json))
  | object members =>
    if members.any (·.1.isNone) then none else names.mapM (single? members)
  | array items =>
    if items.length ≤ names.length then some (names.mapIdx fun i _ => items[i]?) else none
  | _ => none

/-! ## Fields -/

/-- A field that has to be present. -/
def required (decode : Json → Option α) (field : Option Json) : Option α := field.bind decode

/-- A field that has a default. -/
def withDefault (default : α) (decode : Json → Option α) : Option Json → Option α
  | none => some default
  | some value => decode value

/-- A field that may be absent or `null`. -/
def optional (decode : Json → Option α) : Option Json → Option (Option α)
  | none => some none
  | some null => some none
  | some value => (decode value).map some

/-! ## Values -/

def text? : Json → Option String
  | text s => some s
  | _ => none

def bool? : Json → Option Bool
  | bool b => some b
  | _ => none

def list? (decode : Json → Option α) : Json → Option (List α)
  | array items => items.mapM decode
  | _ => none

/-- The word of a value that is one of several words: a string, or an object with the word as its
only name and `null` as its value. -/
def word? : Json → Option String
  | text s => some s
  | object [(some s, null)] => some s
  | _ => none

end Json
end Schemata
