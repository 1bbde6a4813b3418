/-
Reading a JSON text.  The tokens are taken one after the other, and the containers that are still
open wait in a list, the innermost first, with what they hold so far.
-/
import Schemata.Json.Token

namespace Schemata
namespace Json

/-- A container that is still open, with its contents so far in reverse order. -/
inductive Frame
  | array (items : List Json)
  | object (members : List (Option String × Json)) (name : Option String)
  deriving Repr

/-- What may come next. -/
inductive Expected
  | value
  /-- A value, or the end of an array that is empty. -/
  | firstItem
  /-- A name, or the end of an object that is empty. -/
  | firstName
  | name (members : List (Option String × Json))
  | colon (members : List (Option String × Json)) (name : Option String)
  /-- A comma or the end of the innermost container, after the given value in it. -/
  | next (value : Json)
  deriving Repr

/-- The value of the tokens, of which `expected` come next inside the containers `frames`. -/
def build : List Token → Expected → List Frame → Option Json
  | [], .next value, [] => some value
  | [], _, _ => none
  | t :: rest, expected, frames =>
    match expected, t with
    | .value, .null | .firstItem, .null => build rest (.next .null) frames
    | .value, .bool b | .firstItem, .bool b => build rest (.next (.bool b)) frames
    | .value, .number s | .firstItem, .number s =>
      build rest (.next (.number (String.ofList s))) frames
    | .value, .string (some s) | .firstItem, .string (some s) => build rest (.next (.text s)) frames
    | .value, .string none | .firstItem, .string none => build rest (.next .brokenText) frames
    | .value, .openBracket => build rest .firstItem (.array [] :: frames)
    | .firstItem, .openBracket => build rest .firstItem (.array [] :: frames)
    | .value, .openBrace => build rest .firstName frames
    | .firstItem, .openBrace => build rest .firstName frames
    | .firstItem, .closeBracket =>
      match frames with
      | .array _ :: frames => build rest (.next (.array [])) frames
      | _ => none
    | .firstName, .closeBrace => build rest (.next (.object [])) frames
    | .firstName, .string name => build rest (.colon [] name) frames
    | .name members, .string name => build rest (.colon members name) frames
    | .colon members name, .colon => build rest .value (.object members name :: frames)
    | .next value, .comma =>
      match frames with
      | .array items :: frames => build rest .value (.array (value :: items) :: frames)
      | .object members name :: frames => build rest (.name ((name, value) :: members)) frames
      | [] => none
    | .next value, .closeBracket =>
      match frames with
      | .array items :: frames => build rest (.next (.array (value :: items).reverse)) frames
      | _ => none
    | .next value, .closeBrace =>
      match frames with
      | .object members name :: frames =>
        build rest (.next (.object ((name, value) :: members).reverse)) frames
      | _ => none
    | _, _ => none

/-- The value that a text denotes, if it is one JSON value with white space around it. -/
def parse? (source : String) : Option Json := do
  build (← tokens? source.toList) .value []

end Json
end Schemata
