/-
The schema that a new session can begin with: users and their posts.
-/
import Schemata.Schema.Operations

namespace Schemata
namespace Schema

/-- A column of the starter schema that is neither unique nor part of a key. -/
def plainColumn (name : String) (type : ColumnType) (isNullable : Bool) : ColumnSpec :=
  ⟨name, type, false, false, isNullable⟩

def starter : Schema :=
  let (s, users) := empty.addTable "users" none
  let (s, userId) := s.insertColumn users ⟨"id", .uuid, true, false, false⟩
  let (s, _) := s.insertColumn users ⟨"email", .varchar, false, true, false⟩
  let (s, _) := s.insertColumn users (plainColumn "created_at" .timestamp true)
  let (s, posts) := s.addTable "posts" none
  let (s, _) := s.insertColumn posts ⟨"id", .uuid, true, false, false⟩
  let (s, author) := s.insertColumn posts (plainColumn "user_id" .uuid false)
  let (s, _) := s.insertColumn posts (plainColumn "content" .text true)
  (s.insertRelation ⟨users, userId⟩ ⟨posts, author⟩ .oneToMany).1

end Schema
end Schemata
