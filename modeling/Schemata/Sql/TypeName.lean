/-
The names of types in definition scripts.  The longest run of words at the head of a name that the
dialect knows decides, so words after it such as `UNSIGNED` change nothing.
-/
import Schemata.Schema.Basic
import Schemata.Sql.Dialect

namespace Schemata
namespace Sql
namespace TypeName

/-- Type names of one or more words, with the types they mean. -/
abbrev Lexicon := List (List String × ColumnType)

def Lexicon.find? (lexicon : Lexicon) (words : List String) : Option ColumnType :=
  (List.find? (fun entry => entry.1 == words) lexicon).map (·.2)

def genericNames : Lexicon :=
  [(["varchar"], .varchar), (["character", "varying"], .varchar), (["char", "varying"], .varchar),
   (["nvarchar"], .varchar), (["varchar2"], .varchar), (["char"], .varchar),
   (["character"], .varchar), (["nchar"], .varchar), (["string"], .varchar),
   (["int"], .integer), (["integer"], .integer), (["bigint"], .integer), (["smallint"], .integer),
   (["serial"], .integer),
   (["boolean"], .boolean), (["bool"], .boolean), (["bit"], .boolean),
   (["date"], .date),
   (["timestamp"], .timestamp), (["datetime"], .timestamp),
   (["uuid"], .uuid), (["uniqueidentifier"], .uuid),
   (["text"], .text), (["clob"], .text), (["ntext"], .text),
   (["json"], .json), (["jsonb"], .json)]

/-- Names that the dialect postgres adds. -/
def postgresNames : Lexicon :=
  [(["serial"], .integer), (["serial4"], .integer), (["bigserial"], .integer),
   (["serial8"], .integer), (["smallserial"], .integer), (["serial2"], .integer),
   (["int4"], .integer), (["int8"], .integer), (["int2"], .integer),
   (["timestamptz"], .timestamp), (["timestamp", "with", "time", "zone"], .timestamp),
   (["timestamp", "without", "time", "zone"], .timestamp),
   (["jsonb"], .json), (["bool"], .boolean), (["citext"], .text), (["name"], .text)]

/-- Names that the dialect mysql adds. -/
def mysqlNames : Lexicon :=
  [(["tinyint"], .integer), (["mediumint"], .integer), (["datetime"], .timestamp),
   (["longtext"], .text), (["mediumtext"], .text), (["tinytext"], .text)]

/-- Whether `part` occurs in the text. -/
def occursIn (part : List Char) : List Char → Bool
  | [] => part.isEmpty
  | c :: rest => part.isPrefixOf (c :: rest) || occursIn part rest

/-- The truth values of the dialect mysql are small integers of one digit. -/
def mysqlBoolean : List Char := "tinyint(1)".toList

/-- The type of a run of words at the head of the name `whole`, which is in lower case. -/
def ofWords? (dialect : Dialect) (whole : List Char) (words : List String) : Option ColumnType :=
  match dialect with
  | .generic => genericNames.find? words
  | .postgres => (postgresNames.find? words).or (genericNames.find? words)
  | .mysql =>
    if words == ["tinyint"] && occursIn mysqlBoolean whole then some .boolean
    else (mysqlNames.find? words).or (genericNames.find? words)

/-- The words of a type name in front of its parameters. -/
def leadingWords (whole : List Char) : List String :=
  (Text.words (whole.takeWhile (· != '('))).map String.ofList

def toType? (dialect : Dialect) (name : String) : Option ColumnType :=
  let whole := Text.lower name.toList
  let words := leadingWords whole
  (List.range words.length).reverse.findSome? fun n => ofWords? dialect whole (words.take (n + 1))

end TypeName
end Sql
end Schemata
