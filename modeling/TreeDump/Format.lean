import TreeDump.Error
import TreeDump.Json.Stream
import TreeDump.Tree.Basic
import TreeDump.Yaml.Emit

/-!
# Documents, output formats and previews

The document of a file wraps the exported tree with the name of the file and its language.

* `OutputFormat.render` is the text of a value in one of the three formats.
* `preview` cuts a text down to a number of characters, back to the last closing brace.
-/

namespace TreeDump

/-! ## Documents -/

/-- The tag that every document carries. -/
def formatVersion : String := "astgen-0.1"

def document (path language : String) (tree : Node) : Json :=
  .obj [("version", .str formatVersion), ("filename", .str path), ("language", .str language),
    ("ast", tree.toJson)]

/-! ## Output formats -/

inductive OutputFormat where
  | json
  | prettyJson
  | yaml
deriving Repr, DecidableEq

namespace OutputFormat

/-- The formats in the order in which they are offered. -/
def all : List OutputFormat := [json, prettyJson, yaml]

def name : OutputFormat → String
  | json => "json"
  | prettyJson => "pretty-json"
  | yaml => "yaml"

def ofName? (name : String) : Option OutputFormat := all.find? (·.name == name)

def read (name : String) : Except Raised OutputFormat :=
  match ofName? name with
  | some format => .ok format
  | none => .error (.unknownFormat name)

def render : OutputFormat → Json → String
  | json, value => value.compact
  | prettyJson, value => value.render (.indented 2)
  | yaml, value => Yaml.render value

end OutputFormat

/-! ## Previews -/

/-- The characters of a text up to a limit.  A negative limit leaves off characters at the end. -/
def takeUpTo (limit : Int) (cs : List Char) : List Char :=
  if limit < 0 then cs.take (cs.length + limit).toNat else cs.take limit.toNat

/-- A text up to and with its last closing brace, or the whole text if it has none. -/
def upToLastBrace (cs : List Char) : List Char :=
  match cs.reverse.dropWhile (· != '\x7d') with
  | [] => cs
  | reversed => reversed.reverse

/-- A text of at most `limit` characters as it is, and a longer one cut at the limit and then
back to its last closing brace. -/
def preview (limit : Int) (text : String) : String :=
  let cs := text.toList
  if (cs.length : Int) ≤ limit then text else String.ofList (upToLastBrace (takeUpTo limit cs))

def preview? (limit : Option Int) (text : String) : String :=
  match limit with
  | some limit => preview limit text
  | none => text

end TreeDump
