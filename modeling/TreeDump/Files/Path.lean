/-!
# Paths

A path is a number of leading slashes and the names of its steps.  Steps that lead nowhere are
dropped when a path is read: empty ones, and single dots.  Two dots are kept, since what they
lead to depends on the file system.

* `Path.text` is the written form of a path; the path without steps is a single dot.
* `Path.suffix?` is the part of the last step from its last dot on, and `Path.extension?` the
  same part without the dot.
-/

namespace TreeDump

/-! ## Steps of a written path -/

/-- The parts of a text between the slashes; `part` is what precedes the text since the last
slash, read backwards. -/
def splitSlashes (part : List Char) : List Char → List (List Char)
  | [] => [part.reverse]
  | c :: rest =>
    if c == '/' then part.reverse :: splitSlashes [] rest else splitSlashes (c :: part) rest

/-- The steps of a written path, empty ones and dots included. -/
def rawSteps (text : String) : List String := (splitSlashes [] text.toList).map String.ofList

/-- Where a path starts. -/
inductive Anchor where
  | relative
  | root
  /-- At the root, written with exactly two slashes. -/
  | doubleRoot
deriving Repr, DecidableEq

namespace Anchor

/-- The slashes in front of the steps. -/
def text : Anchor → String
  | relative => ""
  | root => "/"
  | doubleRoot => "//"

/-- The anchor of a written path: three slashes or more are as good as one. -/
def ofChars : List Char → Anchor
  | '/' :: '/' :: '/' :: _ => root
  | '/' :: '/' :: _ => doubleRoot
  | '/' :: _ => root
  | _ => relative

end Anchor

/-- A path without steps that lead nowhere. -/
structure Path where
  anchor : Anchor := .relative
  names : List String := []
deriving Repr, DecidableEq

namespace Path

/-- A step that leads somewhere. -/
def isStep (name : String) : Bool := name != "" && name != "."

def ofString (text : String) : Path :=
  ⟨Anchor.ofChars text.toList, (rawSteps text).filter isStep⟩

def text (path : Path) : String :=
  if path.anchor = .relative ∧ path.names = [] then "."
  else path.anchor.text ++ "/".intercalate path.names

/-- The parts of a path: its slashes, if any, and its steps. -/
def parts (path : Path) : List String :=
  match path.anchor with
  | .relative => path.names
  | anchor => anchor.text :: path.names

/-- The last step, or nothing if there is none. -/
def name (path : Path) : String := path.names.getLastD ""

def parent (path : Path) : Path := { path with names := path.names.dropLast }

def child (path : Path) (name : String) : Path := { path with names := path.names ++ [name] }

/-- The path that `other` leads to from the end of a path. -/
def join (path other : Path) : Path :=
  match other.anchor with
  | .relative => { path with names := path.names ++ other.names }
  | _ => other

/-- The path of `path` seen from `base`, if `base` is where it begins. -/
def relativeTo? (path base : Path) : Option Path :=
  if path.anchor = base.anchor ∧ base.names <+: path.names then
    some ⟨.relative, path.names.drop base.names.length⟩
  else none

/-! ## Suffixes -/

/-- The part of a name from its last dot on, unless the dot is its first or its last
character. -/
def suffixOf? (name : List Char) : Option (List Char) :=
  match name.reverse.span (· != '.') with
  | (_, []) => none
  | (_, [_]) => none
  | ([], _) => none
  | (after, dot :: _) => some (dot :: after.reverse)

/-- The suffix of the last step, with its dot. -/
def suffix? (path : Path) : Option String := (suffixOf? path.name.toList).map String.ofList

/-- The suffix of the last step, without its dot. -/
def extension? (path : Path) : Option String :=
  (suffixOf? path.name.toList).map fun suffix => String.ofList suffix.tail

end Path

def extensionOf? (text : String) : Option String := (Path.ofString text).extension?

end TreeDump
