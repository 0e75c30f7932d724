import TreeDump.Error
import TreeDump.Files.Path
import TreeDump.Pattern.Match
import TreeDump.Pattern.Reader

/-!
# Languages

A registry lists bindings of patterns to languages.  The extension of a path is searched for each
pattern in the order of registration, and the first binding whose pattern is found has the path.

* `Registry.classify` answers the binding of a path, `Registry.register` adds a binding, and
  `Registry.findByName` looks a language up by its name.
* `Registry.default` is the registry of the built-in languages.
-/

namespace TreeDump

/-- A pattern for extensions and the language that has them. -/
structure Binding where
  pattern : Pattern
  languageId : String
  name : String
deriving Repr, DecidableEq

namespace Binding

def matchesExtension (b : Binding) (extension : String) : Bool :=
  (b.pattern.expr.search extension.toList).isSome

def matchesPath (b : Binding) (path : String) : Bool :=
  (extensionOf? path).any b.matchesExtension

end Binding

/-- Bindings in the order of registration. -/
structure Registry where
  bindings : List Binding := []
deriving Repr

namespace Registry

/-- The registry with one more binding, if the pattern is one. -/
def register (r : Registry) (pattern languageId name : String) (ignoreCase : Bool) :
    Except PatternFault Registry :=
  match Pattern.compile ignoreCase pattern with
  | .ok pattern => .ok ⟨r.bindings ++ [⟨pattern, languageId, name⟩]⟩
  | .error fault => .error fault

/-- The first binding that matches a path. -/
def classify (r : Registry) (path : String) : Option Binding :=
  r.bindings.find? (·.matchesPath path)

def unsupported (path : String) : Error :=
  .unsupportedLanguage path ((extensionOf? path).getD "unknown")

/-- The first binding that matches a path, or the error that there is none. -/
def classifyOrError (r : Registry) (path : String) : Except Error Binding :=
  match r.classify path with
  | some binding => .ok binding
  | none => .error (unsupported path)

/-- The first binding whose shown name, in lower case, or whose grammar is `name` in lower
case. -/
def findByName (r : Registry) (name : String) : Option Binding :=
  let lowered := CharClass.lowercase name
  r.bindings.find? fun b => CharClass.lowercase b.name == lowered || b.languageId == lowered

end Registry

/-! ## Built-in languages -/

/-- A language as listings show it. -/
structure Language where
  /-- The ending of the extensions of the language. -/
  ending : String
  id : String
  name : String
deriving Repr, DecidableEq

namespace Language

/-- The extensions of a language, with their dots. -/
def extensions (l : Language) : List String := ["." ++ l.ending]

/-- The pattern for the extensions of a language: they end with its ending. -/
def pattern (l : Language) : String := l.ending ++ "$"

/-- The built-in languages, in order of priority. -/
def builtin : List Language := [
  ⟨"rs", "rust", "Rust"⟩, ⟨"java", "java", "Java"⟩, ⟨"cs", "csharp", "C#"⟩, ⟨"go", "go", "Go"⟩,
  ⟨"py", "python", "Python"⟩, ⟨"ts", "typescript", "TypeScript"⟩, ⟨"tsx", "tsx", "TSX"⟩,
  ⟨"js", "javascript", "JavaScript"⟩, ⟨"rb", "ruby", "Ruby"⟩]

end Language

/-- The registry of some languages.  A language whose ending is no pattern is left out. -/
def Registry.ofLanguages (languages : List Language) : Registry :=
  languages.foldl (fun r l => (r.register l.pattern l.id l.name false).toOption.getD r) {}

def Registry.default : Registry := .ofLanguages Language.builtin

end TreeDump
