import TreeDump.Files.Path

/-!
# Include and exclude patterns

A pattern with exactly one star takes the paths that start with what stands before the star and
end with what stands after it.  Every other pattern takes the paths that contain it as it is.

* `globMatches` is the test of one pattern, and `Filter.accepts` that of lists of patterns.
-/

namespace TreeDump

/-- Whether a text contains another one. -/
def containsRun (part text : List Char) : Bool :=
  part.isPrefixOf text || match text with
    | [] => false
    | _ :: rest => containsRun part rest

/-- What stands before and after the star of a pattern, if it has exactly one. -/
def aroundStar? (pattern : List Char) : Option (List Char × List Char) :=
  match pattern.span (· != '*') with
  | (before, _ :: after) => if after.contains '*' then none else some (before, after)
  | (_, []) => none

def globMatches (pattern path : String) : Bool :=
  match aroundStar? pattern.toList with
  | some (before, after) => before.isPrefixOf path.toList && after.isSuffixOf path.toList
  | none => containsRun pattern.toList path.toList

def anyMatches (patterns : List String) (path : String) : Bool :=
  patterns.any (globMatches · path)

/-- The patterns of paths that are wanted and of those that are not. -/
structure Filter where
  included : List String := []
  excluded : List String := []
deriving Repr, DecidableEq

/-- Whether a path passes: no pattern excludes it, and if any paths are asked for, it is one of
them. -/
def Filter.accepts (f : Filter) (path : String) : Bool :=
  !anyMatches f.excluded path && (f.included.isEmpty || anyMatches f.included path)

@[simp] theorem Filter.accepts_empty (path : String) : ({} : Filter).accepts path = true := rfl

end TreeDump
